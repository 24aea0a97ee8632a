import TagRules.Text.Basic
import TagRules.Value.Basic

set_option autoImplicit false

namespace TagRules.Value

def number? : Value → Option Number
  | .int n => some (.ofInt n)
  | .float x => some (.ofBinary64 x)
  | .decimal x => some x.toNumber
  | .text s => Number.ofText? s
  | .textMember s => Number.ofText? s
  | _ => none

def toNumber (v : Value) : Option Binary64 := v.number?.bind Number.nearest?

def isEmpty (v : Value) : Bool :=
  v.isAbsent ||
    (match v.text? with
      | some s => s.toList.all Text.isBlank
      | none => false) ||
    (match v.items? with
      | some items => List.isEmpty items
      | none => false)

end TagRules.Value

namespace TagRules.Binary64

def place? : Binary64 → Option Int
  | .finite negative rank => some (place negative rank)
  | _ => none

def below (x y : Binary64) : Bool :=
  match x.place?, y.place? with
  | some a, some b => decide (a < b)
  | _, _ => false

def atMost (x y : Binary64) : Bool :=
  match x.place?, y.place? with
  | some a, some b => decide (a ≤ b)
  | _, _ => false

theorem at_most_eq_not_below (x y : Binary64) (left : x.place?.isSome) (right : y.place?.isSome) :
    x.atMost y = !y.below x := by
  obtain ⟨a, placed⟩ := Option.isSome_iff_exists.mp left
  obtain ⟨b, other⟩ := Option.isSome_iff_exists.mp right
  simp only [atMost, below, placed, other]
  by_cases order : a ≤ b
  · simp [order, Int.not_lt.mpr order]
  · simp [order, Int.not_le.mp order]

end TagRules.Binary64

namespace TagRules.Value

theorem to_number_placed (v : Value) (x : Binary64) (found : v.toNumber = some x) :
    x.place?.isSome := by
  obtain ⟨number, _, near⟩ := Option.bind_eq_some_iff.mp found
  cases number with
  | finite exact =>
    simp only [Number.nearest?] at near
    split at near
    · cases near
      rfl
    · cases near
  | _ => cases near

end TagRules.Value
