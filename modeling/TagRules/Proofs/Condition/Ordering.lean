import Mathlib.Logic.Relation
import TagRules.Proofs.Condition.Duality

set_option autoImplicit false

namespace TagRules

namespace Binary64

theorem below_trans (x y z : Binary64) (first : x.below y = true) (second : y.below z = true) :
    x.below z = true := by
  unfold below at *
  cases atX : x.place? with
  | none => simp [atX] at first
  | some a =>
    cases atY : y.place? with
    | none => simp [atX, atY] at first
    | some b =>
      cases atZ : z.place? with
      | none => simp [atY, atZ] at second
      | some c =>
        simp only [atX, atY, atZ, decide_eq_true_eq] at first second ⊢
        exact Int.lt_trans first second

theorem not_below_both (x y : Binary64) : (x.below y && y.below x) = false := by
  unfold below
  cases x.place? with
  | none => rfl
  | some a =>
    cases y.place? with
    | none => rfl
    | some b =>
      by_cases order : a < b
      · simp [Int.not_lt.mpr (Int.le_of_lt order)]
      · simp [order]

theorem at_most_of_same_place (x y : Binary64) (placed : x.place?.isSome) (same : x.place? = y.place?) :
    x.atMost y = true := by
  obtain ⟨a, found⟩ := Option.isSome_iff_exists.mp placed
  simp [atMost, ← same, found]

theorem nearest_same_place (x y : Scientific) (same : x.same y = true) :
    (nearest x).place? = (nearest y).place? := by
  simp only [Scientific.same, Bool.and_eq_true, Bool.or_eq_true, beq_iff_eq] at same
  obtain ⟨⟨coefficient, exponent⟩, sign⟩ := same
  by_cases zero : y.normal.coefficient = 0
  · have left : nearest x = .finite x.normal.negative 0 := if_pos (coefficient.trans zero)
    have right : nearest y = .finite y.normal.negative 0 := if_pos zero
    rw [left, right]
    cases x.normal.negative <;> cases y.normal.negative <;> rfl
  · have negative : x.normal.negative = y.normal.negative :=
      sign.resolve_right fun isZero => zero (coefficient.symm.trans isZero)
    have equal : x.normal = y.normal := by
      rw [Scientific.mk.injEq]
      exact ⟨negative, coefficient, exponent⟩
    rw [nearest, equal, nearest]

end Binary64

theorem Number.nearest_same_place (a b : Number) (equal : a.same b = .ok true) (x y : Binary64)
    (left : a.nearest? = some x) (right : b.nearest? = some y) : x.place? = y.place? := by
  cases a with
  | finite first =>
    cases b with
    | finite second =>
      have same : first.same second = true := Except.ok.inj equal
      have places := Binary64.nearest_same_place first second same
      simp only [nearest?] at left right
      split at left <;> cases left
      split at right <;> cases right
      simpa only [*] using places
    | _ => cases right
  | _ => cases left

namespace Value

-- A truth value is no number, though it counts as one where arrays are compared.
inductive IsNumber : Value → Prop
  | int (n : Int) : IsNumber (.int n)
  | float (x : Binary64) : IsNumber (.float x)
  | decimal (x : Decimal) : IsNumber (.decimal x)

theorem IsNumber.numeric {v : Value} (number : IsNumber v) :
    ∃ a, v.numeric? = some a ∧ v.number? = some a := by
  cases number with
  | int n => exact ⟨_, rfl, rfl⟩
  | float x => exact ⟨_, rfl, rfl⟩
  | decimal x => exact ⟨_, rfl, rfl⟩

theorem loose_equals_numbers {x y : Value} (left : IsNumber x) (right : IsNumber y) :
    x.looseEquals y = x.sameLeaf y := by
  cases left <;> cases right <;> rfl

theorem equal_numbers_same_place {x y : Value} (left : IsNumber x) (right : IsNumber y)
    (equal : x.looseEquals y = .ok true) (a b : Binary64) (first : x.toNumber = some a)
    (second : y.toNumber = some b) : a.place? = b.place? := by
  obtain ⟨m, leftNumeric, leftNumber⟩ := left.numeric
  obtain ⟨n, rightNumeric, rightNumber⟩ := right.numeric
  rw [loose_equals_numbers left right] at equal
  simp only [sameLeaf, leftNumeric, rightNumeric] at equal
  rw [toNumber, leftNumber] at first
  rw [toNumber, rightNumber] at second
  exact Number.nearest_same_place m n equal a b first second

end Value

namespace Operator

def orderings : List Operator := [.greaterThan, .lessThan, .greaterThanOrEqual, .lessThanOrEqual]

theorem compares_numbers (holds : Binary64 → Binary64 → Bool) {x y : Value} {a b : Binary64}
    (left : x.toNumber = some a) (right : y.toNumber = some b) : compares holds x y = holds a b := by
  simp only [compares, left, right]

theorem compares_no_number (holds : Binary64 → Binary64 → Bool) (x y : Value)
    (missing : x.toNumber = none ∨ y.toNumber = none) : compares holds x y = false := by
  unfold compares
  rcases missing with left | right
  · rw [left]
  · rw [right]
    cases x.toNumber <;> rfl

theorem ordering_needs_numbers (field value second : Value)
    (missing : field.toNumber = none ∨ value.toNumber = none) (operator : Operator)
    (ordering : operator ∈ orderings) : operator.apply field value second = .ok false := by
  have never : ∀ holds, (.ok (compares holds field value) : Except Fault Bool) = .ok false :=
    fun holds => congrArg Except.ok (compares_no_number holds field value missing)
  simp only [orderings, List.mem_cons, List.not_mem_nil, or_false] at ordering
  rcases ordering with rfl | rfl | rfl | rfl <;> exact never _

theorem trichotomy (field value second : Value)
    (numbers : field.toNumber.isSome ∧ value.toNumber.isSome) :
    ∃ above below : Bool,
      greaterThan.apply field value second = .ok above ∧
      lessThan.apply field value second = .ok below ∧
      greaterThanOrEqual.apply field value second = .ok !below ∧
      lessThanOrEqual.apply field value second = .ok !above ∧
      [above, below, !below && !above].count true = 1 := by
  refine ⟨compares (fun x y => y.below x) field value, compares Binary64.below field value, rfl, rfl,
    Condition.at_least_opposes field value second numbers,
    Condition.at_most_opposes field value second numbers, ?_⟩
  obtain ⟨a, left⟩ := Option.isSome_iff_exists.mp numbers.1
  obtain ⟨b, right⟩ := Option.isSome_iff_exists.mp numbers.2
  have notBoth := Binary64.not_below_both a b
  rw [compares_numbers _ left right, compares_numbers _ left right]
  cases above : b.below a <;> cases below : a.below b <;> simp_all

theorem less_than_trans (first middle last second : Value)
    (before : lessThan.apply first middle second = .ok true)
    (after : lessThan.apply middle last second = .ok true) :
    lessThan.apply first last second = .ok true := by
  have lower : compares Binary64.below first middle = true := Except.ok.inj before
  have upper : compares Binary64.below middle last = true := Except.ok.inj after
  refine congrArg Except.ok ?_
  unfold compares at *
  cases atFirst : first.toNumber with
  | none => simp [atFirst] at lower
  | some a =>
    cases atMiddle : middle.toNumber with
    | none => simp [atFirst, atMiddle] at lower
    | some b =>
      cases atLast : last.toNumber with
      | none => simp [atMiddle, atLast] at upper
      | some c =>
        simp only [atFirst, atMiddle, atLast] at lower upper ⊢
        exact Binary64.below_trans a b c lower upper

-- Equality compares exact values and ordering the nearest binary64 numbers, and still they agree.
theorem equal_numbers_meet_bounds (field value second : Value) (left : Value.IsNumber field)
    (right : Value.IsNumber value) (numbers : field.toNumber.isSome ∧ value.toNumber.isSome)
    (equal : equals.apply field value second = .ok true) :
    greaterThanOrEqual.apply field value second = .ok true ∧
      lessThanOrEqual.apply field value second = .ok true := by
  have same : field.looseEquals value = .ok true := by cases left <;> exact equal
  obtain ⟨a, atField⟩ := Option.isSome_iff_exists.mp numbers.1
  obtain ⟨b, atValue⟩ := Option.isSome_iff_exists.mp numbers.2
  have places := Value.equal_numbers_same_place left right same a b atField atValue
  have aPlaced := field.to_number_placed a atField
  have bPlaced := value.to_number_placed b atValue
  constructor
  · refine congrArg Except.ok ((compares_numbers _ atField atValue).trans ?_)
    exact Binary64.at_most_of_same_place b a bPlaced places.symm
  · refine congrArg Except.ok ((compares_numbers _ atField atValue).trans ?_)
    exact Binary64.at_most_of_same_place a b aPlaced places

theorem lies_between_bounds (field low high : Value) :
    liesBetween field low high =
      (compares (fun x y => y.atMost x) field low && compares Binary64.atMost field high) := by
  unfold liesBetween compares
  cases field.toNumber with
  | none => rfl
  | some x =>
    cases low.toNumber with
    | none => rfl
    | some a =>
      cases high.toNumber with
      | none => exact (Bool.and_false _).symm
      | some b => rfl

end Operator

namespace Condition

inductive Unfolds : Condition → Condition → Prop
  | interval (field : String) (low high first second : Value) :
      Unfolds (.single field (.known .between) low high)
        (both [.single field (.known .greaterThanOrEqual) low first,
          .single field (.known .lessThanOrEqual) high second])
  | inside (combinator : Word Combinator) (before after : List Condition) {child changed : Condition}
      (deeper : Unfolds child changed) :
      Unfolds (.group combinator (before ++ child :: after))
        (.group combinator (before ++ changed :: after))

theorem unfolds_keeps_verdict (record : Value) (c d : Condition) (step : Unfolds c d) :
    c.evaluate record = d.evaluate record := by
  induction step with
  | interval field low high first second =>
    rw [both, evaluate_group]
    simp only [List.map_cons, List.map_nil, evaluate, evaluateSingle, Operator.apply,
      Operator.lies_between_bounds]
    generalize Operator.compares _ _ low = above
    generalize Operator.compares _ _ high = below
    cases above <;> cases below <;> rfl
  | inside combinator before after _ same =>
    cases combinator with
    | unknown v => rfl
    | known combinator => simp only [evaluate_group, List.map_append, List.map_cons, same]

theorem orderings_cohere (field value other second : Value) :
    (field.toNumber = none ∨ value.toNumber = none →
      ∀ operator ∈ Operator.orderings, operator.apply field value second = .ok false) ∧
    (field.toNumber.isSome ∧ value.toNumber.isSome →
      ∃ above below : Bool,
        Operator.greaterThan.apply field value second = .ok above ∧
        Operator.lessThan.apply field value second = .ok below ∧
        Operator.greaterThanOrEqual.apply field value second = .ok !below ∧
        Operator.lessThanOrEqual.apply field value second = .ok !above ∧
        [above, below, !below && !above].count true = 1) ∧
    (Operator.lessThan.apply field value second = .ok true →
      Operator.lessThan.apply value other second = .ok true →
      Operator.lessThan.apply field other second = .ok true) ∧
    (Value.IsNumber field → Value.IsNumber value →
      field.toNumber.isSome ∧ value.toNumber.isSome →
      Operator.equals.apply field value second = .ok true →
      Operator.greaterThanOrEqual.apply field value second = .ok true ∧
        Operator.lessThanOrEqual.apply field value second = .ok true) ∧
    ∀ (record : Value) (c d : Condition), Relation.ReflTransGen Unfolds c d →
      c.evaluate record = d.evaluate record := by
  refine ⟨Operator.ordering_needs_numbers field value second, Operator.trichotomy field value second,
    Operator.less_than_trans field value other second,
    Operator.equal_numbers_meet_bounds field value second, fun record c d steps => ?_⟩
  induction steps with
  | refl => rfl
  | tail _ step same => exact same.trans (unfolds_keeps_verdict record _ _ step)

theorem rounded_equals_meet_bounds :
    let field : Value := .int 9007199254740993
    let value : Value := .decimal (.finite ⟨false, 90071992547409930, -1⟩)
    let half : Value := .decimal (.finite ⟨false, 35, -1⟩)
    let top : Value := .text " 1e16 "
    let record : Value := .mapping [(.text "x", field)]
    let bounds := both [.single "x" (.known .greaterThanOrEqual) value .null,
      .single "x" (.known .lessThanOrEqual) top .null]
    (Operator.greaterThanOrEqual.apply field value .null = .ok true ∧
      Operator.lessThanOrEqual.apply field value .null = .ok true) ∧
    (∀ operator ∈ Operator.orderings, operator.apply field (.bool true) .null = .ok false) ∧
    Operator.lessThan.apply half top .null = .ok true ∧
    (both [either [.single "x" (.known .between) value top]]).evaluate record =
      (both [either [bounds]]).evaluate record := by
  intro field value half top record bounds
  have coherent := orderings_cohere field value value .null
  refine ⟨?_, ?_, ?_, ?_⟩
  · exact coherent.2.2.2.1 (.int _) (.decimal _) ⟨rfl, rfl⟩ rfl
  · exact (orderings_cohere field (.bool true) value .null).1 (.inr rfl)
  · exact (orderings_cohere half field top .null).2.2.1 rfl rfl
  · refine coherent.2.2.2.2 record _ _ (.single ?_)
    exact .inside (.known .all) [] [] (.inside (.known .any) [] [] (.interval "x" value top .null .null))

end Condition

end TagRules
