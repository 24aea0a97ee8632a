import TagRules.Json.Text

/-!
How many digits stand in a row outside strings, and how deep arrays and objects lie within each other.
-/

set_option autoImplicit false

namespace TagRules.Json

inductive Place
  | outside
  | inside
  | escaped

def bare : Place → List Char → List Char
  | _, [] => []
  | .outside, c :: rest => c :: bare (if c = '\x22' then .inside else .outside) rest
  | .inside, c :: rest =>
      bare (if c = '\x22' then .outside else if c = '\\' then .escaped else .inside) rest
  | .escaped, _ :: rest => bare .inside rest

def opens (c : Char) : Bool := c == '[' || c == '{'

def closes (c : Char) : Bool := c == ']' || c == '}'

-- How many more arrays and objects come to be open at once than at the start.
def nesting : List Char → Nat
  | [] => 0
  | c :: rest =>
      if opens c then nesting rest + 1 else if closes c then nesting rest - 1 else nesting rest

def level (cs : List Char) : Nat := nesting (bare .outside cs)

-- `digits` digits stand in a row outside strings.
def HasDigits (digits : Nat) (cs : List Char) : Prop :=
  ∃ run, run.length = digits ∧ (∀ c ∈ run, c.isDigit = true) ∧ run <:+: bare .outside cs

def marks : List Char := ['\x22', '[', ']', '{', '}']

def Plain (c : Char) : Prop := c ∉ marks

instance : DecidablePred Plain := fun c => inferInstanceAs (Decidable (c ∉ marks))

def Skips (cs rest : List Char) : Prop := ∃ token, cs = token ++ rest ∧ ∀ c ∈ token, Plain c

structure Onward (opened closed : Nat) (cs rest : List Char) : Prop where
  behind : bare .outside rest <:+ bare .outside cs
  level : level rest + opened ≤ level cs + closed

theorem Skips.refl (cs : List Char) : Skips cs cs := ⟨[], rfl, nofun⟩

theorem Skips.cons {c : Char} {cs rest : List Char} (plain : Plain c) (skips : Skips cs rest) :
    Skips (c :: cs) rest := by
  obtain ⟨token, rfl, each⟩ := skips
  exact ⟨c :: token, rfl, List.forall_mem_cons.mpr ⟨plain, each⟩⟩

theorem Skips.trans {cs mid rest : List Char} (first : Skips cs mid) (second : Skips mid rest) :
    Skips cs rest := by
  obtain ⟨token, rfl, each⟩ := first
  obtain ⟨more, rfl, later⟩ := second
  exact ⟨token ++ more, (List.append_assoc _ _ _).symm, List.forall_mem_append.mpr ⟨each, later⟩⟩

theorem plain_of_class (p : Char → Bool) (none : marks.any p = false) (c : Char)
    (holds : p c = true) : Plain c := fun member => by
  rw [List.any_eq_true.mpr ⟨c, member, holds⟩] at none
  cases none

theorem bare_unmarked (c : Char) (rest : List Char) (unmarked : c ≠ '\x22') :
    bare .outside (c :: rest) = c :: bare .outside rest := by
  simp [bare, unmarked]

theorem Onward.trans {a b c d : Nat} {cs mid rest : List Char} (first : Onward a b cs mid)
    (second : Onward c d mid rest) : Onward (a + c) (b + d) cs rest where
  behind := second.behind.trans first.behind
  level := by
    have early := first.level
    have late := second.level
    omega

theorem bare_append (token rest : List Char) (plain : ∀ c ∈ token, Plain c) :
    bare .outside (token ++ rest) = token ++ bare .outside rest := by
  induction token with
  | nil => rfl
  | cons c token ih =>
    obtain ⟨first, later⟩ := List.forall_mem_cons.mp plain
    have unmarked : c ≠ '\x22' := by
      rintro rfl
      exact first List.mem_cons_self
    rw [List.cons_append, bare_unmarked c _ unmarked, ih later, List.cons_append]

theorem nesting_append (token rest : List Char) (plain : ∀ c ∈ token, Plain c) :
    nesting (token ++ rest) = nesting rest := by
  induction token with
  | nil => rfl
  | cons c token ih =>
    obtain ⟨first, later⟩ := List.forall_mem_cons.mp plain
    simp only [Plain, marks, List.mem_cons, List.not_mem_nil, or_false, not_or] at first
    simp [nesting, opens, closes, first, ih later]

theorem Skips.onward {cs rest : List Char} (skips : Skips cs rest) : Onward 0 0 cs rest := by
  obtain ⟨token, rfl, plain⟩ := skips
  have step := bare_append token rest plain
  have same : level (token ++ rest) = level rest := by
    rw [level, step, nesting_append token _ plain, level]
  refine ⟨?_, Nat.le_of_eq same.symm⟩
  rw [step]
  exact List.suffix_append _ _

theorem onward_opening (c : Char) (rest : List Char) (unmarked : c ≠ '\x22')
    (isOpening : opens c = true) : Onward 1 0 (c :: rest) rest := by
  have step := bare_unmarked c rest unmarked
  refine ⟨?_, ?_⟩
  · rw [step]
    exact List.suffix_cons _ _
  · rw [level, level, step, nesting, isOpening]
    exact Nat.le_refl _

theorem onward_closing (c : Char) (rest : List Char) (unmarked : c ≠ '\x22')
    (notOpening : opens c = false) (isClosing : closes c = true) : Onward 0 1 (c :: rest) rest := by
  have step := bare_unmarked c rest unmarked
  refine ⟨?_, ?_⟩
  · rw [step]
    exact List.suffix_cons _ _
  · rw [level, level, step, nesting, isClosing, notOpening]
    exact Nat.le_add_of_sub_le (Nat.le_refl _)

theorem HasDigits.behind {digits : Nat} {cs rest : List Char}
    (behind : bare .outside rest <:+ bare .outside cs) (written : HasDigits digits rest) :
    HasDigits digits cs := by
  obtain ⟨run, length, each, inside⟩ := written
  exact ⟨run, length, each, inside.trans behind.isInfix⟩

theorem skip_space_skips (cs : List Char) : Skips cs (skipSpace cs) := by
  induction cs with
  | nil => exact .refl []
  | cons c rest ih =>
    cases space : isSpace c with
    | false =>
      rw [skipSpace, List.dropWhile_cons_of_neg (by simp [space])]
      exact .refl _
    | true =>
      rw [skipSpace, List.dropWhile_cons_of_pos space]
      exact .cons (plain_of_class isSpace rfl c space) ih

theorem skip_space_onward (cs : List Char) : Onward 0 0 cs (skipSpace cs) :=
  (skip_space_skips cs).onward

theorem onward_past (c : Char) (rest : List Char) (plain : Plain c) :
    Onward 0 0 (c :: rest) (skipSpace rest) :=
  (Skips.cons plain (skip_space_skips rest)).onward

theorem hex_inside (c : Char) (rest : List Char) (n : Nat) (value : hexValue? c = some n) :
    bare .inside (c :: rest) = bare .inside rest := by
  have unmarked : c ≠ '\x22' ∧ c ≠ '\\' := by constructor <;> rintro rfl <;> cases value
  simp [bare, unmarked]

theorem hex4_inside (a b c d : Char) (rest : List Char) (n : Nat)
    (value : hexValue4? a b c d = some n) :
    bare .inside (a :: b :: c :: d :: rest) = bare .inside rest := by
  unfold hexValue4? at value
  split at value
  · rename_i first second third fourth
    rw [hex_inside a _ _ first, hex_inside b _ _ second, hex_inside c _ _ third,
      hex_inside d _ _ fourth]
  · cases value

end TagRules.Json
