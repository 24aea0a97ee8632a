import TagRules.Proofs.Condition.Evaluation

set_option autoImplicit false

namespace TagRules

namespace Combinator

def dual : Combinator → Combinator
  | .all => .any
  | .any => .all

theorem neutral_dual (combinator : Combinator) : combinator.dual.neutral = !combinator.neutral := by
  cases combinator <;> rfl

end Combinator

namespace Operator

def dual : Operator → Operator
  | .equals => .notEquals
  | .notEquals => .equals
  | .contains => .notContains
  | .notContains => .contains
  | .greaterThan => .lessThanOrEqual
  | .lessThanOrEqual => .greaterThan
  | .lessThan => .greaterThanOrEqual
  | .greaterThanOrEqual => .lessThan
  | .isEmpty => .isNotEmpty
  | .isNotEmpty => .isEmpty
  | .isIn => .notIn
  | .notIn => .isIn
  | .between => .between

-- The data is such that either the operator holds of it or its dual does.
def Judges (operator : Operator) (field value : Value) : Prop :=
  match operator with
  | .equals => field ≠ .missing
  | .notEquals => field ≠ .missing
  | .contains => field.items?.isSome ∨ field.text?.isSome
  | .notContains => field.items?.isSome ∨ field.text?.isSome
  | .greaterThan => field.toNumber.isSome ∧ value.toNumber.isSome
  | .lessThan => field.toNumber.isSome ∧ value.toNumber.isSome
  | .greaterThanOrEqual => field.toNumber.isSome ∧ value.toNumber.isSome
  | .lessThanOrEqual => field.toNumber.isSome ∧ value.toNumber.isSome
  | .between => False
  | _ => True

end Operator

namespace Condition

open Value

def dual (c : Condition) : Condition :=
  c.rebuild Combinator.dual fun field operator value second =>
    .single field (.known operator.dual) value second

theorem not_not_result (result : Except Fault Bool) : (result.map (!·)).map (!·) = result := by
  cases result with
  | error fault => rfl
  | ok answer => exact congrArg Except.ok (Bool.not_not answer)

theorem null_loose_equals (value : Value) (kind : ScalarOrNull value ∨ ScalarTuple value) :
    looseEquals .null value = .ok value.isAbsent := by
  rcases kind with (rfl | scalar) | ⟨items, rfl, _⟩
  · rfl
  · cases scalar <;> rfl
  · rfl

theorem equals_of_present (field value second : Value) (present : field ≠ .missing)
    (kind : ScalarOrNull value ∨ ScalarTuple value) :
    Operator.equals.apply field value second = field.looseEquals value := by
  cases field with
  | missing => exact absurd rfl present
  | null => exact (null_loose_equals value kind).symm
  | _ => rfl

theorem not_equals_opposes (field value second : Value) (present : field ≠ .missing)
    (kind : ScalarOrNull value ∨ ScalarTuple value) :
    Operator.notEquals.apply field value second =
      (Operator.equals.apply field value second).map (!·) := by
  rw [equals_of_present field value second present kind]
  cases field with
  | missing => exact absurd rfl present
  | _ => rfl

theorem not_contains_opposes (field value second : Value)
    (searchable : field.items?.isSome ∨ field.text?.isSome) :
    Operator.notContains.apply field value second =
      (Operator.contains.apply field value second).map (!·) := by
  have either : (field.items?.isSome || field.text?.isSome) = true := by simpa using searchable
  simp only [Operator.apply, if_pos either]

theorem compares_opposite (holds opposite : Binary64 → Binary64 → Bool) (x y : Value)
    (numbers : x.toNumber.isSome ∧ y.toNumber.isSome)
    (opposed : ∀ a b : Binary64, a.place?.isSome → b.place?.isSome → opposite a b = !holds a b) :
    Operator.compares opposite x y = !Operator.compares holds x y := by
  obtain ⟨a, left⟩ := Option.isSome_iff_exists.mp numbers.1
  obtain ⟨b, right⟩ := Option.isSome_iff_exists.mp numbers.2
  simp only [Operator.compares, left, right]
  exact opposed a b (to_number_placed x a left) (to_number_placed y b right)

theorem at_most_opposes (field value second : Value)
    (numbers : field.toNumber.isSome ∧ value.toNumber.isSome) :
    Operator.lessThanOrEqual.apply field value second =
      (Operator.greaterThan.apply field value second).map (!·) :=
  congrArg Except.ok (compares_opposite (fun x y => y.below x) Binary64.atMost field value numbers
    Binary64.at_most_eq_not_below)

theorem at_least_opposes (field value second : Value)
    (numbers : field.toNumber.isSome ∧ value.toNumber.isSome) :
    Operator.greaterThanOrEqual.apply field value second =
      (Operator.lessThan.apply field value second).map (!·) :=
  congrArg Except.ok (compares_opposite Binary64.below (fun x y => y.atMost x) field value numbers
    fun a b left right => Binary64.at_most_eq_not_below b a right left)

theorem apply_dual (operator : Operator) (field value second : Value)
    (kind : ScalarOrNull value ∨ ScalarTuple value) (judged : operator.Judges field value) :
    operator.dual.apply field value second = (operator.apply field value second).map (!·) := by
  cases operator with
  | equals => exact not_equals_opposes field value second judged kind
  | notEquals =>
    rw [not_equals_opposes field value second judged kind, not_not_result]
    rfl
  | contains => exact not_contains_opposes field value second judged
  | notContains =>
    rw [not_contains_opposes field value second judged, not_not_result]
    rfl
  | greaterThan => exact at_most_opposes field value second judged
  | lessThanOrEqual =>
    rw [at_most_opposes field value second judged, not_not_result]
    rfl
  | lessThan => exact at_least_opposes field value second judged
  | greaterThanOrEqual =>
    rw [at_least_opposes field value second judged, not_not_result]
    rfl
  | isEmpty => rfl
  | isNotEmpty => exact congrArg Except.ok (Bool.not_not field.isEmpty).symm
  | isIn => rfl
  | notIn => exact (not_not_result (Operator.isMember field value)).symm
  | between => exact judged.elim

theorem evaluate_dual (limits : Limits) (room : Nat) (c : Condition)
    (readable : Readable limits room c) (record : Value)
    (judged : ∀ field operator value, Leaf field operator value c →
      operator.Judges (Path.resolve record field) value) :
    c.dual.evaluate record = (c.evaluate record).map (!·) := by
  induction readable with
  | @single room field operator value second _ kind =>
    have opposite := apply_dual operator (Path.resolve record field) value second kind
      (judged field operator value (.here second))
    exact congrArg Traced.ofExcept opposite
  | @group room combinator children _ _ ih =>
    have each : (children.map dual).map (evaluate record) =
        (children.map (evaluate record)).map fun verdict => verdict.map (!·) := by
      rw [List.map_map, List.map_map]
      apply List.map_congr_left
      intro child member
      exact ih child member fun field operator value leaf =>
        judged field operator value (.inside member leaf)
    rw [dual, rebuild_group, evaluate_group, Combinator.neutral_dual, evaluate_group,
      ← Verdict.combine_not, ← each]
    rfl

theorem dual_negates (limits : Limits) (payload : Value) (stack : Nat) (tree : Condition)
    (found : read limits payload stack = .ok (some tree)) (record : Value)
    (judged : ∀ field operator value, Leaf field operator value tree →
      operator.Judges (Path.resolve record field) value) :
    tree.dual.evaluate record = (tree.evaluate record).map (!·) ∧
    (LeavesDecide record tree → ∃ holds, (tree.evaluate record).result = .ok holds ∧
      (tree.dual.evaluate record).result = .ok !holds) := by
  have readable := read_readable limits payload stack _ found tree rfl
  have negated := evaluate_dual limits _ tree readable record judged
  refine ⟨negated, fun decided => ?_⟩
  obtain ⟨holds, answer⟩ := evaluate_decides record tree decided
  refine ⟨holds, answer, ?_⟩
  rw [negated, Traced.result_map, answer]
  rfl

theorem dual_of_nested_groups_negates :
    let payload : Value := .mapping [(.text "logicalOperator", .text "and"),
      (.text "conditions", .list
        [.mapping [(.text "field", .text "phone"), (.text "operator", .text "notEquals"),
          (.text "value", .text "1")],
        .mapping [(.text "logicalOperator", .text "or"), (.text "conditions", .list
          [.mapping [(.text "field", .text "staff"), (.text "operator", .text "greaterThan"),
            (.text "value", .int 20)],
          .mapping [(.text "field", .text "codes"), (.text "operator", .text "contains"),
            (.text "value", .text "B")]])]])]
    let record : Value := .mapping [(.text "phone", .null), (.text "staff", .text " 12 "),
      (.text "codes", .list [.text "A", .text "B"])]
    ∃ tree, read ⟨3, 2⟩ payload = .ok (some tree) ∧
      (tree.evaluate record).result = .ok true ∧ (tree.dual.evaluate record).result = .ok false := by
  intro payload record
  let phone : Condition := .single "phone" (.known .notEquals) (.text "1") .null
  let staff : Condition := .single "staff" (.known .greaterThan) (.int 20) .null
  let codes : Condition := .single "codes" (.known .contains) (.text "B") .null
  let tree : Condition := both [phone, either [staff, codes]]
  have found : read ⟨3, 2⟩ payload = .ok (some tree) := rfl
  have judged : ∀ field operator value, Leaf field operator value tree →
      operator.Judges (Path.resolve record field) value := by
    intro field operator value leaf
    have place : (field = "phone" ∧ operator = .notEquals ∧ value = .text "1") ∨
        (field = "staff" ∧ operator = .greaterThan ∧ value = .int 20) ∨
        (field = "codes" ∧ operator = .contains ∧ value = .text "B") := by
      simpa [tree, phone, staff, codes, both, either] using leaf
    rcases place with ⟨rfl, rfl, rfl⟩ | ⟨rfl, rfl, rfl⟩ | ⟨rfl, rfl, rfl⟩
    · exact nofun
    · exact ⟨rfl, rfl⟩
    · exact .inl rfl
  have decided : LeavesDecide record tree := by
    have atPhone := (leaves_decide_leaf record phone trivial).mpr ⟨true, rfl⟩
    have atStaff := (leaves_decide_leaf record staff trivial).mpr ⟨false, rfl⟩
    have atCodes := (leaves_decide_leaf record codes trivial).mpr ⟨true, rfl⟩
    simp [tree, both, either, leaves_decide_group, atPhone, atStaff, atCodes]
  have holds : (tree.evaluate record).result = .ok true := rfl
  obtain ⟨answer, same, opposite⟩ := (dual_negates ⟨3, 2⟩ payload _ tree found record judged).2 decided
  cases holds.symm.trans same
  exact ⟨tree, found, holds, opposite⟩

end Condition

end TagRules
