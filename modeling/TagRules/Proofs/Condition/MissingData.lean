import TagRules.Proofs.Condition.Evaluation

set_option autoImplicit false

namespace TagRules.Condition

open Value

def ofMissing : Operator → Condition
  | .isEmpty => both []
  | .notIn => both []
  | _ => either []

def withoutMissing (record : Value) (c : Condition) : Condition :=
  c.rebuild id fun field operator value second =>
    match Path.resolve record field with
    | .missing => ofMissing operator
    | _ => .single field (.known operator) value second

theorem null_in_no_scalars (items : List Value) (each : ∀ item ∈ items, Scalar item) :
    Operator.anyEquals (fun item => strictEquals .null item) items = .ok false := by
  induction items with
  | nil => rfl
  | cons item rest ih =>
    obtain ⟨atHead, later⟩ := List.forall_mem_cons.mp each
    have differs : strictEquals .null item = .ok false := by cases atHead <;> rfl
    rw [Operator.anyEquals, differs]
    exact ih later

theorem missing_is_no_member (value : Value) (kind : ScalarOrNull value ∨ ScalarTuple value) :
    Operator.isMember .missing value = .ok false := by
  rcases kind with (rfl | scalar) | ⟨items, rfl, each⟩
  · rfl
  · cases scalar <;> rfl
  · exact null_in_no_scalars items each

theorem equals_of_missing (value second : Value) (kind : ScalarOrNull value ∨ ScalarTuple value)
    (fine : operandFault? .equals value second = none) :
    Operator.equals.apply .missing value second = .ok false := by
  have given : value ≠ .null := ((operand_fault_none_iff .equals value second).mp fine rfl).1
  have present : value.isAbsent = false := by
    rcases kind with (null | scalar) | ⟨items, rfl, _⟩
    · exact absurd null given
    · cases scalar <;> rfl
    · rfl
  exact congrArg Except.ok present

theorem apply_missing (record : Value) (operator : Operator) (value second : Value)
    (kind : ScalarOrNull value ∨ ScalarTuple value)
    (fine : operandFault? operator value second = none) :
    Traced.ofExcept (operator.apply .missing value second) = (ofMissing operator).evaluate record := by
  have member := missing_is_no_member value kind
  cases operator with
  | equals => exact congrArg Traced.ofExcept (equals_of_missing value second kind fine)
  | isIn => exact congrArg Traced.ofExcept member
  | notIn => exact congrArg (fun verdict => Traced.ofExcept (verdict.map (!·))) member
  | _ => rfl

theorem evaluate_without_missing (limits : Limits) (room : Nat) (c : Condition)
    (readable : Readable limits room c) (record : Value) :
    (c.withoutMissing record).evaluate record = c.evaluate record := by
  induction readable with
  | @single room field operator value second _ kind _ fine =>
    rw [withoutMissing, rebuild]
    split
    · rename_i lost
      rw [← apply_missing record operator value second kind fine, ← lost]
      rfl
    · rfl
  | @group room combinator children _ _ ih =>
    have each : (children.map (withoutMissing record)).map (evaluate record) =
        children.map (evaluate record) := by
      rw [List.map_map]
      exact List.map_congr_left ih
    rw [withoutMissing, rebuild_group, evaluate_group, evaluate_group, ← each]
    rfl

theorem leaf_without_data (limits : Limits) (room : Nat) (record : Value) (field : String)
    (operator : Operator) (value second : Value)
    (readable : Readable limits room (.single field (.known operator) value second))
    (lost : Path.resolve record field = .missing) (notEmpty : operator ≠ .isEmpty)
    (notOutside : operator ≠ .notIn) :
    ((single field (.known operator) value second).evaluate record).result = .ok false := by
  cases readable with
  | single _ kind _ fine =>
    have verdict := apply_missing record operator value second kind fine
    rw [evaluate, evaluateSingle, lost, verdict]
    cases operator with
    | isEmpty => exact absurd rfl notEmpty
    | notIn => exact absurd rfl notOutside
    | _ => rfl

theorem evaluate_without_data (limits : Limits) (room : Nat) (c : Condition)
    (readable : Readable limits room c) (record : Value)
    (lost : ∀ field operator value, Leaf field operator value c →
      Path.resolve record field = .missing ∧ operator ≠ .isEmpty ∧ operator ≠ .notIn)
    (filled : ¬ Within (both []) c) : (c.evaluate record).result = .ok false := by
  induction readable with
  | @single room field operator value second nonempty kind other fine =>
    obtain ⟨gone, notEmpty, notOutside⟩ := lost field operator value (.here second)
    exact leaf_without_data limits (room + 1) record field operator value second
      (.single nonempty kind other fine) gone notEmpty notOutside
  | @group room combinator children _ _ ih =>
    have each : ∀ verdict ∈ children.map (evaluate record), verdict.result = .ok false := by
      intro verdict member
      obtain ⟨child, inside, rfl⟩ := List.mem_map.mp member
      apply ih child inside
      · exact fun field operator value leaf => lost field operator value (.inside inside leaf)
      · exact fun empty => filled (.inside inside empty)
    rw [evaluate_group]
    cases combinator with
    | any => exact Verdict.combine_agreed false _ each
    | all =>
      cases children with
      | nil => exact absurd .whole filled
      | cons first rest =>
        apply Verdict.combine_stopped true
        · exact fun verdict member => ⟨false, each verdict member⟩
        · exact ⟨first.evaluate record, List.mem_cons_self, each _ List.mem_cons_self⟩

theorem missing_data_fails_closed (limits : Limits) (payload : Value) (stack : Nat)
    (tree : Condition) (found : read limits payload stack = .ok (some tree)) (record : Value) :
    (tree.withoutMissing record).evaluate record = tree.evaluate record ∧
    ((∀ field operator value, Leaf field operator value tree →
        Path.resolve record field = .missing ∧ operator ≠ .isEmpty ∧ operator ≠ .notIn) →
      ¬ Within (both []) tree → (tree.evaluate record).result = .ok false) := by
  have readable := read_readable limits payload stack _ found tree rfl
  exact ⟨evaluate_without_missing limits _ tree readable record,
    evaluate_without_data limits _ tree readable record⟩

theorem lost_fields_fail_closed :
    let payload : Value := .mapping [(.text "logicalOperator", .text "or"),
      (.text "conditions", .list
        [.mapping [(.text "field", .text "a.b"), (.text "operator", .text "notEquals"),
          (.text "value", .int 1)],
        .mapping [(.text "field", .text "c"), (.text "operator", .text "notContains"),
          (.text "value", .text "x")]])]
    let record : Value := .mapping [(.text "a", .null)]
    ∃ tree, read ⟨2, 2⟩ payload = .ok (some tree) ∧
      tree.withoutMissing record = either [either [], either []] ∧
      (tree.withoutMissing record).evaluate record = tree.evaluate record ∧
      (tree.evaluate record).result = .ok false := by
  intro payload record
  let tree : Condition := either [.single "a.b" (.known .notEquals) (.int 1) .null,
    .single "c" (.known .notContains) (.text "x") .null]
  have found : read ⟨2, 2⟩ payload = .ok (some tree) := rfl
  obtain ⟨same, fails⟩ := missing_data_fails_closed ⟨2, 2⟩ payload _ tree found record
  refine ⟨tree, found, rfl, same, fails ?_ ?_⟩
  · intro field operator value leaf
    have place : (field = "a.b" ∧ operator = .notEquals ∧ value = .int 1) ∨
        (field = "c" ∧ operator = .notContains ∧ value = .text "x") := by
      simpa [tree, either] using leaf
    rcases place with ⟨rfl, rfl, _⟩ | ⟨rfl, rfl, _⟩
    · exact ⟨rfl, by decide, by decide⟩
    · exact ⟨rfl, by decide, by decide⟩
  · intro empty
    dsimp only [tree, either] at empty
    cases empty with
    | inside member deeper =>
      rcases List.mem_cons.mp member with rfl | later
      · cases deeper
      · cases List.mem_singleton.mp later
        cases deeper

end TagRules.Condition
