import TagRules.Proofs.Condition.Evaluation
import TagRules.Proofs.Record.View

set_option autoImplicit false

namespace TagRules

open Value

namespace Record

inductive Compound : Value → Prop
  | list (items : List Value) : Compound (.list items)
  | tuple (items : List Value) : Compound (.tuple items)
  | mapping (entries : List (Value × Value)) : Compound (.mapping entries)
  | view (entries : List (Value × Value)) : Compound (.view entries)
  | struct (fields : List (String × Value)) : Compound (.struct fields)

def PairedItems (v p : Value) : Prop :=
  (∃ items ps, v.items? = some items ∧ p = .tuple ps ∧ (∀ item ∈ items, Data item) ∧
    List.Forall₂ (fun item p => plain item = .ok p) items ps) ∨
  (v.items? = none ∧ p.items? = none)

theorem plain_compound (v p : Value) (data : Data v) (found : plain v = .ok p) :
    p = v ∨ (Compound v ∧ Compound p ∧ PairedItems v p) := by
  cases data with
  | atom atomic => exact .inl (Except.ok.inj ((plain_atom v atomic).symm.trans found)).symm
  | @array _ items listed each =>
    rw [plain_array v items listed] at found
    obtain ⟨ps, itemsFound, rfl⟩ := map_ok _ _ p found
    have compound : Compound v := by cases v <;> cases listed <;> constructor
    exact .inr ⟨compound, .tuple ps,
      .inl ⟨items, ps, listed, rfl, each, plain_items_paired items ps itemsFound⟩⟩
  | @mapping _ fields keyed =>
    rw [plain_mapping v fields keyed] at found
    obtain ⟨named, _, rfl⟩ := map_ok _ _ p found
    have compound : Compound v := by cases v <;> cases keyed <;> constructor
    have noItems : v.items? = none := by cases v <;> cases keyed <;> rfl
    exact .inr ⟨compound, .view _, .inr ⟨noItems, rfl⟩⟩
  | @struct fields =>
    obtain ⟨named, _, rfl⟩ := map_ok _ _ p found
    exact .inr ⟨.struct fields, .view _, .inr ⟨rfl, rfl⟩⟩

end Record

namespace Condition

open Record

theorem compound_unlike_scalar (v scalar : Value) (compound : Compound v) (isScalar : ScalarOrNull scalar) :
    v.strictEquals scalar = .ok false ∧ same v scalar = .ok false := by
  rcases isScalar with rfl | isScalar
  · cases compound <;> exact ⟨rfl, rfl⟩
  · cases compound <;> cases isScalar <;> exact ⟨rfl, rfl⟩

theorem plain_like_scalar (v p scalar : Value) (data : Data v) (found : plain v = .ok p)
    (isScalar : ScalarOrNull scalar) :
    p.strictEquals scalar = v.strictEquals scalar ∧ same p scalar = same v scalar := by
  rcases plain_compound v p data found with rfl | ⟨compound, plainCompound, _⟩
  · exact ⟨rfl, rfl⟩
  · obtain ⟨unequal, different⟩ := compound_unlike_scalar v scalar compound isScalar
    obtain ⟨plainUnequal, plainDifferent⟩ := compound_unlike_scalar p scalar plainCompound isScalar
    exact ⟨plainUnequal.trans unequal.symm, plainDifferent.trans different.symm⟩

theorem compound_not_identical (v other : Value) (compound : Compound v) : identical v other = false := by
  cases compound <;> rfl

theorem plain_identical (v p other : Value) (data : Data v) (found : plain v = .ok p) :
    identical p other = identical v other := by
  rcases plain_compound v p data found with rfl | ⟨compound, plainCompound, _⟩
  · rfl
  · rw [compound_not_identical v other compound, compound_not_identical p other plainCompound]

theorem plain_items_like_scalars (items ps scalars : List Value) (data : ∀ item ∈ items, Data item)
    (paired : List.Forall₂ (fun item p => plain item = .ok p) items ps)
    (each : ∀ scalar ∈ scalars, Scalar scalar) : sameItems ps scalars = sameItems items scalars := by
  induction paired generalizing scalars with
  | nil => cases scalars <;> rfl
  | @cons item p items ps found _ ih =>
    cases scalars with
    | nil => rfl
    | cons scalar more =>
      obtain ⟨itemData, itemsData⟩ := List.forall_mem_cons.mp data
      obtain ⟨isScalar, moreScalars⟩ := List.forall_mem_cons.mp each
      have atHead := (plain_like_scalar item p scalar itemData found (.inr isScalar)).2
      have later := ih more itemsData moreScalars
      have identity := plain_identical item p scalar itemData found
      simp only [sameItems, orIdentical, atHead, identity, later]

-- The answers agree, or a comparison with the view fails.
def Agrees (onRecord onView : Except Fault Bool) : Prop :=
  onView = onRecord ∨ onView = .error .signallingOperand

theorem Agrees.map (f : Bool → Bool) {onRecord onView : Except Fault Bool}
    (agrees : Agrees onRecord onView) : Agrees (onRecord.map f) (onView.map f) := by
  rcases agrees with rfl | rfl
  · exact .inl rfl
  · exact .inr rfl

-- A list that holds the items of a rule's array.
def Twin (v value : Value) : Prop :=
  ∃ items wanted, v = .list items ∧ value = .tuple wanted ∧
    same (.tuple items) (.tuple wanted) = .ok true

theorem without_items_unlike (v value : Value) (compound : Compound v) (noItems : v.items? = none)
    (kind : ScalarOrNull value ∨ ScalarTuple value) : v.strictEquals value = .ok false := by
  rcases kind with scalar | ⟨wanted, rfl, _⟩
  · exact (compound_unlike_scalar v value compound scalar).1
  · cases compound with
    | list items => cases noItems
    | tuple items => cases noItems
    | _ => rfl

theorem without_items_contains_nothing (v value : Value) (compound : Compound v)
    (noItems : v.items? = none) : Operator.containsValue v value = .ok false := by
  cases compound with
  | list items => cases noItems
  | tuple items => cases noItems
  | _ => rfl

theorem contains_of_items (v value : Value) (items : List Value) (listed : v.items? = some items) :
    Operator.containsValue v value =
      Operator.anyEquals (fun item => item.strictEquals value) items := by
  rw [Operator.containsValue, listed]

theorem compound_member (v : Value) (wanted : List Value) (compound : Compound v) :
    Operator.isMember v (.tuple wanted) = Operator.anyEquals (fun item => v.strictEquals item) wanted := by
  cases compound <;> rfl

theorem compound_empty (v : Value) (compound : Compound v) :
    v.isEmpty = (v.items?.map List.isEmpty).getD false := by
  cases compound <;> rfl

theorem compound_equals (v value second : Value) (compound : Compound v) :
    Operator.equals.apply v value second = v.strictEquals value := by
  cases compound <;> rfl

theorem compound_not_equals (v value second : Value) (compound : Compound v) :
    Operator.notEquals.apply v value second = (v.strictEquals value).map (!·) := by
  cases compound <;> rfl

theorem compound_not_contains (v value second : Value) (compound : Compound v) :
    Operator.notContains.apply v value second =
      if v.items?.isSome then (Operator.containsValue v value).map (!·) else .ok false := by
  cases compound <;> rfl

theorem viewed_items_equal (items ps wanted : List Value) (data : ∀ item ∈ items, Data item)
    (paired : List.Forall₂ (fun item p => plain item = .ok p) items ps)
    (each : ∀ scalar ∈ wanted, Scalar scalar) :
    same (.tuple ps) (.tuple wanted) = same (.tuple items) (.tuple wanted) := by
  have sameEach := plain_items_like_scalars items ps wanted data paired each
  have sameLength := paired.length_eq
  simp only [same, sameEach, sameLength]

-- A list equals no tuple, so only a twin of the tuple would be judged otherwise as a tuple.
theorem list_agrees_with_tuple (items wanted : List Value) (each : ∀ scalar ∈ wanted, Scalar scalar)
    (apart : ¬ Twin (.list items) (.tuple wanted)) :
    Agrees (strictEquals (.list items) (.tuple wanted)) (same (.tuple items) (.tuple wanted)) := by
  have unequal : strictEquals (.list items) (.tuple wanted) = .ok false := rfl
  rw [unequal]
  cases answer : same (.tuple items) (.tuple wanted) with
  | error fault =>
    have kind : ScalarOrNull (.tuple wanted) ∨ ScalarTuple (.tuple wanted) := .inr ⟨wanted, rfl, each⟩
    obtain ⟨rfl, _⟩ := same_error (.tuple items) (.tuple wanted) kind fault answer
    exact .inr rfl
  | ok equal =>
    cases equal with
    | false => exact .inl rfl
    | true => exact absurd ⟨items, wanted, rfl, rfl, answer⟩ apart

theorem strict_equals_agrees (v p value : Value) (data : Data v) (found : plain v = .ok p)
    (kind : ScalarOrNull value ∨ ScalarTuple value) (apart : ¬ Twin v value) :
    Agrees (v.strictEquals value) (p.strictEquals value) := by
  rcases plain_compound v p data found with rfl | ⟨compound, plainCompound, paired⟩
  · exact .inl rfl
  · rcases paired with ⟨items, ps, listed, rfl, itemsData, paired⟩ | ⟨noItems, noPlainItems⟩
    · rcases kind with scalar | ⟨wanted, rfl, each⟩
      · exact .inl (plain_like_scalar v _ value data found scalar).1
      · have viewed : strictEquals (.tuple ps) (.tuple wanted) = same (.tuple items) (.tuple wanted) :=
          viewed_items_equal items ps wanted itemsData paired each
        rw [viewed]
        cases compound with
        | tuple =>
          cases listed
          exact .inl rfl
        | list =>
          cases listed
          exact list_agrees_with_tuple items wanted each apart
        | _ => cases listed
    · rw [without_items_unlike v value compound noItems kind,
        without_items_unlike p value plainCompound noPlainItems kind]
      exact .inl rfl

theorem any_equals_agrees (items ps : List Value) (value : Value)
    (data : ∀ item ∈ items, Data item)
    (paired : List.Forall₂ (fun item p => plain item = .ok p) items ps)
    (kind : ScalarOrNull value ∨ ScalarTuple value) (apart : ∀ item ∈ items, ¬ Twin item value) :
    Agrees (Operator.anyEquals (fun item => item.strictEquals value) items)
      (Operator.anyEquals (fun item => item.strictEquals value) ps) := by
  induction paired with
  | nil => exact .inl rfl
  | @cons item p items ps found _ ih =>
    obtain ⟨itemData, itemsData⟩ := List.forall_mem_cons.mp data
    obtain ⟨itemApart, itemsApart⟩ := List.forall_mem_cons.mp apart
    have later := ih itemsData itemsApart
    rw [Operator.anyEquals, Operator.anyEquals]
    rcases strict_equals_agrees item p value itemData found kind itemApart with sameAnswer | failed
    · rw [sameAnswer]
      cases item.strictEquals value with
      | error fault => exact .inl rfl
      | ok answer =>
        cases answer with
        | true => exact .inl rfl
        | false => exact later
    · rw [failed]
      exact .inr rfl

theorem any_equals_same (left right : Value → Except Fault Bool) (items : List Value)
    (each : ∀ item ∈ items, left item = right item) :
    Operator.anyEquals left items = Operator.anyEquals right items := by
  induction items with
  | nil => rfl
  | cons item rest ih =>
    obtain ⟨atHead, later⟩ := List.forall_mem_cons.mp each
    rw [Operator.anyEquals, Operator.anyEquals, atHead, ih later]

theorem contains_agrees (v p value : Value) (data : Data v) (found : plain v = .ok p)
    (kind : ScalarOrNull value ∨ ScalarTuple value)
    (apart : ¬ ∃ items, v.items? = some items ∧ ∃ item ∈ items, Twin item value) :
    Agrees (Operator.containsValue v value) (Operator.containsValue p value) := by
  rcases plain_compound v p data found with rfl | ⟨compound, plainCompound, paired⟩
  · exact .inl rfl
  · rcases paired with ⟨items, ps, listed, rfl, itemsData, paired⟩ | ⟨noItems, noPlainItems⟩
    · have each : ∀ item ∈ items, ¬ Twin item value :=
        fun item member twin => apart ⟨items, listed, item, member, twin⟩
      have agrees := any_equals_agrees items ps value itemsData paired kind each
      rw [contains_of_items v value items listed, contains_of_items (.tuple ps) value ps rfl]
      exact agrees
    · rw [without_items_contains_nothing v value compound noItems,
        without_items_contains_nothing p value plainCompound noPlainItems]
      exact .inl rfl

theorem member_same (v p value : Value) (data : Data v) (found : plain v = .ok p)
    (kind : ScalarOrNull value ∨ ScalarTuple value) :
    Operator.isMember p value = Operator.isMember v value := by
  rcases plain_compound v p data found with rfl | ⟨compound, plainCompound, _⟩
  · rfl
  · rcases kind with (rfl | scalar) | ⟨wanted, rfl, each⟩
    · rfl
    · cases scalar <;> rfl
    · rw [compound_member v wanted compound, compound_member p wanted plainCompound]
      apply any_equals_same
      intro item member
      exact (plain_like_scalar v p item data found (.inr (each item member))).1

theorem empty_same (v p : Value) (data : Data v) (found : plain v = .ok p) : p.isEmpty = v.isEmpty := by
  rcases plain_compound v p data found with rfl | ⟨compound, plainCompound, paired⟩
  · rfl
  · rw [compound_empty v compound, compound_empty p plainCompound]
    rcases paired with ⟨items, ps, listed, rfl, _, paired⟩ | ⟨noItems, noPlainItems⟩
    · rw [listed]
      cases paired <;> rfl
    · rw [noItems, noPlainItems]

theorem number_same (v p : Value) (data : Data v) (found : plain v = .ok p) : p.toNumber = v.toNumber := by
  rcases plain_compound v p data found with rfl | ⟨compound, plainCompound, _⟩
  · rfl
  · cases compound <;> cases plainCompound <;> rfl

-- Where the operator compares lists with the array of its rule, one of them is a twin.
def MeetsTwin (operator : Operator) (field value : Value) : Prop :=
  match operator with
  | .equals => Twin field value
  | .notEquals => Twin field value
  | .contains => ∃ items, field.items? = some items ∧ ∃ item ∈ items, Twin item value
  | .notContains => ∃ items, field.items? = some items ∧ ∃ item ∈ items, Twin item value
  | _ => False

theorem apply_agrees (operator : Operator) (v p value second : Value) (data : Data v)
    (found : plain v = .ok p) (kind : ScalarOrNull value ∨ ScalarTuple value)
    (apart : ¬ MeetsTwin operator v value) :
    Agrees (operator.apply v value second) (operator.apply p value second) := by
  have sameNumber := number_same v p data found
  have sameMember := member_same v p value data found kind
  have sameEmpty := empty_same v p data found
  rcases plain_compound v p data found with rfl | ⟨compound, plainCompound, paired⟩
  · exact .inl rfl
  cases operator with
  | equals =>
    have agrees := strict_equals_agrees v p value data found kind apart
    rwa [← compound_equals v value second compound, ← compound_equals p value second plainCompound]
      at agrees
  | notEquals =>
    have agrees := strict_equals_agrees v p value data found kind apart
    rw [compound_not_equals v value second compound, compound_not_equals p value second plainCompound]
    exact agrees.map _
  | contains => exact contains_agrees v p value data found kind apart
  | notContains =>
    have agrees := contains_agrees v p value data found kind apart
    have sameKind : p.items?.isSome = v.items?.isSome := by
      rcases paired with ⟨items, ps, listed, rfl, _, _⟩ | ⟨noItems, noPlainItems⟩
      · rw [listed]
        rfl
      · rw [noItems, noPlainItems]
    rw [compound_not_contains v value second compound, compound_not_contains p value second plainCompound,
      sameKind]
    by_cases listed : v.items?.isSome = true
    · rw [if_pos listed, if_pos listed]
      exact agrees.map _
    · rw [if_neg listed, if_neg listed]
      exact .inl rfl
  | isIn => exact .inl sameMember
  | notIn => exact .inl (congrArg (Except.map (!·)) sameMember)
  | isEmpty => exact .inl (congrArg Except.ok sameEmpty)
  | isNotEmpty => exact .inl (congrArg (fun empty => Except.ok !empty) sameEmpty)
  | between => exact .inl (by simp only [Operator.apply, Operator.liesBetween, sameNumber])
  | _ => exact .inl (by simp only [Operator.apply, Operator.compares, sameNumber])

theorem combine_agrees (neutral : Bool) (children : List Condition) (onRecord onView : Condition → Verdict)
    (each : ∀ child ∈ children, Agrees (onRecord child).result (onView child).result) :
    Agrees (Verdict.combine neutral (children.map onRecord)).result
      (Verdict.combine neutral (children.map onView)).result := by
  induction children with
  | nil => exact .inl rfl
  | cons child rest ih =>
    obtain ⟨atHead, later⟩ := List.forall_mem_cons.mp each
    have below := ih later
    rw [List.map_cons, List.map_cons, Verdict.result_combine_cons, Verdict.result_combine_cons]
    rcases atHead with same | failed
    · rw [same]
      cases (onRecord child).result with
      | error fault => exact .inl rfl
      | ok answer =>
        simp only [Except.bind]
        by_cases goesOn : answer = neutral
        · simpa only [if_pos goesOn] using below
        · simpa only [if_neg goesOn] using .inl rfl
    · rw [failed]
      exact .inr rfl

theorem evaluate_agrees (limits : Limits) (room : Nat) (c : Condition)
    (readable : Readable limits room c) (record view : Value)
    (walks : ∀ path, Data (Path.resolve record path) ∧
      plain (Path.resolve record path) = .ok (Path.resolve view path))
    (apart : ∀ field operator value, Leaf field operator value c →
      ¬ MeetsTwin operator (Path.resolve record field) value) :
    Agrees (c.evaluate record).result (c.evaluate view).result := by
  induction readable with
  | @single room field operator value second _ kind =>
    obtain ⟨data, found⟩ := walks field
    exact apply_agrees operator _ _ value second data found kind
      (apart field operator value (.here second))
  | @group room combinator children _ _ ih =>
    rw [evaluate_group, evaluate_group]
    apply combine_agrees
    intro child member
    exact ih child member fun field operator value leaf =>
      apart field operator value (.inside member leaf)

theorem view_evaluates_alike (limits : Limits) (payload : Value) (stack : Nat) (tree : Condition)
    (found : read limits payload stack = .ok (some tree)) (record : Value) (data : Data record)
    (isRecord : IsRecord record)
    (apart : ∀ field operator value, Leaf field operator value tree →
      ¬ MeetsTwin operator (Path.resolve record field) value) :
    ∃ view, Record.view record = .ok view ∧
      ((tree.evaluate view).result = (tree.evaluate record).result ∨
        (tree.evaluate view).result = .error .signallingOperand) := by
  have readable := read_readable limits payload stack _ found tree rfl
  obtain ⟨view, viewed, walks⟩ := view_resolves record data isRecord
  exact ⟨view, viewed, evaluate_agrees limits _ tree readable record view walks apart⟩

theorem longer_list_is_no_twin :
    let payload : Value := .mapping [(.text "field", .text "codes"),
      (.text "operator", .text "notEquals"), (.text "value", .list [.text "A"])]
    let record : Value := .mapping [(.text "codes", .list [.text "A", .text "B"])]
    ∃ tree view, read ⟨1, 1⟩ payload = .ok (some tree) ∧ Record.view record = .ok view ∧
      (tree.evaluate record).result = .ok true ∧ (tree.evaluate view).result = .ok true := by
  intro payload record
  let tree : Condition := .single "codes" (.known .notEquals) (.tuple [.text "A"]) .null
  let codes : Value := .list [.text "A", .text "B"]
  have found : read ⟨1, 1⟩ payload = .ok (some tree) := rfl
  have keyed : record.entries? = some (textKeyed [("codes", codes)]) := rfl
  have listData : Data codes :=
    .array rfl (by simpa using ⟨Data.atom (.text "A"), Data.atom (.text "B")⟩)
  have data : Data record := .mapping keyed (by simp [Dictionary.keys]) (by simpa using listData)
  have apart : ∀ field operator value, Leaf field operator value tree →
      ¬ MeetsTwin operator (Path.resolve record field) value := by
    intro field operator value leaf
    obtain ⟨rfl, rfl, rfl⟩ := (leaf_single_iff _ _ _ _ _ _ _).mp leaf
    rintro ⟨items, wanted, isList, isTuple, equal⟩
    cases isList
    cases isTuple
    have longer : same (.tuple [.text "A", .text "B"]) (.tuple [.text "A"]) = .ok false := rfl
    rw [longer] at equal
    cases equal
  have holds : (tree.evaluate record).result = .ok true := rfl
  obtain ⟨view, viewed, agrees | failed⟩ :=
    view_evaluates_alike ⟨1, 1⟩ payload _ tree found record data (.mapping _) apart
  · exact ⟨tree, view, found, viewed, holds, agrees.trans holds⟩
  · cases viewed
    cases failed

-- The record and the rule have the one NaN that JSON texts are read with.
example : Twin (.list [.float (.nan (some 0))]) (.tuple [.float (.nan (some 0))]) :=
  ⟨_, _, rfl, rfl, rfl⟩

theorem list_equals_no_rule_array :
    ¬ ∀ (limits : Limits) (payload : Value) (tree : Condition) (record view : Value) (a b : Bool),
      read limits payload = .ok (some tree) → Data record → IsRecord record →
      Record.view record = .ok view → (tree.evaluate record).result = .ok a →
      (tree.evaluate view).result = .ok b → a = b := by
  intro always
  let payload : Value := .mapping [(.text "field", .text "codes"), (.text "operator", .text "equals"),
    (.text "value", .list [.text "A"])]
  let tree : Condition := .single "codes" (.known .equals) (.tuple [.text "A"]) .null
  let codes : Value := .list [.text "A"]
  let record : Value := .mapping [(.text "codes", codes)]
  let view : Value := .view [(.text "codes", .tuple [.text "A"])]
  have keyed : record.entries? = some (textKeyed [("codes", codes)]) := rfl
  have listData : Data codes := .array rfl (by simpa using Data.atom (.text "A"))
  have data : Data record := .mapping keyed (by simp [Dictionary.keys]) (by simpa using listData)
  have same := always ⟨1, 1⟩ payload tree record view false true rfl data (.mapping _) rfl rfl rfl
  cases same

end Condition

end TagRules
