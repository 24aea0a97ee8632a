import TagRules.Condition.Evaluate
import TagRules.Proofs.Condition.Boundary
import TagRules.Proofs.Condition.Groups
import TagRules.Proofs.Condition.RoundTrip

set_option autoImplicit false

namespace TagRules

theorem Number.same_error (x y : Number) (fault : Fault) (failed : x.same y = .error fault) :
    fault = .signallingOperand ∧ (x = .signalling ∨ y = .signalling) := by
  cases x <;> cases y <;> cases failed <;> simp

namespace Value

inductive Reaches : Value → Value → Prop
  | itself (v : Value) : Reaches v v
  | item {v item part : Value} {items : List Value} (array : v.items? = some items)
      (member : item ∈ items) (deeper : Reaches item part) : Reaches v part

structure Clash (field value : Value) : Prop where
  signalling : ∃ negative payload, Reaches field (.decimal (.signalling negative payload))
  number : ∃ part n, Reaches value part ∧ part.numeric? = some n

-- An integer with more digits than are written out, or a float of no finite magnitude.
def TooLong : Value → Prop
  | .int n => Nat.pow 10 Json.maxDigits ≤ n.natAbs
  | .float x => ¬ x.Proper
  | _ => False

theorem numeric_signalling (v : Value) (found : v.numeric? = some .signalling) :
    ∃ negative payload, v = .decimal (.signalling negative payload) := by
  cases v with
  | float x => cases x <;> cases found
  | decimal x =>
    cases x with
    | signalling negative payload => exact ⟨negative, payload, rfl⟩
    | _ => cases found
  | _ => cases found

end Value

namespace Condition

open Value

theorem scalar_quiet (v : Value) (scalar : ScalarOrNull v) : v.numeric? ≠ some .signalling := by
  intro found
  obtain ⟨negative, payload, rfl⟩ := numeric_signalling v found
  rcases scalar with null | scalar
  · cases null
  · cases scalar

theorem same_scalar (x y : Value) (scalar : ScalarOrNull y) : same x y = sameLeaf x y := by
  rcases scalar with rfl | scalar
  · cases x <;> rfl
  · cases scalar <;> cases x <;> rfl

theorem same_scalar_error (x y : Value) (scalar : ScalarOrNull y) (fault : Fault)
    (failed : same x y = .error fault) : fault = .signallingOperand ∧ Clash x y := by
  rw [same_scalar x y scalar] at failed
  unfold sameLeaf at failed
  split at failed
  · rename_i a b left right
    obtain ⟨isSignalling, which⟩ := Number.same_error a b fault failed
    rcases which with rfl | rfl
    · obtain ⟨negative, payload, rfl⟩ := numeric_signalling x left
      exact ⟨isSignalling, ⟨negative, payload, .itself _⟩, y, b, .itself y, right⟩
    · exact absurd right (scalar_quiet y scalar)
  · split at failed
    · cases failed
    · split at failed <;> cases failed

theorem and_then_error (verdict next : Except Fault Bool) (fault : Fault)
    (failed : andThen verdict next = .error fault) :
    verdict = .error fault ∨ next = .error fault := by
  unfold andThen at failed
  split at failed
  · exact .inr failed
  · exact .inl failed

theorem or_identical_error (x y : Value) (verdict : Except Fault Bool) (fault : Fault)
    (failed : orIdentical x y verdict = .error fault) : verdict = .error fault := by
  unfold orIdentical at failed
  split at failed
  · cases failed
  · exact failed

theorem same_items_error (xs ys : List Value) (fault : Fault)
    (failed : sameItems xs ys = .error fault) :
    ∃ x ∈ xs, ∃ y ∈ ys, same x y = .error fault := by
  induction xs generalizing ys with
  | nil => cases ys <;> cases failed
  | cons x xs ih =>
    cases ys with
    | nil => cases failed
    | cons y ys =>
      rcases and_then_error _ _ fault failed with atHead | later
      · exact ⟨x, List.mem_cons_self, y, List.mem_cons_self, or_identical_error _ _ _ fault atHead⟩
      · obtain ⟨a, inside, b, within, failed⟩ := ih ys later
        exact ⟨a, List.mem_cons_of_mem x inside, b, List.mem_cons_of_mem y within, failed⟩

theorem same_error (x y : Value) (kind : ScalarOrNull y ∨ ScalarTuple y) (fault : Fault)
    (failed : same x y = .error fault) : fault = .signallingOperand ∧ Clash x y := by
  rcases kind with scalar | ⟨ys, rfl, each⟩
  · exact same_scalar_error x y scalar fault failed
  · cases x with
    | tuple xs =>
      rcases and_then_error _ _ fault failed with items | lengths
      · obtain ⟨a, inside, b, within, failed⟩ := same_items_error xs ys fault items
        obtain ⟨isSignalling, ⟨negative, payload, left⟩, part, n, right, number⟩ :=
          same_scalar_error a b (.inr (each b within)) fault failed
        exact ⟨isSignalling, ⟨negative, payload, .item rfl inside left⟩,
          part, n, .item rfl within right, number⟩
      · cases lengths
    | _ => cases failed

theorem strict_equals_error (x y : Value) (fault : Fault)
    (failed : x.strictEquals y = .error fault) : same x y = .error fault := by
  unfold strictEquals at failed
  split at failed
  · split at failed <;> cases failed
  · split at failed
    · split at failed <;> cases failed
    · exact failed

theorem loose_equals_error (x y : Value) (fault : Fault)
    (failed : x.looseEquals y = .error fault) : same x y = .error fault := by
  unfold looseEquals at failed
  split at failed
  · cases failed
  · exact strict_equals_error x y fault failed

theorem any_equals_error (equal : Value → Except Fault Bool) (items : List Value) (fault : Fault)
    (failed : Operator.anyEquals equal items = .error fault) :
    ∃ item ∈ items, equal item = .error fault := by
  induction items with
  | nil => cases failed
  | cons item rest ih =>
    rw [Operator.anyEquals] at failed
    split at failed
    · obtain ⟨other, member, later⟩ := ih failed
      exact ⟨other, List.mem_cons_of_mem item member, later⟩
    · exact ⟨item, List.mem_cons_self, failed⟩

theorem map_error {α β : Type} (f : α → β) (r : Except Fault α) (fault : Fault)
    (failed : r.map f = .error fault) : r = .error fault := by
  cases r with
  | error e => exact congrArg Except.error (Except.error.inj failed)
  | ok a => cases failed

theorem integer_text_error (n : Int) (fault : Fault) (failed : integerText n = .error fault) :
    fault = .integerTooLong ∧ Nat.pow 10 Json.maxDigits ≤ n.natAbs := by
  unfold integerText at failed
  generalize Nat.pow 10 Json.maxDigits = bound at *
  split at failed
  · cases failed
  · rename_i long
    cases failed
    exact ⟨rfl, Nat.not_lt.mp long⟩

theorem rule_text_error (value : Value) (scalar : ScalarOrNull value) (fault : Fault)
    (failed : value.ruleText = .error fault) : fault = .integerTooLong ∧ TooLong value := by
  rcases scalar with rfl | scalar
  · cases failed
  · cases scalar with
    | bool b => cases failed
    | text s => cases failed
    | int n => exact integer_text_error n fault failed
    | float x =>
      rw [ruleText] at failed
      split at failed
      · rename_i n whole
        obtain ⟨isLong, long⟩ := integer_text_error n fault failed
        refine ⟨isLong, fun proper => ?_⟩
        have short := x.to_int_short proper n whole Json.maxDigits (by decide)
        exact Nat.not_lt.mpr long short
      · cases failed

theorem clash_of_item (field value item : Value) (items : List Value)
    (array : field.items? = some items) (member : item ∈ items) (clash : Clash item value) :
    Clash field value := by
  obtain ⟨⟨negative, payload, deeper⟩, number⟩ := clash
  exact ⟨⟨negative, payload, .item array member deeper⟩, number⟩

inductive Extreme (operator : Operator) (field value : Value) : Fault → Prop
  | signalling (equality : operator ∈ [.equals, .notEquals, .contains, .notContains, .isIn, .notIn])
      (clash : Clash field value) : Extreme operator field value .signallingOperand
  | tooLong (search : operator ∈ [.contains, .notContains]) (text : ∃ s, field.text? = some s)
      (long : TooLong value) : Extreme operator field value .integerTooLong

theorem contains_error (field value : Value) (kind : ScalarOrNull value ∨ ScalarTuple value)
    (fault : Fault) (failed : Operator.containsValue field value = .error fault) :
    (fault = .signallingOperand ∧ Clash field value) ∨
      (fault = .integerTooLong ∧ (∃ s, field.text? = some s) ∧ TooLong value) := by
  unfold Operator.containsValue at failed
  split at failed
  · rename_i items array
    obtain ⟨item, member, failed⟩ := any_equals_error _ items fault failed
    obtain ⟨isSignalling, clash⟩ := same_error item value kind fault
      (strict_equals_error item value fault failed)
    exact .inl ⟨isSignalling, clash_of_item field value item items array member clash⟩
  · split at failed
    · cases failed
    · rename_i s text
      split at failed
      · cases failed
      · rename_i plain
        have scalar : ScalarOrNull value := by
          rcases kind with scalar | ⟨items, rfl, _⟩
          · exact scalar
          · exact absurd rfl plain
        obtain ⟨isLong, long⟩ := rule_text_error value scalar fault (map_error _ _ fault failed)
        exact .inr ⟨isLong, ⟨s, text⟩, long⟩

theorem member_error (field value : Value) (kind : ScalarOrNull value ∨ ScalarTuple value)
    (fault : Fault) (failed : Operator.isMember field value = .error fault) :
    fault = .signallingOperand ∧ Clash field value := by
  unfold Operator.isMember at failed
  rcases kind with scalar | ⟨items, rfl, each⟩
  · rcases scalar with rfl | scalar
    · cases failed
    · cases scalar <;> cases failed
  · obtain ⟨item, member, failed⟩ := any_equals_error _ items fault failed
    have same := same_error _ item (.inl (.inr (each item member))) fault
      (strict_equals_error _ item fault failed)
    split at same
    · obtain ⟨_, ⟨negative, payload, reached⟩, _⟩ := same
      cases reached with
      | item array => cases array
    · obtain ⟨isSignalling, signalling, part, n, reached, number⟩ := same
      exact ⟨isSignalling, signalling, part, n, .item rfl member reached, number⟩

theorem apply_error (operator : Operator) (field value second : Value)
    (kind : ScalarOrNull value ∨ ScalarTuple value) (fault : Fault)
    (failed : operator.apply field value second = .error fault) :
    Extreme operator field value fault := by
  have loose : field.looseEquals value = .error fault →
      fault = .signallingOperand ∧ Clash field value := fun unequal =>
    same_error field value kind fault (loose_equals_error field value fault unequal)
  cases operator with
  | equals =>
    rw [Operator.apply] at failed
    split at failed
    · cases failed
    · obtain ⟨rfl, clash⟩ := loose failed
      exact .signalling (by decide) clash
  | notEquals =>
    unfold Operator.apply at failed
    dsimp only at failed
    split at failed
    · cases failed
    · obtain ⟨rfl, clash⟩ := loose (map_error _ _ fault failed)
      exact .signalling (by decide) clash
  | contains =>
    rcases contains_error field value kind fault failed with ⟨rfl, clash⟩ | ⟨rfl, text, long⟩
    · exact .signalling (by decide) clash
    · exact .tooLong (by decide) text long
  | notContains =>
    rw [Operator.apply] at failed
    split at failed
    · rcases contains_error field value kind fault (map_error _ _ fault failed) with
        ⟨rfl, clash⟩ | ⟨rfl, text, long⟩
      · exact .signalling (by decide) clash
      · exact .tooLong (by decide) text long
    · cases failed
  | isIn =>
    obtain ⟨rfl, clash⟩ := member_error field value kind fault failed
    exact .signalling (by decide) clash
  | notIn =>
    obtain ⟨rfl, clash⟩ := member_error field value kind fault (map_error _ _ fault failed)
    exact .signalling (by decide) clash
  | _ => cases failed

-- A comparison of a field with a value, anywhere in a condition.
inductive Leaf (field : String) (operator : Operator) (value : Value) : Condition → Prop
  | here (second : Value) :
      Leaf field operator value (.single field (.known operator) value second)
  | inside {combinator : Word Combinator} {children : List Condition} {child : Condition}
      (member : child ∈ children) (deeper : Leaf field operator value child) :
      Leaf field operator value (.group combinator children)

@[simp] theorem leaf_single_iff (field name : String) (operator other : Operator)
    (value given second : Value) :
    Leaf field operator value (.single name (.known other) given second) ↔
      field = name ∧ operator = other ∧ value = given := by
  constructor
  · rintro ⟨⟩
    exact ⟨rfl, rfl, rfl⟩
  · rintro ⟨rfl, rfl, rfl⟩
    exact .here second

@[simp] theorem leaf_group_iff (field : String) (operator : Operator) (value : Value)
    (combinator : Word Combinator) (children : List Condition) :
    Leaf field operator value (.group combinator children) ↔
      ∃ child ∈ children, Leaf field operator value child := by
  constructor
  · rintro ⟨⟩
    exact ⟨_, ‹_›, ‹_›⟩
  · rintro ⟨child, member, deeper⟩
    exact .inside member deeper

theorem evaluate_error (limits : Limits) (room : Nat) (c : Condition)
    (readable : Readable limits room c) (record : Value) (fault : Fault)
    (failed : (c.evaluate record).result = .error fault) :
    ∃ field operator value, Leaf field operator value c ∧
      Extreme operator (Path.resolve record field) value fault := by
  induction readable with
  | @single room field operator value second _ kind =>
    exact ⟨field, operator, value, .here second,
      apply_error operator _ value second kind fault failed⟩
  | @group room combinator children _ _ ih =>
    rw [evaluate_group] at failed
    obtain ⟨_, answered, failed⟩ := Verdict.combine_error _ _ fault failed
    obtain ⟨child, member, rfl⟩ := List.mem_map.mp answered
    obtain ⟨field, operator, value, leaf, extreme⟩ := ih child member failed
    exact ⟨field, operator, value, .inside member leaf, extreme⟩

theorem read_operand_short (entries : Entries) (spelled : ∀ entry ∈ entries, Json.Spelled entry.2)
    (value : Value) (read : readOperand entries = .ok value) : ¬ TooLong value := by
  unfold readOperand at read
  split at read
  · cases read
    exact id
  · cases read
    exact id
  · rename_i v _ found
    obtain ⟨entry, member, rfl⟩ := Value.entry_mem "value" entries v found
    have source := spelled entry member
    split at read
    · rename_i s scalar
      cases read
      generalize entry.2 = v at *
      cases source with
      | int n short =>
        cases scalar
        exact Nat.not_le.mpr short
      | float x proper =>
        cases scalar
        exact fun improper => improper proper
      | bool b =>
        cases scalar
        exact id
      | text s =>
        cases scalar
        exact id
      | _ => cases scalar
    · dsimp only at read
      split at read
      · cases read
      · split at read
        · cases read
          exact id
        · cases read

theorem children_spelled (entries : Entries) (spelled : ∀ entry ∈ entries, Json.Spelled entry.2)
    (items : List Value) (read : readChildren entries = .ok items) : ∀ item ∈ items, Json.Spelled item := by
  unfold readChildren at read
  split at read
  · cases read
  · rename_i listed
    cases read
    obtain ⟨v, found, isList⟩ := Option.bind_eq_some_iff.mp listed
    obtain ⟨entry, member, rfl⟩ := Value.entry_mem "conditions" entries v found
    have source := spelled entry member
    generalize entry.2 = v at *
    cases source with
    | list items each =>
      cases isList
      exact each
    | _ => cases isList

theorem keyed_spelled (payload : Value) (spelled : Json.Spelled payload) (entries : Entries)
    (keyed : payload.entries? = some entries) :
    payload = .mapping entries ∧ ∀ entry ∈ entries, Json.Spelled entry.2 := by
  cases spelled with
  | mapping entries each =>
    cases keyed
    exact ⟨rfl, each⟩
  | _ => cases keyed

theorem read_node_short (limits : Limits) (room : Nat) (path : List Nat) (payload : Value)
    (spelled : Json.Spelled payload) (c : Condition) (read : readNode limits room path payload = .ok c)
    (field : String) (operator : Operator) (value : Value) (leaf : Leaf field operator value c) :
    ¬ TooLong value := by
  induction room generalizing path payload c with
  | zero => cases read
  | succ room ih =>
    obtain ⟨_, entries, _, keyed⟩ := read_node_ok_mapping limits _ path payload c read
    obtain ⟨rfl, each⟩ := keyed_spelled payload spelled entries keyed
    cases carries : isGroup entries with
    | false =>
      have single := (read_node_single_ok_iff limits room path rfl carries c).mp read
      obtain ⟨_, _, value, _, _, _, _, first, _, _, rfl⟩ := (read_single_ok_iff entries c).mp single
      cases leaf
      exact read_operand_short entries each value first
    | true =>
      obtain ⟨combinator, items, children, header, _, found, rfl⟩ :=
        (read_node_group_ok_iff limits room path rfl carries c).mp read
      have itemsSpelled := children_spelled entries each items
        ((read_header_ok_iff entries combinator items).mp header).2.2
      cases leaf with
      | @inside _ _ child member deeper =>
        obtain ⟨item, inside, place, childRead⟩ :=
          read_each_member (readNode limits room) path 0 items children found child member
        exact ih place item (itemsSpelled item inside) child childRead deeper

theorem evaluate_decides_unless_extreme (limits : Limits) (payload : Value) (stack : Nat)
    (tree : Condition) (found : read limits payload stack = .ok (some tree)) (record : Value) :
    (∃ holds, (tree.evaluate record).result = .ok holds) ∨
    ∃ fault field operator value, (tree.evaluate record).result = .error fault ∧
      Leaf field operator value tree ∧ Extreme operator (Path.resolve record field) value fault ∧
      (fault = .integerTooLong → ∃ entries, payload.entries? = some entries) := by
  cases answer : (tree.evaluate record).result with
  | ok holds => exact .inl ⟨holds, rfl⟩
  | error fault =>
    have readable := read_readable limits payload stack _ found tree rfl
    obtain ⟨field, operator, value, leaf, extreme⟩ :=
      evaluate_error limits _ tree readable record fault answer
    refine .inr ⟨fault, field, operator, value, rfl, leaf, extreme, fun tooLong => ?_⟩
    obtain ⟨v, whole, source⟩ := read_source limits payload stack _ found
    rcases (read_tree_ok_iff limits v _).mp whole with ⟨_, none⟩ | ⟨_, same, node⟩
    · cases none
    cases same
    rcases source with spelled | rfl
    · have short := read_node_short limits _ [] v spelled tree node field operator value leaf
      subst tooLong
      cases extreme with
      | tooLong _ _ long => exact absurd long short
    · obtain ⟨_, entries, _, keyed⟩ := read_node_ok_mapping limits _ [] v tree node
      exact ⟨entries, keyed⟩

theorem ordering_of_signalling_decimal_decides :
    let payload : Value := .mapping [(.text "field", .text "x"),
      (.text "operator", .text "greaterThan"), (.text "value", .int 1)]
    let record : Value := .mapping [(.text "x", .decimal (.signalling false 0))]
    ∃ tree, read ⟨10, 50⟩ payload = .ok (some tree) ∧
      ∃ holds, (tree.evaluate record).result = .ok holds := by
  intro payload record
  have found : read ⟨10, 50⟩ payload =
      .ok (some (.single "x" (.known .greaterThan) (.int 1) .null)) := rfl
  refine ⟨_, found, ?_⟩
  rcases evaluate_decides_unless_extreme ⟨10, 50⟩ payload _ _ found record with
    decided | ⟨_, _, _, _, _, leaf, extreme, _⟩
  · exact decided
  · cases leaf
    cases extreme with
    | signalling equality => exact absurd equality (by decide)
    | tooLong search => exact absurd search (by decide)

theorem equality_with_signalling_decimal_fails :
    ¬ ∀ (limits : Limits) (payload : Value) (tree : Condition) (record : Value),
      read limits payload = .ok (some tree) → ∃ holds, (tree.evaluate record).result = .ok holds := by
  intro always
  let payload : Value := .mapping [(.text "field", .text "x"), (.text "operator", .text "equals"),
    (.text "value", .int 1)]
  let tree : Condition := .single "x" (.known .equals) (.int 1) .null
  let record : Value := .mapping [(.text "x", .decimal (.signalling false 0))]
  have stopped : (tree.evaluate record).result = .error .signallingOperand := rfl
  obtain ⟨holds, decided⟩ := always ⟨10, 50⟩ payload tree record rfl
  rw [stopped] at decided
  cases decided

end Condition

end TagRules
