import TagRules.Proofs.Condition.Ordering

set_option autoImplicit false

namespace TagRules

namespace Value

inductive Mixed : Value → Value → Prop
  | truth (b : Bool) {y : Value} (number : IsNumber y) : Mixed (.bool b) y
  | number {x : Value} (number : IsNumber x) (b : Bool) : Mixed x (.bool b)

-- Two values are mixed themselves, or hold mixed ones at one place of two arrays, however deep.
inductive Confused : Value → Value → Prop
  | here {x y : Value} (mixed : Mixed x y) : Confused x y
  | inside {x y a b : Value} {xs ys : List Value} (left : x.items? = some xs)
      (right : y.items? = some ys) (i : Nat) (first : xs[i]? = some a) (second : ys[i]? = some b)
      (deeper : Confused a b) : Confused x y

theorem Mixed.unequal {x y : Value} (mixed : Mixed x y) : x.strictEquals y = .ok false := by
  cases mixed with
  | truth b number => cases number <;> rfl
  | number number b => cases number <;> rfl

theorem Mixed.not_identical {x y : Value} (mixed : Mixed x y) : identical x y = false := by
  cases mixed with
  | truth b number => rfl
  | number number b => cases number <;> rfl

theorem Confused.present {x y : Value} (confused : Confused x y) :
    x.isAbsent = false ∧ x.text? = none := by
  cases confused with
  | here mixed =>
    cases mixed with
    | truth b number => exact ⟨rfl, rfl⟩
    | number number b => cases number <;> exact ⟨rfl, rfl⟩
  | inside left =>
    cases x with
    | list items => exact ⟨rfl, rfl⟩
    | tuple items => exact ⟨rfl, rfl⟩
    | _ => cases left

theorem loose_equals_of_no_text (x y : Value) (noText : x.text? = none) :
    x.looseEquals y = x.strictEquals y := by
  rw [looseEquals, noText]

theorem and_then_true (verdict next : Except Fault Bool) (holds : andThen verdict next = .ok true) :
    verdict = .ok true ∧ next = .ok true := by
  unfold andThen at holds
  split at holds
  · exact ⟨rfl, holds⟩
  · rename_i differs
    exact absurd holds (differs ·)

theorem same_at_each_place (xs ys : List Value) (equal : sameItems xs ys = .ok true) (i : Nat)
    (a b : Value) (first : xs[i]? = some a) (second : ys[i]? = some b) :
    orIdentical a b (same a b) = .ok true := by
  induction xs generalizing ys i with
  | nil => cases first
  | cons x xs ih =>
    cases ys with
    | nil => cases second
    | cons y ys =>
      obtain ⟨atHead, later⟩ := and_then_true _ _ equal
      cases i with
      | zero =>
        cases first
        cases second
        exact atHead
      | succ i => exact ih ys later i first second

theorem equals_tuple (x : Value) (ys : List Value) (equal : x.strictEquals (.tuple ys) = .ok true) :
    ∃ xs, x = .tuple xs ∧ sameItems xs ys = .ok true ∧ xs.length = ys.length := by
  cases x with
  | tuple xs =>
    obtain ⟨items, lengths⟩ := and_then_true _ _ equal
    exact ⟨xs, rfl, items, beq_iff_eq.mp (Except.ok.inj lengths)⟩
  | _ => cases equal

end Value

namespace Condition

open Value

theorem scalar_has_no_items (v : Value) (scalar : ScalarOrNull v) : v.items? = none := by
  rcases scalar with rfl | scalar
  · rfl
  · cases scalar <;> rfl

theorem mixed_of_scalar (x y : Value) (scalar : ScalarOrNull y) (confused : Confused x y) : Mixed x y := by
  cases confused with
  | here mixed => exact mixed
  | inside left right =>
    rw [scalar_has_no_items y scalar] at right
    cases right

theorem equal_scalar_not_confused (x y : Value) (scalar : ScalarOrNull y)
    (equal : x.strictEquals y = .ok true) : ¬ Confused x y := by
  intro confused
  have unequal := (mixed_of_scalar x y scalar confused).unequal
  rw [equal] at unequal
  cases unequal

def ArraysMix (x y : Value) : Prop :=
  ∃ xs ys, x = .tuple xs ∧ y = .tuple ys ∧ xs.length = ys.length ∧
    ∃ (i : Nat) (a b : Value), xs[i]? = some a ∧ ys[i]? = some b ∧ Mixed a b ∧ same a b = .ok true

theorem ArraysMix.confused {x y : Value} (mix : ArraysMix x y) : Confused x y := by
  obtain ⟨xs, ys, rfl, rfl, _, i, a, b, first, second, mixed, _⟩ := mix
  exact .inside rfl rfl i first second (.here mixed)

-- The items of a rule's array have no parts, so the mixed values stand right below the top.
theorem equal_arrays_mix (x y : Value) (kind : ScalarOrNull y ∨ ScalarTuple y)
    (equal : x.strictEquals y = .ok true) (confused : Confused x y) : ArraysMix x y := by
  rcases kind with scalar | ⟨ys, rfl, each⟩
  · exact absurd confused (equal_scalar_not_confused x y scalar equal)
  · obtain ⟨xs, rfl, items, lengths⟩ := equals_tuple x ys equal
    cases confused with
    | here mixed => cases mixed
    | @inside _ _ a b _ _ left right i first second deeper =>
      cases left
      cases right
      have scalar : ScalarOrNull b := .inr (each b (List.mem_of_getElem? second))
      have mixed := mixed_of_scalar a b scalar deeper
      have atPlace := same_at_each_place xs ys items i a b first second
      rw [orIdentical, mixed.not_identical] at atPlace
      exact ⟨xs, ys, rfl, rfl, lengths, i, a, b, first, second, mixed, atPlace⟩

def sought : Value → Value
  | .missing => .null
  | given => given

-- The pairs of values that a comparison found equal: the field and the value of the rule, or one of
-- them and an item of the other.
inductive Equated (field value : Value) : Operator → Value → Value → Prop
  | whole (second : Value) (equal : Operator.equals.apply field value second = .ok true) :
      Equated field value .equals field value
  | element {items : List Value} {item : Value} (array : field.items? = some items)
      (member : item ∈ items) (equal : item.strictEquals value = .ok true) :
      Equated field value .contains item value
  | choice {items : List Value} {item : Value} (array : value.items? = some items)
      (member : item ∈ items) (equal : (sought field).strictEquals item = .ok true) :
      Equated field value .isIn (sought field) item

theorem any_equals_true (equal : Value → Except Fault Bool) (items : List Value)
    (holds : Operator.anyEquals equal items = .ok true) : ∃ item ∈ items, equal item = .ok true := by
  induction items with
  | nil => cases holds
  | cons item rest ih =>
    rw [Operator.anyEquals] at holds
    split at holds
    · obtain ⟨other, member, later⟩ := ih holds
      exact ⟨other, List.mem_cons_of_mem item member, later⟩
    · exact ⟨item, List.mem_cons_self, holds⟩

theorem contains_equates (field value : Value) (holds : Operator.containsValue field value = .ok true) :
    (∃ s, field.text? = some s) ∨ ∃ x y, Equated field value .contains x y := by
  rw [Operator.containsValue] at holds
  split at holds
  · rename_i items array
    obtain ⟨item, member, equal⟩ := any_equals_true _ items holds
    exact .inr ⟨item, value, .element array member equal⟩
  · split at holds
    · cases holds
    · rename_i s text
      exact .inl ⟨s, text⟩

theorem member_equates (field value : Value) (holds : Operator.isMember field value = .ok true) :
    ∃ x y, Equated field value .isIn x y := by
  unfold Operator.isMember at holds
  split at holds
  · cases holds
  · rename_i items array
    obtain ⟨item, member, equal⟩ := any_equals_true _ items holds
    have asSought : (sought field).strictEquals item = .ok true := by cases field <;> exact equal
    exact ⟨sought field, item, .choice array member asSought⟩

theorem equals_strictly (field value second : Value) (confused : Confused field value)
    (equal : Operator.equals.apply field value second = .ok true) :
    field.strictEquals value = .ok true := by
  obtain ⟨present, noText⟩ := confused.present
  rw [Operator.apply, present, loose_equals_of_no_text field value noText] at equal
  exact equal

theorem equated_confused_iff (operator : Operator) (field value : Value)
    (kind : ScalarOrNull value ∨ ScalarTuple value) (x y : Value)
    (equated : Equated field value operator x y) :
    Confused x y ↔ operator ≠ .isIn ∧ y = value ∧ ArraysMix x y := by
  refine ⟨fun confused => ?_, fun mix => mix.2.2.confused⟩
  cases equated with
  | whole second equal =>
    have strict := equals_strictly field value second confused equal
    exact ⟨nofun, rfl, equal_arrays_mix field value kind strict confused⟩
  | element array member equal =>
    exact ⟨nofun, rfl, equal_arrays_mix x value kind equal confused⟩
  | choice array member equal =>
    rcases kind with scalar | ⟨items, rfl, each⟩
    · rw [scalar_has_no_items value scalar] at array
      cases array
    · cases array
      exact absurd confused (equal_scalar_not_confused _ y (.inr (each y member)) equal)

theorem leaf_value_kind (limits : Limits) (room : Nat) (c : Condition)
    (readable : Readable limits room c) (field : String) (operator : Operator) (value : Value)
    (leaf : Leaf field operator value c) : ScalarOrNull value ∨ ScalarTuple value := by
  induction readable with
  | single _ kind =>
    cases leaf
    exact kind
  | group _ _ ih =>
    cases leaf with
    | inside member deeper => exact ih _ member deeper

theorem truth_values_meet_numbers_in_rule_arrays (limits : Limits) (payload : Value) (stack : Nat)
    (tree : Condition) (found : read limits payload stack = .ok (some tree)) (field : String) (operator : Operator)
    (value second : Value) (leaf : Leaf field operator value tree)
    (compared : operator ∈ [.equals, .contains, .isIn]) (record : Value)
    (holds : (evaluate record (.single field (.known operator) value second)).result = .ok true) :
    ((operator = .contains ∧ ∃ s, (Path.resolve record field).text? = some s) ∨
      ∃ x y, Equated (Path.resolve record field) value operator x y) ∧
    ∀ x y, Equated (Path.resolve record field) value operator x y →
      (Confused x y ↔ operator ≠ .isIn ∧ y = value ∧ ArraysMix x y) := by
  have readable := read_readable limits payload stack _ found tree rfl
  have kind := leaf_value_kind limits _ tree readable field operator value leaf
  have applied : operator.apply (Path.resolve record field) value second = .ok true := holds
  refine ⟨?_, equated_confused_iff operator (Path.resolve record field) value kind⟩
  simp only [List.mem_cons, List.not_mem_nil, or_false] at compared
  rcases compared with rfl | rfl | rfl
  · exact .inr ⟨_, value, .whole second applied⟩
  · rcases contains_equates _ value applied with text | equated
    · exact .inl ⟨rfl, text⟩
    · exact .inr equated
  · exact .inr (member_equates _ value applied)

theorem row_of_truth_values_found :
    let payload : Value := .mapping [(.text "field", .text "rows"), (.text "operator", .text "contains"),
      (.text "value", .list [.int 1, .bool false])]
    let value : Value := .tuple [.int 1, .bool false]
    let row : Value := .tuple [.bool true, .decimal (.finite ⟨false, 0, -1⟩)]
    let record : Value := .mapping [(.text "rows", .list [.text "a",
      .list [.bool true, .decimal (.finite ⟨false, 0, -1⟩)]])]
    let tree : Condition := .single "rows" (.known .contains) value .null
    ∃ view, read ⟨1, 2⟩ payload = .ok (some tree) ∧ Record.view record = .ok view ∧
      (tree.evaluate view).result = .ok true ∧
      Equated (Path.resolve view "rows") value .contains row value ∧ ArraysMix row value := by
  intro payload value row record tree
  let view : Value := .view [(.text "rows", .tuple [.text "a", row])]
  have found : read ⟨1, 2⟩ payload = .ok (some tree) := rfl
  have holds : (tree.evaluate view).result = .ok true := rfl
  have member : row ∈ [.text "a", row] := by simp
  have equated : Equated (Path.resolve view "rows") value .contains row value := .element rfl member rfl
  have confused : Confused row value := .inside rfl rfl 0 rfl rfl (.here (.truth true (.int 1)))
  have exactly := (truth_values_meet_numbers_in_rule_arrays ⟨1, 2⟩ payload _ tree found "rows" .contains
    value .null (.here .null) (by decide) view holds).2 row value equated
  exact ⟨view, found, rfl, holds, equated, (exactly.mp confused).2.2⟩

theorem array_of_truth_value_equals_array_of_one :
    ¬ ∀ (limits : Limits) (payload : Value) (tree : Condition) (field : String) (operator : Operator)
      (value record view x y : Value), read limits payload = .ok (some tree) →
      Leaf field operator value tree → Record.view record = .ok view →
      Equated (Path.resolve view field) value operator x y → ¬ Confused x y := by
  intro apart
  let payload : Value := .mapping [(.text "field", .text "x"), (.text "operator", .text "equals"),
    (.text "value", .list [.int 1])]
  let tree : Condition := .single "x" (.known .equals) (.tuple [.int 1]) .null
  let record : Value := .mapping [(.text "x", .list [.bool true])]
  let view : Value := .view [(.text "x", .tuple [.bool true])]
  have confused : Confused (.tuple [.bool true]) (.tuple [.int 1]) :=
    .inside rfl rfl 0 rfl rfl (.here (.truth true (.int 1)))
  exact apart ⟨1, 1⟩ payload tree "x" .equals (.tuple [.int 1]) record view _ _ rfl (.here .null) rfl
    (.whole .null rfl) confused

end Condition

end TagRules
