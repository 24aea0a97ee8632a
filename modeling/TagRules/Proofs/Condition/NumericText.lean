import TagRules.Proofs.Condition.Ordering
import TagRules.Proofs.Numeric.Numerals
import TagRules.Proofs.Numeric.Rounding

set_option autoImplicit false

namespace TagRules

namespace Value

theorem int_coerces (n : Int) :
    ((int n).toNumber = none ↔ Binary64.overflow ≤ n.natAbs) ∧
      ∀ x, (int n).toNumber = some x → Binary64.Rounded n x := by
  have rounded := Binary64.nearest_of_int n
  change ((Number.ofInt n).nearest? = none ↔ _) ∧ ∀ x, (Number.ofInt n).nearest? = some x → _
  simp only [Number.ofInt, Number.nearest?]
  generalize Binary64.nearest (.ofInt n) = nearest at rounded ⊢
  cases rounded with
  | past large => exact ⟨iff_of_true rfl large, fun x found => by cases found⟩
  | within rank small closest =>
    refine ⟨iff_of_false (fun none => by cases none) (Nat.not_le.mpr small), fun x found => ?_⟩
    cases found
    exact .within rank small closest

theorem spelled_integer_coerces (n : Int) (spelled : Value) (s : String) (before after : List Char)
    (isText : spelled.text? = some s) (written : s.toList = before ++ (toString n).toList ++ after)
    (blankBefore : before.all Text.isBlank = true) (blankAfter : after.all Text.isBlank = true) :
    spelled.toNumber = (int n).toNumber := by
  have read := Number.of_integer_text n s before after written (List.all_eq_true.mp blankBefore)
    (List.all_eq_true.mp blankAfter)
  have number : spelled.number? = some (.ofInt n) := by
    cases spelled <;> cases isText <;> exact read
  rw [toNumber, number]
  rfl

end Value

namespace Operator

theorem ordering_congr {field value second otherField otherValue otherSecond : Value}
    (atField : field.toNumber = otherField.toNumber) (atValue : value.toNumber = otherValue.toNumber)
    (atSecond : second.toNumber = otherSecond.toNumber) (operator : Operator)
    (ordering : operator ∈ .between :: orderings) :
    operator.apply field value second = operator.apply otherField otherValue otherSecond := by
  have compared : ∀ holds, compares holds field value = compares holds otherField otherValue :=
    fun holds => by rw [compares, compares, atField, atValue]
  simp only [orderings, List.mem_cons, List.not_mem_nil, or_false] at ordering
  rcases ordering with rfl | rfl | rfl | rfl | rfl
  · simp only [apply, liesBetween, atField, atValue, atSecond]
  all_goals exact congrArg Except.ok (compared _)

end Operator

namespace Condition

theorem spelled_integer_orders_alike (n : Int) (spelled : Value) (s : String)
    (before after : List Char) (isText : spelled.text? = some s)
    (written : s.toList = before ++ (toString n).toList ++ after)
    (blankBefore : before.all Text.isBlank = true) (blankAfter : after.all Text.isBlank = true) :
    spelled.toNumber = (Value.int n).toNumber ∧
    ((Value.int n).toNumber = none ↔ Binary64.overflow ≤ n.natAbs) ∧
    (∀ x, (Value.int n).toNumber = some x → Binary64.Rounded n x) ∧
    ∀ operator ∈ Operator.between :: Operator.orderings, ∀ x y : Value,
      operator.apply spelled x y = operator.apply (.int n) x y ∧
      operator.apply x spelled y = operator.apply x (.int n) y ∧
      operator.apply x y spelled = operator.apply x y (.int n) := by
  have same := Value.spelled_integer_coerces n spelled s before after isText written blankBefore blankAfter
  obtain ⟨outOfRange, rounded⟩ := Value.int_coerces n
  refine ⟨same, outOfRange, rounded, fun operator ordering x y => ⟨?_, ?_, ?_⟩⟩
  · exact Operator.ordering_congr same rfl rfl operator ordering
  · exact Operator.ordering_congr rfl same rfl operator ordering
  · exact Operator.ordering_congr rfl rfl same operator ordering

theorem padded_integer_is_upper_bound :
    let spelled : Value := .text "\u3000\x1c-9007199254740993 \n"
    spelled.toNumber = (Value.int (-9007199254740993)).toNumber ∧
      Operator.between.apply (.int (-9007199254740992)) (.text "-1e16") spelled = .ok true := by
  intro spelled
  obtain ⟨same, _, _, alike⟩ := spelled_integer_orders_alike (-9007199254740993) spelled _
    ['\u3000', '\x1c'] [' ', '\n'] rfl rfl rfl rfl
  refine ⟨same, ?_⟩
  rw [(alike .between List.mem_cons_self (.int (-9007199254740992)) (.text "-1e16")).2.2]
  rfl

end Condition

end TagRules
