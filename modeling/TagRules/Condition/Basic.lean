import TagRules.Value.Basic

/-!
A tree may also hold what no reader produces: an operator without meaning, or a value in a
condition's place.
-/

set_option autoImplicit false

namespace TagRules

inductive Operator
  | equals
  | notEquals
  | contains
  | notContains
  | greaterThan
  | lessThan
  | greaterThanOrEqual
  | lessThanOrEqual
  | isEmpty
  | isNotEmpty
  | isIn
  | notIn
  | between
  deriving DecidableEq, Inhabited

namespace Operator

def all : List Operator :=
  [.equals, .notEquals, .contains, .notContains, .greaterThan, .lessThan, .greaterThanOrEqual,
    .lessThanOrEqual, .isEmpty, .isNotEmpty, .isIn, .notIn, .between]

def name : Operator → String
  | .equals => "equals"
  | .notEquals => "notEquals"
  | .contains => "contains"
  | .notContains => "notContains"
  | .greaterThan => "greaterThan"
  | .lessThan => "lessThan"
  | .greaterThanOrEqual => "greaterThanOrEqual"
  | .lessThanOrEqual => "lessThanOrEqual"
  | .isEmpty => "isEmpty"
  | .isNotEmpty => "isNotEmpty"
  | .isIn => "in"
  | .notIn => "notIn"
  | .between => "between"

def ofName? (s : String) : Option Operator := all.find? fun o => o.name == s

def takesNoValue : Operator → Bool
  | .isEmpty => true
  | .isNotEmpty => true
  | _ => false

theorem of_own_name (o : Operator) : ofName? o.name = some o := by cases o <;> decide

theorem of_name_iff (s : String) (o : Operator) : ofName? s = some o ↔ s = o.name := by
  constructor
  · intro found
    have same := List.find?_some found
    exact (beq_iff_eq.mp same).symm
  · rintro rfl
    exact of_own_name o

end Operator

inductive Combinator
  | all
  | any
  deriving DecidableEq, Inhabited

namespace Combinator

def name : Combinator → String
  | .all => "and"
  | .any => "or"

def ofName? (s : String) : Option Combinator :=
  if s = "and" then some .all else if s = "or" then some .any else none

theorem of_own_name (c : Combinator) : ofName? c.name = some c := by cases c <;> decide

theorem of_name_iff (s : String) (c : Combinator) : ofName? s = some c ↔ s = c.name := by
  constructor
  · intro found
    unfold ofName? at found
    split at found
    · cases found
      assumption
    · split at found <;> cases found
      assumption
  · rintro rfl
    exact of_own_name c

end Combinator

inductive Word (α : Type)
  | known (a : α)
  | unknown (v : Value)
  deriving Inhabited

namespace Word

def ofValue {α : Type} (ofName? : String → Option α) (v : Value) : Word α :=
  match v.text?.bind ofName? with
  | some a => .known a
  | none => .unknown v

end Word

inductive Condition
  | single (field : String) (operator : Word Operator) (value second : Value)
  | group (combinator : Word Combinator) (conditions : List Condition)
  | foreign (v : Value)
  deriving Inhabited

namespace Condition

def both (conditions : List Condition) : Condition := .group (.known .all) conditions

def either (conditions : List Condition) : Condition := .group (.known .any) conditions

end Condition

end TagRules
