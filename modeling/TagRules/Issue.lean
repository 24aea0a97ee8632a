import TagRules.Condition.Basic

set_option autoImplicit false

namespace TagRules

inductive Crumb
  | key (name : String)
  | index (i : Nat)
  deriving DecidableEq

inductive OperandFault
  | valueRequired (operator : Operator)
  | secondRequired
  | scalarBounds
  deriving DecidableEq

namespace OperandFault

def text : OperandFault → String
  | .valueRequired operator => "operator '" ++ operator.name ++ "' requires a value"
  | .secondRequired => "operator 'between' requires secondValue"
  | .scalarBounds => "operator 'between' takes scalar bounds"

end OperandFault

inductive IssueKind
  | missing
  | notText
  | tooShort
  | unknownOperator
  | unknownCombinator
  | notBool
  | notInteger
  | notNumber
  | notList
  | notMapping
  | undecodableText
  | belowOne
  | unreadableInteger
  | tooLong
  | hasFraction
  | notFinite
  | unreadableBool
  | operands (fault : OperandFault)
  deriving DecidableEq

namespace IssueKind

def alternatives : List String → String
  | [] => ""
  | [last] => last
  | [first, last] => first ++ " or " ++ last
  | first :: rest => first ++ ", " ++ alternatives rest

def expected (names : List String) : String :=
  "Input should be " ++ alternatives (names.map fun n => "'" ++ n ++ "'")

def message : IssueKind → String
  | .missing => "Field required"
  | .notText => "Input should be a valid string"
  | .tooShort => "String should have at least 1 character"
  | .unknownOperator => expected (Operator.all.map Operator.name)
  | .unknownCombinator => expected [Combinator.all.name, Combinator.any.name]
  | .notBool => "Input should be a valid boolean"
  | .notInteger => "Input should be a valid integer"
  | .notNumber => "Input should be a valid number"
  | .notList => "Input should be a valid list"
  | .notMapping => "Input should be a valid dictionary"
  | .undecodableText =>
      "Input should be a valid string, unable to parse raw data as a unicode string"
  | .belowOne => "Input should be greater than or equal to 1"
  | .unreadableInteger => "Input should be a valid integer, unable to parse string as an integer"
  | .tooLong => "Unable to parse input string as an integer, exceeded maximum size"
  | .hasFraction => "Input should be a valid integer, got a number with a fractional part"
  | .notFinite => "Input should be a finite number"
  | .unreadableBool => "Input should be a valid boolean, unable to interpret input"
  | .operands fault => "Value error, " ++ fault.text

def code : IssueKind → String
  | .missing => "missing"
  | .notText => "string_type"
  | .tooShort => "string_too_short"
  | .unknownOperator => "enum"
  | .unknownCombinator => "enum"
  | .notBool => "bool_type"
  | .notInteger => "int_type"
  | .notNumber => "float_type"
  | .notList => "list_type"
  | .notMapping => "dict_type"
  | .undecodableText => "string_unicode"
  | .belowOne => "greater_than_equal"
  | .unreadableInteger => "int_parsing"
  | .tooLong => "int_parsing_size"
  | .hasFraction => "int_from_float"
  | .notFinite => "finite_number"
  | .unreadableBool => "bool_parsing"
  | .operands _ => "value_error"

end IssueKind

structure Issue where
  place : List Crumb
  kind : IssueKind
  deriving DecidableEq

abbrev Checked (α : Type) := Except (List Issue) α

namespace Checked

def fail {α : Type} (place : List Crumb) (kind : IssueKind) : Checked α := .error [⟨place, kind⟩]

def pair {α β : Type} (x : Checked α) (y : Checked β) : Checked (α × β) :=
  match x, y with
  | .ok a, .ok b => .ok (a, b)
  | .ok _, .error e => .error e
  | .error e, .ok _ => .error e
  | .error e, .error f => .error (e ++ f)

theorem pair_ok_iff {α β : Type} (x : Checked α) (y : Checked β) (a : α) (b : β) :
    x.pair y = .ok (a, b) ↔ x = .ok a ∧ y = .ok b := by
  cases x <;> cases y <;> simp [pair]

end Checked

end TagRules
