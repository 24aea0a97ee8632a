import TagRules.Condition.Basic

set_option autoImplicit false

namespace TagRules

def Word.stored {α : Type} (name : α → String) : Word α → Value
  | .known a => .text (name a)
  | .unknown v => v

namespace Condition

def storedOperand : Value → Value
  | .tuple items => .list items
  | v => v

def operandEntry (name : String) : Value → List (Value × Value)
  | .null => []
  | v => [(.text name, v)]

mutual

def toStored : Condition → Value
  | .single field operator value second =>
      .mapping ([(.text "field", .text field), (.text "operator", operator.stored Operator.name)]
        ++ operandEntry "value" (storedOperand value) ++ operandEntry "secondValue" second)
  | .group combinator conditions =>
      .mapping [(.text "logicalOperator", combinator.stored Combinator.name),
        (.text "conditions", .list (toStoredAll conditions))]
  | .foreign v => v

def toStoredAll : List Condition → List Value
  | [] => []
  | c :: rest => toStored c :: toStoredAll rest

end

def stored : Option Condition → Value
  | none => .null
  | some c => c.toStored

end Condition

end TagRules
