import TagRules.Condition.Rejection
import TagRules.Json.Encoding
import TagRules.Template.Basic

set_option autoImplicit false

namespace TagRules

inductive Fault
  | rejected (why : Rejection)
  | undecodable (why : Json.Undecodable)
  | literalTooLong (digits : Nat)
  | integerTooLong
  | signallingOperand
  | notAnEntity
  | noClientId
  | unknownLevel (name : String)
  | unknownLevelText (shown : String)
  | notALevel (shown : String)
  | badTemplate (problem : Template.Problem)
  | repeatedField (call name : String)
  | nestedTooDeep (isObject : Bool)
  | store (message : String) (details : Value)
  | runtime (message : String)
  deriving Inhabited

structure Response where
  code : String
  message : String
  details : Value
  deriving Inhabited

namespace Response

def conditionCode : String := "CONDITION_VALIDATION_ERROR"
def storeCode : String := "ASSIGNMENT_STORE_ERROR"

def conditionMessage : String := "Invalid auto-assign condition"

def storeMessage : String := "Assignment store error"

def readText (name : String) (v : Value) : Checked String :=
  match v with
  | .text s => .ok s
  | _ => .fail [.key name] .notText

def readDetails (v : Value) : Checked Value :=
  if v.isVoid then .ok (.mapping [])
  else
    match v with
    | .mapping entries => .ok (.mapping entries)
    | _ => .fail [.key "details"] .notMapping

def ofParts (code message details : Value) : Checked Response :=
  match (readText "code" code).pair ((readText "message" message).pair (readDetails details)) with
  | .error issues => .error issues
  | .ok (code, message, details) => .ok ⟨code, message, details⟩

def ofCondition (message : Option Value) (details : Value) : Checked Response :=
  ofParts (.text conditionCode) (message.getD (.text conditionMessage)) details

def ofStore (message : Option Value) (details : Value) : Checked Response :=
  ofParts (.text storeCode) (message.getD (.text storeMessage)) details

end Response

namespace Fault

def message : Fault → String
  | .rejected why => why.message
  | .undecodable why => why.message
  | .literalTooLong digits =>
      "Exceeds the limit (" ++ toString Json.maxDigits ++
        " digits) for integer string conversion: value has " ++ toString digits ++
        " digits; use sys.set_int_max_str_digits() to increase the limit"
  | .integerTooLong =>
      "Exceeds the limit (" ++ toString Json.maxDigits ++
        " digits) for integer string conversion; use sys.set_int_max_str_digits() to increase" ++
        " the limit"
  | .signallingOperand => "[<class 'decimal.InvalidOperation'>]"
  | .notAnEntity => "vars() argument must have __dict__ attribute"
  | .noClientId => "Client record has no id"
  | .unknownLevel name => "module 'logging' has no attribute '" ++ name ++ "'"
  | .unknownLevelText shown => "Unknown level: " ++ shown
  | .notALevel shown => "Level not an integer or a valid string: " ++ shown
  | .badTemplate problem => problem.text
  | .repeatedField call name =>
      "BoundLogger." ++ call ++ "() got multiple values for argument '" ++ name ++ "'"
  | .nestedTooDeep isObject =>
      "maximum recursion depth exceeded while decoding a JSON " ++
        (if isObject then "object" else "array") ++ " from a unicode string"
  | .store message _ => message
  | .runtime message => message

def storeFailed (message : String) : Fault := .store message (.mapping [])

def response? : Fault → Option Response
  | .rejected why => some ⟨Response.conditionCode, why.message, why.details⟩
  | .store message details => some ⟨Response.storeCode, message, details⟩
  | _ => none

end Fault

end TagRules
