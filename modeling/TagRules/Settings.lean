import TagRules.Dictionary
import TagRules.Numeric.FloatText
import TagRules.Numeric.IntegerText
import TagRules.Issue
import TagRules.Text.Case
import TagRules.Value.Basic

set_option autoImplicit false

namespace TagRules

structure Settings where
  env : String
  logLevel : String
  maxConditionDepth : Int
  maxGroupSize : Int
  recomputeConcurrency : Int
  metricsEnabled : Bool
  serviceName : String
  deriving DecidableEq, Inhabited

namespace Settings

def default : Settings :=
  ⟨"local", "info", 10, 50, 8, true, "client_icons"⟩

def trueWords : List String := ["1", "true", "t", "yes", "y", "on"]
def falseWords : List String := ["0", "false", "f", "no", "n", "off"]

def readBool (s : String) : Except IssueKind Bool :=
  let word := Text.lower s
  if word ∈ trueWords then .ok true
  else if word ∈ falseWords then .ok false
  else .error .unreadableBool

def readInteger (s : String) : Except IssueKind Int :=
  match IntegerText.read s with
  | .ok n => .ok n
  | .error .unreadable => .error .unreadableInteger
  | .error .tooLong => .error .tooLong

def wordLimit : Int := Nat.pow 2 63

def isWord (n : Int) : Bool := -wordLimit ≤ n && n < wordLimit

def wholeOf (x : Binary64) : Except IssueKind Int :=
  match x with
  | .finite _ _ =>
      match x.toInt? with
      | none => .error .hasFraction
      | some n => if isWord n && n != -wordLimit then .ok n else .error .tooLong
  | _ => .error .notFinite

def integerOf (v : Value) : Except IssueKind Int :=
  match v with
  | .int n => .ok n
  | .bool b => .ok (if b then 1 else 0)
  | .float x => wholeOf x
  | .text s => readInteger s
  | _ => .error .notInteger

def positiveOf (v : Value) : Except IssueKind Int :=
  match integerOf v with
  | .error e => .error e
  | .ok n => if n < 1 then .error .belowOne else .ok n

def bitOf (n : Int) : Except IssueKind Bool :=
  if n = 0 then .ok false else if n = 1 then .ok true else .error .unreadableBool

def boolOf (v : Value) : Except IssueKind Bool :=
  match v with
  | .bool b => .ok b
  | .int n => if isWord n then bitOf n else .error .notBool
  | .float x =>
      match wholeOf x with
      | .ok n => bitOf n
      | .error _ => .error .notBool
  | .text s => readBool s
  | _ => .error .notBool

def textOf (v : Value) : Except IssueKind String :=
  match v with
  | .text s => .ok s
  | _ => .error .notText

def setting {α : Type} (given : Dictionary String Value) (name : String) (default : α)
    (read : Value → Except IssueKind α) : Checked α :=
  match Dictionary.get? name given with
  | none => .ok default
  | some v =>
      match read v with
      | .ok a => .ok a
      | .error kind => Checked.fail [.key name] kind

def ofDictionary (given : Dictionary String Value) : Checked Settings :=
  match (setting given "env" default.env textOf).pair
      ((setting given "log_level" default.logLevel textOf).pair
      ((setting given "max_condition_depth" default.maxConditionDepth positiveOf).pair
      ((setting given "max_group_size" default.maxGroupSize positiveOf).pair
      ((setting given "recompute_concurrency" default.recomputeConcurrency positiveOf).pair
      ((setting given "metrics_enabled" default.metricsEnabled boolOf).pair
      (setting given "service_name" default.serviceName textOf)))))) with
  | .error issues => .error issues
  | .ok (env, logLevel, depth, width, concurrency, metrics, service) =>
      .ok ⟨env, logLevel, depth, width, concurrency, metrics, service⟩

def ofNamed (given : List (String × Value)) : Checked Settings :=
  ofDictionary (Dictionary.ofList (given.map fun entry => (Text.lower entry.1, entry.2)))

def variableStart : String := "icons_"

def ofVariable (name text : String) : Option (String × Value) :=
  let low := (Text.lower name).toList
  let start := variableStart.toList
  if start.isPrefixOf low then some (String.ofList (low.drop start.length), .text text) else none

def ofEnvironment (named : List (String × String)) : Checked Settings :=
  ofDictionary (Dictionary.ofList (named.filterMap fun entry => ofVariable entry.1 entry.2))

end Settings

end TagRules
