import TagRules.Issue
import TagRules.Json.Text

set_option autoImplicit false

namespace TagRules

inductive NodeFault
  | tooDeep (limit : Int)
  | notAnObject (kind : String)
  | badSingle (issues : List Issue)
  | badGroup (issues : List Issue)
  | tooWide (limit : Int)
  deriving DecidableEq

inductive Rejection
  | notJson (complaint : String)
  | node (path : List Nat) (fault : NodeFault)
  deriving DecidableEq

namespace Rejection

def pathText (path : List Nat) : String :=
  path.foldl (fun s i => s ++ ".conditions[" ++ toString i ++ "]") "$"

def message : Rejection → String
  | .notJson _ => "Condition is not valid JSON"
  | .node _ (.tooDeep limit) => "Condition nesting exceeds " ++ toString limit ++ " levels"
  | .node _ (.notAnObject _) => "Condition must be an object"
  | .node _ (.badSingle _) => "Invalid condition"
  | .node _ (.badGroup _) => "Invalid condition group"
  | .node _ (.tooWide limit) => "Condition group exceeds " ++ toString limit ++ " entries"

def textEntry (name value : String) : Value × Value := (.text name, .text value)

def crumbValue : Crumb → Value
  | .key name => .text name
  | .index i => .int i

def issueValue (issue : Issue) : Value :=
  .mapping [(.text "loc", .list (issue.place.map crumbValue)),
    textEntry "msg" issue.kind.message, textEntry "type" issue.kind.code]

def issuesEntry (issues : List Issue) : Value × Value :=
  (.text "errors", .list (issues.map issueValue))

def details : Rejection → Value
  | .notJson complaint => .mapping [textEntry "error" complaint]
  | .node path fault =>
      .mapping (textEntry "path" (pathText path) ::
        match fault with
        | .tooDeep limit => [(.text "max_depth", .int limit)]
        | .notAnObject kind => [textEntry "received" kind]
        | .badSingle issues => [issuesEntry issues]
        | .badGroup issues => [issuesEntry issues]
        | .tooWide limit => [(.text "max_group_size", .int limit)])

end Rejection

end TagRules
