import TagRules.Dictionary
import TagRules.Text.Basic
import TagRules.Value.Text

/-!
Plain objects inside a record stay as they are, and so does the value that a constant stands for.
-/

set_option autoImplicit false

namespace TagRules.Record

def ofNamed (named : List (String × Value)) : Value :=
  .view ((Dictionary.ofList named).map fun entry => (.text entry.1, entry.2))

mutual

def plain : Value → Except Fault Value
  | .member value => .ok value
  | .textMember s => .ok (.text s)
  | .list items => (plainItems items).map .tuple
  | .tuple items => (plainItems items).map .tuple
  | .set items => (plainItems items).map .tuple
  | .mapping entries => (plainEntries entries).map ofNamed
  | .view entries => (plainEntries entries).map ofNamed
  | .struct fields => (plainFields fields).map ofNamed
  | .model fields => (plainFields fields).map ofNamed
  | value => .ok value

def plainItems : List Value → Except Fault (List Value)
  | [] => .ok []
  | item :: rest =>
      match plain item with
      | .error e => .error e
      | .ok first => (plainItems rest).map (first :: ·)

def plainEntries : List (Value × Value) → Except Fault (List (String × Value))
  | [] => .ok []
  | (key, value) :: rest =>
      match key.toText with
      | .error e => .error e
      | .ok name =>
          match plain value with
          | .error e => .error e
          | .ok first => (plainEntries rest).map ((name, first) :: ·)

def plainFields : List (String × Value) → Except Fault (List (String × Value))
  | [] => .ok []
  | (name, value) :: rest =>
      match plain value with
      | .error e => .error e
      | .ok first => (plainFields rest).map ((name, first) :: ·)

end

def isPrivate (name : String) : Bool := name.toList.head? == some '_'

def view (entity : Value) : Except Fault Value :=
  match entity with
  | .null => .ok (ofNamed [])
  | .mapping entries => (plainEntries entries).map ofNamed
  | .view entries => (plainEntries entries).map ofNamed
  | .struct fields => (plainFields fields).map ofNamed
  | .model fields => (plainFields fields).map ofNamed
  | .object attributes =>
      (plainFields (attributes.filter fun entry => !isPrivate entry.1)).map ofNamed
  | .member _ => .ok (ofNamed [])
  | .textMember _ => .ok (ofNamed [])
  | _ => .error .notAnEntity

end TagRules.Record

namespace TagRules.Path

def segments (path : String) : List String :=
  (Text.splitOn '.' path.toList).map String.ofList

def setOperations : List String :=
  ["add", "clear", "copy", "difference", "difference_update", "discard", "intersection",
    "intersection_update", "isdisjoint", "issubset", "issuperset", "pop", "remove",
    "symmetric_difference", "symmetric_difference_update", "union", "update"]

def modelOperations : List String :=
  ["construct", "copy", "dict", "from_orm", "json", "model_construct", "model_copy", "model_dump",
    "model_dump_json", "model_json_schema", "model_parametrized_name", "model_post_init",
    "model_rebuild", "model_validate", "model_validate_json", "model_validate_strings",
    "parse_file", "parse_obj", "parse_raw", "schema", "schema_json", "update_forward_refs",
    "validate"]

def modelFacts (fields : List (String × Value)) : List (String × Value) :=
  [("model_extra", .null), ("model_fields_set", .set (fields.map fun field => .text field.1)),
    ("model_computed_fields", .mapping []), ("model_config", .mapping []),
    ("model_fields", .mapping (fields.map fun field => (.text field.1, .operation field.1)))]

def operationOf (names : List String) (name : String) : Value :=
  if name ∈ names then .operation name else .missing

def publicAttribute (name : String) (attributes : List (String × Value)) : Value :=
  if Record.isPrivate name then .missing else (Dictionary.get? name attributes).getD .missing

def step (node : Value) (segment : String) : Value :=
  match node with
  | .mapping entries => (Value.entry? segment entries).getD .missing
  | .view entries => (Value.entry? segment entries).getD .missing
  | .object attributes => publicAttribute segment attributes
  | .struct fields => publicAttribute segment fields
  | .model fields =>
      match publicAttribute segment (modelFacts fields ++ fields) with
      | .missing => operationOf modelOperations segment
      | found => found
  | .set _ => operationOf setOperations segment
  | .member value =>
      publicAttribute segment
        [("name", .text Value.memberName), ("value", value), (Value.memberName, .member value)]
  | _ => .missing

def resolve (node : Value) (path : String) : Value := (segments path).foldl step node

end TagRules.Path
