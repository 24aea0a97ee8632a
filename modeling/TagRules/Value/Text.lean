import TagRules.Fault
import TagRules.Numeric.FloatText
import TagRules.Text.Quoted

/-!
`toText` is how a value reads as an id, `shown` how it reads inside another value, and `ruleText` how
it reads in a search, where a whole float reads as an integer.
-/

set_option autoImplicit false

namespace TagRules.Value

def integerText (n : Int) : Except Fault String :=
  if n.natAbs < Nat.pow 10 Json.maxDigits then .ok (toString n) else .error .integerTooLong

def boolText (b : Bool) : String := if b then "True" else "False"

def tupleText : List String → String
  | [one] => "(" ++ one ++ ",)"
  | many => "(" ++ ", ".intercalate many ++ ")"

def curly (inner : List String) : String := "\x7b" ++ ", ".intercalate inner ++ "\x7d"

mutual

def shown : Value → Except Fault String
  | .null => .ok "None"
  | .missing => .ok "<object object>"
  | .bool b => .ok (boolText b)
  | .int n => integerText n
  | .float x => .ok x.toText
  | .decimal x => .ok ("Decimal('" ++ x.toText ++ "')")
  | .text s => .ok (Text.quoted s)
  | .bytes octets => .ok (Text.quotedBytes octets)
  | .list items => (shownItems items).map fun inner => "[" ++ ", ".intercalate inner ++ "]"
  | .tuple items => (shownItems items).map tupleText
  | .mapping entries => (shownEntries entries).map curly
  | .view entries =>
      (shownEntries entries).map fun inner => "mappingproxy(" ++ curly inner ++ ")"
  | .set items =>
      (shownItems items).map fun inner => if inner.isEmpty then "set()" else curly inner
  | .member value =>
      (shown value).map fun inner =>
        "<" ++ kindName (.member value) ++ "." ++ memberName ++ ": " ++ inner ++ ">"
  | .textMember s =>
      .ok ("<" ++ kindName (.textMember s) ++ "." ++ memberName ++ ": " ++ Text.quoted s ++ ">")
  | .object attributes => .ok ("<" ++ kindName (.object attributes) ++ " object>")
  | .struct fields =>
      (shownFields fields).map fun inner =>
        kindName (.struct fields) ++ "(" ++ ", ".intercalate inner ++ ")"
  | .model fields =>
      (shownFields fields).map fun inner =>
        kindName (.model fields) ++ "(" ++ ", ".intercalate inner ++ ")"
  | .operation name => .ok ("<" ++ kindName (.operation name) ++ " " ++ name ++ ">")

def shownItems : List Value → Except Fault (List String)
  | [] => .ok []
  | item :: rest =>
      match shown item with
      | .error e => .error e
      | .ok first => (shownItems rest).map (first :: ·)

def shownEntries : List (Value × Value) → Except Fault (List String)
  | [] => .ok []
  | (key, value) :: rest =>
      match shown key with
      | .error e => .error e
      | .ok left =>
          match shown value with
          | .error e => .error e
          | .ok right => (shownEntries rest).map ((left ++ ": " ++ right) :: ·)

def shownFields : List (String × Value) → Except Fault (List String)
  | [] => .ok []
  | (name, value) :: rest =>
      match shown value with
      | .error e => .error e
      | .ok right => (shownFields rest).map ((name ++ "=" ++ right) :: ·)

end

def toText : Value → Except Fault String
  | .text s => .ok s
  | .textMember s => .ok (kindName (.textMember s) ++ "." ++ memberName)
  | .member value => .ok (kindName (.member value) ++ "." ++ memberName)
  | .decimal x => .ok x.toText
  | .mapping entries => (shownEntries entries).map curly
  | .view entries => (shownEntries entries).map curly
  | .model fields => (shownFields fields).map fun inner => " ".intercalate inner
  | value => shown value

def ruleText : Value → Except Fault String
  | .bool b => .ok (if b then "true" else "false")
  | .float x =>
      match x.toInt? with
      | some n => integerText n
      | none => .ok x.toText
  | value => toText value

end TagRules.Value
