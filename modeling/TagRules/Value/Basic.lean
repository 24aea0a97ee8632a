import TagRules.Numeric.Binary64
import TagRules.Numeric.Decimal

set_option autoImplicit false

namespace TagRules

inductive Value
  | null
  -- The answer of a path that leads nowhere.
  | missing
  | bool (b : Bool)
  | int (n : Int)
  | float (x : Binary64)
  | decimal (x : Decimal)
  -- Unicode text: a lone surrogate, which is none, is read as the replacement character.
  | text (s : String)
  | bytes (octets : List UInt8)
  | list (items : List Value)
  | tuple (items : List Value)
  | mapping (entries : List (Value × Value))
  -- A read-only mapping, as record views hold it.
  | view (entries : List (Value × Value))
  | set (items : List Value)
  -- A named constant that stands for a value.
  | member (value : Value)
  -- A named constant that is itself a text.
  | textMember (s : String)
  -- An entity with attributes; a name that starts with an underscore is private.
  | object (attributes : List (String × Value))
  -- An entity with declared fields.
  | struct (fields : List (String × Value))
  -- An entity that converts itself to a mapping before it is read.
  | model (fields : List (String × Value))
  -- An operation of a set or an entity; it holds no data.
  | operation (name : String)
  deriving Inhabited

namespace Value

def memberName : String := "M"

def text? : Value → Option String
  | .text s => some s
  | .textMember s => some s
  | _ => none

def items? : Value → Option (List Value)
  | .list items => some items
  | .tuple items => some items
  | _ => none

def entries? : Value → Option (List (Value × Value))
  | .mapping entries => some entries
  | .view entries => some entries
  | _ => none

def isAbsent : Value → Bool
  | .null => true
  | .missing => true
  | _ => false

def kindName : Value → String
  | .null => "NoneType"
  | .missing => "object"
  | .bool _ => "bool"
  | .int _ => "int"
  | .float _ => "float"
  | .decimal _ => "Decimal"
  | .text _ => "str"
  | .bytes _ => "bytes"
  | .list _ => "list"
  | .tuple _ => "tuple"
  | .mapping _ => "dict"
  | .view _ => "mappingproxy"
  | .set _ => "set"
  | .member _ => "PlainEnum"
  | .textMember _ => "StrEnum"
  | .object _ => "Obj"
  | .struct _ => "Data"
  | .model _ => "Model"
  | .operation _ => "method"

def isVoid : Value → Bool
  | .null => true
  | .bool b => !b
  | .int n => n == 0
  | .float (.finite _ rank) => rank == 0
  | .text s => s.isEmpty
  | .list items => items.isEmpty
  | .mapping entries => entries.isEmpty
  | _ => false

def entry? (name : String) : List (Value × Value) → Option Value
  | [] => none
  | (key, value) :: rest => if key.text? = some name then some value else entry? name rest

theorem entry_mem (name : String) (entries : List (Value × Value)) (v : Value)
    (found : entry? name entries = some v) : ∃ entry ∈ entries, entry.2 = v := by
  induction entries with
  | nil => cases found
  | cons entry rest ih =>
    unfold entry? at found
    split at found
    · cases found
      exact ⟨entry, List.mem_cons_self, rfl⟩
    · obtain ⟨later, member, same⟩ := ih found
      exact ⟨later, List.mem_cons_of_mem entry member, same⟩

end Value

end TagRules
