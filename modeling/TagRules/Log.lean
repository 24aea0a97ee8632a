import TagRules.Dictionary
import TagRules.Template.Fill
import TagRules.Text.Case
import TagRules.Text.Basic

set_option autoImplicit false

namespace TagRules

structure Context where
  client : Option String
  company : Option String
  deriving DecidableEq, Inhabited

namespace Context

def none : Context := ⟨.none, .none⟩

end Context

inductive Level
  | debug
  | info
  | warning
  | error
  | critical
  deriving DecidableEq, Inhabited

namespace Level

def name : Level → String
  | .debug => "debug"
  | .info => "info"
  | .warning => "warning"
  | .error => "error"
  | .critical => "critical"

def rank : Level → Nat
  | .debug => 10
  | .info => 20
  | .warning => 30
  | .error => 40
  | .critical => 50

def ofCall? (call : String) : Option Level :=
  if call = "debug" then some .debug
  else if call = "info" then some .info
  else if call = "warning" ∨ call = "warn" then some .warning
  else if call = "error" ∨ call = "exception" then some .error
  else if call = "critical" ∨ call = "fatal" then some .critical
  else none

-- Two names that are known but are no names of levels, and what they stand for.
def formatName : String := "BASIC_FORMAT"

def formatText : String := "%(levelname)s:%(name)s:%(message)s"

def stylesName : String := "_STYLES"

def stylesText : String :=
  "\x7b'%': (<class 'logging.PercentStyle'>, '%(levelname)s:%(name)s:%(message)s'), " ++
    "'\x7b': (<class 'logging.StrFormatStyle'>, " ++
    "'\x7blevelname\x7d:\x7bname\x7d:\x7bmessage\x7d'), " ++
    "'$': (<class 'logging.StringTemplateStyle'>, " ++
    "'$\x7blevelname\x7d:$\x7bname\x7d:$\x7bmessage\x7d')\x7d"

def threshold (name : String) : Except Fault Nat :=
  let big := Text.upper name
  if big = "NOTSET" then .ok 0
  else if big = "DEBUG" then .ok 10
  else if big = "INFO" then .ok 20
  else if big = "WARNING" ∨ big = "WARN" then .ok 30
  else if big = "ERROR" then .ok 40
  else if big = "CRITICAL" ∨ big = "FATAL" then .ok 50
  else if big = formatName then .error (.unknownLevelText (Text.quoted formatText))
  else if big = stylesName then .error (.notALevel stylesText)
  else .error (.unknownLevel big)

end Level

structure Event where
  logger : String
  level : Level
  event : String
  fields : List (String × Value)

abbrev Line := Dictionary String Value

namespace Log

def loggerName (logger : String) : String := if logger.isEmpty then "root" else logger

def serviceOf? (logger : String) : Option String :=
  match Text.splitOn '.' logger.toList with
  | first :: _ :: _ => some (String.ofList first)
  | _ => none

def addId (name : String) (id : Option String) (line : Line) : Line :=
  match id with
  | none => line
  | some s =>
      if s.isEmpty ∨ (Dictionary.get? name line).isSome then line
      else Dictionary.put name (.text s) line

def hidden : List String := ["timestamp", "exc_info", "stack_info"]

mutual

def shownField : Value → Value
  | .list items => .list (shownFields items)
  | .tuple items => .list (shownFields items)
  | .mapping entries => .mapping (shownEntries entries)
  | .view entries => .mapping (shownEntries entries)
  | .null => .null
  | .bool b => .bool b
  | .int n => .int n
  | .float x => .float x
  | .text s => .text s
  | .textMember s => .text s
  | v => .text (v.shown.toOption.getD "")

def shownFields : List Value → List Value
  | [] => []
  | v :: rest => shownField v :: shownFields rest

def shownEntries : List (Value × Value) → List (Value × Value)
  | [] => []
  | (key, v) :: rest => (key, shownField v) :: shownEntries rest

end

def render (context : Context) (e : Event) : Line :=
  let shown := (Dictionary.ofList e.fields).filter fun entry => decide (entry.1 ∉ hidden)
  let line := Dictionary.put "event" (.text e.event)
    (shown.map fun entry => (entry.1, shownField entry.2))
  let named := Dictionary.put "level" (.text e.level.name)
    (Dictionary.put "logger" (.text (loggerName e.logger)) line)
  let served := match serviceOf? e.logger with
    | some service => Dictionary.put "service" (.text service) named
    | none => named
  addId "client_id" context.client (addId "company_id" context.company served)

def format (text : String) (args : List Value) : Except Fault String :=
  if args.isEmpty then .ok text else Template.fill text args

end Log

end TagRules
