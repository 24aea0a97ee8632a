import TagRules.Condition.Basic
import TagRules.Fault
import TagRules.Text.Basic
import TagRules.Text.Case
import TagRules.Value.Text

/-!
Nodes are read from the root down, and the first one that fails a check is named with its issues.
-/

set_option autoImplicit false

namespace TagRules

structure Limits where
  maxDepth : Int
  maxWidth : Int
  deriving DecidableEq, Inhabited

namespace Condition

abbrev Entries := List (Value × Value)

def ofDecimal? : Decimal → Option Binary64
  | .finite x => some (Binary64.nearest x)
  | .infinite negative => some (.infinite negative)
  | .nan _ _ => some (.nan none)
  | .signalling _ _ => none

def scalar? : Value → Option Value
  | .bool b => some (.bool b)
  | .int n => some (.int n)
  | .float x => some (.float x)
  | .decimal x => (ofDecimal? x).map .float
  | .text s => some (.text s)
  | .textMember s => some (.text s)
  | _ => none

def listItems? : Value → Option (List Value)
  | .list items => some items
  | .tuple items => some items
  | .set items => some items
  | .model fields => some (fields.map fun field => .tuple [.text field.1, field.2])
  | _ => none

def decoded? (octets : List UInt8) : Option String := String.fromUTF8? ⟨octets.toArray⟩

def word? : Value → Option String
  | .text s => some s
  | .textMember s => some s
  | .bytes octets => decoded? octets
  | .member value => value.toText.toOption
  | _ => none

def scalarIssues (place : List Crumb) : List Issue :=
  [⟨place ++ [.key "bool"], .notBool⟩, ⟨place ++ [.key "int"], .notInteger⟩,
    ⟨place ++ [.key "float"], .notNumber⟩, ⟨place ++ [.key "str"], .notText⟩]

def readId (entries : Entries) : Checked Unit :=
  match Value.entry? "id" entries with
  | none => .ok ()
  | some .null => .ok ()
  | some (.member _) => .ok ()
  | some (.bytes octets) =>
      if (decoded? octets).isSome then .ok () else .fail [.key "id"] .undecodableText
  | some v => if v.text?.isSome then .ok () else .fail [.key "id"] .notText

def readField (entries : Entries) : Checked String :=
  match Value.entry? "field" entries with
  | none => .fail [.key "field"] .missing
  | some v =>
      match v.text? with
      | none => .fail [.key "field"] .notText
      | some s => if s.isEmpty then .fail [.key "field"] .tooShort else .ok s

def readOperator (entries : Entries) : Checked Operator :=
  match Value.entry? "operator" entries with
  | none => .fail [.key "operator"] .missing
  | some v =>
      match (word? v).bind Operator.ofName? with
      | none => .fail [.key "operator"] .unknownOperator
      | some o => .ok o

def listName : String := "list[union[bool,int,float,str]]"

def itemIssues (place : List Crumb) (index : Nat) : List Value → List Issue
  | [] => []
  | item :: rest =>
      (match scalar? item with
        | some _ => []
        | none => scalarIssues (place ++ [.index index])) ++ itemIssues place (index + 1) rest

def readOperand (entries : Entries) : Checked Value :=
  match Value.entry? "value" entries with
  | none => .ok .null
  | some .null => .ok .null
  | some v =>
      match scalar? v with
      | some s => .ok s
      | none =>
          let place := [Crumb.key "value", Crumb.key listName]
          match listItems? v with
          | none => .error (scalarIssues [.key "value"] ++ [⟨place, .notList⟩])
          | some items =>
              match itemIssues place 0 items with
              | [] => .ok (.tuple (items.filterMap scalar?))
              | issues => .error (scalarIssues [.key "value"] ++ issues)

def firstPresent? (entries : Entries) : List String → Option (String × Value)
  | [] => none
  | name :: rest =>
      match Value.entry? name entries with
      | some v => some (name, v)
      | none => firstPresent? entries rest

def readSecond (entries : Entries) : Checked Value :=
  match firstPresent? entries ["secondValue", "second_value"] with
  | none => .ok .null
  | some (_, .null) => .ok .null
  | some (name, v) =>
      match scalar? v with
      | some s => .ok s
      | none => .error (scalarIssues [.key name])

def operandFault? (operator : Operator) (value second : Value) : Option OperandFault :=
  if operator.takesNoValue then none
  else
    match value with
    | .null => some (.valueRequired operator)
    | given =>
        if operator = .between then
          match second with
          | .null => some .secondRequired
          | _ => if given.items?.isSome then some .scalarBounds else none
        else none

def readSingle (entries : Entries) : Checked Condition :=
  match (readId entries).pair ((readField entries).pair ((readOperator entries).pair
      ((readOperand entries).pair (readSecond entries)))) with
  | .error issues => .error issues
  | .ok (_, field, operator, value, second) =>
      match operandFault? operator value second with
      | some fault => .fail [] (.operands fault)
      | none => .ok (.single field (.known operator) value second)

theorem read_single_ok_iff (entries : Entries) (c : Condition) :
    readSingle entries = .ok c ↔ ∃ field operator value second,
      readId entries = .ok () ∧ readField entries = .ok field ∧
        readOperator entries = .ok operator ∧ readOperand entries = .ok value ∧
        readSecond entries = .ok second ∧ operandFault? operator value second = none ∧
        c = .single field (.known operator) value second := by
  unfold readSingle
  constructor
  · intro read
    split at read
    · cases read
    · rename_i whole field operator value second parts
      simp only [Checked.pair_ok_iff] at parts
      obtain ⟨identity, named, spelled, first, other⟩ := parts
      split at read
      · cases read
      · rename_i fine
        cases read
        exact ⟨field, operator, value, second, identity, named, spelled, first, other, fine, rfl⟩
  · rintro ⟨field, operator, value, second, identity, named, spelled, first, other, fine, rfl⟩
    simp only [identity, named, spelled, first, other, Checked.pair, fine]

def combinatorOf? (v : Value) : Option Combinator :=
  match v.text? with
  | some s => Combinator.ofName? (Text.lower (Text.strip s))
  | none => (word? v).bind Combinator.ofName?

def readCombinator (entries : Entries) : Checked Combinator :=
  match (Value.entry? "logicalOperator" entries).bind combinatorOf? with
  | none => .fail [.key "logicalOperator"] .unknownCombinator
  | some c => .ok c

def readChildren (entries : Entries) : Checked (List Value) :=
  match (Value.entry? "conditions" entries).bind listItems? with
  | none => .fail [.key "conditions"] .notList
  | some items => .ok items

def readHeader (entries : Entries) : Checked (Combinator × List Value) :=
  match (readId entries).pair ((readCombinator entries).pair (readChildren entries)) with
  | .error issues => .error issues
  | .ok (_, header) => .ok header

theorem read_header_ok_iff (entries : Entries) (combinator : Combinator) (items : List Value) :
    readHeader entries = .ok (combinator, items) ↔ readId entries = .ok () ∧
      readCombinator entries = .ok combinator ∧ readChildren entries = .ok items := by
  rw [← Checked.pair_ok_iff, ← Checked.pair_ok_iff]
  unfold readHeader
  cases (readId entries).pair ((readCombinator entries).pair (readChildren entries)) <;>
    simp [Prod.ext_iff]

def isGroup (entries : Entries) : Bool :=
  (Value.entry? "logicalOperator" entries).isSome && (Value.entry? "conditions" entries).isSome

def readEach (read : List Nat → Value → Except Rejection Condition) (path : List Nat) (index : Nat) :
    List Value → Except Rejection (List Condition)
  | [] => .ok []
  | child :: rest =>
      match read (path ++ [index]) child with
      | .error e => .error e
      | .ok c => (readEach read path (index + 1) rest).map (c :: ·)

-- `room` is the number of levels that are still allowed.
def readNode (limits : Limits) : Nat → List Nat → Value → Except Rejection Condition
  | 0, path, _ => .error (.node path (.tooDeep limits.maxDepth))
  | room + 1, path, payload =>
      match payload.entries? with
      | some entries =>
          if isGroup entries then
            match readHeader entries with
            | .error issues => .error (.node path (.badGroup issues))
            | .ok (combinator, children) =>
                if limits.maxWidth < children.length then
                  .error (.node path (.tooWide limits.maxWidth))
                else
                  (readEach (readNode limits room) path 0 children).map
                    (.group (.known combinator))
          else
            match readSingle entries with
            | .error issues => .error (.node path (.badSingle issues))
            | .ok c => .ok c
      | none => .error (.node path (.notAnObject payload.kindName))

theorem read_each_cons_ok_iff (read : List Nat → Value → Except Rejection Condition)
    (path : List Nat) (index : Nat) (child : Value) (rest : List Value) (cs : List Condition) :
    readEach read path index (child :: rest) = .ok cs ↔ ∃ c more,
      read (path ++ [index]) child = .ok c ∧ readEach read path (index + 1) rest = .ok more ∧
        cs = c :: more := by
  rw [readEach.eq_2]
  cases read (path ++ [index]) child with
  | error e => simp
  | ok c => cases readEach read path (index + 1) rest <;> simp [Except.map, eq_comm]

theorem read_node_single_ok_iff (limits : Limits) (room : Nat) (path : List Nat) {payload : Value}
    {entries : Entries} (keyed : payload.entries? = some entries) (other : isGroup entries = false)
    (c : Condition) :
    readNode limits (room + 1) path payload = .ok c ↔ readSingle entries = .ok c := by
  rw [readNode.eq_2]
  simp only [keyed, other, Bool.false_eq_true, if_false]
  cases readSingle entries <;> simp

theorem read_node_group_ok_iff (limits : Limits) (room : Nat) (path : List Nat) {payload : Value}
    {entries : Entries} (keyed : payload.entries? = some entries) (carries : isGroup entries = true)
    (c : Condition) :
    readNode limits (room + 1) path payload = .ok c ↔ ∃ combinator items children,
      readHeader entries = .ok (combinator, items) ∧ items.length ≤ limits.maxWidth ∧
        readEach (readNode limits room) path 0 items = .ok children ∧
        c = .group (.known combinator) children := by
  rw [readNode.eq_2]
  simp only [keyed, carries, if_true]
  cases header : readHeader entries with
  | error issues => simp
  | ok found =>
    obtain ⟨combinator, items⟩ := found
    by_cases wide : limits.maxWidth < items.length
    · simp only [wide, if_true, reduceCtorEq, false_iff]
      rintro ⟨_, _, _, same, narrow, _⟩
      cases same
      exact absurd narrow (Int.not_le.mpr wide)
    · simp only [wide, if_false]
      constructor
      · intro read
        cases children : readEach (readNode limits room) path 0 items with
        | error e => simp [children, Except.map] at read
        | ok cs =>
          simp only [children, Except.map, Except.ok.injEq] at read
          exact ⟨combinator, items, cs, rfl, Int.not_lt.mp wide, children, read.symm⟩
      · rintro ⟨_, _, cs, same, _, children, rfl⟩
        cases same
        simp only [children, Except.map]

theorem read_node_ok_mapping (limits : Limits) (room : Nat) (path : List Nat) (payload : Value)
    (c : Condition) (read : readNode limits room path payload = .ok c) :
    ∃ left entries, room = left + 1 ∧ payload.entries? = some entries := by
  cases room with
  | zero => cases read
  | succ left =>
    rw [readNode.eq_2] at read
    cases keyed : payload.entries? with
    | none =>
      rw [keyed] at read
      cases read
    | some entries => exact ⟨left, entries, rfl, rfl⟩

def readTree (limits : Limits) (payload : Value) : Except Fault (Option Condition) :=
  match payload with
  | .null => .ok none
  | given =>
      match readNode limits limits.maxDepth.toNat [] given with
      | .error why => .error (.rejected why)
      | .ok c => .ok (some c)

theorem read_tree_ok_iff (limits : Limits) (payload : Value) (c : Option Condition) :
    readTree limits payload = .ok c ↔ (payload = .null ∧ c = none) ∨
      ∃ tree, c = some tree ∧ readNode limits limits.maxDepth.toNat [] payload = .ok tree := by
  by_cases null : payload = .null
  · subst null
    constructor
    · rintro ⟨⟩
      exact .inl ⟨rfl, rfl⟩
    · rintro (⟨_, rfl⟩ | ⟨tree, _, read⟩)
      · rfl
      · obtain ⟨_, _, _, mapping⟩ := read_node_ok_mapping limits _ [] _ tree read
        cases mapping
  · rw [readTree.eq_2 limits payload null]
    cases readNode limits limits.maxDepth.toNat [] payload <;> simp [null, eq_comm]

def readSpelled (limits : Limits) (cs : List Char) (spelled : Except Json.Failure Value) :
    Except Fault (Option Condition) :=
  match spelled with
  | .ok v => readTree limits v
  | .error (.refused problem left) => .error (.rejected (.notJson (Json.complaint problem cs left)))
  | .error (.tooManyDigits digits) => .error (.literalTooLong digits)
  | .error (.tooDeep isObject) => .error (.nestedTooDeep isObject)

def read (limits : Limits) (payload : Value) (stack : Nat := Json.usualStack) :
    Except Fault (Option Condition) :=
  match payload with
  | .text s => readSpelled limits s.toList (Json.readText s.toList stack)
  | .textMember s => readSpelled limits s.toList (Json.readText s.toList stack)
  | .bytes octets =>
      match Json.decode (octets.map UInt8.toNat) with
      | .error why => .error (.undecodable why)
      | .ok cs => readSpelled limits cs (Json.readAll cs stack)
  | given => readTree limits given

end Condition

end TagRules
