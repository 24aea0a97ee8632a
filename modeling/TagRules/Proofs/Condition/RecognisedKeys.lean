import TagRules.Condition.Read

set_option autoImplicit false

namespace TagRules.Condition

open Value

structure SameFields (entries others : Entries) : Prop where
  identity : entry? "id" entries = entry? "id" others
  field : entry? "field" entries = entry? "field" others
  operator : entry? "operator" entries = entry? "operator" others
  value : entry? "value" entries = entry? "value" others
  bound : entry? "secondValue" entries = entry? "secondValue" others
  otherBound : entry? "secondValue" entries = none →
    entry? "second_value" entries = entry? "second_value" others

structure SameHeader (entries others : Entries) : Prop where
  identity : entry? "id" entries = entry? "id" others
  combinator : entry? "logicalOperator" entries = entry? "logicalOperator" others

-- Two stored values that differ in keys that do not count only, whether they are valid or not.
inductive Resembles : Value → Value → Prop
  | same (v : Value) : Resembles v v
  | single {entries others : Entries} (left : isGroup entries = false) (right : isGroup others = false)
      (fields : SameFields entries others) : Resembles (.mapping entries) (.mapping others)
  | group {entries others : Entries} {items changed : List Value} (left : isGroup entries = true)
      (right : isGroup others = true) (header : SameHeader entries others)
      (listed : entry? "conditions" entries = some (.list items))
      (relisted : entry? "conditions" others = some (.list changed))
      (length : items.length = changed.length)
      (each : ∀ (i : Nat) item other, items[i]? = some item → changed[i]? = some other →
        Resembles item other) :
      Resembles (.mapping entries) (.mapping others)
  | unlisted {entries others : Entries} (left : isGroup entries = true) (right : isGroup others = true)
      (header : SameHeader entries others)
      (conditions : entry? "conditions" entries = entry? "conditions" others) :
      Resembles (.mapping entries) (.mapping others)

theorem read_single_same (entries others : Entries) (fields : SameFields entries others) :
    readSingle entries = readSingle others := by
  have identity : readId entries = readId others := by rw [readId, readId, fields.identity]
  have named : readField entries = readField others := by rw [readField, readField, fields.field]
  have spelled : readOperator entries = readOperator others := by
    rw [readOperator, readOperator, fields.operator]
  have first : readOperand entries = readOperand others := by
    rw [readOperand, readOperand, fields.value]
  have bounds : firstPresent? entries ["secondValue", "second_value"] =
      firstPresent? others ["secondValue", "second_value"] := by
    cases present : entry? "secondValue" entries with
    | none => simp only [firstPresent?, ← fields.bound, present, fields.otherBound present]
    | some v => simp only [firstPresent?, ← fields.bound, present]
  have second : readSecond entries = readSecond others := by rw [readSecond, readSecond, bounds]
  rw [readSingle, readSingle, identity, named, spelled, first, second]

theorem read_header_same (entries others : Entries) (header : SameHeader entries others)
    (items changed : List Value) (children : readChildren entries = .ok items)
    (rechildren : readChildren others = .ok changed) :
    readHeader others = (readHeader entries).map fun found => (found.1, changed) := by
  have identity : readId others = readId entries := by rw [readId, readId, header.identity]
  have combinator : readCombinator others = readCombinator entries := by
    rw [readCombinator, readCombinator, header.combinator]
  rw [readHeader, readHeader, identity, combinator, children, rechildren]
  cases readId entries <;> cases readCombinator entries <;> rfl

theorem read_header_unlisted (entries others : Entries) (header : SameHeader entries others)
    (conditions : entry? "conditions" entries = entry? "conditions" others) :
    readHeader others = readHeader entries := by
  rw [readHeader, readHeader, readId, readId, readCombinator, readCombinator, readChildren,
    readChildren, header.identity, header.combinator, conditions]

theorem read_each_same (read : List Nat → Value → Except Rejection Condition) (path : List Nat)
    (index : Nat) (items changed : List Value) (length : items.length = changed.length)
    (each : ∀ (i : Nat) item other, items[i]? = some item → changed[i]? = some other →
      ∀ place, read place item = read place other) :
    readEach read path index items = readEach read path index changed := by
  induction items generalizing index changed with
  | nil =>
    obtain rfl := List.eq_nil_of_length_eq_zero length.symm
    rfl
  | cons item rest ih =>
    cases changed with
    | nil => cases length
    | cons other more =>
      have atHead := each 0 item other rfl rfl (path ++ [index])
      have later := ih (index + 1) more (Nat.succ.inj length) fun i => each (i + 1)
      rw [readEach, readEach, atHead, later]

theorem read_node_same (limits : Limits) (room : Nat) (path : List Nat) (payload other : Value)
    (resembles : Resembles payload other) :
    readNode limits room path payload = readNode limits room path other := by
  induction resembles generalizing room path with
  | same v => rfl
  | @single entries others left right fields =>
    cases room with
    | zero => rfl
    | succ room =>
      have single := read_single_same entries others fields
      simp only [readNode, entries?, left, right, single, Bool.false_eq_true, if_false]
  | @group entries others items changed left right header listed relisted length each ih =>
    cases room with
    | zero => rfl
    | succ room =>
      have children : readChildren entries = .ok items := by rw [readChildren, listed]; rfl
      have rechildren : readChildren others = .ok changed := by rw [readChildren, relisted]; rfl
      have head := read_header_same entries others header items changed children rechildren
      have below := read_each_same (readNode limits room) path 0 items changed length
        fun i item other isItem isOther place => ih i item other isItem isOther room place
      simp only [readNode, entries?, left, right, head, if_true]
      cases found : readHeader entries with
      | error issues => rfl
      | ok whole =>
        obtain ⟨combinator, given⟩ := whole
        have own := ((read_header_ok_iff entries combinator given).mp found).2.2
        obtain rfl : items = given := Except.ok.inj (children.symm.trans own)
        simp only [Except.map, length, below]
  | @unlisted entries others left right header conditions =>
    cases room with
    | zero => rfl
    | succ room =>
      have head := read_header_unlisted entries others header conditions
      simp only [readNode, entries?, left, right, head, if_true]

theorem unread_keys_say_nothing (limits : Limits) (payload other : Value) (stack : Nat)
    (resembles : Resembles payload other) : read limits payload stack = read limits other stack := by
  have node := read_node_same limits limits.maxDepth.toNat [] payload other resembles
  cases resembles with
  | same v => rfl
  | single => simp only [read, readTree, node]
  | group => simp only [read, readTree, node]
  | unlisted => simp only [read, readTree, node]

theorem decorated_group_refused_alike :
    let bounded : Value := .mapping [(.text "field", .text "staff"), (.text "operator", .text "between"),
      (.text "value", .int 1), (.text "secondValue", .int 5)]
    let decorated : Value := .mapping [(.text "colour", .null), (.text "second_value", .list []),
      (.text "secondValue", .int 5), (.text "value", .int 1), (.text "operator", .text "between"),
      (.text "field", .text "staff"), (.text "logical_operator", .text "or")]
    let nameless : Value := .mapping [(.text "operator", .text "isEmpty")]
    let payload : Value := .mapping [(.text "logicalOperator", .text "and"),
      (.text "conditions", .list [bounded, nameless])]
    let other : Value := .mapping [(.text "field", .int 7), (.text "conditions", .list [decorated, nameless]),
      (.text "logicalOperator", .text "and"), (.text "value", .mapping [])]
    Resembles payload other ∧ read ⟨2, 2⟩ payload = read ⟨2, 2⟩ other ∧
      read ⟨2, 2⟩ other = .error (.rejected (.node [1] (.badSingle [⟨[.key "field"], .missing⟩]))) := by
  intro bounded decorated nameless payload other
  have first : Resembles bounded decorated := .single rfl rfl ⟨rfl, rfl, rfl, rfl, rfl, nofun⟩
  have resembles : Resembles payload other := by
    refine .group rfl rfl ⟨rfl, rfl⟩ rfl rfl rfl fun i item changed isItem isChanged => ?_
    match i with
    | 0 => cases isItem; cases isChanged; exact first
    | 1 => cases isItem; cases isChanged; exact .same nameless
  exact ⟨resembles, unread_keys_say_nothing ⟨2, 2⟩ payload other _ resembles, rfl⟩

end TagRules.Condition
