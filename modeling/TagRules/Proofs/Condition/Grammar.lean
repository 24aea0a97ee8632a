import TagRules.Condition.Read

set_option autoImplicit false

namespace TagRules

inductive JsonShaped : Value → Prop
  | null : JsonShaped .null
  | bool (b : Bool) : JsonShaped (.bool b)
  | int (n : Int) : JsonShaped (.int n)
  | float (x : Binary64) : JsonShaped (.float x)
  | text (s : String) : JsonShaped (.text s)
  | list (items : List Value) (each : ∀ item ∈ items, JsonShaped item) : JsonShaped (.list items)
  | mapping (entries : List (Value × Value))
      (named : ∀ entry ∈ entries, ∃ name, entry.1 = .text name)
      (each : ∀ entry ∈ entries, JsonShaped entry.2) : JsonShaped (.mapping entries)

namespace Condition

inductive Scalar : Value → Prop
  | bool (b : Bool) : Scalar (.bool b)
  | int (n : Int) : Scalar (.int n)
  | float (x : Binary64) : Scalar (.float x)
  | text (s : String) : Scalar (.text s)

attribute [simp] Scalar.bool Scalar.int Scalar.float Scalar.text

@[simp] theorem not_scalar_null : ¬ Scalar .null := nofun

@[simp] theorem not_scalar_list (items : List Value) : ¬ Scalar (.list items) := nofun

@[simp] theorem not_scalar_mapping (entries : Entries) : ¬ Scalar (.mapping entries) := nofun

def given (name : String) (entries : Entries) : Value := (Value.entry? name entries).getD .null

def givenSecond (entries : Entries) : Value :=
  (Value.entry? "secondValue" entries).getD (given "second_value" entries)

def TextOrNull (v : Value) : Prop := v = .null ∨ ∃ s, v = .text s

def ScalarOrNull (v : Value) : Prop := v = .null ∨ Scalar v

def ScalarList (v : Value) : Prop := ∃ items, v = .list items ∧ ∀ item ∈ items, Scalar item

structure Operands (operator : Operator) (value second : Value) : Prop where
  first : ScalarOrNull value ∨ ScalarList value
  other : ScalarOrNull second
  required : operator ≠ .isEmpty → operator ≠ .isNotEmpty → value ≠ .null
  bounds : operator = .between → Scalar value ∧ second ≠ .null

structure SingleOf (entries : Entries) (field : String) (operator : Operator) : Prop where
  identity : TextOrNull (given "id" entries)
  named : given "field" entries = .text field
  nonempty : field ≠ ""
  spelled : given "operator" entries = .text operator.name
  operands : Operands operator (given "value" entries) (givenSecond entries)

structure GroupOf (limits : Limits) (entries : Entries) (combinator : Combinator)
    (items : List Value) : Prop where
  identity : TextOrNull (given "id" entries)
  spelled : ∃ s, given "logicalOperator" entries = .text s ∧
    Text.lower (Text.strip s) = combinator.name
  listed : given "conditions" entries = .list items
  width : items.length ≤ limits.maxWidth

-- A mapping with both keys of a group is a group, whatever else it carries.
inductive ValidNode (limits : Limits) : Value → Prop
  | group {entries : Entries} {combinator : Combinator} {items : List Value}
      (carries : isGroup entries = true) (header : GroupOf limits entries combinator items) :
      ValidNode limits (.mapping entries)
  | single {entries : Entries} {field : String} {operator : Operator}
      (other : isGroup entries = false) (fields : SingleOf entries field operator) :
      ValidNode limits (.mapping entries)

-- The node that the indices lead to, through the lists of groups.
inductive Below : Value → List Nat → Value → Prop
  | here (v : Value) : Below v [] v
  | child {entries : Entries} {items : List Value} {i : Nat} {item node : Value} {path : List Nat}
      (carries : isGroup entries = true) (listed : given "conditions" entries = .list items)
      (found : items[i]? = some item) (deeper : Below item path node) :
      Below (.mapping entries) (i :: path) node

def tupled : Value → Value
  | .list items => .tuple items
  | v => v

-- Node for node, the condition says what the stored value says.
inductive Mirrors : Value → Condition → Prop
  | group {entries : Entries} {s : String} {combinator : Combinator} {items : List Value}
      {children : List Condition} (carries : isGroup entries = true)
      (spelled : given "logicalOperator" entries = .text s)
      (same : Text.lower (Text.strip s) = combinator.name)
      (listed : given "conditions" entries = .list items) (length : children.length = items.length)
      (each : ∀ (i : Nat) item child, items[i]? = some item → children[i]? = some child → Mirrors item child) :
      Mirrors (.mapping entries) (.group (.known combinator) children)
  | single {entries : Entries} {field : String} {operator : Operator}
      (other : isGroup entries = false) (named : given "field" entries = .text field)
      (spelled : given "operator" entries = .text operator.name) :
      Mirrors (.mapping entries)
        (.single field (.known operator) (tupled (given "value" entries)) (givenSecond entries))

theorem entry_shaped (name : String) (entries : Entries)
    (shaped : ∀ entry ∈ entries, JsonShaped entry.2) (v : Value)
    (found : Value.entry? name entries = some v) : JsonShaped v := by
  obtain ⟨entry, member, rfl⟩ := Value.entry_mem name entries v found
  exact shaped entry member

theorem given_shaped (name : String) (entries : Entries)
    (shaped : ∀ entry ∈ entries, JsonShaped entry.2) : JsonShaped (given name entries) := by
  unfold given
  cases found : Value.entry? name entries with
  | none => exact .null
  | some v => exact entry_shaped name entries shaped v found

theorem scalar_shaped_iff (v : Value) (shaped : JsonShaped v) (s : Value) :
    scalar? v = some s ↔ Scalar v ∧ s = v := by
  cases shaped <;> simp [scalar?, eq_comm]

theorem item_issues_nil_iff (place : List Crumb) (index : Nat) (items : List Value) :
    itemIssues place index items = [] ↔ ∀ item ∈ items, (scalar? item).isSome := by
  induction items generalizing index with
  | nil => simp [itemIssues]
  | cons item rest ih =>
    rw [itemIssues, List.append_eq_nil_iff, ih, List.forall_mem_cons]
    refine and_congr_left fun _ => ?_
    cases scalar? item <;> simp [scalarIssues]

theorem read_id_ok_iff (entries : Entries) (shaped : ∀ entry ∈ entries, JsonShaped entry.2) :
    readId entries = .ok () ↔ TextOrNull (given "id" entries) := by
  unfold readId given TextOrNull
  cases found : Value.entry? "id" entries with
  | none => simp
  | some v =>
    cases entry_shaped "id" entries shaped v found <;> simp [Value.text?, Checked.fail]

theorem read_field_ok_iff (entries : Entries) (shaped : ∀ entry ∈ entries, JsonShaped entry.2)
    (field : String) :
    readField entries = .ok field ↔ given "field" entries = .text field ∧ field ≠ "" := by
  unfold readField given
  cases found : Value.entry? "field" entries with
  | none => simp [Checked.fail]
  | some v =>
    cases entry_shaped "field" entries shaped v found with
    | text s =>
      simp only [Value.text?, Option.getD_some, Value.text.injEq]
      by_cases empty : s = ""
      · have isEmpty : s.isEmpty = true := String.isEmpty_iff.mpr empty
        simp only [isEmpty, if_true, Checked.fail, reduceCtorEq, false_iff]
        rintro ⟨same, nonempty⟩
        exact nonempty (same ▸ empty)
      · have notEmpty : s.isEmpty = false := by simpa using empty
        simp only [notEmpty, Except.ok.injEq, Bool.false_eq_true, if_false]
        exact ⟨fun same => ⟨same, same ▸ empty⟩, And.left⟩
    | _ => simp [Value.text?, Checked.fail]

theorem read_operator_ok_iff (entries : Entries) (shaped : ∀ entry ∈ entries, JsonShaped entry.2)
    (operator : Operator) :
    readOperator entries = .ok operator ↔ given "operator" entries = .text operator.name := by
  unfold readOperator given
  cases found : Value.entry? "operator" entries with
  | none => simp [Checked.fail]
  | some v =>
    cases entry_shaped "operator" entries shaped v found with
    | text s =>
      rw [Option.getD_some, Value.text.injEq, ← Operator.of_name_iff]
      cases named : Operator.ofName? s <;> simp [word?, named, Checked.fail]
    | _ => simp [word?, Checked.fail]

theorem scalars_read (items : List Value) (each : ∀ item ∈ items, Scalar item) :
    items.filterMap scalar? = items := by
  induction items with
  | nil => rfl
  | cons item rest ih =>
    have first : scalar? item = some item := by
      cases each item List.mem_cons_self <;> rfl
    rw [List.filterMap_cons_some first, ih fun later member => each later (List.mem_cons_of_mem _ member)]

theorem read_operand_ok_iff (entries : Entries) (shaped : ∀ entry ∈ entries, JsonShaped entry.2)
    (value : Value) :
    readOperand entries = .ok value ↔
      (ScalarOrNull (given "value" entries) ∨ ScalarList (given "value" entries)) ∧
        value = tupled (given "value" entries) := by
  unfold readOperand given
  cases found : Value.entry? "value" entries with
  | none => simp [ScalarOrNull, tupled, eq_comm]
  | some v =>
    cases entry_shaped "value" entries shaped v found with
    | list items each =>
      have scalars : itemIssues [.key "value", .key listName] 0 items = [] ↔
          ∀ item ∈ items, Scalar item := by
        rw [item_issues_nil_iff]
        refine forall₂_congr fun item member => ?_
        rw [Option.isSome_iff_exists]
        simp [scalar_shaped_iff item (each item member)]
      have noScalar : ¬ ScalarOrNull (.list items) := by simp [ScalarOrNull]
      simp only [scalar?, listItems?, Option.getD_some, ScalarList, Value.list.injEq, noScalar,
        false_or, exists_eq_left', tupled]
      rw [← scalars]
      split
      · rename_i none
        rw [scalars_read items (scalars.mp none)]
        simp [none, eq_comm]
      · rename_i issues nonempty
        exact iff_of_false nofun fun both => nonempty both.1
    | mapping fields named each => simp [scalar?, listItems?, ScalarOrNull, ScalarList]
    | _ => simp [scalar?, ScalarOrNull, tupled, eq_comm]

theorem first_present (entries : Entries) (first second : String) :
    ((firstPresent? entries [first, second]).map Prod.snd).getD .null =
      (Value.entry? first entries).getD (given second entries) := by
  unfold firstPresent? firstPresent? firstPresent? given
  cases Value.entry? first entries with
  | some v => rfl
  | none => cases Value.entry? second entries <;> rfl

theorem given_second_shaped (entries : Entries) (shaped : ∀ entry ∈ entries, JsonShaped entry.2) :
    JsonShaped (givenSecond entries) := by
  unfold givenSecond
  cases found : Value.entry? "secondValue" entries with
  | none => exact given_shaped "second_value" entries shaped
  | some v => exact entry_shaped "secondValue" entries shaped v found

theorem read_second_ok_iff (entries : Entries) (shaped : ∀ entry ∈ entries, JsonShaped entry.2)
    (second : Value) :
    readSecond entries = .ok second ↔
      ScalarOrNull (givenSecond entries) ∧ second = givenSecond entries := by
  have isShaped := given_second_shaped entries shaped
  have present := first_present entries "secondValue" "second_value"
  rw [← givenSecond] at present
  unfold readSecond
  cases found : firstPresent? entries ["secondValue", "second_value"] with
  | none =>
    rw [found] at present
    simp [← present, ScalarOrNull, eq_comm]
  | some entry =>
    obtain ⟨name, v⟩ := entry
    rw [found] at present
    obtain rfl : v = givenSecond entries := present
    generalize givenSecond entries = v at isShaped
    cases isShaped <;> simp [scalar?, ScalarOrNull, eq_comm]

theorem read_combinator_ok_iff (entries : Entries) (shaped : ∀ entry ∈ entries, JsonShaped entry.2)
    (combinator : Combinator) :
    readCombinator entries = .ok combinator ↔ ∃ s, given "logicalOperator" entries = .text s ∧
      Text.lower (Text.strip s) = combinator.name := by
  unfold readCombinator given
  cases found : Value.entry? "logicalOperator" entries with
  | none => simp [Checked.fail]
  | some v =>
    cases entry_shaped "logicalOperator" entries shaped v found with
    | text s =>
      simp only [Option.bind_some, combinatorOf?, Value.text?, Option.getD_some, Value.text.injEq,
        exists_eq_left', ← Combinator.of_name_iff]
      cases Combinator.ofName? (Text.lower (Text.strip s)) <;> simp [Checked.fail]
    | _ => simp [combinatorOf?, Value.text?, word?, Checked.fail]

theorem read_children_ok_iff (entries : Entries) (shaped : ∀ entry ∈ entries, JsonShaped entry.2)
    (items : List Value) :
    readChildren entries = .ok items ↔ given "conditions" entries = .list items := by
  unfold readChildren given
  cases found : Value.entry? "conditions" entries with
  | none => simp [Checked.fail]
  | some v =>
    cases entry_shaped "conditions" entries shaped v found <;> simp [listItems?, Checked.fail]

theorem operand_fault_none_iff (operator : Operator) (value second : Value) :
    operandFault? operator value second = none ↔
      (operator.takesNoValue = false → value ≠ .null ∧
        (operator = .between → second ≠ .null ∧ value.items? = none)) := by
  unfold operandFault?
  cases operator.takesNoValue with
  | true => simp
  | false =>
    by_cases between : operator = .between
    · cases value <;> cases second <;> simp [between, Value.items?]
    · cases value <;> simp [between]

theorem takes_no_value_iff (operator : Operator) :
    operator.takesNoValue = false ↔ operator ≠ .isEmpty ∧ operator ≠ .isNotEmpty := by
  cases operator <;> simp [Operator.takesNoValue]

theorem operands_iff (operator : Operator) (value second : Value) :
    Operands operator value second ↔
      ((ScalarOrNull value ∨ ScalarList value) ∧ ScalarOrNull second) ∧
        operandFault? operator (tupled value) second = none := by
  have samePresence : tupled value ≠ .null ↔ value ≠ .null := by cases value <;> simp [tupled]
  rw [operand_fault_none_iff, takes_no_value_iff, and_imp, samePresence]
  constructor
  · rintro ⟨first, other, required, bounds⟩
    refine ⟨⟨first, other⟩, fun notEmpty notFilled => ⟨required notEmpty notFilled, fun between => ?_⟩⟩
    obtain ⟨scalar, present⟩ := bounds between
    exact ⟨present, by cases scalar <;> rfl⟩
  · rintro ⟨⟨first, other⟩, fine⟩
    refine ⟨first, other, fun notEmpty notFilled => (fine notEmpty notFilled).1, ?_⟩
    rintro rfl
    obtain ⟨present, bounds⟩ := fine (by decide) (by decide)
    obtain ⟨secondPresent, notTuple⟩ := bounds rfl
    refine ⟨?_, secondPresent⟩
    rcases first with (null | scalar) | ⟨items, rfl, _⟩
    · exact absurd null present
    · exact scalar
    · cases notTuple

theorem read_single_in_grammar (entries : Entries) (shaped : ∀ entry ∈ entries, JsonShaped entry.2)
    (c : Condition) :
    readSingle entries = .ok c ↔ ∃ field operator, SingleOf entries field operator ∧
      c = .single field (.known operator) (tupled (given "value" entries)) (givenSecond entries) := by
  rw [read_single_ok_iff]
  constructor
  · rintro ⟨field, operator, value, second, identity, named, spelled, first, other, fine, rfl⟩
    obtain ⟨firstKind, rfl⟩ := (read_operand_ok_iff entries shaped _).mp first
    obtain ⟨otherKind, rfl⟩ := (read_second_ok_iff entries shaped _).mp other
    obtain ⟨fieldText, nonempty⟩ := (read_field_ok_iff entries shaped _).mp named
    exact ⟨field, operator, ⟨(read_id_ok_iff entries shaped).mp identity, fieldText, nonempty,
      (read_operator_ok_iff entries shaped _).mp spelled,
      (operands_iff _ _ _).mpr ⟨⟨firstKind, otherKind⟩, fine⟩⟩, rfl⟩
  · rintro ⟨field, operator, fields, rfl⟩
    obtain ⟨⟨firstKind, otherKind⟩, fine⟩ := (operands_iff _ _ _).mp fields.operands
    exact ⟨field, operator, _, _, (read_id_ok_iff entries shaped).mpr fields.identity,
      (read_field_ok_iff entries shaped _).mpr ⟨fields.named, fields.nonempty⟩,
      (read_operator_ok_iff entries shaped _).mpr fields.spelled,
      (read_operand_ok_iff entries shaped _).mpr ⟨firstKind, rfl⟩,
      (read_second_ok_iff entries shaped _).mpr ⟨otherKind, rfl⟩, fine, rfl⟩

theorem read_header_in_grammar (entries : Entries) (shaped : ∀ entry ∈ entries, JsonShaped entry.2)
    (combinator : Combinator) (items : List Value) :
    readHeader entries = .ok (combinator, items) ↔ TextOrNull (given "id" entries) ∧
      (∃ s, given "logicalOperator" entries = .text s ∧
        Text.lower (Text.strip s) = combinator.name) ∧
      given "conditions" entries = .list items := by
  rw [read_header_ok_iff, read_id_ok_iff entries shaped, read_combinator_ok_iff entries shaped,
    read_children_ok_iff entries shaped]

def Fits (limits : Limits) (room : Nat) (payload : Value) : Prop :=
  ∀ path node, Below payload path node → path.length < room ∧ ValidNode limits node

theorem fits_group_iff (limits : Limits) (room : Nat) (entries : Entries)
    (carries : isGroup entries = true) :
    Fits limits (room + 1) (.mapping entries) ↔ ∃ combinator items,
      GroupOf limits entries combinator items ∧ ∀ item ∈ items, Fits limits room item := by
  constructor
  · intro fits
    cases (fits [] _ (.here _)).2 with
    | single other fields => simp [carries] at other
    | @group _ combinator items _ header =>
      refine ⟨combinator, items, header, fun item member path node below => ?_⟩
      obtain ⟨i, found⟩ := List.mem_iff_getElem?.mp member
      obtain ⟨shallow, valid⟩ := fits (i :: path) node (.child carries header.listed found below)
      exact ⟨Nat.lt_of_succ_lt_succ shallow, valid⟩
  · rintro ⟨combinator, items, header, each⟩ path node below
    cases below with
    | here => exact ⟨Nat.succ_pos room, .group carries header⟩
    | child _ listed found deeper =>
      cases header.listed.symm.trans listed
      obtain ⟨shallow, valid⟩ := each _ (List.mem_of_getElem? found) _ _ deeper
      exact ⟨Nat.succ_lt_succ shallow, valid⟩

theorem fits_single_iff (limits : Limits) (room : Nat) (entries : Entries)
    (other : isGroup entries = false) :
    Fits limits (room + 1) (.mapping entries) ↔
      ∃ field operator, SingleOf entries field operator := by
  constructor
  · intro fits
    cases (fits [] _ (.here _)).2 with
    | group carries header => simp [other] at carries
    | single _ fields => exact ⟨_, _, fields⟩
  · rintro ⟨field, operator, fields⟩ path node below
    cases below with
    | here => exact ⟨Nat.succ_pos room, .single other fields⟩
    | child carries listed found deeper => simp [other] at carries

theorem read_each_total (read : List Nat → Value → Except Rejection Condition) (path : List Nat)
    (index : Nat) (items : List Value)
    (each : ∀ item ∈ items, ∀ path, ∃ c, read path item = .ok c) :
    ∃ cs, readEach read path index items = .ok cs := by
  induction items generalizing index with
  | nil => exact ⟨[], rfl⟩
  | cons item rest ih =>
    obtain ⟨c, first⟩ := each item List.mem_cons_self (path ++ [index])
    obtain ⟨more, later⟩ := ih (index + 1) fun next member => each next (List.mem_cons_of_mem _ member)
    exact ⟨c :: more, (read_each_cons_ok_iff read path index item rest _).mpr
      ⟨c, more, first, later, rfl⟩⟩

theorem read_each_related (read : List Nat → Value → Except Rejection Condition)
    (related : Value → Condition → Prop) (path : List Nat) (index : Nat) (items : List Value)
    (each : ∀ item ∈ items, ∀ path c, read path item = .ok c → related item c)
    (cs : List Condition) (found : readEach read path index items = .ok cs) :
    cs.length = items.length ∧
      ∀ (i : Nat) item c, items[i]? = some item → cs[i]? = some c → related item c := by
  induction items generalizing index cs with
  | nil =>
    cases found
    exact ⟨rfl, nofun⟩
  | cons item rest ih =>
    obtain ⟨c, more, first, later, rfl⟩ := (read_each_cons_ok_iff read path index item rest cs).mp found
    obtain ⟨length, related⟩ := ih (index + 1)
      (fun next member => each next (List.mem_cons_of_mem _ member)) more later
    refine ⟨congrArg (· + 1) length, fun i other child isItem isChild => ?_⟩
    cases i with
    | zero =>
      cases isItem
      cases isChild
      exact each item List.mem_cons_self _ c first
    | succ i => exact related i other child isItem isChild

theorem read_each_member (read : List Nat → Value → Except Rejection Condition) (path : List Nat)
    (index : Nat) (items : List Value) (cs : List Condition)
    (found : readEach read path index items = .ok cs) (c : Condition) (member : c ∈ cs) :
    ∃ item ∈ items, ∃ place, read place item = .ok c := by
  induction items generalizing index cs with
  | nil =>
    cases found
    cases member
  | cons item rest ih =>
    obtain ⟨first, more, atHead, later, rfl⟩ :=
      (read_each_cons_ok_iff read path index item rest cs).mp found
    rcases List.mem_cons.mp member with rfl | member
    · exact ⟨item, List.mem_cons_self, path ++ [index], atHead⟩
    · obtain ⟨other, inside, read⟩ := ih (index + 1) more later member
      exact ⟨other, List.mem_cons_of_mem item inside, read⟩

theorem listed_shaped (entries : Entries) (shaped : ∀ entry ∈ entries, JsonShaped entry.2)
    (items : List Value) (listed : given "conditions" entries = .list items) :
    ∀ item ∈ items, JsonShaped item := by
  have list := given_shaped "conditions" entries shaped
  rw [listed] at list
  cases list
  assumption

theorem keyed_shaped (payload : Value) (shaped : JsonShaped payload) (entries : Entries)
    (keyed : payload.entries? = some entries) :
    payload = .mapping entries ∧ ∀ entry ∈ entries, JsonShaped entry.2 := by
  cases shaped with
  | mapping entries named each =>
    cases keyed
    exact ⟨rfl, each⟩
  | _ => cases keyed

-- Both directions are by induction on the levels that are left: a group passes one level less to
-- its children.
theorem read_node_sound (limits : Limits) (room : Nat) (path : List Nat) (payload : Value)
    (shaped : JsonShaped payload) (c : Condition)
    (read : readNode limits room path payload = .ok c) :
    Fits limits room payload ∧ Mirrors payload c := by
  induction room generalizing path payload c with
  | zero => cases read
  | succ room ih =>
    obtain ⟨_, entries, _, keyed⟩ := read_node_ok_mapping limits _ path payload c read
    obtain ⟨rfl, each⟩ := keyed_shaped payload shaped entries keyed
    cases carries : isGroup entries with
    | false =>
      have single := (read_node_single_ok_iff limits room path rfl carries c).mp read
      obtain ⟨field, operator, fields, rfl⟩ := (read_single_in_grammar entries each c).mp single
      exact ⟨(fits_single_iff limits room entries carries).mpr ⟨field, operator, fields⟩,
        .single carries fields.named fields.spelled⟩
    | true =>
      obtain ⟨combinator, items, children, header, narrow, found, rfl⟩ :=
        (read_node_group_ok_iff limits room path rfl carries c).mp read
      obtain ⟨identity, ⟨s, spelled, same⟩, listed⟩ := (read_header_in_grammar entries each _ _).mp header
      have itemsShaped := listed_shaped entries each items listed
      obtain ⟨length, both⟩ := read_each_related _
        (fun item c => Fits limits room item ∧ Mirrors item c) path 0 items
        (fun item member path c read => ih path item (itemsShaped item member) c read)
        children found
      refine ⟨(fits_group_iff limits room entries carries).mpr ⟨combinator, items,
        ⟨identity, ⟨s, spelled, same⟩, listed, narrow⟩, fun item member => ?_⟩,
        .group carries spelled same listed length fun i item child isItem isChild =>
          (both i item child isItem isChild).2⟩
      obtain ⟨i, bound, isItem⟩ := List.mem_iff_getElem.mp member
      have inside : i < children.length := length ▸ bound
      exact (both i item children[i] (by simp [bound, isItem]) (by simp [inside])).1

theorem read_node_complete (limits : Limits) (room : Nat) (path : List Nat) (payload : Value)
    (shaped : JsonShaped payload) (fits : Fits limits room payload) :
    ∃ c, readNode limits room path payload = .ok c := by
  induction room generalizing path payload with
  | zero => exact absurd (fits [] payload (.here payload)).1 (Nat.not_lt_zero _)
  | succ room ih =>
    cases shaped with
    | mapping entries named each =>
      cases carries : isGroup entries with
      | false =>
        obtain ⟨field, operator, fields⟩ := (fits_single_iff limits room entries carries).mp fits
        have single := (read_single_in_grammar entries each _).mpr ⟨field, operator, fields, rfl⟩
        exact ⟨_, (read_node_single_ok_iff limits room path rfl carries _).mpr single⟩
      | true =>
        obtain ⟨combinator, items, fields, below⟩ := (fits_group_iff limits room entries carries).mp fits
        have header := (read_header_in_grammar entries each combinator items).mpr
          ⟨fields.identity, fields.spelled, fields.listed⟩
        have itemsShaped := listed_shaped entries each items fields.listed
        obtain ⟨children, found⟩ := read_each_total (readNode limits room) path 0 items
          fun item member path => ih path item (itemsShaped item member) (below item member)
        exact ⟨_, (read_node_group_ok_iff limits room path rfl carries _).mpr
          ⟨combinator, items, children, header, fields.width, found, rfl⟩⟩
    | _ => cases (fits [] _ (.here _)).2

theorem read_accepts_grammar (limits : Limits) (payload : Value) (stack : Nat)
    (shaped : JsonShaped payload) (noText : ∀ s, payload ≠ .text s) :
    ((∃ c, read limits payload stack = .ok c) ↔ payload = .null ∨ ∀ path node, Below payload path node →
      path.length + 1 ≤ limits.maxDepth ∧ ValidNode limits node) ∧
    ∀ c, read limits payload stack = .ok c → (payload = .null ∧ c = none) ∨
      ∃ tree, c = some tree ∧ Mirrors payload tree := by
  have direct : read limits payload stack = readTree limits payload := by
    cases shaped with
    | text s => exact absurd rfl (noText s)
    | _ => rfl
  have fits : Fits limits limits.maxDepth.toNat payload ↔ ∀ path node, Below payload path node →
      path.length + 1 ≤ limits.maxDepth ∧ ValidNode limits node := by
    refine forall₂_congr fun path node => imp_congr_right fun _ => and_congr_left fun _ => ?_
    omega
  rw [direct, ← fits]
  refine ⟨⟨?_, ?_⟩, ?_⟩
  · rintro ⟨c, read⟩
    rcases (read_tree_ok_iff limits payload c).mp read with ⟨null, _⟩ | ⟨tree, _, found⟩
    · exact .inl null
    · exact .inr (read_node_sound limits _ [] payload shaped tree found).1
  · rintro (null | inside)
    · exact ⟨none, (read_tree_ok_iff limits payload none).mpr (.inl ⟨null, rfl⟩)⟩
    · obtain ⟨tree, found⟩ := read_node_complete limits _ [] payload shaped inside
      exact ⟨some tree, (read_tree_ok_iff limits payload _).mpr (.inr ⟨tree, rfl, found⟩)⟩
  · intro c read
    refine ((read_tree_ok_iff limits payload c).mp read).imp_right ?_
    rintro ⟨tree, rfl, found⟩
    exact ⟨tree, rfl, (read_node_sound limits _ [] payload shaped tree found).2⟩

theorem nested_leaf_needs_two_levels :
    let leaf : Value := .mapping [(.text "field", .text "phone"), (.text "operator", .text "isEmpty")]
    let payload : Value := .mapping
      [(.text "logicalOperator", .text " AND"), (.text "conditions", .list [leaf])]
    (∃ tree, read ⟨2, 1⟩ payload = .ok (some tree) ∧ Mirrors payload tree) ∧
      ¬ ∃ c, read ⟨1, 1⟩ payload = .ok c := by
  intro leaf payload
  have leafShaped : JsonShaped leaf := .mapping _ (by simp) (by simp [JsonShaped.text])
  have shaped : JsonShaped payload :=
    .mapping _ (by simp) (by simpa [JsonShaped.text] using .list [leaf] (by simpa using leafShaped))
  have noText : ∀ s, payload ≠ .text s := nofun
  have found : read ⟨2, 1⟩ payload = .ok (some (both [.single "phone" (.known .isEmpty) .null .null])) :=
    rfl
  constructor
  · rcases (read_accepts_grammar ⟨2, 1⟩ payload _ shaped noText).2 _ found with ⟨null, _⟩ | ⟨tree, same, mirrors⟩
    · exact absurd null nofun
    · exact ⟨tree, same ▸ found, mirrors⟩
  · intro read
    rcases (read_accepts_grammar ⟨1, 1⟩ payload _ shaped noText).1.mp read with null | inside
    · exact absurd null nofun
    · have deep := (inside [0] leaf (.child rfl rfl rfl (.here leaf))).1
      simp at deep

end Condition

end TagRules
