import TagRules.Proofs.Condition.Grammar

set_option autoImplicit false

namespace TagRules.Condition

structure HeaderOf (entries : Entries) (combinator : Combinator) (items : List Value) : Prop where
  identity : TextOrNull (given "id" entries)
  spelled : ∃ s, given "logicalOperator" entries = .text s ∧
    Text.lower (Text.strip s) = combinator.name
  listed : given "conditions" entries = .list items

-- The message about a node on a level: it is that of the first check that fails.
inductive FirstDefect (limits : Limits) (level : Nat) : Value → String → Prop
  | tooDeep (node : Value) (deep : limits.maxDepth < level) : FirstDefect limits level node
      ("Condition nesting exceeds " ++ toString limits.maxDepth ++ " levels")
  | notAnObject {node : Value} (allowed : level ≤ limits.maxDepth)
      (other : ∀ entries, node ≠ .mapping entries) :
      FirstDefect limits level node "Condition must be an object"
  | single {entries : Entries} (allowed : level ≤ limits.maxDepth)
      (other : isGroup entries = false)
      (unfit : ∀ field operator, ¬ SingleOf entries field operator) :
      FirstDefect limits level (.mapping entries) "Invalid condition"
  | header {entries : Entries} (allowed : level ≤ limits.maxDepth)
      (carries : isGroup entries = true)
      (unfit : ∀ combinator items, ¬ HeaderOf entries combinator items) :
      FirstDefect limits level (.mapping entries) "Invalid condition group"
  | tooWide {entries : Entries} {combinator : Combinator} {items : List Value}
      (allowed : level ≤ limits.maxDepth) (carries : isGroup entries = true)
      (valid : HeaderOf entries combinator items) (wide : limits.maxWidth < items.length) :
      FirstDefect limits level (.mapping entries)
        ("Condition group exceeds " ++ toString limits.maxWidth ++ " entries")

theorem read_header_valid (entries : Entries) (shaped : ∀ entry ∈ entries, JsonShaped entry.2)
    (combinator : Combinator) (items : List Value) :
    readHeader entries = .ok (combinator, items) ↔ HeaderOf entries combinator items := by
  rw [read_header_in_grammar entries shaped]
  exact ⟨fun ⟨identity, spelled, listed⟩ => ⟨identity, spelled, listed⟩,
    fun valid => ⟨valid.identity, valid.spelled, valid.listed⟩⟩

theorem read_each_error (read : List Nat → Value → Except Rejection Condition) (path : List Nat)
    (index : Nat) (items : List Value) (why : Rejection)
    (failed : readEach read path index items = .error why) :
    ∃ i item, items[i]? = some item ∧ read (path ++ [index + i]) item = .error why ∧
      ∀ j earlier, j < i → items[j]? = some earlier →
        ∃ c, read (path ++ [index + j]) earlier = .ok c := by
  induction items generalizing index with
  | nil => cases failed
  | cons item rest ih =>
    rw [readEach.eq_2] at failed
    cases first : read (path ++ [index]) item with
    | error e =>
      rw [first] at failed
      cases failed
      exact ⟨0, item, rfl, first, fun j _ sooner => absurd sooner (Nat.not_lt_zero j)⟩
    | ok c =>
      have later : readEach read path (index + 1) rest = .error why := by
        cases more : readEach read path (index + 1) rest with
        | error e => simpa [first, more, Except.map] using failed
        | ok cs => simp [first, more, Except.map] at failed
      obtain ⟨i, other, found, refused, before⟩ := ih (index + 1) later
      refine ⟨i + 1, other, found, ?_, ?_⟩
      · rw [← refused, Nat.add_assoc, Nat.add_comm 1 i]
      · intro j earlier sooner isEarlier
        cases j with
        | zero =>
          cases isEarlier
          exact ⟨c, first⟩
        | succ j =>
          have read := before j earlier (Nat.lt_of_succ_lt_succ sooner) isEarlier
          rwa [Nat.add_assoc, Nat.add_comm 1 j] at read

-- All nodes that come before a path in document order are fine.
def FineBefore (limits : Limits) (room : Nat) (payload : Value) (path : List Nat) : Prop :=
  ∀ earlier node, earlier < path → Below payload earlier node →
    earlier.length < room ∧ ValidNode limits node

theorem fine_before_root (limits : Limits) (room : Nat) (payload : Value) :
    FineBefore limits room payload [] :=
  fun earlier _ before _ => absurd before (List.not_lt_nil earlier)

theorem fine_before_inside (limits : Limits) (room : Nat) (entries : Entries)
    (combinator : Combinator) (items : List Value) (carries : isGroup entries = true)
    (header : GroupOf limits entries combinator items) (i : Nat) (item : Value)
    (found : items[i]? = some item) (path : List Nat)
    (sooner : ∀ j other, j < i → items[j]? = some other → Fits limits room other)
    (within : FineBefore limits room item path) :
    FineBefore limits (room + 1) (.mapping entries) (i :: path) := by
  intro earlier node before below
  cases below with
  | here => exact ⟨Nat.succ_pos room, .group carries header⟩
  | @child _ others j other _ deeper _ listed isOther below =>
    cases header.listed.symm.trans listed
    have fine : deeper.length < room ∧ ValidNode limits node := by
      rcases List.cons_lt_cons_iff.mp before with less | ⟨rfl, inside⟩
      · exact sooner j other less isOther deeper node below
      · cases found.symm.trans isOther
        exact within deeper node inside below
    exact ⟨Nat.succ_lt_succ fine.1, fine.2⟩

theorem read_node_single_error (limits : Limits) (room : Nat) (path : List Nat) (entries : Entries)
    (other : isGroup entries = false) (why : Rejection)
    (failed : readNode limits (room + 1) path (.mapping entries) = .error why) :
    ∃ issues, readSingle entries = .error issues ∧ why = .node path (.badSingle issues) := by
  rw [readNode.eq_2] at failed
  simp only [Value.entries?, other, Bool.false_eq_true, if_false] at failed
  cases read : readSingle entries with
  | ok c => simp [read] at failed
  | error issues => exact ⟨issues, rfl, by simpa [read] using failed.symm⟩

theorem read_node_group_error (limits : Limits) (room : Nat) (path : List Nat) (entries : Entries)
    (carries : isGroup entries = true) (why : Rejection)
    (failed : readNode limits (room + 1) path (.mapping entries) = .error why) :
    (∃ issues, readHeader entries = .error issues ∧ why = .node path (.badGroup issues)) ∨
      ∃ combinator items, readHeader entries = .ok (combinator, items) ∧
        ((limits.maxWidth < items.length ∧ why = .node path (.tooWide limits.maxWidth)) ∨
          (items.length ≤ limits.maxWidth ∧
            readEach (readNode limits room) path 0 items = .error why)) := by
  rw [readNode.eq_2] at failed
  simp only [Value.entries?, carries, if_true] at failed
  cases header : readHeader entries with
  | error issues => exact .inl ⟨issues, rfl, by simpa [header] using failed.symm⟩
  | ok found =>
    obtain ⟨combinator, items⟩ := found
    refine .inr ⟨combinator, items, rfl, ?_⟩
    by_cases wide : limits.maxWidth < items.length
    · exact .inl ⟨wide, by simpa [header, wide] using failed.symm⟩
    · refine .inr ⟨Int.not_lt.mp wide, ?_⟩
      cases children : readEach (readNode limits room) path 0 items with
      | error e => simpa [header, wide, children, Except.map] using failed
      | ok cs => simp [header, wide, children, Except.map] at failed

def LeadsToDefect (limits : Limits) (room : Nat) (path : List Nat) (payload : Value)
    (why : Rejection) : Prop :=
  ∃ route node fault, why = .node (path ++ route) fault ∧ Below payload route node ∧
    FineBefore limits room payload route ∧
    FirstDefect limits ((path ++ route).length + 1) node why.message

theorem leads_to_own_defect (limits : Limits) (room : Nat) (path : List Nat) (payload : Value)
    (fault : NodeFault) (defect : FirstDefect limits (path.length + 1) payload
      (Rejection.node path fault).message) :
    LeadsToDefect limits room path payload (.node path fault) := by
  refine ⟨[], payload, fault, ?_, .here payload, fine_before_root limits room payload, ?_⟩
  · rw [List.append_nil]
  · rw [List.append_nil]
    exact defect

theorem leads_to_defect_inside (limits : Limits) (room : Nat) (path : List Nat) (entries : Entries)
    (combinator : Combinator) (items : List Value) (carries : isGroup entries = true)
    (header : GroupOf limits entries combinator items) (i : Nat) (item : Value)
    (found : items[i]? = some item)
    (sooner : ∀ j other, j < i → items[j]? = some other → Fits limits room other)
    (why : Rejection) (inside : LeadsToDefect limits room (path ++ [i]) item why) :
    LeadsToDefect limits (room + 1) path (.mapping entries) why := by
  obtain ⟨route, node, fault, place, below, fine, defect⟩ := inside
  have onward : path ++ [i] ++ route = path ++ i :: route := by simp
  rw [onward] at place defect
  exact ⟨i :: route, node, fault, place, .child carries header.listed found below,
    fine_before_inside limits room entries combinator items carries header i item found route sooner
      fine, defect⟩

-- By induction on the levels that are left. The checks of a node come before its entries are read.
theorem read_node_leads (limits : Limits) (room : Nat) (path : List Nat) (payload : Value)
    (shaped : JsonShaped payload) (levels : path.length + room = limits.maxDepth.toNat)
    (why : Rejection) (failed : readNode limits room path payload = .error why) :
    LeadsToDefect limits room path payload why := by
  induction room generalizing path payload with
  | zero =>
    cases failed
    exact leads_to_own_defect limits 0 path payload _ (.tooDeep payload (by omega))
  | succ room ih =>
    have allowed : ((path.length + 1 : Nat) : Int) ≤ limits.maxDepth := by omega
    cases shaped with
    | mapping entries named each =>
      cases carries : isGroup entries with
      | false =>
        obtain ⟨issues, read, rfl⟩ :=
          read_node_single_error limits room path entries carries why failed
        apply leads_to_own_defect limits (room + 1) path
        refine .single allowed carries fun field operator fields => ?_
        have fine := (read_single_in_grammar entries each _).mpr ⟨field, operator, fields, rfl⟩
        rw [read] at fine
        cases fine
      | true =>
        rcases read_node_group_error limits room path entries carries why failed with
          ⟨issues, header, rfl⟩ | ⟨combinator, items, header, ⟨wide, rfl⟩ | ⟨narrow, children⟩⟩
        · apply leads_to_own_defect limits (room + 1) path
          refine .header allowed carries fun combinator items valid => ?_
          have fine := (read_header_valid entries each combinator items).mpr valid
          rw [header] at fine
          cases fine
        · have valid := (read_header_valid entries each combinator items).mp header
          exact leads_to_own_defect limits (room + 1) path _ _ (.tooWide allowed carries valid wide)
        · have valid := (read_header_valid entries each combinator items).mp header
          have itemsShaped := listed_shaped entries each items valid.listed
          obtain ⟨i, item, found, refused, sooner⟩ := read_each_error _ path 0 items why children
          rw [Nat.zero_add] at refused
          have deeper : (path ++ [i]).length + room = limits.maxDepth.toNat := by
            rw [List.length_append, List.length_singleton]
            omega
          refine leads_to_defect_inside limits room path entries combinator items carries
            ⟨valid.identity, valid.spelled, valid.listed, narrow⟩ i item found ?_ why
            (ih (path ++ [i]) item (itemsShaped item (List.mem_of_getElem? found)) deeper refused)
          intro j other less isOther
          obtain ⟨c, read⟩ := sooner j other less isOther
          exact (read_node_sound limits room _ other
            (itemsShaped other (List.mem_of_getElem? isOther)) c read).1
    | _ =>
      cases failed
      exact leads_to_own_defect limits (room + 1) path _ _ (.notAnObject allowed nofun)

theorem below_through (payload node : Value) (above : List Nat) (i : Nat) (rest : List Nat)
    (below : Below payload (above ++ i :: rest) node) :
    ∃ entries, Below payload above (.mapping entries) ∧ isGroup entries = true := by
  induction above generalizing payload with
  | nil =>
    cases below with
    | @child entries items _ item _ _ carries listed found deeper => exact ⟨entries, .here _, carries⟩
  | cons j above ih =>
    cases below with
    | child carries listed found deeper =>
      obtain ⟨entries, reached, group⟩ := ih _ deeper
      exact ⟨entries, .child carries listed found reached, group⟩

theorem above_before (above : List Nat) (i : Nat) (rest : List Nat) :
    above < above ++ i :: rest := by
  induction above with
  | nil => exact List.nil_lt_cons i rest
  | cons j above ih => exact List.cons_lt_cons_iff.mpr (.inr ⟨rfl, ih⟩)

theorem path_text_segments (path : List Nat) :
    Rejection.pathText path =
      "$" ++ String.join (path.map fun i => ".conditions[" ++ toString i ++ "]") := by
  have onto : ∀ start : String,
      path.foldl (fun s i => s ++ ".conditions[" ++ toString i ++ "]") start =
        start ++ String.join (path.map fun i => ".conditions[" ++ toString i ++ "]") := by
    induction path with
    | nil => simp
    | cons i rest ih =>
      intro start
      rw [List.foldl_cons, ih, List.map_cons, String.join_cons]
      simp only [String.append_assoc]
  exact onto "$"

theorem rejection_names_first_defect (limits : Limits) (payload : Value) (stack : Nat)
    (shaped : JsonShaped payload) (noText : ∀ s, payload ≠ .text s) (fault : Fault)
    (rejected : read limits payload stack = .error fault) :
    ∃ path node message details,
      fault.response? = some ⟨Response.conditionCode, message, .mapping details⟩ ∧
      Value.entry? "path" details = some
        (.text ("$" ++ String.join (path.map fun i => ".conditions[" ++ toString i ++ "]"))) ∧
      Below payload path node ∧
      (∀ above i rest, path = above ++ i :: rest → ∃ entries combinator items,
        Below payload above (.mapping entries) ∧ isGroup entries = true ∧
          GroupOf limits entries combinator items) ∧
      (∀ earlier other, earlier < path → Below payload earlier other →
        earlier.length + 1 ≤ limits.maxDepth ∧ ValidNode limits other) ∧
      FirstDefect limits (path.length + 1) node message := by
  have direct : read limits payload stack = readTree limits payload := by
    cases shaped with
    | text s => exact absurd rfl (noText s)
    | _ => rfl
  obtain ⟨why, failed, rfl⟩ : ∃ why,
      readNode limits limits.maxDepth.toNat [] payload = .error why ∧ fault = .rejected why := by
    rw [direct] at rejected
    unfold readTree at rejected
    split at rejected
    · cases rejected
    · split at rejected
      · rename_i why failed
        cases rejected
        exact ⟨why, failed, rfl⟩
      · cases rejected
  obtain ⟨path, node, fault, rfl, below, fine, defect⟩ :=
    read_node_leads limits limits.maxDepth.toNat [] payload shaped (by simp) why failed
  rw [List.nil_append] at defect
  refine ⟨path, node, _, _, rfl, ?_, below, ?_, ?_, defect⟩
  · rw [← path_text_segments]
    rfl
  · rintro above i rest rfl
    obtain ⟨entries, reached, carries⟩ := below_through payload node above i rest below
    cases (fine above _ (above_before above i rest) reached).2 with
    | group _ header => exact ⟨entries, _, _, reached, carries, header⟩
    | single other fields => simp [carries] at other
  · intro earlier other before reached
    obtain ⟨shallow, valid⟩ := fine earlier other before reached
    exact ⟨by omega, valid⟩

theorem first_of_three_defects_is_named :
    let fine : Value := .mapping [(.text "field", .text "phone"), (.text "operator", .text "isEmpty")]
    let nameless : Value := .mapping [(.text "field", .text ""), (.text "operator", .text "isEmpty")]
    let group (items : List Value) : Value := .mapping
      [(.text "logicalOperator", .text "or"), (.text "conditions", .list items)]
    let payload := group [fine, group [nameless, nameless], .int 5]
    ∃ path node, Below payload path node ∧ FirstDefect ⟨3, 3⟩ (path.length + 1) node "Invalid condition" ∧
      "$" ++ String.join (path.map fun i => ".conditions[" ++ toString i ++ "]") =
        "$.conditions[1].conditions[0]" := by
  intro fine nameless group payload
  have fineShaped : JsonShaped fine := .mapping _ (by simp) (by simp [JsonShaped.text])
  have namelessShaped : JsonShaped nameless := .mapping _ (by simp) (by simp [JsonShaped.text])
  have groupShaped : ∀ items, (∀ item ∈ items, JsonShaped item) → JsonShaped (group items) :=
    fun items each => .mapping _ (by simp) (by simpa [JsonShaped.text] using .list items each)
  have shaped : JsonShaped payload := groupShaped _ (by
    simpa [fineShaped, JsonShaped.int] using groupShaped _ (by simpa using namelessShaped))
  have refused : read ⟨3, 3⟩ payload =
      .error (.rejected (.node [1, 0] (.badSingle [⟨[.key "field"], .tooShort⟩]))) := rfl
  obtain ⟨path, node, message, details, shown, place, below, _, _, defect⟩ :=
    rejection_names_first_defect ⟨3, 3⟩ payload _ shaped nofun _ refused
  cases shown
  exact ⟨path, node, below, defect, (Value.text.inj (Option.some.inj place)).symm⟩

end TagRules.Condition
