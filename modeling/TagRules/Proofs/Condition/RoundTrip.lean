import TagRules.Condition.Write
import TagRules.Proofs.Condition.Boundary
import TagRules.Proofs.Condition.Grammar

set_option autoImplicit false

namespace TagRules.Condition

def ScalarTuple (v : Value) : Prop := ∃ items, v = .tuple items ∧ ∀ item ∈ items, Scalar item

inductive Readable (limits : Limits) : Nat → Condition → Prop
  | single {room : Nat} {field : String} {operator : Operator} {value second : Value}
      (nonempty : field ≠ "") (first : ScalarOrNull value ∨ ScalarTuple value)
      (other : ScalarOrNull second) (fine : operandFault? operator value second = none) :
      Readable limits (room + 1) (.single field (.known operator) value second)
  | group {room : Nat} {combinator : Combinator} {children : List Condition}
      (narrow : children.length ≤ limits.maxWidth)
      (each : ∀ child ∈ children, Readable limits room child) :
      Readable limits (room + 1) (.group (.known combinator) children)

theorem readable_mono (small large : Limits) (few many : Nat) (c : Condition)
    (width : small.maxWidth ≤ large.maxWidth) (depth : few ≤ many) (readable : Readable small few c) :
    Readable large many c := by
  induction readable generalizing many with
  | single nonempty first other fine =>
    cases many with
    | zero => exact absurd depth (Nat.not_succ_le_zero _)
    | succ many => exact .single nonempty first other fine
  | group narrow each ih =>
    cases many with
    | zero => exact absurd depth (Nat.not_succ_le_zero _)
    | succ many =>
      exact .group (Int.le_trans narrow width) fun child member =>
        ih child member many (Nat.le_of_succ_le_succ depth)

theorem scalar_is_scalar (v s : Value) (found : scalar? v = some s) : Scalar s := by
  cases v with
  | bool b => cases found; exact .bool b
  | int n => cases found; exact .int n
  | float x => cases found; exact .float x
  | text t => cases found; exact .text t
  | textMember t => cases found; exact .text t
  | decimal x =>
    obtain ⟨rounded, _, rfl⟩ := Option.map_eq_some_iff.mp found
    exact .float rounded
  | _ => cases found

theorem read_field_nonempty (entries : Entries) (field : String)
    (read : readField entries = .ok field) : field ≠ "" := by
  unfold readField at read
  split at read
  · cases read
  · split at read
    · cases read
    · split at read
      · cases read
      · rename_i notEmpty
        cases read
        simpa using notEmpty

theorem read_operand_kind (entries : Entries) (value : Value)
    (read : readOperand entries = .ok value) : ScalarOrNull value ∨ ScalarTuple value := by
  unfold readOperand at read
  split at read
  · cases read
    exact .inl (.inl rfl)
  · cases read
    exact .inl (.inl rfl)
  · split at read
    · rename_i s found
      cases read
      exact .inl (.inr (scalar_is_scalar _ _ found))
    · dsimp only at read
      split at read
      · cases read
      · rename_i items _
        split at read
        · cases read
          refine .inr ⟨_, rfl, fun item member => ?_⟩
          obtain ⟨source, _, found⟩ := List.mem_filterMap.mp member
          exact scalar_is_scalar source item found
        · cases read

theorem read_second_kind (entries : Entries) (second : Value)
    (read : readSecond entries = .ok second) : ScalarOrNull second := by
  unfold readSecond at read
  split at read
  · cases read
    exact .inl rfl
  · cases read
    exact .inl rfl
  · split at read
    · rename_i s found
      cases read
      exact .inr (scalar_is_scalar _ _ found)
    · cases read

theorem read_node_readable (limits : Limits) (room : Nat) (path : List Nat) (payload : Value)
    (c : Condition) (read : readNode limits room path payload = .ok c) : Readable limits room c := by
  induction room generalizing path payload c with
  | zero => cases read
  | succ room ih =>
    obtain ⟨_, entries, _, keyed⟩ := read_node_ok_mapping limits _ path payload c read
    cases carries : isGroup entries with
    | false =>
      have single := (read_node_single_ok_iff limits room path keyed carries c).mp read
      obtain ⟨field, operator, value, second, _, named, _, first, other, fine, rfl⟩ :=
        (read_single_ok_iff entries c).mp single
      exact .single (read_field_nonempty entries field named) (read_operand_kind entries value first)
        (read_second_kind entries second other) fine
    | true =>
      obtain ⟨combinator, items, children, _, narrow, found, rfl⟩ :=
        (read_node_group_ok_iff limits room path keyed carries c).mp read
      obtain ⟨length, each⟩ := read_each_related (readNode limits room)
        (fun _ => Readable limits room) path 0 items (fun item _ path c read => ih path item c read)
        children found
      refine .group (length ▸ narrow) fun child member => ?_
      obtain ⟨i, bound, isChild⟩ := List.mem_iff_getElem.mp member
      have inside : i < items.length := length ▸ bound
      exact each i items[i] child (by simp [inside]) (by simp [bound, isChild])

theorem scalar_shaped (v : Value) (scalar : Scalar v) : JsonShaped v := by
  cases scalar with
  | bool b => exact .bool b
  | int n => exact .int n
  | float x => exact .float x
  | text s => exact .text s

theorem mem_stored_all (children : List Condition) (item : Value) :
    item ∈ toStoredAll children ↔ ∃ child ∈ children, item = child.toStored := by
  induction children with
  | nil => simp [toStoredAll]
  | cons child rest ih => simp [toStoredAll, ih]

theorem length_stored_all (children : List Condition) :
    (toStoredAll children).length = children.length := by
  induction children with
  | nil => rfl
  | cons child rest ih => simp [toStoredAll, ih]

theorem mem_operand_entry (name : String) (v : Value) (entry : Value × Value) :
    entry ∈ operandEntry name v ↔ v ≠ .null ∧ entry = (.text name, v) := by
  cases v <;> simp [operandEntry]

theorem entry_past_operand (name other : String) (v : Value) (rest : Entries)
    (different : other ≠ name) :
    Value.entry? name (operandEntry other v ++ rest) = Value.entry? name rest := by
  cases v <;> simp [operandEntry, Value.entry?, Value.text?, different]

theorem entry_of_operand (name : String) (v : Value) (rest : Entries)
    (absent : Value.entry? name rest = none) :
    (Value.entry? name (operandEntry name v ++ rest)).getD .null = v := by
  cases v <;> simp [operandEntry, Value.entry?, Value.text?, absent]

def storedFields (field : String) (operator : Operator) (value second : Value) : Entries :=
  [(.text "field", .text field), (.text "operator", .text operator.name)] ++
    operandEntry "value" (storedOperand value) ++ operandEntry "secondValue" second

theorem stored_fields_given (field : String) (operator : Operator) (value second : Value) :
    let entries := storedFields field operator value second
    isGroup entries = false ∧ given "id" entries = .null ∧ given "field" entries = .text field ∧
      given "operator" entries = .text operator.name ∧
      given "value" entries = storedOperand value ∧ givenSecond entries = second := by
  intro entries
  let operands := operandEntry "value" (storedOperand value) ++ (operandEntry "secondValue" second ++ [])
  have reach : ∀ name, "field" ≠ name → "operator" ≠ name →
      Value.entry? name entries = Value.entry? name operands := by
    intro name notField notOperator
    simp [entries, operands, storedFields, Value.entry?, Value.text?, notField, notOperator]
  -- Only the two keys of the operands can be found past the first two entries.
  have absent : ∀ name, "field" ≠ name → "operator" ≠ name → "value" ≠ name → "secondValue" ≠ name →
      Value.entry? name entries = none := by
    intro name notField notOperator notValue notSecond
    rw [reach name notField notOperator, entry_past_operand _ _ _ _ notValue,
      entry_past_operand _ _ _ _ notSecond]
    rfl
  refine ⟨?_, ?_, rfl, rfl, ?_, ?_⟩
  · rw [isGroup, absent "conditions" (by decide) (by decide) (by decide) (by decide)]
    exact Bool.and_false _
  · rw [given, absent "id" (by decide) (by decide) (by decide) (by decide)]
    rfl
  · rw [given, reach "value" (by decide) (by decide)]
    exact entry_of_operand _ _ _ (entry_past_operand _ _ _ _ (by decide))
  · rw [givenSecond, given, absent "second_value" (by decide) (by decide) (by decide) (by decide),
      reach "secondValue" (by decide) (by decide), entry_past_operand _ _ _ _ (by decide)]
    exact entry_of_operand _ _ _ rfl

theorem stored_operand_shaped (value : Value) (kind : ScalarOrNull value ∨ ScalarTuple value) :
    JsonShaped (storedOperand value) := by
  rcases kind with (rfl | scalar) | ⟨items, rfl, each⟩
  · exact .null
  · cases scalar <;> exact scalar_shaped _ (by constructor)
  · exact .list items fun item member => scalar_shaped item (each item member)

theorem stored_shaped (limits : Limits) (room : Nat) (c : Condition)
    (readable : Readable limits room c) : JsonShaped c.toStored := by
  induction readable with
  | @single room field operator value second nonempty first other fine =>
    have firstShaped := stored_operand_shaped value first
    have otherShaped : JsonShaped second := other.elim (fun null => null ▸ .null) (scalar_shaped second)
    refine .mapping (storedFields field operator value second) ?_ ?_
    · intro entry member
      simp only [storedFields, List.mem_append, List.mem_cons, List.not_mem_nil, or_false,
        mem_operand_entry] at member
      rcases member with ((rfl | rfl) | ⟨_, rfl⟩) | ⟨_, rfl⟩ <;> exact ⟨_, rfl⟩
    · intro entry member
      simp only [storedFields, List.mem_append, List.mem_cons, List.not_mem_nil, or_false,
        mem_operand_entry] at member
      rcases member with ((rfl | rfl) | ⟨_, rfl⟩) | ⟨_, rfl⟩
      · exact .text field
      · exact .text operator.name
      · exact firstShaped
      · exact otherShaped
  | @group room combinator children narrow each ih =>
    have listShaped : JsonShaped (.list (toStoredAll children)) := by
      refine .list _ fun item member => ?_
      obtain ⟨child, isChild, rfl⟩ := (mem_stored_all children item).mp member
      exact ih child isChild
    refine .mapping _ (by simp) ?_
    simpa [Word.stored] using ⟨.text combinator.name, listShaped⟩

theorem tupled_stored_operand (value : Value) (kind : ScalarOrNull value ∨ ScalarTuple value) :
    tupled (storedOperand value) = value := by
  rcases kind with (rfl | scalar) | ⟨items, rfl, _⟩
  · rfl
  · cases scalar <;> rfl
  · rfl

theorem stored_operand_kind (value : Value) (kind : ScalarOrNull value ∨ ScalarTuple value) :
    ScalarOrNull (storedOperand value) ∨ ScalarList (storedOperand value) := by
  rcases kind with (rfl | scalar) | ⟨items, rfl, each⟩
  · exact .inl (.inl rfl)
  · exact .inl (.inr (by cases scalar <;> constructor))
  · exact .inr ⟨items, rfl, each⟩

theorem read_each_stored (read : List Nat → Value → Except Rejection Condition) (path : List Nat)
    (index : Nat) (children : List Condition)
    (each : ∀ child ∈ children, ∀ path, read path child.toStored = .ok child) :
    readEach read path index (toStoredAll children) = .ok children := by
  induction children generalizing index with
  | nil => rfl
  | cons child rest ih =>
    refine (read_each_cons_ok_iff read path index _ _ _).mpr
      ⟨child, rest, each child List.mem_cons_self _, ?_, rfl⟩
    exact ih (index + 1) fun later member => each later (List.mem_cons_of_mem _ member)

theorem combinator_name_normal (combinator : Combinator) :
    Text.lower (Text.strip combinator.name) = combinator.name := by
  cases combinator <;> decide

theorem stored_node_reads_back (limits : Limits) (room : Nat) (path : List Nat) (c : Condition)
    (readable : Readable limits room c) : readNode limits room path c.toStored = .ok c := by
  induction readable generalizing path with
  | @single room field operator value second nonempty first other fine =>
    have shaped := stored_shaped limits (room + 1) _ (.single nonempty first other fine)
    obtain ⟨notGroup, identity, named, spelled, firstGiven, otherGiven⟩ :=
      stored_fields_given field operator value second
    generalize entriesEq : storedFields field operator value second = entries at *
    have stored : (single field (.known operator) value second).toStored = .mapping entries := by
      rw [← entriesEq]
      rfl
    rw [stored] at shaped ⊢
    cases shaped with
    | mapping _ _ each =>
      rw [read_node_single_ok_iff limits _ path rfl notGroup, read_single_in_grammar entries each]
      have sameFirst := tupled_stored_operand value first
      refine ⟨field, operator, ⟨.inl identity, named, nonempty, spelled, ?_⟩, ?_⟩
      · rw [firstGiven, otherGiven, operands_iff, sameFirst]
        exact ⟨⟨stored_operand_kind value first, other⟩, fine⟩
      · rw [firstGiven, otherGiven, sameFirst]
  | @group room combinator children narrow each ih =>
    have shaped : JsonShaped (group (.known combinator) children).toStored :=
      stored_shaped limits (room + 1) _ (.group narrow each)
    cases shaped with
    | mapping entries _ entriesShaped =>
      refine (read_node_group_ok_iff limits room path rfl rfl _).mpr
        ⟨combinator, toStoredAll children, children, ?_, ?_, ?_, rfl⟩
      · rw [read_header_in_grammar _ entriesShaped]
        exact ⟨.inl rfl, ⟨combinator.name, rfl, combinator_name_normal combinator⟩, rfl⟩
      · rw [length_stored_all]
        exact narrow
      · exact read_each_stored (readNode limits room) path 0 children
          fun child member path => ih child member path

theorem read_readable (limits : Limits) (payload : Value) (stack : Nat) (c : Option Condition)
    (found : read limits payload stack = .ok c) (tree : Condition) (isTree : c = some tree) :
    Readable limits limits.maxDepth.toNat tree := by
  obtain ⟨v, found, _⟩ := read_source limits payload stack c found
  subst isTree
  rcases (read_tree_ok_iff limits v _).mp found with ⟨_, none⟩ | ⟨_, same, node⟩
  · cases none
  · cases same
    exact read_node_readable limits _ [] v tree node

theorem readable_reads_back (limits : Limits) (stack : Nat) (c : Option Condition)
    (readable : ∀ tree, c = some tree → Readable limits limits.maxDepth.toNat tree) :
    read limits (stored c) stack = .ok c := by
  cases c with
  | none => rfl
  | some tree =>
    have node := stored_node_reads_back limits _ [] tree (readable tree rfl)
    obtain ⟨_, entries, _, keyed⟩ := read_node_ok_mapping limits _ [] _ tree node
    have direct : read limits tree.toStored stack = readTree limits tree.toStored := by
      cases stored : tree.toStored with
      | mapping entries => rfl
      | view entries => rfl
      | _ =>
        rw [stored] at keyed
        cases keyed
    exact direct.trans ((read_tree_ok_iff limits _ _).mpr (.inr ⟨tree, rfl, node⟩))

theorem stored_reads_back (limits : Limits) (payload : Value) (stack : Nat) (c : Option Condition)
    (found : read limits payload stack = .ok c) (again : Nat) :
    read limits (stored c) again = .ok c ∧
    (read limits (stored c) again).map stored = .ok (stored c) ∧
    ∀ otherLimits otherPayload otherStack other, read otherLimits otherPayload otherStack = .ok other →
      stored other = stored c → other = c := by
  have readable := read_readable limits payload stack c found
  have back := readable_reads_back limits again c readable
  refine ⟨back, by rw [back, Except.map],
    fun otherLimits otherPayload otherStack other otherFound same => ?_⟩
  have otherReadable := read_readable otherLimits otherPayload otherStack other otherFound
  -- Under limits as wide as both, the one stored form is read as both conditions.
  let wide : Limits :=
    ⟨max limits.maxDepth otherLimits.maxDepth, max limits.maxWidth otherLimits.maxWidth⟩
  have backWide : read wide (stored c) again = .ok c := readable_reads_back wide again c fun tree isTree =>
    readable_mono limits wide _ _ tree (Int.le_max_left _ _) (by simp only [wide]; omega)
      (readable tree isTree)
  have otherWide : read wide (stored other) again = .ok other :=
    readable_reads_back wide again other fun tree isTree =>
      readable_mono otherLimits wide _ _ tree (Int.le_max_right _ _) (by simp only [wide]; omega)
        (otherReadable tree isTree)
  rw [same, backWide] at otherWide
  exact (Except.ok.inj otherWide).symm

theorem stored_interval_reads_back :
    let payload : Value := .mapping [(.text "id", .text "k"), (.text "field", .text "n"),
      (.text "operator", .text "between"), (.text "value", .int 0), (.text "second_value", .text "")]
    let c : Option Condition := some (.single "n" (.known .between) (.int 0) (.text ""))
    read ⟨1, 0⟩ payload = .ok c ∧ read ⟨1, 0⟩ (stored c) = .ok c := by
  intro payload c
  have found : read ⟨1, 0⟩ payload = .ok c := rfl
  exact ⟨found, (stored_reads_back ⟨1, 0⟩ payload _ c found _).1⟩

end TagRules.Condition
