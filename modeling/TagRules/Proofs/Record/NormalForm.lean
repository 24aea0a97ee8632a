import TagRules.Proofs.Record.View

set_option autoImplicit false

namespace TagRules.Record

-- Normal form, where a part may also be a value that is `kept`.
inductive Formed (kept : Value → Prop) : Value → Prop
  | kept {v : Value} (asItIs : kept v) : Formed kept v
  | atom {v : Value} (atomic : Atomic v) : Formed kept v
  | tuple {items : List Value} (each : ∀ item ∈ items, Formed kept item) : Formed kept (.tuple items)
  | view {fields : List (String × Value)} (distinctNames : (Dictionary.keys fields).Nodup)
      (each : ∀ field ∈ fields, Formed kept field.2) : Formed kept (.view (textKeyed fields))
  | object (attributes : List (String × Value)) : Formed kept (.object attributes)
  | operation (name : String) : Formed kept (.operation name)

def NormalForm : Value → Prop := Formed fun _ => False

theorem Formed.replace {kept others : Value → Prop} {v : Value} (formed : Formed kept v)
    (each : ∀ w, kept w → Formed others w) : Formed others v := by
  induction formed with
  | kept asItIs => exact each _ asItIs
  | atom atomic => exact .atom atomic
  | tuple _ ih => exact .tuple ih
  | view distinctNames _ ih => exact .view distinctNames ih
  | object attributes => exact .object attributes
  | operation name => exact .operation name

theorem formed_named (kept : Value → Prop) (named : List (String × Value))
    (each : ∀ field ∈ named, Formed kept field.2) : Formed kept (ofNamed named) :=
  .view (Dictionary.nodup_keys_of_list named) fun field member =>
    each field (Dictionary.mem_of_list member)

def parts : Value → List Value
  | .list items => items
  | .tuple items => items
  | .set items => items
  | .mapping entries => entries.map Prod.snd
  | .view entries => entries.map Prod.snd
  | .struct fields => fields.map Prod.snd
  | .model fields => fields.map Prod.snd
  | _ => []

def shownParts : Value → List Value
  | .object attributes => (attributes.filter fun entry => !isPrivate entry.1).map Prod.snd
  | v => parts v

-- A value holds a named constant that stands for `constant`.
inductive StandsIn (constant : Value) : Value → Prop
  | itself : StandsIn constant (.member constant)
  | part {v p : Value} (member : p ∈ parts v) (deeper : StandsIn constant p) : StandsIn constant v

def ConstantOf (entity constant : Value) : Prop := ∃ part ∈ shownParts entity, StandsIn constant part

theorem item_smaller {items : List Value} {p : Value} (member : p ∈ items) :
    sizeOf p < 1 + sizeOf items := by
  have inside := List.sizeOf_lt_of_mem member
  omega

theorem second_smaller {κ : Type} [SizeOf κ] {entries : List (κ × Value)} {p : Value}
    (member : p ∈ entries.map Prod.snd) : sizeOf p < 1 + sizeOf entries := by
  obtain ⟨⟨key, value⟩, inside, rfl⟩ := List.mem_map.mp member
  have entrySize := List.sizeOf_lt_of_mem inside
  rw [Prod.mk.sizeOf_spec] at entrySize
  dsimp only
  omega

theorem part_smaller {v p : Value} (member : p ∈ parts v) : sizeOf p < sizeOf v := by
  cases v with
  | list items => rw [Value.list.sizeOf_spec]; exact item_smaller member
  | tuple items => rw [Value.tuple.sizeOf_spec]; exact item_smaller member
  | set items => rw [Value.set.sizeOf_spec]; exact item_smaller member
  | mapping entries => rw [Value.mapping.sizeOf_spec]; exact second_smaller member
  | view entries => rw [Value.view.sizeOf_spec]; exact second_smaller member
  | struct fields => rw [Value.struct.sizeOf_spec]; exact second_smaller member
  | model fields => rw [Value.model.sizeOf_spec]; exact second_smaller member
  | _ => cases member

theorem parts_induction {motive : Value → Prop}
    (step : ∀ v, (∀ p ∈ parts v, motive p) → motive v) (v : Value) : motive v :=
  step v fun p _ => parts_induction step p
termination_by v
decreasing_by exact part_smaller ‹_›

theorem plain_items_made (items ps : List Value) (found : plainItems items = .ok ps) :
    ∀ q ∈ ps, ∃ part ∈ items, plain part = .ok q := by
  induction items generalizing ps with
  | nil =>
    cases found
    exact List.forall_mem_nil _
  | cons item rest ih =>
    rw [plain_items_cons] at found
    obtain ⟨p, more, atHead, later, rfl⟩ := both_ok _ _ _ ps found
    refine List.forall_mem_cons.mpr ⟨⟨item, List.mem_cons_self, atHead⟩, fun q member => ?_⟩
    obtain ⟨part, inside, made⟩ := ih more later q member
    exact ⟨part, List.mem_cons_of_mem _ inside, made⟩

theorem plain_fields_made (fields named : List (String × Value)) (found : plainFields fields = .ok named) :
    ∀ field ∈ named, ∃ part ∈ fields.map Prod.snd, plain part = .ok field.2 := by
  induction fields generalizing named with
  | nil =>
    cases found
    exact List.forall_mem_nil _
  | cons given rest ih =>
    rw [plain_fields_cons] at found
    obtain ⟨p, more, atHead, later, rfl⟩ := both_ok _ _ _ named found
    refine List.forall_mem_cons.mpr ⟨⟨given.2, List.mem_cons_self, atHead⟩, fun field member => ?_⟩
    obtain ⟨part, inside, made⟩ := ih more later field member
    exact ⟨part, List.mem_cons_of_mem _ inside, made⟩

theorem plain_entries_named (entries : List (Value × Value)) (named : List (String × Value))
    (found : plainEntries entries = .ok named) :
    ∃ fields : List (String × Value), fields.map Prod.snd = entries.map Prod.snd ∧
      plainFields fields = .ok named := by
  induction entries generalizing named with
  | nil => exact ⟨[], rfl, found⟩
  | cons entry rest ih =>
    obtain ⟨key, value⟩ := entry
    rw [plainEntries] at found
    cases text : key.toText with
    | error fault => simp [text] at found
    | ok name =>
      cases atHead : plain value with
      | error fault => simp [text, atHead] at found
      | ok p =>
        simp only [text, atHead] at found
        obtain ⟨more, later, rfl⟩ := map_ok _ _ named found
        obtain ⟨fields, sameParts, fieldsFound⟩ := ih more later
        refine ⟨(name, value) :: fields, ?_, ?_⟩
        · rw [List.map_cons, List.map_cons, sameParts]
        · rw [plainFields, atHead, fieldsFound]
          rfl

theorem plain_entries_made (entries : List (Value × Value)) (named : List (String × Value))
    (found : plainEntries entries = .ok named) :
    ∀ field ∈ named, ∃ part ∈ entries.map Prod.snd, plain part = .ok field.2 := by
  obtain ⟨fields, sameParts, fieldsFound⟩ := plain_entries_named entries named found
  rw [← sameParts]
  exact plain_fields_made fields named fieldsFound

inductive Made (v : Value) : Value → Prop
  | constant {value : Value} (stands : v = .member value) : Made v value
  | atom {p : Value} (atomic : Atomic p) : Made v p
  | object (attributes : List (String × Value)) : Made v (.object attributes)
  | operation (name : String) : Made v (.operation name)
  | tuple {ps : List Value} (each : ∀ q ∈ ps, ∃ part ∈ parts v, plain part = .ok q) : Made v (.tuple ps)
  | view {named : List (String × Value)}
      (each : ∀ field ∈ named, ∃ part ∈ parts v, plain part = .ok field.2) : Made v (ofNamed named)

theorem plain_made (v p : Value) (found : plain v = .ok p) : Made v p := by
  cases v with
  | list items =>
    obtain ⟨ps, items, rfl⟩ := map_ok _ _ p found
    exact .tuple (plain_items_made _ ps items)
  | tuple items =>
    obtain ⟨ps, items, rfl⟩ := map_ok _ _ p found
    exact .tuple (plain_items_made _ ps items)
  | set items =>
    obtain ⟨ps, items, rfl⟩ := map_ok _ _ p found
    exact .tuple (plain_items_made _ ps items)
  | mapping entries =>
    obtain ⟨named, entries, rfl⟩ := map_ok _ _ p found
    exact .view (plain_entries_made _ named entries)
  | view entries =>
    obtain ⟨named, entries, rfl⟩ := map_ok _ _ p found
    exact .view (plain_entries_made _ named entries)
  | struct fields =>
    obtain ⟨named, fields, rfl⟩ := map_ok _ _ p found
    exact .view (plain_fields_made _ named fields)
  | model fields =>
    obtain ⟨named, fields, rfl⟩ := map_ok _ _ p found
    exact .view (plain_fields_made _ named fields)
  | member value => cases found; exact .constant rfl
  | textMember s => cases found; exact .atom (.text s)
  | object attributes => cases found; exact .object attributes
  | operation name => cases found; exact .operation name
  | null => cases found; exact .atom .null
  | missing => cases found; exact .atom .missing
  | bool b => cases found; exact .atom (.bool b)
  | int n => cases found; exact .atom (.int n)
  | float x => cases found; exact .atom (.float x)
  | decimal x => cases found; exact .atom (.decimal x)
  | text s => cases found; exact .atom (.text s)
  | bytes octets => cases found; exact .atom (.bytes octets)

theorem plain_formed (v p : Value) (found : plain v = .ok p) :
    Formed (fun constant => StandsIn constant v) p := by
  induction v using parts_induction generalizing p with
  | step v ih =>
    have fromPart : ∀ part ∈ parts v, ∀ q, plain part = .ok q →
        Formed (fun constant => StandsIn constant v) q := fun part member q made =>
      (ih part member q made).replace fun _ deeper => .kept (.part member deeper)
    cases plain_made v p found with
    | constant stands =>
      subst stands
      exact .kept .itself
    | atom atomic => exact .atom atomic
    | object attributes => exact .object attributes
    | operation name => exact .operation name
    | tuple each =>
      refine .tuple fun q member => ?_
      obtain ⟨part, inside, made⟩ := each q member
      exact fromPart part inside q made
    | @view named each =>
      refine formed_named _ named fun field member => ?_
      obtain ⟨part, inside, made⟩ := each field member
      exact fromPart part inside field.2 made

theorem plain_items_fixed (items : List Value) :
    plainItems items = .ok items ↔ ∀ item ∈ items, plain item = .ok item := by
  induction items with
  | nil => simp [plainItems]
  | cons item rest ih =>
    rw [plain_items_cons, List.forall_mem_cons, ← ih]
    constructor
    · intro fixed
      obtain ⟨p, more, atHead, later, same⟩ := both_ok _ _ _ _ fixed
      cases same
      exact ⟨atHead, later⟩
    · rintro ⟨atHead, later⟩
      rw [atHead, later]
      rfl

theorem plain_fields_fixed (fields : List (String × Value)) :
    plainFields fields = .ok fields ↔ ∀ field ∈ fields, plain field.2 = .ok field.2 := by
  induction fields with
  | nil => simp [plainFields]
  | cons field rest ih =>
    rw [plain_fields_cons, List.forall_mem_cons, ← ih]
    constructor
    · intro fixed
      obtain ⟨p, more, atHead, later, same⟩ := both_ok _ _ _ _ fixed
      obtain ⟨first, rfl⟩ := List.cons.inj same
      obtain rfl : p = field.2 := congrArg Prod.snd first
      exact ⟨atHead, later⟩
    · rintro ⟨atHead, later⟩
      rw [atHead, later]
      rfl

theorem normal_fixed (v : Value) (normal : NormalForm v) : plain v = .ok v := by
  induction normal with
  | kept asItIs => exact asItIs.elim
  | @atom v atomic => exact plain_atom v atomic
  | object attributes => rfl
  | operation name => rfl
  | @tuple items _ ih =>
    rw [plain, (plain_items_fixed items).mpr ih]
    rfl
  | @view fields distinctNames _ ih =>
    rw [plain, plain_entries_text_keyed, (plain_fields_fixed fields).mpr ih,
      ← named_of_distinct fields distinctNames]
    rfl

theorem fixed_view_fields (entries : List (Value × Value)) (fixed : plain (.view entries) = .ok (.view entries)) :
    ∃ fields : List (String × Value), entries = textKeyed fields ∧ (Dictionary.keys fields).Nodup ∧
      ∀ field ∈ fields, plain field.2 = .ok field.2 := by
  obtain ⟨named, entriesFound, shape⟩ := map_ok _ _ _ fixed
  obtain rfl : textKeyed (Dictionary.ofList named) = entries := Value.view.inj shape
  rw [plain_entries_text_keyed] at entriesFound
  have distinctNames := Dictionary.nodup_keys_of_list named
  rw [← plain_fields_keys _ named entriesFound] at distinctNames
  rw [Dictionary.of_distinct_list named distinctNames] at entriesFound ⊢
  exact ⟨named, rfl, distinctNames, (plain_fields_fixed named).mp entriesFound⟩

-- A value that is its own plain form is of a kind that plain forms are of, so the list, the mapping, the
-- constant and the rest need no cases.
theorem fixed_normal (v : Value) (fixed : plain v = .ok v) : NormalForm v := by
  induction v using parts_induction with
  | step v ih =>
    cases plain_made v v fixed with
    | constant stands => exact absurd (congrArg sizeOf stands) (by simp)
    | atom atomic => exact .atom atomic
    | object attributes => exact .object attributes
    | operation name => exact .operation name
    | @tuple items _ =>
      obtain ⟨ps, itemsFound, same⟩ := map_ok _ _ _ fixed
      cases same
      exact .tuple fun item member => ih item member ((plain_items_fixed items).mp itemsFound item member)
    | @view named _ =>
      obtain ⟨fields, shape, distinctNames, each⟩ := fixed_view_fields _ fixed
      rw [ofNamed, shape] at ih ⊢
      refine .view distinctNames fun field member => ih field.2 ?_ (each field member)
      exact List.mem_map.mpr ⟨(.text field.1, field.2), List.mem_map.mpr ⟨field, member, rfl⟩, rfl⟩

theorem view_made (entity v : Value) (viewed : view entity = .ok v) :
    ∃ named, v = ofNamed named ∧
      ∀ field ∈ named, ∃ part ∈ shownParts entity, plain part = .ok field.2 := by
  cases entity with
  | null => cases viewed; exact ⟨[], rfl, List.forall_mem_nil _⟩
  | mapping entries =>
    obtain ⟨named, found, rfl⟩ := map_ok _ _ v viewed
    exact ⟨named, rfl, plain_entries_made entries named found⟩
  | view entries =>
    obtain ⟨named, found, rfl⟩ := map_ok _ _ v viewed
    exact ⟨named, rfl, plain_entries_made entries named found⟩
  | struct fields =>
    obtain ⟨named, found, rfl⟩ := map_ok _ _ v viewed
    exact ⟨named, rfl, plain_fields_made fields named found⟩
  | model fields =>
    obtain ⟨named, found, rfl⟩ := map_ok _ _ v viewed
    exact ⟨named, rfl, plain_fields_made fields named found⟩
  | object attributes =>
    obtain ⟨named, found, rfl⟩ := map_ok _ _ v viewed
    exact ⟨named, rfl, plain_fields_made _ named found⟩
  | member value => cases viewed; exact ⟨[], rfl, List.forall_mem_nil _⟩
  | textMember s => cases viewed; exact ⟨[], rfl, List.forall_mem_nil _⟩
  | _ => cases viewed

theorem views_in_normal_form (entity v : Value) (viewed : view entity = .ok v) :
    (∃ fields, v = .view (textKeyed fields) ∧ (Dictionary.keys fields).Nodup ∧
      ∀ field ∈ fields, Formed (ConstantOf entity) field.2) ∧
    (view v = .ok v ↔ NormalForm v) ∧
    ((∀ constant, ConstantOf entity constant → NormalForm constant) → NormalForm v) := by
  obtain ⟨named, rfl, each⟩ := view_made entity v viewed
  have formed : ∀ field ∈ named, Formed (ConstantOf entity) field.2 := by
    intro field member
    obtain ⟨part, inside, made⟩ := each field member
    exact (plain_formed part field.2 made).replace fun _ deeper => .kept ⟨part, inside, deeper⟩
  have again : view (ofNamed named) = plain (ofNamed named) := rfl
  rw [again]
  refine ⟨⟨Dictionary.ofList named, rfl, Dictionary.nodup_keys_of_list named, fun field member =>
    formed field (Dictionary.mem_of_list member)⟩, ⟨fixed_normal _, normal_fixed _⟩, fun normal => ?_⟩
  exact formed_named _ named fun field member => (formed field member).replace normal

theorem constants_give_way_to_values :
    let entity : Value := .object [("_seen", .set [.int 1]), ("status", .member (.text "VAT_MONTHLY")),
      ("codes", .list [.textMember "GTU_01", .member (.tuple [.int 5])])]
    let v : Value := .view [(.text "status", .text "VAT_MONTHLY"),
      (.text "codes", .tuple [.text "GTU_01", .tuple [.int 5]])]
    view entity = .ok v ∧ NormalForm v ∧ view v = .ok v := by
  intro entity v
  have viewed : view entity = .ok v := rfl
  obtain ⟨_, fixed, normal⟩ := views_in_normal_form entity v viewed
  have constants : ∀ constant, ConstantOf entity constant → NormalForm constant := by
    rintro constant ⟨part, inside, stands⟩
    have shown : shownParts entity = [.member (.text "VAT_MONTHLY"),
      .list [.textMember "GTU_01", .member (.tuple [.int 5])]] := rfl
    rw [shown] at inside
    rcases List.mem_cons.mp inside with rfl | inside
    · cases stands with
      | itself => exact .atom (.text _)
      | part member => cases member
    · cases List.mem_singleton.mp inside
      cases stands with
      | part member deeper =>
        rcases List.mem_cons.mp member with rfl | member
        · cases deeper with
          | part member => cases member
        · cases List.mem_singleton.mp member
          cases deeper with
          | itself => exact .tuple (by simpa using .atom (.int 5))
          | part member => cases member
  exact ⟨viewed, normal constants, fixed.mpr (normal constants)⟩

theorem constant_for_list_stays_list :
    ¬ ∀ entity v : Value, view entity = .ok v → NormalForm v ∧ view v = .ok v := by
  intro always
  let entity : Value := .mapping [(.text "x", .member (.list [.int 1]))]
  let v : Value := .view [(.text "x", .list [.int 1])]
  have viewed : view entity = .ok v := rfl
  have again : view v = .ok (.view [(.text "x", .tuple [.int 1])]) := rfl
  have fixed := (always entity v viewed).2
  rw [again] at fixed
  simp [v] at fixed

end TagRules.Record
