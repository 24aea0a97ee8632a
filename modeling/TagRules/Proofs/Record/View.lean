import Mathlib.Data.List.Forall2
import TagRules.Record

set_option autoImplicit false

namespace TagRules.Record

inductive Atomic : Value → Prop
  | null : Atomic .null
  | missing : Atomic .missing
  | bool (b : Bool) : Atomic (.bool b)
  | int (n : Int) : Atomic (.int n)
  | float (x : Binary64) : Atomic (.float x)
  | decimal (x : Decimal) : Atomic (.decimal x)
  | text (s : String) : Atomic (.text s)
  | bytes (octets : List UInt8) : Atomic (.bytes octets)

def textKeyed (fields : List (String × Value)) : List (Value × Value) :=
  fields.map fun field => (.text field.1, field.2)

inductive Data : Value → Prop
  | atom {v : Value} (atomic : Atomic v) : Data v
  | array {v : Value} {items : List Value} (listed : v.items? = some items)
      (each : ∀ item ∈ items, Data item) : Data v
  | mapping {v : Value} {fields : List (String × Value)} (keyed : v.entries? = some (textKeyed fields))
      (distinctNames : (Dictionary.keys fields).Nodup) (each : ∀ field ∈ fields, Data field.2) : Data v
  | struct {fields : List (String × Value)} (distinctNames : (Dictionary.keys fields).Nodup)
      (shown : ∀ field ∈ fields, isPrivate field.1 = false) (each : ∀ field ∈ fields, Data field.2) :
      Data (.struct fields)

inductive IsRecord : Value → Prop
  | null : IsRecord .null
  | mapping (entries : List (Value × Value)) : IsRecord (.mapping entries)
  | view (entries : List (Value × Value)) : IsRecord (.view entries)
  | struct (fields : List (String × Value)) : IsRecord (.struct fields)

theorem plain_atom (v : Value) (atomic : Atomic v) : plain v = .ok v := by
  cases atomic <;> rfl

theorem plain_items_cons (item : Value) (rest : List Value) :
    plainItems (item :: rest) = (plain item).bind fun p => (plainItems rest).map (p :: ·) := by
  rw [plainItems]
  cases plain item <;> rfl

theorem plain_fields_cons (field : String × Value) (rest : List (String × Value)) :
    plainFields (field :: rest) =
      (plain field.2).bind fun p => (plainFields rest).map ((field.1, p) :: ·) := by
  rw [plainFields]
  cases plain field.2 <;> rfl

theorem plain_entries_text_keyed (fields : List (String × Value)) :
    plainEntries (textKeyed fields) = plainFields fields := by
  induction fields with
  | nil => rfl
  | cons field rest ih =>
    rw [textKeyed] at ih ⊢
    simp only [List.map_cons, plainEntries, Value.toText, plainFields, ih]

theorem plain_items_total (items : List Value) (each : ∀ item ∈ items, ∃ p, plain item = .ok p) :
    ∃ ps, plainItems items = .ok ps := by
  induction items with
  | nil => exact ⟨[], rfl⟩
  | cons item rest ih =>
    obtain ⟨⟨p, atHead⟩, later⟩ := List.forall_mem_cons.mp each
    obtain ⟨ps, more⟩ := ih later
    exact ⟨p :: ps, by rw [plain_items_cons, atHead, more]; rfl⟩

theorem plain_fields_total (fields : List (String × Value))
    (each : ∀ field ∈ fields, ∃ p, plain field.2 = .ok p) :
    ∃ named, plainFields fields = .ok named := by
  induction fields with
  | nil => exact ⟨[], rfl⟩
  | cons field rest ih =>
    obtain ⟨⟨p, atHead⟩, later⟩ := List.forall_mem_cons.mp each
    obtain ⟨named, more⟩ := ih later
    exact ⟨(field.1, p) :: named, by rw [plain_fields_cons, atHead, more]; rfl⟩

theorem plain_array (v : Value) (items : List Value) (listed : v.items? = some items) :
    plain v = (plainItems items).map .tuple := by
  cases v <;> cases listed <;> rfl

theorem plain_mapping (v : Value) (fields : List (String × Value))
    (keyed : v.entries? = some (textKeyed fields)) : plain v = (plainFields fields).map ofNamed := by
  rw [← plain_entries_text_keyed]
  cases v <;> cases keyed <;> rfl

theorem plain_total (v : Value) (data : Data v) : ∃ p, plain v = .ok p := by
  induction data with
  | @atom v atomic => exact ⟨v, plain_atom v atomic⟩
  | @array v items listed _ each =>
    obtain ⟨ps, found⟩ := plain_items_total items each
    exact ⟨.tuple ps, by rw [plain_array v items listed, found]; rfl⟩
  | @mapping v fields keyed _ _ each =>
    obtain ⟨named, found⟩ := plain_fields_total fields each
    exact ⟨ofNamed named, by rw [plain_mapping v fields keyed, found]; rfl⟩
  | @struct fields _ _ _ each =>
    obtain ⟨named, found⟩ := plain_fields_total fields each
    exact ⟨ofNamed named, by rw [plain, found]; rfl⟩

theorem map_ok {α β : Type} (f : α → β) (r : Except Fault α) (b : β) (found : r.map f = .ok b) :
    ∃ a, r = .ok a ∧ f a = b := by
  cases r with
  | error fault => cases found
  | ok a => exact ⟨a, rfl, Except.ok.inj found⟩

theorem both_ok {α β γ : Type} (f : α → β → γ) (r : Except Fault α) (s : Except Fault β) (c : γ)
    (found : (r.bind fun a => s.map (f a)) = .ok c) : ∃ a b, r = .ok a ∧ s = .ok b ∧ f a b = c := by
  cases r with
  | error fault => cases found
  | ok a =>
    obtain ⟨b, later, combined⟩ := map_ok (f a) s c found
    exact ⟨a, b, rfl, later, combined⟩

theorem plain_items_paired (items ps : List Value) (found : plainItems items = .ok ps) :
    List.Forall₂ (fun item p => plain item = .ok p) items ps := by
  induction items generalizing ps with
  | nil =>
    cases found
    exact .nil
  | cons item rest ih =>
    rw [plain_items_cons] at found
    obtain ⟨p, more, atHead, later, rfl⟩ := both_ok _ _ _ ps found
    exact .cons atHead (ih more later)

theorem plain_fields_keys (fields named : List (String × Value))
    (found : plainFields fields = .ok named) : Dictionary.keys named = Dictionary.keys fields := by
  induction fields generalizing named with
  | nil =>
    cases found
    rfl
  | cons field rest ih =>
    rw [plain_fields_cons] at found
    obtain ⟨p, more, _, later, rfl⟩ := both_ok _ _ _ named found
    exact congrArg (field.1 :: ·) (ih more later)

theorem plain_fields_get (fields named : List (String × Value))
    (found : plainFields fields = .ok named) (name : String) :
    plain ((Dictionary.get? name fields).getD .missing) =
      .ok ((Dictionary.get? name named).getD .missing) := by
  induction fields generalizing named with
  | nil =>
    cases found
    rfl
  | cons field rest ih =>
    rw [plain_fields_cons] at found
    obtain ⟨p, more, atHead, later, rfl⟩ := both_ok _ _ _ named found
    by_cases same : field.1 = name
    · simp only [Dictionary.get?, if_pos same, Option.getD_some, atHead]
    · simpa only [Dictionary.get?, if_neg same] using ih more later

theorem entry_text_keyed (name : String) (fields : List (String × Value)) :
    Value.entry? name (textKeyed fields) = Dictionary.get? name fields := by
  induction fields with
  | nil => rfl
  | cons field rest ih =>
    rw [textKeyed] at ih ⊢
    by_cases same : field.1 = name <;>
      simp [Value.entry?, Value.text?, Dictionary.get?, same, ih]

theorem public_attribute_shown (name : String) (fields : List (String × Value))
    (shown : ∀ field ∈ fields, isPrivate field.1 = false) :
    Path.publicAttribute name fields = (Dictionary.get? name fields).getD .missing := by
  by_cases hidden : isPrivate name = true
  · have absent : Dictionary.get? name fields = none := by
      induction fields with
      | nil => rfl
      | cons field rest ih =>
        obtain ⟨atHead, later⟩ := List.forall_mem_cons.mp shown
        have different : field.1 ≠ name := by
          rintro rfl
          rw [hidden] at atHead
          cases atHead
        rw [Dictionary.get?, if_neg different]
        exact ih later
    rw [Path.publicAttribute, if_pos hidden, absent]
    rfl
  · rw [Path.publicAttribute, if_neg hidden]

theorem named_of_distinct (fields : List (String × Value))
    (distinctNames : (Dictionary.keys fields).Nodup) : ofNamed fields = .view (textKeyed fields) := by
  rw [ofNamed, Dictionary.of_distinct_list fields distinctNames, textKeyed]

theorem fields_view_step (fields named : List (String × Value))
    (distinctNames : (Dictionary.keys fields).Nodup) (found : plainFields fields = .ok named)
    (segment : String) :
    plain ((Dictionary.get? segment fields).getD .missing) =
      .ok (Path.step (ofNamed named) segment) := by
  have sameKeys := plain_fields_keys fields named found
  rw [plain_fields_get fields named found segment, named_of_distinct named (sameKeys ▸ distinctNames),
    Path.step, entry_text_keyed]

theorem step_array (v : Value) (items : List Value) (listed : v.items? = some items)
    (segment : String) : Path.step v segment = .missing := by
  cases v <;> cases listed <;> rfl

theorem step_mapping (v : Value) (fields : List (String × Value))
    (keyed : v.entries? = some (textKeyed fields)) (segment : String) :
    Path.step v segment = (Dictionary.get? segment fields).getD .missing := by
  rw [← entry_text_keyed]
  cases v <;> cases keyed <;> rfl

theorem step_atom (v : Value) (atomic : Atomic v) (segment : String) :
    Path.step v segment = .missing := by
  cases atomic <;> rfl

theorem plain_step (v p : Value) (data : Data v) (found : plain v = .ok p) (segment : String) :
    plain (Path.step v segment) = .ok (Path.step p segment) := by
  cases data with
  | atom atomic =>
    have same : v = p := Except.ok.inj ((plain_atom v atomic).symm.trans found)
    rw [← same, step_atom v atomic]
    rfl
  | @array _ items listed =>
    rw [plain_array v items listed] at found
    obtain ⟨ps, _, rfl⟩ := map_ok _ _ p found
    rw [step_array v items listed]
    rfl
  | @mapping _ fields keyed distinctNames =>
    rw [plain_mapping v fields keyed] at found
    obtain ⟨named, fieldsFound, rfl⟩ := map_ok _ _ p found
    rw [step_mapping v fields keyed]
    exact fields_view_step fields named distinctNames fieldsFound segment
  | @struct fields distinctNames shown =>
    obtain ⟨named, fieldsFound, rfl⟩ := map_ok _ _ p found
    rw [Path.step, public_attribute_shown segment fields shown]
    exact fields_view_step fields named distinctNames fieldsFound segment

theorem data_of_fields (fields : List (String × Value)) (distinctNames : (Dictionary.keys fields).Nodup)
    (each : ∀ field ∈ fields, Data field.2) (name : String) :
    Data ((Dictionary.get? name fields).getD .missing) := by
  cases found : Dictionary.get? name fields with
  | none => exact .atom .missing
  | some v => exact each (name, v) ((Dictionary.get_some_iff distinctNames name v).mp found)

theorem data_step (v : Value) (data : Data v) (segment : String) : Data (Path.step v segment) := by
  cases data with
  | atom atomic =>
    rw [step_atom v atomic]
    exact .atom .missing
  | @array _ items listed =>
    rw [step_array v items listed]
    exact .atom .missing
  | @mapping _ fields keyed distinctNames each =>
    rw [step_mapping v fields keyed]
    exact data_of_fields fields distinctNames each segment
  | @struct fields distinctNames shown each =>
    rw [Path.step, public_attribute_shown segment fields shown]
    exact data_of_fields fields distinctNames each segment

theorem plain_walk (segments : List String) (v p : Value) (data : Data v) (found : plain v = .ok p) :
    Data (segments.foldl Path.step v) ∧
      plain (segments.foldl Path.step v) = .ok (segments.foldl Path.step p) := by
  induction segments generalizing v p with
  | nil => exact ⟨data, found⟩
  | cons segment rest ih =>
    exact ih _ _ (data_step v data segment) (plain_step v p data found segment)

theorem lost_walk (segments : List String) : segments.foldl Path.step .missing = .missing := by
  induction segments with
  | nil => rfl
  | cons segment rest ih => exact ih

theorem resolve_lost (v : Value) (lost : ∀ segment, Path.step v segment = .missing) (path : String) :
    Path.resolve v path = .missing := by
  rw [Path.resolve, Path.segments]
  cases parts : Text.splitOn '.' path.toList with
  | nil => exact absurd parts (Text.split_on_nonempty '.' path.toList)
  | cons first rest =>
    rw [List.map_cons, List.foldl_cons, lost]
    exact lost_walk _

theorem view_resolves (record : Value) (data : Data record) (isRecord : IsRecord record) :
    ∃ view, Record.view record = .ok view ∧ ∀ path, Data (Path.resolve record path) ∧
      plain (Path.resolve record path) = .ok (Path.resolve view path) := by
  obtain ⟨p, found⟩ := plain_total record data
  have walks := fun path => plain_walk (Path.segments path) record p data found
  cases isRecord with
  | null =>
    refine ⟨ofNamed [], rfl, fun path => ?_⟩
    rw [resolve_lost .null (fun _ => rfl), resolve_lost (ofNamed []) (fun _ => rfl)]
    exact ⟨.atom .missing, rfl⟩
  | mapping entries => exact ⟨p, found, walks⟩
  | view entries => exact ⟨p, found, walks⟩
  | struct fields => exact ⟨p, found, walks⟩

end TagRules.Record
