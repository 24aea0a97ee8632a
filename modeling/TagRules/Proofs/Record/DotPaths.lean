import TagRules.Proofs.Record.View

set_option autoImplicit false

namespace TagRules

namespace Path

theorem segments_join (first second : String) :
    segments (first ++ "." ++ second) = segments first ++ segments second := by
  have split : (first ++ "." ++ second).toList = first.toList ++ '.' :: second.toList := by
    simp [String.toList_append]
  rw [segments, split, Text.split_on_append, List.map_append, segments, segments]

theorem resolve_join (node : Value) (first second : String) :
    resolve node (first ++ "." ++ second) = resolve (resolve node first) second := by
  rw [resolve, segments_join, List.foldl_append, resolve, resolve]

def joined (first : String) (others : List String) : String :=
  others.foldl (fun path other => path ++ "." ++ other) first

theorem resolve_joined (node : Value) (first : String) (others : List String) :
    resolve node (joined first others) = others.foldl resolve (resolve node first) := by
  induction others generalizing first with
  | nil => rfl
  | cons other rest ih => exact (ih (first ++ "." ++ other)).trans (by rw [resolve_join]; rfl)

theorem paths_compose (node : Value) (first second : String) :
    resolve node (first ++ "." ++ second) = resolve (resolve node first) second ∧
      ∀ others, resolve node (joined first (second :: others)) =
        others.foldl resolve (resolve (resolve node first) second) :=
  ⟨resolve_join node first second, fun others => resolve_joined node first (second :: others)⟩

example : resolve (.mapping [(.text "", .null)]) ("" ++ "." ++ "_x") = .missing := rfl

end Path

namespace Record

def Named (v : Value) (fields : List (String × Value)) : Prop :=
  v.entries? = some (textKeyed fields) ∨ v = .struct fields

-- The plain form by rules: a value without parts is its own, an array becomes a tuple, and what has named
-- parts becomes a view with the same names in the same order, each part being in plain form itself.
inductive PlainForm : Value → Value → Prop
  | atom {v : Value} (atomic : Atomic v) : PlainForm v v
  | array {v : Value} {items ps : List Value} (listed : v.items? = some items)
      (sameLength : items.length = ps.length)
      (each : ∀ pair ∈ items.zip ps, PlainForm pair.1 pair.2) : PlainForm v (.tuple ps)
  | named {v : Value} {fields named : List (String × Value)} (parts : Named v fields)
      (sameNames : Dictionary.keys named = Dictionary.keys fields)
      (each : ∀ pair ∈ fields.zip named, PlainForm pair.1.2 pair.2.2) :
      PlainForm v (.view (textKeyed named))

theorem plain_items_zip (items ps : List Value) (found : plainItems items = .ok ps) :
    items.length = ps.length ∧ ∀ pair ∈ items.zip ps, pair.1 ∈ items ∧ plain pair.1 = .ok pair.2 := by
  obtain ⟨sameLength, each⟩ := List.forall₂_iff_zip.mp (plain_items_paired items ps found)
  exact ⟨sameLength, fun pair member => ⟨(List.of_mem_zip member).1, each member⟩⟩

theorem plain_fields_zip (fields named : List (String × Value)) (found : plainFields fields = .ok named) :
    ∀ pair ∈ fields.zip named, pair.1 ∈ fields ∧ plain pair.1.2 = .ok pair.2.2 := by
  induction fields generalizing named with
  | nil => exact List.forall_mem_nil _
  | cons field rest ih =>
    rw [plain_fields_cons] at found
    obtain ⟨p, more, atHead, later, rfl⟩ := both_ok _ _ _ named found
    rw [List.zip_cons_cons, List.forall_mem_cons]
    refine ⟨⟨List.mem_cons_self, atHead⟩, fun pair member => ?_⟩
    obtain ⟨inside, made⟩ := ih more later pair member
    exact ⟨List.mem_cons_of_mem field inside, made⟩

theorem plain_form (v p : Value) (data : Data v) (found : plain v = .ok p) : PlainForm v p := by
  induction data generalizing p with
  | @atom v atomic =>
    cases (plain_atom v atomic).symm.trans found
    exact .atom atomic
  | @array v items listed _ ih =>
    rw [plain_array v items listed] at found
    obtain ⟨ps, itemsFound, rfl⟩ := map_ok _ _ p found
    obtain ⟨sameLength, each⟩ := plain_items_zip items ps itemsFound
    exact .array listed sameLength fun pair member =>
      ih pair.1 (each pair member).1 pair.2 (each pair member).2
  | @mapping v fields keyed distinctNames _ ih =>
    rw [plain_mapping v fields keyed] at found
    obtain ⟨named, fieldsFound, rfl⟩ := map_ok _ _ p found
    have sameNames := plain_fields_keys fields named fieldsFound
    have each := plain_fields_zip fields named fieldsFound
    rw [named_of_distinct named (sameNames ▸ distinctNames)]
    exact .named (.inl keyed) sameNames fun pair member =>
      ih pair.1 (each pair member).1 pair.2.2 (each pair member).2
  | @struct fields distinctNames _ _ ih =>
    obtain ⟨named, fieldsFound, rfl⟩ := map_ok _ _ p found
    have sameNames := plain_fields_keys fields named fieldsFound
    have each := plain_fields_zip fields named fieldsFound
    rw [named_of_distinct named (sameNames ▸ distinctNames)]
    exact .named (.inr rfl) sameNames fun pair member =>
      ih pair.1 (each pair member).1 pair.2.2 (each pair member).2

theorem plain_missing_iff (v p : Value) (form : PlainForm v p) : p = .missing ↔ v = .missing := by
  cases form with
  | atom => exact Iff.rfl
  | array listed =>
    refine iff_of_false Value.noConfusion fun lost => ?_
    rw [lost] at listed
    cases listed
  | named parts =>
    refine iff_of_false Value.noConfusion fun lost => ?_
    rw [lost] at parts
    rcases parts with keyed | same
    · cases keyed
    · cases same

theorem resolving_commutes_with_view (entity : Value) (data : Data entity) (isRecord : IsRecord entity) :
    ∃ v, view entity = .ok v ∧ ∀ path,
      (Path.resolve v path = .missing ↔ Path.resolve entity path = .missing) ∧
      PlainForm (Path.resolve entity path) (Path.resolve v path) ∧
      plain (Path.resolve entity path) = .ok (Path.resolve v path) := by
  obtain ⟨v, viewed, resolves⟩ := view_resolves entity data isRecord
  refine ⟨v, viewed, fun path => ?_⟩
  obtain ⟨found, plainFound⟩ := resolves path
  have form := plain_form _ _ found plainFound
  exact ⟨plain_missing_iff _ _ form, form, plainFound⟩

theorem nested_list_resolves_to_tuple :
    let owner : Value := .struct [("name", .text "X"), ("codes", .list [.int 1, .tuple [.null]])]
    let entity : Value := .mapping [(.text "owner", owner), (.text "note", .null)]
    ∃ v, view entity = .ok v ∧ Path.resolve v "owner.codes" = .tuple [.int 1, .tuple [.null]] ∧
      Path.resolve v "note" = .null ∧ Path.resolve v "note.deeper" = .missing := by
  intro owner entity
  have ownerData : Data owner := by
    refine .struct (by decide) (by decide) fun field member => ?_
    rcases List.mem_cons.mp member with rfl | member
    · exact .atom (.text "X")
    · cases List.mem_singleton.mp member
      exact .array rfl (by simpa using ⟨.atom (.int 1), .array rfl (by simpa using .atom .null)⟩)
  have data : Data entity := by
    have keyed : entity.entries? = some (textKeyed [("owner", owner), ("note", .null)]) := rfl
    refine .mapping keyed (by decide) fun field member => ?_
    rcases List.mem_cons.mp member with rfl | member
    · exact ownerData
    · cases List.mem_singleton.mp member
      exact .atom .null
  obtain ⟨v, viewed, resolves⟩ := resolving_commutes_with_view entity data (.mapping _)
  refine ⟨v, viewed, ?_, ?_, (resolves "note.deeper").1.mpr rfl⟩
  · exact (Except.ok.inj (resolves "owner.codes").2.2).symm
  · exact (Except.ok.inj (resolves "note").2.2).symm

end Record

end TagRules
