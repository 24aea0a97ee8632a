import TagRules.Assignment.Basic

set_option autoImplicit false

namespace TagRules.AssignmentTable

def link? (client tag : String) (table : AssignmentTable) : Option Assignment :=
  Dictionary.get? (client, tag) table

def Linked (auto : Bool) (client tag : String) (table : AssignmentTable) : Prop :=
  ∃ a, link? client tag table = some a ∧ a.auto = auto

abbrev HasAuto := Linked true

abbrev HasManual := Linked false

theorem link_assign_manually (c t client tag : String) (table : AssignmentTable) :
    link? c t (assignManually client tag table) =
      if (client, tag) = (c, t) then some ⟨tag, false, some client⟩ else link? c t table :=
  Dictionary.get_put _ _ _ _

theorem link_add_auto (c t client tag : String) (table : AssignmentTable) :
    link? c t (addAuto client tag table) =
      if (client, tag) = (c, t) then some ((link? c t table).getD ⟨tag, true, some client⟩)
      else link? c t table := by
  unfold addAuto link?
  cases found : Dictionary.get? (client, tag) table with
  | none =>
    simp only [Dictionary.get_put]
    by_cases same : (client, tag) = (c, t)
    · rw [if_pos same, if_pos same, ← same, found, Option.getD_none]
    · rw [if_neg same, if_neg same]
  | some a =>
    by_cases same : (client, tag) = (c, t)
    · rw [if_pos same, ← same, found, Option.getD_some]
    · rw [if_neg same]

theorem link_remove_auto (c t client tag : String) (table : AssignmentTable) :
    link? c t (removeAuto client tag table) =
      if (client, tag) = (c, t) then (link? c t table).filter (fun a => !a.auto)
      else link? c t table := by
  unfold removeAuto link?
  cases found : Dictionary.get? (client, tag) table with
  | none =>
    by_cases same : (client, tag) = (c, t)
    · rw [if_pos same, ← same, found, Option.filter_none]
    · rw [if_neg same]
  | some a =>
    by_cases same : (client, tag) = (c, t)
    · rw [if_pos same, ← same, found]
      cases auto : a.auto <;> simp [auto, found, Dictionary.get_erase, Option.filter_some]
    · rw [if_neg same]
      cases auto : a.auto <;> simp [auto, same, Dictionary.get_erase]

def addAll (pairs : List (String × String)) (table : AssignmentTable) : AssignmentTable :=
  pairs.foldl (fun t pair => addAuto pair.1 pair.2 t) table

def removeAll (pairs : List (String × String)) (table : AssignmentTable) : AssignmentTable :=
  pairs.foldl (fun t pair => removeAuto pair.1 pair.2 t) table

theorem add_all_cons (client tag : String) (rest : List (String × String)) (table : AssignmentTable) :
    addAll ((client, tag) :: rest) table = addAll rest (addAuto client tag table) := rfl

theorem remove_all_cons (client tag : String) (rest : List (String × String))
    (table : AssignmentTable) :
    removeAll ((client, tag) :: rest) table = removeAll rest (removeAuto client tag table) := rfl

def change (added removed : List (String × String)) (table : AssignmentTable) : AssignmentTable :=
  removeAll removed (addAll added table)

theorem apply_diff_eq_change (client : String) (diff : Diff) (table : AssignmentTable) :
    applyDiff client diff table =
      change (diff.toAdd.map fun tag => (client, tag)) (diff.toRemove.map fun tag => (client, tag))
        table := by
  simp only [applyDiff, change, addAll, removeAll, List.foldl_map]

theorem apply_empty_diff (client : String) (diff : Diff) (table : AssignmentTable)
    (nothing : diff.isEmpty = true) : applyDiff client diff table = table := by
  obtain ⟨toAdd, toRemove⟩ := diff
  obtain ⟨rfl, rfl⟩ : toAdd = [] ∧ toRemove = [] := by simpa [Diff.isEmpty] using nothing
  rfl

theorem apply_tag_diff_eq_change (diff : TagDiff) (table : AssignmentTable) :
    applyTagDiff diff table =
      change (diff.toAdd.map fun client => (client, diff.tag))
        (diff.toRemove.map fun client => (client, diff.tag)) table := by
  simp only [applyTagDiff, change, addAll, removeAll, List.foldl_map]

theorem apply_empty_tag_diff (diff : TagDiff) (table : AssignmentTable)
    (nothing : diff.isEmpty = true) : applyTagDiff diff table = table := by
  obtain ⟨tag, toAdd, toRemove⟩ := diff
  obtain ⟨rfl, rfl⟩ : toAdd = [] ∧ toRemove = [] := by simpa [TagDiff.isEmpty] using nothing
  rfl

theorem link_add_all (c t : String) (pairs : List (String × String)) (table : AssignmentTable) :
    link? c t (addAll pairs table) =
      if (c, t) ∈ pairs then some ((link? c t table).getD ⟨t, true, some c⟩)
      else link? c t table := by
  induction pairs generalizing table with
  | nil => rfl
  | cons pair rest ih =>
    obtain ⟨client, tag⟩ := pair
    rw [add_all_cons, ih, link_add_auto]
    by_cases same : (client, tag) = (c, t)
    · obtain ⟨rfl, rfl⟩ := Prod.mk.injEq _ _ _ _ ▸ same
      simp
    · simp [same, Ne.symm same]

theorem link_remove_all (c t : String) (pairs : List (String × String)) (table : AssignmentTable) :
    link? c t (removeAll pairs table) =
      if (c, t) ∈ pairs then (link? c t table).filter (fun a => !a.auto) else link? c t table := by
  induction pairs generalizing table with
  | nil => rfl
  | cons pair rest ih =>
    obtain ⟨client, tag⟩ := pair
    rw [remove_all_cons, ih, link_remove_auto]
    by_cases same : (client, tag) = (c, t)
    · simp [same, Option.filter_filter]
    · simp [same, Ne.symm same]

theorem link_change (c t : String) (added removed : List (String × String))
    (table : AssignmentTable) :
    link? c t (change added removed table) =
      let kept := if (c, t) ∈ added then some ((link? c t table).getD ⟨t, true, some c⟩)
        else link? c t table
      if (c, t) ∈ removed then kept.filter (fun a => !a.auto) else kept := by
  rw [change, link_remove_all, link_add_all]

theorem manual_link_change (c t : String) (added removed : List (String × String))
    (table : AssignmentTable) (a : Assignment) (manual : a.auto = false) :
    link? c t (change added removed table) = some a ↔ link? c t table = some a := by
  rw [link_change]
  cases found : link? c t table with
  | none =>
    have fresh : (⟨t, true, some c⟩ : Assignment) ≠ a := by
      intro same
      rw [← same] at manual
      exact Bool.noConfusion manual
    by_cases isAdded : (c, t) ∈ added <;> by_cases isRemoved : (c, t) ∈ removed <;>
      simp [isAdded, isRemoved, fresh]
  | some old =>
    by_cases isRemoved : (c, t) ∈ removed
    · simp only [Option.getD_some, ite_self, if_pos isRemoved, Option.filter_eq_some_iff]
      constructor
      · exact And.left
      · intro same
        refine ⟨same, ?_⟩
        simp [manual]
    · simp [isRemoved]

theorem change_keeps (P : AssignmentTable → Prop) (added removed : List (String × String))
    (table : AssignmentTable) (start : P table)
    (adding : ∀ pair ∈ added, ∀ t, P t → P (addAuto pair.1 pair.2 t))
    (removing : ∀ pair ∈ removed, ∀ t, P t → P (removeAuto pair.1 pair.2 t)) :
    P (change added removed table) := by
  have afterAdding : P (addAll added table) :=
    List.foldlRecOn added _ start fun t kept pair member => adding pair member t kept
  exact List.foldlRecOn removed _ afterAdding fun t kept pair member => removing pair member t kept

theorem add_auto_apart (p : String × String → Bool) (client tag : String) (table : AssignmentTable)
    (apart : p (client, tag) = false) :
    (addAuto client tag table).filter (fun entry => p entry.1) =
      table.filter fun entry => p entry.1 := by
  unfold addAuto
  split
  · rfl
  · exact Dictionary.filter_put p _ _ table apart

theorem remove_auto_apart (p : String × String → Bool) (client tag : String)
    (table : AssignmentTable) (apart : p (client, tag) = false) :
    (removeAuto client tag table).filter (fun entry => p entry.1) =
      table.filter fun entry => p entry.1 := by
  unfold removeAuto
  split
  · rfl
  · split
    · exact Dictionary.filter_erase p _ table apart
    · rfl

theorem change_apart (p : String × String → Bool) (added removed : List (String × String))
    (table : AssignmentTable) (addedApart : ∀ pair ∈ added, p pair = false)
    (removedApart : ∀ pair ∈ removed, p pair = false) :
    (change added removed table).filter (fun entry => p entry.1) =
      table.filter fun entry => p entry.1 := by
  apply change_keeps fun t => t.filter (fun entry => p entry.1) = table.filter fun entry => p entry.1
  · rfl
  · intro pair member t kept
    rw [add_auto_apart p _ _ t (addedApart pair member), kept]
  · intro pair member t kept
    rw [remove_auto_apart p _ _ t (removedApart pair member), kept]

theorem add_auto_within (p : String × String → Bool) (client tag : String) (table : AssignmentTable)
    (within : p (client, tag) = true) :
    (addAuto client tag table).filter (fun entry => p entry.1) =
      addAuto client tag (table.filter fun entry => p entry.1) := by
  unfold addAuto
  rw [Dictionary.get_filter p _ table within]
  split
  · rfl
  · exact Dictionary.filter_put_within p _ _ table within

theorem remove_auto_within (p : String × String → Bool) (client tag : String)
    (table : AssignmentTable) (within : p (client, tag) = true) :
    (removeAuto client tag table).filter (fun entry => p entry.1) =
      removeAuto client tag (table.filter fun entry => p entry.1) := by
  unfold removeAuto
  rw [Dictionary.get_filter p _ table within]
  split
  · rfl
  · split
    · exact Dictionary.filter_erase_within p _ table
    · rfl

theorem foldl_commutes {α β : Type} (f : β → β) (step : β → α → β) (items : List α)
    (each : ∀ item ∈ items, ∀ b, f (step b item) = step (f b) item) (b : β) :
    f (items.foldl step b) = items.foldl step (f b) := by
  induction items generalizing b with
  | nil => rfl
  | cons item rest ih =>
    obtain ⟨here, later⟩ := List.forall_mem_cons.mp each
    rw [List.foldl_cons, ih later, here, List.foldl_cons]

theorem change_within (p : String × String → Bool) (added removed : List (String × String))
    (table : AssignmentTable) (addedWithin : ∀ pair ∈ added, p pair = true)
    (removedWithin : ∀ pair ∈ removed, p pair = true) :
    (change added removed table).filter (fun entry => p entry.1) =
      change added removed (table.filter fun entry => p entry.1) := by
  let kept := List.filter (fun entry : (String × String) × Assignment => p entry.1)
  let adding := fun (t : AssignmentTable) (pair : String × String) => addAuto pair.1 pair.2 t
  let removing := fun (t : AssignmentTable) (pair : String × String) => removeAuto pair.1 pair.2 t
  calc kept (removeAll removed (addAll added table))
      = removeAll removed (kept (addAll added table)) :=
        foldl_commutes kept removing removed
          (fun pair member t => remove_auto_within p pair.1 pair.2 t (removedWithin pair member))
          (addAll added table)
    _ = removeAll removed (addAll added (kept table)) :=
        congrArg (removeAll removed) (foldl_commutes kept adding added
          (fun pair member t => add_auto_within p pair.1 pair.2 t (addedWithin pair member)) table)

-- Pairs have one link each, which is named by its client and its tag.
structure Coherent (table : AssignmentTable) : Prop where
  distinct : (Dictionary.keys table).Nodup
  named : ∀ client tag a, ((client, tag), a) ∈ table → a.client = some client ∧ a.tag = tag

theorem coherent_empty : Coherent [] := ⟨List.nodup_nil, by simp⟩

theorem coherent_put (client tag : String) (a : Assignment) (table : AssignmentTable)
    (ofClient : a.client = some client) (ofTag : a.tag = tag) (coherent : Coherent table) :
    Coherent (Dictionary.put (client, tag) a table) := by
  constructor
  · exact Dictionary.nodup_keys_put _ a table coherent.distinct
  · intro c t b member
    rcases Dictionary.mem_put member with fresh | old
    · obtain ⟨⟨rfl, rfl⟩, rfl⟩ : (c = client ∧ t = tag) ∧ b = a := by simpa using fresh
      exact ⟨ofClient, ofTag⟩
    · exact coherent.named c t b old

theorem coherent_erase (key : String × String) (table : AssignmentTable) (coherent : Coherent table) :
    Coherent (Dictionary.erase key table) := by
  constructor
  · rw [Dictionary.keys_erase]
    exact coherent.distinct.filter _
  · intro c t b member
    exact coherent.named c t b (Dictionary.mem_erase member)

theorem coherent_assign_manually (client tag : String) (table : AssignmentTable)
    (coherent : Coherent table) : Coherent (assignManually client tag table) :=
  coherent_put client tag _ table rfl rfl coherent

theorem coherent_add_auto (client tag : String) (table : AssignmentTable)
    (coherent : Coherent table) : Coherent (addAuto client tag table) := by
  unfold addAuto
  split
  · exact coherent
  · exact coherent_put client tag _ table rfl rfl coherent

theorem coherent_remove_auto (client tag : String) (table : AssignmentTable)
    (coherent : Coherent table) : Coherent (removeAuto client tag table) := by
  unfold removeAuto
  split
  · exact coherent
  · split
    · exact coherent_erase _ table coherent
    · exact coherent

theorem coherent_change (added removed : List (String × String)) (table : AssignmentTable)
    (coherent : Coherent table) : Coherent (change added removed table) :=
  change_keeps Coherent added removed table coherent
    (fun pair _ t kept => coherent_add_auto pair.1 pair.2 t kept)
    (fun pair _ t kept => coherent_remove_auto pair.1 pair.2 t kept)

theorem coherent_add_all (pairs : List (String × String)) (table : AssignmentTable)
    (coherent : Coherent table) : Coherent (addAll pairs table) :=
  coherent_change pairs [] table coherent

theorem Coherent.mem_iff {table : AssignmentTable} (coherent : Coherent table) (client tag : String)
    (a : Assignment) : ((client, tag), a) ∈ table ↔ link? client tag table = some a :=
  (Dictionary.get_some_iff coherent.distinct (client, tag) a).symm

theorem Coherent.mem_listed_iff {table : AssignmentTable} (coherent : Coherent table)
    (p : String × String → Bool) (a : Assignment) :
    a ∈ Dictionary.values (table.filter fun entry => p entry.1) ↔
      ∃ client tag, p (client, tag) = true ∧ link? client tag table = some a := by
  constructor
  · intro member
    obtain ⟨⟨⟨client, tag⟩, b⟩, listed, rfl⟩ := List.mem_map.mp member
    obtain ⟨inTable, wanted⟩ := List.mem_filter.mp listed
    exact ⟨client, tag, wanted, (coherent.mem_iff client tag b).mp inTable⟩
  · rintro ⟨client, tag, wanted, found⟩
    have inTable := (coherent.mem_iff client tag a).mpr found
    exact List.mem_map.mpr ⟨((client, tag), a), List.mem_filter.mpr ⟨inTable, wanted⟩, rfl⟩

theorem Coherent.mem_of_client_iff {table : AssignmentTable} (coherent : Coherent table)
    (client : String) (a : Assignment) :
    a ∈ ofClient client table ↔ ∃ tag, link? client tag table = some a := by
  simpa [ofClient] using coherent.mem_listed_iff (fun key => decide (key.1 = client)) a

theorem Coherent.mem_of_tag_iff {table : AssignmentTable} (coherent : Coherent table)
    (tag : String) (a : Assignment) :
    a ∈ ofTag tag table ↔ ∃ client, link? client tag table = some a := by
  simpa [ofTag] using coherent.mem_listed_iff (fun key => decide (key.2 = tag)) a

theorem Coherent.link_named {table : AssignmentTable} (coherent : Coherent table)
    {client tag : String} {a : Assignment} (found : link? client tag table = some a) :
    a.client = some client ∧ a.tag = tag :=
  coherent.named client tag a ((coherent.mem_iff client tag a).mpr found)

theorem Coherent.listed_iff_linked {table : AssignmentTable} (coherent : Coherent table)
    (auto : Bool) (client tag : String) :
    (∃ a ∈ ofClient client table, a.auto = auto ∧ a.tag = tag) ↔ Linked auto client tag table := by
  constructor
  · rintro ⟨a, listed, kind, rfl⟩
    obtain ⟨tag, found⟩ := (coherent.mem_of_client_iff client a).mp listed
    rw [(coherent.link_named found).2]
    exact ⟨a, found, kind⟩
  · rintro ⟨a, found, kind⟩
    have listed := (coherent.mem_of_client_iff client a).mpr ⟨tag, found⟩
    exact ⟨a, listed, kind, (coherent.link_named found).2⟩

theorem Coherent.nodup_values {table : AssignmentTable} (coherent : Coherent table) :
    (Dictionary.values table).Nodup := by
  have keysTold : (Dictionary.values table).map (fun a => (a.client.getD "", a.tag)) =
      Dictionary.keys table := by
    rw [Dictionary.values, List.map_map]
    apply List.map_congr_left
    rintro ⟨⟨client, tag⟩, a⟩ member
    obtain ⟨ofClient, ofTag⟩ := coherent.named client tag a member
    simp [ofClient, ofTag]
  have toldApart : ((Dictionary.values table).map fun a => (a.client.getD "", a.tag)).Nodup := by
    rw [keysTold]
    exact coherent.distinct
  exact List.Pairwise.of_map _ (fun a b different same => different (by rw [same])) toldApart

theorem Coherent.nodup_of_client {table : AssignmentTable} (coherent : Coherent table)
    (client : String) : (ofClient client table).Nodup :=
  coherent.nodup_values.sublist (List.filter_sublist.map _)

theorem Coherent.nodup_of_tag {table : AssignmentTable} (coherent : Coherent table)
    (tag : String) : (ofTag tag table).Nodup :=
  coherent.nodup_values.sublist (List.filter_sublist.map _)

theorem unlinked_iff (client tag : String) (table : AssignmentTable) :
    link? client tag table = none ↔ ¬ HasAuto client tag table ∧ ¬ HasManual client tag table := by
  cases found : link? client tag table with
  | none => simp [Linked, found]
  | some a => cases auto : a.auto <;> simp [Linked, found, auto]

def linksOf (client : String) (table : AssignmentTable) : AssignmentTable :=
  table.filter fun entry => decide (entry.1.1 = client)

theorem link_of_links_of (client tag : String) (table : AssignmentTable) :
    link? client tag (linksOf client table) = link? client tag table :=
  Dictionary.get_filter (fun key : String × String => decide (key.1 = client)) (client, tag) table
    (by simp)

theorem links_of_own_diff (client : String) (diff : Diff) (table : AssignmentTable) :
    linksOf client (applyDiff client diff table) = applyDiff client diff (linksOf client table) := by
  rw [apply_diff_eq_change, apply_diff_eq_change]
  apply change_within fun key => decide (key.1 = client)
  all_goals simp

theorem links_of_other_diff (client other : String) (different : other ≠ client) (diff : Diff)
    (table : AssignmentTable) : linksOf other (applyDiff client diff table) = linksOf other table := by
  rw [apply_diff_eq_change]
  apply change_apart fun key => decide (key.1 = other)
  all_goals simp [Ne.symm different]

theorem Coherent.nodup {table : AssignmentTable} (coherent : Coherent table) : table.Nodup :=
  List.Pairwise.of_map Prod.fst (fun _ _ different same => different (by rw [same]))
    coherent.distinct

theorem Coherent.perm_of_links {one other : AssignmentTable} (coherent : Coherent one)
    (otherCoherent : Coherent other) (same : ∀ client, linksOf client one = linksOf client other) :
    one.Perm other := by
  rw [List.perm_ext_iff_of_nodup coherent.nodup otherCoherent.nodup]
  rintro ⟨⟨client, tag⟩, a⟩
  rw [coherent.mem_iff, otherCoherent.mem_iff, ← link_of_links_of, same, link_of_links_of]

end TagRules.AssignmentTable
