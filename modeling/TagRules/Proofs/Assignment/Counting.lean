import TagRules.Proofs.Assignment.ByTag

set_option autoImplicit false

namespace TagRules

namespace AssignmentTable

def autoLinks (table : AssignmentTable) : Nat := table.countP fun entry => entry.2.auto

def isAuto (client tag : String) (table : AssignmentTable) : Bool :=
  (link? client tag table).any (·.auto)

theorem is_auto_counted (client tag : String) (table : AssignmentTable) :
    ((Dictionary.get? (client, tag) table).map fun old => old.auto.toNat).getD 0 =
      (isAuto client tag table).toNat := by
  unfold isAuto link?
  cases Dictionary.get? (client, tag) table <;> rfl

theorem auto_links_assign_manually (client tag : String) (table : AssignmentTable) :
    autoLinks (assignManually client tag table) + (isAuto client tag table).toNat =
      autoLinks table := by
  have counted := Dictionary.count_put (fun entry => entry.2.auto) (client, tag)
    (⟨tag, false, some client⟩ : Assignment) table
  rw [is_auto_counted] at counted
  exact counted

theorem auto_links_add (client tag : String) (table : AssignmentTable)
    (unlinked : link? client tag table = none) :
    autoLinks (addAuto client tag table) = autoLinks table + 1 := by
  have counted := Dictionary.count_put (fun entry => entry.2.auto) (client, tag)
    (⟨tag, true, some client⟩ : Assignment) table
  rw [link?] at unlinked
  rw [addAuto, unlinked]
  simpa [autoLinks, unlinked] using counted

theorem auto_links_remove (client tag : String) (table : AssignmentTable)
    (coherent : Coherent table) (automatic : HasAuto client tag table) :
    autoLinks (removeAuto client tag table) + 1 = autoLinks table := by
  obtain ⟨a, found, auto⟩ := automatic
  have counted := Dictionary.count_erase (fun entry => entry.2.auto) (client, tag) table
    coherent.distinct
  rw [link?] at found
  rw [removeAuto, found]
  simpa [autoLinks, found, auto] using counted

theorem auto_links_add_all (pairs : List (String × String)) (table : AssignmentTable)
    (once : pairs.Nodup) (unlinked : ∀ pair ∈ pairs, link? pair.1 pair.2 table = none) :
    autoLinks (addAll pairs table) = autoLinks table + pairs.length := by
  induction pairs generalizing table with
  | nil => rfl
  | cons pair rest ih =>
    obtain ⟨client, tag⟩ := pair
    obtain ⟨fresh, restOnce⟩ := List.nodup_cons.mp once
    obtain ⟨here, later⟩ := List.forall_mem_cons.mp unlinked
    have stillUnlinked : ∀ pair ∈ rest, link? pair.1 pair.2 (addAuto client tag table) = none := by
      intro pair member
      have different : (client, tag) ≠ (pair.1, pair.2) := fun same => fresh (same ▸ member)
      rw [link_add_auto, if_neg different]
      exact later pair member
    have others := ih (addAuto client tag table) restOnce stillUnlinked
    have added := auto_links_add client tag table here
    rw [add_all_cons, List.length_cons]
    omega

theorem auto_links_remove_all (pairs : List (String × String)) (table : AssignmentTable)
    (coherent : Coherent table) (once : pairs.Nodup)
    (automatic : ∀ pair ∈ pairs, HasAuto pair.1 pair.2 table) :
    autoLinks (removeAll pairs table) + pairs.length = autoLinks table := by
  induction pairs generalizing table with
  | nil => rfl
  | cons pair rest ih =>
    obtain ⟨client, tag⟩ := pair
    obtain ⟨fresh, restOnce⟩ := List.nodup_cons.mp once
    obtain ⟨here, later⟩ := List.forall_mem_cons.mp automatic
    have stillAuto : ∀ pair ∈ rest, HasAuto pair.1 pair.2 (removeAuto client tag table) := by
      intro pair member
      have different : (client, tag) ≠ (pair.1, pair.2) := fun same => fresh (same ▸ member)
      rw [HasAuto, Linked, link_remove_auto, if_neg different]
      exact later pair member
    have others := ih (removeAuto client tag table) (coherent_remove_auto client tag table coherent)
      restOnce stillAuto
    have removed := auto_links_remove client tag table coherent here
    rw [remove_all_cons, List.length_cons]
    omega

-- A change that adds only what is not there and removes only automatic links, each once.
structure Exact (added removed : List (String × String)) (table : AssignmentTable) : Prop where
  addedOnce : added.Nodup
  removedOnce : removed.Nodup
  unlinked : ∀ pair ∈ added, link? pair.1 pair.2 table = none
  automatic : ∀ pair ∈ removed, HasAuto pair.1 pair.2 table

theorem Exact.auto_links {added removed : List (String × String)} {table : AssignmentTable}
    (coherent : Coherent table) (exact : Exact added removed table) :
    autoLinks (change added removed table) + removed.length = autoLinks table + added.length := by
  have stillAuto : ∀ pair ∈ removed, HasAuto pair.1 pair.2 (addAll added table) := by
    intro pair member
    obtain ⟨a, found, auto⟩ := exact.automatic pair member
    refine ⟨a, ?_, auto⟩
    rw [link_add_all, found, Option.getD_some, ite_self]
  have coherentThen := coherent_add_all added table coherent
  have counted := auto_links_remove_all removed _ coherentThen exact.removedOnce stillAuto
  rw [change, counted, auto_links_add_all added table exact.addedOnce exact.unlinked]

end AssignmentTable

namespace Reconcile

open AssignmentTable

theorem matching_once (record : Value) (tags : List Tag) (ids : List String)
    (found : (matching record tags).result = .ok ids) : ids.Nodup := by
  rw [matching_eq_distinct record tags (matching_evaluates record tags ids found)] at found
  cases found
  exact nodup_erase_dups _

theorem diff_exact (desired : List String) (once : desired.Nodup) (table : AssignmentTable)
    (coherent : Coherent table) (client : String) :
    let diff := diffOf desired (ofClient client table)
    Exact (diff.toAdd.map fun tag => (client, tag)) (diff.toRemove.map fun tag => (client, tag))
      table := by
  intro diff
  have apart : ∀ tag other : String, tag ≠ other → (client, tag) ≠ (client, other) :=
    fun tag other different same => different (Prod.mk.inj same).2
  constructor
  · exact List.Pairwise.map _ apart (nodup_to_add desired _ once)
  · exact List.Pairwise.map _ apart (nodup_to_remove desired _)
  · intro pair member
    obtain ⟨tag, added, rfl⟩ := List.mem_map.mp member
    exact ((mem_to_add desired table coherent client tag).mp added).2
  · intro pair member
    obtain ⟨tag, removed, rfl⟩ := List.mem_map.mp member
    exact ((mem_to_remove desired table coherent client tag).mp removed).1

theorem auto_links_settled (desired : List String) (once : desired.Nodup) (table : AssignmentTable)
    (coherent : Coherent table) (client : String) :
    let diff := diffOf desired (ofClient client table)
    autoLinks (applyDiff client diff table) + diff.toRemove.length =
      autoLinks table + diff.toAdd.length := by
  have counted := (diff_exact desired once table coherent client).auto_links coherent
  simpa only [apply_diff_eq_change, List.length_map] using counted

theorem sort_clients_evaluates (c : Condition) (auto manual : List String)
    (clients : Dictionary String Value) (found : List String × List String)
    (sorted : (sortClients c auto manual clients).result = .ok found) :
    ∀ client ∈ clients, ∃ holds, (c.evaluate client.2).result = .ok holds := by
  induction clients generalizing found with
  | nil => simp
  | cons client rest ih =>
    simp only [sortClients, Traced.result_bind, Traced.result_map] at sorted
    cases verdict : (c.evaluate client.2).result with
    | error e => simp [verdict, Except.bind] at sorted
    | ok holds =>
      cases others : (sortClients c auto manual rest).result with
      | error e => simp [verdict, others, Except.bind, Except.map] at sorted
      | ok later => exact List.forall_mem_cons.mpr ⟨⟨holds, verdict⟩, ih later others⟩

theorem tag_evaluates (tag : Tag) (clients : Dictionary String Value)
    (assignments : List Assignment) (diff : TagDiff)
    (found : (Reconcile.tag tag clients assignments).result = .ok diff) :
    ∀ client ∈ clients, Evaluates client.2 [tag] := by
  intro client member other listed c condition
  obtain rfl : other = tag := List.mem_singleton.mp listed
  rw [Reconcile.tag, condition] at found
  dsimp only at found
  rw [Traced.result_map] at found
  generalize (clientsWhere other.id (·.auto) assignments).eraseDups = auto at found
  generalize clientsWhere other.id (fun a => !a.auto) assignments = manual at found
  cases sorted : (sortClients c auto manual clients).result with
  | error e => simp [sorted, Except.map] at found
  | ok sides => exact sort_clients_evaluates c auto manual clients sides sorted client member

theorem tag_diff_found (tag : Tag) (clients : Dictionary String Value)
    (assignments : List Assignment) (diff : TagDiff)
    (found : (Reconcile.tag tag clients assignments).result = .ok diff) :
    diff = tagDiffOf tag clients assignments :=
  Except.ok.inj (found.symm.trans
    (tag_found tag clients assignments (tag_evaluates tag clients assignments diff found)))

theorem nodup_clients_that (p : String → Value → Bool) (clients : Dictionary String Value)
    (distinctClients : clients.keys.Nodup) : (clientsThat p clients).Nodup :=
  distinctClients.sublist (List.filter_sublist.map Prod.fst)

theorem tag_diff_exact (tag : Tag) (clients : Dictionary String Value)
    (distinctClients : clients.keys.Nodup) (table : AssignmentTable) (coherent : Coherent table) :
    let diff := tagDiffOf tag clients (ofTag tag.id table)
    Exact (diff.toAdd.map fun client => (client, tag.id))
      (diff.toRemove.map fun client => (client, tag.id)) table := by
  intro diff
  have apart : ∀ client other : String, client ≠ other → (client, tag.id) ≠ (other, tag.id) :=
    fun client other different same => different (Prod.mk.inj same).1
  cases condition : tag.condition with
  | none =>
    have all : diff = ⟨tag.id, [], (clientsWhere tag.id (·.auto) (ofTag tag.id table)).eraseDups⟩ := by
      simp only [diff, tagDiffOf, condition]
    rw [all]
    constructor
    · exact List.nodup_nil
    · exact List.Pairwise.map _ apart (nodup_erase_dups _)
    · simp
    · intro pair member
      obtain ⟨client, removed, rfl⟩ := List.mem_map.mp member
      exact (auto_between table coherent client tag.id).mp
        ((mem_clients_where client tag.id (·.auto) _).mp (List.mem_eraseDups.mp removed))
  | some c =>
    have conditioned : tag.condition.isSome = true := by rw [condition]; rfl
    have sides : ∃ p q, diff.toAdd = clientsThat p clients ∧ diff.toRemove = clientsThat q clients := by
      simp only [diff, tagDiffOf, condition]
      exact ⟨_, _, rfl, rfl⟩
    obtain ⟨p, q, toAdd, toRemove⟩ := sides
    have listed : ∀ p client, client ∈ clientsThat p clients → ∃ record, (client, record) ∈ clients := by
      intro p client member
      obtain ⟨entry, known, rfl⟩ := List.mem_map.mp (clients_that_listed p clients client member)
      exact ⟨entry.2, known⟩
    constructor
    · rw [toAdd]
      exact List.Pairwise.map _ apart (nodup_clients_that p clients distinctClients)
    · rw [toRemove]
      exact List.Pairwise.map _ apart (nodup_clients_that q clients distinctClients)
    · intro pair member
      obtain ⟨client, added, rfl⟩ := List.mem_map.mp member
      obtain ⟨record, known⟩ := listed p client (toAdd ▸ added)
      exact ((mem_tag_to_add tag conditioned clients distinctClients table coherent client record
        known).mp added).2
    · intro pair member
      obtain ⟨client, removed, rfl⟩ := List.mem_map.mp member
      obtain ⟨record, known⟩ := listed q client (toRemove ▸ removed)
      exact ((mem_tag_to_remove tag conditioned clients distinctClients table coherent client record
        known).mp removed).2

theorem auto_links_settled_tag (tag : Tag) (clients : Dictionary String Value)
    (distinctClients : clients.keys.Nodup) (table : AssignmentTable) (coherent : Coherent table) :
    let diff := tagDiffOf tag clients (ofTag tag.id table)
    autoLinks (applyTagDiff diff table) + diff.toRemove.length =
      autoLinks table + diff.toAdd.length := by
  have counted := (tag_diff_exact tag clients distinctClients table coherent).auto_links coherent
  simpa only [apply_tag_diff_eq_change, tag_diff_of_tag, List.length_map] using counted

end Reconcile

end TagRules
