import TagRules.Assignment.Reconcile
import TagRules.Proofs.Assignment.Links

set_option autoImplicit false

namespace TagRules.Reconcile

open AssignmentTable

def Matches (record : Value) (tags : List Tag) (id : String) : Prop :=
  ∃ tag ∈ tags, tag.id = id ∧ ∃ c, tag.condition = some c ∧ (c.evaluate record).result = .ok true

def Evaluates (record : Value) (tags : List Tag) : Prop :=
  ∀ tag ∈ tags, ∀ c, tag.condition = some c → ∃ holds, (c.evaluate record).result = .ok holds

def satisfies (record : Value) (tag : Tag) : Bool :=
  match tag.condition with
  | none => false
  | some c => Value.holds (c.evaluate record).result

theorem satisfies_iff (record : Value) (tag : Tag) :
    satisfies record tag = true ↔ ∃ c, tag.condition = some c ∧ (c.evaluate record).result = .ok true := by
  rw [satisfies]
  cases tag.condition with
  | none => simp
  | some c => cases verdict : (c.evaluate record).result <;> simp [Value.holds, verdict]

theorem matching_eq_distinct (record : Value) (tags : List Tag) (evaluates : Evaluates record tags) :
    (matching record tags).result = .ok ((tags.filter (satisfies record)).map (·.id)).eraseDups := by
  induction tags with
  | nil => rfl
  | cons tag rest ih =>
    have later := ih fun other member => evaluates other (List.mem_cons_of_mem _ member)
    cases condition : tag.condition with
    | none => simp [matching, satisfies, condition, later]
    | some c =>
      obtain ⟨holds, verdict⟩ := evaluates tag List.mem_cons_self c condition
      cases holds <;>
        simp [matching, satisfies, condition, verdict, later, erase_dups_cons, Value.holds, Except.bind,
          Except.map]

theorem matching_evaluates (record : Value) (tags : List Tag) (ids : List String)
    (found : (matching record tags).result = .ok ids) : Evaluates record tags := by
  induction tags generalizing ids with
  | nil => exact fun tag member => absurd member List.not_mem_nil
  | cons tag rest ih =>
    cases condition : tag.condition with
    | none =>
      rw [matching, condition] at found
      refine List.forall_mem_cons.mpr ⟨fun c same => ?_, ih ids found⟩
      cases condition.symm.trans same
    | some c =>
      simp only [matching, condition, Traced.result_bind, Traced.result_map] at found
      cases verdict : (c.evaluate record).result with
      | error e => simp [verdict, Except.bind] at found
      | ok holds =>
        cases others : (matching record rest).result with
        | error e => simp [verdict, others, Except.bind, Except.map] at found
        | ok later =>
          refine List.forall_mem_cons.mpr ⟨fun other same => ?_, ih later others⟩
          obtain rfl : c = other := Option.some.inj (condition.symm.trans same)
          exact ⟨holds, verdict⟩

theorem matching_found (record : Value) (tags : List Tag) (evaluates : Evaluates record tags) :
    ∃ ids, (matching record tags).result = .ok ids ∧ ids.Nodup ∧
      ∀ id, id ∈ ids ↔ Matches record tags id := by
  refine ⟨_, matching_eq_distinct record tags evaluates, nodup_erase_dups _, fun id => ?_⟩
  simp only [List.mem_eraseDups, List.mem_map, List.mem_filter, satisfies_iff, Matches]
  exact exists_congr fun tag => and_assoc.trans (and_congr_right fun _ => and_comm)

theorem mem_auto_tags (table : AssignmentTable) (coherent : Coherent table) (client id : String) :
    id ∈ autoTags (ofClient client table) ↔ HasAuto client id table := by
  rw [HasAuto, ← coherent.listed_iff_linked]
  simp [autoTags, List.mem_eraseDups, and_assoc]

theorem mem_manual_tags (table : AssignmentTable) (coherent : Coherent table) (client id : String) :
    id ∈ manualTags (ofClient client table) ↔ HasManual client id table := by
  rw [HasManual, ← coherent.listed_iff_linked]
  simp [manualTags, and_assoc]

theorem mem_to_add (desired : List String) (table : AssignmentTable) (coherent : Coherent table)
    (client id : String) :
    id ∈ (diffOf desired (ofClient client table)).toAdd ↔
      id ∈ desired ∧ link? client id table = none := by
  rw [unlinked_iff, ← mem_auto_tags table coherent, ← mem_manual_tags table coherent]
  simp [diffOf]

theorem mem_to_remove (desired : List String) (table : AssignmentTable) (coherent : Coherent table)
    (client id : String) :
    id ∈ (diffOf desired (ofClient client table)).toRemove ↔
      HasAuto client id table ∧ id ∉ desired := by
  rw [← mem_auto_tags table coherent]
  simp [diffOf]

def settled (client : String) (desired : List String) (table : AssignmentTable) : AssignmentTable :=
  applyDiff client (diffOf desired (ofClient client table)) table

theorem coherent_settled (desired : List String) (table : AssignmentTable)
    (coherent : Coherent table) (client : String) : Coherent (settled client desired table) := by
  rw [settled, apply_diff_eq_change]
  exact coherent_change _ _ table coherent

theorem link_settled (desired : List String) (table : AssignmentTable) (coherent : Coherent table)
    (client id : String) :
    link? client id (settled client desired table) =
      match link? client id table with
      | some a => if a.auto = false ∨ id ∈ desired then some a else none
      | none => if id ∈ desired then some ⟨id, true, some client⟩ else none := by
  have toAdd := mem_to_add desired table coherent client id
  have toRemove := mem_to_remove desired table coherent client id
  rw [settled, apply_diff_eq_change, link_change]
  cases found : link? client id table with
  | none => simp [toAdd, toRemove, Linked, found]
  | some a =>
    cases auto : a.auto <;> simp [toAdd, toRemove, Linked, found, auto, Option.filter_some]

theorem manual_link_settled (desired : List String) (table : AssignmentTable)
    (client id : String) (a : Assignment) (manual : a.auto = false) :
    link? client id (settled client desired table) = some a ↔ link? client id table = some a := by
  rw [settled, apply_diff_eq_change]
  exact manual_link_change client id _ _ table a manual

theorem has_auto_settled (desired : List String) (table : AssignmentTable)
    (coherent : Coherent table) (client id : String) :
    HasAuto client id (settled client desired table) ↔
      id ∈ desired ∧ ¬ HasManual client id table := by
  simp only [Linked, link_settled desired table coherent]
  cases found : link? client id table with
  | none => by_cases wanted : id ∈ desired <;> simp [wanted]
  | some a => cases auto : a.auto <;> by_cases wanted : id ∈ desired <;> simp [wanted, auto]

theorem to_add_created (desired : List String) (table : AssignmentTable)
    (coherent : Coherent table) (client id : String) :
    id ∈ (diffOf desired (ofClient client table)).toAdd ↔
      link? client id table = none ∧ link? client id (settled client desired table) ≠ none := by
  rw [mem_to_add desired table coherent, link_settled desired table coherent]
  cases found : link? client id table <;> simp

theorem to_remove_deleted (desired : List String) (table : AssignmentTable)
    (coherent : Coherent table) (client id : String) :
    id ∈ (diffOf desired (ofClient client table)).toRemove ↔
      link? client id table ≠ none ∧ link? client id (settled client desired table) = none := by
  rw [mem_to_remove desired table coherent, link_settled desired table coherent]
  cases found : link? client id table <;> simp [Linked, found]

theorem nodup_to_add (desired : List String) (current : List Assignment) (once : desired.Nodup) :
    (diffOf desired current).toAdd.Nodup := once.filter _

theorem nodup_to_remove (desired : List String) (current : List Assignment) :
    (diffOf desired current).toRemove.Nodup := (nodup_erase_dups _).filter _

theorem settled_apart (desired : List String) (table : AssignmentTable) (client : String) :
    (settled client desired table).filter (fun entry => decide (entry.1.1 ≠ client)) =
      table.filter fun entry => decide (entry.1.1 ≠ client) := by
  rw [settled, apply_diff_eq_change]
  apply change_apart fun key => decide (key.1 ≠ client)
  all_goals simp

theorem settled_unmoved (desired : List String) (table : AssignmentTable) (coherent : Coherent table)
    (client : String)
    (same : linksOf client (settled client desired table) = linksOf client table) :
    settled client desired table = table := by
  have sameLink : ∀ id, link? client id (settled client desired table) = link? client id table := by
    intro id
    rw [← link_of_links_of, same, link_of_links_of]
  have noneAdded : (diffOf desired (ofClient client table)).toAdd = [] := by
    apply List.eq_nil_iff_forall_not_mem.mpr
    intro id added
    obtain ⟨unlinked, linked⟩ := (to_add_created desired table coherent client id).mp added
    exact linked ((sameLink id).trans unlinked)
  have noneRemoved : (diffOf desired (ofClient client table)).toRemove = [] := by
    apply List.eq_nil_iff_forall_not_mem.mpr
    intro id removed
    obtain ⟨linked, unlinked⟩ := (to_remove_deleted desired table coherent client id).mp removed
    exact linked ((sameLink id).symm.trans unlinked)
  exact apply_empty_diff client _ table (by simp [Diff.isEmpty, noneAdded, noneRemoved])

theorem diff_settled (desired : List String) (table : AssignmentTable) (coherent : Coherent table)
    (client : String) :
    diffOf desired (ofClient client (settled client desired table)) = Diff.empty := by
  have settledCoherent := coherent_settled desired table coherent client
  have noneAdded : (diffOf desired (ofClient client (settled client desired table))).toAdd = [] := by
    apply List.eq_nil_iff_forall_not_mem.mpr
    intro id added
    obtain ⟨wanted, unlinked⟩ := (mem_to_add desired _ settledCoherent client id).mp added
    rw [link_settled desired table coherent] at unlinked
    split at unlinked <;> simp [wanted] at unlinked
  have noneRemoved :
      (diffOf desired (ofClient client (settled client desired table))).toRemove = [] := by
    apply List.eq_nil_iff_forall_not_mem.mpr
    intro id removed
    obtain ⟨⟨a, found, auto⟩, unwanted⟩ := (mem_to_remove desired _ settledCoherent client id).mp removed
    rw [link_settled desired table coherent] at found
    cases before : link? client id table with
    | none => simp [before, unwanted] at found
    | some old =>
      obtain ⟨manual, rfl⟩ : old.auto = false ∧ old = a := by simpa [before, unwanted] using found
      exact absurd (manual.symm.trans auto) (by decide)
  generalize diffOf desired (ofClient client (settled client desired table)) = diff at *
  obtain ⟨toAdd, toRemove⟩ := diff
  obtain rfl : toAdd = [] := noneAdded
  obtain rfl : toRemove = [] := noneRemoved
  rfl

end TagRules.Reconcile
