import TagRules.Proofs.Assignment.Links
import TagRules.Session

set_option autoImplicit false

namespace TagRules

namespace World

variable {σ α : Type}

theorem call_store (ask : σ → Answered σ α) (w : World σ) :
    (w.call ask).2.store = (ask w.store).2.2 := by rw [call_world]

end World

namespace AssignmentTable

structure Kept (before after : AssignmentTable) : Prop where
  coherent : Coherent before → Coherent after
  manual : ∀ client tag a, a.auto = false →
    (link? client tag after = some a ↔ link? client tag before = some a)

theorem Kept.refl (table : AssignmentTable) : Kept table table := ⟨id, fun _ _ _ _ => Iff.rfl⟩

theorem Kept.trans {first second third : AssignmentTable} (left : Kept first second)
    (right : Kept second third) : Kept first third :=
  ⟨fun coherent => right.coherent (left.coherent coherent), fun client tag a manual =>
    (right.manual client tag a manual).trans (left.manual client tag a manual)⟩

theorem Kept.manual_iff {before after : AssignmentTable} (kept : Kept before after)
    (client tag : String) : HasManual client tag after ↔ HasManual client tag before :=
  exists_congr fun a => and_congr_left fun manual => kept.manual client tag a manual

theorem kept_change (added removed : List (String × String)) (table : AssignmentTable) :
    Kept table (change added removed table) :=
  ⟨coherent_change added removed table, fun client tag a manual =>
    manual_link_change client tag added removed table a manual⟩

end AssignmentTable

namespace Memory

open AssignmentTable

variable {α : Type}

theorem guarded_work (target : Target) (who : Option String) (call : Memory → Answered Memory α)
    (m : Memory) : ∃ rules, (guarded target who call m).2 = (call { m with rules := rules }).2 ∨
      (guarded target who call m).2 = ([], { m with rules := rules }) := by
  unfold guarded
  split
  · exact ⟨m.rules, .inl rfl⟩
  · rename_i rule rules _
    refine ⟨rules, ?_⟩
    by_cases after : rule.after = true
    · simp only [after, if_true]
      split <;> exact .inl rfl
    · simp only [after]
      exact .inr rfl

theorem guarded_keeps (P : AssignmentTable → Prop) (target : Target) (who : Option String)
    (call : Memory → Answered Memory α) (keeps : ∀ m, P m.table → P (call m).2.2.table) (m : Memory)
    (start : P m.table) : P (guarded target who call m).2.2.table := by
  obtain ⟨rules, worked | unworked⟩ := guarded_work target who call m
  · rw [worked]
    exact keeps { m with rules := rules } start
  · rw [unworked]
    exact start

theorem list_tags_leaves (company : Option String) (m : Memory) :
    (collaborators.listTags company m).2.2.table = m.table :=
  guarded_keeps (· = m.table) _ _ _ (fun _ same => same) m rfl

theorem apply_diff_kept (client : String) (diff : Diff) (m : Memory) :
    Kept m.table (applyDiff client diff m).2.2.table := by
  unfold applyDiff
  split
  · exact Kept.refl m.table
  · simp only [apply_diff_eq_change]
    exact kept_change _ _ m.table

theorem apply_tag_diff_kept (diff : TagDiff) (m : Memory) :
    Kept m.table (applyTagDiff diff m).2.2.table := by
  simp only [applyTagDiff, apply_tag_diff_eq_change]
  exact kept_change _ _ m.table

abbrev Loading := Except Fault (List Tag) × List Event

def answering (loading : Loading) : Collaborators Memory :=
  { collaborators with listTags := fun _ m => (loading.1, loading.2, m) }

-- What single writes keep, an answer keeps. The tag source is the one part that may be any other: only
-- that it keeps the same is used.
theorem respond_keeps (P : AssignmentTable → Prop)
    (listTags : Option String → Memory → Answered Memory (List Tag))
    (leaves : ∀ company m, P m.table → P (listTags company m).2.2.table) (task : Nat) (r : Request)
    (diffs : ∀ client diff m, r = .applyDiff client diff → P m.table →
      P (applyDiff client diff m).2.2.table)
    (tagDiffs : ∀ diff m, r = .applyTagDiff diff → P m.table → P (applyTagDiff diff m).2.2.table)
    (w : World Memory) (start : P w.store.table) :
    P (World.respond { collaborators with listTags := listTags } task r w).2.store.table := by
  cases r with
  | listTags company =>
    rw [World.respond, World.call_store]
    exact leaves company w.store start
  | listLinks client =>
    rw [World.respond, World.call_store]
    exact guarded_keeps P _ _ _ (fun _ before => before) w.store start
  | listTagLinks tag =>
    rw [World.respond, World.call_store]
    exact guarded_keeps P _ _ _ (fun _ before => before) w.store start
  | applyDiff client diff =>
    rw [World.respond, World.call_store]
    exact guarded_keeps P _ _ _ (fun m => diffs client diff m rfl) w.store start
  | applyTagDiff diff =>
    rw [World.respond, World.call_store]
    exact guarded_keeps P _ _ _ (fun m => tagDiffs diff m rfl) w.store start
  | _ => exact start

theorem respond_kept (listTags : Option String → Memory → Answered Memory (List Tag))
    (leaves : ∀ company m, Kept m.table (listTags company m).2.2.table) (task : Nat) (r : Request)
    (w : World Memory) :
    Kept w.store.table
      (World.respond { collaborators with listTags := listTags } task r w).2.store.table :=
  respond_keeps (Kept w.store.table) listTags (fun company m before => before.trans (leaves company m))
    task r (fun client diff m _ before => before.trans (apply_diff_kept client diff m))
    (fun diff m _ before => before.trans (apply_tag_diff_kept diff m)) w (Kept.refl w.store.table)

theorem answering_kept (loading : Loading) (task : Nat) (r : Request) (w : World Memory) :
    Kept w.store.table (World.respond (answering loading) task r w).2.store.table :=
  respond_kept _ (fun _ m => Kept.refl m.table) task r w

theorem collaborators_kept (task : Nat) (r : Request) (w : World Memory) :
    Kept w.store.table (World.respond collaborators task r w).2.store.table :=
  respond_kept collaborators.listTags
    (fun company m => list_tags_leaves company m ▸ Kept.refl m.table) task r w

end Memory

namespace Service

def save (settings : Settings) (loading : Memory.Loading) (entity : Value) (company : Option String)
    (trigger : String) (w : World Memory) : Except Fault Outcome × World Memory :=
  (evaluateAndAssign settings entity company trigger).run
    (World.respond (Memory.answering loading) 0) w

end Service

-- A call from outside. The ones that load tags say what the tag source answers, and `fail` sets the
-- rules by which calls of the store fail from then on.
inductive Call
  | assignManually (client tag : String)
  | applyDiff (client : String) (diff : Diff)
  | applyTagDiff (diff : TagDiff)
  | evaluate (loading : Memory.Loading) (entity : Value) (company : Option String) (trigger : String)
  | reevaluate (tag : Tag) (entities : List Value)
  | recompute (loading : Memory.Loading) (company : Option String) (entities : List Value)
  | fail (rules : List FailureRule)

namespace Call

open AssignmentTable

def run (settings : Settings) (w : World Memory) : Call → World Memory
  | .assignManually client tag => (Session.assignManually client tag w).2
  | .applyDiff client diff => (World.respond Memory.collaborators 0 (.applyDiff client diff) w).2
  | .applyTagDiff diff => (World.respond Memory.collaborators 0 (.applyTagDiff diff) w).2
  | .evaluate loading entity company trigger =>
      (Service.save settings loading entity company trigger w).2
  | .reevaluate tag entities =>
      ((Service.reevaluateTag settings tag entities).run (World.respond Memory.collaborators 0) w).2
  | .recompute loading company entities =>
      ((Service.recomputeCompany settings company entities).run
        (World.respond (Memory.answering loading) 0) w).2
  | .fail rules => (Session.setRules rules w).2

def runAll (settings : Settings) (calls : List Call) (w : World Memory) : World Memory :=
  calls.foldl (run settings) w

theorem run_kept (settings : Settings) (call : Call) (w : World Memory)
    (notByHand : ∀ client tag, call ≠ .assignManually client tag) :
    Kept w.store.table (call.run settings w).store.table := by
  -- The requests of a call follow each other, so it is enough that each of them keeps the links.
  have onward : ∀ (c : Collaborators Memory) (r : Request) (v : World Memory),
      (∀ task r v, Kept v.store.table (World.respond c task r v).2.store.table) →
      Kept w.store.table v.store.table →
      Kept w.store.table (World.respond c 0 r v).2.store.table :=
    fun c r v each before => before.trans (each 0 r v)
  cases call with
  | assignManually client tag => exact absurd rfl (notByHand client tag)
  | applyDiff client diff => exact Memory.collaborators_kept 0 _ w
  | applyTagDiff diff => exact Memory.collaborators_kept 0 _ w
  | evaluate loading entity company trigger =>
    exact Program.run_keeps _ (fun v => Kept w.store.table v.store.table)
      (fun r v => onward _ r v (Memory.answering_kept loading)) _ w (Kept.refl w.store.table)
  | reevaluate tag entities =>
    exact Program.run_keeps _ (fun v => Kept w.store.table v.store.table)
      (fun r v => onward _ r v Memory.collaborators_kept) _ w (Kept.refl w.store.table)
  | recompute loading company entities =>
    exact Routine.run_keeps _ (fun v => Kept w.store.table v.store.table)
      (fun r v => onward _ r v (Memory.answering_kept loading)) _ w (Kept.refl w.store.table)
  | fail rules => exact Kept.refl w.store.table

theorem run_coherent (settings : Settings) (call : Call) (w : World Memory)
    (coherent : Coherent w.store.table) : Coherent (call.run settings w).store.table := by
  by_cases byHand : ∃ client tag, call = .assignManually client tag
  · obtain ⟨client, tag, rfl⟩ := byHand
    exact coherent_assign_manually client tag w.store.table coherent
  · exact (run_kept settings call w fun client tag same => byHand ⟨client, tag, same⟩).coherent coherent

theorem run_all_coherent (settings : Settings) (calls : List Call) (w : World Memory)
    (coherent : Coherent w.store.table) : Coherent (runAll settings calls w).store.table := by
  induction calls generalizing w with
  | nil => exact coherent
  | cons call rest ih => exact ih _ (run_coherent settings call w coherent)

def Reachable (table : AssignmentTable) : Prop :=
  ∃ (settings : Settings) (calls : List Call) (w : World Memory),
    w.store.table = [] ∧ (runAll settings calls w).store.table = table

theorem Reachable.coherent {table : AssignmentTable} (reachable : Reachable table) :
    Coherent table := by
  obtain ⟨settings, calls, w, empty, rfl⟩ := reachable
  exact run_all_coherent settings calls w (by rw [empty]; exact coherent_empty)

theorem run_manual_iff (settings : Settings) (call : Call) (w : World Memory) (client tag : String) :
    HasManual client tag (call.run settings w).store.table ↔
      call = .assignManually client tag ∨ HasManual client tag w.store.table := by
  by_cases byHand : ∃ c t, call = .assignManually c t
  · obtain ⟨c, t, rfl⟩ := byHand
    change HasManual client tag (AssignmentTable.assignManually c t w.store.table) ↔ _
    simp only [HasManual, Linked, link_assign_manually]
    by_cases same : (c, t) = (client, tag)
    · obtain ⟨rfl, rfl⟩ : c = client ∧ t = tag := by simpa using same
      simp
    · have different : ¬ (c = client ∧ t = tag) := by simpa using same
      simp [different]
  · have notNow : call ≠ .assignManually client tag := fun same => byHand ⟨client, tag, same⟩
    have kept := run_kept settings call w fun c t same => byHand ⟨c, t, same⟩
    simp only [notNow, false_or]
    exact kept.manual_iff client tag

theorem run_all_manual_iff (settings : Settings) (calls : List Call) (w : World Memory)
    (client tag : String) :
    HasManual client tag (runAll settings calls w).store.table ↔
      .assignManually client tag ∈ calls ∨ HasManual client tag w.store.table := by
  induction calls generalizing w with
  | nil => simp [runAll]
  | cons call rest ih =>
    change HasManual client tag (runAll settings rest (call.run settings w)).store.table ↔ _
    rw [ih, run_manual_iff, List.mem_cons, ← or_assoc]
    simp only [eq_comm, or_comm]

theorem manual_links_endure (settings : Settings) (calls : List Call) (w : World Memory)
    (empty : w.store.table = []) :
    let table := (runAll settings calls w).store.table
    (∀ client tag a, ((client, tag), a) ∈ table → a.client = some client ∧ a.tag = tag) ∧
    (∀ client tag, .assignManually client tag ∈ calls →
      link? client tag table = some ⟨tag, false, some client⟩) ∧
    (∀ client tag a, ((client, tag), a) ∈ table → a.auto = false →
      .assignManually client tag ∈ calls) ∧
    ∀ client tag a, ((client, tag), a) ∈ table →
      (ofClient client table).count a = 1 ∧ (ofTag tag table).count a = 1 ∧
      (∀ other, other ≠ client → a ∉ ofClient other table) ∧
      ∀ other, other ≠ tag → a ∉ ofTag other table := by
  intro table
  have coherent : Coherent table :=
    run_all_coherent settings calls w (by rw [empty]; exact coherent_empty)
  have byHand : ∀ client tag, HasManual client tag table ↔ .assignManually client tag ∈ calls := by
    intro client tag
    have startsFree : ¬ HasManual client tag w.store.table := by
      rw [empty]
      simp [Linked, link?, Dictionary.get?]
    simpa [startsFree] using run_all_manual_iff settings calls w client tag
  refine ⟨coherent.named, ?_, ?_, ?_⟩
  · intro client tag assigned
    obtain ⟨a, found, manual⟩ := (byHand client tag).mpr assigned
    obtain ⟨ofClient, ofTag⟩ := coherent.link_named found
    rw [found, ← ofClient, ← ofTag, ← manual]
  · intro client tag a member manual
    exact (byHand client tag).mp ⟨a, (coherent.mem_iff client tag a).mp member, manual⟩
  · intro client tag a member
    have found := (coherent.mem_iff client tag a).mp member
    obtain ⟨ofClient, ofTag⟩ := coherent.named client tag a member
    have listedOnce : a ∈ AssignmentTable.ofClient client table ∧ a ∈ AssignmentTable.ofTag tag table :=
      ⟨(coherent.mem_of_client_iff client a).mpr ⟨tag, found⟩,
        (coherent.mem_of_tag_iff tag a).mpr ⟨client, found⟩⟩
    refine ⟨?_, ?_, ?_, ?_⟩
    · rw [(coherent.nodup_of_client client).count, if_pos listedOnce.1]
    · rw [(coherent.nodup_of_tag tag).count, if_pos listedOnce.2]
    -- An assignment names its client and its tag, so no other list can hold it.
    · intro other different listed
      obtain ⟨t, elsewhere⟩ := (coherent.mem_of_client_iff other a).mp listed
      exact different (Option.some.inj ((coherent.link_named elsewhere).1.symm.trans ofClient))
    · intro other different listed
      obtain ⟨c, elsewhere⟩ := (coherent.mem_of_tag_iff other a).mp listed
      exact different ((coherent.link_named elsewhere).2.symm.trans ofTag)

theorem manual_link_outlives_removals :
    Session.initial.store.table = [] ∧
    link? "c" "t" (runAll Settings.default
      [.applyDiff "c" ⟨["t"], []⟩, .assignManually "c" "t", .applyDiff "c" ⟨["t"], ["t"]⟩,
        .applyTagDiff ⟨"t", [], ["c"]⟩,
        .evaluate (.ok [], []) (.mapping [(.text "id", .text "c")]) none "client_saved"]
      Session.initial).store.table = some ⟨"t", false, some "c"⟩ :=
  ⟨rfl, (manual_links_endure Settings.default _ Session.initial rfl).2.1 "c" "t" (by simp)⟩

end Call

end TagRules
