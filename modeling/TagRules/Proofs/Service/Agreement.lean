import TagRules.Proofs.Assignment.ByTag
import TagRules.Proofs.Service.Convergence

/-!
The store in memory never makes a task wait, so the clients of a company are reconciled one after
another.
-/

set_option autoImplicit false

namespace TagRules.Service

open AssignmentTable Reconcile

variable {σ : Type}

-- The clients of a list of entities with their views; entities without id are left out.
def clientsOf : List Value → Except Fault (Dictionary String Value)
  | [] => .ok []
  | entity :: rest =>
      match Record.view entity with
      | .error e => .error e
      | .ok record =>
          match idUnder record clientKeys with
          | .error e => .error e
          | .ok none => clientsOf rest
          | .ok (some client) => (clientsOf rest).map ((client, record) :: ·)

theorem collect_records_asks {P : Request → Prop} (emits : ∀ event, P (.emit event))
    (field : String × Value) (entities : List Value) : (collectRecords field entities).Asks P := by
  induction entities with
  | nil => exact .done _
  | cons entity rest ih =>
    unfold collectRecords
    cases Record.view entity with
    | error e => exact .done _
    | ok record =>
      dsimp only
      cases idUnder record clientKeys with
      | error e => exact .done _
      | ok id =>
        cases id with
        | none => exact Program.asks_then (Program.asks_request (emits _)) fun _ => ih
        | some client => exact Program.asks_then ih fun _ => .done _

theorem collect_records_run (c : Collaborators σ) (task : Nat) (field : String × Value)
    (entities : List Value) (w : World σ) :
    let ran := (collectRecords field entities).run (World.respond c task) w
    ran.1 = clientsOf entities ∧ ran.2.store = w.store ∧ ran.2.metrics = w.metrics := by
  refine ⟨?_, World.run_aside c task (collect_records_asks (fun _ => rfl) field entities) w⟩
  induction entities generalizing w with
  | nil => rfl
  | cons entity rest ih =>
    unfold collectRecords clientsOf
    cases Record.view entity with
    | error e => rfl
    | ok record =>
      dsimp only
      cases idUnder record clientKeys with
      | error e => rfl
      | ok id =>
        cases id with
        | none => exact ih _
        | some client =>
          dsimp only
          rw [Program.run_then, Program.run_pure, ih w]

theorem reconcile_all_settles (settings : Settings) (trigger : String) (loading : Memory.Loading)
    (tags : List Tag) (clients : Dictionary String Value) (w : World Memory)
    (plain : w.store.rules = []) (named : ∀ client ∈ clients, client.1 ≠ "")
    (evaluates : ∀ client ∈ clients, Evaluates client.2 tags) :
    let jobs := clients.map fun client => reconcileClient settings trigger ⟨client.1, client.2, tags⟩
    let ran := Routine.runJobs (World.respond (Memory.answering loading) 0) jobs w
    (∀ outcome ∈ ran.1, outcome.error = none) ∧
    ran.2.store = { w.store with table := settledClients tags clients w.store.table } := by
  induction clients generalizing w with
  | nil => exact ⟨nofun, rfl⟩
  | cons client rest ih =>
    intro jobs ran
    obtain ⟨found, _⟩ := wanted_tags_found client.2 tags (evaluates client List.mem_cons_self)
    obtain ⟨result, store⟩ := reconcile_client_settles settings trigger loading 0
      ⟨client.1, client.2, tags⟩ w plain (named client List.mem_cons_self) _ found
    let next := ((reconcileClient settings trigger ⟨client.1, client.2, tags⟩).run
      (World.respond (Memory.answering loading) 0) w).2
    have nextPlain : next.store.rules = [] := (congrArg Memory.rules store).trans plain
    have nextTable : next.store.table = _ := congrArg Memory.table store
    obtain ⟨others, othersStore⟩ := ih next nextPlain
      (fun other later => named other (List.mem_cons_of_mem _ later))
      (fun other later => evaluates other (List.mem_cons_of_mem _ later))
    constructor
    · intro outcome member
      rcases List.mem_cons.mp member with atHead | later
      · rw [atHead, result]
      · exact others outcome later
    · refine othersStore.trans ?_
      rw [nextTable, show next.store = _ from store]
      rfl

def recomputeJobs (settings : Settings) (tags : List Tag) (clients : Dictionary String Value) :
    Dictionary String (Program Outcome) :=
  clients.map fun client =>
    (client.1, reconcileClient settings "recompute" ⟨client.1, client.2, tags⟩)

theorem recompute_jobs_keys (settings : Settings) (tags : List Tag)
    (clients : Dictionary String Value) :
    (recomputeJobs settings tags clients).keys = clients.keys := by
  simp [recomputeJobs, Dictionary.keys]

theorem recompute_jobs_values (settings : Settings) (tags : List Tag)
    (clients : Dictionary String Value) :
    (recomputeJobs settings tags clients).values =
      clients.map fun client => reconcileClient settings "recompute" ⟨client.1, client.2, tags⟩ := by
  simp [recomputeJobs, Dictionary.values]

theorem recompute_runs (c : Collaborators σ) (settings : Settings) (company : Option String)
    (entities : List Value) (tags : List Tag) (clients : Dictionary String Value) (w : World σ)
    (loaded : (c.listTags company w.store).1 = .ok tags)
    (identified : clientsOf entities = .ok clients) :
    let ran := (recomputeCompany settings company entities).run (World.respond c 0) w
    ∃ v : World σ, v.store = (c.listTags company w.store).2.2 ∧ v.metrics = w.metrics ∧
      let worked := Routine.runJobs (World.respond c 0) (recomputeJobs settings tags clients).values v
      ran.1 = .ok ⟨company, worked.1⟩ ∧ ran.2.store = worked.2.store ∧
        ran.2.metrics = worked.2.metrics := by
  intro ran
  have answered : (World.respond c 0 (.listTags company) w).1 = .ok tags := loaded
  have loadedStore := World.call_store (c.listTags company) w
  have loadedMetrics := World.respond_metrics c 0 (.listTags company) w
  obtain ⟨collected, kept, uncounted⟩ := collect_records_run c 0 ("company_id", idValue company)
    entities (World.respond c 0 (.listTags company) w).2
  rw [identified] at collected
  refine ⟨_, kept.trans loadedStore, uncounted.trans loadedMetrics, ?_⟩
  unfold ran recomputeCompany
  rw [Routine.run_then, Routine.run_request, answered]
  dsimp only
  rw [Routine.run_then, Routine.run_of_program, collected]
  dsimp only
  rw [Routine.run_then, Routine.run_each, recompute_jobs_values]
  exact ⟨rfl, rfl, rfl⟩

theorem recompute_stops (c : Collaborators σ) (settings : Settings) (company : Option String)
    (entities : List Value) (e : Fault) (w : World σ)
    (failed : (c.listTags company w.store).1 = .error e ∨
      (∃ tags, (c.listTags company w.store).1 = .ok tags) ∧ clientsOf entities = .error e) :
    let ran := (recomputeCompany settings company entities).run (World.respond c 0) w
    ran.1 = .error e ∧ ran.2.store = (c.listTags company w.store).2.2 ∧
      ran.2.metrics = w.metrics := by
  intro ran
  have loadedStore := World.call_store (c.listTags company) w
  have loadedMetrics := World.respond_metrics c 0 (.listTags company) w
  obtain ⟨collected, kept, uncounted⟩ := collect_records_run c 0 ("company_id", idValue company)
    entities (World.respond c 0 (.listTags company) w).2
  unfold ran recomputeCompany
  rw [Routine.run_then, Routine.run_request]
  rcases failed with unloaded | ⟨⟨tags, loaded⟩, unidentified⟩
  · rw [show (World.respond c 0 (.listTags company) w).1 = .error e from unloaded]
    exact ⟨rfl, loadedStore, loadedMetrics⟩
  · rw [show (World.respond c 0 (.listTags company) w).1 = .ok tags from loaded]
    rw [unidentified] at collected
    dsimp only
    rw [Routine.run_then, Routine.run_of_program, collected]
    exact ⟨rfl, kept.trans loadedStore, uncounted.trans loadedMetrics⟩

theorem recompute_settles (settings : Settings) (company : Option String) (tags : List Tag)
    (events : List Event) (entities : List Value) (clients : Dictionary String Value)
    (identified : clientsOf entities = .ok clients) (w : World Memory)
    (plain : w.store.rules = []) (named : ∀ client ∈ clients, client.1 ≠ "")
    (evaluates : ∀ client ∈ clients, Evaluates client.2 tags) :
    let ran := (recomputeCompany settings company entities).run
      (World.respond (Memory.answering (.ok tags, events)) 0) w
    (∃ report, ran.1 = .ok report ∧ report.failed = []) ∧
    ran.2.store = { w.store with table := settledClients tags clients w.store.table } := by
  intro ran
  obtain ⟨v, sameStore, _, result, store, _⟩ := recompute_runs (Memory.answering (.ok tags, events))
    settings company entities tags clients w rfl identified
  rw [recompute_jobs_values] at result store
  have sameRules : v.store.rules = [] := (congrArg Memory.rules sameStore).trans plain
  obtain ⟨succeeded, settledStore⟩ := reconcile_all_settles settings "recompute" (.ok tags, events)
    tags clients v sameRules named evaluates
  refine ⟨⟨_, result, ?_⟩, ?_⟩
  · simp only [Report.failed, List.map_eq_nil_iff, List.filter_eq_nil_iff]
    intro outcome member
    simp [succeeded outcome member]
  · rw [sameStore] at settledStore
    exact store.trans settledStore

theorem enter_all_asks {P : Request → Prop} (enters : ∀ client, P (.enter client))
    (clients : List String) : (enterAll clients).Asks P := by
  induction clients with
  | nil => exact .done ()
  | cons client rest ih => exact Program.asks_then (Program.asks_request (enters client)) fun _ => ih

theorem leave_all_asks {P : Request → Prop} (leaves : ∀ client, P (.leave client))
    (clients : List String) : (leaveAll clients).Asks P := by
  induction clients with
  | nil => exact .done ()
  | cons client rest ih => exact Program.asks_then (Program.asks_request (leaves client)) fun _ => ih

theorem apply_under_locks_cases (c : Collaborators σ) (task : Nat) (diff : TagDiff) (w : World σ) :
    let ran := (applyUnderLocks diff).run (World.respond c task) w
    (diff.isEmpty = true ∧ ran.1 = .ok () ∧ ran.2.store = w.store ∨
      ran.1 = (c.applyTagDiff diff w.store).1 ∧
        ran.2.store = (c.applyTagDiff diff w.store).2.2) ∧ ran.2.metrics = w.metrics := by
  intro ran
  unfold ran applyUnderLocks
  by_cases nothing : diff.isEmpty = true
  · rw [if_pos nothing]
    exact ⟨.inl ⟨nothing, rfl, rfl⟩, rfl⟩
  · obtain ⟨entered, uncounted⟩ :=
      World.run_aside c task (enter_all_asks (fun _ => rfl) (lockOrder diff)) w
    rw [if_neg nothing, Program.run_then, Program.run_then, Program.run_request]
    generalize ((enterAll (lockOrder diff)).run _ w).2 = v at entered uncounted ⊢
    obtain ⟨left, leftUncounted⟩ := World.run_aside c task
      (leave_all_asks (fun _ => rfl) (lockOrder diff).reverse) (World.respond c task (.applyTagDiff diff) v).2
    have written : (World.respond c task (.applyTagDiff diff) v).2.store =
        (c.applyTagDiff diff v.store).2.2 := World.call_store _ v
    have writtenMetrics : (World.respond c task (.applyTagDiff diff) v).2.metrics = v.metrics :=
      World.respond_metrics c task (.applyTagDiff diff) v
    rw [Program.run_then, Program.run_pure, ← entered, ← uncounted]
    exact ⟨.inr ⟨rfl, left.trans written⟩, leftUncounted.trans writtenMetrics⟩

inductive ReevaluationOf (c : Collaborators σ) (tag : Tag) (entities : List Value) (s : σ) :
    Except Fault TagDiff → σ → Prop
  | unidentified (e : Fault) (failed : clientsOf entities = .error e) :
      ReevaluationOf c tag entities s (.error e) s
  | unlisted (e : Fault) (failed : (c.listTagLinks tag.id s).1 = .error e) :
      ReevaluationOf c tag entities s (.error e) (c.listTagLinks tag.id s).2.2
  | unevaluated (clients : Dictionary String Value) (current : List Assignment) (e : Fault)
      (identified : clientsOf entities = .ok clients)
      (listed : (c.listTagLinks tag.id s).1 = .ok current)
      (failed : (Reconcile.tag tag (Dictionary.ofList clients) current).result = .error e) :
      ReevaluationOf c tag entities s (.error e) (c.listTagLinks tag.id s).2.2
  | idle (clients : Dictionary String Value) (current : List Assignment) (diff : TagDiff)
      (identified : clientsOf entities = .ok clients)
      (listed : (c.listTagLinks tag.id s).1 = .ok current)
      (found : (Reconcile.tag tag (Dictionary.ofList clients) current).result = .ok diff)
      (nothing : diff.isEmpty = true) :
      ReevaluationOf c tag entities s (.ok diff) (c.listTagLinks tag.id s).2.2
  | refused (diff : TagDiff) (e : Fault)
      (failed : (c.applyTagDiff diff (c.listTagLinks tag.id s).2.2).1 = .error e) :
      ReevaluationOf c tag entities s (.error e)
        (c.applyTagDiff diff (c.listTagLinks tag.id s).2.2).2.2
  | written (clients : Dictionary String Value) (current : List Assignment) (diff : TagDiff)
      (identified : clientsOf entities = .ok clients)
      (listed : (c.listTagLinks tag.id s).1 = .ok current)
      (found : (Reconcile.tag tag (Dictionary.ofList clients) current).result = .ok diff)
      (done : (c.applyTagDiff diff (c.listTagLinks tag.id s).2.2).1 = .ok ()) :
      ReevaluationOf c tag entities s (.ok diff)
        (c.applyTagDiff diff (c.listTagLinks tag.id s).2.2).2.2

def countedReevaluation (settings : Settings) (metrics : Metrics) : Except Fault TagDiff → Metrics
  | .ok diff =>
      if settings.metricsEnabled then
        metrics.recordRun "tag_changed" diff.toAdd.length diff.toRemove.length
      else metrics
  | .error _ => metrics

theorem count_run_metrics (c : Collaborators σ) (task : Nat) (settings : Settings)
    (trigger : String) (added removed : Nat) (w : World σ) :
    ((countRun settings trigger added removed).run (World.respond c task) w).2.metrics =
      if settings.metricsEnabled then w.metrics.recordRun trigger added removed else w.metrics := by
  by_cases enabled : settings.metricsEnabled = true
  · rw [countRun, if_pos enabled, if_pos enabled, Program.run_request, World.respond_metrics]
    rfl
  · rw [countRun, if_neg enabled, if_neg enabled]
    rfl

theorem reevaluate_cases (c : Collaborators σ) (settings : Settings) (tag : Tag)
    (entities : List Value) (w : World σ) :
    let ran := (reevaluateTag settings tag entities).run (World.respond c 0) w
    ReevaluationOf c tag entities w.store ran.1 ran.2.store ∧
      ran.2.metrics = countedReevaluation settings w.metrics ran.1 := by
  intro ran
  obtain ⟨collected, kept, uncounted⟩ := collect_records_run c 0 ("tag_id", .text tag.id) entities w
  unfold ran reevaluateTag
  rw [Program.run_then, collected]
  generalize ((collectRecords _ entities).run _ w).2 = v at kept uncounted ⊢
  rw [← kept, ← uncounted]
  cases identified : clientsOf entities with
  | error e => exact ⟨.unidentified e identified, rfl⟩
  | ok clients =>
    have listedStore : (World.respond c 0 (.listTagLinks tag.id) v).2.store =
        (c.listTagLinks tag.id v.store).2.2 := World.call_store _ v
    have listedMetrics : (World.respond c 0 (.listTagLinks tag.id) v).2.metrics = v.metrics :=
      World.respond_metrics c 0 (.listTagLinks tag.id) v
    dsimp only
    rw [Program.run_then, Program.run_request]
    cases listed : (World.respond c 0 (.listTagLinks tag.id) v).1 with
    | error e =>
      rw [Program.run_pure, listedStore]
      exact ⟨.unlisted e listed, listedMetrics⟩
    | ok current =>
      dsimp only
      obtain ⟨noted, notedMetrics⟩ := World.run_aside c 0 (emit_notes_asks (fun _ => rfl)
        (Reconcile.tag tag (Dictionary.ofList clients) current).notes)
        (World.respond c 0 (.listTagLinks tag.id) v).2
      rw [listedStore] at noted
      rw [listedMetrics] at notedMetrics
      rw [Program.run_then]
      generalize ((emitNotes _).run _ _).2 = u at noted notedMetrics ⊢
      rw [← notedMetrics]
      cases found : (Reconcile.tag tag (Dictionary.ofList clients) current).result with
      | error e =>
        rw [Program.run_pure, noted]
        exact ⟨.unevaluated clients current e identified listed found, rfl⟩
      | ok diff =>
        dsimp only
        rw [Program.run_then]
        obtain ⟨writing, metrics⟩ := apply_under_locks_cases c 0 diff u
        generalize (applyUnderLocks diff).run _ u = under at writing metrics ⊢
        obtain ⟨answer, t⟩ := under
        rw [show u.metrics = t.metrics from metrics.symm]
        rw [noted] at writing
        cases answer with
        | error e =>
          dsimp only
          rw [Program.run_pure]
          rcases writing with ⟨_, written, _⟩ | ⟨failed, store⟩
          · cases written
          · exact ⟨store ▸ .refused diff e failed.symm, rfl⟩
        | ok _ =>
          simp only [Program.run_then, Program.run_pure, count_run_store, count_run_metrics]
          refine ⟨?_, rfl⟩
          change ReevaluationOf c tag entities v.store (.ok diff) t.store
          rcases writing with ⟨nothing, _, store⟩ | ⟨done, store⟩
          · exact store ▸ .idle clients current diff identified listed found nothing
          · exact store ▸ .written clients current diff identified listed found done.symm

theorem list_tag_links_plain (loading : Memory.Loading) (tag : String) (m : Memory)
    (plain : m.rules = []) :
    (Memory.answering loading).listTagLinks tag m = (.ok (ofTag tag m.table), [], m) := by
  simp [Memory.answering, Memory.collaborators, Memory.guarded, plain, FailureRule.take]

theorem apply_tag_diff_plain (loading : Memory.Loading) (diff : TagDiff) (m : Memory)
    (plain : m.rules = []) :
    (Memory.answering loading).applyTagDiff diff m =
      (.ok (), [], { m with table := m.table.applyTagDiff diff }) := by
  simp [Memory.answering, Memory.collaborators, Memory.guarded, plain, FailureRule.take,
    Memory.applyTagDiff]

theorem reevaluate_settles (settings : Settings) (tag : Tag) (loading : Memory.Loading)
    (entities : List Value) (clients : Dictionary String Value)
    (identified : clientsOf entities = .ok clients) (distinctClients : clients.keys.Nodup)
    (w : World Memory) (plain : w.store.rules = [])
    (evaluates : ∀ client ∈ clients, Evaluates client.2 [tag]) :
    let ran := (reevaluateTag settings tag entities).run
      (World.respond (Memory.answering loading) 0) w
    (∃ diff, ran.1 = .ok diff) ∧
    ran.2.store = { w.store with table := settledTag tag clients w.store.table } := by
  intro ran
  have lists := list_tag_links_plain loading tag.id w.store plain
  have writes := fun diff => apply_tag_diff_plain loading diff w.store plain
  -- Nothing fails, and the change that is found is the one that settles the tag.
  have onlyDiff : ∀ others current diff, clientsOf entities = .ok others →
      ((Memory.answering loading).listTagLinks tag.id w.store).1 = .ok current →
      (Reconcile.tag tag (Dictionary.ofList others) current).result = diff →
      diff = .ok (tagDiffOf tag clients (ofTag tag.id w.store.table)) := by
    intro others current diff alsoIdentified listed found
    obtain rfl := Except.ok.inj (identified.symm.trans alsoIdentified)
    rw [lists] at listed
    obtain rfl := Except.ok.inj listed
    rw [← found, Dictionary.of_distinct_list clients distinctClients]
    exact tag_found tag clients _ evaluates
  obtain ⟨ways, _⟩ := reevaluate_cases (Memory.answering loading) settings tag entities w
  change ReevaluationOf _ tag entities w.store ran.1 ran.2.store at ways
  generalize ran.1 = result at ways ⊢
  generalize ran.2.store = last at ways ⊢
  cases ways with
  | unidentified e failed => cases identified.symm.trans failed
  | unlisted e failed =>
    rw [lists] at failed
    cases failed
  | unevaluated others current e alsoIdentified listed failed =>
    cases onlyDiff others current (.error e) alsoIdentified listed failed
  | idle others current diff alsoIdentified listed found nothing =>
    obtain rfl := Except.ok.inj (onlyDiff others current (.ok diff) alsoIdentified listed found)
    rw [lists, settledTag, apply_empty_tag_diff _ _ nothing]
    exact ⟨⟨_, rfl⟩, rfl⟩
  | refused diff e failed =>
    rw [lists, writes] at failed
    cases failed
  | written others current diff alsoIdentified listed found done =>
    obtain rfl := Except.ok.inj (onlyDiff others current (.ok diff) alsoIdentified listed found)
    rw [lists, writes]
    exact ⟨⟨_, rfl⟩, rfl⟩

theorem reevaluate_all_settles (settings : Settings) (tags : List Tag) (loading : Memory.Loading)
    (entities : List Value) (clients : Dictionary String Value)
    (identified : clientsOf entities = .ok clients) (distinctClients : clients.keys.Nodup)
    (w : World Memory) (plain : w.store.rules = [])
    (evaluates : ∀ client ∈ clients, Evaluates client.2 tags) :
    let jobs := tags.map fun tag => reevaluateTag settings tag entities
    let ran := Routine.runJobs (World.respond (Memory.answering loading) 0) jobs w
    (∀ result ∈ ran.1, ∃ diff, result = .ok diff) ∧
    ran.2.store = { w.store with table := settledTags tags clients w.store.table } := by
  induction tags generalizing w with
  | nil => exact ⟨nofun, rfl⟩
  | cons tag rest ih =>
    intro jobs ran
    have first : ∀ client ∈ clients, Evaluates client.2 [tag] := by
      intro client member other listed
      obtain rfl : other = tag := List.mem_singleton.mp listed
      exact evaluates client member other List.mem_cons_self
    obtain ⟨result, store⟩ := reevaluate_settles settings tag loading entities clients identified
      distinctClients w plain first
    let next := ((reevaluateTag settings tag entities).run
      (World.respond (Memory.answering loading) 0) w).2
    have nextPlain : next.store.rules = [] := (congrArg Memory.rules store).trans plain
    have nextTable : next.store.table = _ := congrArg Memory.table store
    obtain ⟨others, othersStore⟩ := ih next nextPlain fun client member other later =>
      evaluates client member other (List.mem_cons_of_mem _ later)
    constructor
    · intro answer member
      rcases List.mem_cons.mp member with atHead | later
      · exact atHead ▸ result
      · exact others answer later
    · refine othersStore.trans ?_
      rw [nextTable, show next.store = _ from store]
      rfl

theorem recompute_agrees_with_reevaluation (settings : Settings) (tags order : List Tag)
    (events : List Event) (company : Option String) (entities : List Value)
    (clients : Dictionary String Value) (w : World Memory) (coherent : Coherent w.store.table)
    (plain : w.store.rules = []) (distinctTags : (tags.map (·.id)).Nodup)
    (conditioned : ∀ tag ∈ tags, tag.condition.isSome = true) (reordered : order.Perm tags)
    (identified : clientsOf entities = .ok clients) (distinctClients : clients.keys.Nodup)
    (named : "" ∉ clients.keys) (evaluates : ∀ client ∈ clients, Evaluates client.2 tags) :
    let respond := World.respond (Memory.answering (.ok tags, events)) 0
    let recomputed := (recomputeCompany settings company entities).run respond w
    let reevaluated := Routine.runJobs respond
      (order.map fun tag => reevaluateTag settings tag entities) w
    let before := w.store.table
    let byClient := recomputed.2.store.table
    let byTag := reevaluated.2.store.table
    (∃ report, recomputed.1 = .ok report ∧ report.failed = []) ∧
      (∀ result ∈ reevaluated.1, ∃ diff, result = .ok diff) ∧
      (∀ client ∈ clients.keys, ∀ tag ∈ tags,
        link? client tag.id byClient = link? client tag.id byTag) ∧
      (∀ client, client ∉ clients.keys → ∀ id,
        link? client id byClient = link? client id before ∧
          link? client id byTag = link? client id before) ∧
      ∀ client ∈ clients.keys, ∀ id, id ∉ tags.map (·.id) →
        link? client id byTag = link? client id before ∧
          link? client id byClient = (link? client id before).filter fun a => !a.auto := by
  intro respond recomputed reevaluated before byClient byTag
  have allNamed : ∀ client ∈ clients, client.1 ≠ "" :=
    fun client member same => named (List.mem_map.mpr ⟨client, member, same⟩)
  have sameIds : ∀ id, id ∈ order.map (·.id) ↔ id ∈ tags.map (·.id) :=
    fun id => (reordered.map (·.id)).mem_iff
  obtain ⟨succeeded, clientStore⟩ := recompute_settles settings company tags events entities clients
    identified w plain allNamed evaluates
  obtain ⟨answered, tagStore⟩ := reevaluate_all_settles settings order (.ok tags, events) entities
    clients identified distinctClients w plain fun client member tag listed =>
      evaluates client member tag (reordered.mem_iff.mp listed)
  have clientTable : byClient = settledClients tags clients before := congrArg Memory.table clientStore
  have tagTable : byTag = settledTags order clients before := congrArg Memory.table tagStore
  refine ⟨succeeded, answered, ?_, ?_, ?_⟩
  · intro client listed tag member
    rw [clientTable, tagTable]
    exact settled_clients_agree_with_tags tags order reordered distinctTags conditioned clients
      distinctClients evaluates before coherent client listed tag member
  · intro client unlisted id
    rw [clientTable, tagTable]
    exact ⟨link_settled_clients_other tags clients before client id unlisted,
      link_settled_tags_unlisted order
        (fun tag listed => conditioned tag (reordered.mem_iff.mp listed)) clients before client id
        unlisted⟩
  · intro client listed id other
    rw [clientTable, tagTable]
    obtain ⟨⟨name, record⟩, found, rfl⟩ := List.mem_map.mp listed
    have unwanted := unwanted_other record tags (evaluates _ found) id other
    refine ⟨link_settled_tags_other order clients before name id fun member =>
      other ((sameIds id).mp member), ?_⟩
    rw [link_settled_clients tags clients distinctClients before coherent name record found,
      decide_eq_false unwanted, settled_link_unwanted]

theorem recompute_drops_delisted_tag :
    let vip : Tag := ⟨"vip", some (.single "status" (.known .equals) (.text "vip") .null)⟩
    let idle : Tag := ⟨"idle", some (.single "orders" (.known .isEmpty) .null .null)⟩
    let entities : List Value :=
      [.mapping [(.text "id", .text "c"), (.text "status", .text "VIP")],
        .mapping [(.text "id", .text "d"), (.text "orders", .int 2)]]
    let w := Call.runAll Settings.default
      [.applyDiff "c" ⟨["old"], []⟩, .applyDiff "d" ⟨["vip", "idle"], []⟩,
        .assignManually "d" "idle", .applyDiff "e" ⟨["vip"], []⟩] Session.initial
    let respond := World.respond (Memory.answering (.ok [vip, idle], [])) 0
    let byClient := ((recomputeCompany Settings.default (some "acme") entities).run respond w).2.store.table
    let byTag := (Routine.runJobs respond
      ([idle, vip].map fun tag => reevaluateTag Settings.default tag entities) w).2.store.table
    link? "c" "vip" byClient = link? "c" "vip" byTag ∧
      link? "d" "idle" byClient = link? "d" "idle" byTag ∧
      link? "e" "vip" byTag = some ⟨"vip", true, some "e"⟩ ∧
      link? "c" "old" byTag = some ⟨"old", true, some "c"⟩ ∧ link? "c" "old" byClient = none := by
  intro vip idle entities w
  dsimp only
  let clients : Dictionary String Value :=
    [("c", .view [(.text "id", .text "c"), (.text "status", .text "VIP")]),
      ("d", .view [(.text "id", .text "d"), (.text "orders", .int 2)])]
  have coherent : Coherent w.store.table :=
    Call.run_all_coherent Settings.default _ Session.initial coherent_empty
  have evaluates : ∀ client ∈ clients, Evaluates client.2 [vip, idle] := by
    intro client listed tag member c condition
    simp only [clients, List.mem_cons, List.not_mem_nil, or_false] at listed
    simp only [List.mem_cons, List.not_mem_nil, or_false] at member
    rcases listed with rfl | rfl <;> rcases member with rfl | rfl <;> cases condition <;>
      exact ⟨_, rfl⟩
  obtain ⟨_, _, agree, unlisted, other⟩ := recompute_agrees_with_reevaluation Settings.default
    [vip, idle] [idle, vip] [] (some "acme") entities clients w coherent rfl (by decide)
    (by simp [vip, idle]) (.swap vip idle []) rfl (by decide) (by decide) evaluates
  refine ⟨agree "c" (by decide) vip (by simp), agree "d" (by decide) idle (by simp), ?_, ?_, ?_⟩
  · exact (unlisted "e" (by decide) "vip").2
  · exact (other "c" (by decide) "old" (by decide)).1
  · exact (other "c" (by decide) "old" (by decide)).2

end TagRules.Service
