import TagRules.Proofs.Assignment.Counting
import TagRules.Proofs.Service.Agreement
import TagRules.Proofs.Service.Failures

set_option autoImplicit false

namespace TagRules

open AssignmentTable Reconcile

structure Tally where
  outcomes : List Outcome
  reevaluations : Nat
  overwritten : Nat

namespace Tally

def nothing : Tally := ⟨[], 0, 0⟩

def andThen (first later : Tally) : Tally :=
  ⟨first.outcomes ++ later.outcomes, first.reevaluations + later.reevaluations,
    first.overwritten + later.overwritten⟩

def succeeded (tally : Tally) : Nat := tally.outcomes.countP (·.error.isNone)

def failed (tally : Tally) : Nat := tally.outcomes.countP (·.error.isSome)

theorem nothing_and_then (tally : Tally) : nothing.andThen tally = tally := by
  simp [andThen, nothing]

theorem and_then_nothing (tally : Tally) : tally.andThen nothing = tally := by
  simp [andThen, nothing]

end Tally

namespace Memory

theorem tag_links_listed (tag : String) (m : Memory) (current : List Assignment)
    (listed : (collaborators.listTagLinks tag m).1 = .ok current) :
    current = ofTag tag m.table ∧ (collaborators.listTagLinks tag m).2.2 = m := by
  have spared := guarded_ok .listTagLinks (some tag) _ m current listed
  have plain : collaborators.listTagLinks tag m = (.ok (ofTag tag m.table), [], m) :=
    guarded_spared .listTagLinks (some tag) (fun m => (.ok (ofTag tag m.table), [], m)) m spared
  rw [plain] at listed ⊢
  exact ⟨(Except.ok.inj listed).symm, rfl⟩

theorem tag_diff_written (diff : TagDiff) (m : Memory)
    (done : (collaborators.applyTagDiff diff m).1 = .ok ()) :
    (collaborators.applyTagDiff diff m).2.2 =
      { m with table := m.table.applyTagDiff diff } := by
  have spared := guarded_ok .applyTagDiff (some diff.tag) _ m () done
  have plain : collaborators.applyTagDiff diff m = applyTagDiff diff m :=
    guarded_spared .applyTagDiff (some diff.tag) _ m spared
  rw [plain, applyTagDiff]

theorem tag_diff_refused (diff : TagDiff) (table : AssignmentTable) (m : Memory) (e : Fault)
    (start : FailsBefore table m) (failed : (collaborators.applyTagDiff diff m).1 = .error e) :
    FailsBefore table (collaborators.applyTagDiff diff m).2.2 := by
  rcases guarded_fails_before .applyTagDiff (some diff.tag) (applyTagDiff diff) table m start with
    worked | ⟨_, _, kept⟩
  · rw [show collaborators.applyTagDiff diff m = _ from worked] at failed
    cases failed
  · exact kept

end Memory

namespace Session

open Service

def surplus (w : State) : Int :=
  (Metrics.get .added w.metrics : Int) - Metrics.get .removed w.metrics - autoLinks w.store.table

-- Calls that a rule lets fail do so before they do their work, as the store in memory does.
structure Sound (w : State) : Prop where
  coherent : Coherent w.store.table
  before : ∀ rule ∈ w.store.rules, rule.after = false

structure Accounted (start last : State) (tally : Tally) : Prop where
  sound : Sound last
  links : surplus last = surplus start + tally.overwritten
  runs : last.metrics.runTotal = start.metrics.runTotal + tally.succeeded + tally.reevaluations
  errors : last.metrics.errorTotal = start.metrics.errorTotal + tally.failed

theorem Accounted.and_then {start middle last : State} {first later : Tally}
    (one : Accounted start middle first) (other : Accounted middle last later) :
    Accounted start last (first.andThen later) := by
  have links := one.links
  have laterLinks := other.links
  have runs := one.runs
  have laterRuns := other.runs
  have errors := one.errors
  have laterErrors := other.errors
  simp only [Tally.succeeded, Tally.failed] at runs laterRuns errors laterErrors
  refine ⟨other.sound, ?_, ?_, ?_⟩ <;>
    simp only [Tally.andThen, Tally.succeeded, Tally.failed, List.countP_append] <;> omega

theorem accounted_unmoved {start last : State} (sound : Sound start)
    (kept : Memory.FailsBefore start.store.table last.store)
    (uncounted : last.metrics = start.metrics) : Accounted start last .nothing := by
  refine ⟨⟨?_, kept.2⟩, ?_, ?_, ?_⟩
  · rw [kept.1]
    exact sound.coherent
  · simp [surplus, kept.1, uncounted, Tally.nothing]
  · simp [uncounted, Tally.nothing, Tally.succeeded]
  · simp [uncounted, Tally.nothing, Tally.failed]

theorem accounted_same_store {start last : State} (sound : Sound start)
    (store : last.store = start.store) (uncounted : last.metrics = start.metrics) :
    Accounted start last .nothing :=
  accounted_unmoved sound (by rw [store]; exact ⟨rfl, sound.before⟩) uncounted

theorem accounted_run {start last : State} (sound : Sound last) (trigger : String)
    (added removed : Nat)
    (counted : last.metrics = start.metrics.recordRun trigger added removed)
    (links : autoLinks last.store.table + removed = autoLinks start.store.table + added)
    (tally : Tally) (oneRun : tally.succeeded + tally.reevaluations = 1)
    (noneFailed : tally.failed = 0) (noneOverwritten : tally.overwritten = 0) :
    Accounted start last tally := by
  obtain ⟨nowAdded, nowRemoved⟩ := Metrics.changes_record_run trigger added removed start.metrics
  refine ⟨sound, ?_, ?_, ?_⟩
  · rw [surplus, surplus, counted, nowAdded, nowRemoved]
    omega
  · rw [counted, Metrics.run_total_record_run]
    omega
  · rw [counted, Metrics.error_total_record_run, noneFailed, Nat.add_zero]

theorem accounted_failure {start last : State} (sound : Sound start)
    (kept : Memory.FailsBefore start.store.table last.store) (kind service : String)
    (counted : last.metrics = start.metrics.recordError kind service) (outcome : Outcome)
    (failed : outcome.error ≠ none) : Accounted start last ⟨[outcome], 0, 0⟩ := by
  obtain ⟨sameAdded, sameRemoved⟩ := Metrics.changes_record_error kind service start.metrics
  obtain ⟨message, error⟩ := Option.ne_none_iff_exists'.mp failed
  refine ⟨⟨?_, kept.2⟩, ?_, ?_, ?_⟩
  · rw [kept.1]
    exact sound.coherent
  · rw [surplus, surplus, counted, sameAdded, sameRemoved, kept.1]
    simp
  · rw [counted, Metrics.run_total_record_error]
    simp [Tally.succeeded, error]
  · rw [counted, Metrics.error_total_record_error]
    simp [Tally.failed, error]

variable (settings : Settings)

theorem reconcile_client_accounted (enabled : settings.metricsEnabled = true) (trigger : String)
    (job : Job) (w : State) (sound : Sound w) :
    let ran := (reconcileClient settings trigger job).run (World.respond Memory.collaborators 0) w
    Accounted w ran.2 ⟨[ran.1], 0, 0⟩ := by
  intro ran
  have reported := reconcile_client_reported Memory.collaborators 0 settings enabled trigger job w
  have counted := World.run_metrics Memory.collaborators 0 (reconcileClient settings trigger job) w
  rw [Metrics.record_all_filter] at counted
  rcases reported.counts with ⟨fine, run⟩ | ⟨failed, kind, error⟩
  · obtain ⟨updated, update, result⟩ :=
      reconcile_client_cases Memory.collaborators 0 settings trigger job w
    have succeeded : updated.2 = none := by
      rw [result] at fine
      simpa [outcomeOf] using fine
    obtain ⟨desired, matched, diff, store⟩ :=
      update_succeeded Memory.collaborators_in_memory update succeeded
    have links := auto_links_settled desired (matching_once job.record job.tags desired matched)
      w.store.table sound.coherent job.client
    rw [run, result, outcomeOf, diff] at counted
    have sameTable : ran.2.store.table = settled job.client desired w.store.table :=
      congrArg Memory.table store
    have sameRules : ran.2.store.rules = w.store.rules := by
      rw [show ran.2.store = _ from store]
    refine accounted_run ⟨?_, ?_⟩ trigger _ _ counted ?_ _ ?_ ?_ rfl
    · rw [sameTable]
      exact coherent_settled desired w.store.table sound.coherent job.client
    · rw [sameRules]
      exact sound.before
    · rw [sameTable]
      exact links
    · simp [Tally.succeeded, show ran.1.error = none from fine]
    · simp [Tally.failed, show ran.1.error = none from fine]
  · have kept := reconcile_client_undisturbed Memory.collaborators _
      (Memory.collaborators_undisturbed w.store.table) 0 settings trigger job w ⟨rfl, sound.before⟩
      failed
    rw [error] at counted
    exact accounted_failure sound kept kind settings.serviceName counted ran.1 failed

theorem load_accounted (enabled : settings.metricsEnabled = true) (trigger : String)
    (record : Value) (client : String) (owner : Option String) (w : State) (sound : Sound w) :
    let ran := (loadAndReconcile settings trigger record client owner).run
      (World.respond Memory.collaborators 0) w
    Accounted w ran.2 ⟨[ran.1], 0, 0⟩ := by
  intro ran
  have undisturbed := Memory.collaborators_undisturbed w.store.table
  cases answered : (Memory.collaborators.listTags owner w.store).1 with
  | error e =>
    obtain ⟨result, event, asked⟩ :=
      load_failed Memory.collaborators 0 settings enabled trigger record client owner w e answered
    have failed : ran.1.error ≠ none := by
      rw [show ran.1 = _ from result]
      exact nofun
    have counted := World.run_metrics Memory.collaborators 0
      (loadAndReconcile settings trigger record client owner) w
    rw [asked] at counted
    exact accounted_failure sound (load_undisturbed Memory.collaborators _ undisturbed 0 settings
      trigger record client owner w ⟨rfl, sound.before⟩ failed) "tag_source" settings.serviceName
      counted ran.1 failed
  | ok tags =>
    have loaded : (World.respond Memory.collaborators 0 (.listTags owner) w).1 = .ok tags := answered
    have loadedStore := World.call_store (Memory.collaborators.listTags owner) w
    have kept : Memory.FailsBefore w.store.table
        (World.respond Memory.collaborators 0 (.listTags owner) w).2.store := by
      rw [World.respond, loadedStore]
      exact undisturbed.tags owner w.store ⟨rfl, sound.before⟩
    have loading := accounted_unmoved sound kept
      (World.respond_metrics Memory.collaborators 0 (.listTags owner) w)
    have reconciling := reconcile_client_accounted settings enabled trigger ⟨client, record, tags⟩
      (World.respond Memory.collaborators 0 (.listTags owner) w).2 loading.sound
    unfold ran loadAndReconcile
    rw [Program.run_then, Program.run_request, loaded]
    exact loading.and_then reconciling

def outcomesOf : Result → List Outcome
  | .ok (.outcome outcome) => [outcome]
  | .ok (.report report) => report.outcomes
  | _ => []

def isReevaluation : Result → Bool
  | .ok (.tagDiff _) => true
  | _ => false

def tallyOf (answer : Result) : Tally := ⟨outcomesOf answer, (isReevaluation answer).toNat, 0⟩

theorem evaluate_accounted (enabled : settings.metricsEnabled = true) (entity : Value)
    (company : Option String) (trigger : String) (w : State) (sound : Sound w) :
    let ran := (evaluateAndAssign settings entity company trigger).run
      (World.respond Memory.collaborators 0) w
    Accounted w ran.2 (tallyOf (ran.1.map .outcome)) := by
  intro ran
  unfold ran
  rw [evaluate_and_assign_eq]
  cases identified : identify entity company with
  | error e => exact accounted_same_store sound rfl rfl
  | ok found =>
    obtain ⟨record, client, owner⟩ := found
    let respond := World.respond Memory.collaborators 0
    let opened := (respond (.openContext ⟨some client, owner⟩) w).2
    have opening : Accounted w opened .nothing := accounted_same_store sound rfl rfl
    have loading := load_accounted settings enabled trigger record client owner opened opening.sound
    let loaded := ((loadAndReconcile settings trigger record client owner).run respond opened).2
    have closing : Accounted loaded (respond .closeContext loaded).2 .nothing :=
      accounted_same_store loading.sound rfl rfl
    dsimp only
    rw [Program.run_then, Program.run_then, Program.run_then, Program.run_pure]
    exact (opening.and_then loading).and_then closing

theorem run_jobs_accounted (jobs : List (Program Outcome))
    (each : ∀ job ∈ jobs, ∀ w, Sound w →
      let ran := job.run (World.respond Memory.collaborators 0) w
      Accounted w ran.2 ⟨[ran.1], 0, 0⟩) (w : State) (sound : Sound w) :
    let ran := Routine.runJobs (World.respond Memory.collaborators 0) jobs w
    Accounted w ran.2 ⟨ran.1, 0, 0⟩ := by
  induction jobs generalizing w with
  | nil => exact accounted_same_store sound rfl rfl
  | cons job rest ih =>
    obtain ⟨here, later⟩ := List.forall_mem_cons.mp each
    have first := here w sound
    exact first.and_then (ih later _ first.sound)

theorem recompute_accounted (enabled : settings.metricsEnabled = true) (company : Option String)
    (entities : List Value) (w : State) (sound : Sound w) :
    let ran := (recomputeCompany settings company entities).run
      (World.respond Memory.collaborators 0) w
    Accounted w ran.2 (tallyOf (ran.1.map .report)) := by
  intro ran
  have kept := (Memory.collaborators_undisturbed w.store.table).tags company w.store
    ⟨rfl, sound.before⟩
  have stopped : ∀ e, ran.1 = .error e ∧ ran.2.store =
      (Memory.collaborators.listTags company w.store).2.2 ∧ ran.2.metrics = w.metrics →
      Accounted w ran.2 (tallyOf (ran.1.map .report)) := by
    rintro e ⟨result, store, metrics⟩
    rw [result]
    exact accounted_unmoved sound (by rw [store]; exact kept) metrics
  cases loaded : (Memory.collaborators.listTags company w.store).1 with
  | error e =>
    exact stopped e (recompute_stops Memory.collaborators settings company entities e w (.inl loaded))
  | ok tags =>
    cases identified : clientsOf entities with
    | error e =>
      exact stopped e (recompute_stops Memory.collaborators settings company entities e w
        (.inr ⟨⟨tags, loaded⟩, identified⟩))
    | ok clients =>
      obtain ⟨v, vStore, vMetrics, result, store, metrics⟩ := recompute_runs Memory.collaborators
        settings company entities tags clients w loaded identified
      have loading := accounted_unmoved sound (by rw [vStore]; exact kept) vMetrics
      have working := run_jobs_accounted (recomputeJobs settings tags clients).values (by
        intro job member u soundThen
        rw [recompute_jobs_values] at member
        obtain ⟨client, _, rfl⟩ := List.mem_map.mp member
        exact reconcile_client_accounted settings enabled "recompute" ⟨client.1, client.2, tags⟩ u
          soundThen) v loading.sound
      have ending := accounted_same_store working.sound store metrics
      have all := (loading.and_then working).and_then ending
      rw [Tally.and_then_nothing] at all
      rw [show ran.1 = _ from result]
      exact all

theorem reevaluate_accounted (enabled : settings.metricsEnabled = true) (tag : Tag)
    (entities : List Value) (w : State) (sound : Sound w) :
    let ran := (reevaluateTag settings tag entities).run (World.respond Memory.collaborators 0) w
    Accounted w ran.2 (tallyOf (ran.1.map .tagDiff)) := by
  intro ran
  obtain ⟨ways, counted⟩ := reevaluate_cases Memory.collaborators settings tag entities w
  have start : Memory.FailsBefore w.store.table w.store := ⟨rfl, sound.before⟩
  have read := Memory.read_fails_before .listTagLinks (some tag.id)
    (fun m => .ok (ofTag tag.id m.table)) w.store.table w.store start
  -- Only a change that is found and written counts, and it is the change of the tag.
  have settles : ∀ clients diff, clientsOf entities = .ok clients →
      (Reconcile.tag tag (Dictionary.ofList clients) (ofTag tag.id w.store.table)).result = .ok diff →
      ran.1 = .ok diff →
      ran.2.store = { w.store with table := w.store.table.applyTagDiff diff } →
      ran.2.metrics = countedReevaluation settings w.metrics (.ok diff) →
      Accounted w ran.2 (tallyOf (ran.1.map .tagDiff)) := by
    intro clients diff identified found result store counted
    obtain rfl := tag_diff_found tag (Dictionary.ofList clients) _ diff found
    have distinctClients := Dictionary.nodup_keys_of_list clients
    have links := auto_links_settled_tag tag (Dictionary.ofList clients) distinctClients w.store.table
      sound.coherent
    rw [countedReevaluation, if_pos enabled] at counted
    rw [result]
    refine accounted_run ⟨?_, ?_⟩ "tag_changed" _ _ counted ?_ _ rfl rfl rfl
    · rw [store]
      exact coherent_settled_tag tag _ w.store.table sound.coherent
    · rw [store]
      exact sound.before
    · rw [store]
      exact links
  change ReevaluationOf _ tag entities w.store ran.1 ran.2.store at ways
  change ran.2.metrics = countedReevaluation settings w.metrics ran.1 at counted
  generalize result : ran.1 = answer at ways counted settles ⊢
  generalize store : ran.2.store = last at ways settles
  cases ways with
  | unidentified e failed => exact accounted_same_store sound store counted
  | unlisted e failed => exact accounted_unmoved sound (store ▸ read) counted
  | unevaluated clients current e identified listed failed =>
    exact accounted_unmoved sound (store ▸ read) counted
  | idle clients current diff identified listed found nothing =>
    obtain ⟨rfl, kept⟩ := Memory.tag_links_listed tag.id w.store current listed
    refine settles clients diff identified found rfl ?_ counted
    rw [kept, apply_empty_tag_diff diff w.store.table nothing]
  | refused diff e failed =>
    have refused := Memory.tag_diff_refused diff w.store.table _ e read failed
    exact accounted_unmoved sound (store ▸ refused) counted
  | written clients current diff identified listed found done =>
    obtain ⟨rfl, kept⟩ := Memory.tag_links_listed tag.id w.store current listed
    refine settles clients diff identified found rfl ?_ counted
    rw [kept] at done ⊢
    exact Memory.tag_diff_written diff w.store done

-- Steps that the counters can account for: all but changes made past the service, failures after
-- the work was done, and steps that run side by side.
def isCounted : Step → Bool
  | .applyDiff _ _ => false
  | .applyTagDiff _ => false
  | .fail rule => !rule.after
  | .gather _ => false
  | _ => true

-- The automatic links that a step replaces by one made by hand.
def overwritten (w : State) : Step → Nat
  | .assignManually client tag => (isAuto client tag w.store.table).toNat
  | _ => 0

def stepTally (w : State) (step : Step) (answer : Result) : Tally :=
  { tallyOf answer with overwritten := overwritten w step }

theorem asked_accounted {r : Request} {α : Type} (reply : α → Reply)
    (cast : r.Reply → Except Fault α) (silent : ∀ a, tallyOf (.ok (reply a)) = .nothing) (w : State)
    (sound : Sound w)
    (kept : Memory.FailsBefore w.store.table (World.respond Memory.collaborators 0 r w).2.store)
    (uncounted : w.metrics.record r = w.metrics) :
    let done := perform (.routine (asked reply cast)) w
    Accounted w done.2 (tallyOf done.1) := by
  intro done
  have answered : done = ((cast (World.respond Memory.collaborators 0 r w).1).map reply,
      (World.respond Memory.collaborators 0 r w).2) := rfl
  have metrics := (World.respond_metrics Memory.collaborators 0 r w).trans uncounted
  have nothing : tallyOf ((cast (World.respond Memory.collaborators 0 r w).1).map reply) = .nothing := by
    cases cast (World.respond Memory.collaborators 0 r w).1 with
    | error e => rfl
    | ok a => exact silent a
  rw [answered, nothing]
  exact accounted_unmoved sound kept metrics

theorem put_tag_accounted (plan : SessionPlan) (company tag : String) (payload : Value) (w : State)
    (sound : Sound w) :
    let done := putTag plan company tag payload w
    Accounted w done.2 (tallyOf done.1) := by
  intro done
  unfold done putTag
  cases w.store.tags.put plan.limits company tag payload with
  | error e => exact accounted_same_store sound rfl rfl
  | ok stored => exact accounted_unmoved sound ⟨rfl, sound.before⟩ rfl

theorem assign_manually_accounted (client tag : String) (w : State) (sound : Sound w) :
    let done := assignManually client tag w
    Accounted w done.2 (stepTally w (.assignManually client tag) done.1) := by
  intro done
  have replaced : autoLinks done.2.store.table + (isAuto client tag w.store.table).toNat =
      autoLinks w.store.table := auto_links_assign_manually client tag w.store.table
  have uncounted : done.2.metrics = w.metrics := rfl
  refine ⟨⟨coherent_assign_manually client tag w.store.table sound.coherent, sound.before⟩, ?_,
    rfl, rfl⟩
  simp only [surplus, uncounted, stepTally, overwritten]
  omega

theorem set_rules_accounted (rules : List FailureRule)
    (before : ∀ rule ∈ rules, rule.after = false) (w : State) (sound : Sound w) :
    Accounted w (setRules rules w).2 .nothing :=
  accounted_unmoved sound ⟨rfl, before⟩ rfl

theorem step_accounted (plan : SessionPlan) (enabled : plan.settings.metricsEnabled = true)
    (prompt : plan.slow = false) (step : Step) (counted : isCounted step = true) (w : State)
    (sound : Sound w) :
    let done := runStep plan step w
    Accounted w done.2 (stepTally w step done.1) := by
  have performed : isGather step = false → runStep plan step w = perform (workOf plan step) w := by
    intro alone
    simp [runStep, prompt, alone]
  have start : Memory.FailsBefore w.store.table w.store := ⟨rfl, sound.before⟩
  have undisturbed := Memory.collaborators_undisturbed w.store.table
  cases step with
  | putTag company tag payload =>
    exact performed rfl ▸ put_tag_accounted plan company tag payload w sound
  | assignManually client tag => exact performed rfl ▸ assign_manually_accounted client tag w sound
  | snapshot => exact performed rfl ▸ accounted_same_store sound rfl rfl
  | metrics => exact performed rfl ▸ accounted_same_store sound rfl rfl
  | locks => exact performed rfl ▸ accounted_same_store sound rfl rfl
  | heal => exact performed rfl ▸ set_rules_accounted [] (by simp) w sound
  | fail rule =>
    have before : ∀ other ∈ w.store.rules ++ [rule], other.after = false := by
      intro other member
      rcases List.mem_append.mp member with old | new
      · exact sound.before other old
      · simpa [isCounted, List.mem_singleton.mp new] using counted
    exact performed rfl ▸ set_rules_accounted _ before w sound
  | listTags company =>
    exact performed rfl ▸ asked_accounted (r := .listTags company) .tags id (fun _ => rfl) w sound
      (by rw [World.respond, World.call_store]; exact undisturbed.tags company w.store start) rfl
  | listLinks client =>
    exact performed rfl ▸ asked_accounted (r := .listLinks client) .links id (fun _ => rfl) w sound
      (by rw [World.respond, World.call_store]; exact undisturbed.links client w.store start) rfl
  | listTagLinks tag =>
    have kept := Memory.read_fails_before .listTagLinks (some tag) (fun m => .ok (ofTag tag m.table))
      w.store.table w.store start
    exact performed rfl ▸ asked_accounted (r := .listTagLinks tag) .links id (fun _ => rfl) w sound
      (by rw [World.respond, World.call_store]; exact kept) rfl
  | evaluate entity company trigger =>
    have evaluated := evaluate_accounted plan.settings enabled entity company trigger w sound
    rw [performed rfl]
    change Accounted w (Routine.run _ _ w).2 (stepTally w _ (Routine.run _ _ w).1)
    rw [Routine.run_bind, Routine.run_of_program]
    exact evaluated
  | reevaluate tag payload entities =>
    rw [performed rfl, workOf]
    cases Condition.read plan.limits payload with
    | error e => exact accounted_same_store sound rfl rfl
    | ok condition =>
      have reevaluated := reevaluate_accounted plan.settings enabled ⟨tag, condition⟩ entities w sound
      change Accounted w (Routine.run _ _ w).2 (stepTally w _ (Routine.run _ _ w).1)
      rw [Routine.run_bind, Routine.run_of_program]
      exact reevaluated
  | recompute company entities =>
    have recomputed := recompute_accounted plan.settings enabled company entities w sound
    rw [performed rfl]
    change Accounted w (Routine.run _ _ w).2 (stepTally w _ (Routine.run _ _ w).1)
    rw [Routine.run_bind]
    exact recomputed
  | applyDiff client diff => cases counted
  | applyTagDiff diff => cases counted
  | gather steps => cases counted

inductive Action
  | step (step : Step)
  | reevaluate (tag : Tag) (entities : List Value)

namespace Action

def run (plan : SessionPlan) (w : State) : Action → Result × State
  | .step taken => runStep plan taken { w with lines := [] }
  | .reevaluate tag entities =>
      let ran := (reevaluateTag plan.settings tag entities).run (World.respond Memory.collaborators 0) w
      (ran.1.map .tagDiff, ran.2)

def isCounted : Action → Bool
  | .step taken => Session.isCounted taken
  | .reevaluate _ _ => true

def overwritten (w : State) : Action → Nat
  | .step taken => Session.overwritten w taken
  | .reevaluate _ _ => 0

def runAll (plan : SessionPlan) : List Action → State → List Result × State
  | [], w => ([], w)
  | action :: rest, w =>
      let done := action.run plan w
      let others := runAll plan rest done.2
      (done.1 :: others.1, others.2)

def overwrittenIn (plan : SessionPlan) : List Action → State → Nat
  | [], _ => 0
  | action :: rest, w => action.overwritten w + overwrittenIn plan rest (action.run plan w).2

theorem run_accounted (plan : SessionPlan) (enabled : plan.settings.metricsEnabled = true)
    (prompt : plan.slow = false) (action : Action) (counted : action.isCounted = true) (w : State)
    (sound : Sound w) :
    let done := action.run plan w
    Accounted w done.2 { tallyOf done.1 with overwritten := action.overwritten w } := by
  cases action with
  | step taken =>
    have cleared : Accounted w { w with lines := [] } .nothing := accounted_same_store sound rfl rfl
    have stepped := cleared.and_then
      (step_accounted plan enabled prompt taken counted { w with lines := [] } cleared.sound)
    rw [Tally.nothing_and_then] at stepped
    exact stepped
  | reevaluate tag entities =>
    exact reevaluate_accounted plan.settings enabled tag entities w sound

theorem run_all_accounted (plan : SessionPlan) (enabled : plan.settings.metricsEnabled = true)
    (prompt : plan.slow = false) (actions : List Action)
    (counted : ∀ action ∈ actions, action.isCounted = true) (w : State) (sound : Sound w) :
    let ran := runAll plan actions w
    Accounted w ran.2
      ⟨ran.1.flatMap outcomesOf, ran.1.countP isReevaluation, overwrittenIn plan actions w⟩ := by
  induction actions generalizing w with
  | nil => exact accounted_same_store sound rfl rfl
  | cons action rest ih =>
    obtain ⟨here, later⟩ := List.forall_mem_cons.mp counted
    let done := action.run plan w
    let others := runAll plan rest done.2
    have first : Accounted w done.2 { tallyOf done.1 with overwritten := action.overwritten w } :=
      run_accounted plan enabled prompt action here w sound
    have all := first.and_then (ih later done.2 first.sound)
    have tally : Tally.andThen { tallyOf done.1 with overwritten := action.overwritten w }
        ⟨others.1.flatMap outcomesOf, others.1.countP isReevaluation, overwrittenIn plan rest done.2⟩ =
      ⟨(done.1 :: others.1).flatMap outcomesOf, (done.1 :: others.1).countP isReevaluation,
        action.overwritten w + overwrittenIn plan rest done.2⟩ := by
      cases answered : isReevaluation done.1 <;>
        simp [Tally.andThen, tallyOf, answered, Nat.add_comm]
    rw [tally] at all
    exact all

end Action

-- Calls that are not slow are done one after another, and the actions done so far are themselves
-- such a run, so this holds after each of them.
theorem metrics_account_for_links (plan : SessionPlan) (enabled : plan.settings.metricsEnabled = true)
    (prompt : plan.slow = false) (actions : List Action)
    (counted : ∀ action ∈ actions, action.isCounted = true) (w : State)
    (coherent : Coherent w.store.table) (before : ∀ rule ∈ w.store.rules, rule.after = false)
    (fresh : w.metrics = Metrics.empty) :
    let ran := Action.runAll plan actions w
    let outcomes := ran.1.flatMap outcomesOf
    (Metrics.get .added ran.2.metrics : Int) - Metrics.get .removed ran.2.metrics =
        autoLinks ran.2.store.table - autoLinks w.store.table + Action.overwrittenIn plan actions w ∧
      ran.2.metrics.runTotal =
        outcomes.countP (·.error.isNone) + ran.1.countP isReevaluation ∧
      ran.2.metrics.errorTotal = outcomes.countP (·.error.isSome) := by
  intro ran outcomes
  have accounted := Action.run_all_accounted plan enabled prompt actions counted w ⟨coherent, before⟩
  have links : surplus ran.2 = surplus w + Action.overwrittenIn plan actions w := accounted.links
  have runs : ran.2.metrics.runTotal = w.metrics.runTotal + outcomes.countP (·.error.isNone) +
      ran.1.countP isReevaluation := accounted.runs
  have errors : ran.2.metrics.errorTotal =
      w.metrics.errorTotal + outcomes.countP (·.error.isSome) := accounted.errors
  have noChange : Metrics.get .added w.metrics = 0 ∧ Metrics.get .removed w.metrics = 0 := by
    rw [fresh]
    exact ⟨rfl, rfl⟩
  have noCount : w.metrics.runTotal = 0 ∧ w.metrics.errorTotal = 0 := by
    rw [fresh]
    exact ⟨rfl, rfl⟩
  simp only [surplus] at links
  omega

theorem overwritten_link_is_accounted :
    let vip : Value := .mapping [(.text "field", .text "status"), (.text "operator", .text "equals"),
      (.text "value", .text "vip")]
    let client : String → Value := fun id =>
      .mapping [(.text "id", .text id), (.text "status", .text "vip")]
    let plan : SessionPlan := ⟨Settings.default, ⟨10, 50⟩, false⟩
    let actions : List Action :=
      [.step (.putTag "acme" "vip" vip), .step (.evaluate (client "a") (some "acme") "client_saved"),
        .step (.assignManually "a" "vip"),
        .step (.evaluate (client "") (some "acme") "client_saved"),
        .step (.recompute (some "acme") [client "b"]), .reevaluate ⟨"vip", none⟩ [client "b"]]
    let w : State := World.initial ⟨[], [(("b", "old"), ⟨"old", true, some "b"⟩)], []⟩
    let ran := Action.runAll plan actions w
    (Metrics.get .added ran.2.metrics : Int) - Metrics.get .removed ran.2.metrics =
        autoLinks ran.2.store.table - 1 + 1 ∧
      ran.2.metrics.runTotal = 3 ∧ ran.2.metrics.errorTotal = 1 := by
  intro vip client plan actions w
  dsimp only
  have coherent : Coherent w.store.table :=
    coherent_put "b" "old" ⟨"old", true, some "b"⟩ [] rfl rfl coherent_empty
  have accounted := metrics_account_for_links plan rfl rfl actions (by decide) w coherent
    (fun _ member => absurd member List.not_mem_nil) rfl
  have replaced : Action.overwrittenIn plan actions w = 1 := by
    dsimp only [actions, plan, client, vip, w]
    decide +kernel
  have answered : ((Action.runAll plan actions w).1.flatMap outcomesOf).countP (·.error.isNone) = 2 ∧
      (Action.runAll plan actions w).1.countP isReevaluation = 1 ∧
      ((Action.runAll plan actions w).1.flatMap outcomesOf).countP (·.error.isSome) = 1 := by
    dsimp only [actions, plan, client, vip, w]
    decide +kernel
  have start : autoLinks w.store.table = 1 := rfl
  dsimp only at accounted
  rw [replaced, answered.1, answered.2.1, answered.2.2, start] at accounted
  exact accounted

end Session

end TagRules
