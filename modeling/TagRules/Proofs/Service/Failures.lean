import TagRules.Proofs.Service.Updates

set_option autoImplicit false

namespace TagRules.Service

variable {σ : Type}

theorem emit_notes_asked (c : Collaborators σ) (task : Nat) (notes : List Note) (w : World σ) :
    (emitNotes notes).asked (World.respond c task) w =
      notes.map fun note => .emit (noteEvent note) := by
  induction notes generalizing w with
  | nil => rfl
  | cons note rest ih => exact congrArg (Request.emit (noteEvent note) :: ·) (ih _)

theorem filter_notes (p : Request → Bool) (silent : ∀ event, p (.emit event) = false)
    (notes : List Note) : (notes.map fun note => Request.emit (noteEvent note)).filter p = [] := by
  simp [silent]

def WritesOnce (client : String) (diff : Diff) (asked : List Request) : Prop :=
  asked.filter Request.isWrite = [] ∨
    diff.isEmpty = false ∧ asked.filter Request.isWrite = [.applyDiff client diff]

theorem filter_around {p : Request → Bool} {before after last : List Request}
    (nothingBefore : before.filter p = []) (lastAfter : after.filter p = last)
    (asked : List Request) : (before ++ (asked ++ after)).filter p = asked.filter p ++ last := by
  rw [List.filter_append, List.filter_append, nothingBefore, lastAfter, List.nil_append]

theorem WritesOnce.within {client : String} {diff : Diff} {before asked after : List Request}
    (writes : WritesOnce client diff asked) (nothingBefore : before.filter Request.isWrite = [])
    (nothingAfter : after.filter Request.isWrite = []) :
    WritesOnce client diff (before ++ (asked ++ after)) := by
  rw [WritesOnce, filter_around nothingBefore nothingAfter, List.append_nil]
  exact writes

theorem update_links_asked (c : Collaborators σ) (task : Nat) (job : Job) (w : World σ) :
    let asked := (updateLinks job).asked (World.respond c task) w
    WritesOnce job.client ((updateLinks job).run (World.respond c task) w).1.1 asked ∧
      asked.filter Request.isCount = [] := by
  unfold updateLinks
  dsimp only
  rw [Program.run_then, Program.asked_then, Program.run_request, Program.asked_request]
  cases (World.respond c task (.listLinks job.client) w).1 with
  | error e => exact ⟨.inl rfl, rfl⟩
  | ok current =>
    dsimp only
    have noWrites := filter_notes Request.isWrite (fun _ => rfl)
      (Reconcile.client job.record job.tags current).notes
    have noCounts := filter_notes Request.isCount (fun _ => rfl)
      (Reconcile.client job.record job.tags current).notes
    rw [Program.run_then, Program.asked_then, emit_notes_asked, WritesOnce]
    simp only [List.filter_append, noWrites, noCounts]
    cases (Reconcile.client job.record job.tags current).result with
    | error e => exact ⟨.inl rfl, rfl⟩
    | ok diff =>
      dsimp only
      by_cases nothing : diff.isEmpty = true
      · rw [if_pos nothing]
        exact ⟨.inl rfl, rfl⟩
      · have something : diff.isEmpty = false := by simpa using nothing
        rw [if_neg nothing, Program.run_then, Program.asked_then, Program.run_request,
          Program.asked_request]
        generalize (World.respond c task (.applyDiff job.client diff) _).1 = written
        cases written with
        | error e => exact ⟨.inr ⟨something, rfl⟩, rfl⟩
        | ok _ => exact ⟨.inr ⟨something, rfl⟩, rfl⟩

theorem emit_asked (c : Collaborators σ) (task : Nat) (event : Event) (w : World σ) :
    (emit event).asked (World.respond c task) w = [.emit event] := rfl

theorem count_error_asked (c : Collaborators σ) (task : Nat) (settings : Settings)
    (enabled : settings.metricsEnabled = true) (kind : String) (w : World σ) :
    (countError settings kind).asked (World.respond c task) w =
      [.countError kind settings.serviceName] := by
  rw [countError, if_pos enabled]
  rfl

theorem count_run_asked (c : Collaborators σ) (task : Nat) (settings : Settings)
    (enabled : settings.metricsEnabled = true) (trigger : String) (added removed : Nat)
    (w : World σ) :
    (countRun settings trigger added removed).asked (World.respond c task) w =
      [.countRun trigger added removed] := by
  rw [countRun, if_pos enabled]
  rfl

def CountsOnce (settings : Settings) (trigger : String) (outcome : Outcome)
    (asked : List Request) : Prop :=
  (outcome.error = none ∧ asked.filter Request.isCount =
      [.countRun trigger outcome.diff.toAdd.length outcome.diff.toRemove.length]) ∨
    outcome.error ≠ none ∧ ∃ kind, asked.filter Request.isCount =
      [.countError kind settings.serviceName]

theorem conclude_asked (c : Collaborators σ) (task : Nat) (settings : Settings)
    (enabled : settings.metricsEnabled = true) (trigger client : String) (diff : Diff)
    (said : Option (String × String)) (w : World σ) :
    let asked := (conclude settings trigger client diff said).asked (World.respond c task) w
    asked.filter Request.isWrite = [] ∧
      CountsOnce settings trigger ⟨client, diff, said.isNone, said.map Prod.fst⟩ asked := by
  intro asked
  unfold asked conclude
  cases said with
  | some said =>
    simp only [Program.asked_then, emit_asked, count_error_asked _ _ _ enabled, Program.asked_pure]
    exact ⟨rfl, .inr ⟨by simp, "assignment_store", rfl⟩⟩
  | none =>
    dsimp only
    split
    all_goals
      simp only [Program.asked_then, emit_asked, count_run_asked _ _ _ enabled, Program.asked_pure]
      exact ⟨rfl, .inl ⟨rfl, rfl⟩⟩

structure Reported (settings : Settings) (client trigger : String) (outcome : Outcome)
    (asked : List Request) : Prop where
  named : outcome.client = client
  applied : outcome.applied = true ↔ outcome.error = none
  writes : WritesOnce client outcome.diff asked
  counts : CountsOnce settings trigger outcome asked

-- Another exception in place of a text. Where the tags were not loaded, the second question comes
-- after the error was counted.
def Refused (texts : Texts) (settings : Settings) (raised : Fault) (asked : List Request) : Prop :=
  ∃ e, texts.first e = .error raised ∧ asked.filter Request.isCount = [] ∨
    texts.second e = .error raised ∧ (asked.filter Request.isCount = [] ∨
      asked.filter Request.isCount = [.countError "tag_source" settings.serviceName])

inductive Handled (texts : Texts) (settings : Settings) (client trigger : String) :
    Except Fault Outcome → List Request → Prop
  | reported {outcome : Outcome} {asked : List Request}
      (reported : Reported settings client trigger outcome asked) :
      Handled texts settings client trigger (.ok outcome) asked
  | raised {raised : Fault} (diff : Diff) {asked : List Request}
      (refused : Refused texts settings raised asked) (writes : WritesOnce client diff asked) :
      Handled texts settings client trigger (.error raised) asked

theorem reconcile_saved_handled (c : Collaborators σ) (task : Nat) (texts : Texts)
    (settings : Settings) (enabled : settings.metricsEnabled = true) (trigger : String) (job : Job)
    (w : World σ) :
    Handled texts settings job.client trigger
      ((reconcileSaved texts settings trigger job).run (World.respond c task) w).1
      ((reconcileSaved texts settings trigger job).asked (World.respond c task) w) := by
  unfold reconcileSaved
  rw [Program.run_then, Program.asked_then, Program.run_request, Program.asked_request,
    Program.run_then, Program.asked_then]
  obtain ⟨writes, counts⟩ :=
    update_links_asked c task job (World.respond c task (.enter job.client) w).2
  generalize (updateLinks job).asked _ _ = asked at writes counts ⊢
  generalize (updateLinks job).run _ _ = updated at writes ⊢
  obtain ⟨updated, v⟩ := updated
  dsimp only at writes ⊢
  rw [Program.run_then, Program.asked_then, Program.run_request, Program.asked_request]
  -- What surrounds the update writes nothing, and what concludes it counts.
  cases said : texts.ofFailure updated.2 with
  | error raised =>
    obtain ⟨e, textless⟩ := texts.textless_failure updated.2 raised said
    refine .raised updated.1 ⟨e, ?_⟩ (writes.within rfl rfl)
    rw [filter_around rfl rfl, counts]
    exact textless.imp (⟨·, rfl⟩) (⟨·, .inl rfl⟩)
  | ok text =>
    obtain ⟨outcome, _⟩ := conclude_reports c task settings trigger job.client updated.1 text
      (World.respond c task (.leave job.client) v).2
    obtain ⟨unwritten, counted⟩ := conclude_asked c task settings enabled trigger job.client updated.1
      text (World.respond c task (.leave job.client) v).2
    dsimp only
    rw [Program.run_then, Program.run_pure, Program.asked_then, Program.asked_pure, List.append_nil,
      outcome]
    generalize (conclude settings trigger job.client updated.1 text).asked _ _ = concluding
      at unwritten counted ⊢
    refine .reported ⟨rfl, by cases text <;> simp, writes.within rfl unwritten, ?_⟩
    unfold CountsOnce at counted ⊢
    rwa [filter_around rfl rfl, counts]

theorem reconcile_client_reported (c : Collaborators σ) (task : Nat) (settings : Settings)
    (enabled : settings.metricsEnabled = true) (trigger : String) (job : Job) (w : World σ) :
    Reported settings job.client trigger
      ((reconcileClient settings trigger job).run (World.respond c task) w).1
      ((reconcileClient settings trigger job).asked (World.respond c task) w) := by
  have handled := reconcile_saved_handled c task Texts.spoken settings enabled trigger job w
  rw [reconcile_saved_spoken, Program.run_then, Program.run_pure, Program.asked_then,
    Program.asked_pure, List.append_nil] at handled
  cases handled with
  | reported reported => exact reported

theorem note_unloaded_asked (c : Collaborators σ) (task : Nat) (settings : Settings)
    (enabled : settings.metricsEnabled = true) (client : String) (owner : Option String) (text : String)
    (w : World σ) :
    ∃ event, (noteUnloaded settings client owner text).asked (World.respond c task) w =
      [.emit event, .countError "tag_source" settings.serviceName] := by
  unfold noteUnloaded
  simp only [Program.asked_then, emit_asked, count_error_asked _ _ _ enabled]
  exact ⟨_, rfl⟩

theorem load_failed (c : Collaborators σ) (task : Nat) (settings : Settings)
    (enabled : settings.metricsEnabled = true) (trigger : String) (record : Value) (client : String)
    (owner : Option String) (w : World σ) (e : Fault)
    (failed : (c.listTags owner w.store).1 = .error e) :
    ((loadAndReconcile settings trigger record client owner).run (World.respond c task) w).1 =
      ⟨client, Diff.empty, false, some e.message⟩ ∧
    ∃ event, (loadAndReconcile settings trigger record client owner).asked (World.respond c task) w =
      [.listTags owner, .emit event, .countError "tag_source" settings.serviceName] := by
  have answered : (World.respond c task (.listTags owner) w).1 = .error e := failed
  unfold loadAndReconcile
  rw [Program.run_then, Program.asked_then, Program.run_request, Program.asked_request, answered]
  obtain ⟨event, asked⟩ := note_unloaded_asked c task settings enabled client owner e.message
    (World.respond c task (.listTags owner) w).2
  dsimp only
  rw [Program.run_then, Program.run_pure, Program.asked_then, Program.asked_pure, asked]
  exact ⟨rfl, event, rfl⟩

structure Undisturbed (c : Collaborators σ) (P : σ → Prop) : Prop where
  tags : ∀ company s, P s → P (c.listTags company s).2.2
  links : ∀ client s, P s → P (c.listLinks client s).2.2
  refused : ∀ client diff s e, P s → (c.applyDiff client diff s).1 = .error e →
    P (c.applyDiff client diff s).2.2

theorem update_undisturbed (c : Collaborators σ) (P : σ → Prop) (undisturbed : Undisturbed c P)
    {job : Job} {s last : σ} {updated : Diff × Option Fault} (update : UpdateOf c job s updated last)
    (start : P s) (failed : updated.2 ≠ none) : P last := by
  have listed := undisturbed.links job.client s start
  cases update with
  | unlisted e _ => exact listed
  | unevaluated current e _ _ => exact listed
  | idle current diff _ _ _ => exact absurd rfl failed
  | refused current diff e _ _ _ refused =>
    exact undisturbed.refused job.client diff _ e listed refused
  | written current diff _ _ _ _ => exact absurd rfl failed

theorem reconcile_saved_undisturbed (c : Collaborators σ) (P : σ → Prop)
    (undisturbed : Undisturbed c P) (task : Nat) (texts : Texts) (settings : Settings)
    (trigger : String) (job : Job) (w : World σ) (start : P w.store)
    (failed : ∀ outcome, ((reconcileSaved texts settings trigger job).run
      (World.respond c task) w).1 = .ok outcome → outcome.error ≠ none) :
    P ((reconcileSaved texts settings trigger job).run (World.respond c task) w).2.store := by
  obtain ⟨updated, update, answer⟩ := reconcile_saved_cases c task texts settings trigger job w
  refine update_undisturbed c P undisturbed update start fun none => ?_
  rw [none] at answer
  exact failed _ answer rfl

theorem load_saved_undisturbed (c : Collaborators σ) (P : σ → Prop) (undisturbed : Undisturbed c P)
    (task : Nat) (texts : Texts) (settings : Settings) (trigger : String) (record : Value)
    (client : String) (owner : Option String) (w : World σ) (start : P w.store)
    (failed : ∀ outcome, ((loadSaved texts settings trigger record client owner).run
      (World.respond c task) w).1 = .ok outcome → outcome.error ≠ none) :
    P ((loadSaved texts settings trigger record client owner).run
      (World.respond c task) w).2.store := by
  have loaded : P (World.respond c task (.listTags owner) w).2.store := by
    rw [World.respond, World.call_store]
    exact undisturbed.tags owner w.store start
  revert failed
  unfold loadSaved
  rw [Program.run_then, Program.run_request]
  cases (World.respond c task (.listTags owner) w).1 with
  | error e =>
    intro _
    dsimp only
    cases texts.first e with
    | error raised => exact loaded
    | ok logged =>
      simp only [noteUnloaded, Program.run_then, Program.run_pure, count_error_store]
      exact loaded
  | ok tags =>
    exact reconcile_saved_undisturbed c P undisturbed task texts settings trigger
      ⟨client, record, tags⟩ _ loaded

theorem reconcile_client_undisturbed (c : Collaborators σ) (P : σ → Prop)
    (undisturbed : Undisturbed c P) (task : Nat) (settings : Settings) (trigger : String) (job : Job)
    (w : World σ) (start : P w.store)
    (failed : ((reconcileClient settings trigger job).run (World.respond c task) w).1.error ≠ none) :
    P ((reconcileClient settings trigger job).run (World.respond c task) w).2.store := by
  have kept := reconcile_saved_undisturbed c P undisturbed task Texts.spoken settings trigger job w start
  rw [reconcile_saved_spoken, Program.run_then, Program.run_pure] at kept
  exact kept fun outcome same => Except.ok.inj same ▸ failed

theorem load_undisturbed (c : Collaborators σ) (P : σ → Prop) (undisturbed : Undisturbed c P)
    (task : Nat) (settings : Settings) (trigger : String) (record : Value) (client : String)
    (owner : Option String) (w : World σ) (start : P w.store)
    (failed : ((loadAndReconcile settings trigger record client owner).run
      (World.respond c task) w).1.error ≠ none) :
    P ((loadAndReconcile settings trigger record client owner).run
      (World.respond c task) w).2.store := by
  have kept := load_saved_undisturbed c P undisturbed task Texts.spoken settings trigger record client
    owner w start
  rw [load_saved_spoken, Program.run_then, Program.run_pure] at kept
  exact kept fun outcome same => Except.ok.inj same ▸ failed

end TagRules.Service

namespace TagRules.Memory

variable {α : Type}

def FailsBefore (table : AssignmentTable) (m : Memory) : Prop :=
  m.table = table ∧ ∀ rule ∈ m.rules, rule.after = false

theorem take_fails_before (target : Target) (who : Option String) (rules left : List FailureRule)
    (rule : FailureRule) (before : ∀ rule ∈ rules, rule.after = false)
    (taken : FailureRule.take target who rules = some (rule, left)) :
    rule.after = false ∧ ∀ rule ∈ left, rule.after = false := by
  induction rules generalizing left with
  | nil => cases taken
  | cons first rest ih =>
    obtain ⟨atHead, later⟩ := List.forall_mem_cons.mp before
    rw [FailureRule.take] at taken
    split at taken
    · cases taken
      exact ⟨atHead, List.forall_mem_cons.mpr ⟨atHead, later⟩⟩
    · obtain ⟨⟨found, others⟩, inRest, same⟩ := Option.map_eq_some_iff.mp taken
      cases same
      obtain ⟨ruleBefore, othersBefore⟩ := ih others later inRest
      exact ⟨ruleBefore, List.forall_mem_cons.mpr ⟨atHead, othersBefore⟩⟩

theorem guarded_fails_before (target : Target) (who : Option String)
    (call : Memory → Answered Memory α) (table : AssignmentTable) (m : Memory)
    (start : FailsBefore table m) :
    guarded target who call m = call m ∨
      ∃ e, (guarded target who call m).1 = .error e ∧
        FailsBefore table (guarded target who call m).2.2 := by
  unfold guarded
  split
  · exact .inl rfl
  · rename_i rule left taken
    obtain ⟨before, others⟩ := take_fails_before target who m.rules left rule start.2 taken
    rw [if_neg (by simp [before])]
    exact .inr ⟨rule.fault, rfl, start.1, others⟩

theorem read_fails_before (target : Target) (who : Option String) (read : Memory → Except Fault α)
    (table : AssignmentTable) (m : Memory) (start : FailsBefore table m) :
    FailsBefore table (guarded target who (fun m => (read m, [], m)) m).2.2 := by
  rcases guarded_fails_before target who (fun m => (read m, [], m)) table m start with
    worked | ⟨_, _, kept⟩
  · rw [worked]
    exact start
  · exact kept

theorem in_memory_undisturbed {c : Collaborators Memory} (inMemory : InMemory c)
    (table : AssignmentTable)
    (tags : ∀ company m, FailsBefore table m → FailsBefore table (c.listTags company m).2.2) :
    Service.Undisturbed c (FailsBefore table) := by
  refine ⟨tags, fun client m start => ?_, fun client diff m e start failed => ?_⟩
  · rw [inMemory.list_links]
    exact read_fails_before .listLinks (some client) (fun m => .ok (m.table.ofClient client)) table m
      start
  · rw [inMemory.apply_diff] at failed ⊢
    rcases guarded_fails_before .applyDiff (some client) (applyDiff client diff) table m start with
      worked | ⟨_, _, kept⟩
    · rw [worked] at failed ⊢
      rcases apply_diff_cases client diff m with ⟨_, nameless⟩ | ⟨_, applied⟩
      · rw [nameless]
        exact start
      · rw [applied] at failed
        cases failed
    · exact kept

theorem collaborators_undisturbed (table : AssignmentTable) :
    Service.Undisturbed collaborators (FailsBefore table) :=
  in_memory_undisturbed collaborators_in_memory table fun company =>
    read_fails_before .listTags company (fun m => .ok (m.tags.autoAssigned company)) table

end TagRules.Memory

namespace TagRules.Service

variable {σ : Type}

end TagRules.Service
