import Mathlib.Data.List.Forall2
import TagRules.Proofs.Concurrent.Discipline
import TagRules.Proofs.Service.Updates

/-!
What a run writes and what it reports follow from what it read, not from what is there by the time of
writing.
-/

set_option autoImplicit false

namespace TagRules

open Service AssignmentTable

namespace Request

def effect : Request → AssignmentTable → AssignmentTable
  | .applyDiff client diff, table => if client.isEmpty then table else table.applyDiff client diff
  | .applyTagDiff diff, table => table.applyTagDiff diff
  | _, table => table

def accepted : Request → Bool
  | .applyDiff client _ => !client.isEmpty
  | .applyTagDiff _ => true
  | _ => false

def answer (source : Option String → Memory → Memory.Loading) (m : Memory) : (r : Request) → r.Reply
  | .listTags company => (source company m).1
  | .listLinks client => .ok (ofClient client m.table)
  | .listTagLinks tag => .ok (ofTag tag m.table)
  | .applyDiff client diff => if client.isEmpty then .error (.clientRequired diff) else .ok ()
  | .applyTagDiff _ => .ok ()
  | .enter _ => ()
  | .leave _ => ()
  | .openContext _ => ()
  | .closeContext => ()
  | .emit _ => ()
  | .countRun _ _ _ => ()
  | .countError _ _ => ()

end Request

theorem World.respond_in_memory (settings : Settings)
    (source : Option String → Memory → Memory.Loading) (task : Nat) (r : Request) (w : World Memory)
    (plain : w.store.rules = []) :
    let answered := World.respond (Scene.inMemory settings source).collaborators task r w
    answered.1 = r.answer source w.store ∧
      answered.2.store = { w.store with table := r.effect w.store.table } := by
  have spared : ∀ target who, Memory.Spared w.store.rules target who := by
    intro target who
    rw [plain]
    rfl
  cases r with
  | listTags company => exact ⟨rfl, World.call_store _ w⟩
  | listLinks client =>
    have listed := Memory.guarded_spared .listLinks (some client)
      (fun m => ((.ok (ofClient client m.table), [], m) : Answered Memory _)) w.store (spared _ _)
    refine ⟨congrArg Prod.fst listed, (World.call_store _ w).trans ?_⟩
    exact congrArg (fun answered => answered.2.2) listed
  | listTagLinks tag =>
    have listed := Memory.guarded_spared .listTagLinks (some tag)
      (fun m => ((.ok (ofTag tag m.table), [], m) : Answered Memory _)) w.store (spared _ _)
    refine ⟨congrArg Prod.fst listed, (World.call_store _ w).trans ?_⟩
    exact congrArg (fun answered => answered.2.2) listed
  | applyDiff client diff =>
    have written := Memory.guarded_spared .applyDiff (some client) (Memory.applyDiff client diff)
      w.store (spared _ _)
    have reply :
        (Memory.applyDiff client diff w.store).1 =
          (Request.applyDiff client diff).answer source w.store ∧
        (Memory.applyDiff client diff w.store).2.2 =
          { w.store with table := (Request.applyDiff client diff).effect w.store.table } := by
      by_cases nameless : client.isEmpty = true <;>
        simp [Memory.applyDiff, Request.answer, Request.effect, nameless]
    refine ⟨(congrArg Prod.fst written).trans reply.1, (World.call_store _ w).trans ?_⟩
    exact (congrArg (fun answered => answered.2.2) written).trans reply.2
  | applyTagDiff diff =>
    have written := Memory.guarded_spared .applyTagDiff (some diff.tag) (Memory.applyTagDiff diff)
      w.store (spared _ _)
    refine ⟨congrArg Prod.fst written, (World.call_store _ w).trans ?_⟩
    exact congrArg (fun answered => answered.2.2) written
  | _ => exact ⟨rfl, rfl⟩

inductive Aim
  | one (job : Job)
  | many (tag : Tag) (pairs : List (String × Value))

namespace Aim

def read : Aim → Request
  | .one job => .listLinks job.client
  | .many tag _ => .listTagLinks tag.id

def due (table : AssignmentTable) : Aim → Option Request
  | .one job =>
      match (Reconcile.client job.record job.tags (ofClient job.client table)).result with
      | .error _ => none
      | .ok diff => if diff.isEmpty then none else some (.applyDiff job.client diff)
  | .many tag pairs =>
      match (Reconcile.tag tag (Dictionary.ofList pairs) (ofTag tag.id table)).result with
      | .error _ => none
      | .ok diff => if diff.isEmpty then none else some (.applyTagDiff diff)

end Aim

inductive Standing
  | apart
  | loading (company : Option String) (next : Except Fault (List Tag) → Standing)
  | aiming (aim : Aim)
  | saw (aim : Aim) (table : AssignmentTable)
  | wrote (aim : Aim) (table : AssignmentTable)
  | calling (jobs : List Job)
  | awaiting (first count : Nat)
  | gathered (outcomes : List Outcome)

namespace Standing

def Begins : Standing → Prop
  | .apart => True
  | .loading _ _ => True
  | .aiming _ => True
  | .calling _ => True
  | _ => False

-- How a run comes on by a request that is answered in `m`. It keeps its locks while a write is due.
inductive Move (source : Option String → Memory → Memory.Loading) (m : Memory) :
    Standing → Request → Standing → Prop
  | quiet (k : Standing) (r : Request) (quiet : r.isQuiet = true) : Move source m k r k
  | load (company : Option String) (next : Except Fault (List Tag) → Standing)
      (begins : (next (source company m).1).Begins) :
      Move source m (.loading company next) (.listTags company) (next (source company m).1)
  | enter (k : Standing) (client : String) : Move source m k (.enter client) k
  | leave (k : Standing) (client : String) (nothing : ∀ aim table, k = .saw aim table →
      aim.due table = none) : Move source m k (.leave client) k
  | read (aim : Aim) : Move source m (.aiming aim) aim.read (.saw aim m.table)
  | write (aim : Aim) (table : AssignmentTable) (w : Request) (due : aim.due table = some w) :
      Move source m (.saw aim table) w (.wrote aim table)

end Standing

section

variable {α β : Type} (source : Option String → Memory → Memory.Loading)

def Program.Runs (last : Standing → α → Prop) : Standing → Program α → Prop
  | k, .done a => last k a
  | k, .ask r next => ∀ m : Memory, m.rules = [] → ∃ now, Standing.Move source m k r now ∧
      (next (r.answer source m)).Runs last now

def Routine.Runs (each : Standing → Outcome → Prop) (last : Standing → α → Prop) :
    Standing → Routine α → Prop
  | k, .done a => last k a
  | k, .ask r next => ∀ m : Memory, m.rules = [] → ∃ now, Standing.Move source m k r now ∧
      (next (r.answer source m)).Runs each last now
  | k, .each _ programs next => ∃ jobs : List Job, k = .calling jobs ∧
      List.Forall₂ (fun job program => program.Runs source each (.aiming (.one job))) jobs programs ∧
      ∀ outcomes, (next outcomes).Runs each last (.gathered outcomes)

variable {source}

theorem Program.runs_ask {last : Standing → α → Prop} {r : Request} {f : r.Reply → Program α}
    {k : Standing} (step : ∀ m : Memory, m.rules = [] → ∃ now, Standing.Move source m k r now ∧
      (f (r.answer source m)).Runs source last now) : (request r >>= f).Runs source last k := step

theorem Program.runs_then (middle : Standing → α → Prop) {last : Standing → β → Prop}
    {p : Program α} {f : α → Program β} {k : Standing} (first : p.Runs source middle k)
    (second : ∀ a now, middle now a → (f a).Runs source last now) : (p >>= f).Runs source last k := by
  change (p.bind f).Runs source last k
  induction p generalizing k with
  | done a => exact second a k first
  | ask r next ih =>
    intro m plain
    obtain ⟨now, move, later⟩ := first m plain
    exact ⟨now, move, ih _ later⟩

theorem Program.Quiet.runs_then {last : Standing → β → Prop} {a : α} {p : Program α}
    {f : α → Program β} {k : Standing} (quiet : p.Quiet a) (later : (f a).Runs source last k) :
    (p >>= f).Runs source last k := by
  change (p.bind f).Runs source last k
  induction quiet with
  | done => exact later
  | ask r next now _ ih => exact fun m _ => ⟨k, .quiet k r now, ih _⟩

theorem Program.Quiet.runs {last : Standing → α → Prop} {a : α} {p : Program α} {k : Standing}
    (quiet : p.Quiet a) (ends : last k a) : p.Runs source last k := by
  induction quiet with
  | done => exact ends
  | ask r next now _ ih => exact fun m _ => ⟨k, .quiet k r now, ih _⟩

theorem Routine.runs_ask {each : Standing → Outcome → Prop} {last : Standing → α → Prop} {r : Request}
    {f : r.Reply → Routine α} {k : Standing}
    (step : ∀ m : Memory, m.rules = [] → ∃ now, Standing.Move source m k r now ∧
      (f (r.answer source m)).Runs source each last now) :
    (request r >>= f).Runs source each last k := step

theorem Routine.runs_bind {each : Standing → Outcome → Prop} (middle : Standing → α → Prop)
    {last : Standing → β → Prop} {p : Routine α} {f : α → Routine β} {k : Standing}
    (first : p.Runs source each middle k)
    (second : ∀ a now, middle now a → (f a).Runs source each last now) :
    (p.bind f).Runs source each last k := by
  induction p generalizing k with
  | done a => exact second a k first
  | ask r next ih =>
    intro m plain
    obtain ⟨now, move, later⟩ := first m plain
    exact ⟨now, move, ih _ later⟩
  | each limit programs next ih =>
    obtain ⟨jobs, calling, run, later⟩ := first
    exact ⟨jobs, calling, run, fun outcomes => ih outcomes (later outcomes)⟩

theorem Routine.runs_of_program {each : Standing → Outcome → Prop} {last : Standing → α → Prop}
    {p : Program α} {k : Standing} (runs : p.Runs source last k) :
    (ofProgram p).Runs source each last k := by
  induction p generalizing k with
  | done a => exact runs
  | ask r next ih =>
    intro m plain
    obtain ⟨now, move, later⟩ := runs m plain
    exact ⟨now, move, ih _ later⟩

end

def Outcome.writes (outcome : Outcome) : List Request :=
  if outcome.applied && !outcome.diff.isEmpty then [.applyDiff outcome.client outcome.diff] else []

def Session.writes : Session.Result → List Request
  | .ok (.outcome outcome) => outcome.writes
  | .ok (.tagDiff diff) => if diff.isEmpty then [] else [.applyTagDiff diff]
  | .ok (.report report) => report.outcomes.flatMap Outcome.writes
  | _ => []

def Standing.Tells (reported : List Request) : Standing → Prop
  | .apart => reported = []
  | .saw aim table => aim.due table = none ∧ reported = []
  | .wrote aim table => reported = (aim.due table).toList.filter Request.accepted
  | .gathered outcomes => reported = outcomes.flatMap Outcome.writes
  | _ => False

theorem Standing.Tells.nothing_due {reported : List Request} {k : Standing} (tells : k.Tells reported)
    (aim : Aim) (table : AssignmentTable) (same : k = .saw aim table) : aim.due table = none := by
  subst same
  exact tells.1

def Errand.onTable : Errand → AssignmentTable → AssignmentTable
  | .assignManually client tag, table => table.assignManually client tag
  | _, table => table

def Errand.start : Errand → Standing
  | .assignManually _ _ => .apart
  | .evaluate entity company _ =>
      match identify entity company with
      | .error _ => .apart
      | .ok (record, client, owner) =>
          .loading owner fun loaded =>
            match loaded with
            | .error _ => .apart
            | .ok tags => .aiming (.one ⟨client, record, tags⟩)
  | .reevaluate tag entities =>
      match clientsOf entities with
      | .error _ => .apart
      | .ok pairs => .aiming (.many tag pairs)
  | .recompute company entities =>
      .loading company fun loaded =>
        match loaded with
        | .error _ => .apart
        | .ok tags =>
            match clientsOf entities with
            | .error _ => .apart
            | .ok pairs => .calling (pairs.map fun pair => ⟨pair.1, pair.2, tags⟩)

theorem Errand.start_begins (errand : Errand) : errand.start.Begins := by
  unfold start
  cases errand with
  | assignManually client tag => trivial
  | evaluate entity company trigger =>
    dsimp only
    split <;> trivial
  | reevaluate tag entities =>
    dsimp only
    split <;> trivial
  | recompute company entities => trivial

namespace Service

open Program

variable {source : Option String → Memory → Memory.Loading}

theorem update_links_runs (job : Job) :
    (updateLinks job).Runs source
      (fun k updated => k.Tells (outcomeOf job.client updated).writes) (.aiming (.one job)) := by
  refine runs_ask fun m _ => ⟨_, .read (.one job), ?_⟩
  simp only [Request.answer]
  refine (emit_notes_quiet _).runs_then ?_
  have due : (Aim.one job).due m.table =
      match (Reconcile.client job.record job.tags (ofClient job.client m.table)).result with
      | .error _ => none
      | .ok diff => if diff.isEmpty then none else some (.applyDiff job.client diff) := rfl
  cases found : (Reconcile.client job.record job.tags (ofClient job.client m.table)).result with
  | error e =>
    rw [found] at due
    exact ⟨due, rfl⟩
  | ok diff =>
    rw [found] at due
    dsimp only at due ⊢
    by_cases nothing : diff.isEmpty = true
    · rw [if_pos nothing] at due ⊢
      exact ⟨due, by simp [Outcome.writes, outcomeOf, nothing]⟩
    · rw [if_neg nothing] at due ⊢
      refine runs_ask fun later _ => ⟨_, .write (.one job) m.table _ due, ?_⟩
      by_cases nameless : job.client.isEmpty = true
      · simp only [Request.answer, nameless, if_true]
        change _ = List.filter _ _
        simp [due, Request.accepted, nameless, Outcome.writes, outcomeOf]
      · simp only [Request.answer, if_neg nameless]
        change _ = List.filter _ _
        simp [due, Request.accepted, nameless, Outcome.writes, outcomeOf, nothing]

theorem reconcile_client_runs (settings : Settings) (trigger : String) (job : Job) :
    (reconcileClient settings trigger job).Runs source (fun k outcome => k.Tells outcome.writes)
      (.aiming (.one job)) := by
  refine runs_ask fun _ _ => ⟨_, .enter _ job.client, ?_⟩
  refine runs_then _ (update_links_runs job) fun updated now tells => ?_
  refine runs_ask fun _ _ => ⟨_, .leave now job.client tells.nothing_due, ?_⟩
  exact (conclude_quiet settings trigger job updated).runs tells

theorem evaluate_runs (settings : Settings) (entity : Value) (company : Option String)
    (trigger : String) :
    (evaluateAndAssign settings entity company trigger).Runs source
      (fun k result => k.Tells (Session.writes (result.map .outcome)))
      (Errand.evaluate entity company trigger).start := by
  rw [evaluate_and_assign_eq]
  simp only [Errand.start]
  cases identify entity company with
  | error e => exact rfl
  | ok identified =>
    obtain ⟨record, client, owner⟩ := identified
    refine runs_ask fun _ _ => ⟨_, .quiet _ _ rfl, ?_⟩
    refine runs_then (fun k (outcome : Outcome) => k.Tells outcome.writes) ?_
      fun outcome now tells => runs_ask fun _ _ => ⟨_, .quiet _ _ rfl, tells⟩
    refine runs_ask fun m _ => ⟨_, .load owner _ (by cases (source owner m).1 <;> trivial), ?_⟩
    simp only [Request.answer]
    cases (source owner m).1 with
    | error e => exact (emit_quiet _).runs_then ((count_error_quiet _ _).runs_then rfl)
    | ok tags => exact reconcile_client_runs settings trigger _

theorem enter_all_runs (clients : List String) (k : Standing) :
    (enterAll clients).Runs source (fun now _ => now = k) k := by
  induction clients with
  | nil => exact rfl
  | cons client rest ih => exact runs_ask fun _ _ => ⟨_, .enter k client, ih⟩

theorem leave_all_runs (clients : List String) (k : Standing)
    (nothing : ∀ aim table, k = .saw aim table → aim.due table = none) :
    (leaveAll clients).Runs source (fun now _ => now = k) k := by
  induction clients with
  | nil => exact rfl
  | cons client rest ih => exact runs_ask fun _ _ => ⟨_, .leave k client nothing, ih⟩

theorem apply_under_locks_runs (tag : Tag) (pairs : List (String × Value))
    (table : AssignmentTable) (diff : TagDiff)
    (found : (Reconcile.tag tag (Dictionary.ofList pairs) (ofTag tag.id table)).result = .ok diff) :
    (applyUnderLocks diff).Runs source
      (fun k written => written = .ok () ∧ k.Tells (Session.writes (.ok (.tagDiff diff))))
      (.saw (.many tag pairs) table) := by
  have due : (Aim.many tag pairs).due table =
      if diff.isEmpty then none else some (.applyTagDiff diff) := by
    simp only [Aim.due, found]
  unfold applyUnderLocks
  by_cases nothing : diff.isEmpty = true
  · rw [if_pos nothing] at due ⊢
    exact ⟨rfl, due, by simp [Session.writes, nothing]⟩
  · rw [if_neg nothing] at due ⊢
    refine runs_then _ (enter_all_runs _ _) fun _ now same => ?_
    subst same
    refine runs_ask fun _ _ => ⟨_, .write (.many tag pairs) table _ due, ?_⟩
    refine runs_then _ (leave_all_runs _ _ nofun) fun _ now same => ?_
    subst same
    refine ⟨rfl, ?_⟩
    simp only [Standing.Tells, due, Session.writes, nothing]
    rfl

theorem reevaluate_runs (settings : Settings) (tag : Tag) (entities : List Value) :
    (reevaluateTag settings tag entities).Runs source
      (fun k result => k.Tells (Session.writes (result.map .tagDiff)))
      (Errand.reevaluate tag entities).start := by
  unfold reevaluateTag
  refine (collect_records_quiet _ entities).runs_then ?_
  simp only [Errand.start]
  cases clientsOf entities with
  | error e => exact rfl
  | ok pairs =>
    refine runs_ask fun m _ => ⟨_, .read (.many tag pairs), ?_⟩
    simp only [Request.answer]
    refine (emit_notes_quiet _).runs_then ?_
    cases found : (Reconcile.tag tag (Dictionary.ofList pairs) (ofTag tag.id m.table)).result with
    | error e => exact ⟨by simp only [Aim.due, found], rfl⟩
    | ok diff =>
      refine runs_then _ (apply_under_locks_runs tag _ m.table diff found) fun written now both => ?_
      obtain ⟨rfl, tells⟩ := both
      exact (emit_quiet _).runs_then ((count_run_quiet _ _ _ _).runs_then tells)

theorem recompute_runs_jobs (settings : Settings) (company : Option String) (entities : List Value) :
    (recomputeCompany settings company entities).Runs source (fun k outcome => k.Tells outcome.writes)
      (fun k result => k.Tells (Session.writes (result.map .report)))
      (Errand.recompute company entities).start := by
  unfold recomputeCompany
  refine Routine.runs_ask fun m _ => ⟨_, .load company _ ?_, ?_⟩
  · cases (source company m).1 with
    | error e => trivial
    | ok tags => cases clientsOf entities <;> trivial
  simp only [Request.answer]
  cases (source company m).1 with
  | error e => exact rfl
  | ok tags =>
    refine Routine.runs_bind (fun k collected => collected = clientsOf entities ∧ k = _)
      (Routine.runs_of_program ((collect_records_quiet _ entities).runs ⟨rfl, rfl⟩))
      fun collected now both => ?_
    obtain ⟨rfl, rfl⟩ := both
    cases clientsOf entities with
    | error e => exact rfl
    | ok pairs =>
      refine ⟨_, rfl, ?_, fun outcomes => ?_⟩
      · rw [List.forall₂_map_left_iff, List.forall₂_map_right_iff, List.forall₂_same]
        exact fun pair _ => reconcile_client_runs settings "recompute" _
      · exact Routine.runs_ask fun _ _ => ⟨_, .quiet _ _ rfl, rfl⟩

end Service

theorem Errand.routine_runs (settings : Settings) (source : Option String → Memory → Memory.Loading)
    (errand : Errand) :
    (errand.routine settings).Runs source (fun k outcome => k.Tells outcome.writes)
      (fun k result => k.Tells (Session.writes result)) errand.start := by
  cases errand with
  | assignManually client tag => exact rfl
  | evaluate entity company trigger =>
    exact Routine.runs_bind _ (Routine.runs_of_program (evaluate_runs settings entity company trigger))
      fun _ _ tells => tells
  | reevaluate tag entities =>
    exact Routine.runs_bind _ (Routine.runs_of_program (reevaluate_runs settings tag entities))
      fun _ _ tells => tells
  | recompute company entities =>
    exact Routine.runs_bind _ (recompute_runs_jobs settings company entities) fun _ _ tells => tells

end TagRules
