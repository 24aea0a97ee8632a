import TagRules.Proofs.Concurrent.Discipline
import TagRules.Proofs.Concurrent.Locks

set_option autoImplicit false

namespace TagRules

namespace Doing

def request? : Doing → Option Request
  | .call (.ask r _) => some r
  | .job _ _ true (.ask r _) => some r
  | _ => none

theorem Asks.request {doing : Doing} {r : Request} {next : r.Reply → Doing}
    (asks : doing.Asks r next) : doing.request? = some r := by
  cases asks <;> rfl

def Guarded (least : Nat) (inside : List String) : Doing → Prop
  | .call rest => rest.Guarded least (· = []) inside
  | .joining _ _ next => inside = [] ∧ ∀ outcomes, (next outcomes).Guarded least (· = []) []
  | .job _ limit admitted rest =>
      least ≤ limit ∧ rest.Guarded (· = []) inside ∧ (admitted = false → inside = [])
  | .ended _ => inside = []

theorem Asks.guarded {least : Nat} {inside : List String} {doing : Doing} {r : Request}
    {next : r.Reply → Doing} (asks : doing.Asks r next) (guarded : doing.Guarded least inside) :
    r.Allowed inside ∧ ∀ reply, (next reply).Guarded least (r.after inside) := by
  cases asks with
  | call r next => exact guarded
  | job owner limit r next =>
    obtain ⟨enough, ⟨allowed, later⟩, _⟩ := guarded
    exact ⟨allowed, fun reply => ⟨enough, later reply, nofun⟩⟩

theorem asks_of_request {doing : Doing} {r : Request} (asked : doing.request? = some r) :
    ∃ next, doing.Asks r next := by
  unfold request? at asked
  split at asked
  · obtain rfl := Option.some.inj asked
    exact ⟨_, .call _ _⟩
  · obtain rfl := Option.some.inj asked
    exact ⟨_, .job _ _ _ _⟩
  · cases asked

end Doing

namespace World

variable {σ α : Type}

theorem call_locks (ask : σ → Answered σ α) (w : World σ) : (w.call ask).2.locks = w.locks := by
  rw [call_world]

theorem respond_locks (c : Collaborators σ) (task : Nat) (r : Request) (w : World σ) :
    (respond c task r w).2.locks =
      match r with
      | .enter client => w.locks.enter client task
      | .leave client => w.locks.leave client
      | _ => w.locks := by
  cases r with
  | listTags company => exact call_locks _ w
  | listLinks client => exact call_locks _ w
  | listTagLinks tag => exact call_locks _ w
  | applyDiff client diff => exact call_locks _ w
  | applyTagDiff diff => exact call_locks _ w
  | _ => rfl

end World

structure Placed (locks : LockTable) (inside : Nat → List String) (awaits : Nat → Option String) :
    Prop where
  built : locks.Built
  queued : ∀ client i, i ∈ locks.queue client ↔ client ∈ inside i ∨ awaits i = some client
  once : ∀ client, (locks.queue client).Nodup
  first : ∀ client i, client ∈ inside i → (locks.queue client).head? = some i
  insideOnce : ∀ i, (inside i).Nodup
  outside : ∀ client i, awaits i = some client → client ∉ inside i

theorem placed_empty : Placed LockTable.empty (fun _ => []) (fun _ => none) := by
  refine ⟨.empty, ?_, ?_, ?_, ?_, ?_⟩ <;>
    simp [LockTable.queue, LockTable.empty, LockTable.lockOf, Dictionary.get?]

section

variable {locks : LockTable} {inside : Nat → List String} {awaits : Nat → Option String}
  (placed : Placed locks inside awaits)

include placed

theorem Placed.alone {client : String} {i k : Nat} (one : client ∈ inside i)
    (other : client ∈ inside k) : i = k :=
  Option.some.inj ((placed.first client i one).symm.trans (placed.first client k other))

theorem Placed.sign_up (client : String) (i : Nat) (fresh : awaits i = none)
    (apart : client ∉ inside i) :
    Placed (locks.enter client i) inside (fun k => if k = i then some client else awaits k) := by
  have newcomer : i ∉ locks.queue client := by simp [placed.queued, fresh, apart]
  refine ⟨.enter client i placed.built, ?_, ?_, ?_, placed.insideOnce, ?_⟩
  · intro other k
    rw [LockTable.queue_enter]
    by_cases same : client = other
    · subst same
      by_cases own : k = i
      · simp [own]
      · simp [own, placed.queued]
    · by_cases own : k = i
      · simp [same, own, placed.queued, fresh]
      · simp [same, own, placed.queued]
  · intro other
    rw [LockTable.queue_enter]
    by_cases same : client = other
    · subst same
      rw [if_pos rfl, List.nodup_append]
      refine ⟨placed.once client, by simp, ?_⟩
      intro earlier member last isLast clash
      rw [List.mem_singleton.mp isLast] at clash
      exact newcomer (clash ▸ member)
    · rw [if_neg same]
      exact placed.once other
  · intro other k member
    have first := placed.first other k member
    rw [LockTable.queue_enter]
    by_cases same : client = other
    · subst same
      rw [if_pos rfl, List.head?_append, first]
      rfl
    · rw [if_neg same, first]
  · intro other k
    by_cases own : k = i
    · subst own
      simp only [if_true]
      intro same
      exact Option.some.inj same ▸ apart
    · rw [if_neg own]
      exact placed.outside other k

theorem Placed.go_in (client : String) (i : Nat) (waits : awaits i = some client)
    (holds : locks.isHolder client i = true) :
    Placed locks (fun k => if k = i then client :: inside k else inside k)
      (fun k => if k = i then none else awaits k) := by
  refine ⟨placed.built, ?_, placed.once, ?_, ?_, ?_⟩
  · intro other k
    rw [placed.queued]
    by_cases own : k = i
    · subst own
      simp [waits, or_comm, eq_comm]
    · simp only [if_neg own]
  · intro other k member
    by_cases own : k = i
    · rw [if_pos own, own] at member
      rcases List.mem_cons.mp member with rfl | before
      · rw [own]
        exact (placed.built.holder_iff other i).mp holds
      · rw [own]
        exact placed.first other i before
    · rw [if_neg own] at member
      exact placed.first other k member
  · intro k
    by_cases own : k = i
    · rw [if_pos own, own]
      exact List.nodup_cons.mpr ⟨placed.outside client i waits, placed.insideOnce i⟩
    · rw [if_neg own]
      exact placed.insideOnce k
  · intro other k
    by_cases own : k = i
    · rw [if_pos own]
      nofun
    · rw [if_neg own, if_neg own]
      exact placed.outside other k

theorem Placed.leave (client : String) (i : Nat) (member : client ∈ inside i) :
    Placed (locks.leave client) (fun k => if k = i then (inside k).erase client else inside k)
      awaits := by
  have first := placed.first client i member
  have holds := (placed.built.holder_iff client i).mpr first
  obtain ⟨rest, queue⟩ : ∃ rest, locks.queue client = i :: rest := by
    cases queue : locks.queue client with
    | nil => rw [queue] at first; cases first
    | cons head rest =>
      rw [queue] at first
      exact ⟨rest, by rw [Option.some.inj first]⟩
  obtain ⟨gone, restOnce⟩ := List.nodup_cons.mp (queue ▸ placed.once client)
  have erased : ∀ k other, other ∈ (if k = i then (inside k).erase client else inside k) ↔
      other ∈ inside k ∧ ¬ (k = i ∧ other = client) := by
    intro k other
    by_cases own : k = i
    · subst own
      rw [if_pos rfl, (placed.insideOnce k).mem_erase_iff]
      simp [And.comm]
    · simp [own]
  refine ⟨.leave client i placed.built holds, ?_, ?_, ?_, ?_, ?_⟩
  · intro other k
    rw [placed.built.queue_leave, erased]
    have was := placed.queued other k
    by_cases same : client = other
    · subst same
      rw [queue] at was ⊢
      rw [if_pos rfl, List.tail_cons]
      by_cases own : k = i
      · subst own
        have notAwaiting : awaits k ≠ some client := fun waits => placed.outside client k waits member
        simp [gone, notAwaiting]
      · simpa [own] using was
    · rw [if_neg same, was]
      simp [Ne.symm same]
  · intro other
    rw [placed.built.queue_leave]
    by_cases same : client = other
    · subst same
      rw [if_pos rfl, queue]
      exact restOnce
    · rw [if_neg same]
      exact placed.once other
  · intro other k isInside
    obtain ⟨wasInside, notOwn⟩ := (erased k other).mp isInside
    rw [placed.built.queue_leave]
    by_cases same : client = other
    · subst same
      exact absurd ⟨(placed.alone wasInside member), rfl⟩ notOwn
    · rw [if_neg same]
      exact placed.first other k wasInside
  · intro k
    by_cases own : k = i
    · rw [if_pos own]
      exact (placed.insideOnce k).erase client
    · rw [if_neg own]
      exact placed.insideOnce k
  · intro other k waits isInside
    exact placed.outside other k waits ((erased k other).mp isInside).1

end

namespace Crew

variable {σ : Type}

def inside (s : Crew σ) (i : Nat) : List String :=
  match s.workers[i]? with
  | some w => w.inside
  | none => []

def awaits (s : Crew σ) (i : Nat) : Option String :=
  match s.workers[i]? with
  | some w => w.awaits
  | none => none

theorem stance_of {s : Crew σ} {i : Nat} {w : Worker} (here : s.workers[i]? = some w) :
    s.inside i = w.inside ∧ s.awaits i = w.awaits := by simp [inside, awaits, here]

structure Orderly (least : Nat) (s : Crew σ) : Prop where
  placed : Placed s.world.locks s.inside s.awaits
  guarded : ∀ w ∈ s.workers, w.doing.Guarded least w.inside
  asking : ∀ w ∈ s.workers, ∀ client, w.awaits = some client →
    w.doing.request? = some (.enter client)
  writing : ∀ k, s.writer = some k → ∃ w r, s.workers[k]? = some w ∧ w.doing.request? = some r ∧
    r.isWrite = true

theorem orderly_initial (least : Nat) (w : World σ) : Orderly least (initial w) :=
  ⟨placed_empty, by simp [initial], by simp [initial], nofun⟩

structure Changed (before after : List Worker) (i : Nat) (now : Worker) (jobs : List Worker) : Prop where
  own : after[i]? = some now
  kept : ∀ k other, k ≠ i → before[k]? = some other → after[k]? = some other
  known : ∀ k other, k ≠ i → after[k]? = some other →
    before[k]? = some other ∨ before[k]? = none ∧ other ∈ jobs

theorem changed_set {workers : List Worker} {i : Nat} {w : Worker} (here : workers[i]? = some w)
    (now : Worker) : Changed workers (workers.set i now) i now [] := by
  have bound : i < workers.length := (List.getElem?_eq_some_iff.mp here).1
  refine ⟨by simp [bound], fun k other different found => ?_, fun k other different found => .inl ?_⟩
  · rw [List.getElem?_set_ne (Ne.symm different), found]
  · rwa [List.getElem?_set_ne (Ne.symm different)] at found

theorem changed_set_append {workers : List Worker} {i : Nat} {w : Worker}
    (here : workers[i]? = some w) (now : Worker) (jobs : List Worker) :
    Changed workers (workers.set i now ++ jobs) i now jobs := by
  obtain ⟨own, kept, known⟩ := changed_set here now
  refine ⟨?_, fun k other different found => ?_, fun k other different found => ?_⟩
  · rw [List.getElem?_append_left (List.getElem?_eq_some_iff.mp own).1, own]
  · have stays := kept k other different found
    rw [List.getElem?_append_left (List.getElem?_eq_some_iff.mp stays).1, stays]
  · by_cases old : k < (workers.set i now).length
    · rw [List.getElem?_append_left old] at found
      rcases known k other different found with was | ⟨_, none⟩
      · exact .inl was
      · cases none
    · rw [List.getElem?_append_right (by omega)] at found
      exact .inr ⟨List.getElem?_eq_none (by simpa using old), List.mem_of_getElem? found⟩

theorem changed_append (workers : List Worker) (now : Worker) :
    Changed workers (workers ++ [now]) workers.length now [] := by
  refine ⟨by simp, fun k other different found => ?_, fun k other different found => .inl ?_⟩
  · rw [List.getElem?_append_left (List.getElem?_eq_some_iff.mp found).1, found]
  · have old : k < workers.length := by
      have := (List.getElem?_eq_some_iff.mp found).1
      simp only [List.length_append, List.length_singleton] at this
      omega
    rwa [List.getElem?_append_left old] at found

theorem stance_changed {s next : Crew σ} {i : Nat} {now : Worker} {jobs : List Worker}
    (changed : Changed s.workers next.workers i now jobs)
    (fresh : ∀ job ∈ jobs, job.inside = [] ∧ job.awaits = none) (k : Nat) :
    next.inside k = (if k = i then now.inside else s.inside k) ∧
      next.awaits k = if k = i then now.awaits else s.awaits k := by
  by_cases same : k = i
  · subst same
    rw [if_pos rfl, if_pos rfl]
    exact stance_of changed.own
  · rw [if_neg same, if_neg same]
    cases found : s.workers[k]? with
    | some other =>
      rw [(stance_of found).1, (stance_of found).2]
      exact stance_of (changed.kept k other same found)
    | none =>
      cases foundNow : next.workers[k]? with
      | none => simp [inside, awaits, found, foundNow]
      | some other =>
        rcases changed.known k other same foundNow with old | ⟨_, isJob⟩
        · cases found.symm.trans old
        · obtain ⟨outside, free⟩ := fresh other isJob
          simp [inside, awaits, found, foundNow, outside, free]

def Fresh (least : Nat) (job : Worker) : Prop :=
  job.inside = [] ∧ job.awaits = none ∧ job.doing.Guarded least []

theorem Orderly.changed {least : Nat} {s next : Crew σ} (orderly : s.Orderly least) {i : Nat}
    {now : Worker} {jobs : List Worker} (changed : Changed s.workers next.workers i now jobs)
    {inside : Nat → List String} {awaits : Nat → Option String}
    (placed : Placed next.world.locks inside awaits)
    (own : inside i = now.inside ∧ awaits i = now.awaits)
    (others : ∀ k, k ≠ i → inside k = s.inside k ∧ awaits k = s.awaits k)
    (guarded : now.doing.Guarded least now.inside)
    (asking : ∀ client, now.awaits = some client → now.doing.request? = some (.enter client))
    (fresh : ∀ job ∈ jobs, Fresh least job)
    (writing : ∀ k, next.writer = some k → k ≠ i ∧ s.writer = some k) : next.Orderly least := by
  have stance : ∀ k, next.inside k = inside k ∧ next.awaits k = awaits k := by
    intro k
    have now := stance_changed changed (fun job isJob => ⟨(fresh job isJob).1, (fresh job isJob).2.1⟩) k
    by_cases same : k = i
    · simpa [same, own] using now
    · simpa [same, others k same] using now
  have members : ∀ other ∈ next.workers, other ∈ s.workers ∨ other = now ∨ other ∈ jobs := by
    intro other member
    obtain ⟨k, found⟩ := List.mem_iff_getElem?.mp member
    by_cases same : k = i
    · subst same
      exact .inr (.inl (Option.some.inj (found.symm.trans changed.own)))
    · rcases changed.known k other same found with old | ⟨_, isJob⟩
      · exact .inl (List.mem_of_getElem? old)
      · exact .inr (.inr isJob)
  refine ⟨?_, ?_, ?_, ?_⟩
  · rw [funext fun k => (stance k).1, funext fun k => (stance k).2]
    exact placed
  · intro other member
    rcases members other member with kept | rfl | new
    · exact orderly.guarded other kept
    · exact guarded
    · obtain ⟨outside, _, good⟩ := fresh other new
      rw [outside]
      exact good
  · intro other member client waits
    rcases members other member with kept | rfl | new
    · exact orderly.asking other kept client waits
    · exact asking client waits
    · obtain ⟨_, free, _⟩ := fresh other new
      rw [free] at waits
      cases waits
  · intro k isWriter
    obtain ⟨different, wasWriter⟩ := writing k isWriter
    obtain ⟨other, r, found, asks⟩ := orderly.writing k wasWriter
    exact ⟨other, r, changed.kept k other different found, asks⟩

section

variable {least : Nat} {s : Crew σ} (orderly : s.Orderly least)

include orderly

theorem Orderly.guarded_at {i : Nat} {w : Worker} (here : s.workers[i]? = some w) :
    w.doing.Guarded least w.inside :=
  orderly.guarded w (List.mem_of_getElem? here)

theorem Orderly.not_writer {i : Nat} {w : Worker} (here : s.workers[i]? = some w)
    (idle : ∀ r, w.doing.request? = some r → r.isWrite = false) (k : Nat)
    (isWriter : s.writer = some k) : k ≠ i ∧ s.writer = some k := by
  refine ⟨?_, isWriter⟩
  rintro rfl
  obtain ⟨other, r, found, asks, writes⟩ := orderly.writing k isWriter
  obtain rfl : w = other := Option.some.inj (here.symm.trans found)
  rw [idle r asks] at writes
  cases writes

theorem Orderly.goes_on {next : Crew σ} {i : Nat} {w now : Worker} {jobs : List Worker}
    (here : s.workers[i]? = some w) (changed : Changed s.workers next.workers i now jobs)
    (inside : now.inside = w.inside) (awaits : now.awaits = w.awaits)
    (locks : next.world.locks = s.world.locks)
    (notEntering : ∀ client, w.doing.request? ≠ some (.enter client))
    (guarded : now.doing.Guarded least w.inside) (fresh : ∀ job ∈ jobs, Fresh least job)
    (writing : ∀ k, next.writer = some k → k ≠ i ∧ s.writer = some k) : next.Orderly least := by
  obtain ⟨insideHere, awaitsHere⟩ := stance_of here
  refine orderly.changed changed (locks ▸ orderly.placed) ?_ (fun _ _ => ⟨rfl, rfl⟩) (inside ▸ guarded)
    (fun client waits => ?_) fresh writing
  · rw [insideHere, awaitsHere, inside, awaits]
    exact ⟨rfl, rfl⟩
  · have asks := orderly.asking w (List.mem_of_getElem? here) client (awaits ▸ waits)
    exact absurd asks (notEntering client)

theorem Orderly.answer {scene : Scene σ} {i : Nat} {w : Worker} {r : Request} {go : r.Reply → Doing}
    {reply : r.Reply} {world : World σ} (here : s.workers[i]? = some w) (asks : w.doing.Asks r go)
    (atOnce : ∀ client, r ≠ .enter client)
    (answered : World.respond scene.collaborators i r { s.world with contexts := w.contexts } =
      (reply, world)) :
    Orderly least
      { world := world
        writer := if r.isWrite then none else s.writer
        workers := s.workers.set i ⟨world.contexts, go reply, r.after w.inside, w.awaits⟩
        history := .answered i r s.world.store :: s.history } := by
  obtain ⟨allowed, later⟩ := asks.guarded (orderly.guarded_at here)
  have asked {other : Request} (isOther : w.doing.request? = some other) : r = other :=
    Option.some.inj (asks.request.symm.trans isOther)
  have locks := World.respond_locks scene.collaborators i r { s.world with contexts := w.contexts }
  rw [answered] at locks
  have writing : ∀ k, (if r.isWrite then none else s.writer) = some k → k ≠ i ∧ s.writer = some k := by
    intro k isWriter
    by_cases writes : r.isWrite = true
    · rw [if_pos writes] at isWriter
      cases isWriter
    · rw [if_neg writes] at isWriter
      refine orderly.not_writer here (fun other isOther => ?_) k isWriter
      simpa [asked isOther] using writes
  have notEntering : ∀ client, w.doing.request? ≠ some (.enter client) := fun client entering =>
    atOnce client (asked entering)
  obtain ⟨insideHere, awaitsHere⟩ := stance_of here
  by_cases leaves : ∃ client, r = .leave client
  · obtain ⟨client, rfl⟩ := leaves
    have sameLocks : world.locks = s.world.locks.leave client := locks
    have left := orderly.placed.leave client i (insideHere ▸ allowed)
    rw [← sameLocks] at left
    refine orderly.changed (changed_set here _) left ?_ ?_ (later reply) (fun other waits => ?_)
      (by simp) writing
    · simp [insideHere, awaitsHere, Request.after]
    · simp +contextual
    · exact absurd (orderly.asking w (List.mem_of_getElem? here) other waits) (notEntering other)
  · have kept : r.after w.inside = w.inside ∧ world.locks = s.world.locks := by
      cases r with
      | enter client => exact absurd rfl (atOnce client)
      | leave client => exact absurd ⟨client, rfl⟩ leaves
      | _ => exact ⟨rfl, locks⟩
    exact orderly.goes_on here (changed_set here _) kept.1 rfl kept.2 notEntering
      (kept.1 ▸ later reply) (by simp) writing

section

variable {i : Nat} {w : Worker} {client : String} {go : Unit → Doing}
  (here : s.workers[i]? = some w) (asks : w.doing.Asks (.enter client) go)

include here asks

theorem Orderly.entering_writes_nothing (k : Nat) (isWriter : s.writer = some k) :
    k ≠ i ∧ s.writer = some k := by
  refine orderly.not_writer here (fun r asked => ?_) k isWriter
  obtain rfl := Option.some.inj (asks.request.symm.trans asked)
  rfl

theorem Orderly.sign_up {scene : Scene σ} (fresh : w.awaits = none) :
    Orderly least
      { s with
        world := (World.respond scene.collaborators i (.enter client) s.world).2
        workers := s.workers.set i { w with awaits := some client } } := by
  obtain ⟨allowed, _⟩ := asks.guarded (orderly.guarded_at here)
  obtain ⟨insideHere, awaitsHere⟩ := stance_of here
  have apart : client ∉ s.inside i := by
    rw [insideHere]
    exact fun member => String.lt_irrefl client (allowed client member)
  have signedUp := orderly.placed.sign_up client i (by rw [awaitsHere, fresh]) apart
  refine orderly.changed (changed_set here _) signedUp ?_ ?_ (orderly.guarded_at (w := w) here)
    (fun other waits => ?_) (by simp) (orderly.entering_writes_nothing here asks)
  · simp [insideHere]
  · simp +contextual
  · obtain rfl := Option.some.inj waits
    exact asks.request

theorem Orderly.go_in (waits : w.awaits = some client)
    (holds : s.world.locks.isHolder client i = true) :
    Orderly least
      { s with
        workers := s.workers.set i ⟨w.contexts, go (), client :: w.inside, none⟩
        history := .answered i (.enter client) s.world.store :: s.history } := by
  obtain ⟨_, later⟩ := asks.guarded (orderly.guarded_at here)
  obtain ⟨insideHere, awaitsHere⟩ := stance_of here
  have wentIn := orderly.placed.go_in client i (by rw [awaitsHere, waits]) holds
  refine orderly.changed (changed_set here _) wentIn ?_ ?_ (later ()) (by simp) (by simp)
    (orderly.entering_writes_nothing here asks)
  · simp [insideHere]
  · simp +contextual

end

end

theorem orderly_step {least : Nat} {scene : Scene σ}
    (enough : least ≤ scene.settings.recomputeConcurrency.toNat) {s next : Crew σ}
    (orderly : s.Orderly least) (step : Step scene s next) : next.Orderly least := by
  cases step with
  | begin errand =>
    refine orderly.changed (changed_append s.workers _) orderly.placed (by simp [inside, awaits])
      (fun _ _ => ⟨rfl, rfl⟩) (errand.routine_guarded scene.settings least enough) (by simp) (by simp)
      fun k isWriter => ?_
    obtain ⟨w, r, found, _⟩ := orderly.writing k isWriter
    have bound := (List.getElem?_eq_some_iff.mp found).1
    exact ⟨by omega, isWriter⟩
  | meanwhile store allowed => exact ⟨orderly.placed, orderly.guarded, orderly.asking, orderly.writing⟩
  | answer i w r go reply world here asks atOnce mayWrite answered =>
    exact orderly.answer here asks atOnce answered
  | seize i w r go here asks writes free =>
    refine ⟨orderly.placed, orderly.guarded, orderly.asking, fun k same => ?_⟩
    obtain rfl := Option.some.inj same
    exact ⟨w, r, here, asks.request, writes⟩
  | signUp i w client go here asks fresh => exact orderly.sign_up here asks fresh
  | goIn i w client go here asks waits holds => exact orderly.go_in here asks waits holds
  | finish i w result here done =>
    have guarded := orderly.guarded_at here
    rw [done] at guarded
    exact orderly.goes_on here (changed_set here _) rfl rfl rfl (by simp [done, Doing.request?]) guarded
      (by simp) (orderly.not_writer here (by simp [done, Doing.request?]))
  | fork i w limit jobs go here hands =>
    have guarded := orderly.guarded_at here
    rw [hands] at guarded
    obtain ⟨outside, enough, each, later⟩ := guarded
    refine orderly.goes_on here (changed_set_append here _ _) rfl rfl rfl
      (by simp [hands, Doing.request?]) ⟨outside, later⟩ (fun job member => ?_)
      (orderly.not_writer here (by simp [hands, Doing.request?]))
    obtain ⟨program, isJob, rfl⟩ := List.mem_map.mp member
    exact ⟨rfl, rfl, enough, each program isJob, fun _ => rfl⟩
  | start i w owner limit job here waits room =>
    have guarded := orderly.guarded_at here
    rw [waits] at guarded
    exact orderly.goes_on here (changed_set here _) rfl rfl rfl (by simp [waits, Doing.request?])
      ⟨guarded.1, guarded.2.1, by simp⟩ (by simp)
      (orderly.not_writer here (by simp [waits, Doing.request?]))
  | join i w first go outcomes here waits ended =>
    have guarded := orderly.guarded_at here
    rw [waits] at guarded
    obtain ⟨outside, later⟩ := guarded
    have continues : (Doing.call (go outcomes)).Guarded least w.inside := outside ▸ later outcomes
    exact orderly.goes_on here (changed_set here _) rfl rfl rfl (by simp [waits, Doing.request?])
      continues (by simp) (orderly.not_writer here (by simp [waits, Doing.request?]))

theorem Reaches.orderly {least : Nat} {scene : Scene σ}
    (enough : least ≤ scene.settings.recomputeConcurrency.toNat) {w : World σ} {s : Crew σ}
    (reached : Reaches scene w s) : s.Orderly least := by
  induction reached with
  | start => exact orderly_initial least w
  | step _ step ih => exact orderly_step enough ih step

end Crew

end TagRules
