import TagRules.Proofs.Service.Calls
import TagRules.Proofs.Service.Requests

/-!
Which worker takes the next step is left open, so the runs of a crew are all ways in which its calls
can be interleaved where they wait.
-/

set_option autoImplicit false

namespace TagRules

inductive Errand
  | assignManually (client tag : String)
  | evaluate (entity : Value) (company : Option String) (trigger : String)
  | reevaluate (tag : Tag) (entities : List Value)
  | recompute (company : Option String) (entities : List Value)

-- What the calls of one service have in common: its settings, its tag source and store, how a link
-- is made by hand, and what else may become of the store while all calls wait.
structure Scene (σ : Type) where
  settings : Settings
  collaborators : Collaborators σ
  assignManually : String → String → σ → σ
  meanwhile : σ → σ → Prop

-- The store in memory beside any tag source, whose tags may change at any time. No call fails by a
-- rule of failure unless one is set.
def Scene.inMemory (settings : Settings) (source : Option String → Memory → Memory.Loading) :
    Scene Memory where
  settings := settings
  collaborators :=
    { Memory.collaborators with
      listTags := fun company m => ((source company m).1, (source company m).2, m) }
  assignManually client tag m := { m with table := m.table.assignManually client tag }
  meanwhile m later := later.table = m.table ∧ later.rules = m.rules

namespace Errand

open Service

variable {σ : Type}

def routine (settings : Settings) : Errand → Routine Session.Result
  | .assignManually client tag => .done (.ok (.link ⟨tag, false, some client⟩))
  | .evaluate entity company trigger =>
      (Routine.ofProgram (evaluateAndAssign settings entity company trigger)).bind fun result =>
        .done (result.map .outcome)
  | .reevaluate tag entities =>
      (Routine.ofProgram (reevaluateTag settings tag entities)).bind fun result =>
        .done (result.map .tagDiff)
  | .recompute company entities =>
      (recomputeCompany settings company entities).bind fun result =>
        .done (result.map .report)

-- A link is made by hand without waiting for anything; the other calls start with nothing done.
def outset (scene : Scene σ) : Errand → σ → σ
  | .assignManually client tag, store => scene.assignManually client tag store
  | _, store => store

def perform (scene : Scene σ) (errand : Errand) (w : World σ) : World σ :=
  ((errand.routine scene.settings).run (World.respond scene.collaborators 0)
    { w with store := errand.outset scene w.store }).2

def performAll (scene : Scene σ) (errands : List Errand) (w : World σ) : World σ :=
  errands.foldl (fun w errand => errand.perform scene w) w

end Errand

inductive Doing
  | call (rest : Routine Session.Result)
  | joining (first count : Nat) (next : List Outcome → Routine Session.Result)
  | job (owner limit : Nat) (admitted : Bool) (rest : Program Outcome)
  | ended (result : Session.Result)

inductive Doing.Asks : Doing → (r : Request) → (r.Reply → Doing) → Prop
  | call (r : Request) (next : r.Reply → Routine Session.Result) :
      Asks (.call (.ask r next)) r fun reply => .call (next reply)
  | job (owner limit : Nat) (r : Request) (next : r.Reply → Program Outcome) :
      Asks (.job owner limit true (.ask r next)) r fun reply => .job owner limit true (next reply)

def Doing.holdsPermit (owner : Nat) : Doing → Bool
  | .job other _ true (.ask _ _) => decide (other = owner)
  | _ => false

structure Worker where
  contexts : List Context
  doing : Doing
  inside : List String
  awaits : Option String

inductive Happening (σ : Type)
  | began (worker : Nat) (errand : Errand)
  | answered (worker : Nat) (r : Request) (store : σ)
  | ended (worker : Nat) (result : Session.Result)

structure Crew (σ : Type) where
  world : World σ
  writer : Option Nat
  workers : List Worker
  -- What happened so far, the last first.
  history : List (Happening σ)

def Request.after (inside : List String) : Request → List String
  | .enter client => client :: inside
  | .leave client => inside.erase client
  | _ => inside

namespace Crew

variable {σ : Type}

def initial (w : World σ) : Crew σ := ⟨{ w with locks := LockTable.empty }, none, [], []⟩

def put (i : Nat) (w : Worker) (s : Crew σ) : Crew σ := { s with workers := s.workers.set i w }

def permitsHeld (owner : Nat) (s : Crew σ) : Nat := s.workers.countP fun w => w.doing.holdsPermit owner

inductive Step (scene : Scene σ) (s : Crew σ) : Crew σ → Prop
  | begin (errand : Errand) :
      Step scene s
        { s with
          world := { s.world with store := errand.outset scene s.world.store }
          workers := s.workers ++ [⟨[], .call (errand.routine scene.settings), [], none⟩]
          history := .began s.workers.length errand :: s.history }
  | meanwhile (store : σ) (allowed : scene.meanwhile s.world.store store) :
      Step scene s { s with world := { s.world with store := store } }
  | answer (i : Nat) (w : Worker) (r : Request) (next : r.Reply → Doing) (reply : r.Reply)
      (world : World σ) (here : s.workers[i]? = some w) (asks : w.doing.Asks r next)
      (atOnce : ∀ client, r ≠ .enter client) (mayWrite : r.isWrite = true → s.writer = some i)
      (answered : World.respond scene.collaborators i r { s.world with contexts := w.contexts } =
        (reply, world)) :
      Step scene s
        { world := world
          writer := if r.isWrite then none else s.writer
          workers := s.workers.set i ⟨world.contexts, next reply, r.after w.inside, w.awaits⟩
          history := .answered i r s.world.store :: s.history }
  | seize (i : Nat) (w : Worker) (r : Request) (next : r.Reply → Doing)
      (here : s.workers[i]? = some w) (asks : w.doing.Asks r next) (writes : r.isWrite = true)
      (free : s.writer = none) : Step scene s { s with writer := some i }
  -- A lock is entered in two steps: a worker signs up for it, and goes on once it is the holder.
  | signUp (i : Nat) (w : Worker) (client : String) (next : Unit → Doing)
      (here : s.workers[i]? = some w) (asks : w.doing.Asks (.enter client) next)
      (fresh : w.awaits = none) :
      Step scene s
        { s with
          world := (World.respond scene.collaborators i (.enter client) s.world).2
          workers := s.workers.set i { w with awaits := some client } }
  | goIn (i : Nat) (w : Worker) (client : String) (next : Unit → Doing)
      (here : s.workers[i]? = some w) (asks : w.doing.Asks (.enter client) next)
      (awaits : w.awaits = some client) (holds : s.world.locks.isHolder client i = true) :
      Step scene s
        { s with
          workers := s.workers.set i ⟨w.contexts, next (), client :: w.inside, none⟩
          history := .answered i (.enter client) s.world.store :: s.history }
  | finish (i : Nat) (w : Worker) (result : Session.Result) (here : s.workers[i]? = some w)
      (done : w.doing = .call (.done result)) :
      Step scene s
        { s with
          workers := s.workers.set i { w with doing := .ended result }
          history := .ended i result :: s.history }
  | fork (i : Nat) (w : Worker) (limit : Nat) (jobs : List (Program Outcome))
      (next : List Outcome → Routine Session.Result) (here : s.workers[i]? = some w)
      (hands : w.doing = .call (.each limit jobs next)) :
      Step scene s
        { s with
          workers :=
            s.workers.set i { w with doing := .joining s.workers.length jobs.length next } ++
              jobs.map fun job => ⟨w.contexts, .job i limit false job, [], none⟩ }
  | start (i : Nat) (w : Worker) (owner limit : Nat) (job : Program Outcome)
      (here : s.workers[i]? = some w) (waits : w.doing = .job owner limit false job)
      (room : s.permitsHeld owner < limit) :
      Step scene s (s.put i { w with doing := .job owner limit true job })
  | join (i : Nat) (w : Worker) (first : Nat) (next : List Outcome → Routine Session.Result)
      (outcomes : List Outcome) (here : s.workers[i]? = some w)
      (waits : w.doing = .joining first outcomes.length next)
      (ended : ∀ k outcome, outcomes[k]? = some outcome → ∃ job owner limit,
        s.workers[first + k]? = some job ∧ job.doing = .job owner limit true (.done outcome)) :
      Step scene s (s.put i { w with doing := .call (next outcomes) })

inductive Reaches (scene : Scene σ) (w : World σ) : Crew σ → Prop
  | start : Reaches scene w (initial w)
  | step {s next : Crew σ} (reached : Reaches scene w s) (step : Step scene s next) :
      Reaches scene w next

end Crew

end TagRules
