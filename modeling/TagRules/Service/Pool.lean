import TagRules.Service.World

/-!
A task runs until it has to wait, or until it rests before a call; then the next wake-up in the queue
is served.
-/

set_option autoImplicit false

namespace TagRules

inductive Work (σ α : Type)
  | routine (r : Routine α)
  | instant (change : World σ → α × World σ)
  | together (parts : List (Work σ α)) (combine : List α → α)

-- Where a task stands. `rested` tells that it has rested before the call it is at.
inductive Stage (σ α : Type)
  | working (work : Work σ α) (rested : Bool)
  | joining (first count left : Nat) (next : List Outcome → Routine α)
  | awaiting (first count left : Nat) (combine : List α → α)
  | job (owner : Nat) (admitted : Bool) (program : Program Outcome) (rested : Bool)
  | ended (a : α)
  | jobEnded (outcome : Outcome)

structure Task (σ α : Type) where
  contexts : List Context
  stage : Stage σ α

inductive Wake
  | resume (task : Nat)
  | joined (task : Nat)
  deriving DecidableEq

structure Permits where
  free : Nat
  waiting : List Nat

structure Pool (σ α : Type) where
  world : World σ
  tasks : List (Task σ α)
  permits : Dictionary Nat Permits
  queue : List Wake

inductive Reaction (σ : Type) (r : Request)
  | answer (reply : r.Reply) (world : World σ) (woken : List Nat)
  | rest
  | wait (world : World σ)

namespace Pool

variable {σ α : Type}

-- How a task's request is taken. A slow call makes the task rest first; a lock that another task
-- holds makes it wait, and leaving a lock wakes the task that it is handed to.
def react (c : Collaborators σ) (slow : Bool) (task : Nat) (rested : Bool) (r : Request)
    (w : World σ) : Reaction σ r :=
  if slow && r.isCall && !rested then .rest
  else
    match r with
    | .enter client =>
        if w.locks.isHolder client task then .answer () w []
        else
          let entered := { w with locks := w.locks.enter client task }
          if entered.locks.isHolder client task then .answer () entered [] else .wait entered
    | .leave client =>
        .answer () { w with locks := w.locks.leave client }
          ((w.locks.lockOf client).waiting.head?.toList)
    | r =>
        let answered := World.respond c task r w
        .answer answered.1 answered.2 []

structure Advance (σ β γ : Type) where
  result : β ⊕ γ
  resting : Bool
  world : World σ
  woken : List Nat

def runProgram {β : Type} (c : Collaborators σ) (slow : Bool) (task : Nat) :
    Bool → Program β → World σ → Advance σ β (Program β)
  | _, .done b, w => ⟨.inl b, false, w, []⟩
  | rested, .ask r next, w =>
      match react c slow task rested r w with
      | .rest => ⟨.inr (.ask r next), true, w, []⟩
      | .wait w' => ⟨.inr (.ask r next), false, w', []⟩
      | .answer reply w' woken =>
          let rest := runProgram c slow task false (next reply) w'
          { rest with woken := woken ++ rest.woken }

def runRoutine (c : Collaborators σ) (slow : Bool) (task : Nat) :
    Bool → Routine α → World σ → Advance σ α (Routine α)
  | _, .done a, w => ⟨.inl a, false, w, []⟩
  | _, .each _ [] next, w => runRoutine c slow task false (next []) w
  | _, .each limit jobs next, w => ⟨.inr (.each limit jobs next), false, w, []⟩
  | rested, .ask r next, w =>
      match react c slow task rested r w with
      | .rest => ⟨.inr (.ask r next), true, w, []⟩
      | .wait w' => ⟨.inr (.ask r next), false, w', []⟩
      | .answer reply w' woken =>
          let rest := runRoutine c slow task false (next reply) w'
          { rest with woken := woken ++ rest.woken }

def setTask (i : Nat) (contexts : List Context) (stage : Stage σ α) (pool : Pool σ α) :
    Pool σ α :=
  { pool with tasks := pool.tasks.set i ⟨contexts, stage⟩ }

def wake (tasks : List Nat) (pool : Pool σ α) : Pool σ α :=
  { pool with queue := pool.queue ++ tasks.map .resume }

def adopt {β γ : Type} (i : Nat) (ran : Advance σ β γ) (stage : Stage σ α) (pool : Pool σ α) :
    Pool σ α :=
  wake (ran.woken ++ if ran.resting then [i] else [])
    (setTask i ran.world.contexts stage { pool with world := ran.world })

def fork (i : Nat) (contexts : List Context) (limit : Nat) (jobs : List (Program Outcome))
    (next : List Outcome → Routine α) (pool : Pool σ α) : Pool σ α :=
  let first := pool.tasks.length
  let started := jobs.map fun p => (⟨contexts, .job i false p false⟩ : Task σ α)
  let waiting := setTask i contexts (.joining first jobs.length jobs.length next) pool
  wake ((List.range jobs.length).map (first + ·))
    { waiting with
      tasks := waiting.tasks ++ started
      permits := Dictionary.put i ⟨limit, []⟩ waiting.permits }

def spread (i : Nat) (contexts : List Context) (parts : List (Work σ α))
    (combine : List α → α) (pool : Pool σ α) : Pool σ α :=
  let first := pool.tasks.length
  let started := parts.map fun work => (⟨contexts, .working work false⟩ : Task σ α)
  let waiting := setTask i contexts (.awaiting first parts.length parts.length combine) pool
  wake ((List.range parts.length).map (first + ·))
    { waiting with tasks := waiting.tasks ++ started }

def finish (i : Nat) (pool : Pool σ α) : Pool σ α :=
  { pool with queue := pool.queue ++ [.joined i] }

def permitsOf (owner : Nat) (pool : Pool σ α) : Permits :=
  (Dictionary.get? owner pool.permits).getD ⟨0, []⟩

def runJob (c : Collaborators σ) (slow : Bool) (i owner : Nat) (contexts : List Context)
    (program : Program Outcome) (rested : Bool) (pool : Pool σ α) : Pool σ α :=
  let ran := runProgram c slow i rested program { pool.world with contexts := contexts }
  match ran.result with
  | .inr rest => adopt i ran (.job owner true rest ran.resting) pool
  | .inl outcome =>
      let ended := adopt i ran (.jobEnded outcome) pool
      let permits := ended.permitsOf owner
      match permits.waiting with
      | [] =>
          { ended with
            permits := Dictionary.put owner ⟨permits.free + 1, []⟩ ended.permits
            queue := ended.queue ++ [.joined i] }
      | heir :: others =>
          { ended with
            permits := Dictionary.put owner ⟨permits.free, others⟩ ended.permits
            tasks := ended.tasks.modify heir fun t =>
              match t.stage with
              | .job owner _ program rested => { t with stage := .job owner true program rested }
              | _ => t
            queue := ended.queue ++ [.resume heir, .joined i] }

def letIn (c : Collaborators σ) (slow : Bool) (i owner : Nat) (contexts : List Context)
    (program : Program Outcome) (pool : Pool σ α) : Pool σ α :=
  let permits := pool.permitsOf owner
  if 0 < permits.free ∧ permits.waiting = [] then
    runJob c slow i owner contexts program false
      { pool with permits := Dictionary.put owner ⟨permits.free - 1, []⟩ pool.permits }
  else
    { pool with
      permits := Dictionary.put owner ⟨permits.free, permits.waiting ++ [i]⟩ pool.permits }

def resume (c : Collaborators σ) (slow : Bool) (i : Nat) (pool : Pool σ α) : Pool σ α :=
  match pool.tasks[i]? with
  | none => pool
  | some task =>
      match task.stage with
      | .working (.instant change) _ =>
          let changed := change { pool.world with contexts := task.contexts }
          finish i (setTask i task.contexts (.ended changed.1) { pool with world := changed.2 })
      | .working (.together [] combine) _ =>
          finish i (setTask i task.contexts (.ended (combine [])) pool)
      | .working (.together parts combine) _ => spread i task.contexts parts combine pool
      | .working (.routine r) rested =>
          let ran := runRoutine c slow i rested r { pool.world with contexts := task.contexts }
          match ran.result with
          | .inl a => finish i (adopt i ran (.ended a) pool)
          | .inr (.each limit jobs next) =>
              fork i ran.world.contexts limit jobs next
                (wake ran.woken { pool with world := ran.world })
          | .inr rest => adopt i ran (.working (.routine rest) ran.resting) pool
      | .job owner true program rested =>
          runJob c slow i owner task.contexts program rested pool
      | .job owner false program _ => letIn c slow i owner task.contexts program pool
      | _ => pool

def outcomes (first count : Nat) (pool : Pool σ α) : List Outcome :=
  ((pool.tasks.drop first).take count).filterMap fun task =>
    match task.stage with
    | .jobEnded outcome => some outcome
    | _ => none

def partResults (first count : Nat) (pool : Pool σ α) : List α :=
  ((pool.tasks.drop first).take count).filterMap fun task =>
    match task.stage with
    | .ended a => some a
    | _ => none

def join (owner : Nat) (pool : Pool σ α) : Pool σ α :=
  match pool.tasks[owner]? with
  | none => pool
  | some task =>
      match task.stage with
      | .joining first count left next =>
          if left ≤ 1 then
            wake [owner] (setTask owner task.contexts
              (.working (.routine (next (pool.outcomes first count))) false) pool)
          else setTask owner task.contexts (.joining first count (left - 1) next) pool
      | .awaiting first count left combine =>
          if left ≤ 1 then
            wake [owner] (setTask owner task.contexts
              (.working (.instant (combine (pool.partResults first count), ·)) false) pool)
          else setTask owner task.contexts (.awaiting first count (left - 1) combine) pool
      | _ => pool

def ownerOf? (i : Nat) (pool : Pool σ α) : Option Nat :=
  pool.tasks.findIdx? fun task =>
    match task.stage with
    | .joining first count _ _ => decide (first ≤ i) && decide (i < first + count)
    | .awaiting first count _ _ => decide (first ≤ i) && decide (i < first + count)
    | _ => false

def serve (c : Collaborators σ) (slow : Bool) (wake : Wake) (pool : Pool σ α) : Pool σ α :=
  match wake with
  | .resume i => resume c slow i pool
  | .joined i =>
      match pool.ownerOf? i with
      | some owner => join owner pool
      | none => pool

def settle (c : Collaborators σ) (slow : Bool) : Nat → Pool σ α → Pool σ α
  | 0, pool => pool
  | turns + 1, pool =>
      match pool.queue with
      | [] => pool
      | first :: rest => settle c slow turns (serve c slow first { pool with queue := rest })

def start (work : Work σ α) (w : World σ) : Pool σ α :=
  ⟨w, [⟨w.contexts, .working work false⟩], [], [.resume 0]⟩

def result? (pool : Pool σ α) : Option α := (pool.partResults 0 1).head?

end Pool

end TagRules
