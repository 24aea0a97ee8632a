import TagRules.Service.Memory
import TagRules.Service.Operations
import TagRules.Service.Pool

set_option autoImplicit false

namespace TagRules

inductive Step
  | putTag (company tag : String) (payload : Value)
  | listTags (company : Option String)
  | assignManually (client tag : String)
  | snapshot
  | listLinks (client : String)
  | listTagLinks (tag : String)
  | applyDiff (client : String) (diff : Diff)
  | applyTagDiff (diff : TagDiff)
  | evaluate (client : Value) (company : Option String) (trigger : String)
  | reevaluate (tag : String) (payload : Value) (clients : List Value)
  | recompute (company : Option String) (clients : List Value)
  | fail (rule : FailureRule)
  | heal
  | metrics
  | locks
  | gather (steps : List Step)
  deriving Inhabited

inductive Reply
  | nothing
  | tag (tag : Tag)
  | tags (tags : List Tag)
  | link (link : Assignment)
  | links (links : List Assignment)
  | outcome (outcome : Outcome)
  | tagDiff (diff : TagDiff)
  | report (report : Report)
  | samples (samples : List (Meter × Nat))
  | counts (locks users : Nat)
  | several (replies : List (Except Fault Reply))

-- What stays the same during a session. With slow calls, tasks rest before every call.
structure SessionPlan where
  settings : Settings
  limits : Limits
  slow : Bool

namespace Session

abbrev State := World Memory

abbrev Result := Except Fault Reply

def initial : State := World.initial Memory.empty

def putTag (plan : SessionPlan) (company tag : String) (payload : Value) (w : State) :
    Result × State :=
  match w.store.tags.put plan.limits company tag payload with
  | .error e => (.error e, w)
  | .ok (stored, tags) => (.ok (.tag stored), { w with store := { w.store with tags := tags } })

def assignManually (client tag : String) (w : State) : Result × State :=
  (.ok (.link ⟨tag, false, some client⟩),
    { w with store := { w.store with table := w.store.table.assignManually client tag } })

def setRules (rules : List FailureRule) (w : State) : Result × State :=
  (.ok .nothing, { w with store := { w.store with rules := rules } })

def asked {r : Request} {α : Type} (reply : α → Reply)
    (cast : r.Reply → Except Fault α) : Routine Result :=
  (Routine.request r).bind fun answer => .done ((cast answer).map reply)

mutual

def perform (work : Work Memory Result) (w : State) : Result × State :=
  match work with
  | .instant change => change w
  | .routine r => r.run (World.respond Memory.collaborators 0) w
  | .together parts combine =>
      let done := performInTurn parts w
      (combine done.1, done.2)

def performInTurn (works : List (Work Memory Result)) (w : State) : List Result × State :=
  match works with
  | [] => ([], w)
  | work :: rest =>
      let first := perform work w
      let others := performInTurn rest first.2
      (first.1 :: others.1, others.2)

end

mutual

def workOf (plan : SessionPlan) : Step → Work Memory Result
  | .putTag company tag payload => .instant (putTag plan company tag payload)
  | .assignManually client tag => .instant (assignManually client tag)
  | .snapshot => .instant fun w => (.ok (.links (Dictionary.values w.store.table)), w)
  | .fail rule => .instant fun w => setRules (w.store.rules ++ [rule]) w
  | .heal => .instant (setRules [])
  | .metrics =>
      .instant fun w => (.ok (.samples (w.metrics.samples plan.settings.serviceName)), w)
  | .locks => .instant fun w => (.ok (.counts w.locks.locks.length w.locks.users.length), w)
  | .gather steps => .together (worksOf plan steps) fun results => .ok (.several results)
  | .listTags company => .routine (asked (r := .listTags company) Reply.tags id)
  | .listLinks client => .routine (asked (r := .listLinks client) Reply.links id)
  | .listTagLinks tag => .routine (asked (r := .listTagLinks tag) Reply.links id)
  | .applyDiff client diff =>
      .routine (asked (r := .applyDiff client diff) (fun _ => Reply.nothing) id)
  | .applyTagDiff diff => .routine (asked (r := .applyTagDiff diff) (fun _ => Reply.nothing) id)
  | .evaluate client company trigger =>
      .routine ((Routine.ofProgram
        (Service.evaluateAndAssign plan.settings client company trigger)).bind fun result =>
          .done (result.map .outcome))
  | .reevaluate tag payload clients =>
      match Condition.read plan.limits payload with
      | .error e => .routine (.done (.error e))
      | .ok condition =>
          .routine ((Routine.ofProgram
            (Service.reevaluateTag plan.settings ⟨tag, condition⟩ clients)).bind fun result =>
              .done (result.map .tagDiff))
  | .recompute company clients =>
      .routine ((Service.recomputeCompany plan.settings company clients).bind fun result =>
        .done (result.map .report))

def worksOf (plan : SessionPlan) : List Step → List (Work Memory Result)
  | [] => []
  | step :: rest => workOf plan step :: worksOf plan rest

end

mutual

def size : Step → Nat
  | .gather steps => 1 + sizeOfAll steps
  | .reevaluate _ _ clients => 1 + clients.length
  | .recompute _ clients => 1 + clients.length
  | _ => 2

def sizeOfAll : List Step → Nat
  | [] => 0
  | step :: rest => size step + sizeOfAll rest

end

-- More wake-ups than the tasks of a step can cause: each step and each client has a few, and each
-- client that a tag is unlinked from has one for its lock.
def turnBound (step : Step) (w : State) : Nat :=
  let tags := (w.store.tags.map fun entry => entry.2.length).foldr (· + ·) 0 + size step
  let rows := w.store.table.length + size step * tags
  8 * (size step + 1) * (size step + rows + 8)

def performPooled (plan : SessionPlan) (turns : Nat) (work : Work Memory Result) (w : State) :
    Result × State :=
  let settled := (Pool.start work w).settle Memory.collaborators plan.slow turns
  (settled.result?.getD (.error (.runtime "task did not end")),
    { settled.world with contexts := w.contexts })

def isGather : Step → Bool
  | .gather _ => true
  | _ => false

def runStep (plan : SessionPlan) (step : Step) (w : State) : Result × State :=
  let work := workOf plan step
  if plan.slow || isGather step then performPooled plan (turnBound step w) work w
  else perform work w

def run (plan : SessionPlan) : List Step → State → List (Result × List Line)
  | [], _ => []
  | step :: rest, w =>
      let done := runStep plan step { w with lines := [] }
      (done.1, done.2.lines) :: run plan rest done.2

end Session

end TagRules
