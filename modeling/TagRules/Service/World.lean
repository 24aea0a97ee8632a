import TagRules.Metrics
import TagRules.Service.Locks
import TagRules.Service.Program

set_option autoImplicit false

namespace TagRules

abbrev Answered (σ α : Type) := Except Fault α × List Event × σ

structure Collaborators (σ : Type) where
  listTags : Option String → σ → Answered σ (List Tag)
  listLinks : String → σ → Answered σ (List Assignment)
  listTagLinks : String → σ → Answered σ (List Assignment)
  applyDiff : String → Diff → σ → Answered σ Unit
  applyTagDiff : TagDiff → σ → Answered σ Unit

structure World (σ : Type) where
  store : σ
  metrics : Metrics
  locks : LockTable
  lines : List Line
  contexts : List Context

namespace World

variable {σ α : Type}

def initial (store : σ) : World σ := ⟨store, Metrics.empty, LockTable.empty, [], []⟩

def context (w : World σ) : Context := w.contexts.head?.getD Context.none

def log (event : Event) (w : World σ) : World σ :=
  { w with lines := w.lines ++ [Log.render w.context event] }

def call (ask : σ → Answered σ α) (w : World σ) : Except Fault α × World σ :=
  let answered := ask w.store
  (answered.1, answered.2.1.foldl (fun w event => w.log event) { w with store := answered.2.2 })

theorem log_all (events : List Event) (w : World σ) :
    events.foldl (fun w event => w.log event) w =
      { w with lines := w.lines ++ events.map (Log.render w.context) } := by
  induction events generalizing w with
  | nil => rw [List.map_nil, List.append_nil]; rfl
  | cons event rest ih =>
    rw [List.foldl_cons, ih, List.map_cons, List.append_cons]
    rfl

theorem call_world (ask : σ → Answered σ α) (w : World σ) :
    (w.call ask).2 =
      { w with
        store := (ask w.store).2.2
        lines := w.lines ++ (ask w.store).2.1.map (Log.render w.context) } := log_all _ _

-- Answers a request of a task. A lock is entered at once: the task runs alone.
def respond (c : Collaborators σ) (task : Nat) : (r : Request) → World σ → r.Reply × World σ
  | .listTags company, w => w.call (c.listTags company)
  | .listLinks client, w => w.call (c.listLinks client)
  | .listTagLinks tag, w => w.call (c.listTagLinks tag)
  | .applyDiff client diff, w => w.call (c.applyDiff client diff)
  | .applyTagDiff diff, w => w.call (c.applyTagDiff diff)
  | .enter client, w => ((), { w with locks := w.locks.enter client task })
  | .leave client, w => ((), { w with locks := w.locks.leave client })
  | .openContext context, w => ((), { w with contexts := context :: w.contexts })
  | .closeContext, w => ((), { w with contexts := w.contexts.tail })
  | .emit event, w => ((), w.log event)
  | .countRun trigger added removed, w =>
      ((), { w with metrics := w.metrics.recordRun trigger added removed })
  | .countError kind service, w =>
      ((), { w with metrics := w.metrics.recordError kind service })

end World

end TagRules
