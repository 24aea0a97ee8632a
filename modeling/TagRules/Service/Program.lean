import TagRules.Assignment.Basic
import TagRules.Fault
import TagRules.Log

/-!
A program is a tree of requests, each followed by the program for every possible reply; who answers,
and what else happens in between, is left open.
-/

set_option autoImplicit false

namespace TagRules

inductive Request
  | listTags (company : Option String)
  | listLinks (client : String)
  | listTagLinks (tag : String)
  | applyDiff (client : String) (diff : Diff)
  | applyTagDiff (diff : TagDiff)
  | enter (client : String)
  | leave (client : String)
  | openContext (context : Context)
  | closeContext
  | emit (event : Event)
  | countRun (trigger : String) (added removed : Nat)
  | countError (kind service : String)

namespace Request

abbrev Reply : Request → Type
  | .listTags _ => Except Fault (List Tag)
  | .listLinks _ => Except Fault (List Assignment)
  | .listTagLinks _ => Except Fault (List Assignment)
  | .applyDiff _ _ => Except Fault Unit
  | .applyTagDiff _ => Except Fault Unit
  | _ => Unit

def isCall : Request → Bool
  | .listTags _ => true
  | .listLinks _ => true
  | .listTagLinks _ => true
  | .applyDiff _ _ => true
  | .applyTagDiff _ => true
  | _ => false

end Request

inductive Program (α : Type)
  | done (a : α)
  | ask (request : Request) (next : request.Reply → Program α)

namespace Program

variable {α β : Type}

def bind : Program α → (α → Program β) → Program β
  | .done a, f => f a
  | .ask request next, f => .ask request fun reply => (next reply).bind f

instance : Monad Program where
  pure := .done
  bind := bind

def request (r : Request) : Program r.Reply := .ask r .done

def run {σ : Type} (respond : (r : Request) → σ → r.Reply × σ) : Program α → σ → α × σ
  | .done a, s => (a, s)
  | .ask r next, s =>
      let answered := respond r s
      (next answered.1).run respond answered.2

@[simp] theorem run_bind {σ : Type} (respond : (r : Request) → σ → r.Reply × σ)
    (p : Program α) (f : α → Program β) (s : σ) :
    (p.bind f).run respond s = (f (p.run respond s).1).run respond (p.run respond s).2 := by
  induction p generalizing s with
  | done a => rfl
  | ask r next ih => exact ih _ _

@[simp] theorem run_then {σ : Type} (respond : (r : Request) → σ → r.Reply × σ)
    (p : Program α) (f : α → Program β) (s : σ) :
    (p >>= f).run respond s = (f (p.run respond s).1).run respond (p.run respond s).2 :=
  run_bind respond p f s

theorem then_then {γ : Type} (p : Program α) (f : α → Program β) (g : β → Program γ) :
    (p >>= f) >>= g = p >>= fun a => f a >>= g := by
  change (p.bind f).bind g = p.bind fun a => (f a).bind g
  induction p with
  | done a => rfl
  | ask r next ih =>
    simp only [bind]
    exact congrArg (ask r) (funext ih)

@[simp] theorem run_pure {σ : Type} (respond : (r : Request) → σ → r.Reply × σ) (a : α) (s : σ) :
    (pure a : Program α).run respond s = (a, s) := rfl

@[simp] theorem run_request {σ : Type} (respond : (r : Request) → σ → r.Reply × σ) (r : Request)
    (s : σ) : (request r).run respond s = respond r s := rfl

theorem run_keeps {σ : Type} (respond : (r : Request) → σ → r.Reply × σ) (P : σ → Prop)
    (answered : ∀ r s, P s → P (respond r s).2) (p : Program α) (s : σ) (start : P s) :
    P (p.run respond s).2 := by
  induction p generalizing s with
  | done a => exact start
  | ask r next ih => exact ih _ _ (answered r s start)

end Program

inductive Routine (α : Type)
  | done (a : α)
  | ask (request : Request) (next : request.Reply → Routine α)
  | each (limit : Nat) (jobs : List (Program Outcome)) (next : List Outcome → Routine α)

namespace Routine

variable {α β : Type}

def bind : Routine α → (α → Routine β) → Routine β
  | .done a, f => f a
  | .ask request next, f => .ask request fun reply => (next reply).bind f
  | .each limit jobs next, f => .each limit jobs fun outcomes => (next outcomes).bind f

instance : Monad Routine where
  pure := .done
  bind := bind

def request (r : Request) : Routine r.Reply := .ask r .done

def ofProgram : Program α → Routine α
  | .done a => .done a
  | .ask request next => .ask request fun reply => ofProgram (next reply)

def runJobs {σ : Type} (respond : (r : Request) → σ → r.Reply × σ) :
    List (Program α) → σ → List α × σ
  | [], s => ([], s)
  | job :: rest, s =>
      let first := job.run respond s
      let others := runJobs respond rest first.2
      (first.1 :: others.1, others.2)

def run {σ : Type} (respond : (r : Request) → σ → r.Reply × σ) : Routine α → σ → α × σ
  | .done a, s => (a, s)
  | .ask r next, s =>
      let answered := respond r s
      (next answered.1).run respond answered.2
  | .each _ jobs next, s =>
      let finished := runJobs respond jobs s
      (next finished.1).run respond finished.2

@[simp] theorem run_bind {σ : Type} (respond : (r : Request) → σ → r.Reply × σ)
    (p : Routine α) (f : α → Routine β) (s : σ) :
    (p.bind f).run respond s = (f (p.run respond s).1).run respond (p.run respond s).2 := by
  induction p generalizing s with
  | done a => rfl
  | ask r next ih => exact ih _ _
  | each limit jobs next ih => exact ih _ _

@[simp] theorem run_of_program {σ : Type} (respond : (r : Request) → σ → r.Reply × σ)
    (p : Program α) (s : σ) : (ofProgram p).run respond s = p.run respond s := by
  induction p generalizing s with
  | done a => rfl
  | ask r next ih => exact ih _ _

@[simp] theorem run_then {σ : Type} (respond : (r : Request) → σ → r.Reply × σ)
    (p : Routine α) (f : α → Routine β) (s : σ) :
    (p >>= f).run respond s = (f (p.run respond s).1).run respond (p.run respond s).2 :=
  run_bind respond p f s

@[simp] theorem run_request {σ : Type} (respond : (r : Request) → σ → r.Reply × σ) (r : Request)
    (s : σ) : (request r).run respond s = respond r s := rfl

@[simp] theorem run_each {σ : Type} (respond : (r : Request) → σ → r.Reply × σ) (limit : Nat)
    (jobs : List (Program Outcome)) (s : σ) :
    (each limit jobs done).run respond s = runJobs respond jobs s := rfl

theorem run_jobs_keep {σ : Type} (respond : (r : Request) → σ → r.Reply × σ) (P : σ → Prop)
    (answered : ∀ r s, P s → P (respond r s).2) (jobs : List (Program α)) (s : σ) (start : P s) :
    P (runJobs respond jobs s).2 := by
  induction jobs generalizing s with
  | nil => exact start
  | cons job rest ih => exact ih _ (job.run_keeps respond P answered s start)

theorem run_keeps {σ : Type} (respond : (r : Request) → σ → r.Reply × σ) (P : σ → Prop)
    (answered : ∀ r s, P s → P (respond r s).2) (p : Routine α) (s : σ) (start : P s) :
    P (p.run respond s).2 := by
  induction p generalizing s with
  | done a => exact start
  | ask r next ih => exact ih _ _ (answered r s start)
  | each limit jobs next ih => exact ih _ _ (run_jobs_keep respond P answered jobs s start)

end Routine

end TagRules
