import TagRules.Service.World

set_option autoImplicit false

namespace TagRules

namespace Request

def isWrite : Request → Bool
  | .applyDiff _ _ => true
  | .applyTagDiff _ => true
  | _ => false

def isCount : Request → Bool
  | .countRun _ _ _ => true
  | .countError _ _ => true
  | _ => false

def isAside (r : Request) : Bool := !r.isCall && !r.isCount

end Request

namespace Program

variable {α β σ : Type}

def asked (respond : (r : Request) → σ → r.Reply × σ) : Program α → σ → List Request
  | .done _, _ => []
  | .ask r next, s =>
      let answered := respond r s
      r :: (next answered.1).asked respond answered.2

@[simp] theorem asked_then (respond : (r : Request) → σ → r.Reply × σ) (p : Program α)
    (f : α → Program β) (s : σ) :
    (p >>= f).asked respond s =
      p.asked respond s ++ (f (p.run respond s).1).asked respond (p.run respond s).2 := by
  change (p.bind f).asked respond s = _
  induction p generalizing s with
  | done a => rfl
  | ask r next ih => exact congrArg (r :: ·) (ih _ _)

@[simp] theorem asked_pure (respond : (r : Request) → σ → r.Reply × σ) (a : α) (s : σ) :
    (pure a : Program α).asked respond s = [] := rfl

@[simp] theorem asked_request (respond : (r : Request) → σ → r.Reply × σ) (r : Request) (s : σ) :
    (request r).asked respond s = [r] := rfl

inductive Asks (P : Request → Prop) : Program α → Prop
  | done (a : α) : Asks P (.done a)
  | ask (r : Request) (next : r.Reply → Program α) (now : P r) (later : ∀ reply, Asks P (next reply)) :
      Asks P (.ask r next)

theorem asks_then {P : Request → Prop} {p : Program α} {f : α → Program β} (first : Asks P p)
    (second : ∀ a, Asks P (f a)) : Asks P (p >>= f) := by
  change Asks P (p.bind f)
  induction first with
  | done a => exact second a
  | ask r next now later ih => exact .ask r _ now ih

theorem asks_request {P : Request → Prop} {r : Request} (now : P r) : Asks P (request r) :=
  .ask r _ now fun reply => .done reply

theorem Asks.imp {P Q : Request → Prop} (weaker : ∀ r, P r → Q r) {p : Program α} (asks : Asks P p) :
    Asks Q p := by
  induction asks with
  | done a => exact .done a
  | ask r next now later ih => exact .ask r next (weaker r now) ih

theorem Asks.run_keeps {P : Request → Prop} {p : Program α} (asks : Asks P p)
    (respond : (r : Request) → σ → r.Reply × σ) (Q : σ → Prop)
    (answered : ∀ r s, P r → Q s → Q (respond r s).2) (s : σ) (start : Q s) :
    Q (p.run respond s).2 := by
  induction asks generalizing s with
  | done a => exact start
  | ask r next now later ih => exact ih _ _ (answered r s now start)

theorem Asks.jobs_keep {P : Request → Prop} {jobs : List (Program α)} (asks : ∀ job ∈ jobs, Asks P job)
    (respond : (r : Request) → σ → r.Reply × σ) (Q : σ → Prop)
    (answered : ∀ r s, P r → Q s → Q (respond r s).2) (s : σ) (start : Q s) :
    Q (Routine.runJobs respond jobs s).2 := by
  induction jobs generalizing s with
  | nil => exact start
  | cons job rest ih =>
    obtain ⟨first, others⟩ := List.forall_mem_cons.mp asks
    exact ih others _ (first.run_keeps respond Q answered s start)

end Program

namespace Metrics

def record (metrics : Metrics) : Request → Metrics
  | .countRun trigger added removed => metrics.recordRun trigger added removed
  | .countError kind service => metrics.recordError kind service
  | _ => metrics

def total (name : String) : Metrics → Nat
  | [] => 0
  | (m, n) :: rest => (if m.name = name then n else 0) + total name rest

def errorTotal (metrics : Metrics) : Nat := total "errors_total" metrics

def runTotal (metrics : Metrics) : Nat := total "icon_reconciliations_total" metrics

theorem total_add (name : String) (m : Meter) (n : Nat) (metrics : Metrics) :
    total name (add m n metrics) = total name metrics + if m.name = name then n else 0 := by
  induction metrics with
  | nil => simp [add, get, Dictionary.get?, Dictionary.put, total]
  | cons entry rest ih =>
    obtain ⟨k, old⟩ := entry
    by_cases same : k = m
    · subst same
      simp only [add, get, Dictionary.get?, Dictionary.put, if_true, Option.getD_some, total]
      split <;> omega
    · simp only [add, get, Dictionary.get?, Dictionary.put, if_neg same, total] at ih ⊢
      omega

theorem total_add_some (name : String) (m : Meter) (n : Nat) (metrics : Metrics) :
    total name (addSome m n metrics) = total name metrics + if m.name = name then n else 0 := by
  unfold addSome
  split
  · simp [*]
  · exact total_add name m n metrics

theorem error_total_record_error (kind service : String) (metrics : Metrics) :
    errorTotal (recordError kind service metrics) = errorTotal metrics + 1 := by
  simp [errorTotal, recordError, total_add, Meter.errors]

theorem run_total_record_error (kind service : String) (metrics : Metrics) :
    runTotal (recordError kind service metrics) = runTotal metrics := by
  simp [runTotal, recordError, total_add, Meter.errors]

theorem error_total_record_run (trigger : String) (added removed : Nat) (metrics : Metrics) :
    errorTotal (recordRun trigger added removed metrics) = errorTotal metrics := by
  simp [errorTotal, recordRun, total_add, total_add_some, Meter.durations, Meter.removed,
    Meter.added, Meter.runs]

theorem run_total_record_run (trigger : String) (added removed : Nat) (metrics : Metrics) :
    runTotal (recordRun trigger added removed metrics) = runTotal metrics + 1 := by
  simp [runTotal, recordRun, total_add, total_add_some, Meter.durations, Meter.removed,
    Meter.added, Meter.runs]

theorem changes_record_error (kind service : String) (metrics : Metrics) :
    get .added (recordError kind service metrics) = get .added metrics ∧
      get .removed (recordError kind service metrics) = get .removed metrics := by
  simp [recordError, Meter.errors, Meter.added, Meter.removed]

theorem changes_record_run (trigger : String) (added removed : Nat) (metrics : Metrics) :
    get .added (recordRun trigger added removed metrics) = get .added metrics + added ∧
      get .removed (recordRun trigger added removed metrics) = get .removed metrics + removed := by
  simp [recordRun, Meter.durations, Meter.added, Meter.removed, Meter.runs]

theorem record_all_filter (requests : List Request) (metrics : Metrics) :
    requests.foldl record metrics = (requests.filter Request.isCount).foldl record metrics := by
  induction requests generalizing metrics with
  | nil => rfl
  | cons r rest ih => cases r <;> exact ih _

end Metrics

namespace World

variable {α σ : Type}

theorem call_metrics (ask : σ → Answered σ α) (w : World σ) : (w.call ask).2.metrics = w.metrics := by
  rw [call_world]

theorem respond_metrics (c : Collaborators σ) (task : Nat) (r : Request) (w : World σ) :
    (World.respond c task r w).2.metrics = w.metrics.record r := by
  cases r with
  | listTags company => exact call_metrics _ w
  | listLinks client => exact call_metrics _ w
  | listTagLinks tag => exact call_metrics _ w
  | applyDiff client diff => exact call_metrics _ w
  | applyTagDiff diff => exact call_metrics _ w
  | _ => rfl

theorem run_metrics (c : Collaborators σ) (task : Nat) (p : Program α) (w : World σ) :
    (p.run (World.respond c task) w).2.metrics =
      (p.asked (World.respond c task) w).foldl Metrics.record w.metrics := by
  induction p generalizing w with
  | done a => rfl
  | ask r next ih =>
    change ((next _).run _ (World.respond c task r w).2).2.metrics = _
    rw [ih, respond_metrics]
    rfl

theorem run_aside (c : Collaborators σ) (task : Nat) {p : Program α}
    (aside : p.Asks fun r => r.isAside = true) (w : World σ) :
    (p.run (World.respond c task) w).2.store = w.store ∧
      (p.run (World.respond c task) w).2.metrics = w.metrics := by
  induction aside generalizing w with
  | done a => exact ⟨rfl, rfl⟩
  | ask r next now later ih =>
    have unseen : (World.respond c task r w).2.store = w.store ∧
        (World.respond c task r w).2.metrics = w.metrics := by
      cases r <;> first | exact ⟨rfl, rfl⟩ | cases now
    obtain ⟨store, metrics⟩ := ih _ (World.respond c task r w).2
    exact ⟨store.trans unseen.1, metrics.trans unseen.2⟩

end World

end TagRules
