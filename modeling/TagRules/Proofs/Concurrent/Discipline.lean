import TagRules.Proofs.Concurrent.Crew
import TagRules.Proofs.Service.Agreement

/-!
A lock is entered only above all locks that are held, links are written only inside their client's
lock, and jobs are handed out with no lock held.
-/

set_option autoImplicit false

namespace TagRules

namespace Request

def clients : Request → List String
  | .applyDiff client _ => [client]
  | .applyTagDiff diff => diff.clients
  | _ => []

def Allowed (inside : List String) : Request → Prop
  | .enter client => ∀ held ∈ inside, held < client
  | .leave client => client ∈ inside
  | .listLinks client => client ∈ inside
  | r => ∀ client ∈ r.clients, client ∈ inside

def isQuiet : Request → Bool
  | .openContext _ => true
  | .closeContext => true
  | .emit _ => true
  | .countRun _ _ _ => true
  | .countError _ _ => true
  | _ => false

theorem quiet_allowed (inside : List String) (r : Request) (quiet : r.isQuiet = true) :
    r.Allowed inside ∧ r.after inside = inside := by
  cases r <;> first | (simp [Allowed, clients, after]; done) | cases quiet

end Request

namespace Program

variable {α β : Type}

inductive Quiet (a : α) : Program α → Prop
  | done : Quiet a (.done a)
  | ask (r : Request) (next : r.Reply → Program α) (now : r.isQuiet = true)
      (later : ∀ reply, Quiet a (next reply)) : Quiet a (.ask r next)

theorem quiet_then {a : α} {b : β} {p : Program α} {f : α → Program β} (first : Quiet a p)
    (second : Quiet b (f a)) : Quiet b (p >>= f) := by
  change Quiet b (p.bind f)
  induction first with
  | done => exact second
  | ask r next now later ih => exact .ask r _ now ih

-- From inside of given locks the program keeps the discipline, and ends inside of such as `last`.
def Guarded (last : List String → Prop) : List String → Program α → Prop
  | inside, .done _ => last inside
  | inside, .ask r next => r.Allowed inside ∧ ∀ reply, (next reply).Guarded last (r.after inside)

theorem guarded_then (middle : List String → Prop) {last : List String → Prop} {p : Program α}
    {f : α → Program β}
    {inside : List String} (first : p.Guarded middle inside)
    (second : ∀ a within, middle within → (f a).Guarded last within) :
    (p >>= f).Guarded last inside := by
  change (p.bind f).Guarded last inside
  induction p generalizing inside with
  | done a => exact second a inside first
  | ask r next ih => exact ⟨first.1, fun reply => ih reply (first.2 reply)⟩

theorem guarded_ask {last : List String → Prop} {r : Request} {f : r.Reply → Program α}
    {inside : List String} (allowed : r.Allowed inside)
    (later : ∀ reply, (f reply).Guarded last (r.after inside)) :
    (request r >>= f).Guarded last inside := ⟨allowed, later⟩

theorem Quiet.guarded_then {last : List String → Prop} {a : α} {p : Program α} {f : α → Program β}
    {inside : List String} (quiet : p.Quiet a) (later : (f a).Guarded last inside) :
    (p >>= f).Guarded last inside := by
  change (p.bind f).Guarded last inside
  induction quiet with
  | done => exact later
  | ask r next now _ ih =>
    obtain ⟨allowed, kept⟩ := r.quiet_allowed inside now
    refine ⟨allowed, fun reply => ?_⟩
    rw [kept]
    exact ih reply

theorem Quiet.guarded {last : List String → Prop} {a : α} {p : Program α} {inside : List String}
    (quiet : p.Quiet a) (ends : last inside) : p.Guarded last inside := by
  induction quiet with
  | done => exact ends
  | ask r next now _ ih =>
    obtain ⟨allowed, kept⟩ := r.quiet_allowed inside now
    refine ⟨allowed, fun reply => ?_⟩
    rw [kept]
    exact ih reply

end Program

namespace Routine

variable {α β : Type}

def Guarded (least : Nat) (last : List String → Prop) : List String → Routine α → Prop
  | inside, .done _ => last inside
  | inside, .ask r next =>
      r.Allowed inside ∧ ∀ reply, (next reply).Guarded least last (r.after inside)
  | inside, .each limit jobs next =>
      inside = [] ∧ least ≤ limit ∧ (∀ job ∈ jobs, job.Guarded (· = []) []) ∧
        ∀ outcomes, (next outcomes).Guarded least last []

theorem guarded_bind {least : Nat} (middle : List String → Prop) {last : List String → Prop}
    {p : Routine α}
    {f : α → Routine β} {inside : List String} (first : p.Guarded least middle inside)
    (second : ∀ a within, middle within → (f a).Guarded least last within) :
    (p.bind f).Guarded least last inside := by
  induction p generalizing inside with
  | done a => exact second a inside first
  | ask r next ih => exact ⟨first.1, fun reply => ih reply (first.2 reply)⟩
  | each limit jobs next ih =>
    obtain ⟨outside, enough, each, later⟩ := first
    exact ⟨outside, enough, each, fun outcomes => ih outcomes (later outcomes)⟩

theorem guarded_ask {least : Nat} {last : List String → Prop} {r : Request} {f : r.Reply → Routine α}
    {inside : List String} (allowed : r.Allowed inside)
    (later : ∀ reply, (f reply).Guarded least last (r.after inside)) :
    (request r >>= f).Guarded least last inside := ⟨allowed, later⟩

theorem guarded_of_program {least : Nat} {last : List String → Prop} {p : Program α}
    {inside : List String} (guarded : p.Guarded last inside) :
    (ofProgram p).Guarded least last inside := by
  induction p generalizing inside with
  | done a => exact guarded
  | ask r next ih => exact ⟨guarded.1, fun reply => ih reply (guarded.2 reply)⟩

end Routine

namespace Service

open Program

theorem emit_quiet (event : Event) : (emit event).Quiet () :=
  .ask _ _ rfl fun _ => .done

theorem emit_notes_quiet (notes : List Note) : (emitNotes notes).Quiet () := by
  induction notes with
  | nil => exact .done
  | cons note rest ih => exact quiet_then (emit_quiet _) ih

theorem count_run_quiet (settings : Settings) (trigger : String) (added removed : Nat) :
    (countRun settings trigger added removed).Quiet () := by
  unfold countRun
  split
  · exact .ask _ _ rfl fun _ => .done
  · exact .done

theorem count_error_quiet (settings : Settings) (kind : String) :
    (countError settings kind).Quiet () := by
  unfold countError
  split
  · exact .ask _ _ rfl fun _ => .done
  · exact .done

theorem collect_records_quiet (field : String × Value) (entities : List Value) :
    (collectRecords field entities).Quiet (clientsOf entities) := by
  induction entities with
  | nil => exact .done
  | cons entity rest ih =>
    unfold collectRecords clientsOf
    cases Record.view entity with
    | error e => exact .done
    | ok record =>
      dsimp only
      cases idUnder record clientKeys with
      | error e => exact .done
      | ok id =>
        cases id with
        | none => exact quiet_then (emit_quiet _) ih
        | some client => exact quiet_then ih .done

theorem conclude_quiet (settings : Settings) (trigger : String) (job : Job)
    (updated : Diff × Option Fault) :
    (conclude settings trigger job.client updated.1
      (updated.2.map fun e => (e.message, e.message))).Quiet (outcomeOf job.client updated) := by
  obtain ⟨diff, failure⟩ := updated
  cases failure with
  | some e => exact quiet_then (emit_quiet _) (quiet_then (count_error_quiet _ _) .done)
  | none =>
    by_cases nothing : diff.isEmpty = true
    · simp only [conclude, Option.map_none, nothing]
      exact quiet_then (count_run_quiet _ _ _ _) .done
    · simp only [conclude, Option.map_none, nothing]
      exact quiet_then (emit_quiet _) (quiet_then (count_run_quiet _ _ _ _) .done)

theorem update_links_guarded (job : Job) (inside : List String) (member : job.client ∈ inside) :
    (updateLinks job).Guarded (· = inside) inside := by
  refine guarded_ask member fun listed => ?_
  cases listed with
  | error e => exact rfl
  | ok current =>
    refine (emit_notes_quiet _).guarded_then ?_
    cases (Reconcile.client job.record job.tags current).result with
    | error e => exact rfl
    | ok diff =>
      dsimp only
      by_cases nothing : diff.isEmpty = true
      · rw [if_pos nothing]
        exact rfl
      · rw [if_neg nothing]
        refine guarded_ask (fun client named => ?_) fun written => ?_
        · exact List.mem_singleton.mp named ▸ member
        · cases written <;> exact rfl

theorem reconcile_client_guarded (settings : Settings) (trigger : String) (job : Job) :
    (reconcileClient settings trigger job).Guarded (· = []) [] := by
  refine guarded_ask (by simp [Request.Allowed]) fun _ => ?_
  refine guarded_then _ (update_links_guarded job [job.client] (by simp)) fun updated within same => ?_
  subst same
  refine guarded_ask (by simp [Request.Allowed]) fun _ => ?_
  exact (conclude_quiet settings trigger job updated).guarded (by simp [Request.after])

theorem evaluate_guarded (settings : Settings) (entity : Value) (company : Option String)
    (trigger : String) :
    (evaluateAndAssign settings entity company trigger).Guarded (· = []) [] := by
  rw [evaluate_and_assign_eq]
  split
  · exact rfl
  · refine guarded_ask (by simp [Request.Allowed, Request.clients]) fun _ => ?_
    refine guarded_then (· = []) ?_ fun outcome within same => ?_
    · refine guarded_ask (by simp [Request.Allowed, Request.clients]) fun loaded => ?_
      cases loaded with
      | error e =>
        exact (quiet_then (emit_quiet _) (count_error_quiet _ _)).guarded_then rfl
      | ok tags => exact reconcile_client_guarded settings trigger _
    · subst same
      exact guarded_ask (by simp [Request.Allowed, Request.clients]) fun _ => rfl

-- Locks are entered upwards from the locks that are held, so they end up in falling order.
theorem enter_all_guarded (clients inside : List String) (rising : clients.Pairwise (· < ·))
    (above : ∀ held ∈ inside, ∀ client ∈ clients, held < client) :
    (enterAll clients).Guarded (· = clients.reverse ++ inside) inside := by
  induction clients generalizing inside with
  | nil => exact rfl
  | cons client rest ih =>
    obtain ⟨least, restRising⟩ := List.pairwise_cons.mp rising
    refine guarded_ask (fun held member => above held member client List.mem_cons_self) fun _ => ?_
    have later := ih (client :: inside) restRising (by
      intro held member next isNext
      rcases List.mem_cons.mp member with rfl | before
      · exact least next isNext
      · exact above held before next (List.mem_cons_of_mem _ isNext))
    simpa [Request.after] using later

theorem leave_all_guarded (clients inside : List String) :
    (leaveAll clients).Guarded (· = inside) (clients ++ inside) := by
  induction clients with
  | nil => exact rfl
  | cons client rest ih =>
    refine guarded_ask (by simp [Request.Allowed]) fun _ => ?_
    simpa [Request.after] using ih

theorem mem_lock_order (diff : TagDiff) (client : String) :
    client ∈ lockOrder diff ↔ client ∈ diff.clients :=
  (List.mergeSort_perm _ _).mem_iff.trans List.mem_eraseDups

theorem lock_order_rising (diff : TagDiff) : (lockOrder diff).Pairwise (· < ·) := by
  have sorted : (lockOrder diff).Pairwise fun a b => (!decide (b < a)) = true := by
    refine List.pairwise_mergeSort (fun a b c => ?_) (fun a b => ?_) _
    · simp only [Bool.not_eq_true', decide_eq_false_iff_not, String.not_lt]
      exact String.le_trans
    · simp only [Bool.or_eq_true, Bool.not_eq_true', decide_eq_false_iff_not, String.not_lt]
      exact String.le_total a b
  have once : (lockOrder diff).Nodup :=
    (List.mergeSort_perm _ _).nodup_iff.mpr (nodup_erase_dups diff.clients)
  refine (sorted.and once).imp fun both => ?_
  obtain ⟨atMost, different⟩ := both
  apply Decidable.byContradiction
  intro notBelow
  simp only [Bool.not_eq_true', decide_eq_false_iff_not] at atMost
  exact different (String.le_antisymm (String.not_lt.mp atMost) (String.not_lt.mp notBelow))

theorem apply_under_locks_guarded (diff : TagDiff) :
    (applyUnderLocks diff).Guarded (· = []) [] := by
  unfold applyUnderLocks
  split
  · exact rfl
  · refine guarded_then _ (enter_all_guarded _ [] (lock_order_rising diff) (by simp))
      fun _ within same => ?_
    subst same
    refine guarded_ask (fun client member => ?_) fun written => ?_
    · simpa [mem_lock_order] using (show client ∈ diff.clients from member)
    · exact guarded_then _ (leave_all_guarded (lockOrder diff).reverse []) fun _ within same => same

theorem reevaluate_guarded (settings : Settings) (tag : Tag) (entities : List Value) :
    (reevaluateTag settings tag entities).Guarded (· = []) [] := by
  unfold reevaluateTag
  refine (collect_records_quiet _ entities).guarded_then ?_
  cases clientsOf entities with
  | error e => exact rfl
  | ok pairs =>
    refine guarded_ask (by simp [Request.Allowed, Request.clients]) fun listed => ?_
    cases listed with
    | error e => exact rfl
    | ok current =>
      refine (emit_notes_quiet _).guarded_then ?_
      cases (Reconcile.tag tag (Dictionary.ofList pairs) current).result with
      | error e => exact rfl
      | ok diff =>
        refine guarded_then _ (apply_under_locks_guarded diff) fun written within same => ?_
        subst same
        cases written with
        | error e => exact rfl
        | ok _ => exact (emit_quiet _).guarded_then ((count_run_quiet _ _ _ _).guarded_then rfl)

theorem recompute_guarded (settings : Settings) (company : Option String) (entities : List Value)
    (least : Nat) (enough : least ≤ settings.recomputeConcurrency.toNat) :
    (recomputeCompany settings company entities).Guarded least (· = []) [] := by
  unfold recomputeCompany
  refine Routine.guarded_ask (by simp [Request.Allowed, Request.clients]) fun loaded => ?_
  cases loaded with
  | error e => exact rfl
  | ok tags =>
    refine Routine.guarded_bind (· = []) ?_ fun collected within same => ?_
    · exact Routine.guarded_of_program ((collect_records_quiet _ entities).guarded rfl)
    · subst same
      cases collected with
      | error e => exact rfl
      | ok pairs =>
        refine ⟨rfl, enough, fun job member => ?_, fun outcomes => ?_⟩
        · obtain ⟨pair, _, rfl⟩ := List.mem_map.mp member
          exact reconcile_client_guarded settings "recompute" _
        · exact Routine.guarded_ask (by simp [Request.Allowed, Request.clients]) fun _ => rfl

end Service

theorem Errand.routine_guarded (settings : Settings) (errand : Errand) (least : Nat)
    (enough : least ≤ settings.recomputeConcurrency.toNat) :
    (errand.routine settings).Guarded least (· = []) [] := by
  have ends : ∀ {α : Type} {p : Program α} (f : α → Session.Result), p.Guarded (· = []) [] →
      ((Routine.ofProgram p).bind fun a => .done (f a)).Guarded least (· = []) [] := by
    intro α p f guarded
    exact Routine.guarded_bind _ (Routine.guarded_of_program guarded) fun _ within same => same
  cases errand with
  | assignManually client tag => exact rfl
  | evaluate entity company trigger =>
    exact ends _ (Service.evaluate_guarded settings entity company trigger)
  | reevaluate tag entities => exact ends _ (Service.reevaluate_guarded settings tag entities)
  | recompute company entities =>
    exact Routine.guarded_bind _ (Service.recompute_guarded settings company entities least enough)
      fun _ within same => same

end TagRules
