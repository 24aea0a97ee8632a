import TagRules.Proofs.Service.Calls
import TagRules.Proofs.Service.Requests

set_option autoImplicit false

namespace TagRules

def Request.Concerns (client : String) : Request → Prop
  | .listLinks c => c = client
  | .applyDiff c _ => c = client
  | .enter c => c = client
  | .leave c => c = client
  | .emit _ => True
  | .countRun _ _ _ => True
  | .countError _ _ => True
  | _ => False

def Event.Names (client : String) (owner : Option String) (event : Event) : Prop :=
  (∀ v, ("client_id", v) ∈ event.fields → v = .text client) ∧
    ∀ v, ("company_id", v) ∈ event.fields → v = Service.idValue owner

def Request.Names (client : String) (owner : Option String) : Request → Prop
  | .emit event => event.Names client owner
  | _ => True

namespace Program

variable {α σ : Type}

-- Programs that run side by side: whichever of them has a request left may be answered next.
inductive SideBySide (respond : (r : Request) → σ → r.Reply × σ) :
    List (Program α) → σ → List α → σ → Prop
  | ended (results : List α) (s : σ) : SideBySide respond (results.map .done) s results s
  | turn (before after : List (Program α)) (r : Request) (next : r.Reply → Program α) (s : σ)
      {results : List α} {last : σ}
      (rest : SideBySide respond (before ++ next (respond r s).1 :: after) (respond r s).2
        results last) :
      SideBySide respond (before ++ .ask r next :: after) s results last

theorem SideBySide.keeps {respond : (r : Request) → σ → r.Reply × σ} {P : σ → Prop}
    (answered : ∀ r s, P s → P (respond r s).2) {programs : List (Program α)} {s last : σ}
    {results : List α} (ran : SideBySide respond programs s results last) (start : P s) : P last := by
  induction ran with
  | ended results s => exact start
  | turn before after r next s rest ih => exact ih (answered r s start)

theorem run_jobs_side_by_side (respond : (r : Request) → σ → r.Reply × σ)
    (programs : List (Program α)) (s : σ) :
    SideBySide respond programs s (Routine.runJobs respond programs s).1
      (Routine.runJobs respond programs s).2 := by
  have onward : ∀ before : List α, SideBySide respond (before.map .done ++ programs) s
      (before ++ (Routine.runJobs respond programs s).1) (Routine.runJobs respond programs s).2 := by
    induction programs generalizing s with
    | nil =>
      intro before
      have ended : SideBySide respond (before.map .done) s before s := .ended before s
      simpa [Routine.runJobs] using ended
    | cons program rest ih =>
      intro before
      induction program generalizing s with
      | done a => simpa [Routine.runJobs, run] using ih s (before ++ [a])
      | ask r next later =>
        exact .turn (before.map .done) rest r next s (later (respond r s).1 (respond r s).2)
  exact onward []

theorem run_jobs_each (respond : (r : Request) → σ → r.Reply × σ) (P : σ → Prop)
    (programs : List (Program α))
    (each : ∀ program ∈ programs, ∀ s, P s → P (program.run respond s).2) (s : σ) (start : P s) :
    P (Routine.runJobs respond programs s).2 ∧
      ∀ result ∈ (Routine.runJobs respond programs s).1,
        ∃ program ∈ programs, ∃ t, P t ∧ result = (program.run respond t).1 := by
  induction programs generalizing s with
  | nil => exact ⟨start, nofun⟩
  | cons program rest ih =>
    obtain ⟨first, others⟩ := List.forall_mem_cons.mp each
    obtain ⟨kept, results⟩ := ih others _ (first s start)
    refine ⟨kept, List.forall_mem_cons.mpr ⟨⟨program, List.mem_cons_self, s, start, rfl⟩, ?_⟩⟩
    intro result member
    obtain ⟨later, listed, t, held, same⟩ := results result member
    exact ⟨later, List.mem_cons_of_mem _ listed, t, held, same⟩

end Program

namespace Memory

open AssignmentTable

variable {α : Type}

structure SameFor (client : String) (one other : Memory) : Prop where
  links : linksOf client one.table = linksOf client other.table
  rules : one.rules = other.rules

theorem SameFor.refl (client : String) (m : Memory) : SameFor client m m := ⟨rfl, rfl⟩

theorem SameFor.symm {client : String} {one other : Memory} (same : SameFor client one other) :
    SameFor client other one := ⟨same.links.symm, same.rules.symm⟩

theorem SameFor.trans {client : String} {first second third : Memory}
    (left : SameFor client first second) (right : SameFor client second third) :
    SameFor client first third := ⟨left.links.trans right.links, left.rules.trans right.rules⟩

structure OthersKept (client : String) (before after : Memory) : Prop where
  links : ∀ other, other ≠ client → linksOf other after.table = linksOf other before.table
  rules : after.rules = before.rules

theorem OthersKept.refl (client : String) (m : Memory) : OthersKept client m m :=
  ⟨fun _ _ => rfl, rfl⟩

theorem OthersKept.trans {client : String} {first second third : Memory}
    (left : OthersKept client first second) (right : OthersKept client second third) :
    OthersKept client first third :=
  ⟨fun other different => (right.links other different).trans (left.links other different),
    right.rules.trans left.rules⟩

theorem OthersKept.same {client other : String} {before after : Memory}
    (kept : OthersKept client before after) (different : other ≠ client) :
    SameFor other after before := ⟨kept.links other different, kept.rules⟩

-- Rules that do not wear off: what they let fail once, they let fail always.
def Lasting (rules : List FailureRule) : Prop := ∀ rule ∈ rules, rule.left = none

theorem used_lasting (rule : FailureRule) (unlimited : rule.left = none) : rule.used = rule := by
  obtain ⟨target, who, fault, limit, after⟩ := rule
  obtain rfl : limit = none := unlimited
  rfl

theorem take_lasting (target : Target) (who : Option String) (rules left : List FailureRule)
    (rule : FailureRule) (lasting : Lasting rules)
    (taken : FailureRule.take target who rules = some (rule, left)) : left = rules := by
  induction rules generalizing left with
  | nil => cases taken
  | cons first rest ih =>
    obtain ⟨unlimited, later⟩ := List.forall_mem_cons.mp lasting
    rw [FailureRule.take] at taken
    split at taken
    · cases taken
      rw [used_lasting _ unlimited]
    · obtain ⟨⟨found, others⟩, inRest, same⟩ := Option.map_eq_some_iff.mp taken
      cases same
      rw [ih others later inRest]

theorem guarded_same (target : Target) (who : Option String) (call : Memory → Answered Memory α)
    (client : String)
    (each : ∀ m n, SameFor client m n →
      (call m).1 = (call n).1 ∧ SameFor client (call m).2.2 (call n).2.2)
    (m n : Memory) (same : SameFor client m n) :
    (guarded target who call m).1 = (guarded target who call n).1 ∧
      SameFor client (guarded target who call m).2.2 (guarded target who call n).2.2 := by
  unfold guarded
  rw [same.rules]
  cases FailureRule.take target who n.rules with
  | none => exact each m n same
  | some found =>
    obtain ⟨rule, left⟩ := found
    obtain ⟨result, kept⟩ :=
      each { m with rules := left } { n with rules := left } ⟨same.links, rfl⟩
    by_cases after : rule.after = true
    · simp only [after, if_true, result]
      split <;> exact ⟨rfl, kept⟩
    · simp only [after]
      exact ⟨rfl, same.links, rfl⟩

theorem guarded_lasting (target : Target) (who : Option String) (call : Memory → Answered Memory α)
    (m : Memory) (lasting : Lasting m.rules) :
    guarded target who call m = call m ∨
      (∃ e, (guarded target who call m).1 = .error e) ∧
        ((guarded target who call m).2.2 = m ∨
          (guarded target who call m).2.2 = (call m).2.2) := by
  unfold guarded
  cases taken : FailureRule.take target who m.rules with
  | none => exact .inl rfl
  | some found =>
    obtain ⟨rule, left⟩ := found
    obtain rfl := take_lasting target who m.rules left rule lasting taken
    dsimp only
    by_cases after : rule.after = true
    · rw [if_pos after]
      split <;> exact .inr ⟨⟨_, rfl⟩, .inr rfl⟩
    · rw [if_neg after]
      exact .inr ⟨⟨rule.fault, rfl⟩, .inl rfl⟩

theorem guarded_others_kept (target : Target) (who : Option String)
    (call : Memory → Answered Memory α) (client : String)
    (each : ∀ m, OthersKept client m (call m).2.2) (m : Memory) (lasting : Lasting m.rules) :
    OthersKept client m (guarded target who call m).2.2 := by
  rcases guarded_lasting target who call m lasting with made | ⟨_, unmade | made⟩
  · rw [made]
    exact each m
  · rw [unmade]
    exact .refl client m
  · rw [made]
    exact each m

theorem apply_diff_same (client : String) (diff : Diff) (m n : Memory) (same : SameFor client m n) :
    (applyDiff client diff m).1 = (applyDiff client diff n).1 ∧
      SameFor client (applyDiff client diff m).2.2 (applyDiff client diff n).2.2 := by
  unfold applyDiff
  split
  · exact ⟨rfl, same⟩
  · refine ⟨rfl, ?_, same.rules⟩
    simp only [links_of_own_diff, same.links]

theorem apply_diff_others_kept (client : String) (diff : Diff) (m : Memory) :
    OthersKept client m (applyDiff client diff m).2.2 := by
  unfold applyDiff
  split
  · exact .refl client m
  · exact ⟨fun other different => links_of_other_diff client other different diff m.table, rfl⟩

variable (loading : Loading) (task : Nat)

theorem respond_same (client : String) (r : Request) (concerns : r.Concerns client)
    (w v : World Memory) (same : SameFor client w.store v.store) :
    (World.respond (answering loading) task r w).1 = (World.respond (answering loading) task r v).1 ∧
      SameFor client (World.respond (answering loading) task r w).2.store
        (World.respond (answering loading) task r v).2.store := by
  cases r with
  | listLinks c =>
    obtain rfl : c = client := concerns
    rw [World.respond, World.respond, World.call_store, World.call_store]
    refine guarded_same _ _ _ c (fun m n same => ⟨?_, same⟩) _ _ same
    exact congrArg (fun links => Except.ok (Dictionary.values links)) same.links
  | applyDiff c diff =>
    obtain rfl : c = client := concerns
    rw [World.respond, World.respond, World.call_store, World.call_store]
    exact guarded_same _ _ _ c (apply_diff_same c diff) _ _ same
  | listTags _ => exact concerns.elim
  | listTagLinks _ => exact concerns.elim
  | applyTagDiff _ => exact concerns.elim
  | _ => exact ⟨rfl, same⟩

theorem respond_others_kept (client : String) (r : Request) (concerns : r.Concerns client)
    (w : World Memory) (lasting : Lasting w.store.rules) :
    OthersKept client w.store (World.respond (answering loading) task r w).2.store := by
  cases r with
  | listLinks c =>
    obtain rfl : c = client := concerns
    rw [World.respond, World.call_store]
    exact guarded_others_kept _ _ _ c (fun m => .refl c m) _ lasting
  | applyDiff c diff =>
    obtain rfl : c = client := concerns
    rw [World.respond, World.call_store]
    exact guarded_others_kept _ _ _ c (apply_diff_others_kept c diff) _ lasting
  | listTags _ => exact concerns.elim
  | listTagLinks _ => exact concerns.elim
  | applyTagDiff _ => exact concerns.elim
  | _ => exact .refl client w.store

theorem run_same {client : String} {p : Program α} (own : p.Asks (Request.Concerns client))
    (w v : World Memory) (same : SameFor client w.store v.store) :
    (p.run (World.respond (answering loading) task) w).1 =
        (p.run (World.respond (answering loading) task) v).1 ∧
      SameFor client (p.run (World.respond (answering loading) task) w).2.store
        (p.run (World.respond (answering loading) task) v).2.store := by
  induction own generalizing w v with
  | done a => exact ⟨rfl, same⟩
  | ask r next now later ih =>
    obtain ⟨reply, kept⟩ := respond_same loading task client r now w v same
    simp only [Program.run, reply]
    exact ih _ _ _ kept

theorem run_others_kept {client : String} {p : Program α} (own : p.Asks (Request.Concerns client))
    (w : World Memory) (lasting : Lasting w.store.rules) :
    OthersKept client w.store (p.run (World.respond (answering loading) task) w).2.store := by
  induction own generalizing w with
  | done a => exact .refl client w.store
  | ask r next now later ih =>
    have kept := respond_others_kept loading task client r now w lasting
    exact kept.trans (ih _ _ (by rw [kept.rules]; exact lasting))

theorem forall_mem_middle {P : α → Prop} {a : α} {before after : List α} :
    (∀ b ∈ before ++ a :: after, P b) ↔ P a ∧ ∀ b ∈ before ++ after, P b := by
  simp only [List.perm_middle.mem_iff, List.forall_mem_cons]

theorem side_by_side_apart {programs : List (Program α)} {w last : World Memory} {results : List α}
    (ran : Program.SideBySide (World.respond (answering loading) task) programs w results last)
    (jobs : Dictionary String (Program α)) (listed : jobs.values = programs)
    (distinctClients : jobs.keys.Nodup) (lasting : Lasting w.store.rules)
    (own : ∀ job ∈ jobs, job.2.Asks (Request.Concerns job.1)) :
    let alone := fun p => Program.run (World.respond (answering loading) task) p w
    results = programs.map (fun p => (alone p).1) ∧
      (∀ job ∈ jobs, SameFor job.1 last.store (alone job.2).2.store) ∧
      ∀ other, other ∉ jobs.keys → SameFor other last.store w.store := by
  induction ran generalizing jobs with
  | ended results s =>
    refine ⟨?_, fun job member => ?_, fun other _ => .refl other s.store⟩
    · rw [List.map_map]
      exact (List.map_id results).symm
    · have ended : job.2 ∈ results.map Program.done := listed ▸ List.mem_map.mpr ⟨job, member, rfl⟩
      obtain ⟨a, _, same⟩ := List.mem_map.mp ended
      rw [← same]
      exact .refl job.1 s.store
  | turn before after r next s rest ih =>
    obtain ⟨earlier, others, rfl, rfl, split⟩ := List.map_eq_append_iff.mp listed
    obtain ⟨⟨client, program⟩, later, rfl, rfl, rfl⟩ := List.map_eq_cons_iff.mp split
    obtain ⟨fresh, _⟩ : client ∉ Dictionary.keys (earlier ++ later) ∧ _ :=
      List.nodup_cons.mp ((List.perm_middle.map Prod.fst).nodup_iff.mp distinctClients)
    obtain ⟨turning, others⟩ := forall_mem_middle.mp own
    cases turning with
    | ask _ _ now onward =>
      let answered := World.respond (answering loading) task r s
      have kept : OthersKept client s.store answered.2.store :=
        respond_others_kept loading task client r now s lasting
      -- The answer makes no difference to the other programs.
      have alike : ∀ job ∈ earlier ++ later, _ := fun job member =>
        have different : job.1 ≠ client := fun same => fresh (same ▸ List.mem_map.mpr ⟨job, member, rfl⟩)
        run_same loading task (others job member) answered.2 s (kept.same different)
      have moved : Dictionary.values (earlier ++ (client, next answered.1) :: later) =
          earlier.map Prod.snd ++ next answered.1 :: later.map Prod.snd := by simp [Dictionary.values]
      obtain ⟨ends, links, untouched⟩ := ih _ moved (by simpa [Dictionary.keys] using distinctClients)
        (by rw [kept.rules]; exact lasting) (forall_mem_middle.mpr ⟨onward _, others⟩)
      obtain ⟨turningLinks, otherLinks⟩ := forall_mem_middle.mp links
      refine ⟨?_, forall_mem_middle.mpr ⟨turningLinks, fun job member => ?_⟩, fun other unlisted => ?_⟩
      · have earlierEnds := List.map_congr_left fun job member =>
          (alike job (List.mem_append_left later member)).1
        have laterEnds := List.map_congr_left fun job member =>
          (alike job (List.mem_append_right earlier member)).1
        rw [ends]
        simp only [List.map_append, List.map_cons, List.map_map, Function.comp_def]
        rw [earlierEnds, laterEnds]
        rfl
      · exact (otherLinks job member).trans (alike job member).2
      · have unknown : other ∉ Dictionary.keys (earlier ++ (client, next answered.1) :: later) := by
          simpa [Dictionary.keys] using unlisted
        have different : other ≠ client := fun same => unlisted (by simp [same, Dictionary.keys])
        exact (untouched other unknown).trans (kept.same different)

end Memory

namespace Service

theorem emit_notes_asks {P : Request → Prop} (emits : ∀ note, P (.emit (noteEvent note)))
    (notes : List Note) : (emitNotes notes).Asks P := by
  induction notes with
  | nil => exact .done ()
  | cons note rest ih => exact Program.asks_then (Program.asks_request (emits note)) fun _ => ih

theorem count_run_asks {P : Request → Prop} (settings : Settings) (trigger : String)
    (added removed : Nat) (may : P (.countRun trigger added removed)) :
    (countRun settings trigger added removed).Asks P := by
  by_cases enabled : settings.metricsEnabled = true
  · rw [countRun, if_pos enabled]
    exact Program.asks_request may
  · rw [countRun, if_neg enabled]
    exact .done ()

theorem count_error_asks {P : Request → Prop} (settings : Settings) (kind : String)
    (may : P (.countError kind settings.serviceName)) : (countError settings kind).Asks P := by
  by_cases enabled : settings.metricsEnabled = true
  · rw [countError, if_pos enabled]
    exact Program.asks_request may
  · rw [countError, if_neg enabled]
    exact .done ()

theorem note_names (client : String) (owner : Option String) (note : Note) :
    (noteEvent note).Names client owner := by
  cases note <;> simp [noteEvent, Event.Names]

theorem update_links_asks (owner : Option String) (job : Job) :
    (updateLinks job).Asks fun r => r.Concerns job.client ∧ r.Names job.client owner := by
  refine Program.asks_then (Program.asks_request ⟨rfl, trivial⟩) fun listed => ?_
  cases listed with
  | error e => exact .done _
  | ok current =>
    have noted := fun note => And.intro trivial (note_names job.client owner note)
    refine Program.asks_then (emit_notes_asks noted _) fun _ => ?_
    cases (Reconcile.client job.record job.tags current).result with
    | error e => exact .done _
    | ok diff =>
      by_cases nothing : diff.isEmpty = true
      · simp only [nothing, if_true]
        exact .done _
      · simp only [nothing]
        refine Program.asks_then (Program.asks_request ⟨rfl, trivial⟩) fun written => ?_
        cases written with
        | error e => exact .done _
        | ok _ => exact .done _

theorem conclude_serves (owner : Option String) (settings : Settings) (trigger client : String)
    (diff : Diff) (said : Option (String × String)) :
    (conclude settings trigger client diff said).Asks fun r =>
      r.Concerns client ∧ r.Names client owner := by
  cases said with
  | some said =>
    refine Program.asks_then (Program.asks_request ⟨trivial, by simp [Request.Names, Event.Names]⟩)
      fun _ => ?_
    exact Program.asks_then (count_error_asks _ _ ⟨trivial, trivial⟩) fun _ => .done _
  | none =>
    by_cases nothing : diff.isEmpty = true
    · simp only [conclude, nothing]
      exact Program.asks_then (count_run_asks _ _ _ _ ⟨trivial, trivial⟩) fun _ => .done _
    · simp only [conclude, nothing]
      refine Program.asks_then (Program.asks_request ⟨trivial, by simp [Request.Names, Event.Names]⟩)
        fun _ => ?_
      exact Program.asks_then (count_run_asks _ _ _ _ ⟨trivial, trivial⟩) fun _ => .done _

theorem note_unloaded_serves (owner : Option String) (settings : Settings) (client text : String) :
    (noteUnloaded settings client owner text).Asks fun r =>
      r.Concerns client ∧ r.Names client owner := by
  refine Program.asks_then (Program.asks_request ⟨trivial, by simp [Request.Names, Event.Names]⟩)
    fun _ => ?_
  exact count_error_asks settings "tag_source" ⟨trivial, trivial⟩

theorem reconcile_client_serves (owner : Option String) (settings : Settings) (trigger : String)
    (job : Job) :
    (reconcileClient settings trigger job).Asks fun r =>
      r.Concerns job.client ∧ r.Names job.client owner := by
  refine Program.asks_then (Program.asks_request ⟨rfl, trivial⟩) fun _ => ?_
  refine Program.asks_then (update_links_asks owner job) fun updated => ?_
  refine Program.asks_then (Program.asks_request ⟨rfl, trivial⟩) fun _ => ?_
  exact conclude_serves owner settings trigger job.client _ _

theorem reconcile_client_asks (settings : Settings) (trigger : String) (job : Job) :
    (reconcileClient settings trigger job).Asks (Request.Concerns job.client) :=
  (reconcile_client_serves none settings trigger job).imp fun _ serves => serves.1

end Service

end TagRules
