import TagRules.Proofs.Service.WritePaths

set_option autoImplicit false

namespace TagRules

namespace Log

open Dictionary

theorem get_shown (name : String) (fields : List (String × Value)) :
    get? name (fields.map fun field => (field.1, shownField field.2)) =
      (get? name fields).map shownField := by
  induction fields with
  | nil => rfl
  | cons field rest ih =>
    by_cases same : field.1 = name
    · simp [get?, same]
    · simp [get?, same, ih]

def contextId : Option String → Option Value
  | none => none
  | some s => if s.isEmpty then none else some (.text s)

theorem get_own_id (name : String) (id : Option String) (line : Line) :
    get? name (addId name id line) = (get? name line).or (contextId id) := by
  cases id with
  | none => exact Option.or_none.symm
  | some s =>
    cases present : get? name line with
    | some v => simp [addId, present]
    | none => by_cases nameless : s.isEmpty = true <;> simp [addId, contextId, nameless, present, get_put]

theorem get_other_id (name other : String) (id : Option String) (line : Line)
    (different : name ≠ other) : get? other (addId name id line) = get? other line := by
  cases id with
  | none => rfl
  | some s =>
    rw [addId]
    split
    · rfl
    · rw [get_put, if_neg different]

def own : List String := ["event", "level", "logger", "service"]

theorem render_shape (context : Context) (event : Event) :
    ∃ line, render context event =
        addId "client_id" context.client (addId "company_id" context.company line) ∧
      ∀ name, name ∉ own → name ∉ hidden →
        get? name line = (get? name (ofList event.fields)).map shownField := by
  refine ⟨_, rfl, fun name notOwn visible => ?_⟩
  have given := get_filter (fun key => decide (key ∉ hidden)) name (ofList event.fields)
    (decide_eq_true visible)
  simp only [own, List.mem_cons, List.not_mem_nil, or_false, not_or] at notOwn
  obtain ⟨notEvent, notLevel, notLogger, notService⟩ := notOwn
  split <;>
    simp only [get_put, if_neg (Ne.symm notEvent), if_neg (Ne.symm notLevel), if_neg (Ne.symm notLogger),
      if_neg (Ne.symm notService), get_shown, given]

theorem render_ids (context : Context) (event : Event) :
    get? "client_id" (render context event) =
      ((get? "client_id" (ofList event.fields)).map shownField).or (contextId context.client) ∧
    get? "company_id" (render context event) =
      ((get? "company_id" (ofList event.fields)).map shownField).or (contextId context.company) := by
  obtain ⟨line, shape, given⟩ := render_shape context event
  rw [shape, get_own_id, get_other_id _ _ _ _ (by decide), get_other_id _ _ _ _ (by decide), get_own_id,
    given "client_id" (by decide) (by decide), given "company_id" (by decide) (by decide)]
  exact ⟨rfl, rfl⟩

end Log

-- The line carries the id of the client, the id of the company if there is one, and no other.
def Line.Carries (client : String) (owner : Option String) (line : Line) : Prop :=
  Dictionary.get? "client_id" line = some (.text client) ∧
    (∀ name, owner = some name → name ≠ "" →
      Dictionary.get? "company_id" line = some (.text name)) ∧
    ∀ v, Dictionary.get? "company_id" line = some v → v = Service.idValue owner

theorem Event.Names.given {client : String} {owner : Option String} {event : Event}
    (names : event.Names client owner) :
    (∀ v, Dictionary.get? "client_id" (Dictionary.ofList event.fields) = some v → v = .text client) ∧
      ∀ v, Dictionary.get? "company_id" (Dictionary.ofList event.fields) = some v →
        v = Service.idValue owner := by
  have inside : ∀ name v, Dictionary.get? name (Dictionary.ofList event.fields) = some v →
      (name, v) ∈ event.fields := fun name v found =>
    Dictionary.mem_of_list
      ((Dictionary.get_some_iff (Dictionary.nodup_keys_of_list event.fields) name v).mp found)
  exact ⟨fun v found => names.1 v (inside _ v found), fun v found => names.2 v (inside _ v found)⟩

theorem line_carries (client : String) (owner : Option String) (named : client ≠ "") (event : Event)
    (names : event.Names client owner) :
    Line.Carries client owner (Log.render ⟨some client, owner⟩ event) := by
  obtain ⟨clientShown, companyShown⟩ := Log.render_ids ⟨some client, owner⟩ event
  obtain ⟨clientGiven, companyGiven⟩ := names.given
  rw [Line.Carries, clientShown, companyShown]
  refine ⟨?_, ?_⟩
  · cases given : Dictionary.get? "client_id" (Dictionary.ofList event.fields) with
    | none => simp [Log.contextId, named]
    | some v =>
      rw [clientGiven v given]
      rfl
  · cases given : Dictionary.get? "company_id" (Dictionary.ofList event.fields) with
    | none =>
      cases owner with
      | none => simp [Log.contextId]
      | some name => by_cases nameless : name = "" <;> simp [Log.contextId, nameless, Service.idValue]
    | some v =>
      rw [companyGiven v given]
      cases owner <;> simp [Service.idValue, Log.shownField]

namespace World

variable {α σ : Type}

theorem call_contexts (ask : σ → Answered σ α) (w : World σ) :
    (w.call ask).2.contexts = w.contexts := by rw [call_world]

structure Logged (P : Event → Prop) (before after : World σ) : Prop where
  contexts : after.contexts = before.contexts
  lines : ∃ events : List Event, after.lines = before.lines ++ events.map (Log.render before.context) ∧
    ∀ event ∈ events, P event

variable {P : Event → Prop}

theorem Logged.refl (w : World σ) : Logged P w w :=
  ⟨rfl, [], (List.append_nil w.lines).symm, List.forall_mem_nil P⟩

theorem same_context {before after : World σ} (same : after.contexts = before.contexts) :
    after.context = before.context := by
  rw [context, same, context]

theorem Logged.trans {first second third : World σ} (left : Logged P first second)
    (right : Logged P second third) : Logged P first third := by
  obtain ⟨contexts, events, lines, held⟩ := left
  obtain ⟨laterContexts, laterEvents, laterLines, laterHeld⟩ := right
  refine ⟨laterContexts.trans contexts, events ++ laterEvents, ?_,
    List.forall_mem_append.mpr ⟨held, laterHeld⟩⟩
  rw [laterLines, lines, same_context contexts, List.map_append, List.append_assoc]

theorem call_logged (ask : σ → Answered σ α) (w : World σ)
    (held : ∀ event ∈ (ask w.store).2.1, P event) : Logged P w (w.call ask).2 :=
  ⟨call_contexts ask w, _, congrArg lines (call_world ask w), held⟩

end World

namespace Memory

open World

variable {α : Type}

theorem guarded_events (P : Event → Prop) (target : Target) (who : Option String)
    (call : Memory → Answered Memory α) (each : ∀ m, ∀ event ∈ (call m).2.1, P event) (m : Memory) :
    ∀ event ∈ (guarded target who call m).2.1, P event := by
  obtain ⟨rules, worked | unworked⟩ := guarded_work target who call m
  · rw [worked]
    exact each { m with rules := rules }
  · rw [unworked]
    exact List.forall_mem_nil P

theorem apply_diff_events (client : String) (owner : Option String) (diff : Diff) (m : Memory) :
    ∀ event ∈ (applyDiff client diff m).2.1, event.Names client owner := by
  rcases apply_diff_cases client diff m with ⟨_, refused⟩ | ⟨_, applied⟩
  · rw [refused]
    exact List.forall_mem_nil _
  · rw [applied]
    simp [appliedEvent, Event.Names]

variable (loading : Loading) (task : Nat)

theorem respond_logged {client : String} {owner : Option String} (r : Request) (w : World Memory)
    (serves : r.Concerns client ∧ r.Names client owner) :
    Logged (Event.Names client owner) w (respond (answering loading) task r w).2 := by
  obtain ⟨concerns, names⟩ := serves
  cases r with
  | listLinks c =>
    exact call_logged _ w (guarded_events _ _ _ _ (fun _ => List.forall_mem_nil _) w.store)
  | applyDiff c diff =>
    obtain rfl : c = client := concerns
    exact call_logged _ w (guarded_events _ _ _ _ (apply_diff_events c owner diff) w.store)
  | emit event => exact ⟨rfl, [event], rfl, List.forall_mem_singleton.mpr names⟩
  | enter c => exact ⟨rfl, (Logged.refl w).lines⟩
  | leave c => exact ⟨rfl, (Logged.refl w).lines⟩
  | countRun trigger added removed => exact ⟨rfl, (Logged.refl w).lines⟩
  | countError kind service => exact ⟨rfl, (Logged.refl w).lines⟩
  | _ => exact concerns.elim

theorem run_logged {client : String} {owner : Option String} {p : Program α}
    (serves : p.Asks fun r => r.Concerns client ∧ r.Names client owner) (w : World Memory) :
    Logged (Event.Names client owner) w (p.run (respond (answering loading) task) w).2 :=
  serves.run_keeps _ (Logged (Event.Names client owner) w)
    (fun r v now before => before.trans (respond_logged loading task r v now)) w (Logged.refl w)

end Memory

namespace Service

open World

theorem load_logged (loading : Memory.Loading) (task : Nat) (settings : Settings) (trigger : String)
    (record : Value) (client : String) (owner : Option String) (w : World Memory) :
    let respond := World.respond (Memory.answering loading) task
    let ran := (loadAndReconcile settings trigger record client owner).run respond w
    ran.1.client = client ∧
      Logged (Event.Names client owner) (respond (.listTags owner) w).2 ran.2 := by
  intro respond ran
  unfold ran loadAndReconcile
  rw [Program.run_then, Program.run_request]
  generalize loaded : respond (.listTags owner) w = answered
  obtain ⟨tags, v⟩ := answered
  dsimp only
  cases tags with
  | error e =>
    refine ⟨by simp only [Program.run_then, Program.run_pure], Memory.run_logged _ task ?_ v⟩
    exact Program.asks_then (note_unloaded_serves owner settings client e.message) fun _ => .done _
  | ok tags =>
    obtain ⟨_, _, outcome⟩ := reconcile_client_cases (Memory.answering loading) task settings trigger
      ⟨client, record, tags⟩ v
    exact ⟨congrArg Outcome.client outcome, Memory.run_logged _ task
      (reconcile_client_serves owner settings trigger ⟨client, record, tags⟩) v⟩

theorem identified_company (entity record : Value) (company owner : Option String) (client name : String)
    (identified : identify entity company = .ok (record, client, owner)) (given : company = some name)
    (named : name ≠ "") : owner = some name := by
  subst given
  have kept : ∀ view, companyOf (some name) view = .ok (some name) := fun view => by
    simp [companyOf, named]
  rw [identify] at identified
  split at identified
  · cases identified
  · split at identified
    · cases identified
    · cases identified
    · rw [kept] at identified
      cases identified
      rfl

theorem save_logged (loading : Memory.Loading) (settings : Settings) (entity : Value)
    (company : Option String) (trigger : String) (w : World Memory) :
    let ran := save settings loading entity company trigger w
    (∀ e, identify entity company = .error e → ran = (.error e, w)) ∧
    ∀ record client owner, identify entity company = .ok (record, client, owner) →
      (∃ outcome, ran.1 = .ok outcome ∧ outcome.client = client) ∧ ran.2.contexts = w.contexts ∧
      ∃ events : List Event, ran.2.lines = w.lines ++
          loading.2.map (Log.render ⟨some client, owner⟩) ++ events.map (Log.render ⟨some client, owner⟩) ∧
        ∀ event ∈ events, event.Names client owner := by
  intro ran
  refine ⟨fun e unidentified => ?_, fun record client owner identified => ?_⟩
  · unfold ran save
    rw [evaluate_and_assign_eq]
    rw [unidentified]
    rfl
  · let opened : World Memory := { w with contexts := ⟨some client, owner⟩ :: w.contexts }
    let loaded := (respond (Memory.answering loading) 0 (.listTags owner) opened).2
    have contexts : loaded.contexts = opened.contexts := call_contexts _ opened
    have lines : loaded.lines = w.lines ++ loading.2.map (Log.render ⟨some client, owner⟩) :=
      congrArg World.lines (call_world ((Memory.answering loading).listTags owner) opened)
    have inside : loaded.context = ⟨some client, owner⟩ := same_context contexts
    obtain ⟨named, keptContexts, events, later, names⟩ :=
      load_logged loading 0 settings trigger record client owner opened
    unfold ran save
    rw [evaluate_and_assign_eq]
    rw [identified]
    simp only [Program.run_then, Program.run_pure]
    refine ⟨⟨_, rfl, named⟩, ?_, events, ?_, names⟩
    · exact congrArg List.tail (keptContexts.trans contexts)
    · change _ = loaded.lines ++ events.map (Log.render loaded.context) at later
      rw [inside, lines] at later
      exact later

end Service

def Request.KeepsContexts : Request → Prop
  | .openContext _ => False
  | .closeContext => False
  | _ => True

theorem Request.Concerns.keeps_contexts {client : String} {r : Request} (concerns : r.Concerns client) :
    r.KeepsContexts := by
  cases r <;> trivial

theorem World.respond_contexts {σ : Type} (c : Collaborators σ) (task : Nat) (r : Request)
    (keeps : r.KeepsContexts) (w : World σ) : (World.respond c task r w).2.contexts = w.contexts := by
  cases r with
  | listTags company => exact call_contexts _ w
  | listLinks client => exact call_contexts _ w
  | listTagLinks tag => exact call_contexts _ w
  | applyDiff client diff => exact call_contexts _ w
  | applyTagDiff diff => exact call_contexts _ w
  | openContext context => exact keeps.elim
  | closeContext => exact keeps.elim
  | _ => rfl

theorem World.run_contexts {σ α : Type} (c : Collaborators σ) (task : Nat) {p : Program α}
    (keeps : p.Asks Request.KeepsContexts) (w : World σ) :
    (p.run (World.respond c task) w).2.contexts = w.contexts :=
  keeps.run_keeps _ (fun v => v.contexts = w.contexts)
    (fun r v now same => (respond_contexts c task r now v).trans same) w rfl

namespace Service

variable {σ : Type}

theorem reevaluate_contexts (c : Collaborators σ) (task : Nat) (settings : Settings) (tag : Tag)
    (entities : List Value) (w : World σ) :
    ((reevaluateTag settings tag entities).run (World.respond c task) w).2.contexts = w.contexts := by
  refine World.run_contexts c task ?_ w
  refine Program.asks_then (collect_records_asks (fun _ => trivial) _ _) fun collected => ?_
  cases collected with
  | error e => exact .done _
  | ok pairs =>
    refine Program.asks_then (Program.asks_request trivial) fun listed => ?_
    cases listed with
    | error e => exact .done _
    | ok current =>
      refine Program.asks_then (emit_notes_asks (fun _ => trivial) _) fun _ => ?_
      cases (Reconcile.tag tag (Dictionary.ofList pairs) current).result with
      | error e => exact .done _
      | ok diff =>
        refine Program.asks_then (apply_under_locks_asks (fun _ => trivial) (fun _ => trivial) diff trivial)
          fun written => ?_
        cases written with
        | error e => exact .done _
        | ok _ =>
          exact Program.asks_then (Program.asks_request trivial) fun _ =>
            Program.asks_then (count_run_asks settings "tag_changed" _ _ trivial) fun _ => .done _

theorem recompute_contexts (c : Collaborators σ) (settings : Settings) (company : Option String)
    (entities : List Value) (w : World σ) :
    ((recomputeCompany settings company entities).run (World.respond c 0) w).2.contexts =
      w.contexts := by
  have listed := World.respond_contexts c 0 (.listTags company) trivial w
  rw [recomputeCompany, Routine.run_then, Routine.run_request]
  generalize World.respond c 0 (.listTags company) w = answered at listed ⊢
  obtain ⟨tags, v⟩ := answered
  cases tags with
  | error e => exact listed
  | ok tags =>
    have collected := World.run_contexts c 0
      (collect_records_asks (fun _ => trivial) ("company_id", idValue company) entities) v
    dsimp only
    rw [Routine.run_then, Routine.run_of_program]
    generalize (collectRecords _ entities).run _ v = found at collected ⊢
    obtain ⟨pairs, u⟩ := found
    cases pairs with
    | error e => exact collected.trans listed
    | ok pairs =>
      dsimp only
      rw [Routine.run_then, Routine.run_each]
      refine Eq.trans (Program.Asks.jobs_keep (fun job member => ?_) _ (fun t => t.contexts = u.contexts)
        (fun r t now same => (World.respond_contexts c 0 r now t).trans same) u rfl)
        (collected.trans listed)
      obtain ⟨pair, _, rfl⟩ := List.mem_map.mp member
      exact (reconcile_client_asks settings "recompute" _).imp fun _ concerns => concerns.keeps_contexts

end Service

namespace Call

open Service

theorem run_contexts (settings : Settings) (call : Call) (w : World Memory) :
    (call.run settings w).contexts = w.contexts := by
  cases call with
  | assignManually client tag => rfl
  | applyDiff client diff => exact World.respond_contexts _ 0 (.applyDiff client diff) trivial w
  | applyTagDiff diff => exact World.respond_contexts _ 0 (.applyTagDiff diff) trivial w
  | evaluate loading entity company trigger =>
    obtain ⟨refused, served⟩ := save_logged loading settings entity company trigger w
    cases identified : identify entity company with
    | error e => exact congrArg (World.contexts ∘ Prod.snd) (refused e identified)
    | ok found => exact (served found.1 found.2.1 found.2.2 identified).2.1
  | reevaluate tag entities => exact reevaluate_contexts _ 0 settings tag entities w
  | recompute loading company entities => exact recompute_contexts _ settings company entities w
  | fail rules => rfl

theorem run_all_contexts (settings : Settings) (calls : List Call) (w : World Memory) :
    (runAll settings calls w).contexts = w.contexts := by
  induction calls generalizing w with
  | nil => rfl
  | cons call rest ih => exact (ih _).trans (run_contexts settings call w)

theorem log_lines_stay_with_their_client (settings : Settings) (calls : List Call)
    (start : World Memory) (loading : Memory.Loading) (entity : Value) (company : Option String)
    (trigger : String) :
    let w := runAll settings calls start
    let ran := save settings loading entity company trigger w
    w.contexts = start.contexts ∧ ran.2.contexts = start.contexts ∧
    (∀ e, identify entity company = .error e → ran.1 = .error e ∧ ran.2.lines = w.lines) ∧
    ∀ record client owner, identify entity company = .ok (record, client, owner) →
      (∃ outcome, ran.1 = .ok outcome ∧ outcome.client = client) ∧
      (∀ name, company = some name → name ≠ "" → owner = some name) ∧
      ∃ emitted : List Line, ran.2.lines =
          w.lines ++ loading.2.map (Log.render ⟨some client, owner⟩) ++ emitted ∧
        (client ≠ "" → ∀ line ∈ emitted, line.Carries client owner) := by
  intro w ran
  have kept : w.contexts = start.contexts := run_all_contexts settings calls start
  have keptOnce : ran.2.contexts = w.contexts :=
    run_contexts settings (.evaluate loading entity company trigger) w
  obtain ⟨refused, served⟩ := save_logged loading settings entity company trigger w
  refine ⟨kept, keptOnce.trans kept, fun e unidentified => ?_, ?_⟩
  · rw [show ran = (.error e, w) from refused e unidentified]
    exact ⟨rfl, rfl⟩
  · intro record client owner identified
    obtain ⟨named, _, events, lines, names⟩ := served record client owner identified
    refine ⟨named, fun name => identified_company entity record company owner client name identified,
      _, lines, fun nonempty => ?_⟩
    exact List.forall_mem_map.mpr fun event member => line_carries client owner nonempty event
      (names event member)

theorem lines_after_calls_for_another_client :
    let odd : Tag := ⟨"odd", some (.either [.single "x" (.unknown (.text "like")) (.int 1) .null,
      .single "status" (.known .equals) (.text "vip") .null])⟩
    let first : Value := .mapping [(.text "id", .text "a"), (.text "status", .text "vip")]
    let last : Value := .mapping [(.text "id", .text "b"), (.text "status", .text "vip")]
    let outer : Context := ⟨some "outer", some "other"⟩
    let calls : List Call := [.fail [⟨.applyDiff, some "b", .runtime "down", none, true⟩],
      .evaluate (.ok [odd], []) first (some "acme") "client_saved",
      .evaluate (.error (.runtime "away"), []) first (some "acme") "client_saved",
      .evaluate (.ok [odd], []) .null none "client_saved"]
    let start : World Memory := ⟨Memory.empty, Metrics.empty, LockTable.empty, [], [outer]⟩
    let w := runAll Settings.default calls start
    let ran := save Settings.default (.ok [odd], []) last none "client_saved" w
    ran.1 = .ok ⟨"b", ⟨["odd"], []⟩, false, some "down"⟩ ∧ ran.2.contexts = [outer] ∧
      w.lines.length = 4 ∧ ran.2.lines.length = 7 ∧ ∃ emitted : List Line,
        ran.2.lines = w.lines ++ emitted ∧ ∀ line ∈ emitted, line.Carries "b" none := by
  intro odd first last outer calls start
  obtain ⟨_, contexts, _, served⟩ := log_lines_stay_with_their_client Settings.default calls start
    (.ok [odd], []) last none "client_saved"
  obtain ⟨_, _, emitted, lines, carried⟩ :=
    served (.view [(.text "id", .text "b"), (.text "status", .text "vip")]) "b" none rfl
  rw [List.map_nil, List.append_nil] at lines
  dsimp only
  refine ⟨?_, contexts, by decide +kernel, by decide +kernel, emitted, lines, carried (by decide)⟩
  dsimp only [odd, first, last, outer, calls, start]
  rfl

end Call

end TagRules
