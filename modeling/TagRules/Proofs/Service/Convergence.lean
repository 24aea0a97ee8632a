import TagRules.Proofs.Service.Updates

set_option autoImplicit false

namespace TagRules.Service

open AssignmentTable Reconcile

variable {σ : Type}

theorem reconcile_client_settles (settings : Settings) (trigger : String) (loading : Memory.Loading)
    (task : Nat) (job : Job) (w : World Memory) (plain : w.store.rules = [])
    (named : job.client ≠ "") (desired : List String)
    (found : (matching job.record job.tags).result = .ok desired) :
    let ran := (reconcileClient settings trigger job).run
      (World.respond (Memory.answering loading) task) w
    ran.1 = ⟨job.client, diffOf desired (ofClient job.client w.store.table), true, none⟩ ∧
    ran.2.store = { w.store with table := settled job.client desired w.store.table } := by
  intro ran
  have inMemory := Memory.answering_in_memory loading
  have spared : ∀ target who, Memory.Spared w.store.rules target who := by
    intro target who
    rw [plain]
    rfl
  obtain ⟨updated, update, result⟩ :=
    reconcile_client_cases (Memory.answering loading) task settings trigger job w
  have succeeded : updated.2 = none := (update_error_iff inMemory update).mpr
    ⟨spared .listLinks _, ⟨desired, found⟩, .inr ⟨named, spared .applyDiff _⟩⟩
  obtain ⟨others, matched, diff, store⟩ := update_succeeded inMemory update succeeded
  obtain rfl := Except.ok.inj (matched.symm.trans found)
  refine ⟨?_, store⟩
  rw [show ran.1 = _ from result, outcomeOf, diff, succeeded]
  rfl

theorem load_settles (settings : Settings) (trigger : String) (record : Value) (client : String)
    (owner : Option String) (tags : List Tag) (events : List Event) (task : Nat) (w : World Memory)
    (plain : w.store.rules = []) (named : client ≠ "") (desired : List String)
    (found : (matching record tags).result = .ok desired) :
    let ran := (loadAndReconcile settings trigger record client owner).run
      (World.respond (Memory.answering (.ok tags, events)) task) w
    ran.1 = ⟨client, diffOf desired (ofClient client w.store.table), true, none⟩ ∧
    ran.2.store = { w.store with table := settled client desired w.store.table } := by
  intro ran
  obtain ⟨u, unchanged, loaded⟩ : ∃ u : World Memory, u.store = w.store ∧
      World.respond (Memory.answering (.ok tags, events)) task (.listTags owner) w = (.ok tags, u) :=
    ⟨_, World.call_store _ w, rfl⟩
  have reconciled := reconcile_client_settles settings trigger (.ok tags, events) task
    ⟨client, record, tags⟩ u (by rw [unchanged]; exact plain) named desired found
  unfold ran loadAndReconcile
  rw [Program.run_then, Program.run_request, loaded]
  rw [unchanged] at reconciled
  exact reconciled

theorem evaluate_settles (settings : Settings) (entity record : Value)
    (company owner : Option String) (client trigger : String) (tags : List Tag)
    (events : List Event) (task : Nat) (w : World Memory) (plain : w.store.rules = [])
    (identified : identify entity company = .ok (record, client, owner)) (named : client ≠ "")
    (desired : List String) (found : (matching record tags).result = .ok desired) :
    let ran := (evaluateAndAssign settings entity company trigger).run
      (World.respond (Memory.answering (.ok tags, events)) task) w
    ran.1 = .ok ⟨client, diffOf desired (ofClient client w.store.table), true, none⟩ ∧
    ran.2.store = { w.store with table := settled client desired w.store.table } := by
  intro ran
  obtain ⟨result, store⟩ := load_settles settings trigger record client owner tags events task
    { w with contexts := ⟨some client, owner⟩ :: w.contexts } plain named desired found
  unfold ran
  rw [evaluate_and_assign_eq]
  rw [identified]
  dsimp only
  rw [Program.run_then, Program.run_request, Program.run_then, Program.run_then, Program.run_request]
  exact ⟨congrArg Except.ok result, store⟩

-- Rules of failure stand for other stores: the store in memory has none and never fails.
theorem save_converges (settings : Settings) (entity record : Value) (company owner : Option String)
    (client trigger : String) (tags : List Tag) (events : List Event) (w : World Memory)
    (reachable : Call.Reachable w.store.table) (plain : w.store.rules = [])
    (identified : identify entity company = .ok (record, client, owner)) (named : client ≠ "")
    (evaluates : Evaluates record tags) :
    let saved := save settings (.ok tags, events) entity company trigger w
    let before := w.store.table
    let after := saved.2.store.table
    ∃ diff, saved.1 = .ok ⟨client, diff, true, none⟩ ∧
      (∀ tag a, a.auto = false →
        (link? client tag after = some a ↔ link? client tag before = some a)) ∧
      (∀ tag, HasAuto client tag after ↔ Matches record tags tag ∧ ¬ HasManual client tag before) ∧
      after.filter (fun entry => decide (entry.1.1 ≠ client)) =
        before.filter (fun entry => decide (entry.1.1 ≠ client)) ∧
      diff.toAdd.Nodup ∧ diff.toRemove.Nodup ∧
      (∀ tag, tag ∈ diff.toAdd ↔ link? client tag before = none ∧ link? client tag after ≠ none) ∧
      (∀ tag, tag ∈ diff.toRemove ↔
        link? client tag before ≠ none ∧ link? client tag after = none) ∧
      ∀ nextTrigger nextEvents,
        let again := save settings (.ok tags, nextEvents) entity company nextTrigger saved.2
        again.1 = .ok ⟨client, Diff.empty, true, none⟩ ∧ again.2.store.table = after := by
  intro saved before after
  have coherent : Coherent before := reachable.coherent
  obtain ⟨desired, found, once, exact⟩ := matching_found record tags evaluates
  obtain ⟨result, store⟩ := evaluate_settles settings entity record company owner client trigger
    tags events 0 w plain identified named desired found
  have settles : after = settled client desired before := congrArg Memory.table store
  refine ⟨diffOf desired (ofClient client before), result, ?_, ?_, ?_,
    nodup_to_add desired _ once, nodup_to_remove desired _, ?_, ?_, ?_⟩
  · intro tag a manual
    rw [settles]
    exact manual_link_settled desired before client tag a manual
  · intro tag
    rw [settles, has_auto_settled desired before coherent, exact]
  · rw [settles]
    exact settled_apart desired before client
  · intro tag
    rw [settles]
    exact to_add_created desired before coherent client tag
  · intro tag
    rw [settles]
    exact to_remove_deleted desired before coherent client tag
  · intro nextTrigger nextEvents again
    have rules : saved.2.store.rules = [] := (congrArg Memory.rules store).trans plain
    have nothing : diffOf desired (ofClient client after) = Diff.empty := by
      rw [settles]
      exact diff_settled desired before coherent client
    obtain ⟨againResult, againStore⟩ := evaluate_settles settings entity record company owner client
      nextTrigger tags nextEvents 0 saved.2 rules identified named desired found
    have sameDiff : again.1 = .ok ⟨client, diffOf desired (ofClient client after), true, none⟩ :=
      againResult
    rw [nothing] at sameDiff
    have unchanged : settled client desired after = after := by
      rw [settled, nothing]
      rfl
    exact ⟨sameDiff, (congrArg Memory.table againStore).trans unchanged⟩

theorem save_replaces_stale_link :
    let vip : Condition := .single "status" (.known .equals) (.text "vip") .null
    let tags : List Tag := [⟨"vip", some vip⟩, ⟨"kept", some vip⟩, ⟨"vip", none⟩]
    let fields : List (Value × Value) := [(.text "id", .text "c"), (.text "status", .text "vip")]
    let w := Call.runAll Settings.default
      [.applyDiff "c" ⟨["stale", "kept"], []⟩, .assignManually "c" "kept"] Session.initial
    let saved := save Settings.default (.ok tags, []) (.mapping fields) none "client_saved" w
    let after := saved.2.store.table
    HasAuto "c" "vip" after ∧ ¬ HasAuto "c" "stale" after ∧ ¬ HasAuto "c" "kept" after := by
  intro vip tags fields w
  dsimp only
  have holds : (vip.evaluate (.view fields)).result = .ok true := rfl
  have evaluates : Evaluates (.view fields) tags := by
    intro tag member c condition
    obtain rfl : vip = c := by
      simp only [tags, List.mem_cons, List.not_mem_nil, or_false] at member
      rcases member with rfl | rfl | rfl
      · exact Option.some.inj condition
      · exact Option.some.inj condition
      · cases condition
    exact ⟨true, holds⟩
  obtain ⟨diff, _, _, auto, _⟩ := save_converges Settings.default (.mapping fields) (.view fields)
    none none "c" "client_saved" tags [] w ⟨Settings.default, _, Session.initial, rfl, rfl⟩ rfl rfl
    (by decide) evaluates
  have byHand : HasManual "c" "kept" w.store.table := ⟨⟨"kept", false, some "c"⟩, rfl, rfl⟩
  refine ⟨(auto "vip").mpr ⟨?_, ?_⟩, ?_, ?_⟩
  · exact ⟨⟨"vip", some vip⟩, List.mem_cons_self, rfl, vip, rfl, holds⟩
  · rintro ⟨a, found, _⟩
    cases found
  · intro stale
    obtain ⟨tag, member, same, _⟩ := ((auto "stale").mp stale).1
    simp only [tags, List.mem_cons, List.not_mem_nil, or_false] at member
    rcases member with rfl | rfl | rfl <;> simp at same
  · intro kept
    exact ((auto "kept").mp kept).2 byHand

end TagRules.Service
