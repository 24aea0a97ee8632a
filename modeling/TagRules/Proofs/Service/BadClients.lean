import TagRules.Proofs.Service.Recompute

set_option autoImplicit false

namespace TagRules.Service

open AssignmentTable Reconcile Memory

def Served (rules : List FailureRule) (client : String) : Prop :=
  client ≠ "" ∧ Spared rules .listLinks (some client) ∧ Spared rules .applyDiff (some client)

instance (rules : List FailureRule) (client : String) : Decidable (Served rules client) :=
  inferInstanceAs (Decidable (client ≠ "" ∧
    FailureRule.take .listLinks (some client) rules = none ∧
    FailureRule.take .applyDiff (some client) rules = none))

def isFit (tags : List Tag) (rules : List FailureRule) (client : String × Value) : Bool :=
  decide (Served rules client.1) && (matching client.2 tags).result.isOk

-- The entity has an id, and the client can be worked on.
def canBeWorkedOn (tags : List Tag) (rules : List FailureRule) (entity : Value) : Bool :=
  (client? entity).any (isFit tags rules)

theorem fit_iff (tags : List Tag) (rules : List FailureRule) (client : String × Value) :
    isFit tags rules client = true ↔
      Served rules client.1 ∧ ∃ desired, (matching client.2 tags).result = .ok desired := by
  rw [isFit, Bool.and_eq_true, decide_eq_true_eq]
  cases (matching client.2 tags).result <;> simp [Except.isOk, Except.toBool]

structure SameServed (rules : List FailureRule) (one other : Memory) : Prop where
  links : ∀ client, Served rules client → linksOf client one.table = linksOf client other.table
  ruled : one.rules = rules
  alsoRuled : other.rules = rules

variable (settings : Settings) (tags : List Tag) (loading : Memory.Loading)

theorem fit_succeeds (client : String × Value) (w : World Memory)
    (fit : isFit tags w.store.rules client = true) :
    (alone settings tags loading client w).1.error = none := by
  obtain ⟨⟨named, listable, writable⟩, evaluated⟩ := (fit_iff tags _ client).mp fit
  exact (reconcile_client_error_iff loading 0 settings "recompute" ⟨client.1, client.2, tags⟩ w).mpr
    ⟨listable, evaluated, .inr ⟨named, writable⟩⟩

-- A client that cannot be worked on fails, unless all that is missing is that a change could be
-- written and there is none.
theorem unfit_fails (client : String × Value) (w : World Memory)
    (unfit : ¬ isFit tags w.store.rules client = true) :
    (alone settings tags loading client w).1.error ≠ none ∨
      (alone settings tags loading client w).1.diff.isEmpty = true ∧
        Spared w.store.rules .listLinks (some client.1) ∧
        ∃ desired, (matching client.2 tags).result = .ok desired := by
  by_cases failed : (alone settings tags loading client w).1.error = none
  · obtain ⟨listable, evaluated, written⟩ := (reconcile_client_error_iff loading 0 settings
      "recompute" ⟨client.1, client.2, tags⟩ w).mp failed
    refine .inr ⟨written.resolve_right fun ⟨named, writable⟩ => unfit ?_, listable, evaluated⟩
    exact (fit_iff tags _ client).mpr ⟨⟨named, listable, writable⟩, evaluated⟩
  · exact .inl failed

variable (rules : List FailureRule)

theorem fit_alike (lasting : Lasting rules) (client : String × Value) (w v : World Memory)
    (same : SameServed rules w.store v.store) (fit : isFit tags rules client = true) :
    (alone settings tags loading client w).1 = (alone settings tags loading client v).1 ∧
      SameServed rules (alone settings tags loading client w).2.store
        (alone settings tags loading client v).2.store := by
  have own := reconcile_client_asks settings "recompute" ⟨client.1, client.2, tags⟩
  have served := ((fit_iff tags rules client).mp fit).1
  obtain ⟨result, here⟩ := run_same loading 0 own w v
    ⟨same.links client.1 served, same.ruled.trans same.alsoRuled.symm⟩
  have kept := run_others_kept loading 0 own w (by rw [same.ruled]; exact lasting)
  have alsoKept := run_others_kept loading 0 own v (by rw [same.alsoRuled]; exact lasting)
  refine ⟨result, fun other otherServed => ?_, kept.rules.trans same.ruled,
    alsoKept.rules.trans same.alsoRuled⟩
  by_cases isClient : other = client.1
  · rw [isClient]
    exact here.links
  · exact (kept.links other isClient).trans
      ((same.links other otherServed).trans (alsoKept.links other isClient).symm)

-- A client that cannot be worked on leaves the others alone, and itself too if the store answers for
-- it, since then it is a condition that fails.
theorem unfit_unseen (lasting : Lasting rules) (client : String × Value) (w v : World Memory)
    (same : SameServed rules w.store v.store) (unfit : ¬ isFit tags rules client = true) :
    SameServed rules (alone settings tags loading client w).2.store v.store := by
  have hereLasting : Lasting w.store.rules := by rw [same.ruled]; exact lasting
  have kept := run_others_kept loading 0
    (reconcile_client_asks settings "recompute" ⟨client.1, client.2, tags⟩) w hereLasting
  refine ⟨fun other served => ?_, kept.rules.trans same.ruled, same.alsoRuled⟩
  by_cases isClient : other = client.1
  · obtain ⟨updated, update, _⟩ := reconcile_client_cases (answering loading) 0 settings "recompute"
      ⟨client.1, client.2, tags⟩ w
    rcases update_lasting (answering_in_memory loading) update hereLasting with
      ⟨unchanged, _⟩ | ⟨desired, matched, _, _⟩
    · rw [show (alone settings tags loading client w).2.store = w.store from unchanged]
      exact same.links other served
    · exact absurd ((fit_iff tags rules client).mpr ⟨isClient ▸ served, desired, matched⟩) unfit
  · exact (kept.links other isClient).trans (same.links other served)

structure Fair (client : String × Value) (outcome : Outcome) : Prop where
  named : outcome.client = client.1
  fit : isFit tags rules client = true → outcome.error = none
  unfit : ¬ isFit tags rules client = true → outcome.error ≠ none ∨
    outcome.diff.isEmpty = true ∧ Spared rules .listLinks (some client.1) ∧
      ∃ desired, (matching client.2 tags).result = .ok desired

theorem unfit_left_out (lasting : Lasting rules) (clients : Dictionary String Value)
    (w v : World Memory) (same : SameServed rules w.store v.store) :
    let run := fun clients => Routine.runJobs (World.respond (answering loading) 0)
      (recomputeJobs settings tags clients).values
    let all := run clients w
    let good := run (clients.filter (isFit tags rules)) v
    good.1 = ((clients.zip all.1).filter fun entry => isFit tags rules entry.1).map Prod.snd ∧
      SameServed rules all.2.store good.2.store ∧ all.1.length = clients.length ∧
      ∀ entry ∈ clients.zip all.1, Fair tags rules entry.1 entry.2 := by
  induction clients generalizing w v with
  | nil => exact ⟨rfl, same, rfl, by simp⟩
  | cons client rest ih =>
    intro run all good
    let next := alone settings tags loading client w
    have fair : Fair tags rules client next.1 := by
      rw [← same.ruled]
      exact ⟨(alone_reported settings tags loading client w).1,
        fit_succeeds settings tags loading client w, unfit_fails settings tags loading client w⟩
    have allCons : all = (next.1 :: (run rest next.2).1, (run rest next.2).2) := rfl
    by_cases fit : isFit tags rules client = true
    · let alike := alone settings tags loading client v
      obtain ⟨result, served⟩ := fit_alike settings tags loading rules lasting client w v same fit
      obtain ⟨others, stillServed, lengths, fairly⟩ := ih next.2 alike.2 served
      have goodCons : good = (alike.1 :: (run (rest.filter (isFit tags rules)) alike.2).1,
          (run (rest.filter (isFit tags rules)) alike.2).2) := by
        unfold good
        rw [List.filter_cons_of_pos fit]
        rfl
      rw [allCons, goodCons]
      refine ⟨?_, stillServed, congrArg Nat.succ lengths, List.forall_mem_cons.mpr ⟨fair, fairly⟩⟩
      rw [List.zip_cons_cons, List.filter_cons, if_pos fit, List.map_cons]
      exact List.cons_eq_cons.mpr ⟨result.symm, others⟩
    · have served := unfit_unseen settings tags loading rules lasting client w v same fit
      obtain ⟨others, stillServed, lengths, fairly⟩ := ih next.2 v served
      have goodRest : good = run (rest.filter (isFit tags rules)) v := by
        unfold good
        rw [List.filter_cons_of_neg fit]
      rw [allCons, goodRest]
      refine ⟨?_, stillServed, congrArg Nat.succ lengths, List.forall_mem_cons.mpr ⟨fair, fairly⟩⟩
      rw [List.zip_cons_cons, List.filter_cons, if_neg fit]
      exact others

theorem clients_of_good (entities : List Value) :
    clientsOf (entities.filter (canBeWorkedOn tags rules)) =
      .ok ((entities.filterMap client?).filter (isFit tags rules)) := by
  refine (clients_of_ok_iff _ _).mpr ⟨fun entity member => ?_, ?_⟩
  · have good := (List.mem_filter.mp member).2
    cases found : clientOf entity with
    | ok id => exact ⟨id, rfl⟩
    | error e => simp [canBeWorkedOn, client?, found] at good
  · rw [List.filterMap_filter, List.filter_filterMap]
    congr 1
    funext entity
    cases found : client? entity with
    | none => simp [canBeWorkedOn, found]
    | some client => simp [canBeWorkedOn, found, Option.filter_some]

theorem clients_of_stops (before after : List Value) (entity : Value) (e : Fault)
    (earlier : ∀ other ∈ before, ∃ found, clientOf other = .ok found)
    (failed : clientOf entity = .error e) :
    clientsOf (before ++ entity :: after) = .error e := by
  induction before with
  | nil => rw [List.nil_append, clients_of_cons, failed]
  | cons other rest ih =>
    obtain ⟨⟨found, identified⟩, later⟩ := List.forall_mem_cons.mp earlier
    rw [List.cons_append, clients_of_cons, identified, ih later]
    cases found <;> rfl

theorem bad_clients_fail_alone (company : Option String) (events : List Event)
    (entities : List Value) (w : World Memory) (lasting : Lasting w.store.rules) :
    let rules := w.store.rules
    let recompute := fun entities => (recomputeCompany settings company entities).run
      (World.respond (Memory.answering (.ok tags, events)) 0) w
    let clients := entities.filterMap client?
    let ran := recompute entities
    let good := recompute (entities.filter (canBeWorkedOn tags rules))
    ((∀ entity ∈ entities, ∃ found, clientOf entity = .ok found) →
      ∃ report goodReport, ran.1 = .ok report ∧ good.1 = .ok goodReport ∧
        report.outcomes.length = clients.length ∧
        (∀ entry ∈ clients.zip report.outcomes, Fair tags rules entry.1 entry.2) ∧
        goodReport.outcomes = ((clients.zip report.outcomes).filter fun entry =>
          isFit tags rules entry.1).map Prod.snd ∧
        ∀ client ∈ clients, isFit tags rules client = true → ∀ tag,
          link? client.1 tag ran.2.store.table = link? client.1 tag good.2.store.table) ∧
    ∀ before entity after e, entities = before ++ entity :: after →
      (∀ earlier ∈ before, ∃ found, clientOf earlier = .ok found) →
      clientOf entity = .error e → ran.1 = .error e ∧ ran.2.store = w.store := by
  intro rules recompute clients ran good
  let loading : Memory.Loading := (.ok tags, events)
  constructor
  · intro identified
    obtain ⟨u, uStore, _, result, store, _⟩ := recompute_runs (Memory.answering loading) settings
      company entities tags clients w rfl ((clients_of_ok_iff _ _).mpr ⟨identified, rfl⟩)
    obtain ⟨v, vStore, _, goodResult, goodStore, _⟩ := recompute_runs (Memory.answering loading)
      settings company _ tags _ w rfl (clients_of_good tags rules entities)
    have sameStart : SameServed rules u.store v.store :=
      ⟨fun _ _ => by rw [uStore, vStore], congrArg Memory.rules uStore, congrArg Memory.rules vStore⟩
    obtain ⟨others, served, lengths, fairly⟩ :=
      unfit_left_out settings tags loading rules lasting clients u v sameStart
    refine ⟨_, _, result, goodResult, lengths, fairly, others, fun client _ fit tag => ?_⟩
    have sameLinks := served.links client.1 ((fit_iff tags rules client).mp fit).1
    rw [← link_of_links_of, show ran.2.store = _ from store, sameLinks, ← goodStore, link_of_links_of]
  · rintro before entity after e rfl earlier failed
    obtain ⟨result, store, _⟩ := recompute_stops (Memory.answering loading) settings company
      (before ++ entity :: after) e w
      (.inr ⟨⟨tags, rfl⟩, clients_of_stops before after entity e earlier failed⟩)
    exact ⟨result, store⟩

theorem good_client_beside_bad_ones :
    let one : Tag := ⟨"one", some (.single "x" (.known .equals) (.int 1) .null)⟩
    let nameless : Value := .mapping [(.text "x", .int 1)]
    let a : Value := .mapping [(.text "id", .text "a"), (.text "x", .int 1)]
    let b : Value := .mapping [(.text "id", .text "b"), (.text "x", .decimal (.signalling false 0))]
    let c : Value := .mapping [(.text "id", .text "c"), (.text "x", .int 1)]
    let w : World Memory := World.initial ⟨[], [(("a", "old"), ⟨"old", true, some "a"⟩)],
      [⟨.applyDiff, some "c", .storeFailed "down", none, false⟩]⟩
    let recompute := fun entities => (recomputeCompany Settings.default (some "acme") entities).run
      (World.respond (Memory.answering (.ok [one], [])) 0) w
    let ran := recompute [nameless, b, c, a]
    let good := recompute ([nameless, b, c, a].filter (canBeWorkedOn [one] w.store.rules))
    ∃ report goodReport, ran.1 = .ok report ∧ report.failed = ["b", "c"] ∧
      good.1 = .ok goodReport ∧ goodReport.outcomes = [⟨"a", ⟨["one"], ["old"]⟩, true, none⟩] ∧
      ∀ tag, link? "a" tag ran.2.store.table = link? "a" tag good.2.store.table := by
  intro one nameless a b c w
  dsimp only
  have lasting : Lasting w.store.rules := by
    intro rule member
    obtain rfl := List.mem_singleton.mp member
    rfl
  have identified : ∀ entity ∈ [nameless, b, c, a], ∃ found, clientOf entity = .ok found := by
    simp only [List.forall_mem_cons]
    exact ⟨⟨_, rfl⟩, ⟨_, rfl⟩, ⟨_, rfl⟩, ⟨_, rfl⟩, by simp⟩
  have ended : ((recomputeCompany Settings.default (some "acme") [nameless, b, c, a]).run
      (World.respond (Memory.answering (.ok [one], [])) 0) w).1 =
        .ok ⟨some "acme", [⟨"b", Diff.empty, false, some Fault.signallingOperand.message⟩,
          ⟨"c", ⟨["one"], []⟩, false, some "down"⟩, ⟨"a", ⟨["one"], ["old"]⟩, true, none⟩]⟩ := by
    dsimp only [one, nameless, a, b, c, w]
    rfl
  obtain ⟨report, goodReport, result, goodResult, _, _, others, links⟩ :=
    (bad_clients_fail_alone Settings.default [one] (some "acme") [] [nameless, b, c, a] w lasting).1
      identified
  obtain rfl := Except.ok.inj (ended.symm.trans result)
  dsimp only at goodResult links
  refine ⟨_, goodReport, ended, rfl, goodResult, others, ?_⟩
  exact links ("a", .view [(.text "id", .text "a"), (.text "x", .int 1)])
    (List.mem_filterMap.mpr ⟨a, by simp, rfl⟩) rfl

theorem entity_without_view_stops_recompute :
    ¬ ∀ (tags : List Tag) (entities : List Value) (w : World Memory), ∃ report,
      ((recomputeCompany Settings.default (some "acme") entities).run
        (World.respond (Memory.answering (.ok tags, [])) 0) w).1 = .ok report := by
  intro always
  let one : Tag := ⟨"one", some (.single "x" (.known .equals) (.int 1) .null)⟩
  let a : Value := .mapping [(.text "id", .text "a"), (.text "x", .int 1)]
  have stopped : ((recomputeCompany Settings.default (some "acme") [.text "text", a]).run
      (World.respond (Memory.answering (.ok [one], [])) 0) Session.initial).1 =
        .error .notAnEntity := rfl
  obtain ⟨report, returned⟩ := always [one] [.text "text", a] Session.initial
  rw [stopped] at returned
  cases returned

end TagRules.Service
