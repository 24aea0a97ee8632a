import TagRules.Proofs.Service.Agreement

set_option autoImplicit false

namespace TagRules.Report

theorem totals_of_perm (company : Option String) {outcomes others : List Outcome}
    (reordered : others.Perm outcomes) :
    (Report.mk company others).added = (Report.mk company outcomes).added ∧
      (Report.mk company others).removed = (Report.mk company outcomes).removed ∧
      (Report.mk company others).failed.Perm (Report.mk company outcomes).failed :=
  ⟨((reordered.filter _).map _).sum_nat, ((reordered.filter _).map _).sum_nat,
    (reordered.filter _).map _⟩

theorem totals_of_idle (report : Report)
    (idle : ∀ outcome ∈ report.outcomes, outcome.applied = true → outcome.diff.isEmpty = true) :
    report.added = 0 ∧ report.removed = 0 := by
  have noChange : ∀ outcome ∈ report.outcomes.filter (·.applied),
      outcome.diff.toAdd.length = 0 ∧ outcome.diff.toRemove.length = 0 := by
    intro outcome member
    obtain ⟨listed, applied⟩ := List.mem_filter.mp member
    simpa [Diff.isEmpty] using idle outcome listed applied
  constructor
  · apply List.sum_eq_zero_iff_forall_eq_nat.mpr
    intro n member
    obtain ⟨outcome, listed, rfl⟩ := List.mem_map.mp member
    exact (noChange outcome listed).1
  · apply List.sum_eq_zero_iff_forall_eq_nat.mpr
    intro n member
    obtain ⟨outcome, listed, rfl⟩ := List.mem_map.mp member
    exact (noChange outcome listed).2

theorem outcomes_counted (report : Report)
    (reported : ∀ outcome ∈ report.outcomes, outcome.applied = true ↔ outcome.error = none) :
    report.outcomes.length =
      (report.outcomes.filter (·.applied)).length + report.failed.length := by
  have failedOnes : report.outcomes.filter (·.error.isSome) =
      report.outcomes.filter fun outcome => !outcome.applied := by
    apply List.filter_congr
    intro outcome member
    have applied := reported outcome member
    cases error : outcome.error with
    | none => simp [applied.mpr error]
    | some message => simpa [error] using applied
  rw [failed, List.length_map, failedOnes, ← List.length_append]
  exact (List.filter_append_perm (·.applied) report.outcomes).length_eq.symm

end TagRules.Report

namespace TagRules.Service

open AssignmentTable Memory

def clientOf (entity : Value) : Except Fault (Option (String × Value)) :=
  match Record.view entity with
  | .error e => .error e
  | .ok record => (idUnder record clientKeys).map fun id => id.map fun client => (client, record)

def client? (entity : Value) : Option (String × Value) :=
  match clientOf entity with
  | .ok found => found
  | .error _ => none

theorem clients_of_cons (entity : Value) (rest : List Value) :
    clientsOf (entity :: rest) =
      match clientOf entity with
      | .error e => .error e
      | .ok none => clientsOf rest
      | .ok (some client) => (clientsOf rest).map (client :: ·) := by
  rw [clientsOf, clientOf]
  cases Record.view entity with
  | error e => rfl
  | ok record =>
    dsimp only
    cases idUnder record clientKeys with
    | error e => rfl
    | ok id => cases id <;> rfl

theorem clients_of_ok_iff (entities : List Value) (clients : Dictionary String Value) :
    clientsOf entities = .ok clients ↔
      (∀ entity ∈ entities, ∃ found, clientOf entity = .ok found) ∧
        entities.filterMap client? = clients := by
  induction entities generalizing clients with
  | nil => simp [clientsOf]
  | cons entity rest ih =>
    rw [clients_of_cons, List.forall_mem_cons]
    cases found : clientOf entity with
    | error e => simp
    | ok id =>
      cases id with
      | none => simp [client?, found, ih]
      | some client =>
        cases others : clientsOf rest with
        | error e =>
          have unidentified : ¬ ∀ entity ∈ rest, ∃ found, clientOf entity = .ok found :=
            fun identified => by cases others.symm.trans ((ih _).mpr ⟨identified, rfl⟩)
          exact iff_of_false (by simp [Except.map]) fun both => unidentified both.1.2
        | ok listed =>
          obtain ⟨identified, rfl⟩ := (ih listed).mp others
          simp only [Except.map, client?, found, List.filterMap_cons, Except.ok.injEq]
          exact ⟨fun same => ⟨⟨⟨_, rfl⟩, identified⟩, same⟩, And.right⟩

theorem clients_of_perm {entities order : List Value} (reordered : order.Perm entities)
    {clients : Dictionary String Value} (identified : clientsOf entities = .ok clients) :
    ∃ others, clientsOf order = .ok others ∧ others.Perm clients := by
  obtain ⟨found, rfl⟩ := (clients_of_ok_iff entities clients).mp identified
  refine ⟨_, (clients_of_ok_iff order _).mpr ⟨fun entity member => ?_, rfl⟩, reordered.filterMap client?⟩
  exact found entity (reordered.mem_iff.mp member)

variable (settings : Settings) (tags : List Tag) (loading : Memory.Loading)

def alone (client : String × Value) (w : World Memory) : Outcome × World Memory :=
  (reconcileClient settings "recompute" ⟨client.1, client.2, tags⟩).run
    (World.respond (answering loading) 0) w

theorem alone_reported (client : String × Value) (w : World Memory) :
    (alone settings tags loading client w).1.client = client.1 ∧
      ((alone settings tags loading client w).1.applied = true ↔
        (alone settings tags loading client w).1.error = none) := by
  obtain ⟨updated, _, result⟩ := reconcile_client_cases (answering loading) 0 settings "recompute"
    ⟨client.1, client.2, tags⟩ w
  rw [show (alone settings tags loading client w).1 = _ from result]
  simp [outcomeOf]

theorem jobs_apart {clients : Dictionary String Value} (distinctClients : clients.keys.Nodup)
    {w u last : World Memory} {outcomes : List Outcome} (lasting : Lasting w.store.rules)
    (sameStore : u.store = w.store)
    (ran : Program.SideBySide (World.respond (answering loading) 0)
      (recomputeJobs settings tags clients).values u outcomes last) :
    outcomes = clients.map (fun client => (alone settings tags loading client w).1) ∧
      (∀ client ∈ clients,
        SameFor client.1 last.store (alone settings tags loading client w).2.store) ∧
      ∀ other, other ∉ clients.keys → SameFor other last.store w.store := by
  have own : ∀ job ∈ recomputeJobs settings tags clients, job.2.Asks (Request.Concerns job.1) := by
    intro job member
    obtain ⟨client, _, rfl⟩ := List.mem_map.mp member
    exact reconcile_client_asks settings "recompute" ⟨client.1, client.2, tags⟩
  have fromStore : ∀ client : String × Value,
      (alone settings tags loading client u).1 = (alone settings tags loading client w).1 ∧
        SameFor client.1 (alone settings tags loading client u).2.store
          (alone settings tags loading client w).2.store := fun client =>
    run_same loading 0 (reconcile_client_asks settings "recompute" ⟨client.1, client.2, tags⟩) u w
      (sameStore ▸ .refl client.1 u.store)
  obtain ⟨ends, links, others⟩ := side_by_side_apart loading 0 ran
    (recomputeJobs settings tags clients) rfl
    (by rw [recompute_jobs_keys]; exact distinctClients) (by rw [sameStore]; exact lasting) own
  refine ⟨?_, fun client member => ?_, fun other unlisted => ?_⟩
  · rw [ends, recompute_jobs_values, List.map_map]
    exact List.map_congr_left fun client _ => (fromStore client).1
  · exact (links _ (List.mem_map.mpr ⟨client, member, rfl⟩)).trans (fromStore client).2
  · rw [← sameStore]
    exact others other (by rw [recompute_jobs_keys]; exact unlisted)

theorem jobs_agree {clients others : Dictionary String Value} (reordered : others.Perm clients)
    (distinctClients : clients.keys.Nodup) {w u v uLast vLast : World Memory}
    {outcomes otherOutcomes : List Outcome} (coherent : Coherent w.store.table)
    (lasting : Lasting w.store.rules) (uStore : u.store = w.store) (vStore : v.store = w.store)
    (ran : Program.SideBySide (World.respond (answering loading) 0)
      (recomputeJobs settings tags clients).values u outcomes uLast)
    (otherRan : Program.SideBySide (World.respond (answering loading) 0)
      (recomputeJobs settings tags others).values v otherOutcomes vLast) :
    otherOutcomes.Perm outcomes ∧ vLast.store.table.Perm uLast.store.table := by
  have sameKeys : others.keys.Perm clients.keys := reordered.map Prod.fst
  obtain ⟨rfl, links, untouched⟩ := jobs_apart settings tags loading distinctClients lasting uStore ran
  obtain ⟨rfl, otherLinks, otherUntouched⟩ := jobs_apart settings tags loading
    (sameKeys.nodup_iff.mpr distinctClients) lasting vStore otherRan
  have staysCoherent : ∀ {start last : World Memory} {programs : List (Program Outcome)} {results},
      start.store = w.store →
      Program.SideBySide (World.respond (answering loading) 0) programs start results last →
      Coherent last.store.table := fun sameStore ran =>
    ran.keeps (P := fun w => Coherent w.store.table)
      (fun r s kept => (answering_kept loading 0 r s).coherent kept)
      (by rw [sameStore]; exact coherent)
  refine ⟨reordered.map _, (staysCoherent vStore otherRan).perm_of_links (staysCoherent uStore ran) ?_⟩
  intro client
  by_cases listed : client ∈ clients.keys
  · obtain ⟨entry, member, rfl⟩ := List.mem_map.mp listed
    exact (otherLinks entry (reordered.mem_iff.mpr member)).links.trans (links entry member).links.symm
  · exact (otherUntouched client fun known => listed (sameKeys.mem_iff.mp known)).links.trans
      (untouched client listed).links.symm

theorem jobs_again (clients : Dictionary String Value) (w u v : World Memory)
    (coherent : Coherent w.store.table) (lasting : Lasting w.store.rules)
    (coherentNow : Coherent u.store.table)
    (links : ∀ client ∈ clients,
      SameFor client.1 u.store (alone settings tags loading client w).2.store)
    (sameStore : v.store = u.store) :
    let worked := Routine.runJobs (World.respond (answering loading) 0)
      (recomputeJobs settings tags clients).values v
    worked.2.store = u.store ∧
      ∀ outcome ∈ worked.1, outcome.applied = true → outcome.diff.isEmpty = true := by
  have again : ∀ client ∈ clients, ∀ t : World Memory, t.store = u.store →
      ((alone settings tags loading client t).1.error = none →
        (alone settings tags loading client t).1.diff.isEmpty = true) ∧
        (alone settings tags loading client t).2.store = t.store := by
    intro client member t here
    exact reconcile_client_again loading 0 settings "recompute" ⟨client.1, client.2, tags⟩ w t coherent
      lasting (by rw [here]; exact coherentNow) (by rw [here]; exact links client member)
  rw [recompute_jobs_values]
  obtain ⟨kept, results⟩ := Program.run_jobs_each (World.respond (answering loading) 0)
    (fun t => t.store = u.store)
    (clients.map fun client => reconcileClient settings "recompute" ⟨client.1, client.2, tags⟩)
    (by
      intro program listed t here
      obtain ⟨client, member, rfl⟩ := List.mem_map.mp listed
      exact ((again client member t here).2).trans here) v sameStore
  refine ⟨kept, fun outcome member applied => ?_⟩
  obtain ⟨program, listed, t, here, rfl⟩ := results outcome member
  obtain ⟨client, known, rfl⟩ := List.mem_map.mp listed
  exact (again client known t here).1
    ((alone_reported settings tags loading client t).2.mp applied)

-- Rules of failure that last stand for clients that the store rejects.
theorem recompute_any_order (company : Option String) (events : List Event)
    (entities order : List Value) (reordered : order.Perm entities)
    (clients : Dictionary String Value) (identified : clientsOf entities = .ok clients)
    (distinctClients : clients.keys.Nodup) (w : World Memory) (coherent : Coherent w.store.table)
    (lasting : Lasting w.store.rules) :
    let respond := World.respond (Memory.answering (.ok tags, events)) 0
    let recompute := fun entities => (recomputeCompany settings company entities).run respond
    let ran := recompute entities w
    let other := recompute order w
    let again := recompute order ran.2
    ∃ report otherReport lastReport,
      (ran.1 = .ok report ∧ other.1 = .ok otherReport ∧ again.1 = .ok lastReport) ∧
      report.outcomes.map (·.client) = clients.keys ∧
      report.outcomes.length =
        (report.outcomes.filter (·.applied)).length + report.failed.length ∧
      otherReport.outcomes.Perm report.outcomes ∧ otherReport.added = report.added ∧
      otherReport.removed = report.removed ∧ otherReport.failed.Perm report.failed ∧
      other.2.store.table.Perm ran.2.store.table ∧
      (∀ u outcomes last, u.store = w.store →
        Program.SideBySide respond (recomputeJobs settings tags clients).values u outcomes last →
        outcomes = report.outcomes ∧ last.store.table.Perm ran.2.store.table) ∧
      lastReport.added = 0 ∧ lastReport.removed = 0 ∧
      again.2.store.table = ran.2.store.table := by
  intro respond recompute ran other again
  let loading : Memory.Loading := (.ok tags, events)
  obtain ⟨others, otherIdentified, sameClients⟩ := clients_of_perm reordered identified
  have distinctOthers : others.keys.Nodup := (sameClients.map Prod.fst).nodup_iff.mpr distinctClients
  obtain ⟨u, uStore, _, result, store, _⟩ := recompute_runs (Memory.answering loading) settings
    company entities tags clients w rfl identified
  obtain ⟨v, vStore, _, otherResult, otherStore, _⟩ := recompute_runs (Memory.answering loading)
    settings company order tags others w rfl otherIdentified
  obtain ⟨t, tStore, _, lastResult, lastStore, _⟩ := recompute_runs (Memory.answering loading)
    settings company order tags others ran.2 rfl otherIdentified
  have inTurn := fun clients w => Program.run_jobs_side_by_side respond
    (recomputeJobs settings tags clients).values w
  obtain ⟨ends, links, _⟩ := jobs_apart settings tags loading distinctClients lasting uStore
    (inTurn clients u)
  obtain ⟨sameOutcomes, sameTable⟩ := jobs_agree settings tags loading sameClients distinctClients
    coherent lasting uStore vStore (inTurn clients u) (inTurn others v)
  have coherentAfter : Coherent ran.2.store.table :=
    Call.run_coherent settings (.recompute loading company entities) w coherent
  have endedAlone : ∀ client ∈ others,
      SameFor client.1 ran.2.store (alone settings tags loading client w).2.store := by
    intro client member
    rw [show ran.2.store = _ from store]
    exact links client (sameClients.mem_iff.mp member)
  obtain ⟨unmoved, idle⟩ := jobs_again settings tags loading others w ran.2 t coherent lasting
    coherentAfter endedAlone tStore
  obtain ⟨noneAdded, noneRemoved⟩ := Report.totals_of_idle ⟨company, _⟩ idle
  obtain ⟨sameAdded, sameRemoved, sameFailed⟩ := Report.totals_of_perm company sameOutcomes
  rw [show ran.2.store.table = _ from congrArg Memory.table store,
    show other.2.store.table = _ from congrArg Memory.table otherStore]
  refine ⟨⟨company, _⟩, ⟨company, _⟩, ⟨company, _⟩, ⟨result, otherResult, lastResult⟩, ?_, ?_,
    sameOutcomes, sameAdded, sameRemoved, sameFailed, sameTable, ?_, noneAdded, noneRemoved, ?_⟩
  · rw [ends, List.map_map]
    exact List.map_congr_left fun client _ => (alone_reported settings tags loading client w).1
  · apply Report.outcomes_counted
    intro outcome member
    rw [ends] at member
    obtain ⟨client, _, rfl⟩ := List.mem_map.mp member
    exact (alone_reported settings tags loading client w).2
  · intro start outcomes last startStore side
    obtain ⟨otherEnds, _⟩ :=
      jobs_apart settings tags loading distinctClients lasting startStore side
    exact ⟨otherEnds.trans ends.symm, (jobs_agree settings tags loading (List.Perm.refl clients)
      distinctClients coherent lasting uStore startStore (inTurn clients u) side).2⟩
  · rw [lastStore, unmoved]
    exact congrArg Memory.table store

theorem failing_clients_in_any_order :
    let one : Tag := ⟨"one", some (.single "x" (.known .equals) (.int 1) .null)⟩
    let a : Value := .mapping [(.text "id", .text "a"), (.text "x", .int 1)]
    let b : Value := .mapping [(.text "id", .text "b"), (.text "x", .decimal (.signalling false 0))]
    let c : Value := .mapping [(.text "id", .text "c"), (.text "x", .int 1)]
    let w : World Memory := World.initial ⟨[], [(("a", "old"), ⟨"old", true, some "a"⟩)],
      [⟨.applyDiff, some "c", .storeFailed "down", none, false⟩]⟩
    let recompute := fun entities => (recomputeCompany Settings.default (some "acme") entities).run
      (World.respond (Memory.answering (.ok [one], [])) 0)
    let ran := recompute [b, c, a] w
    let again := recompute [a, c, b] ran.2
    ∃ report lastReport, ran.1 = .ok report ∧ again.1 = .ok lastReport ∧
      report.outcomes.map (·.client) = ["b", "c", "a"] ∧ report.failed = ["b", "c"] ∧
      report.added = 1 ∧ report.removed = 1 ∧ lastReport.added = 0 ∧ lastReport.removed = 0 ∧
      again.2.store.table = ran.2.store.table := by
  intro one a b c w
  dsimp only
  let clients : Dictionary String Value :=
    [("b", .view [(.text "id", .text "b"), (.text "x", .decimal (.signalling false 0))]),
      ("c", .view [(.text "id", .text "c"), (.text "x", .int 1)]),
      ("a", .view [(.text "id", .text "a"), (.text "x", .int 1)])]
  have coherent : Coherent w.store.table :=
    coherent_put "a" "old" ⟨"old", true, some "a"⟩ [] rfl rfl coherent_empty
  have lasting : Lasting w.store.rules := by
    intro rule member
    obtain rfl := List.mem_singleton.mp member
    rfl
  have ended : ((recomputeCompany Settings.default (some "acme") [b, c, a]).run
      (World.respond (Memory.answering (.ok [one], [])) 0) w).1 =
        .ok ⟨some "acme", [⟨"b", Diff.empty, false, some Fault.signallingOperand.message⟩,
          ⟨"c", ⟨["one"], []⟩, false, some "down"⟩, ⟨"a", ⟨["one"], ["old"]⟩, true, none⟩]⟩ := by
    dsimp only [one, a, b, c, w]
    rfl
  obtain ⟨report, _, lastReport, ⟨result, _, lastResult⟩, named, _, _, _, _, _, _, _, noneAdded,
    noneRemoved, unmoved⟩ := recompute_any_order Settings.default [one] (some "acme") [] [b, c, a]
      [a, c, b] (List.reverse_perm [b, c, a]) clients rfl (by decide) w coherent lasting
  obtain rfl := Except.ok.inj (ended.symm.trans result)
  dsimp only at lastResult unmoved
  exact ⟨_, lastReport, ended, lastResult, named, rfl, rfl, rfl, noneAdded, noneRemoved, unmoved⟩

end TagRules.Service
