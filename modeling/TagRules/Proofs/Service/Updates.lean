import TagRules.Proofs.Assignment.Reconcile
import TagRules.Proofs.Service.Jobs

set_option autoImplicit false

namespace TagRules.Service

open AssignmentTable Reconcile

variable {σ : Type}

theorem emit_notes_store (c : Collaborators σ) (task : Nat) (notes : List Note) (w : World σ) :
    ((emitNotes notes).run (World.respond c task) w).2.store = w.store :=
  (World.run_aside c task (emit_notes_asks (fun _ => rfl) notes) w).1

theorem count_run_store (c : Collaborators σ) (task : Nat) (settings : Settings) (trigger : String)
    (added removed : Nat) (w : World σ) :
    ((countRun settings trigger added removed).run (World.respond c task) w).2.store = w.store := by
  unfold countRun
  split <;> rfl

theorem count_error_store (c : Collaborators σ) (task : Nat) (settings : Settings) (kind : String)
    (w : World σ) :
    ((countError settings kind).run (World.respond c task) w).2.store = w.store := by
  unfold countError
  split <;> rfl

inductive UpdateOf (c : Collaborators σ) (job : Job) (s : σ) : Diff × Option Fault → σ → Prop
  | unlisted (e : Fault) (failed : (c.listLinks job.client s).1 = .error e) :
      UpdateOf c job s (Diff.empty, some e) (c.listLinks job.client s).2.2
  | unevaluated (current : List Assignment) (e : Fault)
      (listed : (c.listLinks job.client s).1 = .ok current)
      (failed : (Reconcile.client job.record job.tags current).result = .error e) :
      UpdateOf c job s (Diff.empty, some e) (c.listLinks job.client s).2.2
  | idle (current : List Assignment) (diff : Diff)
      (listed : (c.listLinks job.client s).1 = .ok current)
      (found : (Reconcile.client job.record job.tags current).result = .ok diff)
      (nothing : diff.isEmpty = true) :
      UpdateOf c job s (diff, none) (c.listLinks job.client s).2.2
  | refused (current : List Assignment) (diff : Diff) (e : Fault)
      (listed : (c.listLinks job.client s).1 = .ok current)
      (found : (Reconcile.client job.record job.tags current).result = .ok diff)
      (something : ¬ diff.isEmpty = true)
      (failed : (c.applyDiff job.client diff (c.listLinks job.client s).2.2).1 = .error e) :
      UpdateOf c job s (diff, some e) (c.applyDiff job.client diff (c.listLinks job.client s).2.2).2.2
  | written (current : List Assignment) (diff : Diff)
      (listed : (c.listLinks job.client s).1 = .ok current)
      (found : (Reconcile.client job.record job.tags current).result = .ok diff)
      (something : ¬ diff.isEmpty = true)
      (done : (c.applyDiff job.client diff (c.listLinks job.client s).2.2).1 = .ok ()) :
      UpdateOf c job s (diff, none) (c.applyDiff job.client diff (c.listLinks job.client s).2.2).2.2

theorem update_links_cases (c : Collaborators σ) (task : Nat) (job : Job) (w : World σ) :
    let ran := (updateLinks job).run (World.respond c task) w
    UpdateOf c job w.store ran.1 ran.2.store := by
  intro ran
  have listedStore : (World.respond c task (.listLinks job.client) w).2.store =
      (c.listLinks job.client w.store).2.2 := World.call_store _ w
  unfold ran updateLinks
  rw [Program.run_then, Program.run_request]
  cases listed : (World.respond c task (.listLinks job.client) w).1 with
  | error e =>
    rw [Program.run_pure, listedStore]
    exact .unlisted e listed
  | ok current =>
    dsimp only
    have noted := emit_notes_store c task (Reconcile.client job.record job.tags current).notes
      (World.respond c task (.listLinks job.client) w).2
    rw [listedStore] at noted
    rw [Program.run_then]
    generalize ((emitNotes _).run _ _).2 = v at noted ⊢
    cases found : (Reconcile.client job.record job.tags current).result with
    | error e =>
      rw [Program.run_pure, noted]
      exact .unevaluated current e listed found
    | ok diff =>
      dsimp only
      by_cases nothing : diff.isEmpty = true
      · rw [if_pos nothing, Program.run_pure, noted]
        exact .idle current diff listed found nothing
      · rw [if_neg nothing, Program.run_then, Program.run_request]
        have writtenStore : (World.respond c task (.applyDiff job.client diff) v).2.store =
            (c.applyDiff job.client diff v.store).2.2 := World.call_store _ v
        rw [noted] at writtenStore
        cases written : (World.respond c task (.applyDiff job.client diff) v).1 with
        | error e =>
          rw [Program.run_pure, writtenStore]
          exact .refused current diff e listed found nothing (noted ▸ written)
        | ok _ =>
          rw [Program.run_pure, writtenStore]
          exact .written current diff listed found nothing (noted ▸ written)

def outcomeOf (client : String) (updated : Diff × Option Fault) : Outcome :=
  ⟨client, updated.1, updated.2.isNone, updated.2.map Fault.message⟩

theorem conclude_reports (c : Collaborators σ) (task : Nat) (settings : Settings)
    (trigger client : String) (diff : Diff) (said : Option (String × String)) (w : World σ) :
    let ran := (conclude settings trigger client diff said).run (World.respond c task) w
    ran.1 = ⟨client, diff, said.isNone, said.map Prod.fst⟩ ∧ ran.2.store = w.store := by
  intro ran
  unfold ran conclude
  cases said with
  | some said =>
    simp only [Program.run_then, Program.run_pure, count_error_store]
    exact ⟨rfl, rfl⟩
  | none =>
    dsimp only
    constructor <;> split <;> simp only [Program.run_then, Program.run_pure, count_run_store] <;> rfl

theorem reconcile_saved_cases (c : Collaborators σ) (task : Nat) (texts : Texts) (settings : Settings)
    (trigger : String) (job : Job) (w : World σ) :
    let ran := (reconcileSaved texts settings trigger job).run (World.respond c task) w
    ∃ updated, UpdateOf c job w.store updated ran.2.store ∧
      ran.1 = (texts.ofFailure updated.2).map fun said =>
        ⟨job.client, updated.1, said.isNone, said.map Prod.fst⟩ := by
  intro ran
  have cases := update_links_cases c task job (World.respond c task (.enter job.client) w).2
  unfold ran reconcileSaved
  rw [Program.run_then, Program.run_request, Program.run_then]
  generalize (updateLinks job).run _ _ = updated at cases ⊢
  obtain ⟨updated, v⟩ := updated
  refine ⟨updated, ?_⟩
  dsimp only at cases ⊢
  rw [Program.run_then, Program.run_request]
  cases texts.ofFailure updated.2 with
  | error raised => exact ⟨cases, rfl⟩
  | ok said =>
    obtain ⟨outcome, store⟩ := conclude_reports c task settings trigger job.client updated.1 said
      (World.respond c task (.leave job.client) v).2
    dsimp only
    rw [Program.run_then, Program.run_pure, outcome, store]
    exact ⟨cases, rfl⟩

theorem reconcile_client_cases (c : Collaborators σ) (task : Nat) (settings : Settings)
    (trigger : String) (job : Job) (w : World σ) :
    let ran := (reconcileClient settings trigger job).run (World.respond c task) w
    ∃ updated, UpdateOf c job w.store updated ran.2.store ∧ ran.1 = outcomeOf job.client updated := by
  intro ran
  obtain ⟨updated, update, answer⟩ :=
    reconcile_saved_cases c task Texts.spoken settings trigger job w
  rw [reconcile_saved_spoken, Program.run_then, Program.run_pure, Texts.spoken_of_failure] at answer
  rw [reconcile_saved_spoken, Program.run_then, Program.run_pure] at update
  refine ⟨updated, update, (Except.ok.inj answer).trans ?_⟩
  simp only [outcomeOf, Option.isNone_map, Option.map_map, Function.comp_def]

end TagRules.Service

namespace TagRules.Memory

open AssignmentTable

variable {α : Type}

def Spared (rules : List FailureRule) (target : Target) (who : Option String) : Prop :=
  FailureRule.take target who rules = none

theorem guarded_spared (target : Target) (who : Option String) (call : Memory → Answered Memory α)
    (m : Memory) (spared : Spared m.rules target who) : guarded target who call m = call m := by
  rw [Spared] at spared
  simp only [guarded, spared]

theorem guarded_ok (target : Target) (who : Option String) (call : Memory → Answered Memory α)
    (m : Memory) (a : α) (ok : (guarded target who call m).1 = .ok a) :
    Spared m.rules target who := by
  cases taken : FailureRule.take target who m.rules with
  | none => exact taken
  | some found =>
    simp only [guarded, taken] at ok
    split at ok
    · split at ok <;> cases ok
    · cases ok

structure InMemory (c : Collaborators Memory) : Prop where
  listed : c.listLinks = collaborators.listLinks
  changed : c.applyDiff = collaborators.applyDiff

theorem answering_in_memory (loading : Loading) : InMemory (answering loading) := ⟨rfl, rfl⟩

theorem collaborators_in_memory : InMemory collaborators := ⟨rfl, rfl⟩

theorem InMemory.list_links {c : Collaborators Memory} (inMemory : InMemory c) (client : String)
    (m : Memory) : c.listLinks client m =
      guarded .listLinks (some client) (fun m => (.ok (ofClient client m.table), [], m)) m := by
  rw [inMemory.listed]
  rfl

theorem InMemory.apply_diff {c : Collaborators Memory} (inMemory : InMemory c) (client : String)
    (diff : Diff) (m : Memory) : c.applyDiff client diff m =
      guarded .applyDiff (some client) (applyDiff client diff) m := by
  rw [inMemory.changed]
  rfl

variable {c : Collaborators Memory}

theorem list_links_spared (inMemory : InMemory c) (client : String) (m : Memory)
    (spared : Spared m.rules .listLinks (some client)) :
    c.listLinks client m = (.ok (ofClient client m.table), [], m) :=
  (inMemory.list_links client m).trans (guarded_spared .listLinks (some client) _ m spared)

theorem links_listed (inMemory : InMemory c) (client : String) (m : Memory)
    (current : List Assignment) (listed : (c.listLinks client m).1 = .ok current) :
    current = ofClient client m.table ∧ Spared m.rules .listLinks (some client) ∧
      (c.listLinks client m).2.2 = m := by
  have spared : Spared m.rules .listLinks (some client) := by
    rw [inMemory.list_links] at listed
    exact guarded_ok .listLinks (some client) _ m current listed
  have plain := list_links_spared inMemory client m spared
  rw [plain] at listed ⊢
  exact ⟨(Except.ok.inj listed).symm, spared, rfl⟩

theorem apply_diff_cases (client : String) (diff : Diff) (m : Memory) :
    client = "" ∧ applyDiff client diff m = (.error (.clientRequired diff), [], m) ∨
      client ≠ "" ∧ applyDiff client diff m = (.ok (), [appliedEvent client diff],
        { m with table := m.table.applyDiff client diff }) := by
  by_cases nameless : client = ""
  · exact .inl ⟨nameless, by simp [applyDiff, nameless]⟩
  · exact .inr ⟨nameless, by simp [applyDiff, nameless]⟩

theorem write_ok_iff (inMemory : InMemory c) (client : String) (diff : Diff) (m : Memory) :
    (c.applyDiff client diff m).1 = .ok () ↔
      client ≠ "" ∧ Spared m.rules .applyDiff (some client) := by
  rw [inMemory.apply_diff]
  constructor
  · intro ok
    have spared := guarded_ok .applyDiff (some client) (applyDiff client diff) m () ok
    rw [guarded_spared .applyDiff (some client) _ m spared] at ok
    rcases apply_diff_cases client diff m with ⟨_, nameless⟩ | ⟨named, _⟩
    · rw [nameless] at ok
      cases ok
    · exact ⟨named, spared⟩
  · rintro ⟨named, spared⟩
    rw [guarded_spared .applyDiff (some client) _ m spared]
    rcases apply_diff_cases client diff m with ⟨nameless, _⟩ | ⟨_, applied⟩
    · exact absurd nameless named
    · rw [applied]

theorem write_lasting (inMemory : InMemory c) (client : String) (diff : Diff) (m : Memory)
    (lasting : Lasting m.rules) :
    let wrote := c.applyDiff client diff m
    (∃ e, wrote.1 = .error e) ∧ wrote.2.2 = m ∨
      wrote.2.2 = { m with table := m.table.applyDiff client diff } := by
  dsimp only
  rw [inMemory.apply_diff]
  rcases guarded_lasting .applyDiff (some client) (applyDiff client diff) m lasting with
    made | ⟨failed, unmade | made⟩
  · rw [made]
    rcases apply_diff_cases client diff m with ⟨_, nameless⟩ | ⟨_, applied⟩
    · rw [nameless]
      exact .inl ⟨⟨_, rfl⟩, rfl⟩
    · rw [applied]
      exact .inr rfl
  · exact .inl ⟨failed, unmade⟩
  · rw [made]
    rcases apply_diff_cases client diff m with ⟨_, nameless⟩ | ⟨_, applied⟩
    · rw [nameless]
      exact .inl ⟨failed, rfl⟩
    · rw [applied]
      exact .inr rfl

end TagRules.Memory

namespace TagRules.Service

open AssignmentTable Reconcile Memory

theorem client_found_iff (record : Value) (tags : List Tag) (current : List Assignment) (diff : Diff) :
    (Reconcile.client record tags current).result = .ok diff ↔
      ∃ desired, (matching record tags).result = .ok desired ∧ diffOf desired current = diff := by
  cases found : (matching record tags).result <;> simp [Reconcile.client, found, Except.map]

theorem client_failed_iff (record : Value) (tags : List Tag) (current : List Assignment) (e : Fault) :
    (Reconcile.client record tags current).result = .error e ↔
      (matching record tags).result = .error e := by
  cases found : (matching record tags).result <;> simp [Reconcile.client, found, Except.map]

variable {c : Collaborators Memory}

theorem update_succeeded (inMemory : InMemory c) {job : Job} {m last : Memory}
    {updated : Diff × Option Fault} (update : UpdateOf c job m updated last)
    (succeeded : updated.2 = none) :
    ∃ desired, (matching job.record job.tags).result = .ok desired ∧
      updated.1 = diffOf desired (ofClient job.client m.table) ∧
      last = { m with table := settled job.client desired m.table } := by
  cases update with
  | unlisted e failed => cases succeeded
  | unevaluated current e listed failed => cases succeeded
  | refused current diff e listed found something failed => cases succeeded
  | idle current diff listed found nothing =>
    obtain ⟨rfl, _, kept⟩ := links_listed inMemory job.client m current listed
    obtain ⟨desired, matched, rfl⟩ := (client_found_iff _ _ _ _).mp found
    refine ⟨desired, matched, rfl, ?_⟩
    rw [kept, settled, apply_empty_diff _ _ _ nothing]
  | written current diff listed found something done =>
    obtain ⟨rfl, _, kept⟩ := links_listed inMemory job.client m current listed
    obtain ⟨desired, matched, rfl⟩ := (client_found_iff _ _ _ _).mp found
    rw [kept] at done ⊢
    obtain ⟨named, spared⟩ := (write_ok_iff inMemory job.client _ m).mp done
    refine ⟨desired, matched, rfl, ?_⟩
    rw [inMemory.apply_diff, guarded_spared .applyDiff (some job.client) _ m spared]
    rcases apply_diff_cases job.client (diffOf desired (ofClient job.client m.table)) m with
      ⟨nameless, _⟩ | ⟨_, applied⟩
    · exact absurd nameless named
    · rw [applied, settled]

theorem update_lasting (inMemory : InMemory c) {job : Job} {m last : Memory}
    {updated : Diff × Option Fault} (update : UpdateOf c job m updated last)
    (lasting : Lasting m.rules) :
    (last = m ∧ (updated.2 = none → updated.1.isEmpty = true)) ∨
      ∃ desired, (matching job.record job.tags).result = .ok desired ∧
        Spared m.rules .listLinks (some job.client) ∧
        last = { m with table := settled job.client desired m.table } := by
  cases update with
  | unlisted e failed =>
    refine .inl ⟨?_, nofun⟩
    rw [inMemory.list_links]
    rcases guarded_lasting .listLinks (some job.client)
      (fun m => (.ok (ofClient job.client m.table), [], m)) m lasting with made | ⟨_, kept | kept⟩
    · rw [made]
    · exact kept
    · exact kept
  | unevaluated current e listed failed =>
    exact .inl ⟨(links_listed inMemory job.client m current listed).2.2, nofun⟩
  | idle current diff listed found nothing =>
    exact .inl ⟨(links_listed inMemory job.client m current listed).2.2, fun _ => nothing⟩
  | refused current diff e listed found something failed =>
    obtain ⟨rfl, spared, kept⟩ := links_listed inMemory job.client m current listed
    obtain ⟨desired, matched, rfl⟩ := (client_found_iff _ _ _ _).mp found
    rw [kept]
    rcases write_lasting inMemory job.client _ m lasting with ⟨_, unwritten⟩ | written
    · exact .inl ⟨unwritten, nofun⟩
    · exact .inr ⟨desired, matched, spared, written⟩
  | written current diff listed found something done =>
    obtain ⟨rfl, spared, kept⟩ := links_listed inMemory job.client m current listed
    obtain ⟨desired, matched, rfl⟩ := (client_found_iff _ _ _ _).mp found
    rw [kept] at done ⊢
    rcases write_lasting inMemory job.client _ m lasting with ⟨⟨e, failed⟩, _⟩ | written
    · cases failed.symm.trans done
    · exact .inr ⟨desired, matched, spared, written⟩

theorem update_settled (inMemory : InMemory c) {job : Job} {m last : Memory}
    {updated : Diff × Option Fault} (update : UpdateOf c job m updated last)
    (spared : Spared m.rules .listLinks (some job.client)) (desired : List String)
    (matched : (matching job.record job.tags).result = .ok desired)
    (nothing : diffOf desired (ofClient job.client m.table) = Diff.empty) :
    updated.1 = Diff.empty ∧ last = m := by
  have plain := list_links_spared inMemory job.client m spared
  have settledDiff : ∀ current diff, (c.listLinks job.client m).1 = .ok current →
      (Reconcile.client job.record job.tags current).result = .ok diff → diff = Diff.empty := by
    intro current diff listed found
    obtain ⟨ids, alsoMatched, rfl⟩ := (client_found_iff _ _ _ _).mp found
    obtain rfl := Except.ok.inj (alsoMatched.symm.trans matched)
    obtain rfl := (links_listed inMemory job.client m current listed).1
    exact nothing
  cases update with
  | unlisted e failed => rw [plain] at failed; cases failed
  | unevaluated current e listed failed =>
    cases ((client_failed_iff _ _ _ _).mp failed).symm.trans matched
  | idle current diff listed found _ =>
    exact ⟨settledDiff current diff listed found, (links_listed inMemory _ m current listed).2.2⟩
  | refused current diff e listed found something failed =>
    exact absurd (by rw [settledDiff current diff listed found]; rfl) something
  | written current diff listed found something done =>
    exact absurd (by rw [settledDiff current diff listed found]; rfl) something

theorem update_error_iff (inMemory : InMemory c) {job : Job} {m last : Memory}
    {updated : Diff × Option Fault} (update : UpdateOf c job m updated last) :
    updated.2 = none ↔ Spared m.rules .listLinks (some job.client) ∧
      (∃ desired, (matching job.record job.tags).result = .ok desired) ∧
      (updated.1.isEmpty = true ∨ job.client ≠ "" ∧ Spared m.rules .applyDiff (some job.client)) := by
  cases update with
  | unlisted e failed =>
    refine iff_of_false nofun fun ⟨spared, _⟩ => ?_
    rw [list_links_spared inMemory job.client m spared] at failed
    cases failed
  | unevaluated current e listed failed =>
    refine iff_of_false nofun fun ⟨_, ⟨desired, matched⟩, _⟩ => ?_
    cases ((client_failed_iff _ _ _ _).mp failed).symm.trans matched
  | idle current diff listed found nothing =>
    obtain ⟨rfl, spared, _⟩ := links_listed inMemory job.client m current listed
    obtain ⟨desired, matched, rfl⟩ := (client_found_iff _ _ _ _).mp found
    exact iff_of_true rfl ⟨spared, ⟨desired, matched⟩, .inl nothing⟩
  | refused current diff e listed found something failed =>
    refine iff_of_false nofun fun ⟨_, _, writable⟩ => ?_
    obtain ⟨rfl, _, kept⟩ := links_listed inMemory job.client m current listed
    rw [kept] at failed
    have ok := (write_ok_iff inMemory job.client diff m).mpr (writable.resolve_left something)
    cases failed.symm.trans ok
  | written current diff listed found something done =>
    obtain ⟨rfl, spared, kept⟩ := links_listed inMemory job.client m current listed
    obtain ⟨desired, matched, _⟩ := (client_found_iff _ _ _ _).mp found
    rw [kept] at done
    exact iff_of_true rfl
      ⟨spared, ⟨desired, matched⟩, .inr ((write_ok_iff inMemory job.client diff m).mp done)⟩

theorem update_unmoved (inMemory : InMemory c) {job : Job} {m last : Memory}
    {updated : Diff × Option Fault} (update : UpdateOf c job m updated last) (lasting : Lasting m.rules)
    (coherent : Coherent m.table) (same : SameFor job.client last m) : last = m := by
  rcases update_lasting inMemory update lasting with ⟨kept, _⟩ | ⟨desired, _, _, changed⟩
  · exact kept
  · have sameLinks := same.links
    rw [changed] at sameLinks ⊢
    rw [settled_unmoved desired m.table coherent job.client sameLinks]

variable (loading : Memory.Loading)

theorem reconcile_client_error_iff (task : Nat) (settings : Settings) (trigger : String) (job : Job)
    (w : World Memory) :
    let outcome := ((reconcileClient settings trigger job).run
      (World.respond (answering loading) task) w).1
    outcome.error = none ↔ Spared w.store.rules .listLinks (some job.client) ∧
      (∃ desired, (matching job.record job.tags).result = .ok desired) ∧
      (outcome.diff.isEmpty = true ∨
        job.client ≠ "" ∧ Spared w.store.rules .applyDiff (some job.client)) := by
  intro outcome
  obtain ⟨updated, update, result⟩ :=
    reconcile_client_cases (answering loading) task settings trigger job w
  have failure : outcome.error = updated.2.map Fault.message := congrArg Outcome.error result
  have diff : outcome.diff = updated.1 := congrArg Outcome.diff result
  rw [failure, diff, Option.map_eq_none_iff]
  exact update_error_iff (answering_in_memory loading) update

theorem reconcile_client_again (task : Nat) (settings : Settings) (trigger : String) (job : Job)
    (w v : World Memory) (coherent : Coherent w.store.table) (lasting : Lasting w.store.rules)
    (coherentNow : Coherent v.store.table) :
    let run := fun v =>
      (reconcileClient settings trigger job).run (World.respond (answering loading) task) v
    SameFor job.client v.store (run w).2.store →
      ((run v).1.error = none → (run v).1.diff.isEmpty = true) ∧ (run v).2.store = v.store := by
  intro run same
  obtain ⟨updated, update, result⟩ :=
    reconcile_client_cases (answering loading) task settings trigger job w
  obtain ⟨repeated, again, againResult⟩ :=
    reconcile_client_cases (answering loading) task settings trigger job v
  rcases update_lasting (answering_in_memory loading) update lasting with
    ⟨unchanged, idle⟩ | ⟨desired, matched, spared, changed⟩
  · rw [show (run w).2.store = w.store from unchanged] at same
    obtain ⟨sameResult, sameStore⟩ :=
      run_same loading task (reconcile_client_asks settings trigger job) v w same
    constructor
    · rw [show (run v).1 = _ from sameResult.trans result]
      simpa [outcomeOf] using idle
    · rw [unchanged] at sameStore
      exact update_unmoved (answering_in_memory loading) again (same.rules ▸ lasting) coherentNow
        (sameStore.trans same.symm)
  · rw [show (run w).2.store = _ from changed] at same
    have nothing : diffOf desired (ofClient job.client v.store.table) = Diff.empty := by
      change diffOf desired (Dictionary.values (linksOf job.client v.store.table)) = _
      rw [same.links]
      exact diff_settled desired w.store.table coherent job.client
    obtain ⟨noDiff, kept⟩ :=
      update_settled (answering_in_memory loading) again (same.rules ▸ spared) desired matched nothing
    refine ⟨fun _ => ?_, kept⟩
    rw [show (run v).1 = _ from againResult, outcomeOf, noDiff]
    rfl

end TagRules.Service
