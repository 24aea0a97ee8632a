import TagRules.Proofs.Concurrent.Orderly
import TagRules.Proofs.Concurrent.Schedule

/-!
Client locks are entered in rising order, so a holder of the highest awaited lock waits for no client
lock.
-/

set_option autoImplicit false

namespace TagRules

theorem exists_highest (names : List String) (nonempty : names ≠ []) :
    ∃ top ∈ names, ∀ name ∈ names, ¬ top < name := by
  induction names with
  | nil => exact absurd rfl nonempty
  | cons first rest ih =>
    by_cases last : rest = []
    · refine ⟨first, List.mem_cons_self, fun name listed => ?_⟩
      rw [last, List.mem_singleton] at listed
      exact listed ▸ String.lt_irrefl first
    · obtain ⟨top, member, highest⟩ := ih last
      by_cases above : top < first
      · refine ⟨first, List.mem_cons_self, fun name listed higher => ?_⟩
        rcases List.mem_cons.mp listed with rfl | later
        · exact String.lt_irrefl _ higher
        · exact highest name later (String.lt_trans above higher)
      · refine ⟨top, List.mem_cons_of_mem _ member, fun name listed => ?_⟩
        rcases List.mem_cons.mp listed with rfl | later
        · exact above
        · exact highest name later

inductive Resource
  | lock (client : String)
  | store
  | permit (owner : Nat)

namespace Crew

variable {σ : Type}

def Holds (s : Crew σ) (i : Nat) : Resource → Prop
  | .lock client => s.world.locks.isHolder client i = true
  | .store => s.writer = some i
  | .permit owner => ∃ w, s.workers[i]? = some w ∧ w.doing.holdsPermit owner = true

-- A worker can go on only once the resource is free: it has signed up for a lock that another one
-- holds, is about to write while another one holds the lock of the store, or is a job while all the
-- permits of its kind are held.
def Blocked (s : Crew σ) (i : Nat) : Resource → Prop
  | .lock client => s.awaits i = some client ∧ s.world.locks.isHolder client i = false
  | .store => ∃ w r, s.workers[i]? = some w ∧ w.doing.request? = some r ∧ r.isWrite = true ∧
      ∃ k, s.writer = some k ∧ k ≠ i
  | .permit owner => ∃ w limit job, s.workers[i]? = some w ∧ w.doing = .job owner limit false job ∧
      limit ≤ s.permitsHeld owner

section

variable {s : Crew σ} {least : Nat} (orderly : s.Orderly least)

include orderly

theorem Orderly.awaiting {i : Nat} {client : String} (waits : s.awaits i = some client) :
    ∃ w, s.workers[i]? = some w ∧ w.doing.request? = some (.enter client) := by
  cases here : s.workers[i]? with
  | none => simp [awaits, here] at waits
  | some w =>
    rw [(stance_of here).2] at waits
    exact ⟨w, rfl, orderly.asking w (List.mem_of_getElem? here) client waits⟩

theorem Orderly.writer_goes_on (i : Nat) (isWriter : s.writer = some i) (resource : Resource) :
    ¬ s.Blocked i resource := by
  obtain ⟨w, r, here, asks, writes⟩ := orderly.writing i isWriter
  cases resource with
  | lock client =>
    rintro ⟨waits, _⟩
    obtain ⟨other, found, enters⟩ := orderly.awaiting waits
    obtain rfl := Option.some.inj (here.symm.trans found)
    obtain rfl := Option.some.inj (asks.symm.trans enters)
    cases writes
  | store =>
    rintro ⟨_, _, _, _, _, k, otherWriter, different⟩
    exact different (Option.some.inj (otherWriter.symm.trans isWriter))
  | permit owner =>
    rintro ⟨other, limit, job, found, waits, _⟩
    obtain rfl := Option.some.inj (here.symm.trans found)
    simp [waits, Doing.request?] at asks

theorem Orderly.awaiting_blocked (client : String) (i : Nat) (waits : s.awaits i = some client)
    (resource : Resource) (blocked : s.Blocked i resource) : resource = .lock client := by
  obtain ⟨w, here, asks⟩ := orderly.awaiting waits
  cases resource with
  | lock other => rw [Option.some.inj (blocked.1.symm.trans waits)]
  | store =>
    obtain ⟨other, r, found, asked, writes, _⟩ := blocked
    obtain rfl := Option.some.inj (here.symm.trans found)
    obtain rfl := Option.some.inj (asks.symm.trans asked)
    cases writes
  | permit owner =>
    obtain ⟨other, limit, job, found, hasJob, _⟩ := blocked
    obtain rfl := Option.some.inj (here.symm.trans found)
    simp [hasJob, Doing.request?] at asks

theorem Orderly.holder_blocked (client : String) (k : Nat)
    (holds : s.world.locks.isHolder client k = true) (resource : Resource)
    (blocked : s.Blocked k resource) :
    resource = .store ∨ ∃ higher, resource = .lock higher ∧ client < higher := by
  have first := (orderly.placed.built.holder_iff client k).mp holds
  have queued : client ∈ s.inside k ∨ s.awaits k = some client :=
    (orderly.placed.queued client k).mp (List.mem_of_head? first)
  cases resource with
  | store => exact .inl rfl
  | lock other =>
    obtain ⟨waits, notHolder⟩ := blocked
    have inside : client ∈ s.inside k := by
      rcases queued with inside | waitsHere
      · exact inside
      · obtain rfl := Option.some.inj (waits.symm.trans waitsHere)
        rw [holds] at notHolder
        cases notHolder
    obtain ⟨w, here, asks⟩ := orderly.awaiting waits
    obtain ⟨next, enters⟩ := Doing.asks_of_request asks
    obtain ⟨allowed, _⟩ := enters.guarded (orderly.guarded w (List.mem_of_getElem? here))
    rw [(stance_of here).1] at inside
    exact .inr ⟨other, rfl, allowed client inside⟩
  | permit owner =>
    rcases queued with inside | waits
    · obtain ⟨w, limit, job, here, hasJob, _⟩ := blocked
      have guarded := orderly.guarded w (List.mem_of_getElem? here)
      rw [hasJob] at guarded
      rw [(stance_of here).1, guarded.2.2 rfl] at inside
      cases inside
    · cases orderly.awaiting_blocked client k waits _ blocked

end

theorem no_deadlock (scene : Scene σ) (enough : 1 ≤ scene.settings.recomputeConcurrency)
    (w : World σ) (s : Crew σ) (reached : Reaches scene w s) (stuck : Nat → Prop)
    (someone : ∃ i, stuck i) :
    ¬ ∀ i, stuck i → ∃ resource, s.Blocked i resource ∧ ∀ k, s.Holds k resource → stuck k := by
  have orderly : s.Orderly 1 := reached.orderly (by omega)
  intro blocked
  have storeFree : ∀ i, s.Blocked i .store → (∀ k, s.Holds k .store → stuck k) → False := by
    rintro i ⟨_, _, _, _, _, k, isWriter, _⟩ holders
    obtain ⟨resource, isBlocked, _⟩ := blocked k (holders k isWriter)
    exact orderly.writer_goes_on k isWriter resource isBlocked
  have locksFree : ∀ i client, stuck i → s.awaits i = some client → False := by
    classical
    intro i client isStuck waits
    have listed : ∀ j name, stuck j → s.awaits j = some name →
        name ∈ ((List.range s.workers.length).filter fun j => decide (stuck j)).filterMap s.awaits := by
      intro j name isStuck waits
      obtain ⟨other, found, _⟩ := orderly.awaiting waits
      have bound := (List.getElem?_eq_some_iff.mp found).1
      exact List.mem_filterMap.mpr ⟨j, by simp [bound, isStuck], waits⟩
    obtain ⟨top, isTop, highest⟩ := exists_highest _ (List.ne_nil_of_mem (listed i client isStuck waits))
    obtain ⟨j, member, waitsTop⟩ := List.mem_filterMap.mp isTop
    have jStuck : stuck j := by simpa using (List.mem_filter.mp member).2
    -- The lock has a holder, who is stuck too.
    obtain ⟨resource, jBlocked, holders⟩ := blocked j jStuck
    obtain rfl := orderly.awaiting_blocked top j waitsTop resource jBlocked
    obtain ⟨k, first⟩ := Option.isSome_iff_exists.mp (List.isSome_head?.mpr
      (List.ne_nil_of_mem ((orderly.placed.queued top j).mpr (.inr waitsTop))))
    have holds := (orderly.placed.built.holder_iff top k).mpr first
    obtain ⟨other, kBlocked, kHolders⟩ := blocked k (holders k holds)
    rcases orderly.holder_blocked top k holds other kBlocked with rfl | ⟨higher, rfl, above⟩
    · exact storeFree k kBlocked kHolders
    · exact highest higher (listed k higher (holders k holds) kBlocked.1) above
  obtain ⟨i, isStuck⟩ := someone
  obtain ⟨resource, isBlocked, holders⟩ := blocked i isStuck
  cases resource with
  | lock client => exact locksFree i client isStuck isBlocked.1
  | store => exact storeFree i isBlocked holders
  | permit owner =>
    obtain ⟨w, limit, job, here, waits, full⟩ := isBlocked
    have atLeast : 1 ≤ limit := by
      have guarded := orderly.guarded w (List.mem_of_getElem? here)
      rw [waits] at guarded
      exact guarded.1
    -- Some job has a permit; it is stuck, but not for want of one.
    obtain ⟨other, member, hasPermit⟩ := List.countP_pos_iff.mp (show 0 < s.permitsHeld owner by omega)
    obtain ⟨k, there⟩ := List.mem_iff_getElem?.mp member
    have kStuck := holders k ⟨other, there, hasPermit⟩
    obtain ⟨resource, kBlocked, kHolders⟩ := blocked k kStuck
    cases resource with
    | lock client => exact locksFree k client kStuck kBlocked.1
    | store => exact storeFree k kBlocked kHolders
    | permit owner =>
      obtain ⟨same, limit, job, found, waits, _⟩ := kBlocked
      obtain rfl := Option.some.inj (there.symm.trans found)
      simp [waits, Doing.holdsPermit] at hasPermit

theorem second_save_waits :
    let scene := Scene.inMemory Settings.default fun _ _ => (.ok [], [])
    let w := World.initial Memory.empty
    ∃ s, Reaches scene w s ∧ s.Blocked 1 (.lock "c") ∧ s.Holds 0 (.lock "c") ∧
      ¬ ∀ i, i = 1 → ∃ resource, s.Blocked i resource ∧ ∀ k, s.Holds k resource → k = 1 := by
  intro scene w
  let save : Errand := .evaluate (.mapping [(.text "id", .text "c")]) none "client_saved"
  let moves : List Move :=
    [.begin save, .begin save, .turn 0, .turn 0, .turn 0, .turn 0, .turn 1, .turn 1, .turn 1]
  obtain ⟨s, reached, waits, notHolder, holder⟩ := play_shows scene w moves
    (fun s => s.awaits 1 = some "c" ∧ s.world.locks.isHolder "c" 1 = false ∧
      s.world.locks.isHolder "c" 0 = true) (by decide +kernel)
  exact ⟨s, reached, ⟨waits, notHolder⟩, holder,
    no_deadlock scene (by decide) w s reached (· = 1) ⟨1, rfl⟩⟩

end Crew

end TagRules
