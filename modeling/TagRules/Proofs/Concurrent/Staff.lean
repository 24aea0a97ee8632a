import Mathlib.Data.List.Nodup
import TagRules.Proofs.Concurrent.Board

set_option autoImplicit false

namespace TagRules

def begun {σ : Type} : List (Happening σ) → List (Nat × Errand)
  | [] => []
  | .began i errand :: rest => (i, errand) :: begun rest
  | _ :: rest => begun rest

theorem mem_begun_iff {σ : Type} (history : List (Happening σ)) (i : Nat) (errand : Errand) :
    (i, errand) ∈ begun history ↔ .began i errand ∈ history := by
  induction history with
  | nil => simp [begun]
  | cons last rest ih => cases last <;> simp [begun, ih]

namespace Standing

variable {source : Option String → Memory → Memory.Loading} {m : Memory} {k now : Standing}
  {r : Request}

theorem Move.tells {reported : List Request} (move : Move source m k r now)
    (tells : k.Tells reported) : now.Tells reported := by
  cases move with
  | quiet _ _ _ => exact tells
  | enter _ _ => exact tells
  | leave _ _ _ => exact tells
  | load company next begins => cases tells
  | read aim => cases tells
  | write aim table w due => cases due.symm.trans tells.1

theorem Move.awaiting {first count : Nat} (move : Move source m k r now)
    (waits : k = .awaiting first count) : now = .awaiting first count := by
  cases move with
  | quiet _ _ _ => exact waits
  | enter _ _ => exact waits
  | leave _ _ _ => exact waits
  | load company next begins => cases waits
  | read aim => cases waits
  | write aim table w due => cases waits

theorem Move.comes_to (move : Move source m k r now) :
    now = k ∨ now.Begins ∨ (∃ aim, now = .saw aim m.table) ∨
      ∃ aim table, now = .wrote aim table ∧ aim.due table = some r := by
  cases move with
  | quiet _ _ _ => exact .inl rfl
  | enter _ _ => exact .inl rfl
  | leave _ _ _ => exact .inl rfl
  | load company next begins => exact .inr (.inl begins)
  | read aim => exact .inr (.inr (.inl ⟨aim, rfl⟩))
  | write aim table w due => exact .inr (.inr (.inr ⟨aim, table, rfl, due⟩))

end Standing

namespace Board

def Over (k : Standing) : Prop := ∃ reported, k.Tells reported

structure Staffed (b : Board) : Prop where
  fresh : ∀ k, b.size ≤ k → b.stand k = .apart ∧ b.owner k = k
  began : ∀ i errand, .began i errand ∈ b.history → i < b.size ∧ b.owner i = i
  once : ((begun b.history).map Prod.fst).Nodup
  known : ∀ k, k < b.size → ∃ errand, .began (b.owner k) errand ∈ b.history
  jobs : ∀ k, b.owner k ≠ k → Over (b.stand k) ∨
    ∃ first count, b.stand (b.owner k) = .awaiting first count ∧ first ≤ k ∧ k < first + count
  ended : ∀ i result, .ended i result ∈ b.history → i < b.size ∧ b.owner i = i ∧ Over (b.stand i)

theorem staffed_initial (table : AssignmentTable) : (initial table).Staffed := by
  constructor <;> simp [initial, begun]

variable {source : Option String → Memory → Memory.Loading} {b next : Board}

theorem Staffed.comes_on (staffed : b.Staffed) {i : Nat} {now : Standing} (bound : i < b.size)
    (history : List (Happening Memory)) (calls : begun history = begun b.history)
    (ends : ∀ k result, .ended k result ∈ history →
      .ended k result ∈ b.history ∨ k = i ∧ b.owner i = i ∧ Over now)
    (stays : Over (b.stand i) → Over now)
    (waits : ∀ first count, b.stand i = .awaiting first count → now = .awaiting first count ∨
      ∀ k, first ≤ k → k < first + count → Over (b.stand k)) (table : AssignmentTable)
    (inside : Nat → List String) :
    Staffed ⟨table, history, b.size, Function.update b.stand i now, inside, b.owner⟩ := by
  have sameCalls : ∀ k errand, .began k errand ∈ history ↔ .began k errand ∈ b.history := by
    intro k errand
    rw [← mem_begun_iff, calls, mem_begun_iff]
  have stillOver : ∀ k, Over (b.stand k) → Over (Function.update b.stand i now k) := by
    intro k isOver
    by_cases own : k = i
    · subst own
      rw [Function.update_self]
      exact stays isOver
    · rw [Function.update_of_ne own]
      exact isOver
  constructor
  · intro k beyond
    have other : k ≠ i := by
      dsimp only at beyond
      omega
    dsimp only
    rw [Function.update_of_ne other]
    exact staffed.fresh k beyond
  · exact fun k errand happened => staffed.began k errand ((sameCalls k errand).mp happened)
  · exact calls ▸ staffed.once
  · intro k bound
    obtain ⟨errand, happened⟩ := staffed.known k bound
    exact ⟨errand, (sameCalls _ errand).mpr happened⟩
  · intro k isJob
    rcases staffed.jobs k isJob with isOver | ⟨first, count, awaits, least, most⟩
    · exact .inl (stillOver k isOver)
    · by_cases own : b.owner k = i
      · rcases waits first count (own ▸ awaits) with same | allOver
        · refine .inr ⟨first, count, ?_, least, most⟩
          dsimp only
          rw [own, Function.update_self, same]
        · exact .inl (stillOver k (allOver k least most))
      · refine .inr ⟨first, count, ?_, least, most⟩
        dsimp only
        rw [Function.update_of_ne own, awaits]
  · intro k result happened
    rcases ends k result happened with earlier | ⟨rfl, own, isOver⟩
    · obtain ⟨isBound, own, isOver⟩ := staffed.ended k result earlier
      exact ⟨isBound, own, stillOver k isOver⟩
    · refine ⟨bound, own, ?_⟩
      dsimp only
      rw [Function.update_self]
      exact isOver

theorem Staffed.begin (staffed : b.Staffed) (errand : Errand) : (b.withCall errand).Staffed := by
  have other : ∀ k, k < b.size → Function.update b.stand b.size errand.start k = b.stand k :=
    fun k bound => Function.update_of_ne (by omega) _ _
  unfold withCall
  constructor
  · intro k beyond
    dsimp only at beyond ⊢
    rw [Function.update_of_ne (by omega)]
    exact staffed.fresh k (by omega)
  · intro i call happened
    rcases List.mem_cons.mp happened with same | earlier
    · obtain ⟨rfl, rfl⟩ := Happening.began.inj same
      exact ⟨Nat.lt_succ_self _, (staffed.fresh _ (Nat.le_refl _)).2⟩
    · obtain ⟨bound, own⟩ := staffed.began i call earlier
      exact ⟨Nat.lt_succ_of_lt bound, own⟩
  · refine List.nodup_cons.mpr ⟨fun known => ?_, staffed.once⟩
    obtain ⟨⟨i, call⟩, listed, same⟩ := List.mem_map.mp known
    have bound := (staffed.began i call ((mem_begun_iff _ _ _).mp listed)).1
    dsimp only at same
    omega
  · intro k bound
    dsimp only at bound ⊢
    by_cases new : k = b.size
    · subst new
      rw [(staffed.fresh _ (Nat.le_refl _)).2]
      exact ⟨errand, List.mem_cons_self⟩
    · obtain ⟨call, happened⟩ := staffed.known k (by omega)
      exact ⟨call, List.mem_cons_of_mem _ happened⟩
  · intro k isJob
    have bound : k < b.size := Nat.lt_of_not_le fun beyond => isJob (staffed.fresh k beyond).2
    rcases staffed.jobs k isJob with isOver | ⟨first, count, awaits, least, most⟩
    · refine .inl ?_
      dsimp only
      rwa [other k bound]
    · refine .inr ⟨first, count, ?_, least, most⟩
      have ownerBound : b.owner k < b.size := by
        refine Nat.lt_of_not_le fun beyond => ?_
        cases awaits.symm.trans (staffed.fresh _ beyond).1
      dsimp only
      rw [other _ ownerBound, awaits]
  · intro i result happened
    rcases List.mem_cons.mp happened with same | earlier
    · cases same
    · obtain ⟨bound, own, isOver⟩ := staffed.ended i result earlier
      refine ⟨Nat.lt_succ_of_lt bound, own, ?_⟩
      dsimp only
      rwa [other i bound]

theorem Staffed.fork (staffed : b.Staffed) {i : Nat} {jobs : List Service.Job} (bound : i < b.size)
    (own : b.owner i = i) (calling : b.stand i = .calling jobs) :
    (b.withJobs i jobs).Staffed := by
  have oldStand : ∀ k, k < b.size → k ≠ i → putAll b.size (jobs.map fun job => .aiming (.one job))
      (Function.update b.stand i (.awaiting b.size jobs.length)) k = b.stand k :=
    fun k old other => by rw [put_all_old old, Function.update_of_ne other]
  have oldOwner : ∀ k, k < b.size → putAll b.size (jobs.map fun _ => i) b.owner k = b.owner k :=
    fun k old => put_all_old old _ _
  have newOwner : ∀ k, b.size ≤ k → k < b.size + jobs.length →
      putAll b.size (jobs.map fun _ => i) b.owner k = i := by
    intro k least most
    obtain ⟨j, rfl⟩ := Nat.exists_eq_add_of_le least
    rw [put_all_at _ _ (by rw [List.length_map]; omega), List.getElem_map]
  have notOver : ¬ Over (b.stand i) := by
    rw [calling]
    exact fun ⟨_, tells⟩ => tells
  unfold withJobs
  constructor
  · intro k beyond
    dsimp only at beyond ⊢
    rw [put_all_beyond _ _ (by simpa using beyond), put_all_beyond _ _ (by simpa using beyond),
      Function.update_of_ne (by omega)]
    exact staffed.fresh k (by omega)
  · intro k errand happened
    obtain ⟨old, same⟩ := staffed.began k errand happened
    dsimp only
    rw [oldOwner k old]
    exact ⟨by omega, same⟩
  · exact staffed.once
  · intro k isBound
    dsimp only at isBound ⊢
    by_cases old : k < b.size
    · rw [oldOwner k old]
      exact staffed.known k old
    · rw [newOwner k (by omega) isBound, ← own]
      exact staffed.known i bound
  · intro k isJob
    dsimp only at isJob ⊢
    by_cases old : k < b.size
    · rw [oldOwner k old] at isJob ⊢
      have other : k ≠ i := fun same => isJob (by rw [same, own])
      rcases staffed.jobs k isJob with isOver | ⟨first, count, awaits, least, most⟩
      · refine .inl ?_
        rwa [oldStand k old other]
      · refine .inr ⟨first, count, ?_, least, most⟩
        have ownerBound : b.owner k < b.size := by
          refine Nat.lt_of_not_le fun beyond => ?_
          cases awaits.symm.trans (staffed.fresh _ beyond).1
        have ownerOther : b.owner k ≠ i := by
          intro same
          cases (same ▸ awaits).symm.trans calling
        rw [oldStand _ ownerBound ownerOther, awaits]
    · by_cases isBound : k < b.size + jobs.length
      · refine .inr ⟨b.size, jobs.length, ?_, by omega, isBound⟩
        rw [newOwner k (by omega) isBound, put_all_old bound, Function.update_self]
      · rw [put_all_beyond _ _ (by simpa using isBound)] at isJob
        exact absurd (staffed.fresh k (by omega)).2 isJob
  · intro k result happened
    obtain ⟨old, same, isOver⟩ := staffed.ended k result happened
    have other : k ≠ i := fun clash => notOver (clash ▸ isOver)
    dsimp only
    rw [oldOwner k old, oldStand k old other]
    exact ⟨by omega, same, isOver⟩

theorem staffed_step (staffed : b.Staffed) (step : Step source b next) : next.Staffed := by
  cases step with
  | begin errand => exact staffed.begin errand
  | answer i r now m bound same move allowed free =>
    exact staffed.comes_on bound (.answered i r m :: b.history) rfl
      (fun k result happened => .inl ((List.mem_cons.mp happened).resolve_left (by simp)))
      (fun ⟨reported, tells⟩ => ⟨reported, move.tells tells⟩)
      (fun first count waits => .inl (move.awaiting waits)) _ _
  | fork i jobs bound own calling => exact staffed.fork bound own calling
  | join i first outcomes bound own waits told =>
    have isOver : Over (.gathered outcomes) := ⟨outcomes.flatMap Outcome.writes, rfl⟩
    refine staffed.comes_on bound b.history rfl (fun k result happened => .inl happened)
      (fun _ => isOver) (fun start count awaits => .inr fun k least most => ?_) _ _
    obtain ⟨rfl, rfl⟩ : first = start ∧ outcomes.length = count := by
      simpa using waits.symm.trans awaits
    obtain ⟨j, rfl⟩ := Nat.exists_eq_add_of_le least
    have inList : j < outcomes.length := by omega
    exact ⟨_, told j outcomes[j] (List.getElem?_eq_getElem inList)⟩
  | finish i result bound own tells =>
    have same : Function.update b.stand i (b.stand i) = b.stand := Function.update_eq_self i b.stand
    have kept := staffed.comes_on bound (.ended i result :: b.history) rfl
      (fun k other happened => (List.mem_cons.mp happened).symm.imp_right fun last =>
        ⟨(Happening.ended.inj last).1, own, _, tells⟩)
      (fun isOver => isOver) (fun first count awaits => .inl awaits) b.table b.inside
    rwa [same] at kept

theorem put_all_either {α : Type} (first k : Nat) (entries : List α) (f : Nat → α) :
    putAll first entries f k = f k ∨ putAll first entries f k ∈ entries := by
  by_cases within : first ≤ k ∧ k < first + entries.length
  · obtain ⟨j, rfl⟩ := Nat.exists_eq_add_of_le within.1
    have bound : j < entries.length := by omega
    rw [put_all_at entries f bound]
    exact .inr (List.getElem_mem bound)
  · by_cases old : k < first
    · exact .inl (put_all_old old entries f)
    · exact .inl (put_all_beyond entries f (by omega))

theorem put_was {i k : Nat} {now was : Standing} {stand : Nat → Standing}
    (found : Function.update stand i now k = was) (other : now ≠ was) : stand k = was := by
  by_cases own : k = i
  · subst own
    rw [Function.update_self] at found
    exact absurd found other
  · rwa [Function.update_of_ne own] at found

theorem Reaches.staffed {table : AssignmentTable} (reached : Reaches source table b) : b.Staffed := by
  induction reached with
  | start => exact staffed_initial table
  | step _ step ih => exact staffed_step ih step

theorem Staffed.same_call (staffed : b.Staffed) {i : Nat} {errand other : Errand}
    (one : .began i errand ∈ b.history) (two : .began i other ∈ b.history) : errand = other := by
  have same := List.inj_on_of_nodup_map staffed.once ((mem_begun_iff _ _ _).mpr one)
    ((mem_begun_iff _ _ _).mpr two) rfl
  exact (Prod.mk.inj same).2

theorem Staffed.owner_bound (staffed : b.Staffed) {k : Nat} (bound : k < b.size) :
    b.owner k < b.size := by
  obtain ⟨errand, happened⟩ := staffed.known k bound
  exact (staffed.began _ errand happened).1

theorem Staffed.unbegun (staffed : b.Staffed) (errand : Errand) :
    .began b.size errand ∉ b.history :=
  fun happened => Nat.lt_irrefl _ (staffed.began _ errand happened).1

theorem Staffed.works_for_next (staffed : b.Staffed) (k : Nat) : b.owner k = b.size ↔ k = b.size := by
  constructor
  · intro works
    by_cases bound : k < b.size
    · exact absurd (works ▸ staffed.owner_bound bound) (Nat.lt_irrefl _)
    · exact (staffed.fresh k (by omega)).2.symm.trans works
  · rintro rfl
    exact (staffed.fresh _ (Nat.le_refl _)).2

theorem Staffed.over_when_ended (staffed : b.Staffed) {i : Nat} {result : Session.Result}
    (ended : .ended i result ∈ b.history) {k : Nat} (works : b.owner k = i) : Over (b.stand k) := by
  obtain ⟨_, own, isOver⟩ := staffed.ended i result ended
  by_cases isCall : b.owner k = k
  · obtain rfl : k = i := isCall.symm.trans works
    exact isOver
  · rcases staffed.jobs k isCall with jobOver | ⟨first, count, awaits, _⟩
    · exact jobOver
    · rw [works] at awaits
      obtain ⟨reported, tells⟩ := isOver
      rw [awaits] at tells
      cases tells

def WrittenFor (b : Board) (i : Nat) (w : Request) : Prop :=
  w.accepted = true ∧ ∃ k m, .answered k w m ∈ b.history ∧ b.owner k = i

structure Reporting (b : Board) : Prop where
  acted : ∀ k r m, .answered k r m ∈ b.history → k < b.size
  waiting : ∀ i first count, b.stand i = .awaiting first count → b.owner i = i ∧
    ∀ k, first ≤ k → k < first + count → k < b.size ∧ b.owner k = i
  wrote : ∀ k aim table w, b.stand k = .wrote aim table → aim.due table = some w →
    ∃ m, .answered k w m ∈ b.history
  gathered : ∀ i outcomes, b.stand i = .gathered outcomes → b.owner i = i ∧
    ∀ w ∈ outcomes.flatMap Outcome.writes, b.WrittenFor i w
  ended : ∀ i result, .ended i result ∈ b.history → ∀ w ∈ Session.writes result, b.WrittenFor i w

theorem reporting_initial (table : AssignmentTable) : (initial table).Reporting := by
  constructor <;> simp [initial]

theorem Reporting.written_for (reporting : b.Reporting) {k : Nat} {reported : List Request}
    (tells : (b.stand k).Tells reported) : ∀ w ∈ reported, b.WrittenFor (b.owner k) w := by
  intro w listed
  generalize stand : b.stand k = now at tells
  cases now with
  | wrote aim table =>
    rw [show reported = _ from tells] at listed
    obtain ⟨isDue, accepted⟩ := List.mem_filter.mp listed
    obtain ⟨m, happened⟩ := reporting.wrote k aim table w stand (Option.mem_toList.mp isDue)
    exact ⟨accepted, k, m, happened, rfl⟩
  | gathered outcomes =>
    obtain ⟨own, written⟩ := reporting.gathered k outcomes stand
    rw [own]
    exact written w ((show reported = _ from tells) ▸ listed)
  | apart =>
    rw [show reported = [] from tells] at listed
    cases listed
  | saw aim table =>
    rw [tells.2] at listed
    cases listed
  | _ => cases tells

theorem WrittenFor.later {i : Nat} {w : Request} (written : b.WrittenFor i w)
    (reporting : b.Reporting) (history : ∀ event ∈ b.history, event ∈ next.history)
    (owner : ∀ k, k < b.size → next.owner k = b.owner k) : next.WrittenFor i w := by
  obtain ⟨accepted, k, m, happened, works⟩ := written
  exact ⟨accepted, k, m, history _ happened, (owner k (reporting.acted k w m happened)).trans works⟩

theorem Reporting.comes_on (reporting : b.Reporting) {i size : Nat} {now : Standing}
    {history : List (Happening Memory)} (earlier : ∀ event ∈ b.history, event ∈ history)
    (more : b.size ≤ size) (acted : ∀ k r m, .answered k r m ∈ history → k < size)
    (waits : ∀ first count, now = .awaiting first count → b.stand i = .awaiting first count)
    (wrote : ∀ aim table w, now = .wrote aim table → aim.due table = some w →
      ∃ m, .answered i w m ∈ history)
    (gathered : ∀ outcomes, now = .gathered outcomes → b.owner i = i ∧
      ∀ w ∈ outcomes.flatMap Outcome.writes, b.WrittenFor i w)
    (ended : ∀ k result, .ended k result ∈ history → .ended k result ∈ b.history ∨
      k = i ∧ ∀ w ∈ Session.writes result, b.WrittenFor i w)
    (table : AssignmentTable) (inside : Nat → List String) :
    Reporting ⟨table, history, size, Function.update b.stand i now, inside, b.owner⟩ := by
  have later : ∀ {k w}, b.WrittenFor k w →
      WrittenFor ⟨table, history, size, Function.update b.stand i now, inside, b.owner⟩ k w :=
    fun written => written.later reporting earlier fun _ _ => rfl
  constructor
  · exact acted
  · intro k first count awaits
    have awaited : b.stand k = .awaiting first count := by
      by_cases same : now = .awaiting first count
      · by_cases own : k = i
        · exact own ▸ waits first count same
        · dsimp only at awaits
          rwa [Function.update_of_ne own] at awaits
      · exact put_was awaits same
    obtain ⟨own, range⟩ := reporting.waiting k first count awaited
    refine ⟨own, fun job least most => ?_⟩
    obtain ⟨bound, works⟩ := range job least most
    exact ⟨by dsimp only; omega, works⟩
  · intro k aim before w wroteIt due
    by_cases own : k = i
    · subst own
      dsimp only at wroteIt
      rw [Function.update_self] at wroteIt
      exact wrote aim before w wroteIt due
    · dsimp only at wroteIt
      rw [Function.update_of_ne own] at wroteIt
      obtain ⟨m, happened⟩ := reporting.wrote k aim before w wroteIt due
      exact ⟨m, earlier _ happened⟩
  · intro k outcomes has
    by_cases own : k = i
    · subst own
      dsimp only at has
      rw [Function.update_self] at has
      obtain ⟨isCall, written⟩ := gathered outcomes has
      exact ⟨isCall, fun w listed => later (written w listed)⟩
    · dsimp only at has
      rw [Function.update_of_ne own] at has
      obtain ⟨isCall, written⟩ := reporting.gathered k outcomes has
      exact ⟨isCall, fun w listed => later (written w listed)⟩
  · intro k result happened w listed
    rcases ended k result happened with sooner | ⟨rfl, written⟩
    · exact later (reporting.ended k result sooner w listed)
    · exact later (written w listed)

theorem Reporting.fork (reporting : b.Reporting) (staffed : b.Staffed) {i : Nat}
    {jobs : List Service.Job} (bound : i < b.size) (own : b.owner i = i) :
    (b.withJobs i jobs).Reporting := by
  have later : ∀ {k w}, b.WrittenFor k w → (b.withJobs i jobs).WrittenFor k w :=
    fun written => written.later reporting (fun _ happened => happened)
      fun k old => put_all_old old _ _
  have stood : ∀ k was, putAll b.size (jobs.map fun job => .aiming (.one job))
      (Function.update b.stand i (.awaiting b.size jobs.length)) k = was →
      (∀ job, was ≠ .aiming (.one job)) →
      Function.update b.stand i (.awaiting b.size jobs.length) k = was := by
    intro k was found other
    rcases put_all_either b.size k (jobs.map fun job => .aiming (.one job))
      (Function.update b.stand i (.awaiting b.size jobs.length)) with old | new
    · rw [← old, found]
    · rw [found] at new
      obtain ⟨job, _, same⟩ := List.mem_map.mp new
      exact absurd same.symm (other job)
  have sameOwner : ∀ k, b.stand k ≠ .apart →
      putAll b.size (jobs.map fun _ => i) b.owner k = b.owner k := by
    intro k busy
    exact put_all_old (Nat.lt_of_not_le fun beyond => busy (staffed.fresh k beyond).1) _ _
  unfold withJobs at later ⊢
  constructor
  · intro k r m happened
    have old := reporting.acted k r m happened
    dsimp only
    omega
  · intro k first count awaits
    have waits := stood k _ awaits nofun
    dsimp only
    by_cases same : k = i
    · subst same
      rw [Function.update_self] at waits
      obtain ⟨rfl, rfl⟩ := Standing.awaiting.inj waits
      rw [put_all_old bound]
      refine ⟨own, fun job least most => ⟨most, ?_⟩⟩
      obtain ⟨j, rfl⟩ := Nat.exists_eq_add_of_le least
      rw [put_all_at _ _ (by rw [List.length_map]; omega), List.getElem_map]
    · rw [Function.update_of_ne same] at waits
      obtain ⟨isCall, range⟩ := reporting.waiting k first count waits
      rw [sameOwner k (by rw [waits]; nofun)]
      refine ⟨isCall, fun job least most => ?_⟩
      obtain ⟨old, works⟩ := range job least most
      rw [put_all_old old]
      exact ⟨by omega, works⟩
  · intro k aim table w wroteIt due
    have stand := put_was (stood k _ wroteIt nofun) nofun
    exact reporting.wrote k aim table w stand due
  · intro k outcomes has
    have stand := put_was (stood k _ has nofun) nofun
    obtain ⟨isCall, written⟩ := reporting.gathered k outcomes stand
    dsimp only
    rw [sameOwner k (by rw [stand]; nofun)]
    exact ⟨isCall, fun w listed => later (written w listed)⟩
  · exact fun k result happened w listed => later (reporting.ended k result happened w listed)

theorem reporting_step (reporting : b.Reporting) (staffed : b.Staffed) (step : Step source b next) :
    next.Reporting := by
  cases step with
  | begin errand =>
    refine reporting.comes_on (fun _ happened => List.mem_cons_of_mem _ happened) (Nat.le_succ _)
      (fun k r m happened => ?_) (fun first count same => ?_) (fun aim table w same => ?_)
      (fun outcomes same => ?_) (fun k result happened => ?_) _ _
    · exact Nat.lt_succ_of_lt (reporting.acted k r m ((List.mem_cons.mp happened).resolve_left (by simp)))
    · exact absurd errand.start_begins (by rw [same]; exact id)
    · exact absurd errand.start_begins (by rw [same]; exact id)
    · exact absurd errand.start_begins (by rw [same]; exact id)
    · exact .inl ((List.mem_cons.mp happened).resolve_left (by simp))
  | answer i r now m bound same move allowed free =>
    refine reporting.comes_on (fun _ happened => List.mem_cons_of_mem _ happened) (Nat.le_refl _)
      (fun k other n happened => ?_) (fun first count waits => ?_) (fun aim table w wroteIt due => ?_)
      (fun outcomes has => ?_)
      (fun k result happened => .inl ((List.mem_cons.mp happened).resolve_left (by simp))) _ _
    · rcases List.mem_cons.mp happened with last | earlier
      · obtain ⟨rfl, rfl, rfl⟩ := Happening.answered.inj last
        exact bound
      · exact reporting.acted k other n earlier
    · subst waits
      rcases move.comes_to with kept | begins | ⟨_, same⟩ | ⟨_, _, same, _⟩
      · exact kept.symm
      · cases begins
      · cases same
      · cases same
    · subst wroteIt
      rcases move.comes_to with kept | begins | ⟨_, same⟩ | ⟨_, _, same, isDue⟩
      · obtain ⟨n, happened⟩ := reporting.wrote i aim table w kept.symm due
        exact ⟨n, List.mem_cons_of_mem _ happened⟩
      · cases begins
      · cases same
      · obtain ⟨rfl, rfl⟩ := Standing.wrote.inj same
        obtain rfl := Option.some.inj (isDue.symm.trans due)
        exact ⟨m, List.mem_cons_self⟩
    · subst has
      rcases move.comes_to with kept | begins | ⟨_, same⟩ | ⟨_, _, same, _⟩
      · exact reporting.gathered i outcomes kept.symm
      · cases begins
      · cases same
      · cases same
  | fork i jobs bound own calling => exact reporting.fork staffed bound own
  | join i first outcomes bound own waits told =>
    refine reporting.comes_on (fun _ happened => happened) (Nat.le_refl _) reporting.acted
      (fun _ _ same => by cases same) (fun _ _ _ same => by cases same) (fun others same => ?_)
      (fun k result happened => .inl happened) _ _
    obtain rfl := Standing.gathered.inj same
    refine ⟨own, fun w listed => ?_⟩
    obtain ⟨outcome, member, isWrite⟩ := List.mem_flatMap.mp listed
    obtain ⟨k, inList, rfl⟩ := List.mem_iff_getElem.mp member
    have tells := told k outcomes[k] (List.getElem?_eq_getElem inList)
    obtain ⟨_, range⟩ := reporting.waiting i first outcomes.length waits
    have works := (range (first + k) (by omega) (by omega)).2
    exact works ▸ reporting.written_for tells w isWrite
  | finish i result bound own tells =>
    have kept : Reporting ⟨b.table, .ended i result :: b.history, b.size,
        Function.update b.stand i (b.stand i), b.inside, b.owner⟩ := by
      refine reporting.comes_on (fun _ happened => List.mem_cons_of_mem _ happened) (Nat.le_refl _)
        (fun k r m happened => ?_) (fun _ _ same => same) (fun aim table w same due => ?_)
        (fun outcomes same => reporting.gathered i outcomes same) (fun k other happened => ?_) _ _
      · exact reporting.acted k r m ((List.mem_cons.mp happened).resolve_left (by simp))
      · obtain ⟨m, happened⟩ := reporting.wrote i aim table w same due
        exact ⟨m, List.mem_cons_of_mem _ happened⟩
      · rcases List.mem_cons.mp happened with last | earlier
        · obtain ⟨rfl, rfl⟩ := Happening.ended.inj last
          exact .inr ⟨rfl, own ▸ reporting.written_for tells⟩
        · exact .inl earlier
    rwa [Function.update_eq_self i b.stand] at kept

theorem Reaches.reporting {table : AssignmentTable} (reached : Reaches source table b) :
    b.Reporting := by
  induction reached with
  | start => exact reporting_initial table
  | step earlier step ih => exact reporting_step ih earlier.staffed step

end Board

end TagRules
