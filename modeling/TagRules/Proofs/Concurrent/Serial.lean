import TagRules.Proofs.Concurrent.Cycles

/-!
A call takes its place in the order of a client when it acts on the links of that client, or as it
begins if it has nothing to do with them. The orders of two clients need not agree.
-/

set_option autoImplicit false

namespace TagRules

open Service AssignmentTable

def EndedBefore {σ : Type} (history : List (Happening σ)) (first second : Nat) : Prop :=
  ∃ later earlier errand result,
    history = later ++ .began second errand :: earlier ∧ .ended first result ∈ earlier

section

variable {σ : Type}

theorem ended_before_cons {event : Happening σ} {history : List (Happening σ)} {first second : Nat}
    (before : EndedBefore (event :: history) first second) :
    EndedBefore history first second ∨
      (∃ errand, event = .began second errand) ∧ ∃ result, .ended first result ∈ history := by
  obtain ⟨later, earlier, errand, result, split, ended⟩ := before
  rcases List.cons_eq_append_iff.mp split with ⟨rfl, same⟩ | ⟨rest, rfl, sooner⟩
  · obtain ⟨newest, rfl⟩ := List.cons.inj same
    exact .inr ⟨⟨errand, newest.symm⟩, result, ended⟩
  · exact .inl ⟨rest, earlier, errand, result, sooner, ended⟩

theorem EndedBefore.ended {history : List (Happening σ)} {first second : Nat}
    (before : EndedBefore history first second) : ∃ result, .ended first result ∈ history := by
  obtain ⟨later, earlier, errand, result, split, ended⟩ := before
  exact ⟨result, split ▸ List.mem_append_right later (List.mem_cons_of_mem _ ended)⟩

end

namespace Errand

variable {given : Option String → Memory.Loading} {client : String}

theorem effect_owed {errand : Errand} {f : AssignmentTable → AssignmentTable}
    (owed : errand.start.pending given client = some f) (links : AssignmentTable) :
    errand.onTable links = links ∧ errand.effect given client links = f (linksOf client links) := by
  cases errand with
  | assignManually other tag => cases owed
  | evaluate entity company trigger => exact ⟨rfl, by rw [effect, Standing.after, owed]; rfl⟩
  | reevaluate tag entities => exact ⟨rfl, by rw [effect, Standing.after, owed]; rfl⟩
  | recompute company entities => exact ⟨rfl, by rw [effect, Standing.after, owed]; rfl⟩

theorem effect_idle {errand : Errand} (idle : errand.start.pending given client = none)
    (links : AssignmentTable) :
    errand.effect given client links = linksOf client (errand.onTable links) := by
  rw [effect, Standing.after, idle]

end Errand

namespace Board

section

variable (given : Option String → Memory.Loading) (client : String)

def owes (b : Board) (k : Nat) : Option (AssignmentTable → AssignmentTable) :=
  (b.stand k).pending given client

structure Debts (b : Board) : Prop where
  owed : ∀ k f errand, b.owes given client k = some f → .began (b.owner k) errand ∈ b.history →
    errand.start.pending given client = some f
  one : ∀ i k, b.owes given client i ≠ none → b.owes given client k ≠ none →
    b.owner i = b.owner k → i = k
  distinct : ∀ k, (b.stand k).Distinct given

def Acted (b : Board) (i : Nat) (errand : Errand) : Prop :=
  .began i errand ∈ b.history ∧ ∀ k, b.owner k = i → b.owes given client k = none

-- The calls that have acted on the links of the client, in the order in which they did.
structure InOrder (start : AssignmentTable) (b : Board) (order : List (Nat × Errand)) : Prop where
  once : order.Nodup
  acted : ∀ i errand, (i, errand) ∈ order ↔ b.Acted given client i errand
  respects : order.Pairwise fun one other => ¬ EndedBefore b.history other.1 one.1
  links : linksOf client b.table =
    order.foldl (fun links entry => entry.2.effect given client links) (linksOf client start)

end

variable {given : Option String → Memory.Loading} {client : String} {start : AssignmentTable}
  {b next : Board} {order : List (Nat × Errand)}

theorem over_owes_nothing {k : Nat} (isOver : Over (b.stand k)) : b.owes given client k = none := by
  obtain ⟨reported, tells⟩ := isOver
  exact tells.nothing_pending given client

theorem Staffed.next_owes_nothing (staffed : b.Staffed) : b.owes given client b.size = none := by
  rw [owes, (staffed.fresh _ (Nat.le_refl _)).1]
  rfl

theorem debts_initial (table : AssignmentTable) : (initial table).Debts given client := by
  constructor <;> simp [initial, owes, Standing.pending, Standing.Distinct]

theorem Debts.goes_on (debts : b.Debts given client)
    (events : ∀ i errand, .began i errand ∈ next.history ↔ .began i errand ∈ b.history)
    (owner : next.owner = b.owner)
    (owes : ∀ k, next.owes given client k = none ∨ next.owes given client k = b.owes given client k)
    (distinct : ∀ k, (next.stand k).Distinct given) : next.Debts given client := by
  have still : ∀ k, next.owes given client k ≠ none → next.owes given client k = b.owes given client k :=
    fun k busy => (owes k).resolve_left busy
  constructor
  · intro k f errand owed began
    rw [owner, events] at began
    exact debts.owed k f errand ((still k (by rw [owed]; nofun)).symm.trans owed) began
  · intro i k oneOwes otherOwes same
    rw [owner] at same
    exact debts.one i k (still i oneOwes ▸ oneOwes) (still k otherOwes ▸ otherOwes) same
  · exact distinct

theorem owes_with_call (errand : Errand) (k : Nat) :
    (b.withCall errand).owes given client k =
      if k = b.size then errand.start.pending given client else b.owes given client k := by
  dsimp only [owes, withCall]
  rw [Function.update_apply, apply_ite (Standing.pending given client)]

theorem Debts.begin (debts : b.Debts given client) (staffed : b.Staffed) (errand : Errand)
    (distinct : errand.start.Distinct given) : (b.withCall errand).Debts given client := by
  have own := (staffed.works_for_next b.size).mpr rfl
  constructor
  · intro k f call owed happened
    rw [owes_with_call] at owed
    by_cases new : k = b.size
    · subst new
      rw [if_pos rfl] at owed
      rcases List.mem_cons.mp happened with last | old
      · obtain ⟨_, rfl⟩ := Happening.began.inj last
        exact owed
      · exact absurd (own ▸ old) (staffed.unbegun call)
    · rw [if_neg new] at owed
      rcases List.mem_cons.mp happened with last | old
      · exact absurd ((staffed.works_for_next k).mp (Happening.began.inj last).1) new
      · exact debts.owed k f call owed old
  · intro i k oneOwes otherOwes same
    rw [owes_with_call] at oneOwes otherOwes
    change b.owner i = b.owner k at same
    by_cases new : i = b.size
    · rw [new, own] at same
      exact new.trans ((staffed.works_for_next k).mp same.symm).symm
    · by_cases newToo : k = b.size
      · rw [newToo, own] at same
        exact ((staffed.works_for_next i).mp same).trans newToo.symm
      · rw [if_neg new] at oneOwes
        rw [if_neg newToo] at otherOwes
        exact debts.one i k oneOwes otherOwes same
  · exact (Function.forall_update_iff _ _).mpr ⟨distinct, fun k _ => debts.distinct k⟩

theorem owes_with_jobs (given : Option String → Memory.Loading) (client : String) {i : Nat}
    (jobs : List Job) (bound : i < b.size) (own : b.owner i = i) (k : Nat) :
    (k = i ∧ (b.withJobs i jobs).owner k = i ∧ (b.withJobs i jobs).owes given client k = none) ∨
    (∃ job, jobs[k - b.size]? = some job ∧ b.size ≤ k ∧ (b.withJobs i jobs).owner k = i ∧
      (b.withJobs i jobs).owes given client k =
        if job.client = client then some ((Aim.one job).effect client) else none) ∨
    ((k < b.size ∨ b.size + jobs.length ≤ k) ∧ k ≠ i ∧ (b.withJobs i jobs).owner k = b.owner k ∧
      (b.withJobs i jobs).owes given client k = b.owes given client k) := by
  dsimp only [owes, withJobs]
  by_cases old : k < b.size
  · rw [put_all_old old, put_all_old old]
    by_cases same : k = i
    · subst same
      rw [Function.update_self]
      exact .inl ⟨rfl, own, rfl⟩
    · rw [Function.update_of_ne same]
      exact .inr (.inr ⟨.inl old, same, rfl, rfl⟩)
  · by_cases within : k < b.size + jobs.length
    · obtain ⟨j, rfl⟩ := Nat.exists_eq_add_of_le (Nat.le_of_not_lt old)
      have inList : j < jobs.length := by omega
      refine .inr (.inl ⟨jobs[j], ?_, Nat.le_add_right _ _, ?_, ?_⟩)
      · rw [Nat.add_sub_cancel_left, List.getElem?_eq_getElem inList]
      · rw [put_all_at _ _ (by simpa using inList), List.getElem_map]
      · rw [put_all_at _ _ (by simpa using inList), List.getElem_map]
        simp [Standing.pending, Aim.concerns]
    · rw [put_all_beyond _ _ (by simpa using within), put_all_beyond _ _ (by simpa using within),
        Function.update_of_ne (by omega)]
      exact .inr (.inr ⟨.inr (by omega), by omega, rfl, rfl⟩)

theorem owes_calling (given : Option String → Memory.Loading) {i : Nat} {jobs : List Job}
    (calling : b.stand i = .calling jobs) (distinct : (jobs.map (·.client)).Nodup) {job : Job} (member : job ∈ jobs)
    (same : job.client = client) :
    b.owes given client i = some ((Aim.one job).effect client) := by
  rw [owes, calling]
  cases found : jobs.find? fun job => decide (job.client = client) with
  | none =>
    have other := List.find?_eq_none.mp found job member
    simp [same] at other
  | some first =>
    have sameToo : first.client = client := by simpa using List.find?_some found
    obtain rfl := List.inj_on_of_nodup_map distinct (List.mem_of_find?_eq_some found) member
      (sameToo.trans same.symm)
    simp [Standing.pending, found]

theorem Debts.fork (debts : b.Debts given client) {i : Nat} {jobs : List Job} (bound : i < b.size)
    (own : b.owner i = i) (calling : b.stand i = .calling jobs) :
    (b.withJobs i jobs).Debts given client := by
  have distinct : (jobs.map (·.client)).Nodup := by
    have known := debts.distinct i
    rwa [calling] at known
  have cases := owes_with_jobs given client jobs bound own
  -- A job that owes something is the one for the client.
  have owing : ∀ k, (b.withJobs i jobs).owes given client k ≠ none →
      (∃ job, jobs[k - b.size]? = some job ∧ b.size ≤ k ∧ job.client = client ∧
        (b.withJobs i jobs).owner k = i ∧
        (b.withJobs i jobs).owes given client k = b.owes given client i) ∨
      (k ≠ i ∧ (b.withJobs i jobs).owner k = b.owner k ∧
        (b.withJobs i jobs).owes given client k = b.owes given client k) := by
    intro k busy
    rcases cases k with ⟨_, _, nothing⟩ | ⟨job, listed, new, works, owesNow⟩ | kept
    · exact absurd nothing busy
    · by_cases same : job.client = client
      · have owed := owes_calling given calling distinct (List.mem_of_getElem? listed) same
        rw [if_pos same] at owesNow
        exact .inl ⟨job, listed, new, same, works, owesNow.trans owed.symm⟩
      · rw [if_neg same] at owesNow
        exact absurd owesNow busy
    · exact .inr kept.2
  constructor
  · intro k f errand owed happened
    rcases owing k (by rw [owed]; nofun) with ⟨_, _, _, _, works, owesNow⟩ | ⟨_, owner, owesNow⟩
    · rw [works, ← own] at happened
      exact debts.owed i f errand (owesNow.symm.trans owed) happened
    · rw [owner] at happened
      exact debts.owed k f errand (owesNow.symm.trans owed) happened
  · intro one other oneOwes otherOwes same
    rcases owing one oneOwes with
        ⟨job, listed, new, forClient, works, owesOne⟩ | ⟨apart, owner, owesOne⟩ <;>
      rcases owing other otherOwes with
        ⟨job', listed', new', forClient', works', owesOther⟩ | ⟨apart', owner', owesOther⟩
    · have sameJob := List.inj_on_of_nodup_map distinct (List.mem_of_getElem? listed)
        (List.mem_of_getElem? listed') (forClient.trans forClient'.symm)
      have sameIndex := (List.getElem?_inj (List.getElem?_eq_some_iff.mp listed).1
        (List.Nodup.of_map _ distinct)).mp (listed.trans (sameJob ▸ listed'.symm))
      omega
    · rw [works, owner', ← own] at same
      exact absurd (debts.one i other (owesOne ▸ oneOwes) (owesOther ▸ otherOwes) same).symm apart'
    · rw [owner, works'] at same
      exact absurd
        (debts.one one i (owesOne ▸ oneOwes) (owesOther ▸ otherOwes) (same.trans own.symm)) apart
    · rw [owner, owner'] at same
      exact debts.one one other (owesOne ▸ oneOwes) (owesOther ▸ otherOwes) same
  · intro k
    dsimp only [withJobs]
    rcases put_all_either b.size k (jobs.map fun job => .aiming (.one job))
      (Function.update b.stand i (.awaiting b.size jobs.length)) with old | new
    · rw [old]
      have waiting : ∀ k,
          (Function.update b.stand i (.awaiting b.size jobs.length) k).Distinct given :=
        (Function.forall_update_iff _ fun _ => Standing.Distinct given).mpr
          ⟨trivial, fun k _ => debts.distinct k⟩
      exact waiting k
    · obtain ⟨job, _, same⟩ := List.mem_map.mp new
      rw [← same]
      trivial

theorem in_order_initial (table : AssignmentTable) : InOrder given client table (initial table) [] := by
  constructor <;> simp [initial, Acted]

theorem InOrder.stays (inOrder : InOrder given client start b order)
    (acted : ∀ i errand, next.Acted given client i errand ↔ b.Acted given client i errand)
    (before : ∀ first second errand, b.Acted given client second errand →
      EndedBefore next.history first second → EndedBefore b.history first second)
    (links : linksOf client next.table = linksOf client b.table) :
    InOrder given client start next order := by
  refine ⟨inOrder.once, fun i errand => (inOrder.acted i errand).trans (acted i errand).symm, ?_,
    links.trans inOrder.links⟩
  refine inOrder.respects.imp_of_mem fun {one other} isOne _ notBefore ended => notBefore ?_
  exact before _ _ one.2 ((inOrder.acted one.1 one.2).mp isOne) ended

theorem InOrder.joins (inOrder : InOrder given client start b order) (i : Nat) (errand : Errand)
    (acted : ∀ k call, next.Acted given client k call ↔
      b.Acted given client k call ∨ k = i ∧ call = errand)
    (fresh : ¬ b.Acted given client i errand) (unended : ∀ result, .ended i result ∉ b.history)
    (before : ∀ first second call, b.Acted given client second call →
      EndedBefore next.history first second → EndedBefore b.history first second)
    (links : linksOf client next.table = errand.effect given client (linksOf client b.table)) :
    InOrder given client start next (order ++ [(i, errand)]) := by
  constructor
  · refine List.nodup_append.mpr ⟨inOrder.once, by simp, ?_⟩
    rintro entry member _ isLast rfl
    obtain rfl := List.mem_singleton.mp isLast
    exact fresh ((inOrder.acted i errand).mp member)
  · intro k call
    rw [List.mem_append, List.mem_singleton, inOrder.acted, acted, Prod.mk.injEq]
  · refine List.pairwise_append.mpr ⟨?_, List.pairwise_singleton _ _, ?_⟩
    · refine inOrder.respects.imp_of_mem fun {one other} isOne _ notBefore ended => notBefore ?_
      exact before _ _ one.2 ((inOrder.acted one.1 one.2).mp isOne) ended
    · intro one isOne last isLast ended
      obtain rfl := List.mem_singleton.mp isLast
      obtain ⟨result, happened⟩ :=
        (before _ _ one.2 ((inOrder.acted one.1 one.2).mp isOne) ended).ended
      exact unended result happened
  · rw [List.foldl_append, ← inOrder.links]
    exact links

theorem ended_before_began {errand : Errand} (staffed : b.Staffed) {first second : Nat} {call : Errand}
    (acted : b.Acted given client second call)
    (ended : EndedBefore (b.withCall errand).history first second) :
    EndedBefore b.history first second := by
  refine (ended_before_cons ended).resolve_right ?_
  rintro ⟨⟨other, same⟩, _⟩
  obtain ⟨rfl, _⟩ := Happening.began.inj same
  exact staffed.unbegun call acted.1

theorem acted_with_call (staffed : b.Staffed) (errand : Errand) (i : Nat) (call : Errand) :
    (b.withCall errand).Acted given client i call ↔ b.Acted given client i call ∨
      (i = b.size ∧ call = errand) ∧ errand.start.pending given client = none := by
  have own := (staffed.works_for_next b.size).mpr rfl
  constructor
  · rintro ⟨happened, idle⟩
    rcases List.mem_cons.mp happened with last | old
    · obtain ⟨rfl, rfl⟩ := Happening.began.inj last
      have owesNow := idle b.size own
      rw [owes_with_call, if_pos rfl] at owesNow
      exact .inr ⟨⟨rfl, rfl⟩, owesNow⟩
    · refine .inl ⟨old, fun k works => ?_⟩
      by_cases new : k = b.size
      · rw [new]
        exact staffed.next_owes_nothing
      · have owesNow := idle k works
        rwa [owes_with_call, if_neg new] at owesNow
  · rintro (⟨happened, idle⟩ | ⟨⟨rfl, rfl⟩, nothing⟩)
    · refine ⟨List.mem_cons_of_mem _ happened, fun k works => ?_⟩
      have new : k ≠ b.size := by
        rintro rfl
        obtain rfl : b.size = i := own.symm.trans works
        exact staffed.unbegun call happened
      rw [owes_with_call, if_neg new]
      exact idle k works
    · refine ⟨List.mem_cons_self, fun k works => ?_⟩
      rw [owes_with_call, if_pos ((staffed.works_for_next k).mp works), nothing]

theorem InOrder.begin (inOrder : InOrder given client start b order) (staffed : b.Staffed)
    (errand : Errand) : ∃ order, InOrder given client start (b.withCall errand) order := by
  cases owing : errand.start.pending given client with
  | some f =>
    refine ⟨order, inOrder.stays (fun i call => ?_)
      (fun _ _ _ acted ended => ended_before_began staffed acted ended) ?_⟩
    · rw [acted_with_call staffed, owing]
      simp
    · exact congrArg _ (Errand.effect_owed owing b.table).1
  | none =>
    refine ⟨_, inOrder.joins b.size errand (fun k call => ?_) (fun fresh => ?_)
      (fun result ended => ?_) (fun _ _ _ acted ended => ended_before_began staffed acted ended) ?_⟩
    · rw [acted_with_call staffed, owing]
      simp
    · exact staffed.unbegun errand fresh.1
    · exact Nat.lt_irrefl _ (staffed.ended _ result ended).1
    · exact (errand.links_of_on_table client b.table).trans (Errand.effect_idle owing _).symm

theorem owes_with_answer (i : Nat) (r : Request) (now : Standing) (m : Memory) (k : Nat) :
    (b.withAnswer i r now m).owes given client k =
      if k = i then now.pending given client else b.owes given client k := by
  dsimp only [owes, withAnswer]
  rw [Function.update_apply, apply_ite (Standing.pending given client)]

theorem Debts.answer (debts : b.Debts given client) {i : Nat} {r : Request} {now : Standing}
    {m : Memory}
    (paid : now.pending given client = none ∨ now.pending given client = b.owes given client i)
    (distinct : now.Distinct given) : (b.withAnswer i r now m).Debts given client := by
  refine debts.goes_on (fun _ _ => by simp [withAnswer]) rfl (fun k => ?_)
    ((Function.forall_update_iff _ _).mpr ⟨distinct, fun k _ => debts.distinct k⟩)
  rw [owes_with_answer]
  by_cases own : k = i
  · rw [if_pos own, own]
    exact paid
  · rw [if_neg own]
    exact .inr rfl

theorem acted_with_payment (staffed : b.Staffed) (debts : b.Debts given client) {i : Nat}
    {r : Request} {now : Standing} {m : Memory} {f : AssignmentTable → AssignmentTable}
    {errand : Errand} (owed : b.owes given client i = some f)
    (paid : now.pending given client = none) (began : .began (b.owner i) errand ∈ b.history)
    (k : Nat) (call : Errand) :
    (b.withAnswer i r now m).Acted given client k call ↔
      b.Acted given client k call ∨ k = b.owner i ∧ call = errand := by
  have events : .began k call ∈ (b.withAnswer i r now m).history ↔ .began k call ∈ b.history := by
    simp [withAnswer]
  rw [Acted, events]
  constructor
  · rintro ⟨happened, idle⟩
    by_cases mine : k = b.owner i
    · subst mine
      exact .inr ⟨rfl, staffed.same_call happened began⟩
    · refine .inl ⟨happened, fun j works => ?_⟩
      have other : j ≠ i := fun same => mine (by rw [← works, same])
      have owesNow := idle j works
      rwa [owes_with_answer, if_neg other] at owesNow
  · rintro (⟨happened, idle⟩ | ⟨rfl, rfl⟩)
    · refine ⟨happened, fun j works => ?_⟩
      have other : j ≠ i := by
        rintro rfl
        cases owed.symm.trans (idle j works)
      rw [owes_with_answer, if_neg other]
      exact idle j works
    · refine ⟨began, fun j works => ?_⟩
      rw [owes_with_answer]
      by_cases mine : j = i
      · rw [if_pos mine, paid]
      · rw [if_neg mine]
        refine Decidable.byContradiction fun busy => mine ?_
        exact debts.one j i busy (by rw [owed]; nofun) works

theorem ended_before_answer {i : Nat} {r : Request} {now : Standing} {m : Memory} {first second : Nat}
    (ended : EndedBefore (b.withAnswer i r now m).history first second) :
    EndedBefore b.history first second :=
  (ended_before_cons ended).resolve_right fun ⟨⟨_, same⟩, _⟩ => by cases same

theorem InOrder.pays (inOrder : InOrder given client start b order) (staffed : b.Staffed)
    (debts : b.Debts given client) {i : Nat} {r : Request} {now : Standing} {m : Memory}
    {f : AssignmentTable → AssignmentTable} (bound : i < b.size)
    (owed : b.owes given client i = some f) (paid : now.pending given client = none)
    (links : linksOf client (r.effect b.table) = f (linksOf client b.table)) :
    ∃ order, InOrder given client start (b.withAnswer i r now m) order := by
  obtain ⟨errand, began⟩ := staffed.known i bound
  have owedByCall := debts.owed i f errand owed began
  refine ⟨_, inOrder.joins (b.owner i) errand (acted_with_payment staffed debts owed paid began)
    (fun acted => ?_) (fun result ended => ?_) (fun _ _ _ _ ended => ended_before_answer ended) ?_⟩
  · cases owed.symm.trans (acted.2 i rfl)
  · cases owed.symm.trans (over_owes_nothing (staffed.over_when_ended ended rfl))
  · rw [(Errand.effect_owed owedByCall _).2, links_of_links_of]
    exact links

theorem acted_with_jobs (staffed : b.Staffed) (debts : b.Debts given client) {i : Nat}
    {jobs : List Job} (bound : i < b.size) (own : b.owner i = i) (calling : b.stand i = .calling jobs)
    (k : Nat) (call : Errand) :
    (b.withJobs i jobs).Acted given client k call ↔ b.Acted given client k call := by
  have distinct : (jobs.map (·.client)).Nodup := by
    have known := debts.distinct i
    rwa [calling] at known
  have cases := owes_with_jobs given client jobs bound own
  constructor
  · rintro ⟨happened, idle⟩
    refine ⟨happened, fun j works => ?_⟩
    rcases cases j with ⟨rfl, _, _⟩ | ⟨_, _, new, _, _⟩ | ⟨_, _, owner, owesNow⟩
    · obtain rfl : j = k := own.symm.trans works
      rw [owes, calling, Standing.pending, Option.map_eq_none_iff, List.find?_eq_none]
      intro job member same
      -- The job for the client would owe something.
      obtain ⟨n, inList, rfl⟩ := List.mem_iff_getElem.mp member
      have listed := List.getElem?_eq_getElem inList
      rcases cases (b.size + n) with ⟨clash, _, _⟩ | ⟨other, found, _, works, owesNow⟩ | ⟨apart, _⟩
      · omega
      · rw [Nat.add_sub_cancel_left, listed] at found
        obtain rfl := Option.some.inj found
        rw [if_pos (of_decide_eq_true same), idle _ works] at owesNow
        cases owesNow
      · omega
    · rw [owes, (staffed.fresh j new).1]
      rfl
    · exact owesNow ▸ idle j (owner.trans works)
  · rintro ⟨happened, idle⟩
    refine ⟨happened, fun j works => ?_⟩
    rcases cases j with ⟨_, _, nothing⟩ | ⟨job, listed, _, owner, owesNow⟩ | ⟨_, _, owner, owesNow⟩
    · exact nothing
    · rw [owesNow]
      refine if_neg fun same => ?_
      have owed := owes_calling given calling distinct (List.mem_of_getElem? listed) same
      cases owed.symm.trans (idle i (own.trans (owner.symm.trans works)))
    · exact owesNow.trans (idle j (owner.symm.trans works))

theorem debts_step (debts : b.Debts given client) (staffed : b.Staffed) (watched : b.Watched)
    (step : Step (fun company _ => given company) b next)
    (distinct : ∀ i errand, .began i errand ∈ next.history → errand.start.Distinct given) :
    next.Debts given client := by
  cases step with
  | begin errand => exact debts.begin staffed errand (distinct _ errand List.mem_cons_self)
  | answer i r now m bound same move allowed free =>
    have coherent : Coherent m.table := same ▸ watched.coherent
    refine debts.answer ?_ (move.distinct (debts.distinct i))
    rcases move.settles client coherent (same ▸ watched.lasting i) with ⟨unpaid, _⟩ | ⟨_, _, paid, _⟩
    · exact .inr unpaid
    · exact .inl paid
  | fork i jobs bound own calling => exact debts.fork bound own calling
  | join i first outcomes bound own waits told =>
    refine debts.goes_on (fun _ _ => Iff.rfl) rfl (fun k => ?_)
      ((Function.forall_update_iff _ _).mpr ⟨trivial, fun k _ => debts.distinct k⟩)
    dsimp only [owes]
    by_cases same : k = i
    · rw [same, Function.update_self]
      exact .inl rfl
    · rw [Function.update_of_ne same]
      exact .inr rfl
  | finish i result bound own tells =>
    exact debts.goes_on (fun _ _ => by simp) rfl (fun k => .inr rfl) debts.distinct

theorem in_order_step (inOrder : InOrder given client start b order) (debts : b.Debts given client)
    (staffed : b.Staffed) (watched : b.Watched)
    (step : Step (fun company _ => given company) b next) :
    ∃ order, InOrder given client start next order := by
  cases step with
  | begin errand => exact inOrder.begin staffed errand
  | answer i r now m bound same move allowed free =>
    have coherent : Coherent m.table := same ▸ watched.coherent
    rcases move.settles client coherent (same ▸ watched.lasting i) with
      ⟨unpaid, untouched⟩ | ⟨f, owed, paid, done⟩
    · rw [same] at untouched
      refine ⟨order, inOrder.stays (fun k call => ?_) (fun _ _ _ _ ended => ended_before_answer ended)
        untouched⟩
      have owesSame : ∀ j, (b.withAnswer i r now m).owes given client j = b.owes given client j := by
        intro j
        rw [owes_with_answer]
        by_cases mine : j = i
        · rw [if_pos mine, unpaid, mine]
          rfl
        · rw [if_neg mine]
      simp only [Acted, owesSame]
      simp [withAnswer]
    · exact inOrder.pays staffed debts bound owed paid (same ▸ done)
  | fork i jobs bound own calling =>
    exact ⟨order, inOrder.stays (acted_with_jobs staffed debts bound own calling)
      (fun _ _ _ _ ended => ended) rfl⟩
  | join i first outcomes bound own waits told =>
    refine ⟨order, inOrder.stays (fun k call => ?_) (fun _ _ _ _ ended => ended) rfl⟩
    have owesSame : ∀ j,
        owes given client { b with stand := Function.update b.stand i (.gathered outcomes) } j =
          b.owes given client j := by
      intro j
      dsimp only [owes]
      by_cases mine : j = i
      · rw [mine, Function.update_self, waits]
        rfl
      · rw [Function.update_of_ne mine]
    simp only [Acted, owesSame]
  | finish i result bound own tells =>
    refine ⟨order, inOrder.stays (fun k call => ?_) (fun _ _ _ _ ended => ?_) rfl⟩
    · simp [Acted, owes]
    · exact (ended_before_cons ended).resolve_right fun ⟨⟨_, same⟩, _⟩ => by cases same

theorem Step.keeps_history {source : Option String → Memory → Memory.Loading}
    (step : Step source b next) : ∀ event ∈ b.history, event ∈ next.history := by
  intro event happened
  cases step with
  | begin errand => exact List.mem_cons_of_mem _ happened
  | answer i r now m bound same move allowed free => exact List.mem_cons_of_mem _ happened
  | fork i jobs bound own calling => exact happened
  | join i first outcomes bound own waits told => exact happened
  | finish i result bound own tells => exact List.mem_cons_of_mem _ happened

theorem Reaches.in_order (client : String) (coherent : Coherent start)
    (reached : Reaches (fun company _ => given company) start b)
    (distinct : ∀ i errand, .began i errand ∈ b.history → errand.start.Distinct given) :
    b.Debts given client ∧ ∃ order, InOrder given client start b order := by
  induction reached with
  | start => exact ⟨debts_initial start, [], in_order_initial start⟩
  | step earlier step ih =>
    obtain ⟨debts, order, inOrder⟩ :=
      ih fun i errand began => distinct i errand (step.keeps_history _ began)
    have staffed := earlier.staffed
    have watched := earlier.watched coherent
    exact ⟨debts_step debts staffed watched step distinct,
      in_order_step inOrder debts staffed watched step⟩

end Board

theorem Errand.start_distinct (given : Option String → Memory.Loading) (errand : Errand)
    (distinct : ∀ company entities, errand = .recompute company entities → ∀ clients,
      clientsOf entities = .ok clients → clients.keys.Nodup) : errand.start.Distinct given := by
  unfold start
  cases errand with
  | assignManually client tag => trivial
  | evaluate entity company trigger =>
    dsimp only
    split
    · trivial
    · dsimp only [Standing.Distinct]
      split <;> trivial
  | reevaluate tag entities =>
    dsimp only
    split <;> trivial
  | recompute company entities =>
    dsimp only [Standing.Distinct]
    split
    · trivial
    · split
      · trivial
      · rename_i clients found
        have ids := distinct company entities rfl clients found
        simpa [Standing.Distinct, Dictionary.keys, Function.comp_def] using ids

namespace Crew

def isEnd {σ : Type} (i : Nat) : Happening σ → Bool
  | .ended worker _ => decide (worker = i)
  | _ => false

theorem ended_of_is_end {σ : Type} {i : Nat} {event : Happening σ} (tested : isEnd i event = true) :
    ∃ result, event = .ended i result := by
  cases event with
  | ended worker result => exact ⟨result, by rw [of_decide_eq_true tested]⟩
  | began | answered => cases tested

def namesClientsOnce : Errand → Bool
  | .recompute _ entities => (clientsOf entities).toOption.all fun clients => decide clients.keys.Nodup
  | _ => true

theorem each_client_in_some_order (settings : Settings) (given : Option String → Memory.Loading)
    (w : World Memory) (plain : w.store.rules = []) (coherent : Coherent w.store.table)
    (s : Crew Memory)
    (reached : Reaches (Scene.inMemory settings fun company _ => given company) w s)
    (distinct : ∀ i company entities, .began i (.recompute company entities) ∈ s.history →
      ∀ clients, clientsOf entities = .ok clients → clients.keys.Nodup)
    (allEnded : ∀ i errand, .began i errand ∈ s.history → ∃ result, .ended i result ∈ s.history)
    (client : String) :
    ∃ order : List (Nat × Errand), order.Perm (begun s.history) ∧
      order.Pairwise (fun one other => ¬ EndedBefore s.history other.1 one.1) ∧
      linksOf client (Errand.performAll (Scene.inMemory settings fun company _ => given company)
        (order.map Prod.snd) w).store.table = linksOf client s.world.store.table := by
  obtain ⟨b, reachedBoard, shows⟩ := reached.shown plain
  rw [← shows.history] at distinct allEnded ⊢
  have eachDistinct : ∀ i errand, .began i errand ∈ b.history → errand.start.Distinct given := by
    intro i errand began
    refine errand.start_distinct given fun company entities same clients found => ?_
    subst same
    exact distinct i company entities began clients found
  have staffed := reachedBoard.staffed
  obtain ⟨_, order, inOrder⟩ := reachedBoard.in_order client coherent eachDistinct
  have listed : ∀ entry, entry ∈ order ↔ entry ∈ begun b.history := by
    rintro ⟨i, errand⟩
    rw [inOrder.acted, mem_begun_iff]
    refine ⟨And.left, fun began => ⟨began, fun k works => ?_⟩⟩
    obtain ⟨result, ended⟩ := allEnded i errand began
    exact Board.over_owes_nothing (staffed.over_when_ended ended works)
  refine ⟨order, ?_, inOrder.respects, ?_⟩
  · exact (List.perm_ext_iff_of_nodup inOrder.once (List.Nodup.of_map _ staffed.once)).mpr listed
  · rw [Errand.perform_all_settles settings (order.map Prod.snd) ?_ w plain coherent client,
      List.foldl_map, ← shows.table]
    · exact inOrder.links.symm
    · intro errand member
      obtain ⟨⟨i, call⟩, isListed, rfl⟩ := List.mem_map.mp member
      exact eachDistinct i call ((mem_begun_iff _ _ _).mp ((listed _).mp isListed))

theorem recompute_within_reevaluation :
    let vip (tier : Int) : Tag := ⟨"vip", some (.single "tier" (.known .equals) (.int tier) .null)⟩
    let given : Option String → Memory.Loading := fun _ => (.ok [vip 1], [])
    let scene := Scene.inMemory Settings.default fun company _ => given company
    let w := World.initial Memory.empty
    ∃ s, Reaches scene w s ∧ (begun s.history).length = 2 ∧
      HasAuto "a" "vip" s.world.store.table ∧ HasAuto "b" "vip" s.world.store.table ∧
      ∀ client, ∃ order : List (Nat × Errand), order.Perm (begun s.history) ∧
        order.Pairwise (fun one other => ¬ EndedBefore s.history other.1 one.1) ∧
        linksOf client (Errand.performAll scene (order.map Prod.snd) w).store.table =
          linksOf client s.world.store.table := by
  intro vip given scene w
  let entity (id : String) (tier : Int) : Value :=
    .mapping [(.text "id", .text id), (.text "tier", .int tier)]
  let moves : List Move :=
    [.begin (.reevaluate (vip 2) [entity "a" 3, entity "b" 2]),
      .begin (.recompute none [entity "a" 1, entity "b" 3]), .turn 0, .turn 1, .turn 1] ++
    List.replicate 9 (.turn 2) ++ List.replicate 6 (.turn 3) ++ List.replicate 3 (.turn 1) ++
    List.replicate 8 (.turn 0)
  obtain ⟨s, reached, two, linked, linkedToo, complete, distinct⟩ := play_shows scene w moves
    (fun s => (begun s.history).length = 2 ∧ isAuto "a" "vip" s.world.store.table = true ∧
      isAuto "b" "vip" s.world.store.table = true ∧
      ((begun s.history).all fun entry => s.history.any (isEnd entry.1)) = true ∧
      ((begun s.history).all fun entry => namesClientsOnce entry.2) = true) (by decide +kernel)
  have hasAuto : ∀ client, isAuto client "vip" s.world.store.table = true →
      HasAuto client "vip" s.world.store.table := by
    intro client isAuto
    obtain ⟨a, found, auto⟩ := (Option.any_eq_true _ _).mp isAuto
    exact ⟨a, found, auto⟩
  have allEnded : ∀ i errand, .began i errand ∈ s.history → ∃ result, .ended i result ∈ s.history := by
    intro i errand began
    have ends := List.all_eq_true.mp complete (i, errand) ((mem_begun_iff _ _ _).mpr began)
    obtain ⟨event, happened, isLast⟩ := List.any_eq_true.mp ends
    obtain ⟨result, rfl⟩ := ended_of_is_end isLast
    exact ⟨result, happened⟩
  have allDistinct : ∀ i company entities, .began i (.recompute company entities) ∈ s.history →
      ∀ clients, clientsOf entities = .ok clients → clients.keys.Nodup := by
    intro i company entities began clients found
    have ids := List.all_eq_true.mp distinct _ ((mem_begun_iff _ _ _).mpr began)
    simpa [namesClientsOnce, found, Except.toOption] using ids
  exact ⟨s, reached, two, hasAuto "a" linked, hasAuto "b" linkedToo,
    each_client_in_some_order Settings.default given w rfl coherent_empty s reached allDistinct allEnded⟩

end Crew

end TagRules
