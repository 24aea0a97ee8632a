import TagRules.Proofs.Concurrent.Owing
import TagRules.Proofs.Concurrent.Schedule
import TagRules.Proofs.Concurrent.Staff

/-! A re-evaluation enters the locks of its clients only after it has read. -/

set_option autoImplicit false

namespace TagRules

open Service AssignmentTable

-- Nobody wrote links of the client.
def Undisturbed (client : String) (happened : List (Happening Memory)) : Prop :=
  ∀ i r m, .answered i r m ∈ happened → client ∉ r.clients

def LeftTo (i : Nat) (client : String) (happened : List (Happening Memory)) : Prop :=
  ∀ k r m, .answered k r m ∈ happened → client ∈ r.clients → k = i

-- The cycle that ends with the write `w` of worker `i` into `m`, after what happened `earlier`.
structure Cycle (i : Nat) (w : Request) (m : Memory) (earlier : List (Happening Memory)) (aim : Aim)
    (start : Memory) (since before : List (Happening Memory)) : Prop where
  read : earlier = since ++ .answered i aim.read start :: before
  due : aim.due start.table = some w
  alone : ∀ job, aim = .one job → Undisturbed job.client since
  locked : ∀ client ∈ w.clients, ∃ entered inside outside,
    earlier = inside ++ .answered i (.enter client) entered :: outside ∧ LeftTo i client inside
  exact : w.accepted = true → ∀ client ∈ w.clients, Undisturbed client since → ∀ tag,
    ¬ HasManual client tag m.table →
      ((client, tag) ∈ w.adds ↔
        link? client tag m.table = none ∧ link? client tag (w.effect m.table) ≠ none) ∧
      ((client, tag) ∈ w.removes ↔
        link? client tag m.table ≠ none ∧ link? client tag (w.effect m.table) = none)

theorem undisturbed_cons {client : String} {i : Nat} {r : Request} {m : Memory}
    {happened : List (Happening Memory)} (unnamed : client ∉ r.clients)
    (undisturbed : Undisturbed client happened) :
    Undisturbed client (.answered i r m :: happened) := by
  intro k other n member
  rcases List.mem_cons.mp member with same | earlier
  · obtain ⟨rfl, rfl, rfl⟩ := Happening.answered.inj same
    exact unnamed
  · exact undisturbed k other n earlier

theorem split_before {α : Type} {last earlier since before : List α} {event : α}
    (same : last ++ earlier = since ++ event :: before) (absent : event ∉ last) :
    ∃ rest, since = last ++ rest ∧ earlier = rest ++ event :: before := by
  rcases List.append_eq_append_iff.mp same with both | ⟨rest, within, following⟩
  · exact both
  · cases rest with
    | nil => exact ⟨[], by simp [within], following.symm⟩
    | cons first rest =>
      obtain ⟨rfl, _⟩ := List.cons.inj following
      exact absurd (within ▸ List.mem_append_right since List.mem_cons_self) absent

theorem split_at {α : Type} {list : List α} {n : Nat} {entry : α} (found : list[n]? = some entry) :
    list = list.take n ++ entry :: list.drop (n + 1) := by
  obtain ⟨bound, same⟩ := List.getElem?_eq_some_iff.mp found
  rw [← same, ← List.drop_eq_getElem_cons bound, List.take_append_drop]

namespace Request

theorem mem_after {client : String} {inside : List String} {r : Request}
    (member : client ∈ r.after inside) : client ∈ inside ∨ r = .enter client := by
  cases r with
  | enter other =>
    rcases List.mem_cons.mp member with rfl | held
    · exact .inr rfl
    · exact .inl held
  | leave other => exact .inl (List.mem_of_mem_erase member)
  | _ => exact .inl member

theorem named_inside {inside : List String} {r : Request} (allowed : r.Allowed inside)
    {client : String} (named : client ∈ r.clients) : client ∈ inside := by
  cases r with
  | applyDiff _ _ => exact allowed client named
  | applyTagDiff _ => exact allowed client named
  | _ => cases named

theorem quiet_clients (r : Request) (quiet : r.isQuiet = true) : r.clients = [] := by
  cases r <;> first | rfl | cases quiet

end Request

theorem Aim.read_clients (aim : Aim) : aim.read.clients = [] := by cases aim <;> rfl

namespace Board

structure Watched (b : Board) : Prop where
  coherent : Coherent b.table
  stores : ∀ i r m, .answered i r m ∈ b.history → Coherent m.table
  alone : ∀ client i k, client ∈ b.inside i → client ∈ b.inside k → i = k
  entered : ∀ client i, client ∈ b.inside i → ∃ m inside outside,
    b.history = inside ++ .answered i (.enter client) m :: outside ∧ LeftTo i client inside
  byHand : ∀ client i r m since before, b.history = since ++ .answered i r m :: before →
    client ∉ r.clients → Undisturbed client since → ByHandOnly client m.table b.table
  sighted : ∀ i aim table w, b.stand i = .saw aim table → aim.due table = some w →
    ∃ m since before, b.history = since ++ .answered i aim.read m :: before ∧ m.table = table ∧
      ∀ job, aim = .one job → job.client ∈ b.inside i ∧ Undisturbed job.client since
  cycles : ∀ i w m later earlier, b.history = later ++ .answered i w m :: earlier →
    w.isWrite = true → ∃ aim start since before, Cycle i w m earlier aim start since before

theorem watched_initial {table : AssignmentTable} (coherent : Coherent table) :
    (initial table).Watched := by
  constructor <;> simp [initial, coherent]

variable {source : Option String → Memory → Memory.Loading} {b next : Board}

theorem Watched.aside (watched : b.Watched) (last : List (Happening Memory))
    (history : next.history = last ++ b.history) (silent : ∀ i r m, .answered i r m ∉ last)
    (coherent : Coherent next.table)
    (byHand : ∀ client before, ByHandOnly client before b.table → ByHandOnly client before next.table)
    (inside : next.inside = b.inside)
    (stand : ∀ i aim table, next.stand i = .saw aim table → b.stand i = .saw aim table) :
    next.Watched := by
  have quiet : ∀ client since, Undisturbed client since → Undisturbed client (last ++ since) := by
    intro client since undisturbed i r m member
    rcases List.mem_append.mp member with now | earlier
    · exact absurd now (silent i r m)
    · exact undisturbed i r m earlier
  constructor
  · exact coherent
  · intro i r m member
    rw [history] at member
    exact watched.stores i r m ((List.mem_append.mp member).resolve_left (silent i r m))
  · rw [inside]
    exact watched.alone
  · intro client i member
    rw [inside] at member
    obtain ⟨m, within, outside, split, left⟩ := watched.entered client i member
    refine ⟨m, last ++ within, outside, by rw [history, split, List.append_assoc], ?_⟩
    intro k r n happened named
    rcases List.mem_append.mp happened with now | earlier
    · exact absurd now (silent k r n)
    · exact left k r n earlier named
  · intro client i r m since before split unnamed undisturbed
    rw [history] at split
    obtain ⟨rest, rfl, earlier⟩ := split_before split (silent i r m)
    refine byHand client _ (watched.byHand client i r m rest before earlier unnamed ?_)
    exact fun k other n member => undisturbed k other n (List.mem_append_right last member)
  · intro i aim table w saw due
    obtain ⟨m, since, before, split, same, own⟩ :=
      watched.sighted i aim table w (stand i aim table saw) due
    refine ⟨m, last ++ since, before, by rw [history, split, List.append_assoc], same, ?_⟩
    intro job isJob
    rw [inside]
    exact ⟨(own job isJob).1, quiet job.client since (own job isJob).2⟩
  · intro i w m later earlier split
    rw [history] at split
    obtain ⟨rest, _, sooner⟩ := split_before split (silent i w m)
    exact watched.cycles i w m rest earlier sooner

section

variable (watched : b.Watched) {i : Nat} {r : Request} {now : Standing} {m : Memory}
  (same : m.table = b.table) (move : Standing.Move source m (b.stand i) r now)
  (allowed : r.Allowed (b.inside i))

include watched allowed

theorem Watched.named_alone {client : String} {k : Nat} (inside : client ∈ b.inside k)
    (named : client ∈ r.clients) : i = k :=
  watched.alone client i k (r.named_inside allowed named) inside

include move

theorem Watched.sighted_next {aim : Aim} {table : AssignmentTable} {w : Request}
    (saw : now = .saw aim table) (due : aim.due table = some w) :
    ∃ start since before,
      .answered i r m :: b.history = since ++ .answered i aim.read start :: before ∧
      start.table = table ∧ ∀ job, aim = .one job →
        job.client ∈ r.after (b.inside i) ∧ Undisturbed job.client since := by
  have earlier : b.stand i = .saw aim table → r.clients = [] →
      (∀ client, client ∈ b.inside i → client ∈ r.after (b.inside i)) → ∃ start since before,
        .answered i r m :: b.history = since ++ .answered i aim.read start :: before ∧
        start.table = table ∧ ∀ job, aim = .one job →
          job.client ∈ r.after (b.inside i) ∧ Undisturbed job.client since := by
    intro sawBefore unnamed stays
    obtain ⟨start, since, before, split, sameTable, own⟩ := watched.sighted i aim table w sawBefore due
    refine ⟨start, .answered i r m :: since, before, by rw [split, List.cons_append], sameTable,
      fun job isJob => ⟨stays _ (own job isJob).1, undisturbed_cons ?_ (own job isJob).2⟩⟩
    rw [unnamed]
    exact List.not_mem_nil
  generalize standing : b.stand i = k at move
  cases move with
  | quiet _ _ quiet =>
    exact earlier (standing.trans saw) (r.quiet_clients quiet)
      fun client inside => (Request.quiet_allowed _ r quiet).2.symm ▸ inside
  | load company go begins => exact absurd saw (Standing.begins_not_saw begins aim table)
  | enter _ client =>
    exact earlier (standing.trans saw) rfl fun other inside => List.mem_cons_of_mem _ inside
  | leave _ client nothing => cases due.symm.trans (nothing aim table saw)
  | read seen =>
    obtain ⟨rfl, rfl⟩ := Standing.saw.inj saw
    refine ⟨m, [], b.history, rfl, rfl, fun job isJob => ?_⟩
    subst isJob
    exact ⟨allowed, fun _ _ _ member => absurd member List.not_mem_nil⟩
  | write _ _ _ _ => cases saw

include same

theorem Watched.cycle_ends (writes : r.isWrite = true) :
    ∃ aim start since before, Cycle i r m b.history aim start since before := by
  generalize standing : b.stand i = k at move
  cases move with
  | quiet _ _ quiet => cases r <;> first | (cases writes; done) | cases quiet
  | load _ _ _ => cases writes
  | enter _ _ => cases writes
  | leave _ _ _ => cases writes
  | read aim => cases aim <;> cases writes
  | write aim table _ due =>
    obtain ⟨start, since, before, split, rfl, own⟩ := watched.sighted i aim table r standing due
    refine ⟨aim, start, since, before, split, due, fun job isJob => (own job isJob).2,
      fun client named => watched.entered client i (r.named_inside allowed named), ?_⟩
    intro accepted client named undisturbed tag notByHand
    have unnamed : client ∉ aim.read.clients := by simp [aim.read_clients]
    have byHand := watched.byHand client i _ start since before split unnamed undisturbed
    have coherent := watched.stores i aim.read start (by rw [split]; simp)
    rw [r.effect_accepted accepted, same]
    rw [same] at notByHand
    exact (aim.due_exact coherent due).written_late byHand tag notByHand

theorem Watched.answered
    (free : ∀ client, r = .enter client → ∀ k, client ∉ b.inside k) :
    (b.withAnswer i r now m).Watched := by
  have wasInside : ∀ client k, client ∈ Function.update b.inside i (r.after (b.inside i)) k →
      client ∈ b.inside k ∨ k = i ∧ r = .enter client := by
    intro client k member
    by_cases own : k = i
    · subst own
      rw [Function.update_self] at member
      exact (Request.mem_after member).imp_right fun enters => ⟨rfl, enters⟩
    · rw [Function.update_of_ne own] at member
      exact .inl member
  unfold withAnswer
  constructor
  · exact r.coherent_effect _ watched.coherent
  · intro k other n member
    rcases List.mem_cons.mp member with last | earlier
    · obtain ⟨rfl, rfl, rfl⟩ := Happening.answered.inj last
      rw [same]
      exact watched.coherent
    · exact watched.stores k other n earlier
  · intro client one other inOne inOther
    rcases wasInside client one inOne with wasOne | ⟨rfl, enters⟩ <;>
      rcases wasInside client other inOther with wasOther | ⟨rfl, entersToo⟩
    · exact watched.alone client one other wasOne wasOther
    · exact absurd wasOne (free client entersToo one)
    · exact absurd wasOther (free client enters other)
    · rfl
  · intro client k member
    rcases wasInside client k member with was | ⟨rfl, rfl⟩
    · obtain ⟨n, inside, outside, split, left⟩ := watched.entered client k was
      refine ⟨n, .answered i r m :: inside, outside, by rw [split, List.cons_append], ?_⟩
      intro other q n happened named
      rcases List.mem_cons.mp happened with last | earlier
      · obtain ⟨rfl, rfl, rfl⟩ := Happening.answered.inj last
        exact watched.named_alone allowed was named
      · exact left other q n earlier named
    · exact ⟨m, [], b.history, rfl, fun _ _ _ happened => absurd happened List.not_mem_nil⟩
  · intro client k q n since before split unnamed undisturbed
    rcases List.cons_eq_append_iff.mp split with ⟨rfl, last⟩ | ⟨rest, rfl, earlier⟩
    · obtain ⟨newest, rfl⟩ := List.cons.inj last
      obtain ⟨rfl, rfl, rfl⟩ := Happening.answered.inj newest
      rw [same]
      exact (ByHandOnly.refl client b.table).same_links (q.links_of_unnamed client unnamed b.table)
    · have kept := watched.byHand client k q n rest before earlier unnamed
        fun other p o member => undisturbed other p o (List.mem_cons_of_mem _ member)
      exact kept.same_links
        (r.links_of_unnamed client (undisturbed i r m List.mem_cons_self) b.table)
  · intro k aim table w saw due
    by_cases own : k = i
    · subst own
      dsimp only at saw ⊢
      rw [Function.update_self] at saw ⊢
      exact watched.sighted_next move allowed saw due
    · dsimp only at saw ⊢
      rw [Function.update_of_ne own] at saw ⊢
      obtain ⟨start, since, before, split, sameTable, mine⟩ := watched.sighted k aim table w saw due
      refine ⟨start, .answered i r m :: since, before, by rw [split, List.cons_append], sameTable,
        fun job isJob => ⟨(mine job isJob).1, undisturbed_cons (fun named => own ?_) (mine job isJob).2⟩⟩
      exact (watched.named_alone allowed (mine job isJob).1 named).symm
  · intro k w n later earlier split writes
    rcases List.cons_eq_append_iff.mp split with ⟨rfl, last⟩ | ⟨rest, _, sooner⟩
    · obtain ⟨newest, rfl⟩ := List.cons.inj last
      obtain ⟨rfl, rfl, rfl⟩ := Happening.answered.inj newest
      exact watched.cycle_ends same move allowed writes
    · exact watched.cycles k w n rest earlier sooner writes

end

theorem watched_step (watched : b.Watched) (step : Step source b next) : next.Watched := by
  cases step with
  | begin errand =>
    refine watched.aside [.began b.size errand] rfl (by simp)
      (errand.coherent_on_table b.table watched.coherent) ?_ rfl ?_
    · intro client before byHand
      cases errand with
      | assignManually other tag => exact byHand.assign_manually other tag
      | _ => exact byHand
    · exact fun i aim table saw => put_was saw (Standing.begins_not_saw errand.start_begins aim table)
  | answer i r now m bound same move allowed free => exact watched.answered same move allowed free
  | fork i jobs bound own calling =>
    refine watched.aside [] rfl (by simp) watched.coherent (fun _ _ byHand => byHand) rfl ?_
    intro k aim table saw
    dsimp only [withJobs] at saw
    rcases put_all_either b.size k (jobs.map fun job => .aiming (.one job))
      (Function.update b.stand i (.awaiting b.size jobs.length)) with old | new
    · rw [old] at saw
      exact put_was saw nofun
    · rw [saw] at new
      obtain ⟨job, _, clash⟩ := List.mem_map.mp new
      cases clash
  | join i first outcomes bound own waits told =>
    refine watched.aside [] rfl (by simp) watched.coherent (fun _ _ byHand => byHand) rfl ?_
    exact fun k aim table saw => put_was saw nofun
  | finish i result bound own tells =>
    exact watched.aside [.ended i result] rfl (by simp) watched.coherent
      (fun _ _ byHand => byHand) rfl fun _ _ _ saw => saw

theorem Reaches.watched {table : AssignmentTable} (coherent : Coherent table)
    (reached : Reaches source table b) : b.Watched := by
  induction reached with
  | start => exact watched_initial coherent
  | step _ step ih => exact watched_step ih step

theorem Watched.lasting (watched : b.Watched) (i : Nat) : (b.stand i).Lasting b.table := by
  intro aim table w saw due
  obtain ⟨m, since, before, split, rfl, own⟩ := watched.sighted i aim table w saw due
  refine ⟨watched.stores i aim.read m (by rw [split]; simp), fun job isJob => ?_⟩
  exact watched.byHand job.client i aim.read m since before split (by simp [aim.read_clients])
    (own job isJob).2

end Board

def Happening.writesTag {σ : Type} (i : Nat) (diff : TagDiff) (holds : σ → Bool) :
    Happening σ → Bool
  | .answered worker (.applyTagDiff found) store =>
      decide (worker = i) && decide (found = diff) && holds store
  | _ => false

def Happening.readsTag {σ : Type} (i : Nat) (tag : String) : Happening σ → Bool
  | .answered worker (.listTagLinks read) _ => decide (worker = i) && decide (read = tag)
  | _ => false

def Happening.reportsTag {σ : Type} (i : Nat) (diff : TagDiff) : Happening σ → Bool
  | .ended worker (.ok (.tagDiff found)) => decide (worker = i) && decide (found = diff)
  | _ => false

theorem Happening.writes_tag {σ : Type} {i : Nat} {diff : TagDiff} {holds : σ → Bool}
    {event : Happening σ} (tested : event.writesTag i diff holds = true) :
    ∃ store, event = .answered i (.applyTagDiff diff) store ∧ holds store = true := by
  unfold writesTag at tested
  split at tested
  · simp only [Bool.and_eq_true, decide_eq_true_eq] at tested
    obtain ⟨⟨rfl, rfl⟩, stored⟩ := tested
    exact ⟨_, rfl, stored⟩
  · cases tested

theorem Happening.reads_tag {σ : Type} {i : Nat} {tag : String} {event : Happening σ}
    (tested : event.readsTag i tag = true) :
    ∃ store, event = .answered i (.listTagLinks tag) store := by
  unfold readsTag at tested
  split at tested
  · simp only [Bool.and_eq_true, decide_eq_true_eq] at tested
    obtain ⟨rfl, rfl⟩ := tested
    exact ⟨_, rfl⟩
  · cases tested

theorem Happening.reports_tag {σ : Type} {i : Nat} {diff : TagDiff} {event : Happening σ}
    (tested : event.reportsTag i diff = true) : event = .ended i (.ok (.tagDiff diff)) := by
  unfold reportsTag at tested
  split at tested
  · simp only [Bool.and_eq_true, decide_eq_true_eq] at tested
    obtain ⟨rfl, rfl⟩ := tested
    rfl
  · cases tested

namespace Crew

theorem writes_end_cycles (settings : Settings) (source : Option String → Memory → Memory.Loading)
    (w : World Memory) (plain : w.store.rules = []) (coherent : Coherent w.store.table)
    (s : Crew Memory) (reached : Reaches (Scene.inMemory settings source) w s) :
    (∀ i r m later earlier, s.history = later ++ .answered i r m :: earlier → r.isWrite = true →
      ∃ aim start since before, Cycle i r m earlier aim start since before) ∧
    (∀ i result, .ended i result ∈ s.history → ∀ r ∈ Session.writes result,
      r.accepted = true ∧ ∃ k m, .answered k r m ∈ s.history ∧ s.owner k = i) := by
  obtain ⟨b, reachedBoard, shows⟩ := reached.shown plain
  constructor
  · rw [← shows.history]
    exact (reachedBoard.watched coherent).cycles
  · rw [← shows.history]
    intro i result ended r listed
    obtain ⟨accepted, k, m, happened, works⟩ := reachedBoard.reporting.ended i result ended r listed
    exact ⟨accepted, k, m, happened, (shows.owner k).symm.trans works⟩

theorem save_ends_cycle :
    let vip : Tag := ⟨"vip", some (.single "tier" (.known .equals) (.int 1) .null)⟩
    ∃ s, Reaches (Scene.inMemory Settings.default fun _ _ => (.ok [vip], []))
      (World.initial Memory.empty) s ∧
      ∃ m earlier aim start since before,
        s.history = .answered 0 (.applyDiff "c" ⟨["vip"], []⟩) m :: earlier ∧
        Cycle 0 (.applyDiff "c" ⟨["vip"], []⟩) m earlier aim start since before := by
  intro vip
  let save : Errand :=
    .evaluate (.mapping [(.text "id", .text "c"), (.text "tier", .int 1)]) none "client_saved"
  obtain ⟨s, reached, written⟩ := play_shows
    (Scene.inMemory Settings.default fun _ _ => (.ok [vip], [])) (World.initial Memory.empty)
    (.begin save :: List.replicate 7 (.turn 0))
    (fun s => (s.history.head?.any fun event => match event with
      | .answered 0 (.applyDiff "c" diff) _ => decide (diff = ⟨["vip"], []⟩)
      | _ => false) = true) (by decide +kernel)
  obtain ⟨event, last, isWrite⟩ := (Option.any_eq_true _ _).mp written
  split at isWrite
  · rename_i diff m
    obtain rfl := of_decide_eq_true isWrite
    obtain ⟨earlier, history⟩ := List.head?_eq_some_iff.mp last
    have cycles := (writes_end_cycles Settings.default (fun _ _ => (.ok [vip], []))
      (World.initial Memory.empty) rfl coherent_empty s reached).1
    obtain ⟨aim, start, since, before, cycle⟩ := cycles 0 _ m [] earlier history rfl
    exact ⟨s, reached, m, earlier, aim, start, since, before, history, cycle⟩
  · cases isWrite

theorem reevaluation_reports_known_link :
    let diff : TagDiff := ⟨"vip", ["a"], []⟩
    ∃ s, Reaches (Scene.inMemory Settings.default fun _ _ => (.ok [], []))
      (World.initial Memory.empty) s ∧
      (∃ later since before m n start,
        s.history = later ++ .answered 1 (.applyTagDiff diff) m :: (since ++
          .answered 1 (.listTagLinks "vip") start :: before) ∧
        .answered 0 (.applyTagDiff diff) n ∈ since ∧ HasAuto "a" "vip" m.table) ∧
      .ended 1 (.ok (.tagDiff diff)) ∈ s.history := by
  intro diff
  let evaluation : Errand := .reevaluate ⟨"vip", some (.single "tier" (.known .equals) (.int 1) .null)⟩
    [.mapping [(.text "id", .text "a"), (.text "tier", .int 1)]]
  let moves : List Move := [.begin evaluation, .begin evaluation, .turn 1] ++
    List.replicate 8 (.turn 0) ++ List.replicate 8 (.turn 1)
  obtain ⟨s, reached, wrote, wroteBefore, read, ended⟩ := play_shows
    (Scene.inMemory Settings.default fun _ _ => (.ok [], [])) (World.initial Memory.empty) moves
    (fun s =>
      s.history[4]?.any (Happening.writesTag 1 diff fun m => isAuto "a" "vip" m.table) = true ∧
      s.history[9]?.any (Happening.writesTag 0 diff fun _ => true) = true ∧
      s.history[12]?.any (Happening.readsTag 1 "vip") = true ∧
      s.history[0]?.any (Happening.reportsTag 1 diff) = true) (by decide +kernel)
  obtain ⟨_, atWrite, isWrite⟩ := (Option.any_eq_true _ _).mp wrote
  obtain ⟨m, rfl, isAuto⟩ := Happening.writes_tag isWrite
  obtain ⟨_, atOther, isOther⟩ := (Option.any_eq_true _ _).mp wroteBefore
  obtain ⟨n, rfl, _⟩ := Happening.writes_tag isOther
  obtain ⟨_, atRead, isRead⟩ := (Option.any_eq_true _ _).mp read
  obtain ⟨start, rfl⟩ := Happening.reads_tag isRead
  obtain ⟨_, atEnd, isEnd⟩ := (Option.any_eq_true _ _).mp ended
  obtain rfl := Happening.reports_tag isEnd
  have readLater : (s.history.drop 5)[7]? = some (.answered 1 (.listTagLinks "vip") start) := by
    rw [List.getElem?_drop]
    exact atRead
  have within : ((s.history.drop 5).take 7)[4]? = some (.answered 0 (.applyTagDiff diff) n) := by
    rw [List.getElem?_take_of_lt (by decide), List.getElem?_drop]
    exact atOther
  refine ⟨s, reached, ⟨s.history.take 4, _, (s.history.drop 5).drop 8, m, n, start, ?_,
    List.mem_of_getElem? within, ?_⟩, List.mem_of_getElem? atEnd⟩
  · rw [← split_at readLater]
    exact split_at atWrite
  · obtain ⟨a, linked, auto⟩ := (Option.any_eq_true _ _).mp isAuto
    exact ⟨a, linked, auto⟩

end Crew

end TagRules
