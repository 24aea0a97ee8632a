import Mathlib.Logic.Function.Basic
import TagRules.Proofs.Concurrent.Orderly
import TagRules.Proofs.Concurrent.Standing

/-! What a crew over the store in memory has done so far, without its programs. -/

set_option autoImplicit false

namespace TagRules

structure Board where
  table : AssignmentTable
  history : List (Happening Memory)
  size : Nat
  stand : Nat → Standing
  inside : Nat → List String
  owner : Nat → Nat

namespace Board

def initial (table : AssignmentTable) : Board := ⟨table, [], 0, fun _ => .apart, fun _ => [], id⟩

def putAll {α : Type} (first : Nat) (entries : List α) (f : Nat → α) : Nat → α :=
  fun k => if first ≤ k then (entries[k - first]?).getD (f k) else f k

theorem put_all_old {α : Type} {first k : Nat} (old : k < first) (entries : List α) (f : Nat → α) :
    putAll first entries f k = f k := if_neg (by omega)

theorem put_all_new {α : Type} {first k : Nat} (new : first ≤ k) (entries : List α) (f : Nat → α) :
    putAll first entries f k = (entries[k - first]?).getD (f k) := if_pos new

theorem put_all_beyond {α : Type} {first k : Nat} (entries : List α) (f : Nat → α)
    (beyond : first + entries.length ≤ k) : putAll first entries f k = f k := by
  rw [put_all_new (by omega), List.getElem?_eq_none (by omega), Option.getD_none]

theorem put_all_at {α : Type} {first k : Nat} (entries : List α) (f : Nat → α)
    (bound : k < entries.length) : putAll first entries f (first + k) = entries[k] := by
  rw [put_all_new (by omega), Nat.add_sub_cancel_left, List.getElem?_eq_getElem bound,
    Option.getD_some]

def withCall (errand : Errand) (b : Board) : Board :=
  { b with
    table := errand.onTable b.table
    history := .began b.size errand :: b.history
    size := b.size + 1
    stand := Function.update b.stand b.size errand.start }

def withAnswer (i : Nat) (r : Request) (now : Standing) (m : Memory) (b : Board) : Board :=
  { b with
    table := r.effect b.table
    history := .answered i r m :: b.history
    stand := Function.update b.stand i now
    inside := Function.update b.inside i (r.after (b.inside i)) }

def withJobs (i : Nat) (jobs : List Service.Job) (b : Board) : Board :=
  { b with
    size := b.size + jobs.length
    stand := putAll b.size (jobs.map fun job => .aiming (.one job))
      (Function.update b.stand i (.awaiting b.size jobs.length))
    owner := putAll b.size (jobs.map fun _ => i) b.owner }

inductive Step (source : Option String → Memory → Memory.Loading) (b : Board) : Board → Prop
  | begin (errand : Errand) : Step source b (b.withCall errand)
  | answer (i : Nat) (r : Request) (now : Standing) (m : Memory) (bound : i < b.size)
      (same : m.table = b.table) (move : Standing.Move source m (b.stand i) r now)
      (allowed : r.Allowed (b.inside i))
      (free : ∀ client, r = .enter client → ∀ k, client ∉ b.inside k) :
      Step source b (b.withAnswer i r now m)
  | fork (i : Nat) (jobs : List Service.Job) (bound : i < b.size) (own : b.owner i = i)
      (calling : b.stand i = .calling jobs) : Step source b (b.withJobs i jobs)
  | join (i first : Nat) (outcomes : List Outcome) (bound : i < b.size) (own : b.owner i = i)
      (waits : b.stand i = .awaiting first outcomes.length)
      (told : ∀ k outcome, outcomes[k]? = some outcome →
        (b.stand (first + k)).Tells outcome.writes) :
      Step source b { b with stand := Function.update b.stand i (.gathered outcomes) }
  | finish (i : Nat) (result : Session.Result) (bound : i < b.size) (own : b.owner i = i)
      (tells : (b.stand i).Tells (Session.writes result)) :
      Step source b { b with history := .ended i result :: b.history }

inductive Reaches (source : Option String → Memory → Memory.Loading) (table : AssignmentTable) :
    Board → Prop
  | start : Reaches source table (initial table)
  | step {b next : Board} (reached : Reaches source table b) (step : Step source b next) :
      Reaches source table next

end Board

section

variable (source : Option String → Memory → Memory.Loading)

def Doing.Runs (k : Standing) : Doing → Prop
  | .call rest =>
      rest.Runs source (fun now outcome => now.Tells outcome.writes)
        (fun now result => now.Tells (Session.writes result)) k
  | .joining first count next =>
      k = .awaiting first count ∧ ∀ outcomes, (next outcomes).Runs source
        (fun now outcome => now.Tells outcome.writes)
        (fun now result => now.Tells (Session.writes result)) (.gathered outcomes)
  | .job _ _ _ rest => rest.Runs source (fun now outcome => now.Tells outcome.writes) k
  | .ended result => k.Tells (Session.writes result)

def Doing.owner (i : Nat) : Doing → Nat
  | .job owner _ _ _ => owner
  | _ => i

def Crew.owner (s : Crew Memory) (i : Nat) : Nat :=
  match s.workers[i]? with
  | some w => w.doing.owner i
  | none => i

structure Crew.Shows (s : Crew Memory) (b : Board) : Prop where
  plain : s.world.store.rules = []
  table : b.table = s.world.store.table
  history : b.history = s.history
  size : b.size = s.workers.length
  inside : ∀ i, b.inside i = s.inside i
  owner : ∀ i, b.owner i = s.owner i
  runs : ∀ i (w : Worker), s.workers[i]? = some w → w.doing.Runs source (b.stand i)

variable {source}

theorem Doing.Asks.runs {doing : Doing} {r : Request} {next : r.Reply → Doing} {k : Standing}
    (asks : doing.Asks r next) (runs : doing.Runs source k) (m : Memory) (plain : m.rules = []) :
    ∃ now, Standing.Move source m k r now ∧ (next (r.answer source m)).Runs source now := by
  cases asks with
  | call r next => exact runs m plain
  | job owner limit r next => exact runs m plain

theorem Doing.Asks.owner {doing : Doing} {r : Request} {next : r.Reply → Doing}
    (asks : doing.Asks r next) (reply : r.Reply) (i : Nat) :
    (next reply).owner i = doing.owner i := by
  cases asks <;> rfl

namespace Crew

variable {s next : Crew Memory} {b now : Board}

theorem owner_of {i : Nat} {w : Worker} (here : s.workers[i]? = some w) :
    s.owner i = w.doing.owner i := by simp [owner, here]

theorem Shows.changed (shows : s.Shows source b) {i : Nat} {w : Worker}
    (changed : Changed s.workers next.workers i w []) (plain : next.world.store.rules = [])
    (table : now.table = next.world.store.table) (history : now.history = next.history)
    (size : now.size = next.workers.length)
    (inside : ∀ k, now.inside k = if k = i then w.inside else b.inside k)
    (owner : ∀ k, now.owner k = if k = i then w.doing.owner i else b.owner k)
    (stand : ∀ k, k ≠ i → now.stand k = b.stand k) (runs : w.doing.Runs source (now.stand i)) :
    next.Shows source now := by
  refine ⟨plain, table, history, size, fun k => ?_, fun k => ?_, fun k other found => ?_⟩
  · rw [inside, (stance_changed changed (by simp) k).1, shows.inside]
  · rw [owner]
    by_cases same : k = i
    · rw [if_pos same, same, owner_of changed.own]
    · rw [if_neg same, shows.owner]
      unfold Crew.owner
      cases found : s.workers[k]? with
      | some other => rw [changed.kept k other same found]
      | none =>
        cases foundNow : next.workers[k]? with
        | none => rfl
        | some other =>
          rcases changed.known k other same foundNow with old | ⟨_, isJob⟩
          · cases found.symm.trans old
          · cases isJob
  · by_cases same : k = i
    · subst same
      obtain rfl := Option.some.inj (changed.own.symm.trans found)
      exact runs
    · rcases changed.known k other same found with old | ⟨_, isJob⟩
      · rw [stand k same]
        exact shows.runs k other old
      · cases isJob

theorem Shows.inside_at (shows : s.Shows source b) {i : Nat} {w : Worker}
    (here : s.workers[i]? = some w) : b.inside i = w.inside := by
  rw [shows.inside, (stance_of here).1]

theorem Shows.owner_at (shows : s.Shows source b) {i : Nat} {w : Worker}
    (here : s.workers[i]? = some w) : b.owner i = w.doing.owner i := by
  rw [shows.owner, owner_of here]

theorem Shows.bound (shows : s.Shows source b) {i : Nat} {w : Worker}
    (here : s.workers[i]? = some w) : i < b.size := by
  rw [shows.size]
  exact (List.getElem?_eq_some_iff.mp here).1

theorem Shows.goes_on (shows : s.Shows source b) {i : Nat} {w after : Worker} {k : Standing}
    (here : s.workers[i]? = some w) (changed : Changed s.workers next.workers i after [])
    (world : next.world.store = s.world.store) (history : now.history = next.history)
    (same : now.table = b.table ∧ now.size = b.size ∧ now.inside = b.inside ∧ now.owner = b.owner)
    (length : next.workers.length = s.workers.length) (inside : after.inside = w.inside)
    (owner : after.doing.owner i = w.doing.owner i) (stand : now.stand = Function.update b.stand i k)
    (runs : after.doing.Runs source k) : next.Shows source now := by
  obtain ⟨sameTable, sameSize, sameInside, sameOwner⟩ := same
  refine shows.changed changed (world ▸ shows.plain) ?_ history ?_ (fun other => ?_) (fun other => ?_)
    (fun other different => ?_) ?_
  · rw [sameTable, world, shows.table]
  · rw [sameSize, length, shows.size]
  · rw [sameInside]
    by_cases own : other = i
    · rw [if_pos own, own, inside, shows.inside_at here]
    · rw [if_neg own]
  · rw [sameOwner]
    by_cases own : other = i
    · rw [if_pos own, own, owner, shows.owner_at here]
    · rw [if_neg own]
  · rw [stand, Function.update_of_ne different]
  · rw [stand, Function.update_self]
    exact runs

theorem begin_shown {settings : Settings} (shows : s.Shows source b) (errand : Errand) :
    Shows source
      { s with
        world := { s.world with store := errand.outset (Scene.inMemory settings source) s.world.store }
        workers := s.workers ++ [⟨[], .call (errand.routine settings), [], none⟩]
        history := .began s.workers.length errand :: s.history } (b.withCall errand) := by
  have outside : b.inside s.workers.length = [] := by simp [shows.inside, Crew.inside]
  have own : b.owner s.workers.length = s.workers.length := by simp [shows.owner, Crew.owner]
  unfold Board.withCall
  refine shows.changed (changed_append s.workers _) ?_ ?_ ?_ ?_ (fun k => ?_) (fun k => ?_)
    (fun k different => ?_) ?_
  · cases errand <;> exact shows.plain
  · cases errand <;> simp [Errand.onTable, Errand.outset, Scene.inMemory, shows.table]
  · simp [shows.size, shows.history]
  · simp [shows.size]
  · by_cases same : k = s.workers.length <;> simp [same, outside]
  · by_cases same : k = s.workers.length <;> simp [same, own, Doing.owner]
  · exact Function.update_of_ne (shows.size ▸ different) _ _
  · rw [← shows.size]
    simp only [Function.update_self]
    exact errand.routine_runs settings source

section

variable (s : Crew Memory) (i : Nat) (w : Worker) (limit : Nat) (programs : List (Program Outcome))
  (go : List Outcome → Routine Session.Result)

def handOut : Crew Memory :=
  { s with
    workers :=
      s.workers.set i { w with doing := .joining s.workers.length programs.length go } ++
        programs.map fun job => ⟨w.contexts, .job i limit false job, [], none⟩ }

theorem hand_out_own (bound : i < s.workers.length) :
    (s.handOut i w limit programs go).workers[i]? =
      some { w with doing := .joining s.workers.length programs.length go } := by
  rw [handOut, List.getElem?_append_left (by simpa using bound), List.getElem?_set_self bound]

theorem hand_out_old {k : Nat} (old : k < s.workers.length) (other : k ≠ i) :
    (s.handOut i w limit programs go).workers[k]? = s.workers[k]? := by
  rw [handOut, List.getElem?_append_left (by simpa using old), List.getElem?_set_ne (Ne.symm other)]

theorem hand_out_new (j : Nat) :
    (s.handOut i w limit programs go).workers[s.workers.length + j]? =
      programs[j]?.map fun job => ⟨w.contexts, .job i limit false job, [], none⟩ := by
  rw [handOut, List.getElem?_append_right (by simp), List.length_set, Nat.add_sub_cancel_left,
    List.getElem?_map]

end

section

variable {i : Nat} {w : Worker} {limit : Nat} {programs : List (Program Outcome)}
  {go : List Outcome → Routine Session.Result} {jobs : List Service.Job}
  (shows : s.Shows source b) (here : s.workers[i]? = some w) (length : jobs.length = programs.length)

include shows here length

theorem owner_handed_out (own : s.owner i = i) (k : Nat) :
    (b.withJobs i jobs).owner k = (s.handOut i w limit programs go).owner k := by
  have bound := (List.getElem?_eq_some_iff.mp here).1
  dsimp only [Board.withJobs]
  rw [shows.size]
  by_cases old : k < s.workers.length
  · rw [Board.put_all_old old, shows.owner]
    by_cases same : k = i
    · subst same
      rw [own, owner_of (s.hand_out_own k w limit programs go bound)]
      rfl
    · unfold Crew.owner
      rw [s.hand_out_old i w limit programs go old same]
  · obtain ⟨j, rfl⟩ := Nat.exists_eq_add_of_le (Nat.le_of_not_lt old)
    unfold Crew.owner
    rw [hand_out_new]
    cases isProgram : programs[j]? with
    | none =>
      have noJob : jobs.length ≤ j := length ▸ List.getElem?_eq_none_iff.mp isProgram
      rw [Board.put_all_beyond _ _ (by simpa using noJob), shows.owner]
      simp [Crew.owner]
    | some program =>
      have inList : j < jobs.length := length ▸ (List.getElem?_eq_some_iff.mp isProgram).1
      rw [Board.put_all_at _ _ (by simpa using inList), List.getElem_map]
      rfl

theorem runs_handed_out
    (each : List.Forall₂ (fun job program => program.Runs source
      (fun now outcome => now.Tells outcome.writes) (.aiming (.one job))) jobs programs)
    (later : ∀ outcomes, (go outcomes).Runs source (fun now outcome => now.Tells outcome.writes)
      (fun now result => now.Tells (Session.writes result)) (.gathered outcomes))
    (k : Nat) (other : Worker) (found : (s.handOut i w limit programs go).workers[k]? = some other) :
    other.doing.Runs source ((b.withJobs i jobs).stand k) := by
  have bound := (List.getElem?_eq_some_iff.mp here).1
  dsimp only [Board.withJobs]
  rw [shows.size]
  by_cases old : k < s.workers.length
  · rw [Board.put_all_old old]
    by_cases same : k = i
    · subst same
      rw [s.hand_out_own k w limit programs go bound] at found
      obtain rfl := Option.some.inj found
      rw [Function.update_self]
      exact ⟨by rw [length], later⟩
    · rw [s.hand_out_old i w limit programs go old same] at found
      rw [Function.update_of_ne same]
      exact shows.runs k other found
  · obtain ⟨j, rfl⟩ := Nat.exists_eq_add_of_le (Nat.le_of_not_lt old)
    rw [hand_out_new] at found
    obtain ⟨program, isProgram, rfl⟩ := Option.map_eq_some_iff.mp found
    obtain ⟨inPrograms, rfl⟩ := List.getElem?_eq_some_iff.mp isProgram
    have inList : j < jobs.length := length ▸ inPrograms
    rw [Board.put_all_at _ _ (by simpa using inList), List.getElem_map]
    exact (List.forall₂_iff_get.mp each).2 j inList inPrograms

end

theorem fork_shown (shows : s.Shows source b) {i : Nat} {w : Worker} {limit : Nat}
    {programs : List (Program Outcome)} {go : List Outcome → Routine Session.Result}
    (here : s.workers[i]? = some w) (hands : w.doing = .call (.each limit programs go)) :
    ∃ jobs, b.stand i = .calling jobs ∧
      (s.handOut i w limit programs go).Shows source (b.withJobs i jobs) := by
  have runs := shows.runs i w here
  rw [hands] at runs
  obtain ⟨jobs, calling, each, later⟩ := runs
  have length := each.length_eq
  have own : s.owner i = i := by
    rw [owner_of here, hands]
    rfl
  refine ⟨jobs, calling, shows.plain, shows.table, shows.history, ?_, fun k => ?_,
    owner_handed_out shows here length own, runs_handed_out shows here length each later⟩
  · simp [Board.withJobs, handOut, shows.size, length]
  · let waiting : Worker := { w with doing := .joining s.workers.length programs.length go }
    have changed : Changed s.workers (s.handOut i w limit programs go).workers i waiting
      (programs.map fun job => ⟨w.contexts, .job i limit false job, [], none⟩) :=
      changed_set_append here waiting _
    rw [(stance_changed changed (by simp) k).1]
    by_cases same : k = i
    · rw [if_pos same, same]
      exact (shows.inside_at here : b.inside i = w.inside)
    · rw [if_neg same]
      exact shows.inside k

theorem Shows.allowed {least : Nat} (orderly : s.Orderly least) (shows : s.Shows source b) {i : Nat}
    {w : Worker} {r : Request} {go : r.Reply → Doing} (here : s.workers[i]? = some w)
    (asks : w.doing.Asks r go) : r.Allowed (b.inside i) := by
  rw [shows.inside_at here]
  exact (asks.guarded (orderly.guarded w (List.mem_of_getElem? here))).1

theorem Shows.with_answer (shows : s.Shows source b) {i : Nat} {w after : Worker} {r : Request}
    {k : Standing} (here : s.workers[i]? = some w)
    (changed : Changed s.workers next.workers i after []) (plain : next.world.store.rules = [])
    (table : next.world.store.table = r.effect s.world.store.table)
    (history : next.history = .answered i r s.world.store :: s.history)
    (length : next.workers.length = s.workers.length) (inside : after.inside = r.after w.inside)
    (owner : after.doing.owner i = w.doing.owner i) (runs : after.doing.Runs source k) :
    next.Shows source (b.withAnswer i r k s.world.store) := by
  unfold Board.withAnswer
  refine shows.changed changed plain ?_ ?_ ?_ (fun other => ?_) (fun other => ?_)
    (fun other different => Function.update_of_ne different _ _) ?_
  · rw [table, shows.table]
  · rw [history, shows.history]
  · rw [length, shows.size]
  · dsimp only
    by_cases own : other = i
    · rw [if_pos own, own, Function.update_self, shows.inside_at here, inside]
    · rw [if_neg own, Function.update_of_ne own]
  · by_cases own : other = i
    · rw [if_pos own, own, shows.owner_at here, owner]
    · rw [if_neg own]
  · dsimp only
    rw [Function.update_self]
    exact runs

theorem answer_shown {settings : Settings} {least : Nat} (orderly : s.Orderly least)
    (shows : s.Shows source b) {i : Nat} {w : Worker} {r : Request} {go : r.Reply → Doing}
    {reply : r.Reply} {world : World Memory} (here : s.workers[i]? = some w)
    (asks : w.doing.Asks r go) (atOnce : ∀ client, r ≠ .enter client)
    (answered : World.respond (Scene.inMemory settings source).collaborators i r
      { s.world with contexts := w.contexts } = (reply, world)) (writer : Option Nat) :
    ∃ now, Board.Step source b now ∧ Shows source
      { world := world
        writer := writer
        workers := s.workers.set i ⟨world.contexts, go reply, r.after w.inside, w.awaits⟩
        history := .answered i r s.world.store :: s.history } now := by
  obtain ⟨k, move, runs⟩ := asks.runs (shows.runs i w here) s.world.store shows.plain
  obtain ⟨given, store⟩ := World.respond_in_memory settings source i r
    { s.world with contexts := w.contexts } shows.plain
  rw [answered] at given store
  dsimp only at given store
  refine ⟨_, .answer i r k s.world.store (shows.bound here) shows.table.symm move
    (shows.allowed orderly here asks) (fun client same => absurd same (atOnce client)),
    shows.with_answer here (changed_set here _) ?_ ?_ rfl (by simp) rfl (asks.owner reply i)
      (given ▸ runs)⟩
  · rw [store]
    exact shows.plain
  · rw [store]

theorem go_in_shown {least : Nat} (orderly : s.Orderly least) (shows : s.Shows source b) {i : Nat}
    {w : Worker} {client : String} {go : Unit → Doing} (here : s.workers[i]? = some w)
    (asks : w.doing.Asks (.enter client) go) (waits : w.awaits = some client)
    (holds : s.world.locks.isHolder client i = true) :
    ∃ now, Board.Step source b now ∧ Shows source
      { s with
        workers := s.workers.set i ⟨w.contexts, go (), client :: w.inside, none⟩
        history := .answered i (.enter client) s.world.store :: s.history } now := by
  obtain ⟨k, move, runs⟩ := asks.runs (shows.runs i w here) s.world.store shows.plain
  have first := (orderly.placed.built.holder_iff client i).mp holds
  have free : ∀ other, Request.enter client = .enter other → ∀ k, other ∉ b.inside k := by
    intro other same k member
    obtain rfl := Request.enter.inj same
    rw [shows.inside] at member
    obtain rfl := Option.some.inj ((orderly.placed.first client k member).symm.trans first)
    exact orderly.placed.outside client k (by rw [(stance_of here).2, waits]) member
  refine ⟨_, .answer i (.enter client) k s.world.store (shows.bound here) shows.table.symm move
    (shows.allowed orderly here asks) free, shows.with_answer here (changed_set here _) shows.plain rfl
      rfl (by simp) rfl (asks.owner () i) runs⟩

theorem step_shown {settings : Settings} {least : Nat} (orderly : s.Orderly least)
    (shows : s.Shows source b) (step : Step (Scene.inMemory settings source) s next) :
    ∃ now, (now = b ∨ Board.Step source b now) ∧ next.Shows source now := by
  cases step with
  | begin errand => exact ⟨_, .inr (.begin errand), begin_shown shows errand⟩
  | meanwhile store allowed =>
    exact ⟨b, .inl rfl, allowed.2.trans shows.plain, shows.table.trans allowed.1.symm, shows.history,
      shows.size, shows.inside, shows.owner, shows.runs⟩
  | answer i w r go reply world here asks atOnce mayWrite answered =>
    obtain ⟨now, step, shown⟩ := answer_shown orderly shows here asks atOnce answered _
    exact ⟨now, .inr step, shown⟩
  | seize i w r go here asks writes free =>
    exact ⟨b, .inl rfl, shows.plain, shows.table, shows.history, shows.size, shows.inside, shows.owner,
      shows.runs⟩
  | signUp i w client go here asks fresh =>
    exact ⟨b, .inl rfl, shows.goes_on here (changed_set here _) rfl shows.history
      ⟨rfl, rfl, rfl, rfl⟩ (by simp) rfl rfl (Function.update_eq_self i b.stand).symm
      (shows.runs i w here)⟩
  | goIn i w client go here asks waits holds =>
    obtain ⟨now, step, shown⟩ := go_in_shown orderly shows here asks waits holds
    exact ⟨now, .inr step, shown⟩
  | finish i w result here done =>
    have runs := shows.runs i w here
    have own := shows.owner_at here
    rw [done] at runs own
    refine ⟨_, .inr (.finish i result (shows.bound here) own runs), shows.goes_on here
      (changed_set here _) rfl ?_ ⟨rfl, rfl, rfl, rfl⟩ (by simp) rfl (by rw [done]; rfl)
        (Function.update_eq_self i b.stand).symm runs⟩
    rw [shows.history]
  | fork i w limit jobs go here hands =>
    obtain ⟨_, calling, shown⟩ := fork_shown shows here hands
    have own := shows.owner_at here
    rw [hands] at own
    exact ⟨_, .inr (.fork i _ (shows.bound here) own calling), shown⟩
  | start i w owner limit job here waits room =>
    have runs := shows.runs i w here
    rw [waits] at runs
    exact ⟨b, .inl rfl, shows.goes_on here (changed_set here _) rfl shows.history
      ⟨rfl, rfl, rfl, rfl⟩ (by simp [Crew.put]) rfl (by rw [waits]; rfl)
      (Function.update_eq_self i b.stand).symm runs⟩
  | join i w first go outcomes here waits ended =>
    have runs := shows.runs i w here
    have own := shows.owner_at here
    rw [waits] at runs own
    obtain ⟨awaiting, later⟩ := runs
    refine ⟨_, .inr (.join i first outcomes (shows.bound here) own awaiting fun k outcome listed => ?_),
      shows.goes_on here (changed_set here _) rfl shows.history ⟨rfl, rfl, rfl, rfl⟩
        (by simp [Crew.put]) rfl (by rw [waits]; rfl) rfl (later outcomes)⟩
    obtain ⟨job, owner, limit, there, done⟩ := ended k outcome listed
    have told := shows.runs _ job there
    rw [done] at told
    exact told

theorem Reaches.shown {settings : Settings} {w : World Memory} (plain : w.store.rules = [])
    (reached : Reaches (Scene.inMemory settings source) w s) :
    ∃ b, Board.Reaches source w.store.table b ∧ s.Shows source b := by
  induction reached with
  | start =>
    refine ⟨_, .start, plain, rfl, rfl, rfl, fun i => ?_, fun i => ?_, by simp [Crew.initial]⟩
    · simp [Board.initial, Crew.inside, Crew.initial]
    · simp [Board.initial, Crew.owner, Crew.initial]
  | step earlier step ih =>
    obtain ⟨b, reachedBoard, shows⟩ := ih
    obtain ⟨now, same | next, shown⟩ := step_shown (earlier.orderly (Nat.zero_le _)) shows step
    · exact ⟨now, same ▸ reachedBoard, shown⟩
    · exact ⟨now, .step reachedBoard next, shown⟩

end Crew

end

end TagRules
