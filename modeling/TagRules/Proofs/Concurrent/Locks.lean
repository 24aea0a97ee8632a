import TagRules.Proofs.Concurrent.Registry

/-! The lock table that runs serves every lock of the registry in the order of arrival. -/

set_option autoImplicit false

namespace TagRules

namespace Pass

def isWaiting (client : String) (pass : Pass) : Bool := pass.isOf client && !pass.inside

end Pass

namespace Registry

def insideTasks (client : String) (passes : List Pass) : List Nat :=
  (passes.filter (Pass.isInside client)).map (·.task)

def waitingTasks (client : String) (passes : List Pass) : List Nat :=
  (passes.filter (Pass.isWaiting client)).map (·.task)

theorem count_inside_waiting (client : String) (passes : List Pass) :
    passes.countP (Pass.isOf client) =
      (insideTasks client passes).length + (waitingTasks client passes).length := by
  induction passes with
  | nil => rfl
  | cons pass rest ih =>
    simp only [insideTasks, waitingTasks, List.length_map, ← List.countP_eq_length_filter,
      List.countP_cons] at ih ⊢
    cases own : pass.isOf client <;> cases inside : pass.inside <;>
      simp [Pass.isInside, Pass.isWaiting, own, inside] at ih ⊢ <;> omega

section

variable {r : Registry} (sound : Sound r)

include sound

-- Where nobody of a client is inside, nobody holds the lock object of its tasks.
theorem Sound.free_of_nobody (pass : Pass) (member : pass ∈ r.passes)
    (nobody : insideTasks pass.client r.passes = []) :
    ∀ other ∈ r.passes, other.lock = pass.lock → other.inside = false := by
  intro other listed sameLock
  have one := sound.registered other listed
  rw [sameLock] at one
  have sameClient := sound.apart other.client pass.client pass.lock one (sound.registered pass member)
  rw [insideTasks, List.map_eq_nil_iff, List.filter_eq_nil_iff] at nobody
  simpa [Pass.isInside, Pass.isOf, sameClient] using nobody other listed

end

section

variable (client : String)

@[simp] theorem inside_tasks_nil : insideTasks client [] = [] := rfl

@[simp] theorem waiting_tasks_nil : waitingTasks client [] = [] := rfl

@[simp] theorem inside_tasks_append (before after : List Pass) :
    insideTasks client (before ++ after) = insideTasks client before ++ insideTasks client after := by
  simp [insideTasks]

@[simp] theorem waiting_tasks_append (before after : List Pass) :
    waitingTasks client (before ++ after) =
      waitingTasks client before ++ waitingTasks client after := by
  simp [waitingTasks]

@[simp] theorem inside_tasks_cons (pass : Pass) (rest : List Pass) :
    insideTasks client (pass :: rest) =
      if pass.client = client ∧ pass.inside = true then pass.task :: insideTasks client rest
      else insideTasks client rest := by
  simp only [insideTasks, List.filter_cons, Pass.isInside, Pass.isOf, Bool.and_eq_true,
    decide_eq_true_eq]
  split <;> rfl

@[simp] theorem waiting_tasks_cons (pass : Pass) (rest : List Pass) :
    waitingTasks client (pass :: rest) =
      if pass.client = client ∧ pass.inside = false then pass.task :: waitingTasks client rest
      else waitingTasks client rest := by
  simp only [waitingTasks, List.filter_cons, Pass.isWaiting, Pass.isOf, Bool.and_eq_true,
    decide_eq_true_eq, Bool.not_eq_true']
  split <;> rfl

end

theorem arrive_spec (r : Registry) (task : Nat) (client : String) :
    ∃ lock, (r.arrive task client).passes = r.passes ++ [⟨task, client, lock, false⟩] ∧
      (r.arrive task client).users =
        Dictionary.put client ((Dictionary.get? client r.users).getD 0 + 1) r.users ∧
      (r.arrive task client).locks.keys =
        if client ∈ r.locks.keys then r.locks.keys else r.locks.keys ++ [client] := by
  cases found : Dictionary.get? client r.locks with
  | some lock =>
    have known := (Dictionary.mem_keys_iff client r.locks).mpr ⟨lock, found⟩
    exact ⟨lock, by simp [arrive, found, known]⟩
  | none => exact ⟨r.made, by simp [arrive, found, Dictionary.keys_put]⟩

structure Serves (lock : ClientLock) (client : String) (passes : List Pass) : Prop where
  holder : lock.holder.toList = insideTasks client passes
  waiting : lock.waiting = waitingTasks client passes
  prompt : lock.holder = none → lock.waiting = []

theorem serves_nobody (client : String) (passes : List Pass)
    (nobody : passes.countP (Pass.isOf client) = 0) : Serves ⟨none, []⟩ client passes := by
  rw [count_inside_waiting] at nobody
  have inside := List.length_eq_zero_iff.mp (Nat.eq_zero_of_add_eq_zero_right nobody)
  have waiting := List.length_eq_zero_iff.mp (Nat.eq_zero_of_add_eq_zero_left nobody)
  exact ⟨inside.symm, waiting.symm, fun _ => rfl⟩

theorem welcome_next {r : Registry} (reached : Reachable r) (client : String)
    (nobody : insideTasks client r.passes = []) :
    let queue := waitingTasks client r.passes
    ∃ next, Reachable next ∧ next.users = r.users ∧ next.locks = r.locks ∧
      Serves ⟨queue.head?, queue.tail⟩ client next.passes ∧
      ∀ other, client ≠ other → insideTasks other next.passes = insideTasks other r.passes ∧
        waitingTasks other next.passes = waitingTasks other r.passes := by
  dsimp only
  cases waiting : r.passes.filter (Pass.isWaiting client) with
  | nil =>
    have queue : waitingTasks client r.passes = [] := by rw [waitingTasks, waiting]; rfl
    refine ⟨r, reached, rfl, rfl, ?_, fun _ _ => ⟨rfl, rfl⟩⟩
    rw [queue]
    exact ⟨nobody.symm, queue.symm, fun _ => rfl⟩
  | cons pass later =>
    have queue : waitingTasks client r.passes = pass.task :: later.map (·.task) := by
      rw [waitingTasks, waiting]
      rfl
    obtain ⟨before, after, listed, noneBefore, waits, restWaits⟩ := List.filter_eq_cons_iff.mp waiting
    obtain ⟨rfl, outside⟩ : pass.client = client ∧ pass.inside = false := by
      simpa [Pass.isWaiting, Pass.isOf] using waits
    have free := reached.sound.free_of_nobody pass (by simp [listed]) nobody
    obtain ⟨nobodyBefore, nobodyAfter⟩ : insideTasks pass.client before = [] ∧
        insideTasks pass.client after = [] := by
      simpa [listed, outside] using nobody
    have noneWaits : waitingTasks pass.client before = [] := by
      simpa [waitingTasks] using noneBefore
    have restTasks : waitingTasks pass.client after = later.map (·.task) := by
      rw [waitingTasks, restWaits]
    refine ⟨_, .step reached (.welcome before after pass listed outside free), rfl, rfl, ?_, ?_⟩
    · rw [queue]
      exact ⟨by simp [nobodyBefore, nobodyAfter], by simp [noneWaits, restTasks], by simp⟩
    · intro other different
      simp [listed, different]

end Registry

namespace LockTable

open Registry

def queue (client : String) (t : LockTable) : List Nat :=
  (t.lockOf client).holder.toList ++ (t.lockOf client).waiting

inductive Built : LockTable → Prop
  | empty : Built empty
  | enter {t : LockTable} (client : String) (task : Nat) (built : Built t) : Built (t.enter client task)
  | leave {t : LockTable} (client : String) (task : Nat) (built : Built t)
      (holds : t.isHolder client task = true) : Built (t.leave client)
  | abandon {t : LockTable} (client : String) (task : Nat) (built : Built t)
      (queued : task ∈ t.queue client) : Built (t.abandon client task)

structure Shows (t : LockTable) (r : Registry) : Prop where
  users : t.users = r.users
  keys : t.locks.keys = r.locks.keys
  served : ∀ client, Serves (t.lockOf client) client r.passes

theorem lock_of_put (client other : String) (lock : ClientLock) (t : LockTable) :
    lockOf other { t with locks := Dictionary.put client lock t.locks } =
      if client = other then lock else t.lockOf other := by
  simp only [lockOf, Dictionary.get_put]
  split <;> rfl

theorem lock_of_enter (client other : String) (task : Nat) (t : LockTable) :
    lockOf other (t.enter client task) =
      if client = other then
        if (t.lockOf client).holder.isNone && (t.lockOf client).waiting.isEmpty then ⟨some task, []⟩
        else { t.lockOf client with waiting := (t.lockOf client).waiting ++ [task] }
      else t.lockOf other := by
  simp only [enter, lockOf, Dictionary.get_put]
  by_cases same : client = other <;> simp [same]

theorem lock_of_drop (client other : String) (t : LockTable) :
    lockOf other (t.drop client) =
      if client = other ∧ t.countOf client ≤ 1 then ⟨none, []⟩ else t.lockOf other := by
  unfold drop
  by_cases last : t.countOf client - 1 = 0
  · have few : t.countOf client ≤ 1 := by omega
    rw [if_pos last]
    simp only [few, and_true, lockOf, Dictionary.get_erase]
    split <;> rfl
  · have many : ¬ t.countOf client ≤ 1 := by omega
    simp [last, many, lockOf]

theorem queue_enter (client other : String) (task : Nat) (t : LockTable) :
    (t.enter client task).queue other =
      if client = other then t.queue other ++ [task] else t.queue other := by
  unfold queue
  rw [lock_of_enter]
  by_cases same : client = other
  · subst same
    obtain ⟨holder, waiting⟩ := t.lockOf client
    cases holder <;> cases waiting <;> simp
  · simp [same]

theorem depart_shown {t : LockTable} {r : Registry} (shows : t.Shows r) (reached : Reachable r)
    (before after : List Pass) (pass : Pass) (listed : r.passes = before ++ pass :: after)
    (lock : ClientLock) :
    let shorter : LockTable := ⟨Dictionary.put pass.client lock t.locks, t.users⟩
    ∃ d, Reachable d ∧ d.passes = before ++ after ∧ (shorter.drop pass.client).users = d.users ∧
      (shorter.drop pass.client).locks.keys = d.locks.keys := by
  intro shorter
  have sound := reached.sound
  have member : pass ∈ r.passes := by simp [listed]
  have dropped := sound.drop_eq pass member
  have counted : shorter.countOf pass.client = r.passes.countP (Pass.isOf pass.client) := by
    rw [← sound.count_arrived, ← shows.users]
    rfl
  have keys : shorter.locks.keys = r.locks.keys := by
    rw [← shows.keys]
    refine (Dictionary.keys_put _ _ _).trans (if_pos ?_)
    rw [shows.keys]
    exact (Dictionary.mem_keys_iff _ _).mpr ⟨_, sound.registered pass member⟩
  have users : shorter.users = r.users := shows.users
  have someone := (sound.locked_iff pass.client).mp ⟨_, sound.registered pass member⟩
  refine ⟨_, .step reached (.depart before after pass _ listed dropped), rfl, ?_⟩
  by_cases last : r.passes.countP (Pass.isOf pass.client) = 1
  · simp [LockTable.drop, counted, last, Dictionary.keys_erase, users, keys]
  · have many : r.passes.countP (Pass.isOf pass.client) - 1 ≠ 0 := by omega
    simp [LockTable.drop, counted, last, many, users, keys]

theorem shows_enter {t : LockTable} {r : Registry} (shows : t.Shows r) (reached : Reachable r)
    (client : String) (task : Nat) : ∃ next, Reachable next ∧ (t.enter client task).Shows next := by
  obtain ⟨lock, passes, users, keys⟩ := arrive_spec r task client
  have arrived : Reachable (r.arrive task client) := .step reached (.arrive task client)
  have sameUsers : (t.enter client task).users = (r.arrive task client).users := by
    rw [users, ← shows.users]
    rfl
  have sameKeys : (t.enter client task).locks.keys = (r.arrive task client).locks.keys := by
    rw [keys, ← shows.keys, ← Dictionary.keys_put]
    rfl
  obtain ⟨holder, waiting, prompt⟩ := shows.served client
  by_cases free : (t.lockOf client).holder = none
  · have nobody : insideTasks client (r.arrive task client).passes = [] := by
      simp [passes, ← holder, free]
    have queue : waitingTasks client (r.arrive task client).passes = [task] := by
      simp [passes, ← waiting, prompt free]
    obtain ⟨next, reachedNext, nextUsers, nextLocks, served, others⟩ :=
      welcome_next arrived client nobody
    refine ⟨next, reachedNext, sameUsers.trans nextUsers.symm, ?_, fun other => ?_⟩
    · rw [sameKeys, nextLocks]
    · rw [lock_of_enter]
      by_cases same : client = other
      · subst same
        rw [queue] at served
        simpa [free, prompt free] using served
      · obtain ⟨insideKept, waitingKept⟩ := others other same
        rw [if_neg same]
        obtain ⟨holder, waiting, prompt⟩ := shows.served other
        exact ⟨by simp [insideKept, passes, holder], by simp [waitingKept, passes, waiting, same],
          prompt⟩
  · refine ⟨_, arrived, sameUsers, sameKeys, fun other => ?_⟩
    rw [lock_of_enter]
    by_cases same : client = other
    · subst same
      have busy : ((t.lockOf client).holder.isNone && (t.lockOf client).waiting.isEmpty) = false := by
        simp [free]
      simp only [busy]
      exact ⟨by simp [passes, holder], by simp [passes, waiting], fun none => absurd none free⟩
    · rw [if_neg same]
      obtain ⟨holder, waiting, prompt⟩ := shows.served other
      exact ⟨by simp [passes, holder], by simp [passes, waiting, same], prompt⟩

theorem shows_drop {t : LockTable} {d : Registry} (reached : Reachable d) (client : String)
    (lock : ClientLock) :
    let shorter : LockTable := ⟨Dictionary.put client lock t.locks, t.users⟩
    (shorter.drop client).users = d.users → (shorter.drop client).locks.keys = d.locks.keys →
    Serves lock client d.passes →
    (∀ other, client ≠ other → Serves (t.lockOf other) other d.passes) →
    (shorter.drop client).Shows d := by
  intro shorter users keys own others
  refine ⟨users, keys, fun other => ?_⟩
  have lockOf : shorter.lockOf other = if client = other then lock else t.lockOf other :=
    lock_of_put client other lock t
  rw [lock_of_drop, lockOf]
  by_cases same : client = other
  · subst same
    by_cases last : shorter.countOf client ≤ 1
    · rw [if_pos ⟨rfl, last⟩]
      apply serves_nobody
      have erased : Dictionary.get? client d.users = none := by
        rw [← users, LockTable.drop, if_pos (by omega), Dictionary.get_erase, if_pos rfl]
      rw [reached.sound.counted, countFor] at erased
      simpa using erased
    · rw [if_neg (by simp [last]), if_pos rfl]
      exact own
  · rw [if_neg (by simp [same]), if_neg same]
    exact others other same

theorem shows_leave {t : LockTable} {r : Registry} (shows : t.Shows r) (reached : Reachable r)
    (client : String) (task : Nat) (holds : t.isHolder client task = true) :
    ∃ next, Reachable next ∧ (t.leave client).Shows next := by
  obtain ⟨holder, waiting, prompt⟩ := shows.served client
  have held : (t.lockOf client).holder = some task := by simpa [isHolder] using holds
  rw [held] at holder
  obtain ⟨pass, others, inside, rfl, alone⟩ := List.map_eq_cons_iff.mp holder.symm
  obtain rfl := List.map_eq_nil_iff.mp alone
  obtain ⟨before, after, listed, noneBefore, isInside, noneAfter⟩ := List.filter_eq_cons_iff.mp inside
  obtain ⟨rfl, isIn⟩ : pass.client = client ∧ pass.inside = true := by
    simpa [Pass.isInside, Pass.isOf] using isInside
  have nobody : insideTasks pass.client (before ++ after) = [] := by
    have none : before.filter (Pass.isInside pass.client) = [] :=
      List.filter_eq_nil_iff.mpr fun other member => by simpa using noneBefore other member
    simp [insideTasks, none, noneAfter]
  have queue : waitingTasks pass.client (before ++ after) = (t.lockOf pass.client).waiting := by
    simp [waiting, listed, isIn]
  obtain ⟨d, departed, passes, users, keys⟩ := depart_shown shows reached before after pass listed
    ⟨(t.lockOf pass.client).waiting.head?, (t.lockOf pass.client).waiting.tail⟩
  rw [← passes] at nobody queue
  obtain ⟨next, reachedNext, nextUsers, nextLocks, served, kept⟩ :=
    welcome_next departed pass.client nobody
  rw [queue] at served
  refine ⟨next, reachedNext, shows_drop reachedNext pass.client _ (users.trans nextUsers.symm)
    (by rw [nextLocks]; exact keys) served fun other different => ?_⟩
  obtain ⟨insideKept, waitingKept⟩ := kept other different
  obtain ⟨holder, waiting, prompt⟩ := shows.served other
  exact ⟨by simp [insideKept, passes, holder, listed, different],
    by simp [waitingKept, passes, waiting, listed, different], prompt⟩

theorem shows_abandon {t : LockTable} {r : Registry} (shows : t.Shows r) (reached : Reachable r)
    (client : String) (task : Nat) (queued : task ∈ t.queue client) :
    ∃ next, Reachable next ∧ (t.abandon client task).Shows next := by
  unfold abandon
  by_cases holds : t.isHolder client task = true
  · rw [if_pos holds]
    exact shows_leave shows reached client task holds
  · rw [if_neg holds]
    obtain ⟨holder, waiting, prompt⟩ := shows.served client
    have waits : task ∈ (t.lockOf client).waiting := by
      rcases List.mem_append.mp queued with inside | waits
      · exact absurd (by simpa [isHolder] using Option.mem_toList.mp inside) holds
      · exact waits
    have busy : (t.lockOf client).holder ≠ none := by
      intro free
      rw [prompt free] at waits
      cases waits
    rw [waiting] at waits
    obtain ⟨found, isFound, sameTask⟩ := List.mem_map.mp waits
    obtain ⟨foundMember, foundWaits⟩ := List.mem_filter.mp isFound
    -- The task that gives up is the first one of its name in the queue.
    obtain ⟨pass, before, after, noneBefore, isFirst, listed, -⟩ := List.exists_of_eraseP
      (p := fun pass => pass.isWaiting client && decide (pass.task = task)) foundMember
      (by simp [foundWaits, sameTask])
    obtain ⟨⟨rfl, outside⟩, rfl⟩ : (pass.client = client ∧ pass.inside = false) ∧ pass.task = task := by
      simpa [Pass.isWaiting, Pass.isOf] using isFirst
    have notBefore : pass.task ∉ waitingTasks pass.client before := by
      intro member
      obtain ⟨earlier, listedBefore, sameTask⟩ := List.mem_map.mp member
      obtain ⟨inBefore, earlierWaits⟩ := List.mem_filter.mp listedBefore
      exact noneBefore earlier inBefore (by simp [earlierWaits, sameTask])
    obtain ⟨d, departed, passes, users, keys⟩ := depart_shown shows reached before after pass listed
      { t.lockOf pass.client with waiting := (t.lockOf pass.client).waiting.erase pass.task }
    refine ⟨d, departed, shows_drop departed pass.client _ users keys ?_ fun other different => ?_⟩
    · refine ⟨by simp [passes, holder, listed, outside], ?_, fun free => absurd free busy⟩
      simp [passes, waiting, listed, outside, List.erase_append_right _ notBefore]
    · obtain ⟨holder, waiting, prompt⟩ := shows.served other
      exact ⟨by simp [passes, holder, listed, different], by simp [passes, waiting, listed, different],
        prompt⟩

theorem shows_empty : empty.Shows Registry.empty :=
  ⟨rfl, rfl, fun _ => ⟨rfl, rfl, fun _ => rfl⟩⟩

theorem Built.shown {t : LockTable} (built : t.Built) : ∃ r, Reachable r ∧ t.Shows r := by
  induction built with
  | empty => exact ⟨_, .empty, shows_empty⟩
  | enter client task _ ih =>
    obtain ⟨r, reached, shows⟩ := ih
    exact shows_enter shows reached client task
  | leave client task _ holds ih =>
    obtain ⟨r, reached, shows⟩ := ih
    exact shows_leave shows reached client task holds
  | abandon client task _ queued ih =>
    obtain ⟨r, reached, shows⟩ := ih
    exact shows_abandon shows reached client task queued

theorem Built.prompt {t : LockTable} (built : t.Built) (client : String)
    (free : (t.lockOf client).holder = none) : (t.lockOf client).waiting = [] := by
  obtain ⟨r, _, shows⟩ := built.shown
  exact (shows.served client).prompt free

theorem Built.count_eq {t : LockTable} (built : t.Built) (client : String) :
    t.countOf client = (t.queue client).length := by
  obtain ⟨r, reached, shows⟩ := built.shown
  obtain ⟨holder, waiting, _⟩ := shows.served client
  rw [countOf, shows.users, reached.sound.count_arrived, count_inside_waiting, queue, holder, waiting,
    List.length_append]

theorem Built.holder_iff {t : LockTable} (built : t.Built) (client : String) (task : Nat) :
    t.isHolder client task = true ↔ (t.queue client).head? = some task := by
  have prompt := built.prompt client
  unfold isHolder queue
  cases free : (t.lockOf client).holder with
  | none => simp [prompt free]
  | some holder => simp

theorem Built.queue_leave {t : LockTable} (built : t.Built) (client other : String) :
    (t.leave client).queue other = if client = other then (t.queue other).tail else t.queue other := by
  have lockOf : (t.handOver client).lockOf other =
      if client = other then ⟨(t.lockOf client).waiting.head?, (t.lockOf client).waiting.tail⟩
      else t.lockOf other := lock_of_put client other _ t
  have count : (t.handOver client).countOf client = (t.queue client).length := built.count_eq client
  have prompt := built.prompt client
  rw [LockTable.leave, queue, lock_of_drop, lockOf, count]
  by_cases same : client = other
  · subst same
    unfold queue
    generalize t.lockOf client = lock at prompt ⊢
    obtain ⟨holder, waiting⟩ := lock
    cases holder with
    | none =>
      obtain rfl : waiting = [] := prompt rfl
      simp
    | some holder => cases waiting <;> simp
  · simp [same, queue]

end LockTable

namespace Registry

theorem lock_registry_safe :
    (∀ r : Registry, r.Reachable →
      (∀ client, r.passes.countP (Pass.isInside client) ≤ 1) ∧
      r.locks.keys = r.users.keys ∧
      (∀ client, client ∈ r.locks.keys ↔ ∃ task, task ∈ r.tasksOf client) ∧
      (∀ client count, Dictionary.get? client r.users = some count →
        count = r.passes.countP (Pass.isOf client) ∧
        (((r.passes.filter (Pass.isOf client)).map (·.task)).Nodup →
          count = (r.tasksOf client).length)) ∧
      (∀ pass ∈ r.passes, ∃ left, r.drop? pass.client = some left) ∧
      (r.passes = [] → r.locks = [] ∧ r.users = [])) ∧
    ∀ t : LockTable, t.Built → ∃ r : Registry, r.Reachable ∧ t.Shows r := by
  refine ⟨fun r reached => ?_, fun t built => built.shown⟩
  have sound := reached.sound
  have keyed : ∀ client, client ∈ r.locks.keys ↔ r.passes.countP (Pass.isOf client) ≠ 0 :=
    fun client => (Dictionary.mem_keys_iff client r.locks).trans (sound.locked_iff client)
  refine ⟨sound.alone, sound.sameKeys, ?_, ?_, fun pass member => ⟨_, sound.drop_eq pass member⟩, ?_⟩
  · intro client
    rw [keyed, ← Nat.pos_iff_ne_zero, List.countP_pos_iff]
    simp only [tasksOf, List.mem_eraseDups, List.mem_map, List.mem_filter]
    constructor
    · rintro ⟨pass, listed⟩
      exact ⟨pass.task, pass, listed, rfl⟩
    · rintro ⟨_, pass, listed, _⟩
      exact ⟨pass, listed⟩
  · intro client count found
    have exact : count = r.passes.countP (Pass.isOf client) := by
      rw [← sound.count_arrived, found, Option.getD_some]
    refine ⟨exact, fun once => ?_⟩
    rw [tasksOf, erase_dups_of_nodup _ once, List.length_map, exact, List.countP_eq_length_filter]
  · intro nobody
    have unkeyed : ∀ client, client ∉ r.locks.keys := by simp [keyed, nobody]
    have noKeys := List.eq_nil_iff_forall_not_mem.mpr unkeyed
    exact ⟨List.map_eq_nil_iff.mp noKeys, List.map_eq_nil_iff.mp (sound.sameKeys ▸ noKeys)⟩

theorem lock_handed_on :
    let r : Registry := ⟨[("a", 0), ("b", 1)], [("a", 2), ("b", 1)],
      [⟨2, "a", 0, true⟩, ⟨3, "b", 1, false⟩, ⟨4, "a", 0, false⟩], 2⟩
    r.Reachable ∧ r.passes.countP (Pass.isInside "a") ≤ 1 ∧ 2 = (r.tasksOf "a").length := by
  intro r
  let one : Pass := ⟨1, "a", 0, true⟩
  let rest : List Pass := [⟨2, "a", 0, false⟩, ⟨3, "b", 1, false⟩]
  have held : Reachable ⟨[("a", 0)], [("a", 1)], [one], 1⟩ :=
    .step (.step .empty (.arrive 1 "a")) (.welcome [] [] ⟨1, "a", 0, false⟩ rfl rfl (by decide))
  have awaited : Reachable ⟨[("a", 0), ("b", 1)], [("a", 2), ("b", 1)], one :: rest, 2⟩ :=
    .step (.step held (.arrive 2 "a")) (.arrive 3 "b")
  have left : Reachable ⟨[("a", 0), ("b", 1)], [("a", 1), ("b", 1)], rest, 2⟩ :=
    .step awaited (.depart [] rest one
      ⟨[("a", 0), ("b", 1)], [("a", 1), ("b", 1)], one :: rest, 2⟩ rfl rfl)
  have reached : r.Reachable :=
    .step (.step left (.welcome [] _ ⟨2, "a", 0, false⟩ rfl rfl (by decide))) (.arrive 4 "a")
  obtain ⟨alone, _, _, counted, _⟩ := lock_registry_safe.1 r reached
  exact ⟨reached, alone "a", (counted "a" 2 rfl).2 (by decide)⟩

end Registry

end TagRules
