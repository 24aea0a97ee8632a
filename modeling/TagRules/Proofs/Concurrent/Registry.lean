import TagRules.Service.Locks

/-!
A task keeps the lock object that it finds or makes, so two tasks of one client could meet inside if an
object were dropped while somebody still waits for it.
-/

set_option autoImplicit false

namespace TagRules

structure Pass where
  task : Nat
  client : String
  lock : Nat
  inside : Bool
  deriving DecidableEq

namespace Pass

def isOf (client : String) (pass : Pass) : Bool := decide (pass.client = client)

def isInside (client : String) (pass : Pass) : Bool := pass.isOf client && pass.inside

end Pass

structure Registry where
  locks : Dictionary String Nat
  users : Dictionary String Nat
  passes : List Pass
  made : Nat
  deriving DecidableEq

namespace Registry

def empty : Registry := ⟨[], [], [], 0⟩

def arrive (task : Nat) (client : String) (r : Registry) : Registry :=
  let users := Dictionary.put client ((Dictionary.get? client r.users).getD 0 + 1) r.users
  match Dictionary.get? client r.locks with
  | some lock => { r with users := users, passes := r.passes ++ [⟨task, client, lock, false⟩] }
  | none =>
      { locks := Dictionary.put client r.made r.locks
        users := users
        passes := r.passes ++ [⟨task, client, r.made, false⟩]
        made := r.made + 1 }

def drop? (client : String) (r : Registry) : Option Registry :=
  match Dictionary.get? client r.users with
  | none => none
  | some count =>
      if count = 1 then
        match Dictionary.get? client r.locks with
        | none => none
        | some _ =>
            some { r with
              locks := Dictionary.erase client r.locks
              users := Dictionary.erase client r.users }
      else some { r with users := Dictionary.put client (count - 1) r.users }

-- A waiting task is let in while nobody holds its lock object; which one, and when, is left open. A
-- task that departs has left the block, failed in it, or was cancelled inside or while it waited.
inductive Step (r : Registry) : Registry → Prop
  | arrive (task : Nat) (client : String) : Step r (r.arrive task client)
  | welcome (before after : List Pass) (pass : Pass) (listed : r.passes = before ++ pass :: after)
      (waits : pass.inside = false)
      (free : ∀ other ∈ r.passes, other.lock = pass.lock → other.inside = false) :
      Step r { r with passes := before ++ { pass with inside := true } :: after }
  | depart (before after : List Pass) (pass : Pass) (left : Registry)
      (listed : r.passes = before ++ pass :: after) (dropped : r.drop? pass.client = some left) :
      Step r { left with passes := before ++ after }

inductive Reachable : Registry → Prop
  | empty : Reachable empty
  | step {r next : Registry} (reached : Reachable r) (step : Step r next) : Reachable next

def tasksOf (client : String) (r : Registry) : List Nat :=
  ((r.passes.filter (Pass.isOf client)).map (·.task)).eraseDups

def countFor (n : Nat) : Option Nat := if n = 0 then none else some n

structure Sound (r : Registry) : Prop where
  sameKeys : r.locks.keys = r.users.keys
  counted : ∀ client, Dictionary.get? client r.users = countFor (r.passes.countP (Pass.isOf client))
  registered : ∀ pass ∈ r.passes, Dictionary.get? pass.client r.locks = some pass.lock
  older : ∀ client lock, Dictionary.get? client r.locks = some lock → lock < r.made
  apart : ∀ client other lock, Dictionary.get? client r.locks = some lock →
    Dictionary.get? other r.locks = some lock → client = other
  alone : ∀ client, r.passes.countP (Pass.isInside client) ≤ 1

theorem sound_empty : Sound empty := by
  constructor <;> simp [empty, Dictionary.get?, countFor]

section

variable {r : Registry} (sound : Sound r)

include sound

theorem Sound.locked_iff (client : String) :
    (∃ lock, Dictionary.get? client r.locks = some lock) ↔
      r.passes.countP (Pass.isOf client) ≠ 0 := by
  rw [← Dictionary.mem_keys_iff, sound.sameKeys, Dictionary.mem_keys_iff, sound.counted, countFor]
  by_cases nobody : r.passes.countP (Pass.isOf client) = 0 <;> simp [nobody]

theorem Sound.count_arrived (client : String) :
    (Dictionary.get? client r.users).getD 0 = r.passes.countP (Pass.isOf client) := by
  rw [sound.counted, countFor]
  split <;> simp [*]

theorem Sound.counted_arrived (task lock : Nat) (client other : String) :
    Dictionary.get? other
        (Dictionary.put client ((Dictionary.get? client r.users).getD 0 + 1) r.users) =
      countFor ((r.passes ++ [Pass.mk task client lock false]).countP (Pass.isOf other)) := by
  rw [Dictionary.get_put, sound.count_arrived, List.countP_append, List.countP_singleton]
  by_cases same : client = other
  · simp [same, countFor, Pass.isOf]
  · simp [same, sound.counted, Pass.isOf]

theorem Sound.alone_arrived (task lock : Nat) (client other : String) :
    (r.passes ++ [Pass.mk task client lock false]).countP (Pass.isInside other) ≤ 1 := by
  have before := sound.alone other
  simpa [List.countP_append, Pass.isInside] using before

theorem sound_arrive (task : Nat) (client : String) : Sound (r.arrive task client) := by
  cases found : Dictionary.get? client r.locks with
  | some lock =>
    have known : client ∈ r.users.keys := by
      rw [← sound.sameKeys]
      exact (Dictionary.mem_keys_iff client r.locks).mpr ⟨lock, found⟩
    simp only [arrive, found]
    refine ⟨?_, sound.counted_arrived task lock client, ?_, sound.older, sound.apart,
      sound.alone_arrived task lock client⟩
    · simp only [Dictionary.keys_put, if_pos known, sound.sameKeys]
    · intro pass member
      rcases List.mem_append.mp member with old | new
      · exact sound.registered pass old
      · obtain rfl := List.mem_singleton.mp new
        exact found
  | none =>
    have newcomer : ∀ pass ∈ r.passes, client ≠ pass.client := by
      intro pass member same
      rw [same, sound.registered pass member] at found
      cases found
    simp only [arrive, found]
    refine ⟨?_, sound.counted_arrived task r.made client, ?_, ?_, ?_,
      sound.alone_arrived task r.made client⟩
    · simp only [Dictionary.keys_put, ← sound.sameKeys]
    · intro pass member
      rw [Dictionary.get_put]
      rcases List.mem_append.mp member with old | new
      · rw [if_neg (newcomer pass old)]
        exact sound.registered pass old
      · obtain rfl := List.mem_singleton.mp new
        simp
    · intro other lock
      change _ → lock < r.made + 1
      rw [Dictionary.get_put]
      split
      · intro same
        obtain rfl := Option.some.inj same
        omega
      · intro known
        have := sound.older other lock known
        omega
    -- The new object is younger than all that are registered.
    · intro one other lock
      rw [Dictionary.get_put, Dictionary.get_put]
      by_cases oneNew : client = one <;> by_cases otherNew : client = other
      · exact fun _ _ => oneNew.symm.trans otherNew
      · simp only [if_pos oneNew, if_neg otherNew]
        intro new old
        have := sound.older other lock old
        have := Option.some.inj new
        omega
      · simp only [if_neg oneNew, if_pos otherNew]
        intro old new
        have := sound.older one lock old
        have := Option.some.inj new
        omega
      · simp only [if_neg oneNew, if_neg otherNew]
        exact sound.apart one other lock

-- The tasks of a client share one lock object; if nobody holds that, nobody is inside.
theorem Sound.nobody_inside (pass : Pass) (member : pass ∈ r.passes)
    (free : ∀ other ∈ r.passes, other.lock = pass.lock → other.inside = false) :
    r.passes.countP (Pass.isInside pass.client) = 0 := by
  apply List.countP_eq_zero.mpr
  intro other listed inside
  obtain ⟨sameClient, isInside⟩ : other.client = pass.client ∧ other.inside = true := by
    simpa [Pass.isInside, Pass.isOf] using inside
  have one := sound.registered other listed
  rw [sameClient, sound.registered pass member] at one
  exact absurd isInside (by simp [free other listed (Option.some.inj one).symm])

theorem sound_welcome (before after : List Pass) (pass : Pass)
    (listed : r.passes = before ++ pass :: after)
    (free : ∀ other ∈ r.passes, other.lock = pass.lock → other.inside = false) :
    Sound { r with passes := before ++ { pass with inside := true } :: after } := by
  have nobody := sound.nobody_inside pass (by simp [listed]) free
  refine ⟨sound.sameKeys, ?_, ?_, sound.older, sound.apart, ?_⟩
  · intro client
    rw [sound.counted, listed]
    simp [List.countP_append, List.countP_cons, Pass.isOf]
  · intro other member
    have wasListed : other ∈ r.passes ∨ other = { pass with inside := true } := by
      rw [listed]
      rcases List.mem_append.mp member with earlier | later
      · simp [earlier]
      · rcases List.mem_cons.mp later with atHead | later
        · exact .inr atHead
        · simp [later]
    rcases wasListed with old | rfl
    · exact sound.registered other old
    · exact sound.registered pass (by simp [listed])
  · intro client
    have alone := sound.alone client
    rw [listed] at alone nobody
    by_cases own : pass.client = client
    · subst own
      simp only [List.countP_append, List.countP_cons] at nobody ⊢
      have := Bool.toNat_le (Pass.isInside pass.client { pass with inside := true })
      split <;> omega
    · simpa [List.countP_append, List.countP_cons, Pass.isInside, Pass.isOf, own] using alone

theorem Sound.drop_eq (pass : Pass) (member : pass ∈ r.passes) :
    r.drop? pass.client = some
      (if r.passes.countP (Pass.isOf pass.client) = 1 then
        { r with
          locks := Dictionary.erase pass.client r.locks
          users := Dictionary.erase pass.client r.users }
      else
        { r with
          users := Dictionary.put pass.client (r.passes.countP (Pass.isOf pass.client) - 1) r.users }) := by
  have lock := sound.registered pass member
  have count := sound.counted pass.client
  rw [countFor, if_neg ((sound.locked_iff pass.client).mp ⟨_, lock⟩)] at count
  simp only [drop?, count, lock]
  split <;> rfl

theorem sound_depart (before after : List Pass) (pass : Pass) (left : Registry)
    (listed : r.passes = before ++ pass :: after) (dropped : r.drop? pass.client = some left) :
    Sound { left with passes := before ++ after } := by
  have stays : ∀ other ∈ before ++ after, other ∈ r.passes := by
    intro other member
    rw [listed]
    rcases List.mem_append.mp member with earlier | later <;> simp [*]
  have alone : ∀ client, (before ++ after).countP (Pass.isInside client) ≤ 1 := by
    intro client
    have := sound.alone client
    simp only [listed, List.countP_append, List.countP_cons] at this ⊢
    omega
  have own : r.passes.countP (Pass.isOf pass.client) =
      (before ++ after).countP (Pass.isOf pass.client) + 1 := by
    simp [listed, List.countP_append, Pass.isOf]
    omega
  have others : ∀ client, pass.client ≠ client →
      r.passes.countP (Pass.isOf client) = (before ++ after).countP (Pass.isOf client) := by
    intro client different
    simp [listed, List.countP_append, Pass.isOf, different]
  rw [sound.drop_eq pass (by simp [listed]), own] at dropped
  by_cases last : (before ++ after).countP (Pass.isOf pass.client) = 0
  · rw [if_pos (by omega)] at dropped
    obtain rfl := Option.some.inj dropped
    have gone : ∀ other ∈ before ++ after, pass.client ≠ other.client := by
      intro other member same
      exact List.countP_eq_zero.mp last other member (by simp [Pass.isOf, same])
    refine ⟨?_, ?_, ?_, ?_, ?_, alone⟩
    · simp only [Dictionary.keys_erase, sound.sameKeys]
    · intro client
      rw [Dictionary.get_erase]
      by_cases same : pass.client = client
      · simp [← same, last, countFor]
      · rw [if_neg same, sound.counted, others client same]
    · intro other member
      rw [Dictionary.get_erase, if_neg (gone other member)]
      exact sound.registered other (stays other member)
    · intro client lock known
      rw [Dictionary.get_erase] at known
      split at known
      · cases known
      · exact sound.older client lock known
    · intro one other lock oneKnown otherKnown
      rw [Dictionary.get_erase] at oneKnown otherKnown
      split at oneKnown
      · cases oneKnown
      · split at otherKnown
        · cases otherKnown
        · exact sound.apart one other lock oneKnown otherKnown
  · rw [if_neg (by omega)] at dropped
    obtain rfl := Option.some.inj dropped
    have known : pass.client ∈ r.users.keys := by
      rw [← sound.sameKeys]
      exact (Dictionary.mem_keys_iff _ _).mpr ⟨_, sound.registered pass (by simp [listed])⟩
    refine ⟨?_, ?_, ?_, sound.older, sound.apart, alone⟩
    · simp only [Dictionary.keys_put, if_pos known, sound.sameKeys]
    · intro client
      rw [Dictionary.get_put]
      by_cases same : pass.client = client
      · rw [if_pos same, ← same, countFor, if_neg last, Nat.add_sub_cancel]
      · rw [if_neg same, sound.counted, others client same]
    · exact fun other member => sound.registered other (stays other member)

theorem sound_step {next : Registry} (step : Step r next) : Sound next := by
  cases step with
  | arrive task client => exact sound_arrive sound task client
  | welcome before after pass listed waits free => exact sound_welcome sound before after pass listed free
  | depart before after pass left listed dropped =>
    exact sound_depart sound before after pass left listed dropped

end

theorem Reachable.sound {r : Registry} (reached : Reachable r) : Sound r := by
  induction reached with
  | empty => exact sound_empty
  | step _ step ih => exact sound_step ih step

end Registry

end TagRules
