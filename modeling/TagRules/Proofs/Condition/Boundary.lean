import TagRules.Condition.Read
import TagRules.Proofs.Json.Reading

set_option autoImplicit false

namespace TagRules.Condition

open Json

def spelling? : Value → Option (List Char)
  | .text s => some s.toList
  | .textMember s => some s.toList
  | .bytes octets => (decode (octets.map UInt8.toNat)).toOption
  | _ => none

inductive Reading (stack : Nat) (payload : Value) : Except Fault (Option Condition) → Prop
  | accepted (c : Option Condition) : Reading stack payload (.ok c)
  | rejected (why : Rejection) : Reading stack payload (.error (.rejected why))
  | undecodable {octets : List UInt8} {why : Undecodable} (encoded : payload = .bytes octets)
      (misfit : decode (octets.map UInt8.toNat) = .error why) :
      Reading stack payload (.error (.undecodable why))
  | literalTooLong {cs : List Char} {digits : Nat} (text : spelling? payload = some cs)
      (long : maxDigits < digits) (written : HasDigits digits cs) :
      Reading stack payload (.error (.literalTooLong digits))
  | nestedTooDeep {cs : List Char} {isObject : Bool} (text : spelling? payload = some cs)
      (deep : stack < level cs) : Reading stack payload (.error (.nestedTooDeep isObject))

theorem read_tree_outcome (limits : Limits) (stack : Nat) (payload given : Value) :
    Reading stack payload (readTree limits given) := by
  unfold readTree
  split
  · exact .accepted none
  · split
    · exact .rejected _
    · exact .accepted _

theorem read_spelled_outcome (limits : Limits) (stack : Nat) (payload : Value) (cs : List Char)
    (text : spelling? payload = some cs) (spelled : Except Failure Value)
    (outcome : Json.Outcome Spelled stack cs spelled) :
    Reading stack payload (readSpelled limits cs spelled) := by
  cases outcome with
  | @read v _ => exact read_tree_outcome limits stack payload v
  | refused problem left => exact .rejected _
  | tooManyDigits long written => exact .literalTooLong text long written
  | tooDeep isObject deep => exact .nestedTooDeep text deep

theorem read_source (limits : Limits) (payload : Value) (stack : Nat) (c : Option Condition)
    (found : read limits payload stack = .ok c) :
    ∃ v, readTree limits v = .ok c ∧ (Spelled v ∨ v = payload) := by
  have spelled : ∀ cs spelled, Json.Outcome Spelled stack cs spelled →
      readSpelled limits cs spelled = .ok c →
      ∃ v, readTree limits v = .ok c ∧ (Spelled v ∨ v = payload) := by
    intro cs spelled outcome found
    cases outcome with
    | read good => exact ⟨_, found, .inl good⟩
    | refused problem left => cases found
    | tooManyDigits long written => cases found
    | tooDeep isObject deep => cases found
  unfold read at found
  split at found
  · exact spelled _ _ (read_text_outcome _ stack) found
  · exact spelled _ _ (read_text_outcome _ stack) found
  · split at found
    · cases found
    · exact spelled _ _ (read_all_outcome _ stack) found
  · exact ⟨_, found, .inr rfl⟩

theorem read_outcome (limits : Limits) (payload : Value) (stack : Nat) :
    Reading stack payload (read limits payload stack) := by
  unfold read
  split
  · exact read_spelled_outcome limits stack _ _ rfl _ (read_text_outcome _ stack)
  · exact read_spelled_outcome limits stack _ _ rfl _ (read_text_outcome _ stack)
  · rename_i octets
    cases decoded : decode (octets.map UInt8.toNat) with
    | error why => exact .undecodable rfl decoded
    | ok cs =>
      have text : spelling? (.bytes octets) = some cs := by
        rw [spelling?, decoded]
        rfl
      exact read_spelled_outcome limits stack _ cs text _ (read_all_outcome cs stack)
  · exact read_tree_outcome limits stack payload _

theorem undecodable_octet_is_no_rejection :
    ¬ ∀ (limits : Limits) (payload : Value) (stack : Nat),
      (∃ c, read limits payload stack = .ok c) ∨
        ∃ why, read limits payload stack = .error (.rejected why) := by
  intro always
  have found : read ⟨10, 50⟩ (.bytes [0xFF]) usualStack =
      .error (.undecodable ⟨"utf-8", 0xFF, 0, 1, "invalid start byte"⟩) := rfl
  rcases always ⟨10, 50⟩ (.bytes [0xFF]) usualStack with ⟨c, accepted⟩ | ⟨why, rejected⟩
  · rw [found] at accepted
    cases accepted
  · rw [found] at rejected
    cases rejected

end TagRules.Condition
