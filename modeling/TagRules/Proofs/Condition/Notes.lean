import TagRules.Proofs.Condition.Groups
import TagRules.Proofs.Condition.RoundTrip

set_option autoImplicit false

namespace TagRules

theorem Traced.mem_notes_bind {α β : Type} (walk : Traced α) (next : α → Traced β) (note : Note)
    (noted : note ∈ (walk.bind next).notes) :
    note ∈ walk.notes ∨ ∃ a, walk.result = .ok a ∧ note ∈ (next a).notes := by
  obtain ⟨result, notes⟩ := walk
  cases result with
  | error fault => exact .inl noted
  | ok a => exact (List.mem_append.mp noted).imp_right fun later => ⟨a, rfl, later⟩

theorem Verdict.mem_notes_combine (neutral : Bool) (verdicts : List Verdict) (note : Note)
    (noted : note ∈ (combine neutral verdicts).notes) : ∃ verdict ∈ verdicts, note ∈ verdict.notes := by
  induction verdicts with
  | nil => cases noted
  | cons first rest ih =>
    rcases Traced.mem_notes_bind _ _ note noted with here | ⟨answer, _, later⟩
    · exact ⟨first, List.mem_cons_self, here⟩
    · by_cases goesOn : answer = neutral
      · rw [if_pos goesOn] at later
        obtain ⟨verdict, member, inside⟩ := ih later
        exact ⟨verdict, List.mem_cons_of_mem first member, inside⟩
      · rw [if_neg goesOn] at later
        cases later

namespace Condition

def Meaningful : Condition → Prop
  | .single _ (.known _) _ _ => True
  | .group (.known _) _ => True
  | _ => False

mutual

theorem noted_part (record : Value) (c : Condition) (note : Note)
    (noted : note ∈ (c.evaluate record).notes) :
    ∃ part, Within part c ∧ ¬ part.Meaningful ∧ note ∈ (part.evaluate record).notes := by
  cases c with
  | single field operator value second =>
      cases operator with
      | known operator => cases noted
      | unknown v => exact ⟨_, .whole, id, noted⟩
  | foreign v => exact ⟨_, .whole, id, noted⟩
  | group combinator children =>
      cases combinator with
      | unknown v => exact ⟨_, .whole, id, noted⟩
      | known combinator =>
          rw [evaluate_group] at noted
          obtain ⟨_, answered, noted⟩ := Verdict.mem_notes_combine _ _ note noted
          obtain ⟨child, member, rfl⟩ := List.mem_map.mp answered
          obtain ⟨part, within, meaningless, same⟩ :=
            noted_part_of_child record children child member note noted
          exact ⟨part, .inside member within, meaningless, same⟩

theorem noted_part_of_child (record : Value) (children : List Condition) (child : Condition)
    (member : child ∈ children) (note : Note) (noted : note ∈ (child.evaluate record).notes) :
    ∃ part, Within part child ∧ ¬ part.Meaningful ∧ note ∈ (part.evaluate record).notes := by
  cases children with
  | nil => cases member
  | cons first rest =>
      by_cases same : child = first
      · subst same
        exact noted_part record child note noted
      · have later : child ∈ rest := (List.mem_cons.mp member).resolve_left same
        exact noted_part_of_child record rest child later note noted

end

theorem nothing_noted (record : Value) (c : Condition)
    (meaningful : ∀ part, Within part c → part.Meaningful) : (c.evaluate record).notes = [] := by
  apply List.eq_nil_iff_forall_not_mem.mpr
  intro note noted
  obtain ⟨part, within, meaningless, _⟩ := noted_part record c note noted
  exact meaningless (meaningful part within)

theorem readable_meaningful (limits : Limits) (room : Nat) (c : Condition)
    (readable : Readable limits room c) : ∀ part, Within part c → part.Meaningful := by
  induction readable with
  | single =>
    intro part within
    cases within with
    | whole => trivial
  | group _ _ ih =>
    intro part within
    cases within with
    | whole => trivial
    | inside member deeper => exact ih _ member part deeper

theorem reading_leaves_nothing_to_note (limits : Limits) (payload : Value) (stack : Nat)
    (condition : Option Condition) (found : read limits payload stack = .ok condition) :
    (∀ tree, condition = some tree → ∀ part, Within part tree → part.Meaningful) ∧
    ∀ record, (evaluate? record condition).notes = [] := by
  have meaningful : ∀ tree, condition = some tree → ∀ part, Within part tree → part.Meaningful :=
    fun tree whole => readable_meaningful limits _ tree (read_readable limits payload stack _ found tree whole)
  refine ⟨meaningful, fun record => ?_⟩
  cases condition with
  | none => rfl
  | some tree => exact nothing_noted record tree (meaningful tree rfl)

theorem failing_evaluation_notes_nothing :
    let payload : Value := .mapping [(.text "logicalOperator", .text " or "),
      (.text "conditions", .list
        [.mapping [(.text "field", .text "x"), (.text "operator", .text "equals"),
          (.text "value", .int 1)],
        .mapping [(.text "field", .text "y"), (.text "operator", .text "isEmpty")]])]
    let record : Value := .view [(.text "x", .decimal (.signalling false 0))]
    ∃ tree, read ⟨10, 50⟩ payload = .ok (some tree) ∧
      (tree.evaluate record).result = .error .signallingOperand ∧
      (tree.evaluate record).notes = [] := by
  intro payload record
  let tree : Condition := either [.single "x" (.known .equals) (.int 1) .null,
    .single "y" (.known .isEmpty) .null .null]
  have found : read ⟨10, 50⟩ payload = .ok (some tree) := rfl
  exact ⟨tree, found, rfl, (reading_leaves_nothing_to_note ⟨10, 50⟩ payload _ _ found).2 record⟩

end Condition

end TagRules
