import Mathlib.Logic.Relation
import TagRules.Proofs.Condition.Groups

set_option autoImplicit false

namespace TagRules.Condition

inductive Anywhere (change : Combinator → List Condition → List Condition → Prop) :
    Condition → Condition → Prop
  | here {combinator : Combinator} {children changed : List Condition}
      (step : change combinator children changed) :
      Anywhere change (.group (.known combinator) children) (.group (.known combinator) changed)
  | inside {combinator : Combinator} (before after : List Condition) {child changed : Condition}
      (deeper : Anywhere change child changed) :
      Anywhere change (.group (.known combinator) (before ++ child :: after))
        (.group (.known combinator) (before ++ changed :: after))

inductive Flattens (combinator : Combinator) : List Condition → List Condition → Prop
  | nested (before inner after : List Condition) :
      Flattens combinator (before ++ .group (.known combinator) inner :: after)
        (before ++ inner ++ after)

inductive Rearranges (combinator : Combinator) : List Condition → List Condition → Prop
  | flattened {children changed : List Condition} (step : Flattens combinator children changed) :
      Rearranges combinator children changed
  | permuted {children changed : List Condition} (order : children.Perm changed) :
      Rearranges combinator children changed
  | repeated (before after : List Condition) {child : Condition}
      (member : child ∈ before ++ after) :
      Rearranges combinator (before ++ after) (before ++ child :: after)

def Regrouped : Condition → Condition → Prop := Relation.EqvGen (Anywhere Flattens)

def Rearranged : Condition → Condition → Prop := Relation.EqvGen (Anywhere Rearranges)

theorem flattens_keeps_verdict (record : Value) (combinator : Combinator)
    (children changed : List Condition) (step : Flattens combinator children changed) :
    (group (.known combinator) children).evaluate record =
      (group (.known combinator) changed).evaluate record := by
  cases step with
  | nested before inner after =>
    rw [evaluate_group, List.map_append, List.map_cons, evaluate_group, Verdict.combine_nested,
      evaluate_group, List.map_append, List.map_append]

theorem anywhere_keeps_verdict (record : Value)
    (change : Combinator → List Condition → List Condition → Prop)
    (keeps : ∀ combinator children changed, change combinator children changed →
      (group (.known combinator) children).evaluate record =
        (group (.known combinator) changed).evaluate record)
    (c d : Condition) (step : Anywhere change c d) : c.evaluate record = d.evaluate record := by
  induction step with
  | here step => exact keeps _ _ _ step
  | inside _ _ _ same =>
    simp only [evaluate_group, List.map_append, List.map_cons, same]

theorem regrouped_keeps_verdict (record : Value) (c d : Condition) (related : Regrouped c d) :
    c.evaluate record = d.evaluate record := by
  induction related with
  | rel c d step =>
    exact anywhere_keeps_verdict record Flattens (flattens_keeps_verdict record) c d step
  | refl c => rfl
  | symm c d _ same => exact same.symm
  | trans c d e _ _ first second => exact first.trans second

theorem repeated_same_members {α : Type} (before after : List α) (a : α) (member : a ∈ before ++ after)
    (b : α) : b ∈ before ++ after ↔ b ∈ before ++ a :: after := by
  rw [List.mem_append] at member
  constructor
  · intro inside
    rcases List.mem_append.mp inside with left | right
    · exact List.mem_append_left _ left
    · exact List.mem_append_right _ (List.mem_cons_of_mem a right)
  · intro inside
    rcases List.mem_append.mp inside with left | right
    · exact List.mem_append_left _ left
    · rcases List.mem_cons.mp right with rfl | right
      · exact List.mem_append.mpr member
      · exact List.mem_append_right _ right

theorem rearranges_cases (combinator : Combinator) (children changed : List Condition)
    (step : Rearranges combinator children changed) :
    Flattens combinator children changed ∨ ∀ child, child ∈ children ↔ child ∈ changed := by
  cases step with
  | flattened step => exact .inl step
  | permuted order => exact .inr fun child => order.mem_iff
  | repeated before after member => exact .inr (repeated_same_members before after _ member)

structure Alike (record : Value) (c d : Condition) : Prop where
  leaves : LeavesDecide record c ↔ LeavesDecide record d
  answer : LeavesDecide record c → (c.evaluate record).result = (d.evaluate record).result

theorem Alike.refl (record : Value) (c : Condition) : Alike record c c :=
  ⟨Iff.rfl, fun _ => rfl⟩

theorem Alike.symm {record : Value} {c d : Condition} (alike : Alike record c d) : Alike record d c :=
  ⟨alike.leaves.symm, fun decided => (alike.answer (alike.leaves.mpr decided)).symm⟩

theorem Alike.trans {record : Value} {c d e : Condition} (first : Alike record c d)
    (second : Alike record d e) : Alike record c e := by
  refine ⟨first.leaves.trans second.leaves, fun decided => ?_⟩
  have between := first.leaves.mp decided
  exact (first.answer decided).trans (second.answer between)

theorem same_members_alike (record : Value) (combinator : Combinator)
    (children changed : List Condition) (same : ∀ child, child ∈ children ↔ child ∈ changed) :
    Alike record (.group (.known combinator) children) (.group (.known combinator) changed) := by
  have leaves : (∀ child ∈ children, LeavesDecide record child) ↔
      ∀ child ∈ changed, LeavesDecide record child :=
    forall_congr' fun child => imp_congr_left (same child)
  refine ⟨by rw [leaves_decide_group, leaves_decide_group, leaves], fun decided => ?_⟩
  have each := (leaves_decide_group record combinator children).mp decided
  rw [evaluate_group, evaluate_group]
  apply Verdict.combine_same_members
  · intro verdict member
    obtain ⟨child, inside, rfl⟩ := List.mem_map.mp member
    exact evaluate_decides record child (each child inside)
  · intro verdict
    simp only [List.mem_map, same]

theorem flattens_alike (record : Value) (combinator : Combinator) (children changed : List Condition)
    (step : Flattens combinator children changed) :
    Alike record (.group (.known combinator) children) (.group (.known combinator) changed) := by
  have verdict := flattens_keeps_verdict record combinator children changed step
  refine ⟨?_, fun _ => congrArg Traced.result verdict⟩
  cases step with
  | nested before inner after =>
    simp only [leaves_decide_group, List.forall_mem_append, List.forall_mem_cons, and_assoc]

theorem inside_alike (record : Value) (combinator : Combinator) (before after : List Condition)
    (child changed : Condition) (alike : Alike record child changed) :
    Alike record (.group (.known combinator) (before ++ child :: after))
      (.group (.known combinator) (before ++ changed :: after)) := by
  refine ⟨?_, fun decided => ?_⟩
  · simp only [leaves_decide_group, List.forall_mem_append, List.forall_mem_cons, alike.leaves]
  · have each := (leaves_decide_group record combinator _).mp decided
    have inner := alike.answer (each child (List.mem_append_right before List.mem_cons_self))
    rw [evaluate_group, evaluate_group]
    apply Verdict.combine_same_results
    simp only [List.map_append, List.map_cons, inner]

theorem anywhere_alike (record : Value) (c d : Condition) (step : Anywhere Rearranges c d) :
    Alike record c d := by
  induction step with
  | @here combinator children changed step =>
    rcases rearranges_cases combinator children changed step with flattened | same
    · exact flattens_alike record combinator children changed flattened
    · exact same_members_alike record combinator children changed same
  | inside before after _ alike => exact inside_alike record _ before after _ _ alike

theorem rearranged_alike (record : Value) (c d : Condition) (related : Rearranged c d) :
    Alike record c d := by
  induction related with
  | rel c d step => exact anywhere_alike record c d step
  | refl c => exact .refl record c
  | symm c d _ alike => exact alike.symm
  | trans c d e _ _ first second => exact first.trans second

theorem regrouping_keeps_results (record : Value) (c d : Condition) :
    (Regrouped c d → c.evaluate record = d.evaluate record) ∧
    (Rearranged c d → LeavesDecide record c →
      ∃ holds, (c.evaluate record).result = .ok holds ∧ (d.evaluate record).result = .ok holds) := by
  refine ⟨regrouped_keeps_verdict record c d, fun related decided => ?_⟩
  obtain ⟨holds, answer⟩ := evaluate_decides record c decided
  have same := (rearranged_alike record c d related).answer decided
  exact ⟨holds, answer, same ▸ answer⟩

theorem three_levels_regrouped :
    let record : Value := .mapping [(.text "vat", .text "MONTHLY"), (.text "staff", .int 12)]
    let a : Condition := .single "staff" (.known .greaterThan) (.int 10) .null
    let b : Condition := .single "vat" (.known .isNotEmpty) .null .null
    let c : Condition := .single "vat" (.unknown (.text "startsWith")) .null .null
    let left := both [both [a, either [c, b]], b]
    let flat := both [a, either [c, b], b]
    let right := both [a, both [either [b, c], b]]
    left.evaluate record = flat.evaluate record ∧
      ∃ holds, (left.evaluate record).result = .ok holds ∧ (right.evaluate record).result = .ok holds := by
  intro record a b c left flat right
  have flattened : Regrouped left flat := .rel _ _ (.here (.nested [] [a, either [c, b]] [b]))
  have leftFlat : Rearranged left flat :=
    .rel _ _ (.here (.flattened (.nested [] [a, either [c, b]] [b])))
  have swapped : Rearranged flat (both [a, either [b, c], b]) :=
    .rel _ _ (.inside [a] [b] (.here (.permuted (.swap b c []))))
  have rightFlat : Rearranged right (both [a, either [b, c], b]) :=
    .rel _ _ (.here (.flattened (.nested [a] [either [b, c], b] [])))
  have related : Rearranged left right :=
    .trans _ _ _ leftFlat (.trans _ _ _ swapped (.symm _ _ rightFlat))
  have decided : LeavesDecide record left := by
    have atA : LeavesDecide record a := (leaves_decide_leaf record a trivial).mpr ⟨true, rfl⟩
    have atB : LeavesDecide record b := (leaves_decide_leaf record b trivial).mpr ⟨true, rfl⟩
    have atC : LeavesDecide record c := (leaves_decide_leaf record c trivial).mpr ⟨false, rfl⟩
    simp [left, both, either, leaves_decide_group, atA, atB, atC]
  exact ⟨(regrouping_keeps_results record left flat).1 flattened,
    (regrouping_keeps_results record left right).2 related decided⟩

end TagRules.Condition
