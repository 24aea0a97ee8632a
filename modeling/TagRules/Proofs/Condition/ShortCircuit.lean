import TagRules.Proofs.Condition.Groups

set_option autoImplicit false

namespace TagRules

theorem Verdict.combine_ended (neutral : Bool) (before : List Verdict) (last : Verdict)
    (after : List Verdict) (goOn : ∀ verdict ∈ before, verdict.result = .ok neutral)
    (stops : last.result ≠ .ok neutral) :
    combine neutral (before ++ last :: after) =
      ⟨last.result, before.flatMap Traced.notes ++ last.notes⟩ := by
  induction before with
  | nil =>
    obtain ⟨result, notes⟩ := last
    cases result with
    | error fault => rfl
    | ok answer =>
      have differs : answer ≠ neutral := fun same => stops (congrArg Except.ok same)
      simp [combine, continueOn, Traced.bind, Traced.pure, differs]
  | cons first rest ih =>
    obtain ⟨atHead, later⟩ := List.forall_mem_cons.mp goOn
    obtain ⟨result, notes⟩ := first
    cases atHead
    simp [combine, continueOn, Traced.bind, ih later]

namespace Condition

structure Ends (record : Value) (combinator : Combinator) (before : List Condition) (last : Condition) :
    Prop where
  goOn : ∀ c ∈ before, (c.evaluate record).result = .ok combinator.neutral
  stops : (last.evaluate record).result ≠ .ok combinator.neutral

structure Frame where
  combinator : Word Combinator
  before : List Condition
  after : List Condition

def Frame.fill (frame : Frame) (c : Condition) : Condition :=
  .group frame.combinator (frame.before ++ c :: frame.after)

-- A condition in its place in a tree; the innermost frame comes first.
def surround (frames : List Frame) (c : Condition) : Condition :=
  frames.foldl (fun inner frame => frame.fill inner) c

theorem fill_congr (record : Value) (frame : Frame) (c d : Condition)
    (same : c.evaluate record = d.evaluate record) :
    (frame.fill c).evaluate record = (frame.fill d).evaluate record := by
  obtain ⟨combinator, before, after⟩ := frame
  cases combinator with
  | unknown v => rfl
  | known combinator =>
    simp only [Frame.fill, evaluate_group, List.map_append, List.map_cons, same]

theorem surround_congr (record : Value) (frames : List Frame) (c d : Condition)
    (same : c.evaluate record = d.evaluate record) :
    (surround frames c).evaluate record = (surround frames d).evaluate record := by
  induction frames generalizing c d with
  | nil => exact same
  | cons frame rest ih => exact ih _ _ (fill_congr record frame c d same)

theorem evaluate_ended (record : Value) (combinator : Combinator) (before : List Condition)
    (last : Condition) (ends : Ends record combinator before last) (after : List Condition) :
    (group (.known combinator) (before ++ last :: after)).evaluate record =
      ⟨(last.evaluate record).result,
        before.flatMap (fun c => (c.evaluate record).notes) ++ (last.evaluate record).notes⟩ := by
  have goOn : ∀ verdict ∈ before.map (evaluate record), verdict.result = .ok combinator.neutral := by
    intro verdict member
    obtain ⟨c, inside, rfl⟩ := List.mem_map.mp member
    exact ends.goOn c inside
  rw [evaluate_group, List.map_append, List.map_cons,
    Verdict.combine_ended combinator.neutral _ _ _ goOn ends.stops, List.flatMap_map]

theorem ends_or_goes_on (record : Value) (combinator : Combinator) (children : List Condition) :
    (∀ c ∈ children, (c.evaluate record).result = .ok combinator.neutral) ∨
      ∃ before last after, children = before ++ last :: after ∧ Ends record combinator before last := by
  induction children with
  | nil => exact .inl (List.forall_mem_nil _)
  | cons first rest ih =>
    by_cases goesOn : (first.evaluate record).result = .ok combinator.neutral
    · rcases ih with all | ⟨before, last, after, rfl, ends⟩
      · exact .inl (List.forall_mem_cons.mpr ⟨goesOn, all⟩)
      · exact .inr ⟨first :: before, last, after, rfl,
          ⟨List.forall_mem_cons.mpr ⟨goesOn, ends.goOn⟩, ends.stops⟩⟩
    · exact .inr ⟨[], first, rest, rfl, ⟨List.forall_mem_nil _, goesOn⟩⟩

theorem group_fails_iff (record : Value) (combinator : Combinator) (children : List Condition)
    (fault : Fault) :
    ((group (.known combinator) children).evaluate record).result = .error fault ↔
      ∃ before last after, children = before ++ last :: after ∧ Ends record combinator before last ∧
        (last.evaluate record).result = .error fault := by
  constructor
  · intro failed
    rcases ends_or_goes_on record combinator children with all | ⟨before, last, after, rfl, ends⟩
    · have agreed := Verdict.combine_agreed combinator.neutral (children.map (evaluate record))
        (List.forall_mem_map.mpr all)
      rw [evaluate_group, agreed] at failed
      cases failed
    · rw [evaluate_ended record combinator before last ends after] at failed
      exact ⟨before, last, after, rfl, ends, failed⟩
  · rintro ⟨before, last, after, rfl, ends, failed⟩
    rw [evaluate_ended record combinator before last ends after]
    exact failed

theorem later_siblings_isolated (record : Value) (combinator : Combinator) :
    (∀ before last, Ends record combinator before last →
      (∀ after, (group (.known combinator) (before ++ last :: after)).evaluate record =
        ⟨(last.evaluate record).result,
          before.flatMap (fun c => (c.evaluate record).notes) ++ (last.evaluate record).notes⟩) ∧
      ∀ frames after other,
        (surround frames (.group (.known combinator) (before ++ last :: after))).evaluate record =
          (surround frames (.group (.known combinator) (before ++ last :: other))).evaluate record) ∧
    ∀ children fault, ((group (.known combinator) children).evaluate record).result = .error fault ↔
      ∃ before last after, children = before ++ last :: after ∧ Ends record combinator before last ∧
        (last.evaluate record).result = .error fault := by
  refine ⟨fun before last ends => ?_, group_fails_iff record combinator⟩
  have ended := evaluate_ended record combinator before last ends
  refine ⟨ended, fun frames after other => surround_congr record frames _ _ ?_⟩
  rw [ended after, ended other]

theorem failing_sibling_is_not_reached :
    let record : Value := .mapping [(.text "x", .decimal (.signalling false 0))]
    let failing : Condition := .single "x" (.known .equals) (.int 1) .null
    let unnamed : Condition := .single "x" (.unknown (.text "startsWith")) (.int 1) .null
    let filled : Condition := .single "x" (.known .isNotEmpty) .null .null
    let frames : List Frame := [⟨.known .any, [.foreign (.bool true)], [filled]⟩]
    (failing.evaluate record).result = .error .signallingOperand ∧
      (surround frames (both [filled, unnamed, failing])).evaluate record =
        (surround frames (both [filled, unnamed])).evaluate record ∧
      (surround frames (both [filled, unnamed])).evaluate record =
        ⟨.ok true, [.unsupportedNode "bool", .unknownOperator "startsWith"]⟩ := by
  intro record failing unnamed filled frames
  have ends : Ends record .all [filled] unnamed := ⟨by simp [filled]; rfl, nofun⟩
  have isolated := ((later_siblings_isolated record .all).1 [filled] unnamed ends).2
  exact ⟨rfl, isolated frames [failing] [], rfl⟩

end Condition

end TagRules
