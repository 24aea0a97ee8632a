import TagRules.Condition.Evaluate

set_option autoImplicit false

namespace TagRules

def Combinator.neutral : Combinator → Bool
  | .all => true
  | .any => false

namespace Verdict

def combine (neutral : Bool) : List Verdict → Verdict
  | [] => Traced.pure neutral
  | first :: rest => continueOn neutral first fun _ => combine neutral rest

theorem continue_on_neutral (neutral : Bool) (next : Unit → Verdict) :
    continueOn neutral (Traced.pure neutral) next = next () := by
  simp [continueOn]

theorem continue_on_assoc (neutral : Bool) (first : Verdict) (second third : Unit → Verdict) :
    continueOn neutral (continueOn neutral first second) third =
      continueOn neutral first fun _ => continueOn neutral (second ()) third := by
  rw [continueOn, continueOn, Traced.bind_assoc, continueOn]
  congr 1
  funext answer
  by_cases same : answer = neutral
  · simp only [if_pos same, continueOn]
  · simp only [if_neg same, Traced.pure_bind]

theorem continue_on_not (neutral : Bool) (first : Verdict) (next : Unit → Verdict) :
    continueOn (!neutral) (first.map (!·)) (fun u => (next u).map (!·)) =
      (continueOn neutral first next).map (!·) := by
  obtain ⟨result, notes⟩ := first
  cases result with
  | error fault => rfl
  | ok answer =>
    by_cases same : answer = neutral
    · simp [continueOn, Traced.map, Traced.bind, Except.map, same]
    · have other : ¬ (!answer) = !neutral := fun equal => same (Bool.not_inj equal)
      simp [continueOn, Traced.map, Traced.bind, Traced.pure, Except.map, same]

theorem combine_append (neutral : Bool) (before after : List Verdict) :
    combine neutral (before ++ after) =
      continueOn neutral (combine neutral before) fun _ => combine neutral after := by
  induction before with
  | nil => exact (continue_on_neutral neutral fun _ => combine neutral after).symm
  | cons first rest ih => rw [List.cons_append, combine, ih, combine, continue_on_assoc]

theorem combine_nested (neutral : Bool) (before inner after : List Verdict) :
    combine neutral (before ++ combine neutral inner :: after) =
      combine neutral (before ++ inner ++ after) := by
  rw [List.append_assoc, combine_append neutral before, combine_append neutral before,
    combine_append neutral inner, combine]

theorem combine_not (neutral : Bool) (verdicts : List Verdict) :
    combine (!neutral) (verdicts.map fun verdict => verdict.map (!·)) =
      (combine neutral verdicts).map (!·) := by
  induction verdicts with
  | nil => rfl
  | cons first rest ih =>
    rw [List.map_cons, combine, ih, combine]
    exact continue_on_not neutral first fun _ => combine neutral rest

theorem result_combine_cons (neutral : Bool) (first : Verdict) (rest : List Verdict) :
    (combine neutral (first :: rest)).result = first.result.bind fun answer =>
      if answer = neutral then (combine neutral rest).result else .ok answer := by
  rw [combine, continueOn, Traced.result_bind]
  congr 1
  funext answer
  by_cases same : answer = neutral
  · rw [if_pos same, if_pos same]
  · rw [if_neg same, if_neg same]
    rfl

theorem combine_error (neutral : Bool) (verdicts : List Verdict) (fault : Fault)
    (failed : (combine neutral verdicts).result = .error fault) :
    ∃ verdict ∈ verdicts, verdict.result = .error fault := by
  induction verdicts with
  | nil => cases failed
  | cons first rest ih =>
    rw [result_combine_cons] at failed
    cases atHead : first.result with
    | error other =>
      rw [atHead] at failed
      exact ⟨first, List.mem_cons_self, atHead.trans failed⟩
    | ok answer =>
      simp only [atHead, Except.bind] at failed
      by_cases same : answer = neutral
      · rw [if_pos same] at failed
        obtain ⟨verdict, member, fails⟩ := ih failed
        exact ⟨verdict, List.mem_cons_of_mem first member, fails⟩
      · rw [if_neg same] at failed
        cases failed

theorem combine_agreed (neutral : Bool) (verdicts : List Verdict)
    (agreed : ∀ verdict ∈ verdicts, verdict.result = .ok neutral) :
    (combine neutral verdicts).result = .ok neutral := by
  induction verdicts with
  | nil => rfl
  | cons first rest ih =>
    obtain ⟨atHead, later⟩ := List.forall_mem_cons.mp agreed
    rw [result_combine_cons, atHead]
    exact (if_pos rfl).trans (ih later)

theorem combine_stopped (neutral : Bool) (verdicts : List Verdict)
    (decided : ∀ verdict ∈ verdicts, ∃ answer, verdict.result = .ok answer)
    (stopped : ∃ verdict ∈ verdicts, verdict.result = .ok !neutral) :
    (combine neutral verdicts).result = .ok !neutral := by
  induction verdicts with
  | nil =>
    obtain ⟨_, member, _⟩ := stopped
    cases member
  | cons first rest ih =>
    obtain ⟨⟨answer, atHead⟩, later⟩ := List.forall_mem_cons.mp decided
    rw [result_combine_cons, atHead]
    by_cases same : answer = neutral
    · have below : ∃ verdict ∈ rest, verdict.result = .ok !neutral := by
        obtain ⟨verdict, member, stops⟩ := stopped
        rcases List.mem_cons.mp member with rfl | member
        · rw [atHead, same] at stops
          exact absurd (Except.ok.inj stops) (by cases neutral <;> decide)
        · exact ⟨verdict, member, stops⟩
      exact (if_pos same).trans (ih later below)
    · have opposite : answer = !neutral := Bool.eq_not.mpr same
      exact (if_neg same).trans (congrArg Except.ok opposite)

theorem agreed_unless_stopped (neutral : Bool) (verdicts : List Verdict)
    (decided : ∀ verdict ∈ verdicts, ∃ answer, verdict.result = .ok answer)
    (goesOn : ¬ ∃ verdict ∈ verdicts, verdict.result = .ok !neutral) :
    ∀ verdict ∈ verdicts, verdict.result = .ok neutral := by
  intro verdict member
  obtain ⟨answer, found⟩ := decided verdict member
  by_cases same : answer = neutral
  · rw [found, same]
  · exact absurd ⟨verdict, member, by rw [found, Bool.eq_not.mpr same]⟩ goesOn

theorem combine_decided (neutral : Bool) (verdicts : List Verdict)
    (decided : ∀ verdict ∈ verdicts, ∃ answer, verdict.result = .ok answer) :
    ∃ answer, (combine neutral verdicts).result = .ok answer := by
  by_cases stopped : ∃ verdict ∈ verdicts, verdict.result = .ok !neutral
  · exact ⟨!neutral, combine_stopped neutral verdicts decided stopped⟩
  · exact ⟨neutral, combine_agreed neutral verdicts (agreed_unless_stopped neutral verdicts decided stopped)⟩

theorem combine_same_results (neutral : Bool) (verdicts others : List Verdict)
    (same : verdicts.map (·.result) = others.map (·.result)) :
    (combine neutral verdicts).result = (combine neutral others).result := by
  induction verdicts generalizing others with
  | nil =>
    cases others with
    | nil => rfl
    | cons other more => cases same
  | cons first rest ih =>
    cases others with
    | nil => cases same
    | cons other more =>
      obtain ⟨atHead, later⟩ := List.cons.inj same
      have atHead : first.result = other.result := atHead
      have below := ih more later
      rw [result_combine_cons, result_combine_cons, atHead, below]

theorem combine_same_members (neutral : Bool) (verdicts others : List Verdict)
    (decided : ∀ verdict ∈ verdicts, ∃ answer, verdict.result = .ok answer)
    (same : ∀ verdict, verdict ∈ verdicts ↔ verdict ∈ others) :
    (combine neutral verdicts).result = (combine neutral others).result := by
  have othersDecided : ∀ verdict ∈ others, ∃ answer, verdict.result = .ok answer :=
    fun verdict member => decided verdict ((same verdict).mpr member)
  by_cases stopped : ∃ verdict ∈ verdicts, verdict.result = .ok !neutral
  · obtain ⟨verdict, member, stops⟩ := stopped
    rw [combine_stopped neutral verdicts decided ⟨verdict, member, stops⟩,
      combine_stopped neutral others othersDecided ⟨verdict, (same verdict).mp member, stops⟩]
  · have agreed := agreed_unless_stopped neutral verdicts decided stopped
    rw [combine_agreed neutral verdicts agreed,
      combine_agreed neutral others fun verdict member => agreed verdict ((same verdict).mpr member)]

end Verdict

namespace Condition

theorem evaluate_group (record : Value) (combinator : Combinator) (children : List Condition) :
    (group (.known combinator) children).evaluate record =
      Verdict.combine combinator.neutral (children.map (evaluate record)) := by
  cases combinator with
  | all =>
    rw [evaluate]
    induction children with
    | nil => rfl
    | cons child rest ih => rw [evaluateAll, ih, List.map_cons, Verdict.combine, Combinator.neutral]
  | any =>
    rw [evaluate]
    induction children with
    | nil => rfl
    | cons child rest ih => rw [evaluateAny, ih, List.map_cons, Verdict.combine, Combinator.neutral]

inductive Within (part : Condition) : Condition → Prop
  | whole : Within part part
  | inside {combinator : Combinator} {children : List Condition} {child : Condition}
      (member : child ∈ children) (deeper : Within part child) :
      Within part (.group (.known combinator) children)

def IsLeaf : Condition → Prop
  | .group (.known _) _ => False
  | _ => True

def LeavesDecide (record : Value) (c : Condition) : Prop :=
  ∀ leaf, Within leaf c → leaf.IsLeaf → ∃ holds, (leaf.evaluate record).result = .ok holds

theorem leaves_decide_leaf (record : Value) (leaf : Condition) (isLeaf : leaf.IsLeaf) :
    LeavesDecide record leaf ↔ ∃ holds, (leaf.evaluate record).result = .ok holds := by
  constructor
  · intro decided
    exact decided leaf .whole isLeaf
  · intro decides part within _
    cases within with
    | whole => exact decides
    | inside => exact isLeaf.elim

theorem leaves_decide_group (record : Value) (combinator : Combinator) (children : List Condition) :
    LeavesDecide record (.group (.known combinator) children) ↔
      ∀ child ∈ children, LeavesDecide record child := by
  constructor
  · intro decided child member leaf within isLeaf
    exact decided leaf (.inside member within) isLeaf
  · intro decided leaf within isLeaf
    cases within with
    | whole => exact isLeaf.elim
    | inside member deeper => exact decided _ member leaf deeper isLeaf

theorem group_decides (record : Value) (combinator : Combinator) (children : List Condition)
    (decided : ∀ child ∈ children, ∃ holds, (child.evaluate record).result = .ok holds) :
    ∃ holds, ((group (.known combinator) children).evaluate record).result = .ok holds := by
  rw [evaluate_group]
  apply Verdict.combine_decided
  intro verdict member
  obtain ⟨child, isChild, rfl⟩ := List.mem_map.mp member
  exact decided child isChild

mutual

theorem evaluate_decides (record : Value) (c : Condition) (decided : LeavesDecide record c) :
    ∃ holds, (c.evaluate record).result = .ok holds := by
  cases c with
  | single field operator value second => exact decided _ .whole trivial
  | foreign v => exact decided _ .whole trivial
  | group combinator children =>
      cases combinator with
      | unknown v => exact decided _ .whole trivial
      | known combinator =>
          have each := (leaves_decide_group record combinator children).mp decided
          exact group_decides record combinator children (each_decides record children each)

theorem each_decides (record : Value) (children : List Condition)
    (decided : ∀ child ∈ children, LeavesDecide record child) :
    ∀ child ∈ children, ∃ holds, (child.evaluate record).result = .ok holds := by
  cases children with
  | nil => nofun
  | cons first rest =>
      obtain ⟨atHead, later⟩ := List.forall_mem_cons.mp decided
      exact List.forall_mem_cons.mpr
        ⟨evaluate_decides record first atHead, each_decides record rest later⟩

end

mutual

def rebuild (combine : Combinator → Combinator)
    (leaf : String → Operator → Value → Value → Condition) : Condition → Condition
  | .single field (.known operator) value second => leaf field operator value second
  | .group (.known combinator) children =>
      .group (.known (combine combinator)) (rebuildAll combine leaf children)
  | other => other

def rebuildAll (combine : Combinator → Combinator)
    (leaf : String → Operator → Value → Value → Condition) : List Condition → List Condition
  | [] => []
  | child :: rest => rebuild combine leaf child :: rebuildAll combine leaf rest

end

theorem rebuild_all_eq_map (combine : Combinator → Combinator)
    (leaf : String → Operator → Value → Value → Condition) (children : List Condition) :
    rebuildAll combine leaf children = children.map (rebuild combine leaf) := by
  induction children with
  | nil => rfl
  | cons child rest ih => rw [rebuildAll, ih, List.map_cons]

theorem rebuild_group (combine : Combinator → Combinator)
    (leaf : String → Operator → Value → Value → Condition) (combinator : Combinator)
    (children : List Condition) :
    rebuild combine leaf (.group (.known combinator) children) =
      .group (.known (combine combinator)) (children.map (rebuild combine leaf)) := by
  rw [rebuild, rebuild_all_eq_map]

end Condition

end TagRules
