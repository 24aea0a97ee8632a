import TagRules.Proofs.Assignment.Late
import TagRules.Proofs.Concurrent.Standing

/-!
The write of a run comes later than its reading; for each client that it names, it does what reading
and writing at once would do.
-/

set_option autoImplicit false

namespace TagRules

open Service AssignmentTable Reconcile

namespace Request

def adds : Request → List (String × String)
  | .applyDiff client diff => diff.toAdd.map fun tag => (client, tag)
  | .applyTagDiff diff => diff.toAdd.map fun client => (client, diff.tag)
  | _ => []

def removes : Request → List (String × String)
  | .applyDiff client diff => diff.toRemove.map fun tag => (client, tag)
  | .applyTagDiff diff => diff.toRemove.map fun client => (client, diff.tag)
  | _ => []

theorem effect_accepted (r : Request) (accepted : r.accepted = true) (table : AssignmentTable) :
    r.effect table = change r.adds r.removes table := by
  cases r with
  | applyDiff client diff =>
    have named : ¬ client.isEmpty = true := by simpa [Request.accepted] using accepted
    simp only [effect, if_neg named, apply_diff_eq_change, adds, removes]
  | applyTagDiff diff => exact apply_tag_diff_eq_change diff table
  | _ => cases accepted

theorem effect_refused (r : Request) (refused : r.accepted = false) (table : AssignmentTable) :
    r.effect table = table := by
  cases r with
  | applyDiff client diff =>
    have nameless : client.isEmpty = true := by simpa [Request.accepted] using refused
    simp only [effect, if_pos nameless]
  | applyTagDiff diff => cases refused
  | _ => rfl

theorem coherent_effect (r : Request) (table : AssignmentTable) (coherent : Coherent table) :
    Coherent (r.effect table) := by
  cases kind : r.accepted with
  | true =>
    rw [effect_accepted r kind]
    exact coherent_change _ _ table coherent
  | false =>
    rw [effect_refused r kind]
    exact coherent

theorem pair_named {r : Request} {pair : String × String} (listed : pair ∈ r.adds ∨ pair ∈ r.removes) :
    pair.1 ∈ r.clients := by
  cases r with
  | applyDiff client diff =>
    simp only [adds, removes, List.mem_map] at listed
    rcases listed with ⟨tag, _, rfl⟩ | ⟨tag, _, rfl⟩ <;> exact List.mem_singleton_self client
  | applyTagDiff diff =>
    simp only [adds, removes, List.mem_map] at listed
    rcases listed with ⟨client, isAdded, rfl⟩ | ⟨client, isRemoved, rfl⟩
    · exact List.mem_append_left _ isAdded
    · exact List.mem_append_right _ isRemoved
  | _ => simp [adds, removes] at listed

theorem links_of_unnamed (r : Request) (client : String) (unnamed : client ∉ r.clients)
    (table : AssignmentTable) : linksOf client (r.effect table) = linksOf client table := by
  cases kind : r.accepted with
  | true =>
    rw [effect_accepted r kind]
    have apart : ∀ pair, pair ∈ r.adds ∨ pair ∈ r.removes → decide (pair.1 = client) = false := by
      intro pair listed
      exact decide_eq_false fun same => unnamed (same ▸ pair_named listed)
    exact change_apart (fun key => decide (key.1 = client)) _ _ table
      (fun pair isAdded => apart pair (.inl isAdded)) fun pair isRemoved => apart pair (.inr isRemoved)
  | false => rw [effect_refused r kind]

end Request

namespace Aim

def act (aim : Aim) (table : AssignmentTable) : AssignmentTable :=
  match aim.due table with
  | some w => w.effect table
  | none => table

def effect (client : String) (aim : Aim) (links : AssignmentTable) : AssignmentTable :=
  linksOf client (aim.act links)

def names (client : String) (aim : Aim) (table : AssignmentTable) : Bool :=
  (aim.due table).any fun w => decide (client ∈ w.clients)

def concerns (client : String) : Aim → Bool
  | .one job => decide (job.client = client)
  | .many _ _ => true

theorem names_iff (client : String) (aim : Aim) (table : AssignmentTable) :
    aim.names client table = true ↔ ∃ w, aim.due table = some w ∧ client ∈ w.clients := by
  simp [names, Option.any_eq_true]

theorem due_one_iff (job : Job) (table : AssignmentTable) (w : Request) :
    (Aim.one job).due table = some w ↔
      ∃ desired, (matching job.record job.tags).result = .ok desired ∧
        (diffOf desired (ofClient job.client table)).isEmpty = false ∧
        w = .applyDiff job.client (diffOf desired (ofClient job.client table)) := by
  simp only [due, Reconcile.client, Traced.result_map]
  cases (matching job.record job.tags).result with
  | error e => simp [Except.map]
  | ok desired =>
    simp only [Except.map, Except.ok.injEq, exists_eq_left']
    generalize diffOf desired (ofClient job.client table) = diff
    cases nothing : diff.isEmpty with
    | true => exact ⟨fun same => by simp at same, fun both => by cases both.1⟩
    | false =>
      exact ⟨fun same => ⟨rfl, (Option.some.inj same).symm⟩, fun both => congrArg some both.2.symm⟩

theorem due_many_iff (tag : Tag) (pairs : List (String × Value)) (table : AssignmentTable)
    (w : Request) :
    (Aim.many tag pairs).due table = some w ↔
      (∀ client ∈ Dictionary.ofList pairs, Evaluates client.2 [tag]) ∧
        (tagDiffOf tag (Dictionary.ofList pairs) (ofTag tag.id table)).isEmpty = false ∧
        w = .applyTagDiff (tagDiffOf tag (Dictionary.ofList pairs) (ofTag tag.id table)) := by
  by_cases evaluates : ∀ client ∈ Dictionary.ofList pairs, Evaluates client.2 [tag]
  · rw [due, tag_found tag _ _ evaluates]
    dsimp only
    generalize tagDiffOf tag (Dictionary.ofList pairs) (ofTag tag.id table) = diff
    cases nothing : diff.isEmpty with
    | true => exact ⟨fun same => by simp at same, fun all => by cases all.2.1⟩
    | false =>
      exact ⟨fun same => ⟨evaluates, rfl, (Option.some.inj same).symm⟩,
        fun all => congrArg some all.2.2.symm⟩
  · simp only [due, evaluates, false_and, iff_false]
    cases found : (Reconcile.tag tag (Dictionary.ofList pairs) (ofTag tag.id table)).result with
    | error e => simp
    | ok diff => exact absurd (tag_evaluates tag _ _ diff found) evaluates

theorem act_one (job : Job) (desired : List String)
    (found : (matching job.record job.tags).result = .ok desired) (table : AssignmentTable) :
    (Aim.one job).act table =
      if job.client.isEmpty then table else settled job.client desired table := by
  cases isDue : (Aim.one job).due table with
  | some w =>
    obtain ⟨ids, foundToo, _, rfl⟩ := (due_one_iff job table w).mp isDue
    obtain rfl := Except.ok.inj (found.symm.trans foundToo)
    simp only [act, isDue]
    rfl
  | none =>
    have nothing : (diffOf desired (ofClient job.client table)).isEmpty = true := by
      refine Bool.of_not_eq_false fun something => ?_
      cases isDue.symm.trans ((due_one_iff job table _).mpr ⟨desired, found, something, rfl⟩)
    simp only [act, isDue, settled, apply_empty_diff _ _ _ nothing, ite_self]

theorem act_one_failed (job : Job) (e : Fault)
    (failed : (matching job.record job.tags).result = .error e) (table : AssignmentTable) :
    (Aim.one job).act table = table := by
  cases isDue : (Aim.one job).due table with
  | some w =>
    obtain ⟨ids, found, _⟩ := (due_one_iff job table w).mp isDue
    cases failed.symm.trans found
  | none => simp only [act, isDue]

theorem act_many (tag : Tag) (pairs : List (String × Value))
    (evaluates : ∀ client ∈ Dictionary.ofList pairs, Evaluates client.2 [tag])
    (table : AssignmentTable) :
    (Aim.many tag pairs).act table = settledTag tag (Dictionary.ofList pairs) table := by
  cases isDue : (Aim.many tag pairs).due table with
  | some w =>
    obtain ⟨_, _, rfl⟩ := (due_many_iff tag pairs table w).mp isDue
    simp only [act, isDue]
    rfl
  | none =>
    have nothing : (tagDiffOf tag (Dictionary.ofList pairs) (ofTag tag.id table)).isEmpty = true := by
      refine Bool.of_not_eq_false fun something => ?_
      cases isDue.symm.trans ((due_many_iff tag pairs table _).mpr ⟨evaluates, something, rfl⟩)
    simp only [act, isDue, settledTag, apply_empty_tag_diff _ _ nothing]

theorem act_many_failed (tag : Tag) (pairs : List (String × Value))
    (fails : ¬ ∀ client ∈ Dictionary.ofList pairs, Evaluates client.2 [tag])
    (table : AssignmentTable) : (Aim.many tag pairs).act table = table := by
  cases isDue : (Aim.many tag pairs).due table with
  | some w => exact absurd ((due_many_iff tag pairs table w).mp isDue).1 fails
  | none => simp only [act, isDue]

theorem due_exact (aim : Aim) {table : AssignmentTable} {w : Request} (coherent : Coherent table)
    (due : aim.due table = some w) : Exact w.adds w.removes table := by
  cases aim with
  | one job =>
    obtain ⟨desired, found, _, rfl⟩ := (due_one_iff job table w).mp due
    exact diff_exact desired (matching_once job.record job.tags desired found) table coherent job.client
  | many tag pairs =>
    obtain ⟨_, _, rfl⟩ := (due_many_iff tag pairs table w).mp due
    have exact := tag_diff_exact tag _ (Dictionary.nodup_keys_of_list pairs) table coherent
    rw [Request.adds, Request.removes, tag_diff_of_tag]
    exact exact

theorem concerned_if_named (client : String) (aim : Aim) (table : AssignmentTable)
    (named : aim.names client table = true) : aim.concerns client = true := by
  obtain ⟨w, due, listed⟩ := (names_iff client aim table).mp named
  cases aim with
  | one job =>
    obtain ⟨_, _, _, rfl⟩ := (due_one_iff job table w).mp due
    exact decide_eq_true (List.mem_singleton.mp listed).symm
  | many tag pairs => rfl

theorem links_of_act (client : String) (aim : Aim) (table : AssignmentTable)
    (coherent : Coherent table) :
    linksOf client (aim.act table) = aim.effect client (linksOf client table) := by
  rw [effect]
  cases aim with
  | one job =>
    cases found : (matching job.record job.tags).result with
    | error e => rw [act_one_failed job e found, act_one_failed job e found, links_of_links_of]
    | ok desired =>
      rw [act_one job desired found, act_one job desired found]
      by_cases nameless : job.client.isEmpty = true
      · rw [if_pos nameless, if_pos nameless, links_of_links_of]
      · rw [if_neg nameless, if_neg nameless]
        by_cases same : job.client = client
        · subst same
          rw [settled, settled, links_of_own_diff, links_of_own_diff, of_client_links_of,
            links_of_links_of]
        · rw [settled, settled, links_of_other_diff _ _ (Ne.symm same),
            links_of_other_diff _ _ (Ne.symm same), links_of_links_of]
  | many tag pairs =>
    by_cases evaluates : ∀ client ∈ Dictionary.ofList pairs, Evaluates client.2 [tag]
    · rw [act_many tag pairs evaluates, act_many tag pairs evaluates]
      exact links_of_settled_tag tag _ (Dictionary.nodup_keys_of_list pairs) client table coherent
    · rw [act_many_failed tag pairs evaluates, act_many_failed tag pairs evaluates, links_of_links_of]

theorem links_of_idle_act (client : String) (aim : Aim) (table : AssignmentTable)
    (unnamed : aim.names client table = false) :
    linksOf client (aim.act table) = linksOf client table := by
  unfold act
  cases isDue : aim.due table with
  | none => rfl
  | some w =>
    refine w.links_of_unnamed client (fun listed => ?_) table
    have named := (names_iff client aim table).mpr ⟨w, isDue, listed⟩
    rw [unnamed] at named
    cases named

def Shielded (aim : Aim) (before now : AssignmentTable) : Prop :=
  ∀ job, aim = .one job → ByHandOnly job.client before now

theorem links_of_late_write (client : String) (aim : Aim) {before now : AssignmentTable} {w : Request}
    (due : aim.due before = some w) (named : client ∈ w.clients) (coherent : Coherent before)
    (coherentNow : Coherent now) (shielded : aim.Shielded before now) :
    linksOf client (w.effect now) = linksOf client (aim.act now) := by
  cases aim with
  | one job =>
    obtain ⟨desired, found, _, rfl⟩ := (due_one_iff job before w).mp due
    rw [act_one job desired found, Request.effect,
      late_diff job.client desired coherent coherentNow (shielded job rfl)]
  | many tag pairs =>
    obtain ⟨evaluates, _, rfl⟩ := (due_many_iff tag pairs before w).mp due
    rw [act_many tag pairs evaluates]
    exact late_tag_diff tag _ (Dictionary.nodup_keys_of_list pairs) coherent coherentNow client named

end Aim

end TagRules
