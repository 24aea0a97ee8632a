import TagRules.Proofs.Assignment.Late
import TagRules.Proofs.Service.Calls

set_option autoImplicit false

namespace TagRules

namespace AssignmentTable

theorem add_auto_unlinked {client tag : String} {table : AssignmentTable}
    (free : link? client tag table = none) :
    addAuto client tag table = table ++ [((client, tag), ⟨tag, true, some client⟩)] := by
  have fresh : (client, tag) ∉ Dictionary.keys table := by
    intro known
    obtain ⟨a, found⟩ := (Dictionary.mem_keys_iff (client, tag) table).mp known
    cases free.symm.trans found
  rw [link?] at free
  rw [addAuto, free]
  exact Dictionary.put_fresh (client, tag) _ table fresh

theorem add_all_appends (pairs : List (String × String)) (table : AssignmentTable) :
    ∃ fresh, addAll pairs table = table ++ fresh ∧ ∀ entry ∈ fresh,
      entry.2.auto = true ∧ entry.1 ∈ pairs ∧ link? entry.1.1 entry.1.2 table = none := by
  induction pairs generalizing table with
  | nil => exact ⟨[], (List.append_nil table).symm, fun entry member => absurd member List.not_mem_nil⟩
  | cons pair rest ih =>
    obtain ⟨client, tag⟩ := pair
    obtain ⟨later, appended, kinds⟩ := ih (addAuto client tag table)
    rw [add_all_cons]
    have kept : ∀ entry ∈ later, entry.2.auto = true ∧ entry.1 ∈ (client, tag) :: rest ∧
        link? entry.1.1 entry.1.2 table = none := by
      intro entry member
      obtain ⟨auto, named, free⟩ := kinds entry member
      refine ⟨auto, List.mem_cons_of_mem _ named, ?_⟩
      rw [link_add_auto] at free
      by_cases same : (client, tag) = (entry.1.1, entry.1.2)
      · rw [if_pos same] at free
        cases free
      · rwa [if_neg same] at free
    cases found : link? client tag table with
    | some a =>
      rw [add_auto_linked found] at appended ⊢
      exact ⟨later, appended, kept⟩
    | none =>
      refine ⟨((client, tag), ⟨tag, true, some client⟩) :: later, ?_, fun entry member => ?_⟩
      · rw [appended, add_auto_unlinked found, List.append_assoc, List.singleton_append]
      · rcases List.mem_cons.mp member with rfl | atEnd
        · exact ⟨rfl, List.mem_cons_self, found⟩
        · exact kept entry atEnd

-- What a written change comes to: pairs to remove have no automatic link, the other pairs to add have a
-- link, and links made by hand and links of other pairs are the same, in the same order.
structure Carried (added removed : List (String × String)) (before after : AssignmentTable) : Prop where
  unlinked : ∀ pair ∈ removed, ¬ HasAuto pair.1 pair.2 after
  linked : ∀ pair ∈ added, pair ∉ removed → ∃ a, link? pair.1 pair.2 after = some a
  others : after.filter (fun entry => !entry.2.auto || decide (entry.1 ∉ added ++ removed)) =
    before.filter fun entry => !entry.2.auto || decide (entry.1 ∉ added ++ removed)

theorem change_carried (added removed : List (String × String)) (table : AssignmentTable)
    (coherent : Coherent table) : Carried added removed table (change added removed table) := by
  refine ⟨?_, ?_, ?_⟩
  · rintro ⟨client, tag⟩ isRemoved ⟨a, found, auto⟩
    rw [link_change] at found
    dsimp only at found
    rw [if_pos isRemoved] at found
    have manual := (Option.filter_eq_some_iff.mp found).2
    rw [auto] at manual
    cases manual
  · rintro ⟨client, tag⟩ isAdded notRemoved
    refine ⟨(link? client tag table).getD ⟨tag, true, some client⟩, ?_⟩
    rw [link_change]
    dsimp only
    rw [if_neg notRemoved, if_pos isAdded]
  · obtain ⟨fresh, appended, kinds⟩ := add_all_appends added table
    rw [change_eq_filter added removed table coherent, List.filter_filter, appended,
      List.filter_append]
    have noneFresh : fresh.filter (fun entry =>
        (!entry.2.auto || decide (entry.1 ∉ added ++ removed)) &&
          !(entry.2.auto && decide (entry.1 ∈ removed))) = [] := by
      refine List.filter_eq_nil_iff.mpr fun entry member => ?_
      obtain ⟨auto, named, _⟩ := kinds entry member
      simp [auto, named]
    rw [noneFresh, List.append_nil]
    refine List.filter_congr fun entry _ => ?_
    cases auto : entry.2.auto with
    | false => simp
    | true => by_cases isRemoved : entry.1 ∈ removed <;> simp [isRemoved]

theorem change_twice (added removed : List (String × String)) (table : AssignmentTable)
    (coherent : Coherent table) :
    change added removed (change added removed table) = change added removed table := by
  let keep := fun entry : (String × String) × Assignment => !(entry.2.auto && decide (entry.1 ∈ removed))
  have changing : ∀ t, Coherent t → change added removed t = (addAll added t).filter keep :=
    change_eq_filter added removed
  have written : (change added removed table).filter keep = change added removed table := by
    rw [changing table coherent, List.filter_filter]
    simp only [Bool.and_self]
  have coherentAfter := coherent_change added removed table coherent
  generalize after : change added removed table = done at written coherentAfter ⊢
  obtain ⟨fresh, appended, kinds⟩ := add_all_appends added done
  -- What the second writing adds anew was removed by the first one, and so it is again.
  have taken : fresh.filter keep = [] := by
    refine List.filter_eq_nil_iff.mpr fun entry member => ?_
    obtain ⟨auto, named, free⟩ := kinds entry member
    have isRemoved : entry.1 ∈ removed := by
      refine Decidable.byContradiction fun notRemoved => ?_
      obtain ⟨a, found⟩ := (change_carried added removed table coherent).linked entry.1 named notRemoved
      rw [after] at found
      cases free.symm.trans found
    simp [keep, auto, isRemoved]
  calc change added removed done
      = (done ++ fresh).filter keep := by rw [changing done coherentAfter, appended]
    _ = done.filter keep ++ fresh.filter keep := List.filter_append done fresh
    _ = done := by rw [taken, written, List.append_nil]

end AssignmentTable

namespace Memory

open AssignmentTable

theorem writing_again_changes_nothing (m : Memory) (reachable : Call.Reachable m.table) :
    (∀ (client : String) (diff : Diff), client ≠ "" →
      let written := applyDiff client diff m
      written.1 = .ok () ∧ applyDiff client diff written.2.2 = written ∧
        Carried (diff.toAdd.map fun tag => (client, tag)) (diff.toRemove.map fun tag => (client, tag))
          m.table written.2.2.table) ∧
    ∀ diff : TagDiff,
      let written := applyTagDiff diff m
      written.1 = .ok () ∧ applyTagDiff diff written.2.2 = written ∧
        Carried (diff.toAdd.map fun client => (client, diff.tag))
          (diff.toRemove.map fun client => (client, diff.tag)) m.table written.2.2.table := by
  have coherent := reachable.coherent
  constructor
  · intro client diff named written
    have present : ¬ client.isEmpty = true := by simpa using named
    have writes : ∀ n : Memory, applyDiff client diff n =
        (.ok (), [appliedEvent client diff], { n with table := n.table.applyDiff client diff }) :=
      fun n => by rw [applyDiff, if_neg present]
    have once : written = _ := writes m
    rw [once, writes]
    simp only [apply_diff_eq_change, change_twice _ _ m.table coherent, true_and]
    exact change_carried _ _ m.table coherent
  · intro diff written
    have once : written = (.ok (), [], { m with table := m.table.applyTagDiff diff }) := rfl
    rw [once, applyTagDiff]
    simp only [apply_tag_diff_eq_change, change_twice _ _ m.table coherent, true_and]
    exact change_carried _ _ m.table coherent

theorem contradictory_change_settles :
    let w := Call.runAll Settings.default [.applyDiff "c" ⟨["old", "both"], []⟩,
      .assignManually "c" "hand", .applyDiff "d" ⟨["old"], []⟩] Session.initial
    let diff : Diff := ⟨["new", "both", "hand", "brief", "new"], ["both", "hand", "brief", "unknown"]⟩
    let written := applyDiff "c" diff w.store
    Dictionary.keys written.2.2.table = [("c", "old"), ("c", "hand"), ("d", "old"), ("c", "new")] ∧
      applyDiff "c" diff written.2.2 = written := by
  dsimp only
  refine ⟨rfl, ?_⟩
  exact ((writing_again_changes_nothing _ ⟨Settings.default, _, Session.initial, rfl, rfl⟩).1 "c" _
    (by decide)).2.1

end Memory

end TagRules
