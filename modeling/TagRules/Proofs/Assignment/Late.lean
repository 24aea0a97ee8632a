import TagRules.Proofs.Assignment.Counting

/-!
A change that is written later than it was found does what reconciling at the time of writing would do.
-/

set_option autoImplicit false

namespace TagRules

namespace AssignmentTable

-- From one table to the other, links of the client were at most made by hand.
def ByHandOnly (client : String) (before now : AssignmentTable) : Prop :=
  ∀ tag, link? client tag now = link? client tag before ∨ HasManual client tag now

theorem ByHandOnly.refl (client : String) (table : AssignmentTable) : ByHandOnly client table table :=
  fun _ => .inl rfl

theorem ByHandOnly.same_links {client : String} {before now later : AssignmentTable}
    (byHand : ByHandOnly client before now) (same : linksOf client later = linksOf client now) :
    ByHandOnly client before later := by
  intro tag
  have sameLink : link? client tag later = link? client tag now := by
    rw [← link_of_links_of, same, link_of_links_of]
  rw [HasManual, Linked, sameLink]
  exact byHand tag

theorem ByHandOnly.assign_manually {client : String} {before now : AssignmentTable}
    (byHand : ByHandOnly client before now) (other id : String) :
    ByHandOnly client before (assignManually other id now) := by
  intro tag
  rw [HasManual, Linked, link_assign_manually]
  by_cases same : (other, id) = (client, tag)
  · rw [if_pos same]
    exact .inr ⟨_, rfl, rfl⟩
  · rw [if_neg same]
    exact byHand tag

theorem ByHandOnly.unlinked {client : String} {before now : AssignmentTable}
    (byHand : ByHandOnly client before now) {tag : String} (free : link? client tag now = none) :
    link? client tag before = none := by
  rcases byHand tag with same | ⟨a, found, _⟩
  · rw [← same, free]
  · cases free.symm.trans found

theorem ByHandOnly.has_auto {client : String} {before now : AssignmentTable}
    (byHand : ByHandOnly client before now) {tag : String} (auto : HasAuto client tag now) :
    HasAuto client tag before := by
  rcases byHand tag with same | manual
  · rw [HasAuto, Linked, ← same]
    exact auto
  · obtain ⟨a, found, isAuto⟩ := auto
    obtain ⟨b, foundToo, isManual⟩ := manual
    obtain rfl := Option.some.inj (found.symm.trans foundToo)
    cases isAuto.symm.trans isManual

theorem add_auto_linked {client tag : String} {table : AssignmentTable} {a : Assignment}
    (linked : link? client tag table = some a) : addAuto client tag table = table := by
  unfold addAuto
  rw [show Dictionary.get? (client, tag) table = some a from linked]

theorem add_auto_twice (client tag : String) (table : AssignmentTable) :
    addAuto client tag (addAuto client tag table) = addAuto client tag table :=
  add_auto_linked (by rw [link_add_auto, if_pos rfl])

theorem remove_auto_kept {client tag : String} {table : AssignmentTable}
    (notAuto : ¬ HasAuto client tag table) : removeAuto client tag table = table := by
  unfold removeAuto
  cases found : Dictionary.get? (client, tag) table with
  | none => rfl
  | some a => exact if_neg fun auto => notAuto ⟨a, found, auto⟩

theorem remove_auto_twice (client tag : String) (table : AssignmentTable) :
    removeAuto client tag (removeAuto client tag table) = removeAuto client tag table := by
  refine remove_auto_kept ?_
  rintro ⟨a, found, auto⟩
  rw [link_remove_auto, if_pos rfl] at found
  have manual := (Option.filter_eq_some_iff.mp found).2
  rw [auto] at manual
  cases manual

theorem add_all_skips (p : String × String → Bool) (pairs : List (String × String))
    (table : AssignmentTable)
    (skipped : ∀ pair ∈ pairs, p pair = false → link? pair.1 pair.2 table ≠ none) :
    addAll (pairs.filter p) table = addAll pairs table := by
  induction pairs generalizing table with
  | nil => rfl
  | cons pair rest ih =>
    obtain ⟨client, tag⟩ := pair
    obtain ⟨here, later⟩ := List.forall_mem_cons.mp skipped
    have laterStill : ∀ other ∈ rest, p other = false →
        link? other.1 other.2 (addAuto client tag table) ≠ none := by
      intro other member dropped
      rw [link_add_auto]
      by_cases same : (client, tag) = (other.1, other.2)
      · rw [if_pos same]
        exact Option.some_ne_none _
      · rw [if_neg same]
        exact later other member dropped
    rw [add_all_cons, ← ih _ laterStill]
    cases kept : p (client, tag) with
    | true => rw [List.filter_cons_of_pos kept, add_all_cons]
    | false =>
      obtain ⟨a, found⟩ := Option.ne_none_iff_exists'.mp (here kept)
      rw [List.filter_cons_of_neg (by simp [kept]), add_auto_linked found]

theorem remove_auto_eq_filter (client tag : String) (table : AssignmentTable)
    (coherent : Coherent table) :
    removeAuto client tag table =
      table.filter fun entry => !(entry.2.auto && decide (entry.1 = (client, tag))) := by
  have atKey : ∀ entry ∈ table, entry.1 = (client, tag) →
      Dictionary.get? (client, tag) table = some entry.2 := by
    rintro ⟨key, a⟩ member rfl
    exact (Dictionary.get_some_iff coherent.distinct (client, tag) a).mpr member
  by_cases auto : HasAuto client tag table
  · obtain ⟨a, found, isAuto⟩ := auto
    have erased : removeAuto client tag table = Dictionary.erase (client, tag) table := by
      unfold removeAuto
      rw [show Dictionary.get? (client, tag) table = some a from found]
      exact if_pos isAuto
    rw [erased, Dictionary.erase_eq_filter]
    refine List.filter_congr fun entry member => ?_
    by_cases same : entry.1 = (client, tag)
    · obtain rfl := Option.some.inj (found.symm.trans (atKey entry member same))
      simp [same, isAuto]
    · simp [same]
  · rw [remove_auto_kept auto]
    refine (List.filter_eq_self.mpr fun entry member => ?_).symm
    by_cases same : entry.1 = (client, tag)
    · have manual : entry.2.auto = false := by
        cases kind : entry.2.auto with
        | false => rfl
        | true => exact absurd ⟨entry.2, atKey entry member same, kind⟩ auto
      simp [manual]
    · simp [same]

theorem remove_all_eq_filter (pairs : List (String × String)) (table : AssignmentTable)
    (coherent : Coherent table) :
    removeAll pairs table =
      table.filter fun entry => !(entry.2.auto && decide (entry.1 ∈ pairs)) := by
  induction pairs generalizing table with
  | nil => exact (List.filter_eq_self.mpr fun entry _ => by simp).symm
  | cons pair rest ih =>
    obtain ⟨client, tag⟩ := pair
    rw [remove_all_cons, ih _ (coherent_remove_auto client tag table coherent),
      remove_auto_eq_filter client tag table coherent, List.filter_filter]
    refine List.filter_congr fun entry _ => ?_
    cases kind : entry.2.auto <;> simp [Bool.and_comm]

theorem change_eq_filter (added removed : List (String × String)) (table : AssignmentTable)
    (coherent : Coherent table) :
    change added removed table =
      (addAll added table).filter fun entry => !(entry.2.auto && decide (entry.1 ∈ removed)) :=
  remove_all_eq_filter removed _ (coherent_add_all added table coherent)

theorem change_congr {added others removed rest : List (String × String)} {table : AssignmentTable}
    (coherent : Coherent table)
    (adds : added.filter (fun pair => (link? pair.1 pair.2 table).isNone) =
      others.filter fun pair => (link? pair.1 pair.2 table).isNone)
    (removes : ∀ pair, HasAuto pair.1 pair.2 (addAll added table) → (pair ∈ removed ↔ pair ∈ rest)) :
    change added removed table = change others rest table := by
  have sameAdded : addAll added table = addAll others table := by
    have linked : ∀ pairs : List (String × String), ∀ pair ∈ pairs,
        (link? pair.1 pair.2 table).isNone = false → link? pair.1 pair.2 table ≠ none := by
      intro pairs pair _ linked free
      rw [free] at linked
      cases linked
    rw [← add_all_skips _ added table (linked added), adds, add_all_skips _ others table (linked others)]
  have coherentThen := coherent_add_all added table coherent
  rw [change_eq_filter added removed table coherent, change_eq_filter others rest table coherent,
    ← sameAdded]
  refine List.filter_congr fun entry member => ?_
  cases kind : entry.2.auto with
  | false => simp
  | true =>
    have linked := (coherentThen.mem_iff entry.1.1 entry.1.2 entry.2).mp member
    simp [removes entry.1 ⟨entry.2, linked, kind⟩]

-- An exact change that is written later still makes and removes exactly its links, those aside that
-- were made by hand by then.
theorem Exact.written_late {added removed : List (String × String)} {before now : AssignmentTable}
    (exact : Exact added removed before) {client : String} (byHand : ByHandOnly client before now)
    (tag : String) (notByHand : ¬ HasManual client tag now) :
    ((client, tag) ∈ added ↔
      link? client tag now = none ∧ link? client tag (change added removed now) ≠ none) ∧
    ((client, tag) ∈ removed ↔
      link? client tag now ≠ none ∧ link? client tag (change added removed now) = none) := by
  have same : link? client tag now = link? client tag before := (byHand tag).resolve_right notByHand
  have free : (client, tag) ∈ added → link? client tag now = none :=
    fun isAdded => same.trans (exact.unlinked _ isAdded)
  have auto : (client, tag) ∈ removed → HasAuto client tag now := by
    intro isRemoved
    rw [HasAuto, Linked, same]
    exact exact.automatic _ isRemoved
  rw [link_change]
  cases found : link? client tag now with
  | none =>
    have kept : (client, tag) ∉ removed := by
      intro isRemoved
      obtain ⟨a, linked, _⟩ := auto isRemoved
      cases found.symm.trans linked
    by_cases isAdded : (client, tag) ∈ added <;> simp [kept, isAdded]
  | some a =>
    have notAdded : (client, tag) ∉ added := by
      intro isAdded
      cases found.symm.trans (free isAdded)
    by_cases isRemoved : (client, tag) ∈ removed
    · obtain ⟨b, linked, isAuto⟩ := auto isRemoved
      obtain rfl := Option.some.inj (found.symm.trans linked)
      simp [notAdded, isRemoved, isAuto]
    · simp [notAdded, isRemoved]

theorem Coherent.of_links {table : AssignmentTable} (coherent : Coherent table) (client : String) :
    Coherent (linksOf client table) := by
  constructor
  · exact coherent.distinct.sublist (List.filter_sublist.map Prod.fst)
  · exact fun other tag a member => coherent.named other tag a (List.mem_filter.mp member).1

theorem links_of_links_of (client : String) (table : AssignmentTable) :
    linksOf client (linksOf client table) = linksOf client table := by
  simp [linksOf, List.filter_filter]

theorem of_client_links_of (client : String) (table : AssignmentTable) :
    ofClient client (linksOf client table) = ofClient client table :=
  congrArg Dictionary.values (links_of_links_of client table)

theorem links_of_assign_manually (client other tag : String) (table : AssignmentTable) :
    linksOf client (assignManually other tag table) =
      linksOf client (assignManually other tag (linksOf client table)) := by
  by_cases same : other = client
  · subst same
    have within : ∀ t, linksOf other (assignManually other tag t) =
        assignManually other tag (linksOf other t) := fun t =>
      Dictionary.filter_put_within (fun key : String × String => decide (key.1 = other)) _ _ t (by simp)
    rw [within, within, links_of_links_of]
  · have apart : ∀ t, linksOf client (assignManually other tag t) = linksOf client t := fun t =>
      Dictionary.filter_put (fun key : String × String => decide (key.1 = client)) _ _ t (by simp [same])
    rw [apart, apart, links_of_links_of]

theorem links_of_each (client : String) (step : String → AssignmentTable → AssignmentTable)
    (within : ∀ t, linksOf client (step client t) = step client (linksOf client t))
    (apart : ∀ other t, other ≠ client → linksOf client (step other t) = linksOf client t)
    (twice : ∀ t, step client (step client t) = step client t)
    (others : List String) (table : AssignmentTable) :
    linksOf client (others.foldl (fun t other => step other t) table) =
      if client ∈ others then step client (linksOf client table) else linksOf client table := by
  induction others generalizing table with
  | nil => simp
  | cons other rest ih =>
    rw [List.foldl_cons, ih]
    by_cases same : other = client
    · subst same
      simp [within, twice]
    · simp [apart other table same, Ne.symm same]

theorem links_of_tag_diff (client : String) (diff : TagDiff) (table : AssignmentTable) :
    linksOf client (applyTagDiff diff table) =
      let added := if client ∈ diff.toAdd then addAuto client diff.tag (linksOf client table)
        else linksOf client table
      if client ∈ diff.toRemove then removeAuto client diff.tag added else added := by
  let mine := fun key : String × String => decide (key.1 = client)
  have adding := links_of_each client (fun other => addAuto other diff.tag)
    (fun t => add_auto_within mine client diff.tag t (decide_eq_true rfl))
    (fun other t different => add_auto_apart mine other diff.tag t (decide_eq_false different))
    (add_auto_twice client diff.tag)
  have removing := links_of_each client (fun other => removeAuto other diff.tag)
    (fun t => remove_auto_within mine client diff.tag t (decide_eq_true rfl))
    (fun other t different => remove_auto_apart mine other diff.tag t (decide_eq_false different))
    (remove_auto_twice client diff.tag)
  simp only [applyTagDiff]
  rw [removing, adding]

end AssignmentTable

namespace Reconcile

open AssignmentTable

theorem late_diff (client : String) (desired : List String) {before now : AssignmentTable}
    (coherent : Coherent before) (coherentNow : Coherent now)
    (byHand : ByHandOnly client before now) :
    applyDiff client (diffOf desired (ofClient client before)) now = settled client desired now := by
  rw [settled, apply_diff_eq_change, apply_diff_eq_change]
  refine change_congr coherentNow ?_ ?_
  · simp only [List.filter_map]
    have free : ∀ table, Coherent table → (diffOf desired (ofClient client table)).toAdd =
        desired.filter fun id => (link? client id table).isNone := by
      intro table coherent
      refine List.filter_congr fun id wanted => ?_
      have member := mem_to_add desired table coherent client id
      rw [Bool.eq_iff_iff, Option.isNone_iff_eq_none]
      simpa [diffOf, wanted] using member
    rw [free before coherent, free now coherentNow, List.filter_filter, List.filter_filter]
    refine congrArg _ (List.filter_congr fun id _ => ?_)
    cases unlinked : link? client id now with
    | some a => simp [unlinked]
    | none => simp [unlinked, byHand.unlinked unlinked]
  · rintro ⟨other, id⟩ ⟨a, found, auto⟩
    simp only [List.mem_map, Prod.mk.injEq]
    refine exists_congr fun tag => ?_
    refine and_congr_left ?_
    rintro ⟨rfl, rfl⟩
    rw [mem_to_remove desired before coherent, mem_to_remove desired now coherentNow]
    refine and_congr_left fun unwanted => ?_
    have notAdded : (client, tag) ∉
        (diffOf desired (ofClient client before)).toAdd.map fun tag => (client, tag) := by
      rintro member
      obtain ⟨id, added, same⟩ := List.mem_map.mp member
      obtain rfl := (Prod.mk.inj same).2
      exact unwanted ((mem_to_add desired before coherent client id).mp added).1
    rw [link_add_all, if_neg notAdded] at found
    have autoNow : HasAuto client tag now := ⟨a, found, auto⟩
    exact ⟨fun _ => autoNow, fun _ => byHand.has_auto autoNow⟩

def decision (tag : Tag) (clients : Dictionary String Value) (client : String) : Option Bool :=
  match tag.condition with
  | none => some false
  | some _ => (clients.get? client).map fun record => satisfies record tag

theorem tag_diff_decided (tag : Tag) (clients : Dictionary String Value)
    (distinctClients : clients.keys.Nodup) (client : String) (table : AssignmentTable)
    (coherent : Coherent table) :
    (client ∈ (tagDiffOf tag clients (ofTag tag.id table)).toAdd ↔
      decision tag clients client = some true ∧ link? client tag.id table = none) ∧
    (client ∈ (tagDiffOf tag clients (ofTag tag.id table)).toRemove ↔
      decision tag clients client = some false ∧ HasAuto client tag.id table) := by
  cases condition : tag.condition with
  | none =>
    obtain ⟨addsNone, removed⟩ := unconditioned_tag_diff tag condition clients (ofTag tag.id table)
    rw [removed client, auto_between table coherent]
    simp [decision, condition, addsNone]
  | some c =>
    have conditioned : tag.condition.isSome = true := by rw [condition]; rfl
    cases listed : clients.get? client with
    | none =>
      have unlisted : client ∉ clients.keys := by
        intro member
        obtain ⟨⟨_, record⟩, known, rfl⟩ := List.mem_map.mp member
        cases listed.symm.trans ((Dictionary.get_some_iff distinctClients _ record).mpr known)
      have apart : ∀ p, client ∉ clientsThat p clients :=
        fun p member => unlisted (clients_that_listed p clients client member)
      simp [tagDiffOf, decision, condition, listed, apart]
    | some record =>
      have known := (Dictionary.get_some_iff distinctClients client record).mp listed
      rw [mem_tag_to_add tag conditioned clients distinctClients table coherent client record known,
        mem_tag_to_remove tag conditioned clients distinctClients table coherent client record known]
      simp [decision, condition, listed]

theorem links_of_settled_tag (tag : Tag) (clients : Dictionary String Value)
    (distinctClients : clients.keys.Nodup) (client : String) (table : AssignmentTable)
    (coherent : Coherent table) :
    linksOf client (settledTag tag clients table) =
      linksOf client (settledTag tag clients (linksOf client table)) := by
  obtain ⟨added, removed⟩ := tag_diff_decided tag clients distinctClients client table coherent
  obtain ⟨addedAlone, removedAlone⟩ :=
    tag_diff_decided tag clients distinctClients client _ (coherent.of_links client)
  rw [link_of_links_of, ← added] at addedAlone
  have sameAuto : HasAuto client tag.id (linksOf client table) ↔ HasAuto client tag.id table := by
    rw [HasAuto, Linked, Linked, link_of_links_of]
  rw [sameAuto, ← removed] at removedAlone
  rw [settledTag, settledTag, links_of_tag_diff, links_of_tag_diff, tag_diff_of_tag, tag_diff_of_tag,
    links_of_links_of]
  simp only [addedAlone, removedAlone]

theorem late_tag_diff (tag : Tag) (clients : Dictionary String Value)
    (distinctClients : clients.keys.Nodup) {before now : AssignmentTable} (coherent : Coherent before)
    (coherentNow : Coherent now) (client : String)
    (named : client ∈ (tagDiffOf tag clients (ofTag tag.id before)).clients) :
    linksOf client (applyTagDiff (tagDiffOf tag clients (ofTag tag.id before)) now) =
      linksOf client (settledTag tag clients now) := by
  obtain ⟨added, removed⟩ := tag_diff_decided tag clients distinctClients client before coherent
  obtain ⟨addedNow, removedNow⟩ := tag_diff_decided tag clients distinctClients client now coherentNow
  rw [settledTag, links_of_tag_diff, links_of_tag_diff, tag_diff_of_tag, tag_diff_of_tag]
  rcases List.mem_append.mp named with isAdded | isRemoved
  · have wanted := (added.mp isAdded).1
    have notRemoved : client ∉ (tagDiffOf tag clients (ofTag tag.id before)).toRemove ∧
        client ∉ (tagDiffOf tag clients (ofTag tag.id now)).toRemove := by
      rw [removed, removedNow, wanted]
      simp
    simp only [isAdded, notRemoved, if_true, if_false]
    by_cases free : link? client tag.id now = none
    · rw [if_pos (addedNow.mpr ⟨wanted, free⟩)]
    · obtain ⟨a, found⟩ := Option.ne_none_iff_exists'.mp free
      rw [if_neg fun isAddedNow => free (addedNow.mp isAddedNow).2,
        add_auto_linked (a := a) (by rw [link_of_links_of, found])]
  · have dropped := (removed.mp isRemoved).1
    have notAdded : client ∉ (tagDiffOf tag clients (ofTag tag.id before)).toAdd ∧
        client ∉ (tagDiffOf tag clients (ofTag tag.id now)).toAdd := by
      rw [added, addedNow, dropped]
      simp
    simp only [isRemoved, notAdded, if_true, if_false]
    by_cases auto : HasAuto client tag.id now
    · rw [if_pos (removedNow.mpr ⟨dropped, auto⟩)]
    · rw [if_neg fun isRemovedNow => auto (removedNow.mp isRemovedNow).2, remove_auto_kept]
      rw [HasAuto, Linked, link_of_links_of]
      exact auto

end Reconcile

end TagRules
