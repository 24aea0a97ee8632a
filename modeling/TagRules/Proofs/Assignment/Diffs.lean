import TagRules.Proofs.Assignment.Counting

set_option autoImplicit false

namespace TagRules

-- The ids that are wanted, each once, in the order of their places.
structure Listing (wanted : String → Prop) (place : String → Nat) (ids : List String) : Prop where
  once : ids.Nodup
  exact : ∀ id, id ∈ ids ↔ wanted id
  ordered : ids.Pairwise fun one other => place one < place other

theorem Listing.filter {wanted : String → Prop} {place : String → Nat} {ids : List String}
    (listing : Listing wanted place ids) (p : String → Bool) (further : String → Prop)
    (decided : ∀ id, p id = true ↔ further id) :
    Listing (fun id => wanted id ∧ further id) place (ids.filter p) := by
  refine ⟨listing.once.filter p, fun id => ?_, listing.ordered.filter p⟩
  rw [List.mem_filter, listing.exact, decided]

theorem Listing.perm {wanted : String → Prop} {place elsewhere : String → Nat}
    {ids others : List String} (listing : Listing wanted place ids)
    (otherListing : Listing wanted elsewhere others) : ids.Perm others := by
  rw [List.perm_ext_iff_of_nodup listing.once otherListing.once]
  exact fun id => (listing.exact id).trans (otherListing.exact id).symm

def firstPlace {α : Type} (p : α → Bool) (key : α → String) (items : List α) (id : String) : Nat :=
  items.findIdx fun item => p item && decide (key item = id)

theorem distinct_listing {α : Type} (p : α → Bool) (key : α → String) (items : List α) :
    Listing (fun id => ∃ item ∈ items, p item = true ∧ key item = id) (firstPlace p key items)
      ((items.filter p).map key).eraseDups := by
  refine ⟨nodup_erase_dups _, fun id => by simp [List.mem_eraseDups, and_assoc], ?_⟩
  induction items with
  | nil => exact List.Pairwise.nil
  | cons item rest ih =>
    have later : ∀ id, (p item && decide (key item = id)) = false →
        firstPlace p key (item :: rest) id = firstPlace p key rest id + 1 := by
      intro id apart
      rw [firstPlace, List.findIdx_cons, apart]
      rfl
    cases counts : p item with
    | false =>
      rw [List.filter_cons_of_neg (by simp [counts])]
      refine ih.imp fun {one other} before => ?_
      rw [later one (by simp [counts]), later other (by simp [counts])]
      exact Nat.succ_lt_succ before
    | true =>
      rw [List.filter_cons_of_pos counts, List.map_cons, erase_dups_cons]
      have apart : ∀ id, id ≠ key item → (p item && decide (key item = id)) = false :=
        fun id different => by simp [Ne.symm different]
      have different : ∀ id ∈ ((rest.filter p).map key).eraseDups.filter
          (fun id => decide (id ≠ key item)), id ≠ key item := fun id member => by
        simpa using (List.mem_filter.mp member).2
      refine List.pairwise_cons.mpr ⟨fun other member => ?_, ?_⟩
      · have atHead : firstPlace p key (item :: rest) (key item) = 0 := by
          rw [firstPlace, List.findIdx_cons, counts, decide_eq_true rfl]
          rfl
        rw [atHead, later other (apart other (different other member))]
        exact Nat.succ_pos _
      · refine (ih.filter _).imp_of_mem fun {one other} oneListed otherListed before => ?_
        rw [later one (apart one (different one oneListed)),
          later other (apart other (different other otherListed))]
        exact Nat.succ_lt_succ before

namespace Reconcile

theorem auto_tags_listing (current : List Assignment) :
    Listing (fun id => ∃ a ∈ current, a.auto = true ∧ a.tag = id) (firstPlace (·.auto) (·.tag) current)
      (autoTags current) := distinct_listing _ _ current

theorem unnamed_iff (current : List Assignment) (id : String) :
    (id ∉ autoTags current ∧ id ∉ manualTags current) ↔ ∀ a ∈ current, a.tag ≠ id := by
  rw [(auto_tags_listing current).exact]
  constructor
  · rintro ⟨notAuto, notManual⟩ a member same
    cases auto : a.auto with
    | true => exact notAuto ⟨a, member, auto, same⟩
    | false => exact notManual (List.mem_map.mpr ⟨a, List.mem_filter.mpr ⟨member, by simp [auto]⟩, same⟩)
  · intro unnamed
    refine ⟨fun ⟨a, member, _, same⟩ => unnamed a member same, fun manual => ?_⟩
    obtain ⟨a, kept, same⟩ := List.mem_map.mp manual
    exact unnamed a (List.mem_filter.mp kept).1 same

theorem client_diff_listing (record : Value) (tags : List Tag) (current : List Assignment)
    (evaluates : Evaluates record tags) :
    ∃ diff, (client record tags current).result = .ok diff ∧
      Listing (fun id => Matches record tags id ∧ ∀ a ∈ current, a.tag ≠ id)
        (firstPlace (satisfies record) (·.id) tags) diff.toAdd ∧
      Listing (fun id => (∃ a ∈ current, a.auto = true ∧ a.tag = id) ∧ ¬ Matches record tags id)
        (firstPlace (·.auto) (·.tag) current) diff.toRemove := by
  have listed := distinct_listing (satisfies record) (·.id) tags
  generalize found : ((tags.filter (satisfies record)).map (·.id)).eraseDups = desired at listed
  have matched : ∀ id,
      (∃ tag ∈ tags, satisfies record tag = true ∧ tag.id = id) ↔ Matches record tags id := by
    intro id
    simp only [satisfies_iff, Matches, and_comm]
  simp only [matched] at listed
  refine ⟨diffOf desired current, ?_, ?_, ?_⟩
  · rw [client, Traced.result_map, matching_eq_distinct record tags evaluates, found]
    rfl
  · refine listed.filter _ _ fun id => ?_
    rw [Bool.and_eq_true, decide_eq_true_iff, decide_eq_true_iff, unnamed_iff]
  · refine (auto_tags_listing current).filter _ _ fun id => ?_
    rw [decide_eq_true_iff, listed.exact]

theorem change_names_differences (record : Value) (tags : List Tag) (current : List Assignment)
    (evaluates : Evaluates record tags) :
    ∃ diff, (client record tags current).result = .ok diff ∧
      Listing (fun id => Matches record tags id ∧ ∀ a ∈ current, a.tag ≠ id)
        (firstPlace (satisfies record) (·.id) tags) diff.toAdd ∧
      Listing (fun id => (∃ a ∈ current, a.auto = true ∧ a.tag = id) ∧ ¬ Matches record tags id)
        (firstPlace (·.auto) (·.tag) current) diff.toRemove ∧
      (∀ id, id ∈ diff.toAdd → id ∉ diff.toRemove) ∧
      (∀ id, (∃ a ∈ current, a.tag = id) → (∀ a ∈ current, a.tag = id → a.auto = false) →
        id ∉ diff.toAdd ∧ id ∉ diff.toRemove) ∧
      ∀ otherTags otherCurrent, otherTags.Perm tags → otherCurrent.Perm current →
        ∃ other, (client record otherTags otherCurrent).result = .ok other ∧
          other.toAdd.Perm diff.toAdd ∧ other.toRemove.Perm diff.toRemove := by
  obtain ⟨diff, found, adds, removes⟩ := client_diff_listing record tags current evaluates
  refine ⟨diff, found, adds, removes, ?_, ?_, ?_⟩
  · intro id added removed
    exact ((removes.exact id).mp removed).2 ((adds.exact id).mp added).1
  · rintro id ⟨a, member, same⟩ byHand
    refine ⟨fun added => ((adds.exact id).mp added).2 a member same, fun removed => ?_⟩
    obtain ⟨b, listed, auto, named⟩ := ((removes.exact id).mp removed).1
    exact Bool.noConfusion (auto.symm.trans (byHand b listed named))
  · intro otherTags otherCurrent sameTags sameCurrent
    have othersEvaluate : Evaluates record otherTags :=
      fun tag member => evaluates tag (sameTags.mem_iff.mp member)
    obtain ⟨other, otherFound, otherAdds, otherRemoves⟩ :=
      client_diff_listing record otherTags otherCurrent othersEvaluate
    simp only [Matches, sameTags.mem_iff, sameCurrent.mem_iff] at otherAdds otherRemoves
    exact ⟨other, otherFound, otherAdds.perm adds, otherRemoves.perm removes⟩

theorem repeated_ids_are_named_once :
    let wanted : Condition := .single "x" (.known .equals) (.int 1) .null
    let record : Value := .mapping [(.text "x", .int 1)]
    let tags : List Tag := [⟨"a", none⟩, ⟨"b", some wanted⟩, ⟨"m", some wanted⟩, ⟨"a", some wanted⟩,
      ⟨"b", some wanted⟩]
    let current : List Assignment := [⟨"z", true, none⟩, ⟨"m", false, none⟩, ⟨"y", true, none⟩,
      ⟨"m", true, none⟩, ⟨"z", true, none⟩]
    (client record tags current).result = .ok ⟨["b", "a"], ["z", "y"]⟩ ∧
      ∃ other, (client record tags.reverse current.reverse).result = .ok other ∧
        other.toAdd.Perm ["b", "a"] ∧ other.toRemove.Perm ["z", "y"] := by
  intro wanted record tags current
  have evaluates : Evaluates record tags := by
    intro tag member c condition
    have same : wanted = c := by
      simp only [tags, List.mem_cons, List.not_mem_nil, or_false] at member
      rcases member with rfl | rfl | rfl | rfl | rfl
      · cases condition
      all_goals exact Option.some.inj condition
    exact ⟨true, same ▸ rfl⟩
  have computed : (client record tags current).result = .ok ⟨["b", "a"], ["z", "y"]⟩ := rfl
  obtain ⟨diff, found, _, _, _, _, reordered⟩ := change_names_differences record tags current evaluates
  obtain rfl : diff = ⟨["b", "a"], ["z", "y"]⟩ := Except.ok.inj (found.symm.trans computed)
  exact ⟨found, reordered _ _ tags.reverse_perm current.reverse_perm⟩

theorem single_diff (record : Value) (tag : Tag) (evaluates : Evaluates record [tag])
    (assignments : List Assignment) (name : String) :
    ∃ own, (client record [tag] (between name tag.id assignments)).result = .ok own ∧
      (tag.id ∈ own.toAdd ↔ satisfies record tag = true ∧ between name tag.id assignments = []) ∧
      (tag.id ∈ own.toRemove ↔
        satisfies record tag = false ∧ ∃ a ∈ between name tag.id assignments, a.auto = true) := by
  obtain ⟨own, found, adds, removes⟩ :=
    client_diff_listing record [tag] (between name tag.id assignments) evaluates
  have isMatch : Matches record [tag] tag.id ↔ satisfies record tag = true := by
    simp [Matches, satisfies_iff]
  have sameTag : ∀ a ∈ between name tag.id assignments, a.tag = tag.id :=
    fun a member => ((mem_between name tag.id assignments a).mp member).2.2
  refine ⟨own, found, ?_, ?_⟩
  · rw [adds.exact, isMatch, List.eq_nil_iff_forall_not_mem]
    refine and_congr_right fun _ => ⟨?_, ?_⟩
    · intro other a member
      exact other a member (sameTag a member)
    · intro empty a member
      exact absurd member (empty a)
  · rw [removes.exact, isMatch, Bool.not_eq_true, and_comm]
    refine and_congr_right fun _ => exists_congr fun a => and_congr_right fun member => ?_
    exact and_iff_left (sameTag a member)

theorem nodup_tag_diff (tag : Tag) (clients : Dictionary String Value)
    (distinctClients : clients.keys.Nodup) (assignments : List Assignment) :
    (tagDiffOf tag clients assignments).toAdd.Nodup ∧
      (tagDiffOf tag clients assignments).toRemove.Nodup := by
  cases condition : tag.condition with
  | none =>
    simp only [tagDiffOf, condition]
    exact ⟨List.nodup_nil, nodup_erase_dups _⟩
  | some c =>
    simp only [tagDiffOf, condition]
    exact ⟨nodup_clients_that _ clients distinctClients, nodup_clients_that _ clients distinctClients⟩

theorem tag_diff_within (tag : Tag) (conditioned : tag.condition.isSome = true)
    (clients : Dictionary String Value) (assignments : List Assignment) (name : String)
    (named : name ∈ (tagDiffOf tag clients assignments).clients) : name ∈ clients.keys := by
  obtain ⟨c, condition⟩ := Option.isSome_iff_exists.mp conditioned
  simp only [TagDiff.clients, tagDiffOf, condition] at named
  rcases List.mem_append.mp named with added | removed
  · exact clients_that_listed _ clients name added
  · exact clients_that_listed _ clients name removed

theorem tag_change_agrees (tag : Tag) (clients : Dictionary String Value)
    (distinctClients : clients.keys.Nodup) (assignments : List Assignment)
    (evaluates : ∀ client ∈ clients, Evaluates client.2 [tag]) :
    ∃ diff, (Reconcile.tag tag clients assignments).result = .ok diff ∧ diff.tag = tag.id ∧
      (∀ name record, (name, record) ∈ clients → ∃ own,
        (client record [tag] (between name tag.id assignments)).result = .ok own ∧
        (name ∈ diff.toAdd ↔ tag.id ∈ own.toAdd) ∧ (name ∈ diff.toRemove ↔ tag.id ∈ own.toRemove)) ∧
      diff.toAdd.Nodup ∧ diff.toRemove.Nodup ∧
      (tag.condition.isSome = true → ∀ name ∈ diff.clients, name ∈ clients.keys) ∧
      (tag.condition = none → diff.toAdd = [] ∧ ∀ name, name ∈ diff.toRemove ↔
        ∃ a ∈ assignments, a.client = some name ∧ a.tag = tag.id ∧ a.auto = true) := by
  obtain ⟨addedOnce, removedOnce⟩ := nodup_tag_diff tag clients distinctClients assignments
  refine ⟨tagDiffOf tag clients assignments, tag_found tag clients assignments evaluates,
    tag_diff_of_tag tag clients assignments, ?_, addedOnce, removedOnce, ?_, ?_⟩
  · intro name record listed
    obtain ⟨own, found, adds, removes⟩ :=
      single_diff record tag (evaluates (name, record) listed) assignments name
    refine ⟨own, found, ?_⟩
    rw [adds, removes]
    cases condition : tag.condition with
    | none =>
      obtain ⟨addsNone, removed⟩ := unconditioned_tag_diff tag condition clients assignments
      rw [addsNone, removed]
      simp [satisfies, condition]
    | some c =>
      have conditioned : tag.condition.isSome = true := by rw [condition]; rfl
      exact conditioned_tag_diff tag conditioned clients distinctClients assignments name record listed
  · exact fun conditioned name named => tag_diff_within tag conditioned clients assignments name named
  · intro manualOnly
    obtain ⟨addsNone, removed⟩ := unconditioned_tag_diff tag manualOnly clients assignments
    refine ⟨addsNone, fun name => (removed name).trans (exists_congr fun a => ?_)⟩
    rw [mem_between, and_assoc, and_assoc]

theorem contradictory_assignments_agree :
    let vip : Tag := ⟨"vip", some (.single "x" (.known .equals) (.int 1) .null)⟩
    let lost : Value := .mapping [(.text "x", .int 2)]
    let clients : Dictionary String Value := [("b", lost), ("a", .mapping [(.text "x", .int 1)])]
    let assignments : List Assignment := [⟨"vip", true, none⟩, ⟨"vip", true, some "b"⟩,
      ⟨"other", true, some "a"⟩, ⟨"vip", false, some "b"⟩, ⟨"vip", true, some "gone"⟩]
    (Reconcile.tag vip clients assignments).result = .ok ⟨"vip", ["a"], ["b"]⟩ ∧
      ∃ own, (client lost [vip] (between "b" "vip" assignments)).result = .ok own ∧
        "vip" ∉ own.toAdd ∧ "vip" ∈ own.toRemove := by
  intro vip lost clients assignments
  have evaluates : ∀ client ∈ clients, Evaluates client.2 [vip] := by
    intro client listed tag member c condition
    cases List.mem_singleton.mp member
    cases condition
    simp only [clients, List.mem_cons, List.not_mem_nil, or_false] at listed
    rcases listed with rfl | rfl
    · exact ⟨false, rfl⟩
    · exact ⟨true, rfl⟩
  have computed : (Reconcile.tag vip clients assignments).result = .ok ⟨"vip", ["a"], ["b"]⟩ := rfl
  obtain ⟨diff, found, _, agrees, _⟩ :=
    tag_change_agrees vip clients (by decide) assignments evaluates
  obtain rfl : diff = ⟨"vip", ["a"], ["b"]⟩ := Except.ok.inj (found.symm.trans computed)
  obtain ⟨own, ownFound, adds, removes⟩ := agrees "b" lost List.mem_cons_self
  exact ⟨found, own, ownFound, (not_congr adds).mp (by decide), removes.mp List.mem_cons_self⟩

end Reconcile

end TagRules
