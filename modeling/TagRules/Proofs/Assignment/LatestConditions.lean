import TagRules.Proofs.Assignment.Diffs
import TagRules.Session

set_option autoImplicit false

namespace TagRules

structure TagUpdate where
  company : String
  tag : String
  payload : Value

namespace TagUpdate

def accepted (limits : Limits) (company : String) (update : TagUpdate) : Bool :=
  decide (update.company = company) && (Condition.read limits update.payload).isOk

-- The last accepted update of the tag's id in the company gave it the condition that it has.
def Latest (limits : Limits) (company : String) (updates : List TagUpdate) (tag : Tag) : Prop :=
  ∃ before last after, updates = before ++ last :: after ∧ last.company = company ∧ last.tag = tag.id ∧
    Condition.read limits last.payload = .ok tag.condition ∧
    ∀ later ∈ after, ¬ (later.accepted limits company = true ∧ later.tag = tag.id)

theorem latest_nil (limits : Limits) (company : String) (tag : Tag) : ¬ Latest limits company [] tag := by
  rintro ⟨before, last, after, split, _⟩
  simp at split

theorem accepted_of_read (limits : Limits) (company : String) (update : TagUpdate)
    (condition : Option Condition) (ofCompany : update.company = company)
    (found : Condition.read limits update.payload = .ok condition) :
    update.accepted limits company = true := by
  simp [accepted, ofCompany, found, Except.isOk, Except.toBool]

theorem latest_snoc (limits : Limits) (company : String) (updates : List TagUpdate)
    (update : TagUpdate) (tag : Tag) :
    Latest limits company (updates ++ [update]) tag ↔
      (update.company = company ∧ update.tag = tag.id ∧
        Condition.read limits update.payload = .ok tag.condition) ∨
      ¬ (update.accepted limits company = true ∧ update.tag = tag.id) ∧
        Latest limits company updates tag := by
  constructor
  · rintro ⟨before, last, after, split, ofCompany, ofTag, found, newest⟩
    rcases List.eq_nil_or_concat after with rfl | ⟨earlier, final, rfl⟩
    · obtain ⟨_, same⟩ := List.append_inj' split rfl
      cases same
      exact .inl ⟨ofCompany, ofTag, found⟩
    · rw [List.concat_eq_append, ← List.cons_append, ← List.append_assoc] at split
      obtain ⟨earlierSplit, same⟩ := List.append_inj' split rfl
      cases same
      exact .inr ⟨newest update (by simp), before, last, earlier, earlierSplit, ofCompany, ofTag, found,
        fun later member => newest later (by simp [member])⟩
  · rintro (⟨ofCompany, ofTag, found⟩ | ⟨other, before, last, after, rfl, ofCompany, ofTag, found, newest⟩)
    · exact ⟨updates, update, [], rfl, ofCompany, ofTag, found, List.forall_mem_nil _⟩
    · refine ⟨before, last, after ++ [update], by simp, ofCompany, ofTag, found, fun later member => ?_⟩
      rcases List.mem_append.mp member with member | final
      · exact newest later member
      · rw [List.mem_singleton.mp final]
        exact other

theorem latest_after_other (limits : Limits) (company : String) (updates : List TagUpdate)
    (update : TagUpdate) (tag : Tag)
    (other : ¬ (update.accepted limits company = true ∧ update.tag = tag.id)) :
    Latest limits company (updates ++ [update]) tag ↔ Latest limits company updates tag := by
  have notNow : ¬ (update.company = company ∧ update.tag = tag.id ∧
      Condition.read limits update.payload = .ok tag.condition) := fun ⟨ofCompany, ofTag, found⟩ =>
    other ⟨accepted_of_read limits company update tag.condition ofCompany found, ofTag⟩
  rw [latest_snoc, or_iff_right notNow, and_iff_right other]

theorem latest_after_own (limits : Limits) (company : String) (updates : List TagUpdate)
    (update : TagUpdate) (tag : Tag) (condition : Option Condition) (ofCompany : update.company = company)
    (found : Condition.read limits update.payload = .ok condition) (ofTag : update.tag = tag.id) :
    Latest limits company (updates ++ [update]) tag ↔ tag.condition = condition := by
  have counts := accepted_of_read limits company update condition ofCompany found
  rw [latest_snoc, or_iff_left fun ⟨other, _⟩ => other ⟨counts, ofTag⟩, found, Except.ok.injEq]
  exact ⟨fun ⟨_, _, same⟩ => same.symm, fun same => ⟨ofCompany, ofTag, same.symm⟩⟩

end TagUpdate

namespace Session

open TagUpdate

def store (plan : SessionPlan) (update : TagUpdate) (w : State) : Result × State :=
  putTag plan update.company update.tag update.payload w

def storeAll (plan : SessionPlan) (updates : List TagUpdate) (w : State) : State :=
  updates.foldl (fun w update => (store plan update w).2) w

theorem store_refused (plan : SessionPlan) (update : TagUpdate) (w : State) (e : Fault)
    (refused : Condition.read plan.limits update.payload = .error e) :
    store plan update w = (.error e, w) := by
  simp only [store, putTag, TagSource.put, refused, Except.map]

theorem tags_of_store (plan : SessionPlan) (update : TagUpdate) (w : State)
    (condition : Option Condition) (found : Condition.read plan.limits update.payload = .ok condition)
    (company : String) :
    (store plan update w).2.store.tags.tagsOf company =
      if update.company = company then
        Dictionary.put update.tag ⟨update.tag, condition⟩ (w.store.tags.tagsOf company)
      else w.store.tags.tagsOf company := by
  simp only [store, putTag, TagSource.put, found, Except.map, TagSource.tagsOf, Dictionary.get_put]
  by_cases same : update.company = company
  · simp [same]
  · simp [same]

structure Reflects (limits : Limits) (company : String) (updates : List TagUpdate)
    (tags : Dictionary String Tag) : Prop where
  latest : ∀ id tag, Dictionary.get? id tags = some tag ↔ tag.id = id ∧ Latest limits company updates tag
  ordered : Dictionary.keys tags = ((updates.filter (accepted limits company)).map (·.tag)).eraseDups

theorem reflects_nothing (limits : Limits) (company : String) : Reflects limits company [] [] := by
  refine ⟨fun id tag => iff_of_false nofun fun ⟨_, latest⟩ => ?_, rfl⟩
  exact latest_nil limits company tag latest

theorem Reflects.skip {limits : Limits} {company : String} {updates : List TagUpdate}
    {tags : Dictionary String Tag} (reflects : Reflects limits company updates tags) (update : TagUpdate)
    (unaccepted : update.accepted limits company = false) :
    Reflects limits company (updates ++ [update]) tags := by
  have other : ∀ tag : Tag, ¬ (update.accepted limits company = true ∧ update.tag = tag.id) :=
    fun tag ⟨accepted, _⟩ => Bool.noConfusion (accepted.symm.trans unaccepted)
  refine ⟨fun id tag => ?_, ?_⟩
  · rw [latest_after_other limits company updates update tag (other tag)]
    exact reflects.latest id tag
  · rw [List.filter_append, List.filter_cons_of_neg (by simp [unaccepted]), List.filter_nil,
      List.append_nil]
    exact reflects.ordered

theorem Reflects.put_own {limits : Limits} {company : String} {updates : List TagUpdate}
    {tags : Dictionary String Tag} (reflects : Reflects limits company updates tags) (update : TagUpdate)
    (condition : Option Condition) (ofCompany : update.company = company)
    (found : Condition.read limits update.payload = .ok condition) :
    Reflects limits company (updates ++ [update])
      (Dictionary.put update.tag ⟨update.tag, condition⟩ tags) := by
  have counts := accepted_of_read limits company update condition ofCompany found
  refine ⟨fun id tag => ?_, ?_⟩
  · rw [Dictionary.get_put]
    by_cases ofTag : update.tag = id
    · subst ofTag
      rw [if_pos rfl, Option.some.injEq]
      constructor
      · rintro rfl
        exact ⟨rfl, (latest_after_own limits company updates update _ condition ofCompany found rfl).mpr rfl⟩
      · rintro ⟨sameId, latest⟩
        obtain ⟨id, given⟩ := tag
        obtain rfl : id = update.tag := sameId
        obtain rfl : given = condition :=
          (latest_after_own limits company updates update _ condition ofCompany found rfl).mp latest
        rfl
    · rw [if_neg ofTag, reflects.latest]
      refine and_congr_right fun sameId => ?_
      rw [latest_after_other limits company updates update tag fun ⟨_, same⟩ => ofTag (same.trans sameId)]
  · rw [Dictionary.keys_put, reflects.ordered, List.filter_append, List.filter_cons_of_pos counts,
      List.filter_nil, List.map_append, List.map_cons, List.map_nil, erase_dups_snoc]
    simp only [List.mem_eraseDups]

theorem store_reflects (plan : SessionPlan) (company : String) (updates : List TagUpdate)
    (update : TagUpdate) (w : State)
    (reflects : Reflects plan.limits company updates (w.store.tags.tagsOf company)) :
    Reflects plan.limits company (updates ++ [update])
      ((store plan update w).2.store.tags.tagsOf company) := by
  cases found : Condition.read plan.limits update.payload with
  | error e =>
    rw [store_refused plan update w e found]
    exact reflects.skip update (by simp [accepted, found, Except.isOk, Except.toBool])
  | ok condition =>
    rw [tags_of_store plan update w condition found]
    by_cases ofCompany : update.company = company
    · rw [if_pos ofCompany]
      exact reflects.put_own update condition ofCompany found
    · rw [if_neg ofCompany]
      exact reflects.skip update (by simp [accepted, ofCompany])

theorem store_all_reflects (plan : SessionPlan) (company : String) (past updates : List TagUpdate)
    (w : State) (reflects : Reflects plan.limits company past (w.store.tags.tagsOf company)) :
    Reflects plan.limits company (past ++ updates)
      ((storeAll plan updates w).store.tags.tagsOf company) := by
  induction updates generalizing past w with
  | nil => rwa [List.append_nil]
  | cons update rest ih =>
    rw [List.append_cons]
    exact ih (past ++ [update]) _ (store_reflects plan company past update w reflects)

theorem Reflects.ids {limits : Limits} {company : String} {updates : List TagUpdate}
    {tags : Dictionary String Tag} (reflects : Reflects limits company updates tags) :
    (Dictionary.keys tags).Nodup ∧ (Dictionary.values tags).map (·.id) = Dictionary.keys tags := by
  have distinctKeys : (Dictionary.keys tags).Nodup := reflects.ordered ▸ nodup_erase_dups _
  refine ⟨distinctKeys, ?_⟩
  rw [Dictionary.values, Dictionary.keys, List.map_map]
  refine List.map_congr_left fun entry member => ?_
  have stored := (Dictionary.get_some_iff distinctKeys entry.1 entry.2).mpr member
  exact ((reflects.latest entry.1 entry.2).mp stored).1

theorem Reflects.mem_values {limits : Limits} {company : String} {updates : List TagUpdate}
    {tags : Dictionary String Tag} (reflects : Reflects limits company updates tags) (tag : Tag) :
    tag ∈ Dictionary.values tags ↔ Latest limits company updates tag := by
  have distinctKeys := reflects.ids.1
  rw [Dictionary.values, List.mem_map]
  constructor
  · rintro ⟨⟨id, stored⟩, member, rfl⟩
    exact ((reflects.latest id stored).mp ((Dictionary.get_some_iff distinctKeys id stored).mpr member)).2
  · intro latest
    have known := (reflects.latest tag.id tag).mpr ⟨rfl, latest⟩
    exact ⟨(tag.id, tag), (Dictionary.get_some_iff distinctKeys tag.id tag).mp known, rfl⟩

theorem Reflects.listing {limits : Limits} {company : String} {updates : List TagUpdate}
    {tags : Dictionary String Tag} (reflects : Reflects limits company updates tags) :
    Listing (fun id => ∃ c, Latest limits company updates ⟨id, some c⟩)
      (firstPlace (accepted limits company) (·.tag) updates)
      (((Dictionary.values tags).filter (·.condition.isSome)).map (·.id)) := by
  have all := distinct_listing (accepted limits company) (·.tag) updates
  rw [← reflects.ordered, ← reflects.ids.2] at all
  have within := (List.filter_sublist (p := fun tag : Tag => tag.condition.isSome)
    (l := Dictionary.values tags)).map (·.id)
  refine ⟨all.once.sublist within, fun id => ?_, all.ordered.sublist within⟩
  simp only [List.mem_map, List.mem_filter, reflects.mem_values]
  constructor
  · rintro ⟨⟨_, condition⟩, ⟨latest, conditioned⟩, rfl⟩
    obtain ⟨c, rfl⟩ := Option.isSome_iff_exists.mp conditioned
    exact ⟨c, latest⟩
  · rintro ⟨c, latest⟩
    exact ⟨⟨id, some c⟩, ⟨latest, rfl⟩, rfl⟩

theorem listed_tags_are_latest (plan : SessionPlan) (updates : List TagUpdate) (company : String)
    (w : State) (empty : w.store.tags = []) :
    let now := storeAll plan updates w
    let listed := now.store.tags.autoAssigned (some company)
    Listing (fun id => ∃ c, Latest plan.limits company updates ⟨id, some c⟩)
      (firstPlace (accepted plan.limits company) (·.tag) updates) (listed.map (·.id)) ∧
    (∀ tag, tag ∈ listed ↔
      tag.condition.isSome = true ∧ Latest plan.limits company updates tag) ∧
    ∀ next, let after := store plan next now
      (∀ e, Condition.read plan.limits next.payload = .error e → after = (.error e, now)) ∧
      ∀ other, other ≠ some next.company →
        after.2.store.tags.autoAssigned other = now.store.tags.autoAssigned other := by
  intro now listed
  have start : Reflects plan.limits company [] (w.store.tags.tagsOf company) := by
    rw [empty]
    exact reflects_nothing plan.limits company
  have reflects : Reflects plan.limits company updates (now.store.tags.tagsOf company) :=
    store_all_reflects plan company [] updates w start
  refine ⟨reflects.listing, fun tag => ?_, fun next => ⟨store_refused plan next now, fun other apart => ?_⟩⟩
  · rw [← reflects.mem_values, and_comm]
    exact List.mem_filter
  · cases other with
    | none => rfl
    | some name =>
      have elsewhere : next.company ≠ name := fun same => apart (same ▸ rfl)
      cases found : Condition.read plan.limits next.payload with
      | error e => rw [store_refused plan next now e found]
      | ok condition =>
        rw [TagSource.autoAssigned, tags_of_store plan next now condition found, if_neg elsewhere]
        rfl

theorem reset_tag_keeps_its_place :
    let rule (wanted : Int) : Value := .mapping [(.text "field", .text "x"),
      (.text "operator", .text "equals"), (.text "value", .int wanted)]
    let compare (wanted : Int) : Condition := .single "x" (.known .equals) (.int wanted) .null
    let updates : List TagUpdate := [⟨"acme", "a", rule 1⟩, ⟨"acme", "c", rule 1⟩, ⟨"acme", "b", rule 2⟩,
      ⟨"acme", "a", .null⟩, ⟨"other", "a", rule 3⟩, ⟨"acme", "b", .mapping []⟩, ⟨"acme", "a", rule 4⟩,
      ⟨"acme", "c", .null⟩]
    let now := storeAll ⟨Settings.default, ⟨10, 50⟩, false⟩ updates initial
    initial.store.tags = [] ∧
    now.store.tags.autoAssigned (some "acme") = [⟨"a", some (compare 4)⟩, ⟨"b", some (compare 2)⟩] ∧
    Latest ⟨10, 50⟩ "acme" updates ⟨"a", some (compare 4)⟩ ∧
    ¬ Latest ⟨10, 50⟩ "acme" updates ⟨"a", some (compare 3)⟩ ∧
    firstPlace (accepted ⟨10, 50⟩ "acme") (·.tag) updates "a" <
      firstPlace (accepted ⟨10, 50⟩ "acme") (·.tag) updates "b" := by
  intro rule compare updates now
  have computed : now.store.tags.autoAssigned (some "acme") =
      [⟨"a", some (compare 4)⟩, ⟨"b", some (compare 2)⟩] := by
    dsimp only [now, updates, rule, compare]
    rfl
  obtain ⟨listing, exact, _⟩ := listed_tags_are_latest ⟨Settings.default, ⟨10, 50⟩, false⟩ updates "acme"
    initial rfl
  have ordered := listing.ordered
  rw [computed] at exact ordered
  refine ⟨rfl, computed, ((exact _).mp List.mem_cons_self).2, fun latest => ?_, ?_⟩
  · have listed := (exact ⟨"a", some (compare 3)⟩).mpr ⟨rfl, latest⟩
    simp [compare] at listed
  · exact (List.pairwise_cons.mp ordered).1 "b" List.mem_cons_self

end Session

end TagRules
