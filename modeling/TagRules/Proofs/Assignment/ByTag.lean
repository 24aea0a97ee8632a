import TagRules.Proofs.Assignment.Reconcile

/-!
Client by client or tag by tag, a listed client is left with the same link to each of the tags.
-/

set_option autoImplicit false

namespace TagRules

namespace Reconcile

open AssignmentTable

-- The link that a pair is left with: one made by hand stays, any other is there if it is wanted.
def settledLink (wanted : Bool) (client tag : String) : Option Assignment → Option Assignment
  | some a => if a.auto = false ∨ wanted = true then some a else none
  | none => if wanted then some ⟨tag, true, some client⟩ else none

theorem settled_link_unwanted (client tag : String) (link : Option Assignment) :
    settledLink false client tag link = link.filter fun a => !a.auto := by
  cases link with
  | none => rfl
  | some a => cases auto : a.auto <;> simp [settledLink, auto, Option.filter_some]

def wantedTags (record : Value) (tags : List Tag) : List String :=
  match (matching record tags).result with
  | .ok ids => ids
  | .error _ => []

theorem wanted_tags_found (record : Value) (tags : List Tag) (evaluates : Evaluates record tags) :
    (matching record tags).result = .ok (wantedTags record tags) ∧
      ∀ id, id ∈ wantedTags record tags ↔ Matches record tags id := by
  obtain ⟨ids, found, _, exact⟩ := matching_found record tags evaluates
  have same : wantedTags record tags = ids := by rw [wantedTags, found]
  rw [same]
  exact ⟨found, exact⟩

theorem link_settled_wanted (desired : List String) (table : AssignmentTable)
    (coherent : Coherent table) (client id : String) :
    link? client id (settled client desired table) =
      settledLink (decide (id ∈ desired)) client id (link? client id table) := by
  rw [link_settled desired table coherent]
  cases link? client id table <;> simp [settledLink]

theorem link_settled_other (desired : List String) (table : AssignmentTable)
    (client other id : String) (different : other ≠ client) :
    link? other id (settled client desired table) = link? other id table := by
  have apart : ∀ ids : List String, (other, id) ∉ ids.map fun tag => (client, tag) := by
    intro ids member
    obtain ⟨tag, _, same⟩ := List.mem_map.mp member
    exact different (Prod.mk.inj same).1.symm
  simp only [settled, apply_diff_eq_change, link_change, apart, if_false]

def settledClients (tags : List Tag) (clients : Dictionary String Value) (table : AssignmentTable) :
    AssignmentTable :=
  clients.foldl (fun t client => settled client.1 (wantedTags client.2 tags) t) table

theorem link_settled_clients_other (tags : List Tag) (clients : Dictionary String Value)
    (table : AssignmentTable) (other id : String) (unlisted : other ∉ clients.keys) :
    link? other id (settledClients tags clients table) = link? other id table := by
  induction clients generalizing table with
  | nil => rfl
  | cons client rest ih =>
    obtain ⟨different, later⟩ : other ≠ client.1 ∧ other ∉ Dictionary.keys rest := by
      simpa [Dictionary.keys] using unlisted
    change link? other id (settledClients tags rest (settled client.1 _ table)) = _
    rw [ih _ later, link_settled_other _ table client.1 other id different]

theorem link_settled_clients (tags : List Tag) (clients : Dictionary String Value)
    (distinctClients : clients.keys.Nodup) (table : AssignmentTable) (coherent : Coherent table)
    (client : String) (record : Value) (listed : (client, record) ∈ clients) (id : String) :
    link? client id (settledClients tags clients table) =
      settledLink (decide (id ∈ wantedTags record tags)) client id (link? client id table) := by
  induction clients generalizing table with
  | nil => cases listed
  | cons first rest ih =>
    obtain ⟨fresh, restDistinct⟩ := List.nodup_cons.mp distinctClients
    change link? client id (settledClients tags rest (settled first.1 _ table)) = _
    rcases List.mem_cons.mp listed with atHead | later
    · subst atHead
      rw [link_settled_clients_other tags rest _ client id fresh, link_settled_wanted _ table coherent]
    · have different : client ≠ first.1 := by
        intro same
        exact fresh (same ▸ List.mem_map.mpr ⟨(client, record), later, rfl⟩)
      rw [ih restDistinct _ (coherent_settled _ table coherent first.1) later,
        link_settled_other _ table first.1 client id different]

def clientsThat (p : String → Value → Bool) (clients : Dictionary String Value) : List String :=
  (clients.filter fun client => p client.1 client.2).map Prod.fst

theorem mem_clients_that (p : String → Value → Bool) (clients : Dictionary String Value)
    (distinctClients : clients.keys.Nodup) (client : String) (record : Value)
    (listed : (client, record) ∈ clients) :
    client ∈ clientsThat p clients ↔ p client record = true := by
  constructor
  · intro member
    obtain ⟨⟨other, found⟩, kept, rfl⟩ := List.mem_map.mp member
    obtain ⟨alsoListed, good⟩ := List.mem_filter.mp kept
    have one := (Dictionary.get_some_iff distinctClients other found).mpr alsoListed
    have two := (Dictionary.get_some_iff distinctClients other record).mpr listed
    obtain rfl : found = record := Option.some.inj (one.symm.trans two)
    exact good
  · intro good
    exact List.mem_map.mpr ⟨(client, record), List.mem_filter.mpr ⟨listed, good⟩, rfl⟩

theorem clients_that_listed (p : String → Value → Bool) (clients : Dictionary String Value)
    (client : String) (member : client ∈ clientsThat p clients) : client ∈ clients.keys := by
  obtain ⟨entry, kept, rfl⟩ := List.mem_map.mp member
  exact List.mem_map.mpr ⟨entry, (List.mem_filter.mp kept).1, rfl⟩

def tagDiffOf (tag : Tag) (clients : Dictionary String Value) (assignments : List Assignment) :
    TagDiff :=
  let auto := (clientsWhere tag.id (·.auto) assignments).eraseDups
  let manual := clientsWhere tag.id (fun a => !a.auto) assignments
  match tag.condition with
  | none => ⟨tag.id, [], auto⟩
  | some _ =>
      ⟨tag.id,
        clientsThat (fun client record =>
          satisfies record tag && decide (client ∉ auto ∧ client ∉ manual)) clients,
        clientsThat (fun client record => !satisfies record tag && decide (client ∈ auto)) clients⟩

theorem tag_diff_of_tag (tag : Tag) (clients : Dictionary String Value)
    (assignments : List Assignment) : (tagDiffOf tag clients assignments).tag = tag.id := by
  unfold tagDiffOf
  cases tag.condition <;> rfl

theorem sort_clients_found (c : Condition) (auto manual : List String)
    (clients : Dictionary String Value)
    (evaluates : ∀ client ∈ clients, ∃ holds, (c.evaluate client.2).result = .ok holds) :
    (sortClients c auto manual clients).result =
      .ok (clientsThat (fun client record => Value.holds (c.evaluate record).result &&
          decide (client ∉ auto ∧ client ∉ manual)) clients,
        clientsThat (fun client record =>
          !Value.holds (c.evaluate record).result && decide (client ∈ auto)) clients) := by
  induction clients with
  | nil => rfl
  | cons client rest ih =>
    obtain ⟨holds, verdict⟩ := evaluates client List.mem_cons_self
    have later := ih fun other member => evaluates other (List.mem_cons_of_mem _ member)
    cases holds with
    | false =>
      by_cases linked : client.1 ∈ auto <;>
        simp [sortClients, clientsThat, verdict, later, linked, Except.bind, Except.map, Value.holds]
    | true =>
      by_cases unlinked : client.1 ∉ auto ∧ client.1 ∉ manual <;>
        simp only [sortClients, clientsThat, verdict, later, unlinked, Except.bind, Except.map,
          Value.holds, Traced.result_bind, Traced.result_map, if_true, List.filter_cons] <;>
        simp

theorem tag_found (tag : Tag) (clients : Dictionary String Value) (assignments : List Assignment)
    (evaluates : ∀ client ∈ clients, Evaluates client.2 [tag]) :
    (Reconcile.tag tag clients assignments).result = .ok (tagDiffOf tag clients assignments) := by
  unfold Reconcile.tag tagDiffOf
  cases condition : tag.condition with
  | none => rfl
  | some c =>
    have sorted := sort_clients_found c
      ((clientsWhere tag.id (·.auto) assignments).eraseDups)
      (clientsWhere tag.id (fun a => !a.auto) assignments) clients fun client member =>
        evaluates client member tag List.mem_cons_self c condition
    simp only [Traced.result_map, sorted, Except.map, satisfies, condition]

def between (client tag : String) (assignments : List Assignment) : List Assignment :=
  assignments.filter fun a => decide (a.client = some client) && decide (a.tag = tag)

theorem mem_between (client tag : String) (assignments : List Assignment) (a : Assignment) :
    a ∈ between client tag assignments ↔ a ∈ assignments ∧ a.client = some client ∧ a.tag = tag := by
  simp [between]

theorem mem_clients_where (client tag : String) (p : Assignment → Bool) (assignments : List Assignment) :
    client ∈ clientsWhere tag p assignments ↔ ∃ a ∈ between client tag assignments, p a = true := by
  constructor
  · intro member
    obtain ⟨a, kept, named⟩ := List.mem_filterMap.mp member
    obtain ⟨listed, good⟩ := List.mem_filter.mp kept
    obtain ⟨ofTag, counts⟩ : a.tag = tag ∧ p a = true := by simpa using good
    exact ⟨a, (mem_between client tag assignments a).mpr ⟨listed, named, ofTag⟩, counts⟩
  · rintro ⟨a, member, counts⟩
    obtain ⟨listed, named, ofTag⟩ := (mem_between client tag assignments a).mp member
    exact List.mem_filterMap.mpr ⟨a, List.mem_filter.mpr ⟨listed, by simp [ofTag, counts]⟩, named⟩

theorem between_nil_iff (client tag : String) (assignments : List Assignment) :
    between client tag assignments = [] ↔
      client ∉ clientsWhere tag (·.auto) assignments ∧
        client ∉ clientsWhere tag (fun a => !a.auto) assignments := by
  rw [mem_clients_where, mem_clients_where, List.eq_nil_iff_forall_not_mem]
  constructor
  · intro empty
    exact ⟨fun ⟨a, member, _⟩ => empty a member, fun ⟨a, member, _⟩ => empty a member⟩
  · rintro ⟨notAuto, notManual⟩ a member
    cases auto : a.auto with
    | true => exact notAuto ⟨a, member, auto⟩
    | false => exact notManual ⟨a, member, by rw [auto]; rfl⟩

theorem conditioned_tag_diff (tag : Tag) (conditioned : tag.condition.isSome = true)
    (clients : Dictionary String Value) (distinctClients : clients.keys.Nodup)
    (assignments : List Assignment) (client : String) (record : Value)
    (listed : (client, record) ∈ clients) :
    (client ∈ (tagDiffOf tag clients assignments).toAdd ↔
      satisfies record tag = true ∧ between client tag.id assignments = []) ∧
    (client ∈ (tagDiffOf tag clients assignments).toRemove ↔
      satisfies record tag = false ∧ ∃ a ∈ between client tag.id assignments, a.auto = true) := by
  obtain ⟨c, condition⟩ := Option.isSome_iff_exists.mp conditioned
  simp only [tagDiffOf, condition]
  rw [between_nil_iff, ← mem_clients_where,
    mem_clients_that _ clients distinctClients client record listed,
    mem_clients_that _ clients distinctClients client record listed]
  simp only [Bool.and_eq_true, decide_eq_true_eq, Bool.not_eq_true', List.mem_eraseDups, and_self]

theorem unconditioned_tag_diff (tag : Tag) (manualOnly : tag.condition = none)
    (clients : Dictionary String Value) (assignments : List Assignment) :
    (tagDiffOf tag clients assignments).toAdd = [] ∧
    ∀ client, client ∈ (tagDiffOf tag clients assignments).toRemove ↔
      ∃ a ∈ between client tag.id assignments, a.auto = true := by
  simp only [tagDiffOf, manualOnly, List.mem_eraseDups, mem_clients_where, true_and, implies_true]

theorem between_of_tag (table : AssignmentTable) (coherent : Coherent table) (client tag : String)
    (a : Assignment) : a ∈ between client tag (ofTag tag table) ↔ link? client tag table = some a := by
  rw [mem_between, coherent.mem_of_tag_iff]
  constructor
  · rintro ⟨⟨other, found⟩, named, _⟩
    obtain rfl : other = client :=
      Option.some.inj ((coherent.link_named found).1.symm.trans named)
    exact found
  · intro found
    exact ⟨⟨client, found⟩, coherent.link_named found⟩

theorem auto_between (table : AssignmentTable) (coherent : Coherent table) (client tag : String) :
    (∃ a ∈ between client tag (ofTag tag table), a.auto = true) ↔ HasAuto client tag table :=
  exists_congr fun a => and_congr_left fun _ => between_of_tag table coherent client tag a

def settledTag (tag : Tag) (clients : Dictionary String Value) (table : AssignmentTable) :
    AssignmentTable :=
  applyTagDiff (tagDiffOf tag clients (ofTag tag.id table)) table

theorem coherent_settled_tag (tag : Tag) (clients : Dictionary String Value)
    (table : AssignmentTable) (coherent : Coherent table) :
    Coherent (settledTag tag clients table) := by
  rw [settledTag, apply_tag_diff_eq_change]
  exact coherent_change _ _ table coherent

theorem link_apply_tag_diff (diff : TagDiff) (table : AssignmentTable) (client id : String) :
    link? client id (applyTagDiff diff table) =
      if id = diff.tag then
        let kept := if client ∈ diff.toAdd then some ((link? client id table).getD ⟨id, true, some client⟩)
          else link? client id table
        if client ∈ diff.toRemove then kept.filter (fun a => !a.auto) else kept
      else link? client id table := by
  have paired : ∀ ids : List String,
      ((client, id) ∈ ids.map fun other => (other, diff.tag)) ↔ id = diff.tag ∧ client ∈ ids := by
    intro ids
    simp only [List.mem_map, Prod.mk.injEq]
    constructor
    · rintro ⟨other, member, rfl, same⟩
      exact ⟨same.symm, member⟩
    · rintro ⟨same, member⟩
      exact ⟨client, member, rfl, same.symm⟩
  simp only [apply_tag_diff_eq_change, link_change, paired]
  by_cases same : id = diff.tag
  · simp only [same, true_and, if_true]
  · simp only [same, false_and, if_false]

theorem link_settled_tag_other (tag : Tag) (clients : Dictionary String Value)
    (table : AssignmentTable) (client id : String) (different : id ≠ tag.id) :
    link? client id (settledTag tag clients table) = link? client id table := by
  rw [settledTag, link_apply_tag_diff, tag_diff_of_tag, if_neg different]

theorem link_settled_tag_unlisted (tag : Tag) (conditioned : tag.condition.isSome = true)
    (clients : Dictionary String Value) (table : AssignmentTable) (client id : String)
    (unlisted : client ∉ clients.keys) :
    link? client id (settledTag tag clients table) = link? client id table := by
  have apart : ∀ p, client ∉ clientsThat p clients :=
    fun p member => unlisted (clients_that_listed p clients client member)
  obtain ⟨c, condition⟩ := Option.isSome_iff_exists.mp conditioned
  rw [settledTag, link_apply_tag_diff]
  simp only [tagDiffOf, condition, apart, if_false, ite_self]

theorem mem_tag_to_add (tag : Tag) (conditioned : tag.condition.isSome = true)
    (clients : Dictionary String Value) (distinctClients : clients.keys.Nodup)
    (table : AssignmentTable) (coherent : Coherent table) (client : String) (record : Value)
    (listed : (client, record) ∈ clients) :
    client ∈ (tagDiffOf tag clients (ofTag tag.id table)).toAdd ↔
      satisfies record tag = true ∧ link? client tag.id table = none := by
  rw [(conditioned_tag_diff tag conditioned clients distinctClients _ client record listed).1,
    List.eq_nil_iff_forall_not_mem, Option.eq_none_iff_forall_ne_some]
  simp only [between_of_tag table coherent, ne_eq]

theorem mem_tag_to_remove (tag : Tag) (conditioned : tag.condition.isSome = true)
    (clients : Dictionary String Value) (distinctClients : clients.keys.Nodup)
    (table : AssignmentTable) (coherent : Coherent table) (client : String) (record : Value)
    (listed : (client, record) ∈ clients) :
    client ∈ (tagDiffOf tag clients (ofTag tag.id table)).toRemove ↔
      satisfies record tag = false ∧ HasAuto client tag.id table := by
  rw [(conditioned_tag_diff tag conditioned clients distinctClients _ client record listed).2,
    auto_between table coherent]

theorem link_settled_tag (tag : Tag) (conditioned : tag.condition.isSome = true)
    (clients : Dictionary String Value) (distinctClients : clients.keys.Nodup)
    (table : AssignmentTable) (coherent : Coherent table) (client : String) (record : Value)
    (listed : (client, record) ∈ clients) :
    link? client tag.id (settledTag tag clients table) =
      settledLink (satisfies record tag) client tag.id (link? client tag.id table) := by
  have toAdd := mem_tag_to_add tag conditioned clients distinctClients table coherent client record listed
  have toRemove :=
    mem_tag_to_remove tag conditioned clients distinctClients table coherent client record listed
  rw [settledTag, link_apply_tag_diff, tag_diff_of_tag, if_pos rfl]
  cases found : link? client tag.id table with
  | none =>
    cases wanted : satisfies record tag <;>
      simp [toAdd, toRemove, Linked, found, settledLink, wanted]
  | some a =>
    cases wanted : satisfies record tag <;> cases auto : a.auto <;>
      simp [toAdd, toRemove, Linked, found, settledLink, wanted, auto, Option.filter_some]

def settledTags (tags : List Tag) (clients : Dictionary String Value) (table : AssignmentTable) :
    AssignmentTable :=
  tags.foldl (fun t tag => settledTag tag clients t) table

theorem link_settled_tags_other (tags : List Tag) (clients : Dictionary String Value)
    (table : AssignmentTable) (client id : String) (other : id ∉ tags.map (·.id)) :
    link? client id (settledTags tags clients table) = link? client id table := by
  induction tags generalizing table with
  | nil => rfl
  | cons tag rest ih =>
    obtain ⟨different, later⟩ : id ≠ tag.id ∧ id ∉ rest.map (·.id) := by simpa using other
    change link? client id (settledTags rest clients (settledTag tag clients table)) = _
    rw [ih _ later, link_settled_tag_other tag clients table client id different]

theorem link_settled_tags_unlisted (tags : List Tag)
    (conditioned : ∀ tag ∈ tags, tag.condition.isSome = true) (clients : Dictionary String Value)
    (table : AssignmentTable) (client id : String) (unlisted : client ∉ clients.keys) :
    link? client id (settledTags tags clients table) = link? client id table := by
  induction tags generalizing table with
  | nil => rfl
  | cons tag rest ih =>
    change link? client id (settledTags rest clients (settledTag tag clients table)) = _
    rw [ih (fun other later => conditioned other (List.mem_cons_of_mem _ later)),
      link_settled_tag_unlisted tag (conditioned tag List.mem_cons_self) clients table client id
        unlisted]

theorem link_settled_tags (tags : List Tag) (distinctTags : (tags.map (·.id)).Nodup)
    (conditioned : ∀ tag ∈ tags, tag.condition.isSome = true) (clients : Dictionary String Value)
    (distinctClients : clients.keys.Nodup) (table : AssignmentTable) (coherent : Coherent table)
    (client : String) (record : Value) (listed : (client, record) ∈ clients) (tag : Tag)
    (member : tag ∈ tags) :
    link? client tag.id (settledTags tags clients table) =
      settledLink (satisfies record tag) client tag.id (link? client tag.id table) := by
  induction tags generalizing table with
  | nil => cases member
  | cons first rest ih =>
    obtain ⟨fresh, restDistinct⟩ := List.nodup_cons.mp distinctTags
    have restConditioned : ∀ other ∈ rest, other.condition.isSome = true :=
      fun other later => conditioned other (List.mem_cons_of_mem _ later)
    change link? client tag.id (settledTags rest clients (settledTag first clients table)) = _
    rcases List.mem_cons.mp member with atHead | later
    · subst atHead
      rw [link_settled_tags_other rest clients _ client tag.id fresh,
        link_settled_tag tag (conditioned tag List.mem_cons_self) clients distinctClients table
          coherent client record listed]
    · have different : tag.id ≠ first.id :=
        fun same => fresh (List.mem_map.mpr ⟨tag, later, same⟩)
      rw [ih restDistinct restConditioned _ (coherent_settled_tag first clients table coherent) later,
        link_settled_tag_other first clients table client tag.id different]

theorem eq_of_same_id (tags : List Tag) (distinctTags : (tags.map (·.id)).Nodup) (one other : Tag)
    (oneListed : one ∈ tags) (otherListed : other ∈ tags) (same : one.id = other.id) :
    one = other := by
  induction tags with
  | nil => cases oneListed
  | cons first rest ih =>
    obtain ⟨fresh, restDistinct⟩ := List.nodup_cons.mp distinctTags
    rcases List.mem_cons.mp oneListed with rfl | oneLater
    · rcases List.mem_cons.mp otherListed with atHead | otherLater
      · exact atHead.symm
      · exact absurd (List.mem_map.mpr ⟨other, otherLater, same.symm⟩) fresh
    · rcases List.mem_cons.mp otherListed with rfl | otherLater
      · exact absurd (List.mem_map.mpr ⟨one, oneLater, same⟩) fresh
      · exact ih restDistinct oneLater otherLater

theorem wanted_iff_satisfies (record : Value) (tags : List Tag)
    (distinctTags : (tags.map (·.id)).Nodup) (evaluates : Evaluates record tags) (tag : Tag)
    (member : tag ∈ tags) :
    tag.id ∈ wantedTags record tags ↔ satisfies record tag = true := by
  rw [(wanted_tags_found record tags evaluates).2, satisfies_iff]
  constructor
  · rintro ⟨other, listed, same, satisfied⟩
    obtain rfl : other = tag := eq_of_same_id tags distinctTags other tag listed member same
    exact satisfied
  · intro satisfied
    exact ⟨tag, member, rfl, satisfied⟩

theorem unwanted_other (record : Value) (tags : List Tag) (evaluates : Evaluates record tags)
    (id : String) (other : id ∉ tags.map (·.id)) : id ∉ wantedTags record tags := by
  rw [(wanted_tags_found record tags evaluates).2]
  rintro ⟨tag, listed, same, _⟩
  exact other (List.mem_map.mpr ⟨tag, listed, same⟩)

theorem settled_clients_agree_with_tags (tags order : List Tag) (reordered : order.Perm tags)
    (distinctTags : (tags.map (·.id)).Nodup)
    (conditioned : ∀ tag ∈ tags, tag.condition.isSome = true) (clients : Dictionary String Value)
    (distinctClients : clients.keys.Nodup)
    (evaluates : ∀ client ∈ clients, Evaluates client.2 tags) (table : AssignmentTable)
    (coherent : Coherent table) (client : String) (listed : client ∈ clients.keys) (tag : Tag)
    (member : tag ∈ tags) :
    link? client tag.id (settledClients tags clients table) =
      link? client tag.id (settledTags order clients table) := by
  obtain ⟨⟨name, record⟩, found, rfl⟩ := List.mem_map.mp listed
  have distinctOrder : (order.map (·.id)).Nodup := (reordered.map _).nodup_iff.mpr distinctTags
  have wanted : decide (tag.id ∈ wantedTags record tags) = satisfies record tag := by
    rw [Bool.eq_iff_iff, decide_eq_true_eq]
    exact wanted_iff_satisfies record tags distinctTags (evaluates _ found) tag member
  rw [link_settled_clients tags clients distinctClients table coherent name record found, wanted,
    link_settled_tags order distinctOrder
      (fun other later => conditioned other (reordered.mem_iff.mp later)) clients distinctClients
      table coherent name record found tag (reordered.mem_iff.mpr member)]

end Reconcile

end TagRules
