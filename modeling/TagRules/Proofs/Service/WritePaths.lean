import TagRules.Proofs.Service.Agreement
import TagRules.Proofs.Service.Writes

set_option autoImplicit false

namespace TagRules

def TagDiff.byClient (diff : TagDiff) : List (String × Diff) :=
  (diff.toAdd.map fun client => (client, ⟨[diff.tag], []⟩)) ++
    diff.toRemove.map fun client => (client, ⟨[], [diff.tag]⟩)

theorem TagDiff.mem_by_client (diff : TagDiff) (client : String) :
    client ∈ diff.byClient.map Prod.fst ↔ client ∈ diff.clients := by
  simp [byClient, clients]

namespace AssignmentTable

def applyEach (changes : List (String × Diff)) (table : AssignmentTable) : AssignmentTable :=
  changes.foldl (fun t change => applyDiff change.1 change.2 t) table

theorem apply_by_client (diff : TagDiff) (table : AssignmentTable) :
    applyEach diff.byClient table = applyTagDiff diff table := by
  rw [applyEach, TagDiff.byClient, List.foldl_append, List.foldl_map, List.foldl_map]
  rfl

end AssignmentTable

namespace Memory

open AssignmentTable

def applyEach : List (String × Diff) → Memory → Answered Memory Unit
  | [], m => (.ok (), [], m)
  | (client, diff) :: rest, m =>
      let written := applyDiff client diff m
      match written.1 with
      | .error e => (.error e, written.2)
      | .ok _ =>
          let later := applyEach rest written.2.2
          (later.1, written.2.1 ++ later.2.1, later.2.2)

theorem apply_each_named (changes : List (String × Diff)) (named : ∀ change ∈ changes, change.1 ≠ "")
    (m : Memory) :
    (applyEach changes m).1 = .ok () ∧
      (applyEach changes m).2.2 = { m with table := m.table.applyEach changes } := by
  induction changes generalizing m with
  | nil => exact ⟨rfl, rfl⟩
  | cons change rest ih =>
    obtain ⟨client, diff⟩ := change
    obtain ⟨present, others⟩ := List.forall_mem_cons.mp named
    rcases apply_diff_cases client diff m with ⟨nameless, _⟩ | ⟨_, applied⟩
    · exact absurd nameless present
    · simp only [applyEach, applied]
      exact ih others _

theorem apply_each_nameless (before after : List (String × Diff)) (change : Diff)
    (named : ∀ earlier ∈ before, earlier.1 ≠ "") (m : Memory) :
    let apart := applyEach (before ++ ("", change) :: after) m
    apart.1 = .error (.clientRequired change) ∧ apart.2.2 = (applyEach before m).2.2 := by
  induction before generalizing m with
  | nil => exact ⟨rfl, rfl⟩
  | cons first rest ih =>
    obtain ⟨client, diff⟩ := first
    obtain ⟨present, others⟩ := List.forall_mem_cons.mp named
    rcases apply_diff_cases client diff m with ⟨nameless, _⟩ | ⟨_, applied⟩
    · exact absurd nameless present
    · simp only [List.cons_append, applyEach, applied]
      exact ih others _

theorem first_nameless (changes : List (String × Diff)) (nameless : "" ∈ changes.map Prod.fst) :
    ∃ before change after, changes = before ++ ("", change) :: after ∧
      ∀ earlier ∈ before, earlier.1 ≠ "" := by
  obtain ⟨⟨client, change⟩, member, rfl⟩ := List.mem_map.mp nameless
  have found : (changes.find? fun change => decide (change.1 = "")).isSome :=
    List.find?_isSome.mpr ⟨_, member, rfl⟩
  obtain ⟨⟨client, change⟩, first⟩ := Option.isSome_iff_exists.mp found
  obtain ⟨here, before, after, split, earlier⟩ := List.find?_eq_some_iff_append.mp first
  obtain rfl : client = "" := of_decide_eq_true here
  exact ⟨before, change, after, split, fun other inside => by simpa using earlier other inside⟩

theorem apply_tag_diff_by_client (diff : TagDiff) (named : "" ∉ diff.clients) (m : Memory) :
    (applyEach diff.byClient m).1 = (applyTagDiff diff m).1 ∧
      (applyEach diff.byClient m).2.2 = (applyTagDiff diff m).2.2 := by
  have unnamed : ∀ change ∈ diff.byClient, change.1 ≠ "" := fun change member nameless =>
    named ((diff.mem_by_client "").mp (List.mem_map.mpr ⟨change, member, nameless⟩))
  have each := apply_each_named diff.byClient unnamed m
  rw [apply_by_client] at each
  exact each

end Memory

def Request.MayLink (client tag : String) : Request → Prop
  | .applyDiff c diff => c ≠ "" ∧ c = client ∧ tag ∈ diff.toAdd
  | .applyTagDiff diff => diff.tag = tag ∧ client ∈ diff.toAdd
  | _ => False

theorem Request.Concerns.not_nameless {client : String} {r : Request} (concerns : r.Concerns client)
    (tag : String) : ¬ r.MayLink "" tag := by
  cases r with
  | applyDiff c diff => exact fun may => may.1 may.2.1
  | applyTagDiff diff => exact concerns.elim
  | _ => exact id

namespace AssignmentTable

theorem unlinked_change (client tag : String) (added removed : List (String × String))
    (table : AssignmentTable) (free : link? client tag table = none) (other : (client, tag) ∉ added) :
    link? client tag (change added removed table) = none := by
  rw [link_change]
  simp only [if_neg other, free, Option.filter_none, ite_self]

end AssignmentTable

namespace Memory

open AssignmentTable

theorem respond_unlinked (listTags : Option String → Memory → Answered Memory (List Tag))
    (leaves : ∀ company m, (listTags company m).2.2.table = m.table) (client tag : String) (r : Request)
    (w : World Memory) (other : ¬ r.MayLink client tag)
    (free : link? client tag w.store.table = none) :
    link? client tag (World.respond { collaborators with listTags := listTags } 0 r w).2.store.table =
      none := by
  refine respond_keeps (fun table => link? client tag table = none) listTags
    (fun company m free => by rwa [leaves]) 0 r ?_ ?_ w free
  · intro c diff m write free
    subst write
    rcases apply_diff_cases c diff m with ⟨_, refused⟩ | ⟨named, applied⟩
    · rw [refused]
      exact free
    · rw [applied, apply_diff_eq_change]
      refine unlinked_change client tag _ _ m.table free fun added => ?_
      obtain ⟨id, member, same⟩ := List.mem_map.mp added
      cases same
      exact other ⟨named, rfl, member⟩
  · intro diff m write free
    subst write
    rw [applyTagDiff, apply_tag_diff_eq_change]
    refine unlinked_change client tag _ _ m.table free fun added => ?_
    obtain ⟨id, member, same⟩ := List.mem_map.mp added
    cases same
    exact other ⟨rfl, member⟩

theorem answering_unlinked (loading : Loading) (client tag : String) (r : Request) (w : World Memory) :
    ¬ r.MayLink client tag → link? client tag w.store.table = none →
      link? client tag (World.respond (answering loading) 0 r w).2.store.table = none :=
  respond_unlinked _ (fun _ _ => rfl) client tag r w

theorem collaborators_unlinked (client tag : String) (r : Request) (w : World Memory) :
    ¬ r.MayLink client tag → link? client tag w.store.table = none →
      link? client tag (World.respond collaborators 0 r w).2.store.table = none :=
  respond_unlinked collaborators.listTags list_tags_leaves client tag r w

end Memory

namespace Service

open AssignmentTable Reconcile

theorem reconcile_client_never_nameless (settings : Settings) (trigger : String) (job : Job)
    (tag : String) : (reconcileClient settings trigger job).Asks fun r => ¬ r.MayLink "" tag :=
  (reconcile_client_asks settings trigger job).imp fun _ concerns => concerns.not_nameless tag

theorem evaluate_never_nameless (settings : Settings) (entity : Value) (company : Option String)
    (trigger tag : String) :
    (evaluateAndAssign settings entity company trigger).Asks fun r => ¬ r.MayLink "" tag := by
  rw [evaluate_and_assign_eq]
  cases identify entity company with
  | error e => exact .done _
  | ok found =>
    obtain ⟨record, client, owner⟩ := found
    refine Program.asks_then (Program.asks_request id) fun _ => Program.asks_then ?_ fun outcome =>
      Program.asks_then (Program.asks_request id) fun _ => .done _
    refine Program.asks_then (Program.asks_request id) fun loaded => ?_
    cases loaded with
    | error e =>
      have noted := (note_unloaded_serves owner settings client e.message).imp fun _ serves =>
        serves.1.not_nameless tag
      exact Program.asks_then noted fun _ => .done _
    | ok tags => exact reconcile_client_never_nameless settings trigger ⟨client, record, tags⟩ tag

theorem recompute_never_nameless (settings : Settings) (loading : Memory.Loading)
    (company : Option String) (entities : List Value) (w : World Memory) (tag : String)
    (free : link? "" tag w.store.table = none) :
    link? "" tag ((recomputeCompany settings company entities).run
      (World.respond (Memory.answering loading) 0) w).2.store.table = none := by
  obtain ⟨answer, events⟩ := loading
  let c := Memory.answering (answer, events)
  cases answer with
  | error e =>
    obtain ⟨_, store, _⟩ := recompute_stops c settings company entities e w (.inl rfl)
    rw [store]
    exact free
  | ok tags =>
    cases identified : clientsOf entities with
    | error e =>
      obtain ⟨_, store, _⟩ :=
        recompute_stops c settings company entities e w (.inr ⟨⟨tags, rfl⟩, identified⟩)
      rw [store]
      exact free
    | ok clients =>
      obtain ⟨v, loaded, _, _, store, _⟩ :=
        recompute_runs c settings company entities tags clients w rfl identified
      rw [store, recompute_jobs_values]
      refine Program.Asks.jobs_keep (fun job member => ?_) _
        (fun u => link? "" tag u.store.table = none)
        (fun r u => Memory.answering_unlinked (.ok tags, events) "" tag r u) v (loaded ▸ free)
      obtain ⟨client, _, rfl⟩ := List.mem_map.mp member
      exact reconcile_client_never_nameless settings "recompute" _ tag

theorem added_satisfies (tag : Tag) (clients : Dictionary String Value) (assignments : List Assignment)
    (client : String) (added : client ∈ (tagDiffOf tag clients assignments).toAdd) :
    ∃ record, (client, record) ∈ clients ∧ satisfies record tag = true := by
  rw [tagDiffOf] at added
  cases condition : tag.condition with
  | none =>
    simp only [condition] at added
    cases added
  | some c =>
    simp only [condition] at added
    obtain ⟨⟨_, record⟩, kept, rfl⟩ := List.mem_map.mp added
    obtain ⟨listed, good⟩ := List.mem_filter.mp kept
    exact ⟨record, listed, (Bool.and_eq_true_iff.mp good).1⟩

theorem apply_under_locks_asks {P : Request → Prop} (enters : ∀ client, P (.enter client))
    (leaves : ∀ client, P (.leave client)) (diff : TagDiff) (write : P (.applyTagDiff diff)) :
    (applyUnderLocks diff).Asks P := by
  rw [applyUnderLocks]
  split
  · exact .done _
  · refine Program.asks_then (enter_all_asks enters _) fun _ => ?_
    refine Program.asks_then (Program.asks_request write) fun written => ?_
    exact Program.asks_then (leave_all_asks leaves _) fun _ => .done _

theorem reevaluate_links_listed (settings : Settings) (tag : Tag) (entities : List Value)
    (w : World Memory) (id : String) (free : link? "" id w.store.table = none)
    (unlisted : ∀ clients record, clientsOf entities = .ok clients →
      ("", record) ∈ Dictionary.ofList clients → satisfies record tag = true → tag.id ≠ id) :
    link? "" id ((reevaluateTag settings tag entities).run
      (World.respond Memory.collaborators 0) w).2.store.table = none := by
  obtain ⟨collected, kept, _⟩ :=
    collect_records_run Memory.collaborators 0 ("tag_id", .text tag.id) entities w
  rw [reevaluateTag, Program.run_then, collected]
  generalize ((collectRecords _ entities).run _ w).2 = v at kept ⊢
  rw [← kept] at free
  cases identified : clientsOf entities with
  | error e => exact free
  | ok clients =>
    refine Program.Asks.run_keeps (P := fun r => ¬ r.MayLink "" id) ?_ _
      (fun u => link? "" id u.store.table = none) (Memory.collaborators_unlinked "" id) v free
    refine Program.asks_then (Program.asks_request fun may => may) fun listed => ?_
    cases listed with
    | error e => exact .done _
    | ok current =>
      refine Program.asks_then (emit_notes_asks (fun _ may => may) _) fun _ => ?_
      cases found : (Reconcile.tag tag (Dictionary.ofList clients) current).result with
      | error e => exact .done _
      | ok diff =>
        have write : ¬ (Request.applyTagDiff diff).MayLink "" id := by
          intro may
          obtain ⟨same, added⟩ := may
          obtain rfl := tag_diff_found tag _ current diff found
          obtain ⟨record, listed, wanted⟩ := added_satisfies tag _ current "" added
          exact unlisted clients record identified listed wanted ((tag_diff_of_tag _ _ _).symm.trans same)
        refine Program.asks_then (apply_under_locks_asks (fun _ may => may) (fun _ may => may) diff write)
          fun written => ?_
        cases written with
        | error e => exact .done _
        | ok _ =>
          exact Program.asks_then (Program.asks_request fun may => may) fun _ =>
            Program.asks_then (count_run_asks settings "tag_changed" _ _ fun may => may) fun _ => .done _

end Service

namespace Call

open AssignmentTable Service

-- A call that names the client without a name among those to link: by hand, in a change of a tag, or as
-- a listed record that satisfies the tag.
inductive LinksNameless (tag : String) : Call → Prop
  | byHand : LinksNameless tag (.assignManually "" tag)
  | change (diff : TagDiff) (ofTag : diff.tag = tag) (added : "" ∈ diff.toAdd) :
      LinksNameless tag (.applyTagDiff diff)
  | reevaluation (changed : Tag) (entities : List Value) (clients : Dictionary String Value)
      (record : Value) (ofTag : changed.id = tag) (identified : clientsOf entities = .ok clients)
      (listed : ("", record) ∈ Dictionary.ofList clients)
      (wanted : Reconcile.satisfies record changed = true) :
      LinksNameless tag (.reevaluate changed entities)

theorem run_links_nameless (settings : Settings) (call : Call) (w : World Memory) (tag : String)
    (free : link? "" tag w.store.table = none) (other : ¬ call.LinksNameless tag) :
    link? "" tag (call.run settings w).store.table = none := by
  cases call with
  | assignManually client id =>
    change link? "" tag (AssignmentTable.assignManually client id w.store.table) = none
    rw [link_assign_manually, if_neg, free]
    intro same
    cases same
    exact other .byHand
  | applyDiff client diff =>
    exact Memory.collaborators_unlinked "" tag _ w (fun may => may.1 may.2.1) free
  | applyTagDiff diff =>
    exact Memory.collaborators_unlinked "" tag _ w (fun may => other (.change diff may.1 may.2)) free
  | evaluate loading entity company trigger =>
    exact (evaluate_never_nameless settings entity company trigger tag).run_keeps _
      (fun v => link? "" tag v.store.table = none) (Memory.answering_unlinked loading "" tag) w free
  | reevaluate changed entities =>
    refine reevaluate_links_listed settings changed entities w tag free ?_
    intro clients record identified listed wanted same
    exact other (.reevaluation changed entities clients record same identified listed wanted)
  | recompute loading company entities =>
    exact recompute_never_nameless settings loading company entities w tag free
  | fail rules => exact free

theorem run_all_links_nameless (settings : Settings) (calls : List Call) (w : World Memory)
    (tag : String) (free : link? "" tag w.store.table = none)
    (linked : link? "" tag (runAll settings calls w).store.table ≠ none) :
    ∃ call ∈ calls, call.LinksNameless tag := by
  induction calls generalizing w with
  | nil => exact absurd free linked
  | cons call rest ih =>
    by_cases here : call.LinksNameless tag
    · exact ⟨call, List.mem_cons_self, here⟩
    · obtain ⟨later, member, links⟩ := ih _ (run_links_nameless settings call w tag free here) linked
      exact ⟨later, List.mem_cons_of_mem call member, links⟩

end Call

namespace Memory

open AssignmentTable

theorem write_paths_part_at_nameless_client (diff : TagDiff) (m : Memory) :
    let together := applyTagDiff diff m
    let apart := applyEach diff.byClient m
    together.1 = .ok () ∧
    ("" ∉ diff.clients → apart.1 = .ok () ∧ apart.2.2 = together.2.2) ∧
    ("" ∈ diff.clients → ∃ before change after, diff.byClient = before ++ ("", change) :: after ∧
      (applyEach before m).1 = .ok () ∧ apart.1 = .error (.clientRequired change) ∧
      apart.2.2 = (applyEach before m).2.2) ∧
    ∀ (settings : Settings) (calls : List Call) (w : World Memory), w.store.table = [] →
      ∀ tag a, (("", tag), a) ∈ (Call.runAll settings calls w).store.table →
      ∃ call ∈ calls, call.LinksNameless tag := by
  intro together apart
  refine ⟨rfl, fun named => apply_tag_diff_by_client diff named m, fun nameless => ?_, ?_⟩
  · obtain ⟨before, change, after, split, named⟩ :=
      first_nameless diff.byClient ((diff.mem_by_client "").mpr nameless)
    obtain ⟨refused, stopped⟩ := apply_each_nameless before after change named m
    rw [← split] at refused stopped
    exact ⟨before, change, after, split, (apply_each_named before named m).1, refused, stopped⟩
  · intro settings calls w empty tag a member
    have coherent := Call.run_all_coherent settings calls w (by rw [empty]; exact coherent_empty)
    have found := (coherent.mem_iff "" tag a).mp member
    refine Call.run_all_links_nameless settings calls w tag ?_ (by rw [found]; exact Option.some_ne_none a)
    rw [empty]
    rfl

theorem paths_meet_and_part :
    let vip : Tag := ⟨"t", some (.single "x" (.known .equals) (.int 1) .null)⟩
    let calls : List Call := [.assignManually "b" "t", .applyDiff "c" ⟨["t"], []⟩,
      .reevaluate vip [.mapping [(.text "id", .text ""), (.text "x", .int 1)]]]
    let w := Call.runAll Settings.default calls Session.initial
    let named : TagDiff := ⟨"t", ["a", "b"], ["c"]⟩
    let nameless : TagDiff := ⟨"t", ["a", ""], ["c"]⟩
    (applyEach named.byClient w.store).2.2 = (applyTagDiff named w.store).2.2 ∧
      (∃ change, (applyEach nameless.byClient w.store).1 = .error (.clientRequired change)) ∧
      (("", "t"), ⟨"t", true, some ""⟩) ∈ w.store.table ∧ ∃ call ∈ calls, call.LinksNameless "t" := by
  intro vip calls w named nameless
  have linked : (("", "t"), ⟨"t", true, some ""⟩) ∈ w.store.table := by decide +kernel
  obtain ⟨_, meet, _, origin⟩ := write_paths_part_at_nameless_client named w.store
  obtain ⟨_, _, part, _⟩ := write_paths_part_at_nameless_client nameless w.store
  obtain ⟨_, change, _, _, _, refused, _⟩ := part (by decide)
  exact ⟨(meet (by decide)).2, ⟨change, refused⟩, linked,
    origin Settings.default calls Session.initial rfl "t" _ linked⟩

theorem reevaluation_links_client_without_name :
    (¬ ∀ (diff : TagDiff) (m : Memory), (∀ client ∈ diff.toAdd, client ∉ diff.toRemove) →
      (applyEach diff.byClient m).2.2.table = (applyTagDiff diff m).2.2.table ∧
      ((∃ e, (applyEach diff.byClient m).1 = .error e) ↔ ∃ e, (applyTagDiff diff m).1 = .error e)) ∧
    ¬ ∀ (settings : Settings) (tag : Tag) (entities : List Value) (w : World Memory),
      w.store.table = [] → ∀ id a,
      (("", id), a) ∉ (Call.run settings w (.reevaluate tag entities)).store.table := by
  constructor
  · intro agree
    obtain ⟨same, _⟩ := agree ⟨"t", [""], []⟩ Memory.empty (by simp)
    have apart : (applyEach (TagDiff.byClient ⟨"t", [""], []⟩) Memory.empty).2.2.table = [] := rfl
    rw [apart] at same
    cases same
  · intro never
    let vip : Tag := ⟨"t", some (.single "x" (.known .equals) (.int 1) .null)⟩
    have linked : (("", "t"), ⟨"t", true, some ""⟩) ∈ (Call.run Settings.default Session.initial
        (.reevaluate vip [.mapping [(.text "id", .text ""), (.text "x", .int 1)]])).store.table := by
      decide +kernel
    exact never Settings.default vip _ Session.initial rfl "t" _ linked

end Memory

end TagRules
