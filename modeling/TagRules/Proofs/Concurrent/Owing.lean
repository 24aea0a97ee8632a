import TagRules.Proofs.Concurrent.Acts

/-!
Every move of a run leaves both the links and the debt as they are, or pays the debt with the effect
that is owed.
-/

set_option autoImplicit false

namespace TagRules

open Service AssignmentTable

namespace Standing

section

variable (given : Option String → Memory.Loading) (client : String)

def pending : Standing → Option (AssignmentTable → AssignmentTable)
  | .loading company next => (next (given company).1).pending
  | .aiming aim => if aim.concerns client then some (aim.effect client) else none
  | .saw aim table => if aim.names client table then some (aim.effect client) else none
  | .calling jobs =>
      (jobs.find? fun job => decide (job.client = client)).map fun job => (Aim.one job).effect client
  | _ => none

def after (k : Standing) (links : AssignmentTable) : AssignmentTable :=
  match k.pending given client with
  | some f => f links
  | none => links

def Distinct : Standing → Prop
  | .loading company next => (next (given company).1).Distinct
  | .calling jobs => (jobs.map (·.client)).Nodup
  | _ => True

end

def Lasting (now : AssignmentTable) (k : Standing) : Prop :=
  ∀ aim before w, k = .saw aim before → aim.due before = some w →
    Coherent before ∧ aim.Shielded before now

theorem Tells.nothing_pending {reported : List Request} {k : Standing} (tells : k.Tells reported)
    (given : Option String → Memory.Loading) (client : String) : k.pending given client = none := by
  cases k with
  | saw aim table =>
    refine if_neg fun named => ?_
    obtain ⟨w, due, _⟩ := (aim.names_iff client table).mp named
    cases tells.1.symm.trans due
  | loading _ _ => cases tells
  | aiming _ => cases tells
  | calling _ => cases tells
  | _ => rfl

theorem begins_not_saw {k : Standing} (begins : k.Begins) (aim : Aim) (table : AssignmentTable) :
    k ≠ .saw aim table := by
  rintro rfl
  cases begins

theorem quiet_effect (r : Request) (quiet : r.isQuiet = true) (table : AssignmentTable) :
    r.effect table = table := by
  cases r <;> first | rfl | cases quiet

section

variable {given : Option String → Memory.Loading} {m : Memory} {k now : Standing} {r : Request}
  (move : Move (fun company _ => given company) m k r now)

include move

theorem Move.settles (client : String) (coherent : Coherent m.table) (lasting : k.Lasting m.table) :
    (now.pending given client = k.pending given client ∧
      linksOf client (r.effect m.table) = linksOf client m.table) ∨
    ∃ f, k.pending given client = some f ∧ now.pending given client = none ∧
      linksOf client (r.effect m.table) = f (linksOf client m.table) := by
  cases move with
  | quiet _ _ quiet => exact .inl ⟨rfl, congrArg _ (quiet_effect r quiet m.table)⟩
  | load company next begins => exact .inl ⟨rfl, rfl⟩
  | enter _ _ => exact .inl ⟨rfl, rfl⟩
  | leave _ _ nothing => exact .inl ⟨rfl, rfl⟩
  | read aim =>
    have untouched : aim.read.effect m.table = m.table := by cases aim <;> rfl
    rw [untouched]
    cases named : aim.names client m.table with
    | true =>
      have concerned := aim.concerned_if_named client m.table named
      exact .inl ⟨by simp [pending, named, concerned], rfl⟩
    | false =>
      cases concerned : aim.concerns client with
      | false => exact .inl ⟨by simp [pending, named, concerned], rfl⟩
      | true =>
        refine .inr ⟨aim.effect client, by simp [pending, concerned], by simp [pending, named], ?_⟩
        rw [← aim.links_of_act client m.table coherent, aim.links_of_idle_act client m.table named]
  | write aim before w due =>
    obtain ⟨coherentThen, shielded⟩ := lasting aim before r rfl due
    by_cases named : client ∈ r.clients
    · have isNamed := (aim.names_iff client before).mpr ⟨r, due, named⟩
      refine .inr ⟨aim.effect client, by simp [pending, isNamed], rfl, ?_⟩
      rw [← aim.links_of_act client m.table coherent]
      exact aim.links_of_late_write client due named coherentThen coherent shielded
    · have notNamed : aim.names client before = false := by
        refine Bool.eq_false_iff.mpr fun isNamed => ?_
        obtain ⟨w, dueToo, listed⟩ := (aim.names_iff client before).mp isNamed
        obtain rfl := Option.some.inj (due.symm.trans dueToo)
        exact named listed
      exact .inl ⟨by simp [pending, notNamed], r.links_of_unnamed client named m.table⟩

theorem Move.after_same (client : String) (coherent : Coherent m.table) (lasting : k.Lasting m.table) :
    now.after given client (linksOf client (r.effect m.table)) =
      k.after given client (linksOf client m.table) := by
  rcases move.settles client coherent lasting with ⟨same, untouched⟩ | ⟨f, owed, paid, done⟩
  · rw [after, after, same, untouched]
  · rw [after, after, owed, paid, done]

theorem Move.lasting (coherent : Coherent m.table) (lasting : k.Lasting m.table) :
    now.Lasting (r.effect m.table) := by
  cases move with
  | quiet _ _ quiet => exact (quiet_effect r quiet m.table).symm ▸ lasting
  | load company next begins =>
    exact fun aim before w same => absurd same (begins_not_saw begins aim before)
  | enter _ _ => exact lasting
  | leave _ _ nothing => exact lasting
  | read aim =>
    have untouched : aim.read.effect m.table = m.table := by cases aim <;> rfl
    rw [untouched]
    rintro _ _ w ⟨rfl, rfl⟩ _
    exact ⟨coherent, fun job _ => ByHandOnly.refl job.client m.table⟩
  | write aim before w due => nofun

theorem Move.distinct (distinct : k.Distinct given) : now.Distinct given := by
  cases move <;> exact distinct

end

end Standing

section

variable {α : Type} (settings : Settings) (given : Option String → Memory.Loading)

structure Settles (k : Standing) (w : World Memory) (now : Standing) (ended : World Memory) : Prop where
  plain : ended.store.rules = []
  coherent : Coherent ended.store.table
  lasting : now.Lasting ended.store.table
  links : ∀ client, now.after given client (linksOf client ended.store.table) =
    k.after given client (linksOf client w.store.table)

variable {given}

theorem Settles.trans {k middle now : Standing} {w between ended : World Memory}
    (first : Settles given k w middle between) (second : Settles given middle between now ended) :
    Settles given k w now ended :=
  ⟨second.plain, second.coherent, second.lasting,
    fun client => (second.links client).trans (first.links client)⟩

theorem respond_settles (task : Nat) {r : Request} {k now : Standing} (w : World Memory)
    (plain : w.store.rules = []) (coherent : Coherent w.store.table)
    (lasting : k.Lasting w.store.table)
    (move : Standing.Move (fun company _ => given company) w.store k r now) :
    Settles given k w now (World.respond
      (Scene.inMemory settings fun company _ => given company).collaborators task r w).2 := by
  obtain ⟨_, store⟩ := World.respond_in_memory settings (fun company _ => given company) task r w plain
  constructor
  · rw [store]
    exact plain
  · rw [store]
    exact r.coherent_effect _ coherent
  · rw [store]
    exact move.lasting coherent lasting
  · intro client
    rw [store]
    exact move.after_same client coherent lasting

theorem Program.run_settles (task : Nat) {last : Standing → α → Prop} {p : Program α} {k : Standing}
    (runs : p.Runs (fun company _ => given company) last k) (w : World Memory)
    (plain : w.store.rules = []) (coherent : Coherent w.store.table)
    (lasting : k.Lasting w.store.table) :
    let ran := p.run (World.respond
      (Scene.inMemory settings fun company _ => given company).collaborators task) w
    ∃ now, last now ran.1 ∧ Settles given k w now ran.2 := by
  induction p generalizing k w with
  | done a => exact ⟨k, runs, plain, coherent, lasting, fun _ => rfl⟩
  | ask r next ih =>
    obtain ⟨now, move, later⟩ := runs w.store plain
    have step := respond_settles settings task w plain coherent lasting move
    have answered := (World.respond_in_memory settings (fun company _ => given company) task r w plain).1
    rw [← answered] at later
    obtain ⟨ended, ends, settled⟩ := ih _ later _ step.plain step.coherent step.lasting
    exact ⟨ended, ends, step.trans settled⟩

theorem run_jobs_settle (task : Nat) {jobs : List Job} {programs : List (Program Outcome)}
    (runs : List.Forall₂ (fun job program => program.Runs (fun company _ => given company)
      (fun k outcome => k.Tells outcome.writes) (.aiming (.one job))) jobs programs)
    (distinct : (jobs.map (·.client)).Nodup) (w : World Memory) (plain : w.store.rules = [])
    (coherent : Coherent w.store.table) :
    let ran := Routine.runJobs (World.respond
      (Scene.inMemory settings fun company _ => given company).collaborators task) programs w
    Settles given (.calling jobs) w (.gathered ran.1) ran.2 := by
  induction runs generalizing w with
  | nil => exact ⟨plain, coherent, nofun, fun _ => rfl⟩
  | @cons job program jobs programs run _ ih =>
    obtain ⟨fresh, restDistinct⟩ := List.nodup_cons.mp distinct
    obtain ⟨now, tells, first⟩ := program.run_settles settings task run w plain coherent nofun
    have rest := ih restDistinct _ first.plain first.coherent
    refine ⟨rest.plain, rest.coherent, nofun, fun client => (rest.links client).trans ?_⟩
    have own := first.links client
    rw [Standing.after, tells.nothing_pending given client] at own
    dsimp only at own
    rw [own]
    by_cases same : job.client = client
    · have noOther : (jobs.find? fun job => decide (job.client = client)) = none := by
        refine List.find?_eq_none.mpr fun other member clash => fresh ?_
        exact List.mem_map.mpr ⟨other, member, (of_decide_eq_true clash).trans same.symm⟩
      simp [Standing.after, Standing.pending, Aim.concerns, same, noOther]
    · simp [Standing.after, Standing.pending, Aim.concerns, same]

theorem Routine.run_settles (task : Nat) {last : Standing → α → Prop} {p : Routine α} {k : Standing}
    (runs : p.Runs (fun company _ => given company) (fun k outcome => k.Tells outcome.writes) last k)
    (distinct : k.Distinct given) (w : World Memory) (plain : w.store.rules = [])
    (coherent : Coherent w.store.table) (lasting : k.Lasting w.store.table) :
    let ran := p.run (World.respond
      (Scene.inMemory settings fun company _ => given company).collaborators task) w
    ∃ now, last now ran.1 ∧ Settles given k w now ran.2 := by
  induction p generalizing k w with
  | done a => exact ⟨k, runs, plain, coherent, lasting, fun _ => rfl⟩
  | ask r next ih =>
    obtain ⟨now, move, later⟩ := runs w.store plain
    have step := respond_settles settings task w plain coherent lasting move
    have answered := (World.respond_in_memory settings (fun company _ => given company) task r w plain).1
    rw [← answered] at later
    obtain ⟨ended, ends, settled⟩ :=
      ih _ later (move.distinct distinct) _ step.plain step.coherent step.lasting
    exact ⟨ended, ends, step.trans settled⟩
  | each limit programs next ih =>
    obtain ⟨jobs, rfl, each, later⟩ := runs
    have jobsDone := run_jobs_settle settings task each distinct w plain coherent
    obtain ⟨ended, ends, settled⟩ :=
      ih _ (later _) trivial _ jobsDone.plain jobsDone.coherent jobsDone.lasting
    exact ⟨ended, ends, jobsDone.trans settled⟩

end

namespace Errand

def effect (given : Option String → Memory.Loading) (client : String) (errand : Errand)
    (links : AssignmentTable) : AssignmentTable :=
  errand.start.after given client (linksOf client (errand.onTable links))

theorem coherent_on_table (errand : Errand) (table : AssignmentTable) (coherent : Coherent table) :
    Coherent (errand.onTable table) := by
  cases errand with
  | assignManually client tag => exact coherent_assign_manually client tag table coherent
  | _ => exact coherent

theorem links_of_on_table (client : String) (errand : Errand) (table : AssignmentTable) :
    linksOf client (errand.onTable table) = linksOf client (errand.onTable (linksOf client table)) := by
  cases errand with
  | assignManually other tag => exact links_of_assign_manually client other tag table
  | _ => exact (links_of_links_of client table).symm

variable (settings : Settings) {given : Option String → Memory.Loading}

theorem perform_settles (errand : Errand) (distinct : errand.start.Distinct given) (w : World Memory)
    (plain : w.store.rules = []) (coherent : Coherent w.store.table) :
    let done := errand.perform (Scene.inMemory settings fun company _ => given company) w
    done.store.rules = [] ∧ Coherent done.store.table ∧ ∀ client,
      linksOf client done.store.table = errand.effect given client (linksOf client w.store.table) := by
  have begun : ∀ store : Memory, store.rules = [] → store.table = errand.onTable w.store.table →
      let done := ((errand.routine settings).run (World.respond
        (Scene.inMemory settings fun company _ => given company).collaborators 0)
          { w with store := store }).2
      done.store.rules = [] ∧ Coherent done.store.table ∧ ∀ client,
        linksOf client done.store.table = errand.effect given client (linksOf client w.store.table) := by
    intro store plain onTable
    obtain ⟨now, tells, settled⟩ := Routine.run_settles settings 0
      (errand.routine_runs settings fun company _ => given company) distinct { w with store := store }
      plain (onTable ▸ errand.coherent_on_table _ coherent)
      fun aim before _ same => absurd same (Standing.begins_not_saw errand.start_begins aim before)
    refine ⟨settled.plain, settled.coherent, fun client => ?_⟩
    have links := settled.links client
    rw [Standing.after, tells.nothing_pending given client] at links
    dsimp only at links
    rw [links, onTable, effect, ← links_of_on_table]
  cases errand with
  | assignManually client tag => exact begun _ plain rfl
  | evaluate entity company trigger => exact begun _ plain rfl
  | reevaluate tag entities => exact begun _ plain rfl
  | recompute company entities => exact begun _ plain rfl

theorem perform_all_settles (errands : List Errand)
    (distinct : ∀ errand ∈ errands, errand.start.Distinct given) (w : World Memory)
    (plain : w.store.rules = []) (coherent : Coherent w.store.table) (client : String) :
    linksOf client (performAll (Scene.inMemory settings fun company _ => given company) errands
      w).store.table =
      errands.foldl (fun links errand => errand.effect given client links)
        (linksOf client w.store.table) := by
  induction errands generalizing w with
  | nil => rfl
  | cons errand rest ih =>
    obtain ⟨here, later⟩ := List.forall_mem_cons.mp distinct
    obtain ⟨stillPlain, stillCoherent, links⟩ := errand.perform_settles settings here w plain coherent
    rw [List.foldl_cons, ← links client]
    exact ih later _ stillPlain stillCoherent

end Errand

end TagRules
