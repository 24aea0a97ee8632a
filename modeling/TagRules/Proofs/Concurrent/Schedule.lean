import TagRules.Proofs.Concurrent.Crew

set_option autoImplicit false

namespace TagRules.Crew

variable {σ : Type}

inductive Move
  | begin (errand : Errand)
  | turn (i : Nat)

def answerTurn (scene : Scene σ) (i : Nat) (w : Worker) (s : Crew σ) :
    (r : Request) → (r.Reply → Doing) → Option (Crew σ)
  | .enter client, next =>
      if w.awaits = none then
        some { s with
          world := (World.respond scene.collaborators i (.enter client) s.world).2
          workers := s.workers.set i { w with awaits := some client } }
      else if w.awaits = some client ∧ s.world.locks.isHolder client i = true then
        some { s with
          workers := s.workers.set i ⟨w.contexts, next (), client :: w.inside, none⟩
          history := .answered i (.enter client) s.world.store :: s.history }
      else none
  | r, next =>
      if r.isWrite = true ∧ s.writer ≠ some i then
        if s.writer = none then some { s with writer := some i } else none
      else
        let answered :=
          World.respond scene.collaborators i r { s.world with contexts := w.contexts }
        some
          { world := answered.2
            writer := if r.isWrite then none else s.writer
            workers := s.workers.set i
              ⟨answered.2.contexts, next answered.1, r.after w.inside, w.awaits⟩
            history := .answered i r s.world.store :: s.history }

def outcomeOf? (w : Worker) : Option Outcome :=
  match w.doing with
  | .job _ _ true (.done outcome) => some outcome
  | _ => none

def outcomes? (s : Crew σ) : Nat → Nat → Option (List Outcome)
  | _, 0 => some []
  | first, count + 1 =>
      match (s.workers[first]?).bind outcomeOf?, s.outcomes? (first + 1) count with
      | some outcome, some others => some (outcome :: others)
      | _, _ => none

def turn (scene : Scene σ) (i : Nat) (s : Crew σ) : Option (Crew σ) :=
  match s.workers[i]? with
  | none => none
  | some w =>
      match w.doing with
      | .call (.ask r next) => answerTurn scene i w s r fun reply => .call (next reply)
      | .job owner limit true (.ask r next) =>
          answerTurn scene i w s r fun reply => .job owner limit true (next reply)
      | .job owner limit false job =>
          if s.permitsHeld owner < limit then some (s.put i { w with doing := .job owner limit true job })
          else none
      | .call (.done result) =>
          some { s with
            workers := s.workers.set i { w with doing := .ended result }
            history := .ended i result :: s.history }
      | .call (.each limit jobs next) =>
          some { s with
            workers :=
              s.workers.set i { w with doing := .joining s.workers.length jobs.length next } ++
                jobs.map fun job => ⟨w.contexts, .job i limit false job, [], none⟩ }
      | .joining first count next =>
          match s.outcomes? first count with
          | some outcomes => some (s.put i { w with doing := .call (next outcomes) })
          | none => none
      | _ => none

def move (scene : Scene σ) (s : Crew σ) : Move → Option (Crew σ)
  | .begin errand =>
      some { s with
        world := { s.world with store := errand.outset scene s.world.store }
        workers := s.workers ++ [⟨[], .call (errand.routine scene.settings), [], none⟩]
        history := .began s.workers.length errand :: s.history }
  | .turn i => s.turn scene i

def play (scene : Scene σ) : List Move → Crew σ → Option (Crew σ)
  | [], s => some s
  | first :: rest, s => (s.move scene first).bind (play scene rest)

theorem outcomes_found (s : Crew σ) (first count : Nat) (outcomes : List Outcome)
    (found : s.outcomes? first count = some outcomes) :
    outcomes.length = count ∧ ∀ k outcome, outcomes[k]? = some outcome → ∃ job owner limit,
      s.workers[first + k]? = some job ∧ job.doing = .job owner limit true (.done outcome) := by
  induction count generalizing first outcomes with
  | zero =>
    obtain rfl := Option.some.inj found
    exact ⟨rfl, by simp⟩
  | succ count ih =>
    unfold outcomes? at found
    split at found
    · rename_i outcome others atFirst later
      obtain rfl := Option.some.inj found
      obtain ⟨length, each⟩ := ih (first + 1) others later
      refine ⟨by simp [length], fun k out member => ?_⟩
      cases k with
      | zero =>
        obtain rfl := Option.some.inj member
        obtain ⟨job, here, ended⟩ := Option.bind_eq_some_iff.mp atFirst
        unfold outcomeOf? at ended
        split at ended
        · obtain rfl := Option.some.inj ended
          exact ⟨job, _, _, here, by assumption⟩
        · cases ended
      | succ k =>
        rw [show first + (k + 1) = first + 1 + k by omega]
        exact each k out member
    · cases found

theorem answer_turn_step (scene : Scene σ) (i : Nat) (w : Worker) (s next : Crew σ) (r : Request)
    (go : r.Reply → Doing) (here : s.workers[i]? = some w) (asks : w.doing.Asks r go)
    (turned : answerTurn scene i w s r go = some next) : Step scene s next := by
  by_cases enters : ∃ client, r = .enter client
  · obtain ⟨client, rfl⟩ := enters
    simp only [answerTurn] at turned
    split at turned
    · obtain rfl := Option.some.inj turned
      exact .signUp i w client go here asks (by assumption)
    · split at turned
      · obtain rfl := Option.some.inj turned
        rename_i both
        exact .goIn i w client go here asks both.1 both.2
      · cases turned
  · have atOnce : ∀ client, r ≠ .enter client := fun client same => enters ⟨client, same⟩
    have plain : answerTurn scene i w s r go =
        if r.isWrite = true ∧ s.writer ≠ some i then
          if s.writer = none then some { s with writer := some i } else none
        else
          let answered := World.respond scene.collaborators i r { s.world with contexts := w.contexts }
          some
            { world := answered.2
              writer := if r.isWrite then none else s.writer
              workers := s.workers.set i
                ⟨answered.2.contexts, go answered.1, r.after w.inside, w.awaits⟩
              history := .answered i r s.world.store :: s.history } := by
      cases r <;> first | rfl | exact absurd rfl (atOnce _)
    rw [plain] at turned
    split at turned
    · rename_i both
      split at turned
      · obtain rfl := Option.some.inj turned
        exact .seize i w r go here asks both.1 (by assumption)
      · cases turned
    · rename_i free
      obtain rfl := Option.some.inj turned
      exact .answer i w r go _ _ here asks atOnce
        (fun writes => Decidable.byContradiction fun other => free ⟨writes, other⟩) rfl

theorem turn_step (scene : Scene σ) (i : Nat) (s next : Crew σ)
    (turned : s.turn scene i = some next) : Step scene s next := by
  unfold turn at turned
  split at turned
  · cases turned
  · rename_i w here
    split at turned
    · rename_i r go doing
      exact answer_turn_step scene i w s next r _ here (doing ▸ .call r go) turned
    · rename_i owner limit r go doing
      exact answer_turn_step scene i w s next r _ here (doing ▸ .job owner limit r go) turned
    · rename_i owner limit job doing
      split at turned
      · obtain rfl := Option.some.inj turned
        exact .start i w owner limit job here doing (by assumption)
      · cases turned
    · rename_i result doing
      obtain rfl := Option.some.inj turned
      exact .finish i w result here doing
    · rename_i limit jobs go doing
      obtain rfl := Option.some.inj turned
      exact .fork i w limit jobs go here doing
    · rename_i first count go doing
      split at turned
      · rename_i outcomes found
        obtain rfl := Option.some.inj turned
        obtain ⟨rfl, each⟩ := outcomes_found s first count outcomes found
        exact .join i w first go outcomes here doing each
      · cases turned
    · cases turned

theorem move_step (scene : Scene σ) (s next : Crew σ) (first : Move)
    (moved : s.move scene first = some next) : Step scene s next := by
  cases first with
  | begin errand =>
    obtain rfl := Option.some.inj moved
    exact .begin errand
  | turn i => exact turn_step scene i s next moved

theorem play_reaches (scene : Scene σ) (w : World σ) (moves : List Move) (s last : Crew σ)
    (reached : Reaches scene w s) (played : play scene moves s = some last) :
    Reaches scene w last := by
  induction moves generalizing s with
  | nil =>
    obtain rfl := Option.some.inj played
    exact reached
  | cons first rest ih =>
    obtain ⟨next, moved, later⟩ := Option.bind_eq_some_iff.mp played
    exact ih next (.step reached (move_step scene s next first moved)) later

theorem play_shows (scene : Scene σ) (w : World σ) (moves : List Move) (P : Crew σ → Prop)
    [DecidablePred P] (shown : ((play scene moves (initial w)).any fun s => decide (P s)) = true) :
    ∃ s, Reaches scene w s ∧ P s := by
  cases played : play scene moves (initial w) with
  | none => simp [played] at shown
  | some s => exact ⟨s, play_reaches scene w moves _ s .start played, by simpa [played] using shown⟩

end TagRules.Crew
