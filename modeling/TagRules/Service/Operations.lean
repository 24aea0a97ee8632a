import TagRules.Assignment.Reconcile
import TagRules.Service.Program
import TagRules.Settings

set_option autoImplicit false

namespace TagRules.Service

def logger : String := "client_icons.auto_assign"

def evaluatorLogger : String := "client_icons.conditions.evaluator"

def noteEvent : Note → Event
  | .unknownOperator text =>
      ⟨evaluatorLogger, .debug, "Unknown condition operator", [("operator", .text text)]⟩
  | .unknownCombinator text =>
      ⟨evaluatorLogger, .debug, "Unknown logical operator", [("logical_operator", .text text)]⟩
  | .unsupportedNode kind =>
      ⟨evaluatorLogger, .debug, "Unsupported condition node", [("node_type", .text kind)]⟩

def idValue : Option String → Value
  | none => .null
  | some s => .text s

def textList (ids : List String) : Value := .list (ids.map .text)

def idUnder (record : Value) : List String → Except Fault (Option String)
  | [] => .ok none
  | key :: rest =>
      match Path.step record key with
      | .null => idUnder record rest
      | .missing => idUnder record rest
      | v => v.toText.map some

def clientKeys : List String := ["id", "client_id", "clientId"]

def companyKeys : List String := ["companyId", "company_id"]

def companyOf (given : Option String) (record : Value) : Except Fault (Option String) :=
  match given with
  | some name => if name.isEmpty then idUnder record companyKeys else .ok given
  | none => idUnder record companyKeys

structure Job where
  client : String
  record : Value
  tags : List Tag

def identify (entity : Value) (company : Option String) :
    Except Fault (Value × String × Option String) :=
  match Record.view entity with
  | .error e => .error e
  | .ok record =>
      match idUnder record clientKeys with
      | .error e => .error e
      | .ok none => .error .noClientId
      | .ok (some id) => (companyOf company record).map fun owner => (record, id, owner)

def emit (event : Event) : Program Unit := .request (.emit event)

def emitNotes : List Note → Program Unit
  | [] => .done ()
  | note :: rest => do
      emit (noteEvent note)
      emitNotes rest

def countError (settings : Settings) (kind : String) : Program Unit :=
  if settings.metricsEnabled then .request (.countError kind settings.serviceName) else .done ()

def countRun (settings : Settings) (trigger : String) (added removed : Nat) : Program Unit :=
  if settings.metricsEnabled then .request (.countRun trigger added removed) else .done ()

def updateLinks (job : Job) : Program (Diff × Option Fault) := do
  match ← Program.request (.listLinks job.client) with
  | .error e => pure (Diff.empty, some e)
  | .ok current =>
      let found := Reconcile.client job.record job.tags current
      emitNotes found.notes
      match found.result with
      | .error e => pure (Diff.empty, some e)
      | .ok diff =>
          if diff.isEmpty then pure (diff, none)
          else
            match ← Program.request (.applyDiff job.client diff) with
            | .error e => pure (diff, some e)
            | .ok _ => pure (diff, none)

def conclude (settings : Settings) (trigger client : String) (diff : Diff) :
    Option (String × String) → Program Outcome
  | some (reported, logged) => do
      emit ⟨logger, .warning, "Failed to auto-assign icons for client",
        [("client_id", .text client), ("trigger", .text trigger), ("error", .text logged)]⟩
      countError settings "assignment_store"
      pure ⟨client, diff, false, some reported⟩
  | none => do
      if !diff.isEmpty then
        emit ⟨logger, .info, "Auto-assignments applied",
          [("client_id", .text client), ("trigger", .text trigger),
            ("added", textList diff.toAdd), ("removed", textList diff.toRemove)]⟩
      countRun settings trigger diff.toAdd.length diff.toRemove.length
      pure ⟨client, diff, true, none⟩

def noteUnloaded (settings : Settings) (client : String) (company : Option String)
    (text : String) : Program Unit := do
  emit ⟨logger, .warning, "Failed to load icons for auto-assignment",
    [("client_id", .text client), ("company_id", idValue company), ("error", .text text)]⟩
  countError settings "tag_source"

def reconcileClient (settings : Settings) (trigger : String) (job : Job) : Program Outcome := do
  Program.request (.enter job.client)
  let updated ← updateLinks job
  Program.request (.leave job.client)
  conclude settings trigger job.client updated.1 (updated.2.map fun e => (e.message, e.message))

-- A handler asks the exception that it caught for its text twice; either time the answer may be
-- another exception.
structure Texts where
  first : Fault → Except Fault String
  second : Fault → Except Fault String

namespace Texts

def spoken : Texts := ⟨fun e => .ok e.message, fun e => .ok e.message⟩

def ofFailure (texts : Texts) : Option Fault → Except Fault (Option (String × String))
  | none => .ok none
  | some e =>
      match texts.first e with
      | .error raised => .error raised
      | .ok reported => (texts.second e).map fun logged => some (reported, logged)

theorem spoken_of_failure (failure : Option Fault) :
    spoken.ofFailure failure = .ok (failure.map fun e => (e.message, e.message)) := by
  cases failure <;> rfl

theorem textless_failure (texts : Texts) (failure : Option Fault) (raised : Fault)
    (textless : texts.ofFailure failure = .error raised) :
    ∃ e, texts.first e = .error raised ∨ texts.second e = .error raised := by
  cases failure with
  | none => cases textless
  | some e =>
    refine ⟨e, ?_⟩
    rw [ofFailure] at textless
    cases said : texts.first e with
    | error other =>
      rw [said] at textless
      exact .inl (congrArg Except.error (Except.error.inj textless))
    | ok reported =>
      rw [said] at textless
      cases again : texts.second e with
      | error other =>
        rw [again] at textless
        exact .inr (congrArg Except.error (Except.error.inj textless))
      | ok logged =>
        rw [again] at textless
        cases textless

end Texts

def reconcileSaved (texts : Texts) (settings : Settings) (trigger : String) (job : Job) :
    Program (Except Fault Outcome) := do
  Program.request (.enter job.client)
  let updated ← updateLinks job
  Program.request (.leave job.client)
  match texts.ofFailure updated.2 with
  | .error raised => pure (.error raised)
  | .ok said => do
      let outcome ← conclude settings trigger job.client updated.1 said
      pure (.ok outcome)

def loadSaved (texts : Texts) (settings : Settings) (trigger : String) (record : Value)
    (client : String) (company : Option String) : Program (Except Fault Outcome) := do
  match ← Program.request (.listTags company) with
  | .error e =>
      match texts.first e with
      | .error raised => pure (.error raised)
      | .ok logged => do
          noteUnloaded settings client company logged
          pure ((texts.second e).map fun reported => ⟨client, Diff.empty, false, some reported⟩)
  | .ok tags => reconcileSaved texts settings trigger ⟨client, record, tags⟩

def savedTrigger : String := "client_saved"

def evaluateAndAssign (settings : Settings) (entity : Value) (company : Option String)
    (trigger : String) (texts : Texts := Texts.spoken) : Program (Except Fault Outcome) :=
  match identify entity company with
  | .error e => .done (.error e)
  | .ok (record, client, owner) => do
      Program.request (.openContext ⟨some client, owner⟩)
      let answer ← loadSaved texts settings trigger record client owner
      Program.request .closeContext
      pure answer

def loadAndReconcile (settings : Settings) (trigger : String) (record : Value) (client : String)
    (company : Option String) : Program Outcome := do
  match ← Program.request (.listTags company) with
  | .error e => do
      noteUnloaded settings client company e.message
      pure ⟨client, Diff.empty, false, some e.message⟩
  | .ok tags => reconcileClient settings trigger ⟨client, record, tags⟩

theorem reconcile_saved_spoken (settings : Settings) (trigger : String) (job : Job) :
    reconcileSaved Texts.spoken settings trigger job =
      reconcileClient settings trigger job >>= fun outcome => pure (.ok outcome) := by
  unfold reconcileSaved reconcileClient
  simp only [Program.then_then]
  congr 1
  funext _
  congr 1
  funext updated
  obtain ⟨diff, failure⟩ := updated
  cases failure <;> rfl

theorem load_saved_spoken (settings : Settings) (trigger : String) (record : Value) (client : String)
    (company : Option String) :
    loadSaved Texts.spoken settings trigger record client company =
      loadAndReconcile settings trigger record client company >>= fun outcome => pure (.ok outcome) := by
  unfold loadSaved loadAndReconcile
  rw [Program.then_then]
  congr 1
  funext answered
  cases answered with
  | error e =>
    dsimp only
    rw [Program.then_then]
    rfl
  | ok tags => exact reconcile_saved_spoken settings trigger ⟨client, record, tags⟩

theorem evaluate_and_assign_eq (settings : Settings) (entity : Value) (company : Option String)
    (trigger : String) :
    evaluateAndAssign settings entity company trigger =
      (match identify entity company with
      | .error e => .done (.error e)
      | .ok (record, client, owner) => do
          Program.request (.openContext ⟨some client, owner⟩)
          let outcome ← loadAndReconcile settings trigger record client owner
          Program.request .closeContext
          pure (.ok outcome)) := by
  unfold evaluateAndAssign
  split
  · rfl
  · simp only [load_saved_spoken, Program.then_then]
    rfl

def collectRecords (field : String × Value) :
    List Value → Program (Except Fault (List (String × Value)))
  | [] => .done (.ok [])
  | entity :: rest =>
      match Record.view entity with
      | .error e => .done (.error e)
      | .ok record =>
          match idUnder record clientKeys with
          | .error e => .done (.error e)
          | .ok none => do
              emit ⟨logger, .warning, "Skipping client record without id", [field]⟩
              collectRecords field rest
          | .ok (some client) => do
              let others ← collectRecords field rest
              pure (others.map ((client, record) :: ·))

def enterAll : List String → Program Unit
  | [] => .done ()
  | client :: rest => do
      Program.request (.enter client)
      enterAll rest

def leaveAll : List String → Program Unit
  | [] => .done ()
  | client :: rest => do
      Program.request (.leave client)
      leaveAll rest

def lockOrder (diff : TagDiff) : List String :=
  diff.clients.eraseDups.mergeSort fun a b => !decide (b < a)

def applyUnderLocks (diff : TagDiff) : Program (Except Fault Unit) :=
  if diff.isEmpty then .done (.ok ())
  else do
    enterAll (lockOrder diff)
    let written ← Program.request (.applyTagDiff diff)
    leaveAll (lockOrder diff).reverse
    pure written

def reevaluateTag (settings : Settings) (tag : Tag) (entities : List Value) :
    Program (Except Fault TagDiff) := do
  match ← collectRecords ("tag_id", .text tag.id) entities with
  | .error e => pure (.error e)
  | .ok pairs =>
      let records := Dictionary.ofList pairs
      match ← Program.request (.listTagLinks tag.id) with
      | .error e => pure (.error e)
      | .ok current =>
          let found := Reconcile.tag tag records current
          emitNotes found.notes
          match found.result with
          | .error e => pure (.error e)
          | .ok diff =>
              match ← applyUnderLocks diff with
              | .error e => pure (.error e)
              | .ok _ =>
                  emit ⟨logger, .info, "Icon re-evaluated for clients",
                    [("tag_id", .text tag.id), ("clients", .int records.length),
                      ("added", .int diff.toAdd.length), ("removed", .int diff.toRemove.length)]⟩
                  countRun settings "tag_changed" diff.toAdd.length diff.toRemove.length
                  pure (.ok diff)

def recomputeCompany (settings : Settings) (company : Option String) (entities : List Value) :
    Routine (Except Fault Report) := do
  match ← Routine.request (.listTags company) with
  | .error e => pure (.error e)
  | .ok tags =>
      match ← Routine.ofProgram (collectRecords ("company_id", idValue company) entities) with
      | .error e => pure (.error e)
      | .ok pairs =>
          let jobs := pairs.map fun pair =>
            reconcileClient settings "recompute" ⟨pair.1, pair.2, tags⟩
          let outcomes ← Routine.each settings.recomputeConcurrency.toNat jobs Routine.done
          let report : Report := ⟨company, outcomes⟩
          Routine.request (.emit ⟨logger, .info, "Company recompute finished",
            [("company_id", idValue company), ("clients", .int outcomes.length),
              ("added", .int report.added), ("removed", .int report.removed),
              ("failed", textList report.failed)]⟩)
          pure (.ok report)

end TagRules.Service
