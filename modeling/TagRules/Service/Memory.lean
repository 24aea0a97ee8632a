import TagRules.Assignment.Basic
import TagRules.Condition.Read
import TagRules.Service.World

/-! Rules of failure fail calls of one kind, before or after the call does its work. -/

set_option autoImplicit false

namespace TagRules

abbrev TagSource := Dictionary String (Dictionary String Tag)

namespace TagSource

def tagsOf (company : String) (source : TagSource) : Dictionary String Tag :=
  (Dictionary.get? company source).getD []

def put (limits : Limits) (company tag : String) (payload : Value) (source : TagSource) :
    Except Fault (Tag × TagSource) :=
  (Condition.read limits payload).map fun condition =>
    let stored : Tag := ⟨tag, condition⟩
    (stored, Dictionary.put company (Dictionary.put tag stored (tagsOf company source)) source)

def autoAssigned (company : Option String) (source : TagSource) : List Tag :=
  match company with
  | none => []
  | some name => (Dictionary.values (tagsOf name source)).filter (·.condition.isSome)

end TagSource

inductive Target
  | listTags
  | listLinks
  | listTagLinks
  | applyDiff
  | applyTagDiff
  deriving DecidableEq

structure FailureRule where
  target : Target
  -- The id of the calls that fail; all calls if there is none.
  who : Option String
  fault : Fault
  -- How often the rule still applies; always if there is no number.
  left : Option Nat
  after : Bool

structure Memory where
  tags : TagSource
  table : AssignmentTable
  rules : List FailureRule

namespace FailureRule

def appliesTo (target : Target) (who : Option String) (rule : FailureRule) : Bool :=
  decide (rule.target = target) && (rule.who.isNone || decide (rule.who = who)) &&
    decide (rule.left ≠ some 0)

def used (rule : FailureRule) : FailureRule := { rule with left := rule.left.map (· - 1) }

def take (target : Target) (who : Option String) :
    List FailureRule → Option (FailureRule × List FailureRule)
  | [] => none
  | rule :: rest =>
      if rule.appliesTo target who then some (rule, rule.used :: rest)
      else (take target who rest).map fun found => (found.1, rule :: found.2)

end FailureRule

namespace Memory

variable {α : Type}

def empty : Memory := ⟨[], [], []⟩

def guarded (target : Target) (who : Option String) (call : Memory → Answered Memory α)
    (m : Memory) : Answered Memory α :=
  match FailureRule.take target who m.rules with
  | none => call m
  | some (rule, rules) =>
      if rule.after then
        let answered := call { m with rules := rules }
        match answered.1 with
        | .ok _ => (.error rule.fault, answered.2)
        | .error e => (.error e, answered.2)
      else (.error rule.fault, [], { m with rules := rules })

def storeLogger : String := "client_icons.auto_assign.store"

def appliedEvent (client : String) (diff : Diff) : Event :=
  ⟨storeLogger, .debug, "Applied assignment diff",
    [("client_id", .text client), ("added", .int diff.toAdd.length),
      ("removed", .int diff.toRemove.length)]⟩

def applyDiff (client : String) (diff : Diff) (m : Memory) : Answered Memory Unit :=
  if client.isEmpty then (.error (.clientRequired diff), [], m)
  else
    (.ok (), [appliedEvent client diff], { m with table := m.table.applyDiff client diff })

def applyTagDiff (diff : TagDiff) (m : Memory) : Answered Memory Unit :=
  (.ok (), [], { m with table := m.table.applyTagDiff diff })

def collaborators : Collaborators Memory where
  listTags company :=
    guarded .listTags company fun m => (.ok (m.tags.autoAssigned company), [], m)
  listLinks client :=
    guarded .listLinks (some client) fun m => (.ok (m.table.ofClient client), [], m)
  listTagLinks tag :=
    guarded .listTagLinks (some tag) fun m => (.ok (m.table.ofTag tag), [], m)
  applyDiff client diff := guarded .applyDiff (some client) (applyDiff client diff)
  applyTagDiff diff := guarded .applyTagDiff (some diff.tag) (applyTagDiff diff)

end Memory

end TagRules
