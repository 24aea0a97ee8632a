import TagRules.Condition.Basic
import TagRules.Dictionary
import TagRules.Fault
import TagRules.Value.Text

set_option autoImplicit false

namespace TagRules

structure Tag where
  id : String
  condition : Option Condition
  deriving Inhabited

structure Assignment where
  tag : String
  auto : Bool
  client : Option String
  deriving DecidableEq, Inhabited

structure Diff where
  toAdd : List String
  toRemove : List String
  deriving DecidableEq, Inhabited

structure TagDiff where
  tag : String
  toAdd : List String
  toRemove : List String
  deriving DecidableEq, Inhabited

namespace Diff

def empty : Diff := ⟨[], []⟩

def isEmpty (d : Diff) : Bool := d.toAdd.isEmpty && d.toRemove.isEmpty

end Diff

namespace TagDiff

def isEmpty (d : TagDiff) : Bool := d.toAdd.isEmpty && d.toRemove.isEmpty

def clients (d : TagDiff) : List String := d.toAdd ++ d.toRemove

end TagDiff

structure Outcome where
  client : String
  diff : Diff
  applied : Bool
  error : Option String
  deriving DecidableEq, Inhabited

structure Report where
  company : Option String
  outcomes : List Outcome
  deriving DecidableEq, Inhabited

namespace Report

def added (r : Report) : Nat :=
  ((r.outcomes.filter (·.applied)).map (·.diff.toAdd.length)).foldr (· + ·) 0

def removed (r : Report) : Nat :=
  ((r.outcomes.filter (·.applied)).map (·.diff.toRemove.length)).foldr (· + ·) 0

def failed (r : Report) : List String :=
  (r.outcomes.filter (·.error.isSome)).map (·.client)

end Report

-- At most one assignment for a client and a tag, in the order in which the pairs were first linked.
abbrev AssignmentTable := Dictionary (String × String) Assignment

namespace AssignmentTable

def assignManually (client tag : String) (table : AssignmentTable) : AssignmentTable :=
  Dictionary.put (client, tag) ⟨tag, false, some client⟩ table

def addAuto (client tag : String) (table : AssignmentTable) : AssignmentTable :=
  match Dictionary.get? (client, tag) table with
  | some _ => table
  | none => Dictionary.put (client, tag) ⟨tag, true, some client⟩ table

def removeAuto (client tag : String) (table : AssignmentTable) : AssignmentTable :=
  match Dictionary.get? (client, tag) table with
  | none => table
  | some a => if a.auto then Dictionary.erase (client, tag) table else table

def applyDiff (client : String) (diff : Diff) (table : AssignmentTable) : AssignmentTable :=
  let added := diff.toAdd.foldl (fun t tag => addAuto client tag t) table
  diff.toRemove.foldl (fun t tag => removeAuto client tag t) added

def applyTagDiff (diff : TagDiff) (table : AssignmentTable) : AssignmentTable :=
  let added := diff.toAdd.foldl (fun t client => addAuto client diff.tag t) table
  diff.toRemove.foldl (fun t client => removeAuto client diff.tag t) added

def ofClient (client : String) (table : AssignmentTable) : List Assignment :=
  Dictionary.values (table.filter fun entry => decide (entry.1.1 = client))

def ofTag (tag : String) (table : AssignmentTable) : List Assignment :=
  Dictionary.values (table.filter fun entry => decide (entry.1.2 = tag))

end AssignmentTable

def Diff.text (diff : Diff) : String :=
  let tuple (ids : List String) : String := Value.tupleText (ids.map Text.quoted)
  "AssignmentDiff(to_add=" ++ tuple diff.toAdd ++ ", to_remove=" ++ tuple diff.toRemove ++ ")"

def Fault.clientRequired (diff : Diff) : Fault :=
  .store "Client id is required" (.mapping [(.text "diff", .text diff.text)])

end TagRules
