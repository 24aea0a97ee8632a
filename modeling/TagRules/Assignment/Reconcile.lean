import TagRules.Assignment.Basic
import TagRules.Condition.Evaluate
import TagRules.Dictionary

set_option autoImplicit false

namespace TagRules.Reconcile

def matching (record : Value) : List Tag → Traced (List String)
  | [] => .pure []
  | tag :: rest =>
      match tag.condition with
      | none => matching record rest
      | some c =>
          (c.evaluate record).bind fun holds =>
            (matching record rest).map fun ids =>
              if holds then tag.id :: ids.filter (fun id => decide (id ≠ tag.id)) else ids

def autoTags (current : List Assignment) : List String :=
  ((current.filter (·.auto)).map (·.tag)).eraseDups

def manualTags (current : List Assignment) : List String :=
  (current.filter fun a => !a.auto).map (·.tag)

def diffOf (desired : List String) (current : List Assignment) : Diff :=
  let auto := autoTags current
  let manual := manualTags current
  ⟨desired.filter fun id => decide (id ∉ auto) && decide (id ∉ manual),
    auto.filter fun id => decide (id ∉ desired)⟩

def client (record : Value) (tags : List Tag) (current : List Assignment) : Traced Diff :=
  (matching record tags).map fun desired => diffOf desired current

def clientsWhere (tag : String) (p : Assignment → Bool) (assignments : List Assignment) :
    List String :=
  (assignments.filter fun a => decide (a.tag = tag) && p a).filterMap (·.client)

def sortClients (condition : Condition) (auto manual : List String) :
    List (String × Value) → Traced (List String × List String)
  | [] => .pure ([], [])
  | (client, record) :: rest =>
      (condition.evaluate record).bind fun holds =>
        (sortClients condition auto manual rest).map fun found =>
          if holds then
            if client ∉ auto ∧ client ∉ manual then (client :: found.1, found.2) else found
          else if client ∈ auto then (found.1, client :: found.2)
          else found

def tag (tag : Tag) (clients : Dictionary String Value) (assignments : List Assignment) :
    Traced TagDiff :=
  let auto := (clientsWhere tag.id (·.auto) assignments).eraseDups
  let manual := clientsWhere tag.id (fun a => !a.auto) assignments
  match tag.condition with
  | none => .pure ⟨tag.id, [], auto⟩
  | some c => (sortClients c auto manual clients).map fun found => ⟨tag.id, found.1, found.2⟩

end TagRules.Reconcile
