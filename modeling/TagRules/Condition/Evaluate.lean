import TagRules.Fault
import TagRules.Record
import TagRules.Text.Case
import TagRules.Value.Equality
import TagRules.Value.Number

set_option autoImplicit false

namespace TagRules

inductive Note
  | unknownOperator (text : String)
  | unknownCombinator (text : String)
  | unsupportedNode (kind : String)
  deriving DecidableEq

structure Traced (α : Type) where
  result : Except Fault α
  notes : List Note

namespace Traced

variable {α β : Type}

def pure (a : α) : Traced α := ⟨.ok a, []⟩

def ofExcept (result : Except Fault α) : Traced α := ⟨result, []⟩

def bind (first : Traced α) (next : α → Traced β) : Traced β :=
  match first.result with
  | .ok a =>
      let last := next a
      ⟨last.result, first.notes ++ last.notes⟩
  | .error e => ⟨.error e, first.notes⟩

def map (f : α → β) (walk : Traced α) : Traced β := ⟨walk.result.map f, walk.notes⟩

@[simp] theorem result_bind (walk : Traced α) (next : α → Traced β) :
    (walk.bind next).result = walk.result.bind fun a => (next a).result := by
  obtain ⟨result, notes⟩ := walk
  cases result <;> rfl

@[simp] theorem result_map (f : α → β) (walk : Traced α) :
    (walk.map f).result = walk.result.map f := rfl

@[simp] theorem pure_bind (a : α) (next : α → Traced β) : (pure a).bind next = next a := by
  simp [pure, bind]

theorem bind_assoc {γ : Type} (walk : Traced α) (f : α → Traced β) (g : β → Traced γ) :
    (walk.bind f).bind g = walk.bind fun a => (f a).bind g := by
  obtain ⟨result, notes⟩ := walk
  cases result with
  | error e => rfl
  | ok a =>
    simp only [bind]
    cases (f a).result <;> simp

end Traced

abbrev Verdict := Traced Bool

namespace Verdict

def noted (note : String → Note) (text : Except Fault String) : Verdict :=
  match text with
  | .ok s => ⟨.ok false, [note s]⟩
  | .error e => ⟨.error e, []⟩

def continueOn (onto : Bool) (first : Verdict) (next : Unit → Verdict) : Verdict :=
  first.bind fun b => if b = onto then next () else Traced.pure b

end Verdict

namespace Operator

def anyEquals (equal : Value → Except Fault Bool) : List Value → Except Fault Bool
  | [] => .ok false
  | item :: rest =>
      match equal item with
      | .ok false => anyEquals equal rest
      | other => other

def containsValue (field value : Value) : Except Fault Bool :=
  match field.items? with
  | some items => anyEquals (fun item => item.strictEquals value) items
  | none =>
      match field.text? with
      | none => .ok false
      | some s =>
          if value.isAbsent || value.items?.isSome then .ok false
          else
            value.ruleText.map fun part =>
              Text.occursIn (Text.lower part).toList (Text.lower s).toList

def isMember (field value : Value) : Except Fault Bool :=
  match value.items? with
  | none => .ok false
  | some items =>
      let sought : Value := match field with
        | .missing => .null
        | given => given
      anyEquals (fun item => sought.strictEquals item) items

def compares (holds : Binary64 → Binary64 → Bool) (x y : Value) : Bool :=
  match x.toNumber, y.toNumber with
  | some a, some b => holds a b
  | _, _ => false

def liesBetween (field low high : Value) : Bool :=
  match field.toNumber, low.toNumber, high.toNumber with
  | some x, some a, some b => a.atMost x && x.atMost b
  | _, _, _ => false

def apply (operator : Operator) (field value second : Value) : Except Fault Bool :=
  match operator with
  | .equals => if field.isAbsent then .ok value.isAbsent else field.looseEquals value
  | .notEquals =>
      match field with
      | .missing => .ok false
      | given => (given.looseEquals value).map (!·)
  | .contains => containsValue field value
  | .notContains =>
      if field.items?.isSome || field.text?.isSome then (containsValue field value).map (!·)
      else .ok false
  | .greaterThan => .ok (compares (fun x y => y.below x) field value)
  | .lessThan => .ok (compares Binary64.below field value)
  | .greaterThanOrEqual => .ok (compares (fun x y => y.atMost x) field value)
  | .lessThanOrEqual => .ok (compares Binary64.atMost field value)
  | .isEmpty => .ok field.isEmpty
  | .isNotEmpty => .ok !field.isEmpty
  | .isIn => isMember field value
  | .notIn => (isMember field value).map (!·)
  | .between => .ok (liesBetween field value second)

end Operator

namespace Condition

def evaluateSingle (record : Value) (field : String) (operator : Word Operator)
    (value second : Value) : Verdict :=
  match operator with
  | .known o => .ofExcept (o.apply (Path.resolve record field) value second)
  | .unknown v => Verdict.noted .unknownOperator (v.toText)

mutual

def evaluate (record : Value) : Condition → Verdict
  | .single field operator value second => evaluateSingle record field operator value second
  | .group (.known .all) conditions => evaluateAll record conditions
  | .group (.known .any) conditions => evaluateAny record conditions
  | .group (.unknown v) _ => Verdict.noted .unknownCombinator (v.toText)
  | .foreign .null => .pure false
  | .foreign v => Verdict.noted .unsupportedNode (.ok v.kindName)

def evaluateAll (record : Value) : List Condition → Verdict
  | [] => .pure true
  | c :: rest => Verdict.continueOn true (evaluate record c) fun _ => evaluateAll record rest

def evaluateAny (record : Value) : List Condition → Verdict
  | [] => .pure false
  | c :: rest => Verdict.continueOn false (evaluate record c) fun _ => evaluateAny record rest

end

def evaluate? (record : Value) (condition : Option Condition) : Verdict :=
  match condition with
  | none => .pure false
  | some c => c.evaluate record

end Condition

end TagRules
