import TagRules.Fault
import TagRules.Text.Case

/-!
`same` is equality of data, for which a truth value counts as zero or one; `strictEquals` keeps truth
values and texts apart from everything else.
-/

set_option autoImplicit false

namespace TagRules

def Number.same : Number → Number → Except Fault Bool
  | .signalling, _ => .error .signallingOperand
  | _, .signalling => .error .signallingOperand
  | .finite x, .finite y => .ok (x.same y)
  | .infinite a, .infinite b => .ok (a == b)
  | _, _ => .ok false

namespace Value

def numeric? : Value → Option Number
  | .bool b => some (.ofInt (if b then 1 else 0))
  | .int n => some (.ofInt n)
  | .float x => some (.ofBinary64 x)
  | .decimal x => some x.toNumber
  | _ => none

-- A constant or an entity equals only itself, and two of them are never one.
def sameLeaf (x y : Value) : Except Fault Bool :=
  match x.numeric?, y.numeric? with
  | some a, some b => a.same b
  | _, _ =>
      match x.text?, y.text? with
      | some a, some b => .ok (a == b)
      | _, _ =>
          match x, y with
          | .null, .null => .ok true
          | .missing, .missing => .ok true
          | .bytes a, .bytes b => .ok (a == b)
          | _, _ => .ok false

def holds (verdict : Except Fault Bool) : Bool :=
  match verdict with
  | .ok b => b
  | .error _ => false

def andThen (verdict : Except Fault Bool) (next : Except Fault Bool) : Except Fault Bool :=
  match verdict with
  | .ok true => next
  | other => other

-- Of all data only a NaN can be the very object and yet not equal to it.
def identical : Value → Value → Bool
  | .float x, .float y => x.isSameNan y
  | _, _ => false

def orIdentical (x y : Value) (verdict : Except Fault Bool) : Except Fault Bool :=
  if identical x y then .ok true else verdict

mutual

def same (x y : Value) : Except Fault Bool :=
  match x, y with
  | .list xs, .list ys => if xs.length = ys.length then sameItems xs ys else .ok false
  | .tuple xs, .tuple ys => andThen (sameItems xs ys) (.ok (xs.length == ys.length))
  | .mapping xs, y =>
      match y.entries? with
      | some ys => if xs.length = ys.length then sameEntries xs ys else .ok false
      | none => .ok false
  | .view xs, y =>
      match y.entries? with
      | some ys => if xs.length = ys.length then sameEntries xs ys else .ok false
      | none => .ok false
  | .set xs, .set ys => if xs.length = ys.length then .ok (allIn xs ys) else .ok false
  | x, y => sameLeaf x y
  termination_by structural x

def sameItems (xs ys : List Value) : Except Fault Bool :=
  match xs, ys with
  | x :: xs, y :: ys => andThen (orIdentical x y (same x y)) (sameItems xs ys)
  | _, _ => .ok true
  termination_by structural xs

def sameEntries (xs ys : List (Value × Value)) : Except Fault Bool :=
  match xs with
  | [] => .ok true
  | (key, value) :: rest =>
      match ys.find? fun entry => holds (orIdentical key entry.1 (same key entry.1)) with
      | none => .ok false
      | some entry => andThen (orIdentical value entry.2 (same value entry.2)) (sameEntries rest ys)
  termination_by structural xs

def allIn (xs ys : List Value) : Bool :=
  match xs with
  | [] => true
  | x :: rest => (ys.any fun y => holds (orIdentical x y (same x y))) && allIn rest ys
  termination_by structural xs

end

def isBool : Value → Bool
  | .bool _ => true
  | _ => false

def strictEquals (x y : Value) : Except Fault Bool :=
  if x.isBool || y.isBool then
    match x, y with
    | .bool a, .bool b => .ok (a == b)
    | _, _ => .ok false
  else if x.text?.isSome || y.text?.isSome then
    match x.text?, y.text? with
    | some a, some b => .ok (a == b)
    | _, _ => .ok false
  else same x y

def looseEquals (x y : Value) : Except Fault Bool :=
  match x.text?, y.text? with
  | some a, some b => .ok (Text.lower a == Text.lower b)
  | _, _ => strictEquals x y

def putEntry (key value : Value) : List (Value × Value) → List (Value × Value)
  | [] => [(key, value)]
  | (oldKey, oldValue) :: rest =>
      if holds (orIdentical key oldKey (same key oldKey)) then (oldKey, value) :: rest
      else (oldKey, oldValue) :: putEntry key value rest

def ofPairs (pairs : List (Value × Value)) : Value :=
  .mapping (pairs.foldl (fun entries pair => putEntry pair.1 pair.2 entries) [])

def setOf (items : List Value) : Value :=
  .set (items.foldl (fun done item =>
    if done.any fun other => holds (orIdentical item other (same item other)) then done else done ++ [item]) [])

end Value

end TagRules
