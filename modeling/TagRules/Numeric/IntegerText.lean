import TagRules.Text.Basic

/-!
A plain integer is a minus sign or none and digits without a zero in front; any other text is cleaned
first.
-/

set_option autoImplicit false

namespace TagRules.IntegerText

inductive Problem
  | unreadable
  | tooLong
  deriving DecidableEq

def maxLength : Nat := 4300

def splitMinus : List Char → Bool × List Char
  | '-' :: rest => (true, rest)
  | cs => (false, cs)

def plain? (cs : List Char) : Option Int :=
  let signed := splitMinus cs
  match Text.spanDigits signed.2 with
  | ([], _) => none
  | (_, _ :: _) => none
  | (d :: more, []) =>
      if d = 0 ∧ more ≠ [] then none
      else
        let n : Int := Text.natOfDigits (d :: more)
        some (if signed.1 then -n else n)

def isTooLong (cs : List Char) : Bool :=
  let signed := splitMinus cs
  let digits := (Text.spanDigits signed.2).1
  digits.head? != some 0 && maxLength < digits.length + (if signed.1 then 1 else 0)

def isLeading (c : Char) : Bool := '1' ≤ c && c ≤ '9'

-- What follows zeros and underscores; `last` is the last of them. The last one stays where no digit
-- follows it, and a minus sign ends them like a digit.
def afterZeros (last : Char) : List Char → Option (List Char)
  | [] => some [last]
  | c :: rest =>
      if c = '0' ∨ c = '_' then afterZeros c rest
      else if c = '.' then some (last :: c :: rest)
      else if isLeading c ∨ c = '-' then some (c :: rest)
      else none

def dropZeros : List Char → Option (List Char)
  | [] => none
  | c :: rest =>
      if c = '0' then afterZeros c rest else if isLeading c then some (c :: rest) else none

def dropFraction (cs : List Char) : List Char :=
  match cs.dropWhile (· != '.') with
  | '.' :: c :: rest =>
      if (c :: rest).all (· == '0') then cs.takeWhile (· != '.') else cs
  | _ => cs

def hasDouble : List Char → Bool
  | '_' :: '_' :: _ => true
  | _ :: rest => hasDouble rest
  | [] => false

def dropUnderscores (cs : List Char) : List Char :=
  if cs.head? = some '_' ∨ cs.getLast? = some '_' ∨ hasDouble cs = true then cs
  else cs.filter (· != '_')

def splitSign? : List Char → Option (Bool × List Char)
  | '+' :: '-' :: _ => none
  | '+' :: rest => some (false, rest)
  | '-' :: rest => some (true, rest)
  | cs => some (false, cs)

def clean? (cs : List Char) : Option (List Char) :=
  match splitSign? (Text.stripWhere Text.isSpace cs) with
  | none => none
  | some (negative, unsigned) =>
      (dropZeros unsigned).map fun digits =>
        let plain := dropUnderscores (dropFraction digits)
        if negative then '-' :: plain else plain

def read (s : String) : Except Problem Int :=
  let cs := s.toList
  if isTooLong cs then .error .tooLong
  else
    match plain? cs with
    | some n => .ok n
    | none =>
        match clean? cs with
        | none => .error .unreadable
        | some cleaned =>
            if isTooLong cleaned then .error .unreadable
            else
              match plain? cleaned with
              | some n => .ok n
              | none => .error .unreadable

end TagRules.IntegerText
