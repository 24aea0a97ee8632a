import TagRules.Numeric.Binary64

/-!
The shortest digits that read back. Magnitudes are counted in units of 2⁻¹⁰⁷⁵, so that midpoints
between neighbours are whole.
-/

set_option autoImplicit false

namespace TagRules.Binary64

def units (rank : Nat) : Nat := significand rank * Nat.pow 2 (scale rank + 1075).toNat

def compareUnits (n : Nat) (p : Int) (u : Nat) : Ordering :=
  if 0 ≤ p then compare (n * Nat.pow 10 p.toNat * Nat.pow 2 1075) u
  else compare (n * Nat.pow 2 1075) (u * Nat.pow 10 (-p).toNat)

def readsBack (rank : Nat) (n : Nat) (p : Int) : Bool :=
  let below := (units (rank - 1) + units rank) / 2
  let above := (units rank + units (rank + 1)) / 2
  let low := compareUnits n p below
  let high := compareUnits n p above
  if rank % 2 = 0 then low != .lt && high != .gt else low == .gt && high == .lt

def floorAt (rank : Nat) (p : Int) : Nat :=
  if 0 ≤ p then units rank / (Nat.pow 10 p.toNat * Nat.pow 2 1075)
  else units rank * Nat.pow 10 (-p).toNat / Nat.pow 2 1075

def chooseAt (rank : Nat) (p : Int) : Option Nat :=
  let n := floorAt rank p
  match readsBack rank n p, readsBack rank (n + 1) p with
  | false, false => none
  | true, false => some n
  | false, true => some (n + 1)
  | true, true =>
      match compareUnits (2 * n + 1) p (2 * units rank) with
      | .gt => some n
      | .lt => some (n + 1)
      | .eq => some (n + n % 2)

def searchGrids : Nat → Nat → Int → Nat × Int
  | 0, rank, p => (floorAt rank p, p)
  | tries + 1, rank, p =>
      match chooseAt rank p with
      | some n => (n, p)
      | none => searchGrids tries rank (p - 1)

def topExponent (rank : Nat) : Int := (((units rank).log2 : Int) - 1075) * 30103 / 100000 + 1

-- Digits and exponent of the shortest decimal of a magnitude that is not zero. Seventeen digits
-- always suffice, and the first grid may be one place too coarse.
def shortest (rank : Nat) : Nat × Int := searchGrids 19 rank (topExponent rank)

def padLeft (width : Nat) (s : String) : String :=
  "".pushn '0' (width - s.length) ++ s

def layout (digits : List Char) (place : Int) : String :=
  if -4 < place ∧ place ≤ 16 then
    if place ≤ 0 then "0." ++ "".pushn '0' (-place).toNat ++ String.ofList digits
    else
      let whole := digits.take place.toNat
      let zeros := "".pushn '0' (place.toNat - whole.length)
      let rest := digits.drop place.toNat
      String.ofList whole ++ zeros ++ "." ++ (if rest.isEmpty then "0" else String.ofList rest)
  else
    let power := place - 1
    let mark := if power < 0 then "e-" else "e+"
    let tail := String.ofList (digits.drop 1)
    String.ofList (digits.take 1) ++ (if tail.isEmpty then "" else "." ++ tail) ++ mark ++
      padLeft 2 (toString power.natAbs)

def magnitudeText (rank : Nat) : String :=
  if rank = 0 then "0.0"
  else
    let found := shortest rank
    let reduced := Scientific.normal ⟨false, found.1, found.2⟩
    let digits := (toString reduced.coefficient).toList
    layout digits (reduced.exponent + digits.length)

def toText : Binary64 → String
  | .nan _ => "nan"
  | .infinite negative => if negative then "-inf" else "inf"
  | .finite negative rank => (if negative then "-" else "") ++ magnitudeText rank

def toInt? : Binary64 → Option Int
  | .finite negative rank =>
      let m := significand rank
      let e := scale rank
      let whole := if 0 ≤ e then some (m * Nat.pow 2 e.toNat)
        else if m % Nat.pow 2 (-e).toNat = 0 then some (m / Nat.pow 2 (-e).toNat) else none
      whole.map fun n => if negative then -(n : Int) else n
  | _ => none

end TagRules.Binary64

namespace TagRules.Places

def roundedAt (places : Int) (x : Scientific) : Nat :=
  let shift := x.exponent + places
  if 0 ≤ shift then x.coefficient * Nat.pow 10 shift.toNat
  else Binary64.roundHalfEven x.coefficient (Nat.pow 10 (-shift).toNat)

def digitCount (n : Nat) : Nat := (toString n).length

def leading (count : Nat) (x : Scientific) : Nat × Int :=
  if x.coefficient = 0 then (0, 0)
  else
    let power : Int := x.exponent + digitCount x.coefficient - 1
    let digits := roundedAt (count - 1 - power) x
    if digitCount digits ≤ count then (digits, power) else (digits / 10, power + 1)

def fraction (keepPoint : Bool) (digits : List Char) : List Char :=
  if digits.isEmpty && !keepPoint then [] else '.' :: digits

def fixed (keepPoint : Bool) (places : Nat) (x : Scientific) : List Char :=
  let digits := (Binary64.padLeft (places + 1) (toString (roundedAt places x))).toList
  let whole := digits.take (digits.length - places)
  whole ++ fraction keepPoint (digits.drop (digits.length - places))

def powerText (power : Int) : List Char :=
  (if power < 0 then ['e', '-'] else ['e', '+']) ++
    (Binary64.padLeft 2 (toString power.natAbs)).toList

def scaled (keepPoint : Bool) (places : Nat) (x : Scientific) : List Char :=
  let found := leading (places + 1) x
  let digits := (Binary64.padLeft (places + 1) (toString found.1)).toList
  digits.take 1 ++ fraction keepPoint (digits.drop 1) ++ powerText found.2

def dropZeros (digits : List Char) : List Char :=
  if digits.contains '.' then
    match (digits.reverse.dropWhile (· == '0')) with
    | '.' :: rest => rest.reverse
    | rest => rest.reverse
  else digits

def general (keepZeros : Bool) (count : Nat) (x : Scientific) : List Char :=
  let count := max count 1
  let found := leading count x
  let trim (digits : List Char) : List Char := if keepZeros then digits else dropZeros digits
  if -4 ≤ found.2 ∧ found.2 < count then
    trim (fixed keepZeros (count - 1 - found.2).toNat x)
  else
    let written := scaled keepZeros (count - 1) x
    trim (written.takeWhile (· != 'e')) ++ written.dropWhile (· != 'e')

end TagRules.Places
