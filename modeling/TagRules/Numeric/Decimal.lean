import TagRules.Numeric.Number

/-! Decimals with their written digits: `1.10` and `1.1` are one value with two texts. -/

set_option autoImplicit false

namespace TagRules

inductive Decimal
  | finite (x : Scientific)
  | infinite (negative : Bool)
  | nan (negative : Bool) (payload : Nat)
  | signalling (negative : Bool) (payload : Nat)
  deriving DecidableEq, Inhabited

namespace Decimal

def toNumber : Decimal → Number
  | .finite x => .finite x
  | .infinite negative => .infinite negative
  | .nan _ _ => .nan
  | .signalling _ _ => .signalling

def digitsText (x : Scientific) : String :=
  let digits := (toString x.coefficient).toList
  let left : Int := x.exponent + digits.length
  let place : Int := if x.exponent ≤ 0 ∧ -6 < left then left else 1
  let body :=
    if place ≤ 0 then "0." ++ "".pushn '0' (-place).toNat ++ String.ofList digits
    else
      let whole := String.ofList (digits.take place.toNat)
      let zeros := "".pushn '0' (place.toNat - digits.length)
      let rest := digits.drop place.toNat
      whole ++ zeros ++ (if rest.isEmpty then "" else "." ++ String.ofList rest)
  let power := left - place
  let tail :=
    if power = 0 then ""
    else (if power < 0 then "E-" else "E+") ++ toString power.natAbs
  body ++ tail

def signText (negative : Bool) : String := if negative then "-" else ""

def payloadText (payload : Nat) : String := if payload = 0 then "" else toString payload

def toText : Decimal → String
  | .finite x => signText x.negative ++ digitsText x
  | .infinite negative => signText negative ++ "Infinity"
  | .nan negative payload => signText negative ++ "NaN" ++ payloadText payload
  | .signalling negative payload => signText negative ++ "sNaN" ++ payloadText payload

def payload? (cs : List Char) : Option Nat :=
  match Text.spanDigits cs with
  | (digits, []) => some (Text.natOfDigits digits)
  | _ => none

def special? (negative : Bool) (cs : List Char) : Option Decimal :=
  match cs.map Char.toLower with
  | 's' :: 'n' :: 'a' :: 'n' :: rest => (payload? rest).map (.signalling negative)
  | 'n' :: 'a' :: 'n' :: rest => (payload? rest).map (.nan negative)
  | word =>
      if String.ofList word = "inf" ∨ String.ofList word = "infinity" then
        some (.infinite negative)
      else none

def ofText? (s : String) : Option Decimal :=
  let cs := ((Text.stripWhere Text.isBlank s.toList).filter (· != '_')).map Number.toAscii
  let signed := Number.splitSign cs
  match Number.unsigned? signed.2 with
  | some (coefficient, exponent) => some (.finite ⟨signed.1, coefficient, exponent⟩)
  | none => special? signed.1 signed.2

end Decimal

end TagRules
