import TagRules.Numeric.Binary64
import TagRules.Text.Basic

set_option autoImplicit false

namespace TagRules

inductive Number
  | finite (x : Scientific)
  | infinite (negative : Bool)
  | nan
  | signalling
  deriving DecidableEq, Inhabited

namespace Number

def ofInt (n : Int) : Number := .finite (.ofInt n)

def ofBinary64 : Binary64 → Number
  | .nan _ => .nan
  | .infinite negative => .infinite negative
  | .finite negative rank => .finite (Binary64.exact negative rank)

def nearest? : Number → Option Binary64
  | .finite x =>
      match Binary64.nearest x with
      | .finite negative rank => some (.finite negative rank)
      | _ => none
  | _ => none

def splitSign : List Char → Bool × List Char
  | '-' :: rest => (true, rest)
  | '+' :: rest => (false, rest)
  | rest => (false, rest)

def exponent? : List Char → Option Int
  | [] => some 0
  | c :: rest =>
      if c = 'e' ∨ c = 'E' then
        let signed := splitSign rest
        match Text.spanDigits signed.2 with
        | ([], _) => none
        | (digits, []) =>
            let n : Int := Text.natOfDigits digits
            some (if signed.1 then -n else n)
        | (_, _ :: _) => none
      else none

def unsigned? (cs : List Char) : Option (Nat × Int) :=
  let whole := Text.spanDigits cs
  let fraction := match whole.2 with
    | '.' :: rest => Text.spanDigits rest
    | rest => ([], rest)
  if whole.1.isEmpty && fraction.1.isEmpty then none
  else
    (exponent? fraction.2).map fun e =>
      (Text.natOfDigits (whole.1 ++ fraction.1), e - fraction.1.length)

def dropUnderscores : Option Char → List Char → Option (List Char)
  | _, [] => some []
  | before, '_' :: rest =>
      match before, rest with
      | some b, c :: _ =>
          if b.isDigit && c.isDigit then dropUnderscores (some '_') rest else none
      | _, _ => none
  | _, c :: rest => (dropUnderscores (some c) rest).map (c :: ·)

def toAscii (c : Char) : Char :=
  match Text.digitValue? c with
  | some d => Char.ofNat (48 + d)
  | none => c

def named? (negative : Bool) (cs : List Char) : Option Number :=
  let word := String.ofList (cs.map Char.toLower)
  if word = "inf" ∨ word = "infinity" then some (.infinite negative)
  else if word = "nan" then some .nan
  else none

def ofChars? (cs : List Char) : Option Number :=
  match dropUnderscores none (cs.map toAscii) with
  | none => none
  | some plain =>
      let signed := splitSign plain
      match unsigned? signed.2 with
      | some (coefficient, exponent) => some (.finite ⟨signed.1, coefficient, exponent⟩)
      | none => named? signed.1 signed.2

def ofText? (s : String) : Option Number :=
  ofChars? (Text.stripWhere Text.isBlank s.toList)

end Number

end TagRules
