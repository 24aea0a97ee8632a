import TagRules.Numeric.Number
import TagRules.Text.Basic
import TagRules.Value.Basic

/-!
A place in a text is the length of what is left there, and a refusal names the first place that no
JSON text continues.
-/

set_option autoImplicit false

namespace TagRules.Json

inductive Problem
  | expectingValue
  | extraData
  | expectingName
  | expectingColon
  | expectingComma
  | unterminatedString
  | controlCharacter
  | badEscape
  | badUnicodeEscape
  | byteOrderMark
  deriving DecidableEq

def Problem.text : Problem → String
  | .expectingValue => "Expecting value"
  | .extraData => "Extra data"
  | .expectingName => "Expecting property name enclosed in double quotes"
  | .expectingColon => "Expecting ':' delimiter"
  | .expectingComma => "Expecting ',' delimiter"
  | .unterminatedString => "Unterminated string starting at"
  | .controlCharacter => "Invalid control character at"
  | .badEscape => "Invalid \\escape"
  | .badUnicodeEscape => "Invalid \\uXXXX escape"
  | .byteOrderMark => "Unexpected UTF-8 BOM (decode using utf-8-sig)"

inductive Failure
  | refused (problem : Problem) (left : Nat)
  | tooManyDigits (digits : Nat)
  | tooDeep (isObject : Bool)
  deriving DecidableEq

abbrev Step (α : Type) := Except Failure (α × List Char)

def refuse {α : Type} (problem : Problem) (left : List Char) : Step α :=
  .error (.refused problem left.length)

def maxDigits : Nat := 4300

-- Arrays and objects that a caller's stack leaves room for, one within the other.
def usualStack : Nat := 990

def isSpace (c : Char) : Bool := c == ' ' || c == '\t' || c == '\n' || c == '\r'

def skipSpace (cs : List Char) : List Char := cs.dropWhile isSpace

def hexValue? (c : Char) : Option Nat :=
  if '0' ≤ c ∧ c ≤ '9' then some (c.toNat - 48)
  else if 'a' ≤ c ∧ c ≤ 'f' then some (c.toNat - 87)
  else if 'A' ≤ c ∧ c ≤ 'F' then some (c.toNat - 55)
  else none

def hexValue4? (a b c d : Char) : Option Nat :=
  match hexValue? a, hexValue? b, hexValue? c, hexValue? d with
  | some a, some b, some c, some d => some (((a * 16 + b) * 16 + c) * 16 + d)
  | _, _, _, _ => none

def escape? (c : Char) : Option Char :=
  if c = '\x22' ∨ c = '\\' ∨ c = '/' then some c
  else if c = 'b' then some '\x08'
  else if c = 'f' then some '\x0c'
  else if c = 'n' then some '\n'
  else if c = 'r' then some '\r'
  else if c = 't' then some '\t'
  else none

def pushUnit (n : Nat) (r : Step (List Nat)) : Step (List Nat) := r.map fun p => (n :: p.1, p.2)

def readUnits (opening : Nat) : List Char → Step (List Nat)
  | [] => .error (.refused .unterminatedString opening)
  | '\x22' :: rest => .ok ([], rest)
  | '\\' :: [] => .error (.refused .unterminatedString opening)
  | '\\' :: 'u' :: a :: b :: c :: d :: rest =>
      match hexValue4? a b c d, rest.isEmpty with
      | some n, false => pushUnit n (readUnits opening rest)
      | _, _ => .error (.refused .badUnicodeEscape (rest.length + 5))
  | '\\' :: 'u' :: rest => .error (.refused .badUnicodeEscape (rest.length + 1))
  | '\\' :: c :: rest =>
      match escape? c with
      | some e => pushUnit e.toNat (readUnits opening rest)
      | none => .error (.refused .badEscape (rest.length + 2))
  | c :: rest =>
      if c.toNat < 32 then .error (.refused .controlCharacter (rest.length + 1))
      else pushUnit c.toNat (readUnits opening rest)

def readString (opening : Nat) (cs : List Char) : Step String :=
  (readUnits opening cs).map fun p => (String.ofList (Text.joinUnits p.1), p.2)

def wholeDigits? : List Char → Option (List Nat × List Char)
  | [] => none
  | c :: rest =>
      if c = '0' then some ([0], rest)
      else if '1' ≤ c ∧ c ≤ '9' then some (Text.spanDigits (c :: rest))
      else none

def fractionDigits (cs : List Char) : List Nat × List Char :=
  match cs with
  | '.' :: rest =>
      match Text.spanDigits rest with
      | ([], _) => ([], cs)
      | found => found
  | _ => ([], cs)

def exponentPart? (cs : List Char) : Option (Int × List Char) :=
  match cs with
  | c :: rest =>
      if c = 'e' ∨ c = 'E' then
        let signed := Number.splitSign rest
        match Text.spanDigits signed.2 with
        | ([], _) => none
        | (digits, after) =>
            let n : Int := Text.natOfDigits digits
            some (if signed.1 then -n else n, after)
      else none
  | [] => none

def intValue (negative : Bool) (digits : List Nat) : Value :=
  let n : Int := Text.natOfDigits digits
  .int (if negative then -n else n)

def floatValue (negative : Bool) (digits : List Nat) (exponent : Int) : Value :=
  .float (Binary64.nearest ⟨negative, Text.natOfDigits digits, exponent⟩)

def readNumber (cs : List Char) : Step Value :=
  let signed : Bool × List Char := match cs with
    | '-' :: rest => (true, rest)
    | rest => (false, rest)
  match wholeDigits? signed.2 with
  | none => refuse .expectingValue cs
  | some (whole, rest) =>
      let fraction := fractionDigits rest
      match exponentPart? fraction.2 with
      | some (e, after) =>
          .ok (floatValue signed.1 (whole ++ fraction.1) (e - fraction.1.length), after)
      | none =>
          if fraction.1.isEmpty then
            if maxDigits < whole.length then .error (.tooManyDigits whole.length)
            else .ok (intValue signed.1 whole, fraction.2)
          else
            .ok (floatValue signed.1 (whole ++ fraction.1) (-(fraction.1.length : Int)), fraction.2)

def literals : List (String × Value) :=
  [("null", .null), ("true", .bool true), ("false", .bool false), ("NaN", .float (.nan (some 0))),
    ("Infinity", .float (.infinite false)), ("-Infinity", .float (.infinite true))]

def readLiteral? (cs : List Char) : List (String × Value) → Option (Value × List Char)
  | [] => none
  | (word, value) :: rest =>
      if word.toList.isPrefixOf cs then some (value, cs.drop word.length)
      else readLiteral? cs rest

def readScalar (cs : List Char) : Step Value :=
  match readLiteral? cs literals with
  | some found => .ok found
  | none => readNumber cs

def putEntry (name : String) (value : Value) : List (Value × Value) → List (Value × Value)
  | [] => [(.text name, value)]
  | (key, old) :: rest =>
      if key.text? = some name then (key, value) :: rest
      else (key, old) :: putEntry name value rest

mutual

-- Reads one value; `fuel` bounds the number of nested and following values, and `depth` more arrays
-- and objects may be entered.
def readValue (fuel depth : Nat) (cs : List Char) : Step Value :=
  match fuel with
  | 0 => refuse .expectingValue cs
  | fuel + 1 =>
      match cs with
      | '\x22' :: rest =>
          (readString cs.length rest).map fun p => (.text p.1, p.2)
      | '{' :: rest =>
          match depth with
          | 0 => .error (.tooDeep true)
          | depth + 1 =>
              match skipSpace rest with
              | '}' :: after => .ok (.mapping [], after)
              | inner => readMembers fuel depth [] inner
      | '[' :: rest =>
          match depth with
          | 0 => .error (.tooDeep false)
          | depth + 1 =>
              match skipSpace rest with
              | ']' :: after => .ok (.list [], after)
              | inner => readItems fuel depth [] inner
      | _ => readScalar cs

def readItems (fuel depth : Nat) (done : List Value) (cs : List Char) : Step Value :=
  match fuel with
  | 0 => refuse .expectingValue cs
  | fuel + 1 =>
      match readValue fuel depth cs with
      | .error e => .error e
      | .ok (value, rest) =>
          match skipSpace rest with
          | ']' :: after => .ok (.list (value :: done).reverse, after)
          | ',' :: after => readItems fuel depth (value :: done) (skipSpace after)
          | left => refuse .expectingComma left

def readMembers (fuel depth : Nat) (done : List (Value × Value)) (cs : List Char) : Step Value :=
  match fuel with
  | 0 => refuse .expectingName cs
  | fuel + 1 =>
      match cs with
      | '\x22' :: rest =>
          match readString cs.length rest with
          | .error e => .error e
          | .ok (name, afterName) =>
              match skipSpace afterName with
              | ':' :: beforeValue =>
                  match readValue fuel depth (skipSpace beforeValue) with
                  | .error e => .error e
                  | .ok (value, rest) =>
                      let entries := putEntry name value done
                      match skipSpace rest with
                      | '}' :: after => .ok (.mapping entries, after)
                      | ',' :: after => readMembers fuel depth entries (skipSpace after)
                      | left => refuse .expectingComma left
              | left => refuse .expectingColon left
      | _ => refuse .expectingName cs

end

-- Reads a whole text. Every value takes a character, so twice the length is fuel enough.
def readAll (cs : List Char) (stack : Nat := usualStack) : Except Failure Value :=
  match readValue (2 * cs.length + 2) stack (skipSpace cs) with
  | .error e => .error e
  | .ok (value, rest) =>
      match skipSpace rest with
      | [] => .ok value
      | left => .error (.refused .extraData left.length)

def readText (cs : List Char) (stack : Nat := usualStack) : Except Failure Value :=
  match cs with
  | c :: _ =>
      if c.toNat = 0xFEFF then .error (.refused .byteOrderMark cs.length) else readAll cs stack
  | [] => readAll cs stack

def complaint (problem : Problem) (cs : List Char) (left : Nat) : String :=
  let index := cs.length - left
  let before := cs.take index
  let line := before.count '\n' + 1
  let column := (before.reverse.takeWhile (· != '\n')).length + 1
  problem.text ++ ": line " ++ toString line ++ " column " ++ toString column ++
    " (char " ++ toString index ++ ")"

end TagRules.Json
