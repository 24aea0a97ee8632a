import TagRules.Text.Basic

/-! The encoding is told by a byte order mark, or by the zero bytes among the first four. -/

set_option autoImplicit false

namespace TagRules.Json

open Text

inductive Encoding
  | utf8
  | utf8Marked
  | utf16 (big : Bool) (mark : Bool)
  | utf32 (big : Bool) (mark : Bool)
  deriving DecidableEq

structure Undecodable where
  codec : String
  octet : Nat
  start : Nat
  stop : Nat
  reason : String
  deriving DecidableEq

def hexByte (n : Nat) : String :=
  let digit (k : Nat) : Char := if k < 10 then Char.ofNat (48 + k) else Char.ofNat (87 + k)
  String.ofList ['0', 'x', digit (n / 16 % 16), digit (n % 16)]

def Undecodable.message (u : Undecodable) : String :=
  let place :=
    if u.stop ≤ u.start + 1 then "byte " ++ hexByte u.octet ++ " in position " ++ toString u.start
    else "bytes in position " ++ toString u.start ++ "-" ++ toString (u.stop - 1)
  "'" ++ u.codec ++ "' codec can't decode " ++ place ++ ": " ++ u.reason

def Encoding.detect (octets : List Nat) : Encoding :=
  match octets with
  | 0x00 :: 0x00 :: 0xFE :: 0xFF :: _ => .utf32 true true
  | 0xFF :: 0xFE :: 0x00 :: 0x00 :: _ => .utf32 false true
  | 0xFE :: 0xFF :: _ => .utf16 true true
  | 0xFF :: 0xFE :: _ => .utf16 false true
  | 0xEF :: 0xBB :: 0xBF :: _ => .utf8Marked
  | a :: b :: c :: d :: _ =>
      if a = 0 then (if b = 0 then .utf32 true false else .utf16 true false)
      else if b = 0 then (if c = 0 ∧ d = 0 then .utf32 false false else .utf16 false false)
      else .utf8
  | [a, b] => if a = 0 then .utf16 true false else if b = 0 then .utf16 false false else .utf8
  | _ => .utf8

def isTail (n : Nat) : Bool := 0x80 ≤ n && n < 0xC0

def pushChar (c : Char) (r : Except Undecodable (List Char)) : Except Undecodable (List Char) :=
  r.map (c :: ·)

def badUtf8 (octet start width : Nat) (reason : String) : Except Undecodable (List Char) :=
  .error ⟨"utf-8", octet, start, start + width, reason⟩

def badStart (octet start : Nat) : Except Undecodable (List Char) :=
  badUtf8 octet start 1 "invalid start byte"

def badTail (octet start width : Nat) : Except Undecodable (List Char) :=
  badUtf8 octet start width "invalid continuation byte"

def cutShort (octet start width : Nat) : Except Undecodable (List Char) :=
  badUtf8 octet start width "unexpected end of data"

def secondOfThree (a b : Nat) : Bool :=
  isTail b && !(a == 0xE0 && b < 0xA0) && !(a == 0xED && 0xA0 ≤ b)

def secondOfFour (a b : Nat) : Bool :=
  isTail b && !(a == 0xF0 && b < 0x90) && !(a == 0xF4 && 0x90 ≤ b)

def decodeUtf8 (start : Nat) : List Nat → Except Undecodable (List Char)
  | [] => .ok []
  | a :: rest =>
      if a < 0x80 then pushChar (Char.ofNat a) (decodeUtf8 (start + 1) rest)
      else if a < 0xC2 then badStart a start
      else if a < 0xE0 then
        match rest with
        | [] => cutShort a start 1
        | b :: rest =>
            if isTail b then
              pushChar (unitChar (a % 32 * 64 + b % 64)) (decodeUtf8 (start + 2) rest)
            else badTail a start 1
      else if a < 0xF0 then
        match rest with
        | [] => cutShort a start 1
        | [b] => if secondOfThree a b then cutShort a start 2 else badTail a start 1
        | b :: c :: rest =>
            if secondOfThree a b then
              if isTail c then
                pushChar (unitChar (a % 16 * 4096 + b % 64 * 64 + c % 64))
                  (decodeUtf8 (start + 3) rest)
              else badTail a start 2
            else if a = 0xED ∧ isTail b = true ∧ isTail c = true then
              pushChar (Char.ofNat 0xFFFD) (decodeUtf8 (start + 3) rest)
            else badTail a start 1
      else if a < 0xF5 then
        match rest with
        | [] => cutShort a start 1
        | [b] => if secondOfFour a b then cutShort a start 2 else badTail a start 1
        | [b, c] =>
            if secondOfFour a b then
              if isTail c then cutShort a start 3 else badTail a start 2
            else badTail a start 1
        | b :: c :: d :: rest =>
            if secondOfFour a b then
              if isTail c then
                if isTail d then
                  pushChar (unitChar (a % 8 * 262144 + b % 64 * 4096 + c % 64 * 64 + d % 64))
                    (decodeUtf8 (start + 4) rest)
                else badTail a start 3
              else badTail a start 2
            else badTail a start 1
      else badStart a start

def unit16 (big : Bool) (a b : Nat) : Nat := if big then a * 256 + b else b * 256 + a

def units16 (big : Bool) (start : Nat) : List Nat → Except Undecodable (List Nat)
  | [] => .ok []
  | [a] =>
      .error ⟨if big then "utf-16-be" else "utf-16-le", a, start, start + 1, "truncated data"⟩
  | a :: b :: rest => (units16 big (start + 2) rest).map (unit16 big a b :: ·)

def decodeUtf16 (big : Bool) (start : Nat) (octets : List Nat) : Except Undecodable (List Char) :=
  (units16 big start octets).map joinUnits

def unit32 (big : Bool) (a b c d : Nat) : Nat :=
  if big then ((a * 256 + b) * 256 + c) * 256 + d else ((d * 256 + c) * 256 + b) * 256 + a

def decodeUtf32 (big : Bool) (start : Nat) : List Nat → Except Undecodable (List Char)
  | [] => .ok []
  | a :: b :: c :: d :: rest =>
      let n := unit32 big a b c d
      if n < 0x110000 then pushChar (unitChar n) (decodeUtf32 big (start + 4) rest)
      else
        .error ⟨if big then "utf-32-be" else "utf-32-le", a, start, start + 4,
          "code point not in range(0x110000)"⟩
  | a :: short =>
      .error ⟨if big then "utf-32-be" else "utf-32-le", a, start, start + 1 + short.length,
        "truncated data"⟩

-- Decodes a byte string in the encoding that its first bytes tell. Positions count from the first
-- byte, but from behind the mark of a marked UTF-8 text.
def decode (octets : List Nat) : Except Undecodable (List Char) :=
  match Encoding.detect octets with
  | .utf8 => decodeUtf8 0 octets
  | .utf8Marked => decodeUtf8 0 (octets.drop 3)
  | .utf16 big true => decodeUtf16 big 2 (octets.drop 2)
  | .utf16 big false => decodeUtf16 big 0 octets
  | .utf32 big true => decodeUtf32 big 4 (octets.drop 4)
  | .utf32 big false => decodeUtf32 big 0 octets

end TagRules.Json
