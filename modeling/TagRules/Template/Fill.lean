import TagRules.Numeric.FloatText
import TagRules.Template.Basic
import TagRules.Text.Basic
import TagRules.Value.Text

set_option autoImplicit false

namespace TagRules.Template

def Flags.bare : Flags := ⟨false, false, false, false, false⟩

def Flags.with? (c : Char) (flags : Flags) : Option Flags :=
  if c = '-' then some { flags with leftAligned := true }
  else if c = '+' then some { flags with signed := true }
  else if c = ' ' then some { flags with spaced := true }
  else if c = '#' then some { flags with alternate := true }
  else if c = '0' then some { flags with zeroFilled := true }
  else none

def readFlags (flags : Flags) : List Char → Flags × List Char
  | [] => (flags, [])
  | c :: rest =>
      match flags.with? c with
      | some more => readFlags more rest
      | none => (flags, c :: rest)

-- A key and what follows its closing bracket; `depth` brackets within the key are open.
def keyEnd? (depth : Nat) : List Char → Option (List Char × List Char)
  | [] => none
  | c :: rest =>
      if c = ')' then
        match depth with
        | 0 => some ([], rest)
        | outer + 1 => (keyEnd? outer rest).map fun found => (c :: found.1, found.2)
      else
        (keyEnd? (if c = '(' then depth + 1 else depth) rest).map fun found =>
          (c :: found.1, found.2)

def readKey : List Char → Key × List Char
  | '(' :: rest =>
      match keyEnd? 0 rest with
      | some (name, after) => (.named (String.ofList name), after)
      | none => (.unclosed, [])
  | cs => (.absent, cs)

def readSize (none : Size) (cs : List Char) : Size × List Char :=
  match cs with
  | '*' :: rest => (.given, rest)
  | cs =>
      match Text.spanDigits cs with
      | ([], _) => (none, cs)
      | (digits, rest) => (.written (Text.natOfDigits digits), rest)

def readPrecision : List Char → Size × List Char
  | '.' :: rest => readSize (.written 0) rest
  | cs => (.absent, cs)

def skipModifier : List Char → List Char
  | 'h' :: rest => rest
  | 'l' :: rest => rest
  | 'L' :: rest => rest
  | cs => cs

def readMark (total : Nat) (cs : List Char) : Mark × List Char :=
  let key := readKey cs
  let flags := readFlags .bare key.2
  let width := readSize .absent flags.2
  let precision := readPrecision width.2
  match skipModifier precision.2 with
  | [] => (⟨key.1, flags.1, width.1, precision.1, none⟩, [])
  | c :: rest =>
      (⟨key.1, flags.1, width.1, precision.1, some (c, total - rest.length - 1)⟩, rest)

def readPieces (fuel total : Nat) (cs : List Char) : List Piece :=
  match fuel with
  | 0 => []
  | fuel + 1 =>
      match cs with
      | [] => []
      | '%' :: '%' :: rest => .plain '%' :: readPieces fuel total rest
      | '%' :: rest =>
          let found := readMark total rest
          .mark found.1 :: readPieces fuel total found.2
      | c :: rest => .plain c :: readPieces fuel total rest

-- The pieces of a template. Every piece takes a character.
def pieces (template : String) : List Piece :=
  let cs := template.toList
  readPieces cs.length cs.length cs

abbrev Filled (α : Type) := Except Fault α

def fail {α : Type} (problem : Problem) : Filled α := .error (.badTemplate problem)

structure Supply where
  left : List Value
  lookup : Option (List (Value × Value))

def Supply.ofArguments : List Value → Supply
  | [v] =>
      match v.entries? with
      | some (entry :: entries) => ⟨[v], some (entry :: entries)⟩
      | _ => ⟨[v], none⟩
  | args => ⟨args, none⟩

def Supply.next (supply : Supply) : Filled (Value × Supply) :=
  match supply.left with
  | [] => fail .missingArguments
  | v :: rest => .ok (v, { supply with left := rest })

def Supply.enter (key : Key) (supply : Supply) : Filled Supply :=
  match key, supply.lookup with
  | .absent, _ => .ok supply
  | _, none => fail .mappingRequired
  | .unclosed, some _ => fail .incompleteKey
  | .named name, some entries =>
      match Value.entry? name entries with
      | some v => .ok { supply with left := [v] }
      | none => fail (.unknownKey (Text.quoted name))

def widthLimit : Nat := Nat.pow 2 63

def precisionLimit : Nat := Nat.pow 2 31

def roomLimit : Nat := Nat.pow 2 36

def sizeOf? : Value → Option Int
  | .int n => some n
  | .bool b => some (if b then 1 else 0)
  | _ => none

def readGiven (supply : Supply) : Filled (Int × Supply) :=
  match supply.next with
  | .error e => .error e
  | .ok (v, rest) =>
      match sizeOf? v with
      | some n => .ok (n, rest)
      | none => fail .sizeRequired

structure Extent where
  leftAligned : Bool
  width : Nat

def extentOf (mark : Mark) (supply : Supply) : Filled (Extent × Supply) :=
  match mark.width with
  | .absent => .ok (⟨mark.flags.leftAligned, 0⟩, supply)
  | .written n =>
      if n < widthLimit then .ok (⟨mark.flags.leftAligned, n⟩, supply) else fail .widthTooBig
  | .given =>
      match readGiven supply with
      | .error e => .error e
      | .ok (n, rest) =>
          if n.natAbs < widthLimit then
            .ok (⟨mark.flags.leftAligned || decide (n < 0), n.natAbs⟩, rest)
          else fail .widthOutOfRange

def precisionOf (mark : Mark) (supply : Supply) : Filled (Option Nat × Supply) :=
  match mark.precision with
  | .absent => .ok (none, supply)
  | .written n => if n < precisionLimit then .ok (some n, supply) else fail .precisionTooBig
  | .given =>
      match readGiven supply with
      | .error e => .error e
      | .ok (n, rest) =>
          if n.natAbs < precisionLimit then .ok (some n.toNat, rest)
          else fail .precisionOutOfRange

structure Shown where
  lead : List Char
  body : List Char
  isNumber : Bool

def Shown.ofText (precision : Option Nat) (s : String) : Shown :=
  ⟨[], match precision with
    | some n => s.toList.take n
    | none => s.toList, false⟩

def signOf (flags : Flags) (negative : Bool) : List Char :=
  if negative then ['-'] else if flags.signed then ['+'] else if flags.spaced then [' '] else []

def escaped (c : Char) : List Char :=
  if c.toNat < 0x80 then [c]
  else if c.toNat < 0x100 then '\\' :: 'x' :: Text.hexDigits 2 c.toNat
  else if c.toNat < 0x10000 then '\\' :: 'u' :: Text.hexDigits 4 c.toNat
  else '\\' :: 'U' :: Text.hexDigits 8 c.toNat

def wholeOf (letter : Char) : Value → Filled Int
  | .int n => .ok n
  | .bool b => .ok (if b then 1 else 0)
  | .float (.finite negative rank) => .ok (Binary64.exact negative rank).truncate
  | .float (.infinite _) => fail (.infinityAsInteger "float infinity")
  | .float (.nan _) => fail (.nanAsInteger "float NaN")
  | .decimal (.finite x) => .ok x.truncate
  | .decimal (.infinite _) => fail (.infinityAsInteger "Infinity")
  | .decimal _ => fail (.nanAsInteger "NaN")
  | v => fail (.numberRequired letter v.kindName)

def withPrecision (precision : Option Nat) (digits : List Char) : List Char :=
  List.replicate (precision.getD 0 - digits.length) '0' ++ digits

def showWhole (flags : Flags) (precision : Option Nat) (letter : Char) (v : Value) :
    Filled Shown :=
  match wholeOf letter v with
  | .error e => .error e
  | .ok n =>
      (Value.integerText n.natAbs).map fun digits =>
        ⟨signOf flags (decide (n < 0)), withPrecision precision digits.toList, true⟩

def showInBase (base : Nat) (flags : Flags) (precision : Option Nat) (letter : Char) (v : Value) :
    Filled Shown :=
  match sizeOf? v with
  | none => fail (.integerRequired letter v.kindName)
  | some n =>
      let digits := withPrecision precision (Nat.toDigits base n.natAbs)
      let mark := if flags.alternate then ['0', letter] else []
      .ok ⟨signOf flags (decide (n < 0)) ++ mark,
        if letter = 'X' then digits.map Char.toUpper else digits, true⟩

def realOf : Value → Filled Binary64
  | .float x => .ok x
  | .decimal (.finite x) => .ok (Binary64.nearest x)
  | .decimal (.infinite negative) => .ok (.infinite negative)
  | .decimal _ => .ok (.nan none)
  | v =>
      match sizeOf? v with
      | none => fail (.realRequired v.kindName)
      | some n =>
          match Binary64.nearest (.ofInt n) with
          | .infinite _ => fail .realTooLarge
          | x => .ok x

def magnitude (alternate : Bool) (places : Nat) (letter : Char) (rank : Nat) : List Char :=
  let x := Binary64.exact false rank
  if letter = 'f' ∨ letter = 'F' then Places.fixed alternate places x
  else if letter = 'e' ∨ letter = 'E' then Places.scaled alternate places x
  else Places.general alternate places x

def showReal (flags : Flags) (precision : Option Nat) (letter : Char) (v : Value) :
    Filled Shown :=
  match realOf v with
  | .error e => .error e
  | .ok x =>
      let places := precision.getD 6
      let (negative, body) : Bool × List Char := match x with
        | .nan _ => (false, ['n', 'a', 'n'])
        | .infinite negative => (negative, ['i', 'n', 'f'])
        | .finite negative rank => (negative, magnitude flags.alternate places letter rank)
      .ok ⟨signOf flags negative, if letter.isUpper then body.map Char.toUpper else body, true⟩

def showCharacter (v : Value) : Filled Shown :=
  match v.text?, sizeOf? v with
  | some s, _ => if s.length = 1 then .ok ⟨[], s.toList, false⟩ else fail .characterRequired
  | none, some n =>
      if 0 ≤ n ∧ n < 0x110000 then .ok ⟨[], [Text.unitChar n.toNat], false⟩
      else fail .characterOutOfRange
  | none, none => fail .characterRequired

def showAs (flags : Flags) (precision : Option Nat) (letter : Char) (index : Nat) (v : Value) :
    Filled Shown :=
  if letter = 's' then v.toText.map (.ofText precision)
  else if letter = 'r' then v.shown.map (.ofText precision)
  else if letter = 'a' then
    v.shown.map fun s => .ofText precision (String.ofList (s.toList.flatMap escaped))
  else if letter = 'd' ∨ letter = 'i' ∨ letter = 'u' then showWhole flags precision letter v
  else if letter = 'o' then showInBase 8 flags precision letter v
  else if letter = 'x' ∨ letter = 'X' then showInBase 16 flags precision letter v
  else if letter ∈ ['e', 'E', 'f', 'F', 'g', 'G'] then showReal flags precision letter v
  else if letter = 'c' then showCharacter v
  else fail (.unknownConversion letter index)

def pad (extent : Extent) (zeroFilled : Bool) (shown : Shown) : Filled (List Char) :=
  let text := shown.lead ++ shown.body
  if roomLimit ≤ extent.width then fail .noRoom
  else
    let count := extent.width - text.length
    if extent.leftAligned then .ok (text ++ List.replicate count ' ')
    else if shown.isNumber && zeroFilled then
      .ok (shown.lead ++ List.replicate count '0' ++ shown.body)
    else .ok (List.replicate count ' ' ++ text)

def fillSized (flags : Flags) (extent : Extent) (precision : Option Nat)
    (conversion : Option (Char × Nat)) (supply : Supply) : Filled (List Char × Supply) :=
  match conversion with
  | none => fail .incompleteMark
  | some (letter, index) =>
      match supply.next with
      | .error e => .error e
      | .ok (v, rest) =>
          match showAs flags precision letter index v with
          | .error e => .error e
          | .ok shown => (pad extent flags.zeroFilled shown).map fun text => (text, rest)

def fillMark (mark : Mark) (supply : Supply) : Filled (List Char × Supply) :=
  match supply.enter mark.key with
  | .error e => .error e
  | .ok entered =>
      match extentOf mark entered with
      | .error e => .error e
      | .ok (extent, sized) =>
          match precisionOf mark sized with
          | .error e => .error e
          | .ok (precision, ready) =>
              match fillSized mark.flags extent precision mark.conversion ready with
              | .error e => .error e
              | .ok (text, rest) =>
                  if rest.lookup.isSome && !rest.left.isEmpty then fail .unusedArguments
                  else .ok (text, rest)

def fillPieces : List Piece → Supply → Filled (List Char)
  | [], supply =>
      if supply.lookup.isNone && !supply.left.isEmpty then fail .unusedArguments else .ok []
  | .plain c :: rest, supply => (fillPieces rest supply).map (c :: ·)
  | .mark mark :: rest, supply =>
      match fillMark mark supply with
      | .error e => .error e
      | .ok (text, after) => (fillPieces rest after).map (text ++ ·)

def fill (template : String) (args : List Value) : Filled String :=
  (fillPieces (pieces template) (.ofArguments args)).map String.ofList

end TagRules.Template
