set_option autoImplicit false

namespace TagRules.Template

inductive Key
  | absent
  | named (name : String)
  | unclosed
  deriving DecidableEq

inductive Size
  | absent
  | written (n : Nat)
  | given
  deriving DecidableEq

structure Flags where
  leftAligned : Bool
  signed : Bool
  spaced : Bool
  alternate : Bool
  zeroFilled : Bool
  deriving DecidableEq

structure Mark where
  key : Key
  flags : Flags
  width : Size
  precision : Size
  conversion : Option (Char × Nat)
  deriving DecidableEq

inductive Piece
  | plain (c : Char)
  | mark (mark : Mark)
  deriving DecidableEq

inductive Problem
  | missingArguments
  | unusedArguments
  | incompleteMark
  | incompleteKey
  | mappingRequired
  | unknownKey (shown : String)
  | sizeRequired
  | widthTooBig
  | precisionTooBig
  | widthOutOfRange
  | precisionOutOfRange
  | noRoom
  | unknownConversion (letter : Char) (index : Nat)
  | numberRequired (letter : Char) (kind : String)
  | integerRequired (letter : Char) (kind : String)
  | realRequired (kind : String)
  | realTooLarge
  | characterRequired
  | characterOutOfRange
  | nanAsInteger (name : String)
  | infinityAsInteger (name : String)
  deriving DecidableEq

def Problem.text : Problem → String
  | .missingArguments => "not enough arguments for format string"
  | .unusedArguments => "not all arguments converted during string formatting"
  | .incompleteMark => "incomplete format"
  | .incompleteKey => "incomplete format key"
  | .mappingRequired => "format requires a mapping"
  | .unknownKey shown => shown
  | .sizeRequired => "* wants int"
  | .widthTooBig => "width too big"
  | .precisionTooBig => "precision too big"
  | .widthOutOfRange => "Python int too large to convert to C ssize_t"
  | .precisionOutOfRange => "Python int too large to convert to C int"
  | .noRoom => ""
  | .unknownConversion letter index =>
      let shown := if 31 ≤ letter.toNat ∧ letter.toNat ≤ 126 then letter else '?'
      "unsupported format character '" ++ shown.toString ++ "' (0x" ++
        String.ofList (Nat.toDigits 16 letter.toNat) ++ ") at index " ++ toString index
  | .numberRequired letter kind =>
      "%" ++ letter.toString ++ " format: a real number is required, not " ++ kind
  | .integerRequired letter kind =>
      "%" ++ letter.toString ++ " format: an integer is required, not " ++ kind
  | .realRequired kind => "must be real number, not " ++ kind
  | .realTooLarge => "int too large to convert to float"
  | .characterRequired => "%c requires int or char"
  | .characterOutOfRange => "%c arg not in range(0x110000)"
  | .nanAsInteger name => "cannot convert " ++ name ++ " to integer"
  | .infinityAsInteger name => "cannot convert " ++ name ++ " to integer"

end TagRules.Template
