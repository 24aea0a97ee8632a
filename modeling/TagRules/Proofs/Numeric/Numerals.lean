import TagRules.Value.Number

set_option autoImplicit false

namespace TagRules

namespace Text

theorem drop_while_none (p : Char → Bool) (cs : List Char) (kept : ∀ c ∈ cs, p c = false) :
    cs.dropWhile p = cs := by
  cases cs with
  | nil => rfl
  | cons c rest => exact List.dropWhile_cons_of_neg (by simp [kept c List.mem_cons_self])

theorem drop_while_all (p : Char → Bool) (cs : List Char) (dropped : ∀ c ∈ cs, p c = true) :
    cs.dropWhile p = [] := by
  have whole : (cs ++ []).dropWhile p = List.dropWhile p [] := List.dropWhile_append_of_pos dropped
  rwa [List.append_nil] at whole

theorem strip_padded (p : Char → Bool) (before middle after : List Char)
    (blankBefore : ∀ c ∈ before, p c = true) (blankAfter : ∀ c ∈ after, p c = true)
    (written : ∀ c ∈ middle, p c = false) :
    stripWhere p (before ++ middle ++ after) = middle := by
  rw [stripWhere, List.append_assoc, List.dropWhile_append_of_pos blankBefore]
  cases middle with
  | nil =>
    rw [List.nil_append, drop_while_all p after blankAfter]
    rfl
  | cons c rest =>
    have first : (c :: rest ++ after).dropWhile p = c :: rest ++ after :=
      List.dropWhile_cons_of_neg (by simp [written c List.mem_cons_self])
    have last : (c :: rest).reverse.dropWhile p = (c :: rest).reverse :=
      drop_while_none p _ fun d member => written d (List.mem_reverse.mp member)
    rw [first, List.reverse_append, List.dropWhile_append_of_pos (by simpa using blankAfter), last,
      List.reverse_reverse]

theorem ascii_digit_of_is_digit (c : Char) (digit : c.isDigit = true) :
    asciiDigit? c = some (c.toNat - 48) := by
  simp only [Char.isDigit, Bool.and_eq_true, decide_eq_true_eq] at digit
  exact if_pos digit

theorem span_all_digits (cs : List Char) (digits : ∀ c ∈ cs, c.isDigit = true) :
    spanDigits cs = (cs.map (·.toNat - 48), []) := by
  induction cs with
  | nil => rfl
  | cons c rest ih =>
    obtain ⟨first, later⟩ := List.forall_mem_cons.mp digits
    simp only [spanDigits, ascii_digit_of_is_digit c first, ih later, List.map_cons]

theorem nat_of_digit_chars (cs : List Char) :
    natOfDigits (cs.map (·.toNat - 48)) = Nat.ofDigitChars 10 cs 0 := by
  rw [natOfDigits, List.foldl_map, Nat.ofDigitChars_eq_foldl]
  rfl

theorem digit_not_blank (c : Char) (digit : c.isDigit = true) : isBlank c = false := by
  simp only [Char.isDigit, Bool.and_eq_true, decide_eq_true_eq] at digit
  have bounds : 48 ≤ c.toNat ∧ c.toNat ≤ 57 := digit
  simp only [isBlank, isSpace, Bool.or_eq_false_iff, Bool.and_eq_false_iff, decide_eq_false_iff_not,
    beq_eq_false_iff_ne, ne_eq]
  omega

end Text

def numeral (negative : Bool) (digits : List Char) : List Char :=
  (if negative then ['-'] else []) ++ digits

theorem integer_text_numeral (n : Int) :
    (toString n).toList = numeral (decide (n < 0)) (Nat.toDigits 10 n.natAbs) := by
  cases n with
  | ofNat m => exact Nat.toList_repr
  | negSucc m =>
    have negative : decide (Int.negSucc m < 0) = true := decide_eq_true (Int.negSucc_lt_zero m)
    rw [negative]
    change ("-" ++ (m + 1).repr).toList = '-' :: Nat.toDigits 10 (m + 1)
    rw [String.toList_append, Nat.toList_repr]
    rfl

namespace Number

theorem to_ascii_digit (c : Char) (digit : c.isDigit = true) : toAscii c = c := by
  simp only [Char.isDigit, Bool.and_eq_true, decide_eq_true_eq] at digit
  have bounds : 48 ≤ c.toNat ∧ c.toNat < 58 := ⟨digit.1, Nat.lt_succ_of_le digit.2⟩
  have value : Text.digitValue? c = some (c.toNat - 48) := by
    rw [Text.digitValue?, Text.zeros, List.find?_cons_of_pos (by simpa using bounds)]
    rfl
  simp only [toAscii, value]
  rw [Nat.add_sub_cancel' bounds.1, Char.ofNat_toNat]

theorem drop_underscores_none (cs : List Char) (none : ∀ c ∈ cs, c ≠ '_') (before : Option Char) :
    dropUnderscores before cs = some cs := by
  induction cs generalizing before with
  | nil => cases before <;> rfl
  | cons c rest ih =>
    obtain ⟨first, later⟩ := List.forall_mem_cons.mp none
    rw [dropUnderscores, ih later]
    · rfl
    · exact first

theorem unsigned_digits (digits : List Char) (some : digits ≠ [])
    (each : ∀ c ∈ digits, c.isDigit = true) :
    unsigned? digits = .some (Nat.ofDigitChars 10 digits 0, 0) := by
  have spanned := Text.span_all_digits digits each
  have present : (digits.map (·.toNat - 48)).isEmpty = false := by simpa using some
  simp only [unsigned?, spanned, present, exponent?, List.append_nil,
    Text.nat_of_digit_chars]
  rfl

theorem split_sign_numeral (negative : Bool) (digits : List Char)
    (each : ∀ c ∈ digits, c.isDigit = true) :
    splitSign (numeral negative digits) = (negative, digits) := by
  cases negative with
  | true => rfl
  | false =>
    cases digits with
    | nil => rfl
    | cons c rest =>
      have digit := each c List.mem_cons_self
      have notMinus : c ≠ '-' := by
        rintro rfl
        exact absurd digit (by decide)
      have notPlus : c ≠ '+' := by
        rintro rfl
        exact absurd digit (by decide)
      simp [numeral, splitSign, notMinus, notPlus]

theorem numeral_chars (negative : Bool) (digits : List Char) (each : ∀ c ∈ digits, c.isDigit = true)
    (c : Char) (member : c ∈ numeral negative digits) : c = '-' ∨ c.isDigit = true := by
  rcases List.mem_append.mp member with sign | digit
  · cases negative with
    | true => exact .inl (List.mem_singleton.mp sign)
    | false => cases sign
  · exact .inr (each c digit)

theorem of_numeral (negative : Bool) (digits : List Char) (present : digits ≠ [])
    (each : ∀ c ∈ digits, c.isDigit = true) :
    ofChars? (numeral negative digits) =
      some (.finite ⟨negative, Nat.ofDigitChars 10 digits 0, 0⟩) := by
  have chars := numeral_chars negative digits each
  have ascii : (numeral negative digits).map toAscii = numeral negative digits := by
    refine (List.map_congr_left fun c member => ?_).trans (List.map_id _)
    rcases chars c member with rfl | digit
    · rfl
    · exact to_ascii_digit c digit
  have unmarked : ∀ c ∈ numeral negative digits, c ≠ '_' := by
    rintro c member rfl
    rcases chars _ member with mark | digit
    · exact absurd mark (by decide)
    · exact absurd digit (by decide)
  simp only [ofChars?, ascii, drop_underscores_none _ unmarked, split_sign_numeral negative digits each,
    unsigned_digits digits present each]

theorem of_integer_text (n : Int) (s : String) (before after : List Char)
    (spelled : s.toList = before ++ (toString n).toList ++ after)
    (blankBefore : ∀ c ∈ before, Text.isBlank c = true)
    (blankAfter : ∀ c ∈ after, Text.isBlank c = true) : ofText? s = some (ofInt n) := by
  have each : ∀ c ∈ Nat.toDigits 10 n.natAbs, c.isDigit = true :=
    fun c => Nat.isDigit_of_mem_toDigits (by decide) (by decide)
  have written : ∀ c ∈ numeral (decide (n < 0)) (Nat.toDigits 10 n.natAbs), Text.isBlank c = false := by
    intro c member
    rcases numeral_chars _ _ each c member with rfl | digit
    · decide
    · exact Text.digit_not_blank c digit
  rw [ofText?, spelled, integer_text_numeral,
    Text.strip_padded Text.isBlank before _ after blankBefore blankAfter written,
    of_numeral _ _ Nat.toDigits_ne_nil each, Nat.ofDigitChars_ten_toDigits]
  rfl

end Number

end TagRules
