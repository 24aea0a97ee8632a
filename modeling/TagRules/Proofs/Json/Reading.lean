import TagRules.Proofs.Json.Outside
import TagRules.Proofs.Numeric.FloatRange

set_option autoImplicit false

namespace TagRules.Json

inductive Spelled : Value → Prop
  | null : Spelled .null
  | bool (b : Bool) : Spelled (.bool b)
  | int (n : Int) (short : n.natAbs < Nat.pow 10 maxDigits) : Spelled (.int n)
  | float (x : Binary64) (proper : x.Proper) : Spelled (.float x)
  | text (s : String) : Spelled (.text s)
  | list (items : List Value) (each : ∀ item ∈ items, Spelled item) : Spelled (.list items)
  | mapping (entries : List (Value × Value)) (each : ∀ entry ∈ entries, Spelled entry.2) :
      Spelled (.mapping entries)

inductive Outcome {α : Type} (fine : α → Prop) (depth : Nat) (cs : List Char) : Except Failure α → Prop
  | read {a : α} (good : fine a) : Outcome fine depth cs (.ok a)
  | refused (problem : Problem) (left : Nat) : Outcome fine depth cs (.error (.refused problem left))
  | tooManyDigits {digits : Nat} (long : maxDigits < digits) (written : HasDigits digits cs) :
      Outcome fine depth cs (.error (.tooManyDigits digits))
  | tooDeep (isObject : Bool) (deep : depth < level cs) :
      Outcome fine depth cs (.error (.tooDeep isObject))

structure Found (closed : Nat) (cs : List Char) (found : Value × List Char) : Prop where
  spelled : Spelled found.1
  onward : Onward 0 closed cs found.2

theorem Outcome.map {α β : Type} {fine : α → Prop} {good : β → Prop} {depth : Nat} {cs : List Char}
    {r : Except Failure α} (f : α → β) (carries : ∀ a, fine a → good (f a))
    (outcome : Outcome fine depth cs r) : Outcome good depth cs (r.map f) := by
  cases outcome with
  | read a => exact .read (carries _ a)
  | refused problem left => exact .refused problem left
  | tooManyDigits long written => exact .tooManyDigits long written
  | tooDeep isObject deep => exact .tooDeep isObject deep

theorem Outcome.failed {α β : Type} {fine : α → Prop} {good : β → Prop} {depth : Nat}
    {cs : List Char} {e : Failure} (outcome : Outcome fine depth cs (.error e)) :
    Outcome good depth cs (.error e) := by
  cases outcome with
  | refused problem left => exact .refused problem left
  | tooManyDigits long written => exact .tooManyDigits long written
  | tooDeep isObject deep => exact .tooDeep isObject deep

theorem Outcome.after {opened closed depth : Nat} {cs mid : List Char} {r : Step Value}
    (way : Onward opened 0 cs mid) (outcome : Outcome (Found (closed + opened) mid) depth mid r) :
    Outcome (Found closed cs) (depth + opened) cs r := by
  have early := way.level
  cases outcome with
  | read found =>
    refine .read ⟨found.spelled, found.onward.behind.trans way.behind, ?_⟩
    have late := found.onward.level
    omega
  | refused problem left => exact .refused problem left
  | tooManyDigits long written => exact .tooManyDigits long (written.behind way.behind)
  | tooDeep isObject deep => exact .tooDeep isObject (by omega)

theorem ascii_digit (c : Char) (d : Nat) (digit : Text.asciiDigit? c = some d) :
    c.isDigit = true ∧ d < 10 := by
  unfold Text.asciiDigit? at digit
  split at digit
  · rename_i bounds
    obtain ⟨low, high⟩ := bounds
    cases digit
    refine ⟨?_, ?_⟩
    · simp only [Char.isDigit, Bool.and_eq_true, decide_eq_true_eq]
      exact ⟨low, high⟩
    · have top : c.toNat ≤ '9'.toNat := high
      have nine : '9'.toNat = 57 := rfl
      omega
  · cases digit

def Digits (digits : List Nat) (cs rest : List Char) : Prop :=
  ∃ run, cs = run ++ rest ∧ run.length = digits.length ∧ (∀ c ∈ run, c.isDigit = true) ∧
    ∀ d ∈ digits, d < 10

theorem Digits.skips {digits : List Nat} {cs rest : List Char} (found : Digits digits cs rest) :
    Skips cs rest := by
  obtain ⟨run, same, _, each, _⟩ := found
  exact ⟨run, same, fun c member => plain_of_class Char.isDigit rfl c (each c member)⟩

theorem Digits.has_digits {digits : List Nat} {cs rest : List Char} (found : Digits digits cs rest) :
    HasDigits digits.length cs := by
  obtain ⟨run, rfl, length, each, _⟩ := found
  refine ⟨run, length, each, ?_⟩
  rw [bare_append run rest fun c member => plain_of_class Char.isDigit rfl c (each c member)]
  exact (List.prefix_append run _).isInfix

theorem digits_cons (c : Char) (d : Nat) (digits : List Nat) (cs rest : List Char)
    (digit : c.isDigit = true) (small : d < 10) (found : Digits digits cs rest) :
    Digits (d :: digits) (c :: cs) rest := by
  obtain ⟨run, same, length, each, values⟩ := found
  exact ⟨c :: run, congrArg (c :: ·) same, congrArg (· + 1) length,
    List.forall_mem_cons.mpr ⟨digit, each⟩, List.forall_mem_cons.mpr ⟨small, values⟩⟩

theorem digits_none (cs : List Char) : Digits [] cs cs := ⟨[], rfl, rfl, nofun, nofun⟩

theorem span_digits (cs : List Char) : Digits (Text.spanDigits cs).1 cs (Text.spanDigits cs).2 := by
  induction cs with
  | nil => exact digits_none []
  | cons c rest ih =>
    rw [Text.spanDigits]
    cases digit : Text.asciiDigit? c with
    | none => exact digits_none _
    | some d =>
      obtain ⟨isDigit, small⟩ := ascii_digit c d digit
      exact digits_cons c d _ rest _ isDigit small ih

theorem nat_of_digits_bounded (digits : List Nat) (small : ∀ d ∈ digits, d < 10) (n : Nat) :
    digits.foldl (fun n d => 10 * n + d) n < (n + 1) * Nat.pow 10 digits.length := by
  induction digits generalizing n with
  | nil => simp
  | cons d rest ih =>
    obtain ⟨first, later⟩ := List.forall_mem_cons.mp small
    calc rest.foldl (fun n d => 10 * n + d) (10 * n + d)
        < (10 * n + d + 1) * Nat.pow 10 rest.length := ih later (10 * n + d)
      _ ≤ (n + 1) * 10 * Nat.pow 10 rest.length := Nat.mul_le_mul_right _ (by omega)
      _ = (n + 1) * (Nat.pow 10 rest.length * 10) := by
        rw [Nat.mul_assoc, Nat.mul_comm 10]

theorem int_value_bounded (negative : Bool) (digits : List Nat) (small : ∀ d ∈ digits, d < 10)
    (many : Nat) (few : digits.length ≤ many) :
    ∃ n, intValue negative digits = .int n ∧ n.natAbs < Nat.pow 10 many := by
  have bound := nat_of_digits_bounded digits small 0
  rw [Nat.zero_add, Nat.one_mul] at bound
  have room : Nat.pow 10 digits.length ≤ Nat.pow 10 many := Nat.pow_le_pow_right (by decide) few
  refine ⟨_, rfl, ?_⟩
  cases negative with
  | false => exact Nat.lt_of_lt_of_le bound room
  | true =>
    rw [if_pos rfl, Int.natAbs_neg]
    exact Nat.lt_of_lt_of_le bound room

theorem int_spelled (negative : Bool) (digits : List Nat) (small : ∀ d ∈ digits, d < 10)
    (few : digits.length ≤ maxDigits) : Spelled (intValue negative digits) := by
  obtain ⟨n, same, short⟩ := int_value_bounded negative digits small maxDigits few
  rw [same]
  exact .int n short

theorem float_spelled (negative : Bool) (digits : List Nat) (exponent : Int) :
    Spelled (floatValue negative digits exponent) := .float _ (Binary64.nearest_proper _)

theorem whole_digits (cs : List Char) (digits : List Nat) (rest : List Char)
    (found : wholeDigits? cs = some (digits, rest)) : Digits digits cs rest := by
  unfold wholeDigits? at found
  split at found
  · cases found
  · rename_i c cs
    split at found
    · rename_i isZero
      cases isZero
      cases found
      exact digits_cons '0' 0 [] _ _ rfl (by decide) (digits_none _)
    · split at found
      · have spans := span_digits (c :: cs)
        rw [Option.some.inj found] at spans
        exact spans
      · cases found

theorem fraction_skips (cs : List Char) : Skips cs (fractionDigits cs).2 := by
  unfold fractionDigits
  split
  · rename_i rest
    split
    · exact .refl _
    · exact .cons (by decide) (span_digits rest).skips
  · exact .refl _

theorem sign_skips (cs : List Char) : Skips cs (Number.splitSign cs).2 := by
  unfold Number.splitSign
  split
  · exact .cons (by decide) (.refl _)
  · exact .cons (by decide) (.refl _)
  · exact .refl _

theorem exponent_skips (cs : List Char) (e : Int) (after : List Char)
    (found : exponentPart? cs = some (e, after)) : Skips cs after := by
  unfold exponentPart? at found
  split at found
  · rename_i c rest
    split at found
    · rename_i isMark
      have plain : Plain c := by rcases isMark with rfl | rfl <;> decide
      have digits := (span_digits (Number.splitSign rest).2).skips
      dsimp only at found
      split at found
      · cases found
      · rename_i spans
        rw [spans] at digits
        cases found
        exact .cons plain ((sign_skips rest).trans digits)
    · cases found
  · cases found

theorem read_number_outcome (depth : Nat) (cs : List Char) :
    Outcome (Found 0 cs) depth cs (readNumber cs) := by
  unfold readNumber
  extract_lets signed
  have sign : Skips cs signed.2 := by
    dsimp only [signed]
    split
    · exact .cons (by decide) (.refl _)
    · exact .refl _
  clear_value signed
  split
  · exact .refused _ _
  · rename_i whole rest found
    have digits := whole_digits _ _ _ found
    have fraction := (sign.trans digits.skips).trans (fraction_skips rest)
    dsimp only
    split
    · rename_i e after power
      exact .read ⟨float_spelled _ _ _, (fraction.trans (exponent_skips _ _ _ power)).onward⟩
    · split
      · split
        · rename_i long
          exact .tooManyDigits long (digits.has_digits.behind sign.onward.behind)
        · rename_i short
          obtain ⟨_, _, _, _, small⟩ := digits
          exact .read ⟨int_spelled _ _ small (Nat.not_lt.mp short), fraction.onward⟩
      · exact .read ⟨float_spelled _ _ _, fraction.onward⟩

theorem read_literal (table : List (String × Value)) (cs : List Char)
    (plain : ∀ entry ∈ table, ∀ c ∈ entry.1.toList, Plain c) (spelled : ∀ entry ∈ table, Spelled entry.2)
    (v : Value) (rest : List Char) (found : readLiteral? cs table = some (v, rest)) :
    Spelled v ∧ Skips cs rest := by
  induction table with
  | nil => cases found
  | cons entry table ih =>
    obtain ⟨word, value⟩ := entry
    obtain ⟨plainWord, plainLater⟩ := List.forall_mem_cons.mp plain
    obtain ⟨spelledValue, spelledLater⟩ := List.forall_mem_cons.mp spelled
    unfold readLiteral? at found
    split at found
    · rename_i starts
      obtain ⟨left, rfl⟩ := List.isPrefixOf_iff_prefix.mp starts
      cases found
      refine ⟨spelledValue, word.toList, ?_, plainWord⟩
      rw [← String.length_toList, List.drop_left]
    · exact ih plainLater spelledLater found

theorem read_scalar_outcome (depth : Nat) (cs : List Char) :
    Outcome (Found 0 cs) depth cs (readScalar cs) := by
  unfold readScalar
  split
  · rename_i found literal
    have plain : ∀ entry ∈ literals, ∀ c ∈ entry.1.toList, Plain c := by
      simp [literals, Plain, marks]
    have spelled : ∀ entry ∈ literals, Spelled entry.2 := by
      simp only [literals, List.forall_mem_cons]
      exact ⟨.null, .bool _, .bool _, .float _ trivial, .float _ trivial, .float _ trivial,
        List.forall_mem_nil _⟩
    obtain ⟨value, skips⟩ := read_literal literals cs plain spelled found.1 found.2 literal
    exact .read ⟨value, skips.onward⟩
  · exact read_number_outcome depth cs

-- The reader of a string and the scan of the text outside strings leave the string at one place.
theorem read_units_outcome (depth opening : Nat) (all cs : List Char) :
    Outcome (fun found => bare .inside cs = bare .outside found.2) depth all
      (readUnits opening cs) := by
  fun_induction readUnits opening cs with
  | case2 => exact .read rfl
  | case4 a b c d after n _ value ih =>
    have unescaped : bare .inside ('\\' :: 'u' :: a :: b :: c :: d :: after) =
        bare .inside (a :: b :: c :: d :: after) := rfl
    rw [unescaped, hex4_inside a b c d after n value]
    exact ih.map _ fun _ same => same
  | case7 c after _ _ e _ ih => exact ih.map _ fun _ same => same
  | case10 c after notClosing notLast _ _ notEscape _ ih =>
    have notBackslash : c ≠ '\\' := by
      intro backslash
      cases after with
      | nil => exact notLast backslash rfl
      | cons next left => exact notEscape next left backslash rfl
    have unmarked : bare .inside (c :: after) = bare .inside after := by
      simp [bare, notBackslash, show c ≠ '\x22' from notClosing]
    rw [unmarked]
    exact ih.map _ fun _ same => same
  | _ => exact .refused _ _

theorem read_string_outcome (depth opening : Nat) (cs : List Char) :
    Outcome (fun found => Onward 0 0 ('\x22' :: cs) found.2) depth ('\x22' :: cs)
      (readString opening cs) := by
  refine (read_units_outcome depth opening _ cs).map _ fun found same => ?_
  have step : bare .outside ('\x22' :: cs) = '\x22' :: bare .outside found.2 :=
    congrArg ('\x22' :: ·) same
  refine ⟨?_, ?_⟩
  · rw [step]
    exact List.suffix_cons _ _
  · rw [level, level, step]
    exact Nat.le_refl _

theorem put_entry_spelled (name : String) (value : Value) (entries : List (Value × Value))
    (spelled : Spelled value) (each : ∀ entry ∈ entries, Spelled entry.2) :
    ∀ entry ∈ putEntry name value entries, Spelled entry.2 := by
  induction entries with
  | nil => simpa [putEntry] using spelled
  | cons entry rest ih =>
    obtain ⟨first, later⟩ := List.forall_mem_cons.mp each
    rw [putEntry]
    split
    · exact List.forall_mem_cons.mpr ⟨spelled, later⟩
    · exact List.forall_mem_cons.mpr ⟨first, ih later⟩

theorem outcome_opened (c : Char) (rest : List Char) (depth : Nat) (r : Step Value)
    (unmarked : c ≠ '\x22') (isOpening : opens c = true)
    (outcome : Outcome (Found 1 (skipSpace rest)) depth (skipSpace rest) r) :
    Outcome (Found 0 (c :: rest)) (depth + 1) (c :: rest) r :=
  .after ((onward_opening c rest unmarked isOpening).trans (skip_space_onward rest)) outcome

theorem no_room (c : Char) (rest : List Char) (isObject : Bool) (unmarked : c ≠ '\x22')
    (isOpening : opens c = true) :
    Outcome (Found 0 (c :: rest)) 0 (c :: rest) (.error (.tooDeep isObject)) := by
  have deeper := (onward_opening c rest unmarked isOpening).level
  exact .tooDeep isObject (by omega)

mutual

theorem read_value_outcome (fuel depth : Nat) (cs : List Char) :
    Outcome (Found 0 cs) depth cs (readValue fuel depth cs) := by
  cases fuel with
  | zero => exact .refused _ _
  | succ fuel =>
    rw [readValue.eq_def]
    dsimp only
    split
    · rename_i rest
      exact (read_string_outcome depth _ rest).map _ fun found onward => ⟨.text found.1, onward⟩
    · rename_i rest
      cases depth with
      | zero => exact no_room '{' rest true (by decide) rfl
      | succ depth =>
        refine outcome_opened '{' rest depth _ (by decide) rfl ?_
        dsimp only
        split
        · rename_i after closing
          rw [closing]
          exact .read ⟨.mapping [] nofun, onward_closing '}' after (by decide) rfl rfl⟩
        · exact read_members_outcome fuel depth [] _ nofun
    · rename_i rest
      cases depth with
      | zero => exact no_room '[' rest false (by decide) rfl
      | succ depth =>
        refine outcome_opened '[' rest depth _ (by decide) rfl ?_
        dsimp only
        split
        · rename_i after closing
          rw [closing]
          exact .read ⟨.list [] nofun, onward_closing ']' after (by decide) rfl rfl⟩
        · exact read_items_outcome fuel depth [] _ nofun
    · exact read_scalar_outcome depth cs

theorem read_items_outcome (fuel depth : Nat) (done : List Value) (cs : List Char)
    (spelled : ∀ item ∈ done, Spelled item) :
    Outcome (Found 1 cs) depth cs (readItems fuel depth done cs) := by
  cases fuel with
  | zero => exact .refused _ _
  | succ fuel =>
    rw [readItems]
    have first := read_value_outcome fuel depth cs
    cases read : readValue fuel depth cs with
    | error e =>
      rw [read] at first
      exact first.failed
    | ok found =>
      rw [read] at first
      obtain ⟨value, rest⟩ := found
      cases first with
      | read good =>
        have next := good.onward.trans (skip_space_onward rest)
        have all : ∀ item ∈ value :: done, Spelled item :=
          List.forall_mem_cons.mpr ⟨good.spelled, spelled⟩
        dsimp only
        split
        · rename_i after closing
          rw [closing] at next
          refine .read ⟨.list _ fun item member => all item (List.mem_reverse.mp member), ?_⟩
          exact next.trans (onward_closing ']' after (by decide) rfl rfl)
        · rename_i after comma
          rw [comma] at next
          exact .after (next.trans (onward_past ',' after (by decide)))
            (read_items_outcome fuel depth _ _ all)
        · exact .refused _ _

theorem read_members_outcome (fuel depth : Nat) (done : List (Value × Value)) (cs : List Char)
    (spelled : ∀ entry ∈ done, Spelled entry.2) :
    Outcome (Found 1 cs) depth cs (readMembers fuel depth done cs) := by
  cases fuel with
  | zero => exact .refused _ _
  | succ fuel =>
    unfold readMembers
    dsimp only
    split
    · rename_i rest
      have string := read_string_outcome depth ('\x22' :: rest).length rest
      cases read : readString ('\x22' :: rest).length rest with
      | error e =>
        rw [read] at string
        exact string.failed
      | ok found =>
        rw [read] at string
        obtain ⟨name, afterName⟩ := found
        cases string with
        | read onward =>
          have named := onward.trans (skip_space_onward afterName)
          dsimp only
          split
          · rename_i beforeValue colon
            rw [colon] at named
            refine .after (named.trans (onward_past ':' beforeValue (by decide))) ?_
            have first := read_value_outcome fuel depth (skipSpace beforeValue)
            cases read : readValue fuel depth (skipSpace beforeValue) with
            | error e =>
              rw [read] at first
              exact first.failed
            | ok found =>
              rw [read] at first
              obtain ⟨value, rest⟩ := found
              cases first with
              | read good =>
                have next := good.onward.trans (skip_space_onward rest)
                have all := put_entry_spelled name value done good.spelled spelled
                dsimp only
                split
                · rename_i after closing
                  rw [closing] at next
                  exact .read ⟨.mapping _ all,
                    next.trans (onward_closing '}' after (by decide) rfl rfl)⟩
                · rename_i after comma
                  rw [comma] at next
                  exact .after (next.trans (onward_past ',' after (by decide)))
                    (read_members_outcome fuel depth _ _ all)
                · exact .refused _ _
          · exact .refused _ _
    · exact .refused _ _

end

theorem read_all_outcome (cs : List Char) (stack : Nat) :
    Outcome Spelled stack cs (readAll cs stack) := by
  have whole : Outcome (Found 0 cs) stack cs
      (readValue (2 * cs.length + 2) stack (skipSpace cs)) :=
    .after (skip_space_onward cs) (read_value_outcome _ stack _)
  unfold readAll
  cases read : readValue (2 * cs.length + 2) stack (skipSpace cs) with
  | error e =>
    rw [read] at whole
    exact whole.failed
  | ok found =>
    rw [read] at whole
    cases whole with
    | read good =>
      dsimp only
      cases skipSpace found.2 with
      | nil => exact .read good.spelled
      | cons c left => exact .refused _ _

theorem read_text_outcome (cs : List Char) (stack : Nat) :
    Outcome Spelled stack cs (readText cs stack) := by
  unfold readText
  split
  · split
    · exact .refused _ _
    · exact read_all_outcome _ stack
  · exact read_all_outcome _ stack

end TagRules.Json
