import TagRules.Text.Case

/-!
Only a capital sigma looks at the characters around it, so a part of a text reads in lower case as it
does by itself unless a sigma of it is severed.
-/

set_option autoImplicit false

namespace TagRules.Text

-- A part of a text in lower case. `before` holds the characters in front of it, last one first, and
-- `after` the ones behind it.
def lowerBetween (before after : List Char) : List Char → List Char
  | [] => []
  | c :: rest =>
      if c.toNat = 0x3A3 then
        lowerSigma before (rest ++ after) :: lowerBetween (c :: before) after rest
      else lowerChar c ++ lowerBetween (c :: before) after rest

theorem lower_after_append (before xs ys : List Char) :
    lowerAfter before (xs ++ ys) = lowerBetween before ys xs ++ lowerAfter (xs.reverse ++ before) ys := by
  induction xs generalizing before with
  | nil => rfl
  | cons c rest ih =>
    by_cases sigma : c.toNat = 0x3A3 <;> simp [lowerAfter, lowerBetween, sigma, ih]

theorem lower_between_alone (before xs : List Char) : lowerBetween before [] xs = lowerAfter before xs := by
  have split := lower_after_append before xs []
  rw [List.append_nil, lowerAfter, List.append_nil] at split
  exact split.symm

theorem lower_chars_around (before part after : List Char) :
    lowerChars (before ++ part ++ after) = lowerBetween [] (part ++ after) before ++
      lowerBetween before.reverse after part ++ lowerAfter (part.reverse ++ before.reverse) after := by
  rw [lowerChars, List.append_assoc, lower_after_append, lower_after_append, List.append_nil,
    List.append_assoc]

theorem lower_between_append (before after xs ys : List Char) :
    lowerBetween before after (xs ++ ys) =
      lowerBetween before (ys ++ after) xs ++ lowerBetween (xs.reverse ++ before) after ys := by
  induction xs generalizing before with
  | nil => rfl
  | cons c rest ih =>
    by_cases sigma : c.toNat = 0x3A3 <;> simp [lowerBetween, sigma, ih]

theorem starts_cased_append (xs ys : List Char) :
    startsCased (xs ++ ys) = if xs.all isCaseIgnorable then startsCased ys else startsCased xs := by
  induction xs with
  | nil => rfl
  | cons c rest ih => by_cases ignorable : isCaseIgnorable c = true <;> simp [startsCased, ignorable, ih]

theorem ignorable_starts_nothing (xs : List Char) (ignorable : xs.all isCaseIgnorable = true) :
    startsCased xs = false := by
  have split := starts_cased_append xs []
  rwa [List.append_nil, if_pos ignorable] at split

def endsWord (before after : List Char) : Bool := startsCased before && !startsCased after

theorem lower_sigma_final_iff (before after : List Char) :
    lowerSigma before after = Char.ofNat 0x3C2 ↔ endsWord before after = true := by
  have apart : Char.ofNat 0x3C3 ≠ Char.ofNat 0x3C2 := by decide
  rw [lowerSigma, ← endsWord]
  cases endsWord before after <;> simp [apart]

theorem lower_sigma_small_iff (before after : List Char) :
    lowerSigma before after = Char.ofNat 0x3C3 ↔ endsWord before after = false := by
  have apart : Char.ofNat 0x3C2 ≠ Char.ofNat 0x3C3 := by decide
  rw [lowerSigma, ← endsWord]
  cases endsWord before after <;> simp [apart]

-- A capital sigma of a part that stands elsewhere in its word than the part by itself lets appear.
inductive Severed (before part after : List Char) : Prop
  | last {left right : List Char} {sigma : Char} (isSigma : sigma.toNat = 0x3A3)
      (split : part = left ++ sigma :: right) (inWord : startsCased left.reverse = true)
      (passed : right.all isCaseIgnorable = true) (goesOn : startsCased after = true) :
      Severed before part after
  | first {left right : List Char} {sigma : Char} (isSigma : sigma.toNat = 0x3A3)
      (split : part = left ++ sigma :: right) (passed : left.all isCaseIgnorable = true)
      (begun : startsCased before.reverse = true) (ended : startsCased (right ++ after) = false) :
      Severed before part after

theorem Severed.meets_word {before part after : List Char} (severed : Severed before part after) :
    startsCased before.reverse = true ∨ startsCased after = true := by
  cases severed with
  | last _ _ _ _ goesOn => exact .inr goesOn
  | first _ _ _ begun => exact .inl begun

theorem severed_of_turned {before part after left right : List Char} {sigma : Char}
    (isSigma : sigma.toNat = 0x3A3) (split : part = left ++ sigma :: right)
    (turned : endsWord (left.reverse ++ before.reverse) (right ++ after) ≠ endsWord left.reverse right) :
    Severed before part after := by
  simp only [endsWord, starts_cased_append, List.all_reverse] at turned
  by_cases leftPassed : left.all isCaseIgnorable = true
  · have nothing := ignorable_starts_nothing left.reverse (by rwa [List.all_reverse])
    rw [if_pos leftPassed, nothing, Bool.false_and, ← starts_cased_append] at turned
    obtain ⟨begun, ended⟩ := Bool.and_eq_true_iff.mp (Bool.ne_false_iff.mp turned)
    exact .first isSigma split leftPassed begun (by simpa using ended)
  · rw [if_neg leftPassed] at turned
    by_cases rightPassed : right.all isCaseIgnorable = true
    · have nothing := ignorable_starts_nothing right rightPassed
      rw [if_pos rightPassed, nothing] at turned
      cases inWord : startsCased left.reverse <;> cases goesOn : startsCased after <;>
        simp [inWord, goesOn] at turned
      exact .last isSigma split inWord rightPassed goesOn
    · rw [if_neg rightPassed] at turned
      exact absurd rfl turned

-- By induction on the rest of the part; what was passed of it stands in front of the rest in both texts.
theorem lower_between_unsevered (before part after : List Char)
    (unsevered : ¬ Severed before part after) :
    lowerBetween before.reverse after part = lowerChars part := by
  have onward : ∀ left rest, part = left ++ rest →
      lowerBetween (left.reverse ++ before.reverse) after rest = lowerAfter left.reverse rest := by
    intro left rest split
    induction rest generalizing left with
    | nil => rfl
    | cons c rest ih =>
      have later := ih (left ++ [c]) (by simp [split])
      simp only [List.reverse_append, List.reverse_cons, List.reverse_nil, List.nil_append,
        List.cons_append] at later
      by_cases sigma : c.toNat = 0x3A3
      · have placed : endsWord (left.reverse ++ before.reverse) (rest ++ after) =
            endsWord left.reverse rest :=
          Decidable.not_not.mp fun turned => unsevered (severed_of_turned sigma split turned)
        have same : lowerSigma (left.reverse ++ before.reverse) (rest ++ after) =
            lowerSigma left.reverse rest := by
          rw [lowerSigma, lowerSigma, ← endsWord, ← endsWord, placed]
        rw [lowerBetween, lowerAfter, if_pos sigma, if_pos sigma, later, same]
      · rw [lowerBetween, lowerAfter, if_neg sigma, if_neg sigma, later]
  exact onward [] part rfl

theorem count_lower_between (mark : Char) (before after others next : List Char)
    (keeps : ∀ left right, lowerSigma (left ++ others) (right ++ next) = mark →
      lowerSigma (left ++ before) (right ++ after) = mark) (part : List Char) :
    (lowerBetween others next part).count mark ≤ (lowerBetween before after part).count mark := by
  induction part generalizing before others with
  | nil => exact Nat.le_refl 0
  | cons c rest ih =>
    have later := ih (c :: before) (c :: others) fun left right => by
      simpa using keeps (left ++ [c]) right
    by_cases sigma : c.toNat = 0x3A3
    · have here : lowerSigma others (rest ++ next) = mark → lowerSigma before (rest ++ after) = mark :=
        keeps [] rest
      simp only [lowerBetween, if_pos sigma, List.count_cons, beq_iff_eq]
      by_cases got : lowerSigma others (rest ++ next) = mark
      · rw [if_pos got, if_pos (here got)]
        omega
      · rw [if_neg got]
        omega
    · simp only [lowerBetween, if_neg sigma, List.count_append]
      omega

theorem count_turned (mark : Char) (before after others next : List Char)
    (keeps : ∀ left right, lowerSigma (left ++ others) (right ++ next) = mark →
      lowerSigma (left ++ before) (right ++ after) = mark)
    (left right : List Char) (sigma : Char) (isSigma : sigma.toNat = 0x3A3)
    (got : lowerSigma (left.reverse ++ before) (right ++ after) = mark)
    (lost : lowerSigma (left.reverse ++ others) (right ++ next) ≠ mark) :
    (lowerBetween others next (left ++ sigma :: right)).count mark <
      (lowerBetween before after (left ++ sigma :: right)).count mark := by
  have inFront := count_lower_between mark before (sigma :: right ++ after) others
    (sigma :: right ++ next) (fun l r => by simpa using keeps l (r ++ sigma :: right)) left
  have behind := count_lower_between mark (sigma :: (left.reverse ++ before)) after
    (sigma :: (left.reverse ++ others)) next
    (fun l r => by simpa using keeps (l ++ sigma :: left.reverse) r) right
  rw [lower_between_append, lower_between_append, lowerBetween, lowerBetween, if_pos isSigma,
    if_pos isSigma, List.count_append, List.count_append, List.count_cons, List.count_cons,
    if_pos (beq_iff_eq.mpr got), if_neg (fun same => lost (beq_iff_eq.mp same))]
  omega

theorem ends_word_before_letter (before after next : List Char) (cased : startsCased next = true)
    (ends : endsWord before (after ++ next) = true) : endsWord before after = true := by
  rw [endsWord, starts_cased_append after, cased] at ends
  by_cases ignorable : after.all isCaseIgnorable = true
  · simp [ignorable] at ends
  · rwa [if_neg ignorable] at ends

theorem ends_word_after_letter (before others after : List Char) (cased : startsCased others = true)
    (ends : endsWord before after = true) : endsWord (before ++ others) after = true := by
  rw [endsWord, starts_cased_append before, cased]
  by_cases ignorable : before.all isCaseIgnorable = true
  · rw [endsWord, ignorable_starts_nothing before ignorable] at ends
    cases ends
  · rwa [if_neg ignorable]

theorem hidden_of_fewer (mark : Char) (others part next : List Char)
    (inFront : mark ∉ lowerBetween [] (part ++ next) others)
    (behind : mark ∉ lowerAfter (part.reverse ++ others.reverse) next)
    (fewer : (lowerBetween others.reverse next part).count mark <
      (lowerBetween [] [] part).count mark) :
    ¬ lowerChars part <:+: lowerChars (others ++ part ++ next) := by
  intro found
  have bounded := found.sublist.count_le mark
  rw [lower_chars_around, List.count_append, List.count_append, List.count_eq_zero.mpr inFront,
    List.count_eq_zero.mpr behind, lowerChars, ← lower_between_alone] at bounded
  omega

-- A letter behind a part that ends with a severed sigma, or in front of one that starts with it, takes
-- the mark of that sigma and gives it to no other.
theorem severed_hidden {before part after : List Char} (severed : Severed before part after) :
    ∃ others next, ¬ lowerChars part <:+: lowerChars (others ++ part ++ next) := by
  have letter : lowerChar 'a' = ['a'] := by decide
  have cased : startsCased ['a'] = true := by decide
  cases severed with
  | @last left right sigma isSigma split inWord passed goesOn =>
    have keeps : ∀ l r, lowerSigma (l ++ []) (r ++ ['a']) = Char.ofNat 0x3C2 →
        lowerSigma (l ++ []) (r ++ []) = Char.ofNat 0x3C2 := by
      intro l r
      simpa only [lower_sigma_final_iff, List.append_nil] using ends_word_before_letter l r ['a'] cased
    have alone : lowerSigma (left.reverse ++ []) (right ++ []) = Char.ofNat 0x3C2 := by
      rw [lower_sigma_final_iff, endsWord, List.append_nil, List.append_nil, inWord,
        ignorable_starts_nothing right passed]
      rfl
    have inWhole : lowerSigma (left.reverse ++ []) (right ++ ['a']) ≠ Char.ofNat 0x3C2 := by
      rw [ne_eq, lower_sigma_final_iff, endsWord, starts_cased_append right, if_pos passed, cased]
      simp
    have fewer := count_turned _ [] [] [] ['a'] keeps left right sigma isSigma alone inWhole
    rw [← split] at fewer
    refine ⟨[], ['a'], hidden_of_fewer (Char.ofNat 0x3C2) [] part ['a'] List.not_mem_nil ?_ fewer⟩
    simp [lowerAfter, letter]
  | @first left right sigma isSigma split passed begun ended =>
    have nothing : startsCased right = false := by
      rw [starts_cased_append] at ended
      by_cases ignorable : right.all isCaseIgnorable = true
      · exact ignorable_starts_nothing right ignorable
      · rwa [if_neg ignorable] at ended
    have reversed : left.reverse.all isCaseIgnorable = true := by rwa [List.all_reverse]
    have keeps : ∀ l r, lowerSigma (l ++ ['a']) (r ++ []) = Char.ofNat 0x3C3 →
        lowerSigma (l ++ []) (r ++ []) = Char.ofNat 0x3C3 := by
      intro l r
      simp only [lower_sigma_small_iff, List.append_nil, ← Bool.not_eq_true]
      exact mt (ends_word_after_letter l ['a'] r cased)
    have alone : lowerSigma (left.reverse ++ []) (right ++ []) = Char.ofNat 0x3C3 := by
      rw [lower_sigma_small_iff, endsWord, List.append_nil, List.append_nil,
        ignorable_starts_nothing _ reversed]
      rfl
    have inWhole : lowerSigma (left.reverse ++ ['a']) (right ++ []) ≠ Char.ofNat 0x3C3 := by
      rw [ne_eq, lower_sigma_small_iff, endsWord, starts_cased_append, if_pos reversed, cased,
        List.append_nil, nothing]
      simp
    have fewer := count_turned _ [] [] ['a'] [] keeps left right sigma isSigma alone inWhole
    rw [← split] at fewer
    refine ⟨['a'], [], hidden_of_fewer (Char.ofNat 0x3C3) ['a'] part [] ?_ List.not_mem_nil fewer⟩
    simp [lowerBetween, letter]

end TagRules.Text
