import TagRules.Numeric.Number
import TagRules.Proofs.Numeric.FloatRange

/-! Magnitudes are counted in units of 2⁻¹⁰⁷⁵, as for the shortest decimals. -/

set_option autoImplicit false

namespace TagRules

namespace Scientific

theorem drop_tens_value (steps coefficient : Nat) (exponent : Int) :
    ∃ dropped : Nat, (dropTens steps coefficient exponent).2 = exponent + dropped ∧
      (dropTens steps coefficient exponent).1 * Nat.pow 10 dropped = coefficient := by
  induction steps generalizing coefficient exponent with
  | zero => exact ⟨0, (Int.add_zero exponent).symm, Nat.mul_one coefficient⟩
  | succ steps ih =>
    rw [dropTens]
    by_cases whole : coefficient % 10 = 0
    · obtain ⟨dropped, shifted, value⟩ := ih (coefficient / 10) (exponent + 1)
      rw [if_pos whole]
      refine ⟨dropped + 1, by omega, ?_⟩
      calc _ * (Nat.pow 10 dropped * 10) = coefficient / 10 * 10 := by rw [← Nat.mul_assoc, value]
        _ = coefficient := Nat.div_mul_cancel (Nat.dvd_of_mod_eq_zero whole)
    · rw [if_neg whole]
      exact ⟨0, (Int.add_zero exponent).symm, Nat.mul_one coefficient⟩

end Scientific

namespace Binary64

theorem round_half_even_scaled (n d factor : Nat) (positive : 0 < factor) :
    roundHalfEven (n * factor) (d * factor) = roundHalfEven n d := by
  have left : ∀ r, 2 * (r * factor) < d * factor ↔ 2 * r < d := fun r => by
    rw [← Nat.mul_assoc]
    exact Nat.mul_lt_mul_right positive
  have right : ∀ r, d * factor < 2 * (r * factor) ↔ d < 2 * r := fun r => by
    rw [← Nat.mul_assoc]
    exact Nat.mul_lt_mul_right positive
  simp only [roundHalfEven, Nat.mul_div_mul_right n d positive, Nat.mul_mod_mul_right, left, right]

theorem round_half_even_cases (n d : Nat) :
    (roundHalfEven n d = n / d ∧ (2 * (n % d) < d ∨ 2 * (n % d) = d ∧ n / d % 2 = 0)) ∨
      (roundHalfEven n d = n / d + 1 ∧ (d < 2 * (n % d) ∨ 2 * (n % d) = d ∧ n / d % 2 = 1)) := by
  unfold roundHalfEven
  dsimp only
  split
  · exact .inl ⟨rfl, .inl ‹_›⟩
  · split
    · exact .inr ⟨rfl, .inl ‹_›⟩
    · omega

theorem round_half_even_nearest (n d other : Nat) (positive : 0 < d) :
    ((n : Int) - (roundHalfEven n d * d : Nat)).natAbs ≤ ((n : Int) - (other * d : Nat)).natAbs := by
  have parts := Nat.div_add_mod n d
  have small := Nat.mod_lt n positive
  have around : other * d ≤ n / d * d ∨ (n / d + 1) * d ≤ other * d := by
    rcases Nat.lt_or_ge (n / d) other with above | below
    · exact .inr (Nat.mul_le_mul_right d above)
    · exact .inl (Nat.mul_le_mul_right d below)
  have next : (n / d + 1) * d = n / d * d + d := Nat.succ_mul _ _
  rw [Nat.mul_comm] at parts
  generalize other * d = given at *
  rcases round_half_even_cases n d with ⟨down, _⟩ | ⟨up, _⟩
  · rw [down]
    omega
  · rw [up, next]
    omega

-- A half just below an even multiple goes up to it.
theorem round_half_even_lt_iff (n d bound : Nat) (positive : 0 < d) :
    roundHalfEven n d < 2 * bound ↔ 2 * n + d < 4 * bound * d := by
  have parts := Nat.div_add_mod n d
  have small := Nat.mod_lt n positive
  have rounded := round_half_even_cases n d
  have doubled : 4 * bound * d = 2 * (2 * bound * d) := by
    rw [← Nat.mul_assoc, ← Nat.mul_assoc]
  rw [Nat.mul_comm] at parts
  rcases Nat.lt_trichotomy (n / d + 1) (2 * bound) with below | last | above
  · have room : (n / d + 2) * d ≤ 2 * bound * d := Nat.mul_le_mul_right d below
    have next : (n / d + 2) * d = n / d * d + 2 * d := Nat.add_mul _ _ _
    omega
  · have room : 2 * bound * d = n / d * d + d := by rw [← last, Nat.succ_mul]
    omega
  · have room : 2 * bound * d ≤ n / d * d := Nat.mul_le_mul_right d (by omega)
    omega

theorem round_half_even_between (n d low high : Nat) (positive : 0 < d) (least : low * d ≤ n)
    (most : n < high * d) : low ≤ roundHalfEven n d ∧ roundHalfEven n d ≤ high := by
  have lower : low ≤ n / d := (Nat.le_div_iff_mul_le positive).mpr least
  have upper : n / d < high := (Nat.div_lt_iff_lt_mul positive).mpr most
  have rounded := round_half_even_cases n d
  omega

theorem rounded_in_units (m power unit : Nat) (fine : 52 ≤ unit) :
    (if 0 ≤ (power : Int) - 52 then roundHalfEven m (1 * Nat.pow 2 ((power : Int) - 52).toNat)
      else roundHalfEven (m * Nat.pow 2 (-((power : Int) - 52)).toNat) 1) =
      roundHalfEven (m * Nat.pow 2 unit) (Nat.pow 2 (power + unit - 52)) := by
  by_cases coarse : (0 : Int) ≤ (power : Int) - 52
  · have step : Nat.pow 2 (power + unit - 52) =
        1 * Nat.pow 2 ((power : Int) - 52).toNat * Nat.pow 2 unit := by
      rw [Nat.one_mul]
      exact (congrArg (Nat.pow 2) (by omega)).trans (Nat.pow_add 2 _ unit)
    rw [if_pos coarse, step,
      round_half_even_scaled m _ (Nat.pow 2 unit) (Nat.two_pow_pos unit)]
  · have finer : Nat.pow 2 unit =
        Nat.pow 2 (-((power : Int) - 52)).toNat * Nat.pow 2 (power + unit - 52) :=
      (congrArg (Nat.pow 2) (by omega)).trans (Nat.pow_add 2 _ _)
    have scaled := round_half_even_scaled (m * Nat.pow 2 (-((power : Int) - 52)).toNat) 1
      (Nat.pow 2 (power + unit - 52)) (Nat.two_pow_pos _)
    rw [if_neg coarse, finer, ← Nat.mul_assoc, ← scaled, Nat.one_mul]

-- The rank of an integer counts the binades below its own, and then the steps of its own binade.
theorem nearest_rank_integer (m unit : Nat) (fine : 52 ≤ unit) (positive : m ≠ 0) :
    nearestRank m 1 = (m.log2 + 1022) * binade +
      roundHalfEven (m * Nat.pow 2 unit) (Nat.pow 2 (m.log2 + unit - 52)) := by
  have least := Nat.log2_self_le positive
  have reached : powerBelow (m.log2 : Int) m 1 = true := by
    rw [powerBelow, if_pos (Int.natCast_nonneg _), Int.toNat_natCast, Nat.one_mul]
    exact decide_eq_true least
  have one : Nat.log2 1 = 0 := rfl
  have last : max ((m.log2 : Int) - 52) (-1074) = (m.log2 : Int) - 52 := by omega
  have binades : ((m.log2 : Int) - 52 + 1074).toNat = m.log2 + 1022 := by omega
  simp only [nearestRank, one, Int.natCast_zero, Int.sub_zero, reached, if_true, last, binades]
  rw [rounded_in_units m m.log2 unit fine]

theorem integer_in_binade (m unit : Nat) (fine : 52 ≤ unit) (positive : m ≠ 0) :
    binade * Nat.pow 2 (m.log2 + unit - 52) ≤ m * Nat.pow 2 unit ∧
      m * Nat.pow 2 unit < 2 * binade * Nat.pow 2 (m.log2 + unit - 52) := by
  have start : Nat.pow 2 (m.log2 + unit) = binade * Nat.pow 2 (m.log2 + unit - 52) :=
    (congrArg (Nat.pow 2) (by omega)).trans (Nat.pow_add 2 52 _)
  constructor
  · calc binade * Nat.pow 2 (m.log2 + unit - 52) = Nat.pow 2 (m.log2 + unit) := start.symm
      _ = Nat.pow 2 m.log2 * Nat.pow 2 unit := Nat.pow_add 2 _ _
      _ ≤ m * Nat.pow 2 unit := Nat.mul_le_mul_right _ (Nat.log2_self_le positive)
  · calc m * Nat.pow 2 unit < Nat.pow 2 (m.log2 + 1) * Nat.pow 2 unit :=
        Nat.mul_lt_mul_of_pos_right Nat.lt_log2_self (Nat.two_pow_pos _)
      _ = 2 * Nat.pow 2 (m.log2 + unit) := by
        change Nat.pow 2 m.log2 * 2 * Nat.pow 2 unit = _
        rw [Nat.mul_comm _ 2, Nat.mul_assoc]
        exact congrArg (2 * ·) (Nat.pow_add 2 _ _).symm
      _ = 2 * binade * Nat.pow 2 (m.log2 + unit - 52) := by rw [start, Nat.mul_assoc]

theorem integer_steps (m unit : Nat) (fine : 52 ≤ unit) (positive : m ≠ 0) :
    let steps := roundHalfEven (m * Nat.pow 2 unit) (Nat.pow 2 (m.log2 + unit - 52))
    binade ≤ steps ∧ steps ≤ 2 * binade := by
  obtain ⟨least, most⟩ := integer_in_binade m unit fine positive
  exact round_half_even_between _ _ _ _ (Nat.two_pow_pos _) least most

theorem units_in_binade (power steps : Nat) (least : binade ≤ steps) (most : steps ≤ 2 * binade) :
    units (power * binade + steps) = steps * Nat.pow 2 (power + 1) := by
  have positive : 0 < binade := by decide
  have normal : ¬ power * binade + steps < binade := by omega
  have binades : (power * binade + steps) / binade = power + steps / binade := by
    rw [Nat.add_comm, Nat.add_mul_div_right _ _ positive, Nat.add_comm]
  have within : (power * binade + steps) % binade = steps % binade := by
    rw [Nat.add_comm, Nat.add_mul_mod_self_right]
  rw [units, significand, scale, if_neg normal, if_neg normal, binades, within]
  rcases Nat.lt_or_eq_of_le most with below | atEnd
  · have one : steps / binade = 1 := Nat.div_eq_of_lt_le (by omega) (by omega)
    have rest : binade + steps % binade = steps := by
      rw [Nat.mod_eq_sub_mul_div, one]
      omega
    rw [one, rest]
    congr 2
    omega
  · have two : steps / binade = 2 := by rw [atEnd, Nat.mul_div_cancel _ positive]
    have none : steps % binade = 0 := by rw [atEnd, Nat.mul_mod_left]
    rw [two, none, atEnd, Nat.add_zero, Nat.mul_comm 2 binade, Nat.mul_assoc]
    congr 1
    exact (congrArg (Nat.pow 2) (by omega)).trans (Nat.pow_add 2 1 _)

theorem units_on_grid (rank power : Nat) :
    (∃ steps, units rank = steps * Nat.pow 2 power) ∨ units rank ≤ binade * Nat.pow 2 power := by
  rw [units]
  rcases Nat.lt_or_ge (scale rank + 1075).toNat power with finer | coarser
  · refine .inr ?_
    calc significand rank * Nat.pow 2 (scale rank + 1075).toNat
        ≤ Nat.pow 2 53 * Nat.pow 2 (scale rank + 1075).toNat :=
          Nat.mul_le_mul_right _ (Nat.le_of_lt (significand_bounded rank))
      _ = binade * Nat.pow 2 ((scale rank + 1075).toNat + 1) := by
        rw [show Nat.pow 2 53 = binade * 2 from rfl, Nat.mul_assoc, Nat.mul_comm 2]
        rfl
      _ ≤ binade * Nat.pow 2 power :=
        Nat.mul_le_mul_left _ (Nat.pow_le_pow_right (by decide) finer)
  · refine .inl ⟨significand rank * Nat.pow 2 ((scale rank + 1075).toNat - power), ?_⟩
    rw [Nat.mul_assoc]
    congr 1
    exact (congrArg (Nat.pow 2) (by omega)).trans (Nat.pow_add 2 _ power)

theorem nearest_rank_nearest (m unit other : Nat) (is : unit = 1075) (positive : m ≠ 0) :
    ((m * Nat.pow 2 unit : Nat) - (units (nearestRank m 1) : Int)).natAbs ≤
      ((m * Nat.pow 2 unit : Nat) - (units other : Int)).natAbs := by
  have fine : 52 ≤ unit := by omega
  obtain ⟨least, most⟩ := integer_steps m unit fine positive
  obtain ⟨start, _⟩ := integer_in_binade m unit fine positive
  have step : m.log2 + 1022 + 1 = m.log2 + unit - 52 := by omega
  rw [nearest_rank_integer m unit fine positive, units_in_binade _ _ least most, step]
  have nearer := fun multiple => round_half_even_nearest (m * Nat.pow 2 unit)
    (Nat.pow 2 (m.log2 + unit - 52)) multiple (Nat.two_pow_pos _)
  rcases units_on_grid other (m.log2 + unit - 52) with ⟨steps, onGrid⟩ | before
  · rw [onGrid]
    exact nearer steps
  -- A magnitude before the binade is no nearer than the start of the binade.
  · have atStart := nearer binade
    omega

-- The bound lies in the middle of the last step, between `2 ^ (power + 54)` and the number before it.
theorem nearest_rank_lt_limit_iff (m power : Nat) (is : power = 970) (positive : m ≠ 0) :
    nearestRank m 1 < limit ↔ m < Nat.pow 2 (power + 54) - Nat.pow 2 power := by
  obtain ⟨least, most⟩ := integer_steps m 52 (Nat.le_refl 52) positive
  have lower : Nat.pow 2 m.log2 ≤ m := Nat.log2_self_le positive
  have upper : m < Nat.pow 2 (m.log2 + 1) := Nat.lt_log2_self
  have rank := nearest_rank_integer m 52 (Nat.le_refl 52) positive
  have unit : 0 < Nat.pow 2 power := Nat.two_pow_pos power
  have top : Nat.pow 2 (power + 53) = Nat.pow 2 power * 9007199254740992 := Nat.pow_add 2 power 53
  have past : Nat.pow 2 (power + 54) = Nat.pow 2 power * 18014398509481984 := Nat.pow_add 2 power 54
  have half : Nat.pow 2 52 = 4503599627370496 := rfl
  have size : binade = 4503599627370496 := rfl
  rw [Nat.add_sub_cancel] at least most rank
  rw [rank, limit, past]
  rcases Nat.lt_trichotomy m.log2 (power + 53) with small | atTop | large
  · have bound : Nat.pow 2 (m.log2 + 1) ≤ Nat.pow 2 (power + 53) :=
      Nat.pow_le_pow_right (by decide) small
    have binades : (m.log2 + 1022) * binade ≤ 2044 * binade := Nat.mul_le_mul_right _ (by omega)
    rw [top] at bound
    omega
  · have steps := round_half_even_lt_iff (m * Nat.pow 2 52) (Nat.pow 2 m.log2) binade
      (Nat.two_pow_pos _)
    have binades : power + 53 + 1022 = 2045 := by omega
    rw [atTop, top, half, size] at steps
    rw [atTop, top, half, size, binades]
    omega
  · have bound : Nat.pow 2 (power + 54) ≤ Nat.pow 2 m.log2 := Nat.pow_le_pow_right (by decide) large
    have binades : 2046 * binade ≤ (m.log2 + 1022) * binade := Nat.mul_le_mul_right _ (by omega)
    rw [past] at bound
    omega

def overflow : Nat := Nat.pow 2 1024 - Nat.pow 2 970

def distance (m rank : Nat) : Nat := ((m * Nat.pow 2 1075 : Nat) - (units rank : Int)).natAbs

-- How an integer is rounded: to an infinity from the overflow on, and else to a nearest number.
inductive Rounded (n : Int) : Binary64 → Prop
  | past (large : overflow ≤ n.natAbs) : Rounded n (.infinite (decide (n < 0)))
  | within (rank : Nat) (small : n.natAbs < overflow)
      (nearest : ∀ other, distance n.natAbs rank ≤ distance n.natAbs other) :
      Rounded n (.finite (decide (n < 0)) rank)

theorem nearest_rank_closest (m other : Nat) (positive : m ≠ 0) :
    distance m (nearestRank m 1) ≤ distance m other := by
  obtain ⟨unit, is⟩ : ∃ unit, unit = 1075 := ⟨_, rfl⟩
  rw [distance, distance, ← is]
  exact nearest_rank_nearest m unit other is positive

theorem overflow_short (digits : Nat) (many : 311 ≤ digits) : overflow ≤ Nat.pow 10 digits := by
  obtain ⟨least, is⟩ : ∃ least, least = 311 := ⟨_, rfl⟩
  have enough : overflow ≤ Nat.pow 10 least := by
    subst is
    decide +kernel
  exact Nat.le_trans enough (Nat.pow_le_pow_right (by decide) (is ▸ many))

theorem nearest_rank_finite_iff (m : Nat) (positive : m ≠ 0) :
    nearestRank m 1 < limit ↔ m < overflow := by
  obtain ⟨power, is⟩ : ∃ power, power = 970 := ⟨_, rfl⟩
  have same : overflow = Nat.pow 2 (power + 54) - Nat.pow 2 power := by
    subst is
    decide +kernel
  rw [same]
  exact nearest_rank_lt_limit_iff m power is positive

theorem rounded_zero : Rounded 0 (.finite false 0) := by
  have here : distance 0 0 = 0 := by decide +kernel
  refine .within 0 (by decide +kernel) fun other => ?_
  rw [Int.natAbs_zero, here]
  exact Nat.zero_le _

theorem rounded_normal (n : Int) (coefficient dropped : Nat) (positive : n.natAbs ≠ 0)
    (value : coefficient * Nat.pow 10 dropped = n.natAbs) :
    Rounded n (ofNormal ⟨decide (n < 0), coefficient, (dropped : Int)⟩) := by
  have present : coefficient ≠ 0 := by
    rintro rfl
    exact positive ((Nat.zero_mul _).symm.trans value).symm
  unfold ofNormal
  rw [if_neg present]
  by_cases far : (310 : Int) < dropped
  · rw [if_pos far]
    refine .past ?_
    calc overflow ≤ Nat.pow 10 dropped := overflow_short dropped (by omega)
      _ ≤ coefficient * Nat.pow 10 dropped := Nat.le_mul_of_pos_left _ (Nat.pos_of_ne_zero present)
      _ = n.natAbs := value
  · have notTiny : ¬ ((coefficient.log2 : Int) + 1 + 3 * dropped < -1080 ∧ (dropped : Int) < 0) := by
      omega
    have whole : (0 : Int) ≤ dropped := Int.natCast_nonneg dropped
    simp only [if_neg far, if_neg notTiny, if_pos whole, Int.toNat_natCast, value]
    have fits := nearest_rank_finite_iff n.natAbs positive
    by_cases inRange : nearestRank n.natAbs 1 < limit
    · rw [if_pos inRange]
      exact .within _ (fits.mp inRange) fun other => nearest_rank_closest n.natAbs other positive
    · rw [if_neg inRange]
      exact .past (Nat.not_lt.mp fun small => inRange (fits.mpr small))

theorem nearest_of_int (n : Int) : Rounded n (nearest (.ofInt n)) := by
  by_cases zero : n = 0
  · subst zero
    exact rounded_zero
  · have positive : n.natAbs ≠ 0 := Int.natAbs_ne_zero.mpr zero
    obtain ⟨dropped, exponent, value⟩ := Scientific.drop_tens_value n.natAbs.log2 n.natAbs 0
    have form : (Scientific.ofInt n).normal =
        ⟨decide (n < 0), (Scientific.dropTens n.natAbs.log2 n.natAbs 0).1, (dropped : Int)⟩ := by
      rw [← Int.zero_add (dropped : Int), ← exponent]
      exact if_neg positive
    rw [nearest, form]
    exact rounded_normal n _ dropped positive value

end Binary64

end TagRules
