import TagRules.Numeric.FloatText

set_option autoImplicit false

namespace TagRules.Binary64

def Proper : Binary64 → Prop
  | .finite _ rank => rank < limit
  | _ => True

theorem proper_zero (negative : Bool) : (finite negative 0).Proper := by
  have positive : 0 < limit := by decide
  exact positive

theorem proper_or_infinite (negative : Bool) (rank : Nat) :
    (if rank < limit then finite negative rank else infinite negative).Proper := by
  split
  · assumption
  · trivial

theorem nearest_proper (x : Scientific) : (nearest x).Proper := by
  unfold nearest ofNormal
  split
  · exact proper_zero _
  · split
    · trivial
    · split
      · exact proper_zero _
      · exact proper_or_infinite _ _

theorem significand_bounded (rank : Nat) : significand rank < Nat.pow 2 53 := by
  have size : binade + binade = Nat.pow 2 53 := rfl
  rw [← size]
  unfold significand
  split
  · omega
  · have below : rank % binade < binade := Nat.mod_lt _ (by decide)
    omega

theorem scale_bounded (rank : Nat) (proper : rank < limit) : scale rank ≤ 971 := by
  unfold scale
  split
  · decide
  · have power : rank / binade < 2047 := Nat.div_lt_of_lt_mul (Nat.mul_comm 2047 binade ▸ proper)
    omega

theorem to_int_bounded (x : Binary64) (proper : x.Proper) (n : Int) (whole : x.toInt? = some n)
    (bits : Nat) (enough : 1024 ≤ bits) : n.natAbs < Nat.pow 2 bits := by
  cases x with
  | nan object => cases whole
  | infinite negative => cases whole
  | finite negative rank =>
    obtain ⟨signless, isWhole, rfl⟩ := Option.map_eq_some_iff.mp whole
    obtain ⟨magnitude, found, same⟩ := Option.bind_eq_some_iff.mp isWhole
    cases same
    have mantissa := significand_bounded rank
    have bound : magnitude < Nat.pow 2 bits := by
      split at found
      · cases found
        have power : 53 + (scale rank).toNat ≤ bits := by
          have top := scale_bounded rank proper
          omega
        calc significand rank * Nat.pow 2 (scale rank).toNat
            < Nat.pow 2 53 * Nat.pow 2 (scale rank).toNat :=
              Nat.mul_lt_mul_of_pos_right mantissa (Nat.two_pow_pos _)
          _ = Nat.pow 2 (53 + (scale rank).toNat) := (Nat.pow_add 2 53 _).symm
          _ ≤ Nat.pow 2 bits := Nat.pow_le_pow_right (by decide) power
      · split at found
        · cases found
          calc significand rank / Nat.pow 2 (-scale rank).toNat
              ≤ significand rank := Nat.div_le_self _ _
            _ < Nat.pow 2 53 := mantissa
            _ ≤ Nat.pow 2 bits := Nat.pow_le_pow_right (by decide) (by omega)
        · cases found
    cases negative with
    | false => exact bound
    | true =>
      rw [if_pos rfl, Int.natAbs_neg]
      exact bound

theorem to_int_short (x : Binary64) (proper : x.Proper) (n : Int) (whole : x.toInt? = some n)
    (digits : Nat) (enough : 1024 ≤ digits) : n.natAbs < Nat.pow 10 digits :=
  calc n.natAbs < Nat.pow 2 digits := to_int_bounded x proper n whole digits enough
    _ ≤ Nat.pow 10 digits := Nat.pow_le_pow_left (by decide) digits

end TagRules.Binary64
