/-!
A finite number is a sign and the rank of its magnitude among 0, 2⁻¹⁰⁷⁴, 2·2⁻¹⁰⁷⁴, …, which is what
the low 63 bits of the usual encoding count.
-/

set_option autoImplicit false

namespace TagRules

structure Scientific where
  negative : Bool
  coefficient : Nat
  exponent : Int
  deriving DecidableEq, Inhabited

namespace Scientific

def dropTens : Nat → Nat → Int → Nat × Int
  | 0, coefficient, exponent => (coefficient, exponent)
  | steps + 1, coefficient, exponent =>
      if coefficient % 10 = 0 then dropTens steps (coefficient / 10) (exponent + 1)
      else (coefficient, exponent)

-- The form whose coefficient is no multiple of ten; a coefficient `c` has at most `log₂ c` factors
-- of ten. Zero has exponent zero and keeps its sign.
def normal (x : Scientific) : Scientific :=
  if x.coefficient = 0 then ⟨x.negative, 0, 0⟩
  else
    let reduced := dropTens x.coefficient.log2 x.coefficient x.exponent
    ⟨x.negative, reduced.1, reduced.2⟩

def same (x y : Scientific) : Bool :=
  let a := x.normal
  let b := y.normal
  a.coefficient == b.coefficient && a.exponent == b.exponent &&
    (a.negative == b.negative || a.coefficient == 0)

def ofInt (n : Int) : Scientific := ⟨decide (n < 0), n.natAbs, 0⟩

def ofBinary (negative : Bool) (significand : Nat) (scale : Int) : Scientific :=
  if 0 ≤ scale then ⟨negative, significand * Nat.pow 2 scale.toNat, 0⟩
  else ⟨negative, significand * Nat.pow 5 (-scale).toNat, scale⟩

def truncate (x : Scientific) : Int :=
  let whole :=
    if 0 ≤ x.exponent then x.coefficient * Nat.pow 10 x.exponent.toNat
    else x.coefficient / Nat.pow 10 (-x.exponent).toNat
  if x.negative then -(whole : Int) else whole

end Scientific

inductive Binary64
  -- Arrays and mappings take a NaN as equal to its own object; `none` is an object met only once.
  | nan (object : Option Nat)
  | infinite (negative : Bool)
  | finite (negative : Bool) (rank : Nat)
  deriving DecidableEq, Inhabited

namespace Binary64

def binade : Nat := Nat.pow 2 52

def limit : Nat := 2047 * binade

def ofBits (bits : Nat) : Binary64 :=
  let negative := decide (Nat.pow 2 63 ≤ bits)
  let rank := bits % Nat.pow 2 63
  if rank < limit then .finite negative rank
  else if rank = limit then .infinite negative
  else .nan none

def toBits : Binary64 → Nat
  | .nan _ => 2047 * binade + Nat.pow 2 51
  | .infinite negative => (if negative then Nat.pow 2 63 else 0) + limit
  | .finite negative rank => (if negative then Nat.pow 2 63 else 0) + rank

def isSameNan : Binary64 → Binary64 → Bool
  | .nan (some object), .nan (some other) => object == other
  | _, _ => false

def significand (rank : Nat) : Nat :=
  if rank < binade then rank else binade + rank % binade

def scale (rank : Nat) : Int :=
  if rank < binade then -1074 else (rank / binade : Nat) - 1075

def exact (negative : Bool) (rank : Nat) : Scientific :=
  .ofBinary negative (significand rank) (scale rank)

def place (negative : Bool) (rank : Nat) : Int :=
  if negative then -(rank : Int) else rank

def roundHalfEven (n d : Nat) : Nat :=
  let q := n / d
  let r := n % d
  if 2 * r < d then q else if d < 2 * r then q + 1 else q + q % 2

def powerBelow (k : Int) (n d : Nat) : Bool :=
  if 0 ≤ k then decide (d * Nat.pow 2 k.toNat ≤ n) else decide (d ≤ n * Nat.pow 2 (-k).toNat)

-- The rank nearest to the positive quotient `n / d`, ties to even. Past the greatest finite
-- magnitude it goes on counting, so overflow is a rank of `limit` or more.
def nearestRank (n d : Nat) : Nat :=
  let guess : Int := (n.log2 : Int) - d.log2
  let top := if powerBelow guess n d then guess else guess - 1
  let last := max (top - 52) (-1074)
  let significand :=
    if 0 ≤ last then roundHalfEven n (d * Nat.pow 2 last.toNat)
    else roundHalfEven (n * Nat.pow 2 (-last).toNat) d
  (last + 1074).toNat * binade + significand

def ofNormal (x : Scientific) : Binary64 :=
  if x.coefficient = 0 then .finite x.negative 0
  else if 310 < x.exponent then .infinite x.negative
  else if (x.coefficient.log2 : Int) + 1 + 3 * x.exponent < -1080 ∧ x.exponent < 0 then
    .finite x.negative 0
  else
    let rank :=
      if 0 ≤ x.exponent then nearestRank (x.coefficient * Nat.pow 10 x.exponent.toNat) 1
      else nearestRank x.coefficient (Nat.pow 10 (-x.exponent).toNat)
    if rank < limit then .finite x.negative rank else .infinite x.negative

def nearest (x : Scientific) : Binary64 := ofNormal x.normal

end Binary64

end TagRules
