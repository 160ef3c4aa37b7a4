/-!
# Binary floating-point numbers of 64 bits

Numbers are kept as a sign, a significand and a power of two, and every operation is exact
integer arithmetic followed by one rounding to nearest, ties to even (`Binary64.ofRatio`). A
finite number is *normal* here when its significand has 53 bits, or fewer at the least exponent
`-1074`; `ofRatio` and `ofBits` return no other ones.
-/

namespace BlockScript

/-- A floating-point number with 53 bits of precision. -/
inductive Binary64 where
  /-- The number `significand * 2 ^ exponent`, negated or not. -/
  | finite (negative : Bool) (significand : Nat) (exponent : Int)
  /-- An infinity. -/
  | infinite (negative : Bool)
  /-- The result of an operation that has none. -/
  | nan
deriving DecidableEq, Repr

namespace Binary64

/-! ### Rounding -/

/-- The power of two that a positive ratio is measured in: the one that leaves 53 bits before
the point, or the least one. -/
def unitOf (num den : Nat) : Int :=
  let low : Int := (num.log2 : Int) - (den.log2 : Int) - 53
  let fits : Bool :=
    if 0 ≤ low then num < den * Nat.pow 2 53 * Nat.pow 2 low.toNat
    else num * Nat.pow 2 (-low).toNat < den * Nat.pow 2 53
  max (if fits then low else low + 1) (-1074)

/-- A ratio rounded to an integer, ties to even. -/
def roundEven (num den : Nat) : Nat :=
  let q := num / den
  let r := num % den
  if 2 * r > den || (2 * r == den && q % 2 == 1) then q + 1 else q

/-- The number nearest to `num / den`, ties to even; past the largest number it is infinite. -/
def ofRatio (negative : Bool) (num den : Nat) : Binary64 :=
  if num = 0 ∨ den = 0 then finite negative 0 (-1074)
  else
    let e := unitOf num den
    let q :=
      if 0 ≤ e then roundEven num (den * Nat.pow 2 e.toNat)
      else roundEven (num * Nat.pow 2 (-e).toNat) den
    let (q, e) := if q = Nat.pow 2 53 then (Nat.pow 2 52, e + 1) else (q, e)
    if e > 971 then infinite negative else finite negative q e

/-- The number nearest to a natural number. -/
def ofNat (n : Nat) : Binary64 :=
  ofRatio false n 1

/-- The number nearest to an integer. -/
def ofInt (i : Int) : Binary64 :=
  ofRatio (i < 0) i.natAbs 1

/-- The positive or negative zero. -/
def zero (negative : Bool) : Binary64 :=
  finite negative 0 (-1074)

/-- The absolute value of a finite number as a ratio. -/
def ratio (significand : Nat) (exponent : Int) : Nat × Nat :=
  if 0 ≤ exponent then (significand * Nat.pow 2 exponent.toNat, 1)
  else (significand, Nat.pow 2 (-exponent).toNat)

/-! ### Bits -/

/-- The number with the given bits, of which the low 64 count. -/
def ofBits (bits : Nat) : Binary64 :=
  let negative := bits / Nat.pow 2 63 % 2 == 1
  let biased : Nat := bits / Nat.pow 2 52 % Nat.pow 2 11
  let fraction : Nat := bits % Nat.pow 2 52
  if biased = 2047 then (if fraction = 0 then infinite negative else nan)
  else if biased = 0 then finite negative fraction (-1074)
  else finite negative (Nat.pow 2 52 + fraction) ((biased : Int) - 1075)

/-- The bits of a number. -/
def toBits : Binary64 → Nat
  | finite negative significand exponent =>
    (if negative then Nat.pow 2 63 else 0) +
      if significand < Nat.pow 2 52 then significand
      else (exponent + 1075).toNat * Nat.pow 2 52 + (significand - Nat.pow 2 52)
  | infinite negative => (if negative then Nat.pow 2 63 else 0) + 2047 * Nat.pow 2 52
  | nan => 2047 * Nat.pow 2 52 + Nat.pow 2 51

/-! ### Classes and comparison -/

/-- Whether a number is neither infinite nor undefined. -/
def isFinite : Binary64 → Bool
  | finite .. => true
  | _ => false

/-- Whether a number is one of the two zeros. -/
def isZero : Binary64 → Bool
  | finite _ significand _ => significand == 0
  | _ => false

/-- Whether a number is greater than zero. -/
def isPositive : Binary64 → Bool
  | finite negative significand _ => !negative && significand != 0
  | infinite negative => !negative
  | nan => false

/-- Whether a finite number has no fractional part. -/
def isIntegral : Binary64 → Bool
  | finite _ significand exponent =>
    let (num, den) := ratio significand exponent
    num % den == 0
  | _ => false

/-- Whether the absolute value of the first number is below that of the second. -/
def absLess : Binary64 → Binary64 → Bool
  | finite _ s e, finite _ t f =>
    let (a, b) := ratio s e
    let (c, d) := ratio t f
    a * d < c * b
  | finite .., infinite _ => true
  | _, _ => false

/-! ### Arithmetic -/

/-- Changes the sign. -/
def neg : Binary64 → Binary64
  | finite negative significand exponent => finite (!negative) significand exponent
  | infinite negative => infinite (!negative)
  | nan => nan

/-- The rounded product of two numbers; a product that is not finite on both sides is not
formed. -/
def mul : Binary64 → Binary64 → Binary64
  | finite s m e, finite t n f =>
    let (a, b) := ratio m e
    let (c, d) := ratio n f
    ofRatio (s != t) (a * c) (b * d)
  | _, _ => nan

/-- The rounded quotient of two numbers with a divisor other than zero. -/
def div : Binary64 → Binary64 → Binary64
  | finite s m e, finite t n f =>
    if n = 0 then nan
    else
      let (a, b) := ratio m e
      let (c, d) := ratio n f
      ofRatio (s != t) (a * d) (b * c)
  | _, _ => nan

/-- Drops the fractional part. -/
def trunc : Binary64 → Binary64
  | finite negative significand exponent =>
    let (num, den) := ratio significand exponent
    ofRatio negative (num / den) 1
  | x => x

/-- The nearest integer, a half away from zero. -/
def round : Binary64 → Binary64
  | finite negative significand exponent =>
    let (num, den) := ratio significand exponent
    ofRatio negative ((2 * num + den) / (2 * den)) 1
  | x => x

/-- The integer part of a number as a signed word of 64 bits, clamped to its range. -/
def toInt64 : Binary64 → Int
  | finite negative significand exponent =>
    let (num, den) := ratio significand exponent
    let n := num / den
    if negative then max (-(n : Int)) (-(Nat.pow 2 63)) else min (n : Int) (Nat.pow 2 63 - 1)
  | infinite negative => if negative then -(Nat.pow 2 63) else Nat.pow 2 63 - 1
  | nan => 0

end Binary64

end BlockScript
