import Mathlib.Tactic.Ring
import BlockScript.Number.Binary64

/-!
# Integers that floating point keeps

A natural number up to `2 ^ 53` is rounded to itself (`Binary64.isWhole_ofRatio`): its unit is such
that no bit is cut off. Rounding such a number to an integer changes nothing, and so an integer of
that size can be taken to floating point and back (`Binary64.toInt64_round_ofInt`).
-/

namespace BlockScript.Binary64

/-- The number is finite, has the given sign, and its absolute value is the natural number `n`. -/
def IsWhole (negative : Bool) (n : Nat) (x : Binary64) : Prop :=
  ∃ significand exponent, x = finite negative significand exponent ∧
    (ratio significand exponent).1 = n * (ratio significand exponent).2

theorem ratio_pos (significand : Nat) (exponent : Int) : 0 < (ratio significand exponent).2 := by
  unfold ratio
  split
  · exact Nat.one_pos
  · exact Nat.pow_pos Nat.two_pos

theorem ratio_zero (exponent : Int) : (ratio 0 exponent).1 = 0 := by
  unfold ratio
  split
  · exact Nat.zero_mul _
  · rfl

theorem roundEven_one (n : Nat) : roundEven n 1 = n := by
  simp [roundEven, Nat.mod_one]

theorem log2_one : Nat.log2 1 = 0 := by decide

/-! ### Rounding -/

/-- A number of at most 53 bits is measured in a unit that leaves 53 of them. -/
theorem unitOf_one {n : Nat} (hn : n ≠ 0) (hlt : n < 2 ^ 53) :
    unitOf n 1 = (n.log2 : Int) - 52 := by
  have hlow : 2 ^ n.log2 ≤ n := Nat.log2_self_le hn
  have hlog : n.log2 < 53 := (Nat.log2_lt hn).2 hlt
  have hpow : 2 ^ 53 ≤ n * 2 ^ (53 - n.log2) := by
    calc 2 ^ 53 = 2 ^ n.log2 * 2 ^ (53 - n.log2) := by rw [← Nat.pow_add]; congr 1; omega
      _ ≤ n * 2 ^ (53 - n.log2) := Nat.mul_le_mul_right _ hlow
  have hneg : ¬ (0 : Int) ≤ (n.log2 : Int) - (0 : Nat) - 53 := by omega
  have hexp : (-((n.log2 : Int) - (0 : Nat) - 53)).toNat = 53 - n.log2 := by omega
  have hfits : ¬ n * Nat.pow 2 (53 - n.log2) < 1 * Nat.pow 2 53 := by
    rw [Nat.one_mul]
    exact Nat.not_lt.2 hpow
  simp only [unitOf, log2_one, hneg, if_false, hexp, hfits, decide_false, Bool.false_eq_true]
  omega

/-- A number of at most 53 bits, shifted so that it has exactly 53. -/
theorem shifted_lt {n : Nat} (hlt : n < 2 ^ 53) : n * 2 ^ (52 - n.log2) < 2 ^ 53 := by
  have hself : n < 2 ^ (n.log2 + 1) := Nat.lt_log2_self
  by_cases hn : n = 0
  · subst hn
    simp
  have hlog : n.log2 < 53 := (Nat.log2_lt hn).2 hlt
  calc n * 2 ^ (52 - n.log2) < 2 ^ (n.log2 + 1) * 2 ^ (52 - n.log2) :=
        Nat.mul_lt_mul_of_pos_right hself (Nat.two_pow_pos _)
    _ = 2 ^ 53 := by rw [← Nat.pow_add]; congr 1; omega

/-- Natural numbers up to `2 ^ 53` are kept by rounding. -/
theorem isWhole_ofRatio (negative : Bool) {n : Nat} (h : n ≤ 2 ^ 53) :
    IsWhole negative n (ofRatio negative n 1) := by
  by_cases hn : n = 0
  · subst hn
    exact ⟨0, -1074, rfl, by rw [ratio_zero, Nat.zero_mul]⟩
  rcases Nat.lt_or_eq_of_le h with hlt | rfl
  · have hlog : n.log2 < 53 := (Nat.log2_lt hn).2 hlt
    have hshift : n * 2 ^ (52 - n.log2) < 2 ^ 53 := shifted_lt hlt
    refine ⟨n * 2 ^ (52 - n.log2), (n.log2 : Int) - 52, ?_, ?_⟩
    · -- the unit has no fraction when all 53 bits are used, and is a fraction otherwise
      have hround : (if (0 : Int) ≤ (n.log2 : Int) - 52 then
            roundEven n (1 * Nat.pow 2 ((n.log2 : Int) - 52).toNat)
          else roundEven (n * Nat.pow 2 (-((n.log2 : Int) - 52)).toNat) 1) =
          n * 2 ^ (52 - n.log2) := by
        split
        · have hz : ((n.log2 : Int) - 52).toNat = 0 := by omega
          have hz' : 52 - n.log2 = 0 := by omega
          rw [hz, hz']
          simpa using roundEven_one n
        · have hz : (-((n.log2 : Int) - 52)).toNat = 52 - n.log2 := by omega
          rw [hz, roundEven_one]
          rfl
      have hne : n * 2 ^ (52 - n.log2) ≠ Nat.pow 2 53 := Nat.ne_of_lt hshift
      have hsmall : ¬ (n.log2 : Int) - 52 > 971 := by omega
      simp only [ofRatio, hn, Nat.one_ne_zero, or_self, if_false, unitOf_one hn hlt, hround, hne,
        hsmall]
    · unfold ratio
      split
      · have hz : ((n.log2 : Int) - 52).toNat = 0 := by omega
        have hz' : 52 - n.log2 = 0 := by omega
        simp [hz, hz']
      · have hz : (-((n.log2 : Int) - 52)).toNat = 52 - n.log2 := by omega
        rw [hz]
        rfl
  · -- the last of the numbers takes one bit more, and is rounded by evaluation
    exact ⟨2 ^ 52, 1, by cases negative <;> decide +kernel, by decide⟩

/-! ### There and back -/

variable {negative : Bool} {n : Nat} {x : Binary64}

theorem IsWhole.isFinite (h : IsWhole negative n x) : x.isFinite = true := by
  obtain ⟨significand, exponent, rfl, -⟩ := h
  rfl

/-- Rounding a whole number to an integer is the identity. -/
theorem IsWhole.round (h : IsWhole negative n x) : x.round = ofRatio negative n 1 := by
  obtain ⟨significand, exponent, rfl, heq⟩ := h
  have hpos := ratio_pos significand exponent
  have hdiv : (2 * (ratio significand exponent).1 + (ratio significand exponent).2) /
      (2 * (ratio significand exponent).2) = n := by
    generalize (ratio significand exponent).2 = den at hpos heq
    rw [heq]
    refine Nat.div_eq_of_lt_le ?_ ?_
    · calc n * (2 * den) = 2 * (n * den) := by ring
        _ ≤ 2 * (n * den) + den := Nat.le_add_right ..
    · calc 2 * (n * den) + den < 2 * (n * den) + 2 * den := by omega
        _ = (n + 1) * (2 * den) := by ring
  simp only [Binary64.round]
  rw [hdiv]

theorem IsWhole.toInt64 (h : IsWhole negative n x) (hn : n ≤ 2 ^ 53) :
    x.toInt64 = if negative then -(n : Int) else n := by
  obtain ⟨significand, exponent, rfl, heq⟩ := h
  have hpos := ratio_pos significand exponent
  have hdiv : (ratio significand exponent).1 / (ratio significand exponent).2 = n := by
    rw [heq, Nat.mul_div_cancel _ hpos]
  have hmax : (Nat.pow 2 63 : Int) = 9223372036854775808 := by decide
  have hbound : n ≤ 9007199254740992 := hn
  simp only [Binary64.toInt64, hdiv, hmax]
  split <;> omega

/-- **An integer of at most 53 bits is the same after a trip through floating point.** -/
theorem toInt64_round_ofInt {i : Int} (h : i.natAbs ≤ 2 ^ 53) :
    (ofInt i).isFinite = true ∧ (ofInt i).round.toInt64 = i := by
  have hwhole : IsWhole (i < 0) i.natAbs (ofInt i) := isWhole_ofRatio _ h
  refine ⟨hwhole.isFinite, ?_⟩
  rw [hwhole.round, (isWhole_ofRatio _ h).toInt64 h]
  by_cases hi : i < 0
  · simp only [hi, decide_true, if_true]
    omega
  · simp only [hi, decide_false, Bool.false_eq_true, if_false]
    omega

end BlockScript.Binary64
