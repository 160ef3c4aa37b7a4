import BlockScript.Text.Hex
import Mathlib.Algebra.Group.Nat.Defs
import Mathlib.Tactic.SplitIfs

/-!
# Hexadecimal digits are read back

A number is read back from enough of its digits (`Hex.value?_fixed`). A character has a value if and
only if it is the lower-case or the upper-case digit of that value (`Hex.digitValue?_eq_some_iff`).
-/

namespace BlockScript.Hex

/-- The digit of a number below sixteen has its value. -/
theorem digitValue?_digit : ∀ d < 16, digitValue? (digit d) = some d := by decide

theorem length_fixed (width n : Nat) : (fixed width n).length = width := by
  induction width generalizing n with
  | zero => rfl
  | succ width ih => rw [fixed, List.length_append, ih, List.length_singleton]

/-- A number reads back from enough digits. -/
theorem value?_fixed {width n : Nat} (h : n < 16 ^ width) : value? (fixed width n) = some n := by
  induction width generalizing n with
  | zero =>
    obtain rfl : n = 0 := by simpa using h
    rfl
  | succ width ih =>
    have hdiv : n / 16 < 16 ^ width := Nat.div_lt_of_lt_mul (by rwa [Nat.mul_comm, ← Nat.pow_succ])
    have hhigh := ih hdiv
    have hlow := digitValue?_digit (n % 16) (Nat.mod_lt _ (by decide))
    unfold value? at hhigh ⊢
    rw [fixed, List.foldl_append, hhigh]
    simp only [List.foldl_cons, List.foldl_nil, Option.bind_some, hlow, Option.map_some]
    rw [Nat.div_add_mod]

theorem digitValue?_upperDigit : ∀ d < 16, digitValue? (upperDigit d) = some d := by decide

/-- A character is the hexadecimal digit of a number, in lower or in upper case. -/
def IsDigit (n : Nat) (c : Char) : Prop :=
  n < 16 ∧ (c = digit n ∨ c = upperDigit n)

theorem isDigit_upperDigit {n : Nat} (h : n < 16) : IsDigit n (upperDigit n) :=
  ⟨h, .inr rfl⟩

theorem digitValue?_eq_some_iff {n : Nat} {c : Char} : digitValue? c = some n ↔ IsDigit n c := by
  constructor
  · have hchar : Char.ofNat c.toNat = c := Char.ofNat_toNat c
    intro h
    rw [digitValue?] at h
    split_ifs at h with hdigit hlower hupper <;> obtain rfl := Option.some.inj h
    · have hrange : 48 ≤ c.toNat ∧ c.toNat ≤ 57 := by
        simpa [Char.isDigit, UInt32.le_iff_toNat_le] using hdigit
      have hsum : 48 + (c.toNat - 48) = c.toNat := by omega
      refine ⟨by omega, .inl ?_⟩
      rw [digit, if_pos (by omega), hsum, hchar]
    · have hrange : 97 ≤ c.toNat ∧ c.toNat ≤ 102 := hlower
      have hsum : 87 + (c.toNat - 87) = c.toNat := by omega
      refine ⟨by omega, .inl ?_⟩
      rw [digit, if_neg (by omega), hsum, hchar]
    · have hrange : 65 ≤ c.toNat ∧ c.toNat ≤ 70 := hupper
      have hsum : 55 + (c.toNat - 55) = c.toNat := by omega
      refine ⟨by omega, .inr ?_⟩
      rw [upperDigit, if_neg (by omega), hsum, hchar]
  · rintro ⟨hn, rfl | rfl⟩
    · revert n
      decide
    · exact digitValue?_upperDigit n hn

/-- A digit is a single byte, and neither of the two signs. -/
theorem IsDigit.plain {n : Nat} {c : Char} (h : IsDigit n c) :
    c.utf8Size = 1 ∧ c ≠ '+' ∧ c ≠ '%' := by
  obtain ⟨hn, rfl | rfl⟩ := h <;>
    · revert n
      decide

end BlockScript.Hex
