import Mathlib

/-!
# Rounding to a number of significant bits

`roundEven p n` is the natural number nearest to `n` among those with at most `p`
significant bits, the one with the even significand on a tie. It is what converting an
integer to a binary floating-point number of precision `p` computes, as long as the
exponent range suffices. Two facts decide comparisons with a bound: below `2^p` the
conversion is exact, and it takes no number from `2^p` on below `2^p`.
-/

namespace Number
set_option autoImplicit false

/-- `n` rounded to `p` significant bits, ties to even. -/
def roundEven (p n : Nat) : Nat :=
  let unit := 2 ^ (n.log2 + 1 - p)
  let quotient := n / unit
  let rest := n % unit
  if unit < 2 * rest ∨ (2 * rest = unit ∧ quotient % 2 = 1) then (quotient + 1) * unit else quotient * unit

/-- Numbers of at most `p` bits are their own rounding. -/
theorem roundEven_of_lt {p n : Nat} (small : n < 2 ^ p) : roundEven p n = n := by
  rcases Nat.eq_zero_or_pos n with rfl | pos
  · simp [roundEven]
  · have bits : n.log2 + 1 - p = 0 := by
      have := (Nat.log2_lt pos.ne').2 small
      omega
    simp [roundEven, bits, Nat.mod_one]

/-- Rounding does not cross `2^p` downwards. -/
theorem le_roundEven {p n : Nat} (precision : 0 < p) (large : 2 ^ p ≤ n) : 2 ^ p ≤ roundEven p n := by
  have pos : n ≠ 0 := by have := Nat.two_pow_pos p; omega
  have above : p ≤ n.log2 := (Nat.le_log2 pos).2 large
  have kept : 2 ^ (p - 1) ≤ n / 2 ^ (n.log2 + 1 - p) := by
    rw [Nat.le_div_iff_mul_le (Nat.two_pow_pos _), ← pow_add,
      show p - 1 + (n.log2 + 1 - p) = n.log2 by omega]
    exact Nat.log2_self_le pos
  have enough : 2 ^ p ≤ n / 2 ^ (n.log2 + 1 - p) * 2 ^ (n.log2 + 1 - p) :=
    calc 2 ^ p ≤ 2 ^ (p - 1 + (n.log2 + 1 - p)) := Nat.pow_le_pow_right (by decide) (by omega)
      _ = 2 ^ (p - 1) * 2 ^ (n.log2 + 1 - p) := pow_add 2 _ _
      _ ≤ _ := Nat.mul_le_mul_right _ kept
  unfold roundEven
  dsimp only
  split
  · exact enough.trans (Nat.mul_le_mul_right _ (Nat.le_succ _))
  · exact enough

/-- **Comparing a rounded number with a bound below `2^p`** compares the number itself. -/
theorem roundEven_le_iff {p n : Nat} {bound : ℚ} (precision : 0 < p) (small : bound < 2 ^ p) :
    (roundEven p n : ℚ) ≤ bound ↔ (n : ℚ) ≤ bound := by
  rcases Nat.lt_or_ge n (2 ^ p) with below | above
  · rw [roundEven_of_lt below]
  · have number : bound < n := small.trans_le (by exact_mod_cast above)
    have rounded : bound < roundEven p n := small.trans_le (by exact_mod_cast le_roundEven precision above)
    exact iff_of_false (not_le.2 rounded) (not_le.2 number)

example : roundEven 24 (2 ^ 24 + 1) = 2 ^ 24 ∧ roundEven 24 (2 ^ 24 + 3) = 2 ^ 24 + 4 := by
  decide +kernel

end Number
