import Mathlib.Algebra.Group.Nat.Defs
import AccountRoster.Number.Double

/-!
# Magnitudes and their weights

A step from one code to the next adds one unit of the binade that the code lies
in, so weights increase and a code can be found from its weight. A decimal that
has exactly the weight of a code is rounded to that code.
-/

namespace AccountRoster.Magnitude

/-- A code is a significand and a count of doublings; only at the bottom is the
significand less than a whole binade. -/
theorem exists_weight (code : Nat) :
    ∃ m k, code = k * binade + m ∧ k = code / binade - 1 ∧ weight code = m * 2 ^ k ∧
      m < 2 * binade ∧ (k = 0 ∨ binade ≤ m) := by
  refine ⟨code - (code / binade - 1) * binade, code / binade - 1, ?_, rfl, rfl, ?_, ?_⟩
  all_goals
    have hdiv := Nat.div_add_mod code binade
    have hmod : code % binade < binade := Nat.mod_lt _ (by decide)
    unfold binade at *
    omega

theorem weight_succ (code : Nat) :
    weight (code + 1) = weight code + 2 ^ (code / binade - 1) := by
  obtain ⟨m, k, hcode, hk, hw, hm, hlow⟩ := exists_weight code
  obtain ⟨m', k', hcode', hk', hw', hm', hlow'⟩ := exists_weight (code + 1)
  rw [hw, hw', ← hk]
  by_cases hsame : k' = k
  · have hmm : m' = m + 1 := by subst hsame; omega
    rw [hsame, hmm, Nat.add_mul, Nat.one_mul]
  · -- the binade ends here, and twice as many units are half as many of twice the size
    have hstep : k' = k + 1 ∧ m + 1 = 2 * m' := by
      unfold binade at *
      omega
    obtain ⟨rfl, hmm⟩ := hstep
    calc m' * 2 ^ (k + 1) = 2 * m' * 2 ^ k := by grind
      _ = m * 2 ^ k + 2 ^ k := by rw [← hmm, Nat.add_mul, Nat.one_mul]

theorem weight_lt_weight_succ (code : Nat) : weight code < weight (code + 1) := by
  rw [weight_succ]
  exact Nat.lt_add_of_pos_right (Nat.two_pow_pos _)

theorem weight_pos {code : Nat} (h : 0 < code) : 0 < weight code := by
  obtain ⟨before, rfl⟩ := Nat.exists_eq_succ_of_ne_zero (Nat.ne_of_gt h)
  exact Nat.lt_of_le_of_lt (Nat.zero_le _) (weight_lt_weight_succ before)

/-- The significand fills the top binade of the weight. -/
theorem log2_weight {m k : Nat} (hm : m < 2 * binade) (hlow : k = 0 ∨ binade ≤ m) :
    (m * 2 ^ k).log2 - 52 = k := by
  have hbinade : binade = 2 ^ 52 := rfl
  rcases hlow with rfl | hlow
  · rw [Nat.pow_zero, Nat.mul_one]
    have hlog : m.log2 < 53 := by
      rcases Nat.eq_zero_or_pos m with rfl | hpos
      · decide
      · exact (Nat.log2_lt (Nat.ne_of_gt hpos)).mpr (by omega)
    omega
  · have hpow : 0 < 2 ^ k := Nat.two_pow_pos k
    have hlow' : 2 ^ (52 + k) ≤ m * 2 ^ k := by
      rw [Nat.pow_add]
      exact Nat.mul_le_mul_right _ (hbinade ▸ hlow)
    have hhigh : m * 2 ^ k < 2 ^ (53 + k) := by
      rw [Nat.pow_add]
      exact Nat.mul_lt_mul_of_pos_right (by omega) hpow
    have hne : m * 2 ^ k ≠ 0 := Nat.ne_of_gt (Nat.lt_of_lt_of_le (Nat.two_pow_pos _) hlow')
    have h₁ := (Nat.le_log2 hne).mpr hlow'
    have h₂ := (Nat.log2_lt hne).mpr hhigh
    omega

/-- A code is found from its weight. -/
theorem codeBelow_weight (code : Nat) : codeBelow (weight code) = code := by
  obtain ⟨m, k, hcode, -, hw, hm, hlow⟩ := exists_weight code
  unfold codeBelow
  rw [hw, log2_weight hm hlow, Nat.pow_eq, Nat.mul_div_cancel _ (Nat.two_pow_pos k)]
  exact hcode.symm

/-- A fraction of exactly the weight of a code is nearest to that code. -/
theorem nearest_weight (code : Nat) {den : Nat} (hden : 0 < den) :
    nearest (weight code * den) den = code := by
  have hcode : codeBelow (weight code * den / den) = code := by
    rw [Nat.mul_div_cancel _ hden, codeBelow_weight]
  have hlt : 2 * (weight code * den) < (weight code + weight (code + 1)) * den := by
    rw [← Nat.mul_assoc]
    exact Nat.mul_lt_mul_of_pos_right (by have := weight_lt_weight_succ code; omega) hden
  simp only [nearest, hcode, if_pos hlt]

theorem weight_lt_of_lt_infinity {code : Nat} (h : code < infinity) :
    weight code < 2 ^ 2098 := by
  obtain ⟨m, k, -, hk, hw, hm, -⟩ := exists_weight code
  have hk' : k ≤ 2045 := by
    have hdiv := Nat.div_add_mod code binade
    have hmod : code % binade < binade := Nat.mod_lt _ (by decide)
    unfold binade infinity at *
    omega
  have hm' : m < 2 ^ 53 := hm
  calc weight code = m * 2 ^ k := hw
    _ < 2 ^ 53 * 2 ^ k := Nat.mul_lt_mul_of_pos_right hm' (Nat.two_pow_pos k)
    _ ≤ 2 ^ 53 * 2 ^ 2045 := Nat.mul_le_mul_left _ (Nat.pow_le_pow_right (by decide) hk')
    _ = 2 ^ 2098 := by decide +kernel

/-- The power of five under which every weight is a whole number of the least
decimal place. -/
abbrev places : Nat := 1074

/-- The exact decimal of a magnitude is neither too long nor too short to be
looked at. -/
theorem length_exact_digits {code : Nat} (hpos : 0 < code) (h : code < infinity) :
    (Nat.toDigits 10 (weight code * 5 ^ places)).length ≤ 1474 ∧
      674 < (Nat.toDigits 10 (weight code * 5 ^ places)).length := by
  constructor
  · refine (Nat.length_toDigits_le_iff (by decide) (by decide)).mpr ?_
    calc weight code * 5 ^ places < 2 ^ 2098 * 5 ^ places :=
          Nat.mul_lt_mul_of_pos_right (weight_lt_of_lt_infinity h) (Nat.pow_pos (by decide))
      _ ≤ 10 ^ 1474 := by decide +kernel
  · rw [← Nat.not_le, Nat.length_toDigits_le_iff (by decide) (by decide), Nat.not_lt]
    calc 10 ^ 674 ≤ 1 * 5 ^ places := by decide +kernel
      _ ≤ weight code * 5 ^ places := Nat.mul_le_mul_right _ (weight_pos hpos)

/-- A decimal of exactly the weight of a code stands for that code, as long as
its length is in sight. -/
theorem ofDecimal_of_weight {code digits k : Nat} (hcode : code ≤ infinity)
    (hne : digits ≠ 0) (hweight : digits * one = weight code * 10 ^ (k + 1))
    (hlong : (Nat.toDigits 10 digits).length + Int.negSucc k ≤ mostDigits)
    (hshort : -mostDigits ≤ (Nat.toDigits 10 digits).length + Int.negSucc k) :
    ofDecimal digits (.negSucc k) = code := by
  have hpow : 0 < 10 ^ (k + 1) := Nat.pow_pos (by decide)
  unfold ofDecimal
  rw [if_neg hne, if_neg (Int.not_lt.mpr hlong), if_neg (Int.not_lt.mpr hshort)]
  change min infinity (nearest (digits * one) (10 ^ (k + 1))) = code
  rw [hweight, nearest_weight code hpow]
  exact Nat.min_eq_right hcode

/-- The exact decimal of a magnitude stands for its code. -/
theorem ofDecimal_exact {code : Nat} (hpos : 0 < code) (h : code < infinity) :
    ofDecimal (weight code * 5 ^ places) (.negSucc 1073) = code := by
  obtain ⟨hlong, hshort⟩ := length_exact_digits hpos h
  have hne : weight code * 5 ^ places ≠ 0 :=
    Nat.ne_of_gt (Nat.mul_pos (weight_pos hpos) (Nat.pow_pos (by decide)))
  have hten : 5 ^ places * one = 10 ^ (1073 + 1) := by decide +kernel
  apply ofDecimal_of_weight (Nat.le_of_lt h) hne
  · rw [Nat.mul_assoc, hten]
  · unfold mostDigits
    omega
  · unfold mostDigits
    omega

end AccountRoster.Magnitude
