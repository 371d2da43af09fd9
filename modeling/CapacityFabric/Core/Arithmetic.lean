import CapacityFabric.Foundation.Rounding

/-!
# The arithmetic of amounts

Amounts are rationals.  How a sum or a quotient of amounts is rounded, and which of them
can be stored, depends on the arithmetic.  Where none is named it is the exact one.
-/

namespace CapacityFabric

def dblMax : ℚ := (2 ^ 53 - 1) * 2 ^ 971

/-- What the operations on amounts give. -/
class Arithmetic where
  /-- What is stored for an exact result. -/
  round : ℚ → ℚ
  /-- Whether a rounded result can be stored as an amount. -/
  finite : ℚ → Bool
  round_zero : round 0 = 0
  round_mono : Monotone round
  round_round : ∀ x, round (round x) = round x

namespace Arithmetic

/-- No result is rounded, and none is too large. -/
instance exact : Arithmetic where
  round x := x
  finite _ := true
  round_zero := rfl
  round_mono := monotone_id
  round_round _ := rfl

/-- Results are rounded to the nearest `double`, or to infinity above the largest. -/
abbrev double : Arithmetic where
  round := Rounding.round 53 (-1074)
  finite x := decide (x ≤ dblMax)
  round_zero := Rounding.round_zero
  round_mono := Rounding.round_mono (by norm_num)
  round_round := Rounding.round_round (by norm_num)

@[simp] theorem round_exact (x : ℚ) : exact.round x = x := rfl

@[simp] theorem finite_exact (x : ℚ) : exact.finite x = true := rfl

/-- Counts of up to 53 bits are stored as they are. -/
theorem round_natCast {n : ℕ} (hn : n ≤ 2 ^ 53) : double.round n = n := by
  apply Rounding.Fits.round_eq (by norm_num)
  rw [abs_of_nonneg (Nat.cast_nonneg n)]
  exact ⟨n, 0, hn, by norm_num, by rw [zpow_zero, mul_one]⟩

/-- What a natural number of more than 53 bits is stored as has its last place above the point. -/
theorem exists_round_natCast {n : ℕ} (hn : 2 ^ 53 ≤ n) :
    ∃ k e : ℕ, k ≤ 2 ^ 53 ∧ double.round n = (k * 2 ^ e : ℕ) := by
  obtain ⟨k, e, hk, -, heq⟩ := Rounding.fits_round (p := 53) (l := -1074) (n : ℚ)
  rw [abs_of_nonneg (Rounding.round_nonneg (Nat.cast_nonneg _))] at heq
  change double.round n = k * 2 ^ e at heq
  have hlow : (2 : ℚ) ^ 53 ≤ k * 2 ^ e := by
    have hround := double.round_mono (show ((2 ^ 53 : ℕ) : ℚ) ≤ n from by exact_mod_cast hn)
    rw [round_natCast le_rfl, heq] at hround
    exact_mod_cast hround
  have he : 0 ≤ e := by
    by_contra hneg
    have hpow : (0 : ℚ) < 2 ^ e := by positivity
    have hunit : (2 : ℚ) ^ e < 1 := zpow_lt_one_of_neg₀ one_lt_two (not_le.mp hneg)
    have hk' : (k : ℚ) ≤ 2 ^ 53 := by exact_mod_cast hk
    have hle : (k : ℚ) * 2 ^ e ≤ 2 ^ 53 * 2 ^ e := mul_le_mul_of_nonneg_right hk' hpow.le
    linarith
  obtain ⟨e, rfl⟩ := Int.eq_ofNat_of_zero_le he
  refine ⟨k, e, hk, heq.trans ?_⟩
  push_cast
  rfl

/-- A 64-bit count is stored as a number of less than 54 bits, shifted. -/
theorem exists_round_toNat (n : UInt64) :
    ∃ k e : ℕ, k < 2 ^ 53 ∧ e ≤ 65 ∧ double.round n.toNat = (k * 2 ^ e : ℕ) := by
  rcases lt_or_ge n.toNat (2 ^ 53) with hsmall | hlarge
  · refine ⟨n.toNat, 0, hsmall, by omega, ?_⟩
    rw [round_natCast hsmall.le, pow_zero, mul_one]
  obtain ⟨k, e, hk, heq⟩ := exists_round_natCast hlarge
  have htop : double.round ((2 ^ 64 : ℕ) : ℚ) = (2 ^ 64 : ℕ) := by
    apply Rounding.Fits.round_eq (by norm_num)
    rw [abs_of_nonneg (Nat.cast_nonneg _)]
    exact ⟨1, 64, by norm_num, by norm_num, by norm_num⟩
  have hhigh : k * 2 ^ e ≤ 2 ^ 64 := by
    have hround := double.round_mono
      (show (n.toNat : ℚ) ≤ ((2 ^ 64 : ℕ) : ℚ) from by exact_mod_cast n.toNat_lt.le)
    rw [heq, htop] at hround
    exact_mod_cast hround
  have hpos : 1 ≤ k := by
    by_contra hzero
    have hround := double.round_mono
      (show ((2 ^ 53 : ℕ) : ℚ) ≤ n.toNat from by exact_mod_cast hlarge)
    rw [round_natCast le_rfl, heq, Nat.lt_one_iff.mp (not_le.mp hzero)] at hround
    norm_num at hround
  have he : e ≤ 64 := by
    have hpow : 2 ^ e ≤ 2 ^ 64 := (Nat.le_mul_of_pos_left _ hpos).trans hhigh
    exact (Nat.pow_le_pow_iff_right one_lt_two).mp hpow
  rcases hk.lt_or_eq with hlt | rfl
  · exact ⟨k, e, hlt, by omega, heq⟩
  · refine ⟨2 ^ 52, e + 1, by norm_num, by omega, heq.trans ?_⟩
    congr 1
    ring

variable [A : Arithmetic]

theorem round_nonneg {x : ℚ} (hx : 0 ≤ x) : 0 ≤ round x := round_zero ▸ round_mono hx

theorem round_nonpos {x : ℚ} (hx : x ≤ 0) : round x ≤ 0 := round_zero ▸ round_mono hx

end Arithmetic

end CapacityFabric
