import Mathlib.Data.Int.Log
import Mathlib.Tactic

/-!
# Rounding to binary places

A number is rounded to so many binary places, and to no place below a least one; of two
numbers that are as near, to the one whose last place is even.
-/

namespace Rounding

/-- The nearest integer, the even one of two that are as near. -/
def nearestEven (x : ℚ) : ℤ :=
  if x - ⌊x⌋ < 1 / 2 then ⌊x⌋
  else if 1 / 2 < x - ⌊x⌋ then ⌊x⌋ + 1
  else if ⌊x⌋ % 2 = 0 then ⌊x⌋ else ⌊x⌋ + 1

theorem nearestEven_intCast (n : ℤ) : nearestEven n = n := by
  rw [nearestEven, Int.floor_intCast, sub_self, if_pos (by norm_num)]

theorem floor_le_nearestEven (x : ℚ) : ⌊x⌋ ≤ nearestEven x := by
  unfold nearestEven
  split_ifs <;> omega

theorem nearestEven_le (x : ℚ) : nearestEven x ≤ ⌊x⌋ + 1 := by
  unfold nearestEven
  split_ifs <;> omega

theorem nearestEven_mono : Monotone nearestEven := by
  intro x y hxy
  rcases (Int.floor_mono hxy).lt_or_eq with hlt | heq
  · calc nearestEven x ≤ ⌊x⌋ + 1 := nearestEven_le x
      _ ≤ ⌊y⌋ := hlt
      _ ≤ nearestEven y := floor_le_nearestEven y
  · unfold nearestEven
    rw [heq]
    split_ifs <;> first | omega | (exfalso; linarith)

variable (p : ℕ) (l : ℤ)

/-- The exponent of the last place that a magnitude is rounded to. -/
def lastPlace (q : ℚ) : ℤ := max (Int.log 2 q + 1 - p) l

def roundMagnitude (q : ℚ) : ℚ :=
  nearestEven (q / 2 ^ lastPlace p l q) * 2 ^ lastPlace p l q

/-- The nearest number of `p` binary places, none of them below the place `l`. -/
def round (x : ℚ) : ℚ := if x < 0 then -roundMagnitude p l (-x) else roundMagnitude p l x

/-- A multiple of some place, with `p` binary places at most. -/
def Fits (q : ℚ) : Prop := ∃ (n : ℕ) (e : ℤ), n ≤ 2 ^ p ∧ l ≤ e ∧ q = n * 2 ^ e

variable {p l}

/-- An integer multiple of the last place is not rounded. -/
theorem roundMagnitude_eq {q : ℚ} {n e : ℤ} (he : lastPlace p l q ≤ e) (hq : q = n * 2 ^ e) :
    roundMagnitude p l q = q := by
  obtain ⟨k, hk⟩ := Int.eq_ofNat_of_zero_le (sub_nonneg.mpr he)
  have hunit : (2 : ℚ) ^ lastPlace p l q ≠ 0 := zpow_ne_zero _ two_ne_zero
  have hscaled : q / 2 ^ lastPlace p l q = ((n * 2 ^ k : ℤ) : ℚ) := by
    have hsum : (k : ℤ) + lastPlace p l q = e := by omega
    rw [div_eq_iff hunit, Int.cast_mul, Int.cast_pow, Int.cast_ofNat, mul_assoc, ← zpow_natCast,
      ← zpow_add₀ two_ne_zero, hsum]
    exact hq
  rw [roundMagnitude, hscaled, nearestEven_intCast, ← hscaled, div_mul_cancel₀ _ hunit]

theorem log_lt {n : ℕ} (hpos : 0 < n) (hn : n < 2 ^ p) (e : ℤ) :
    Int.log 2 ((n : ℚ) * 2 ^ e) < p + e := by
  apply (Int.lt_zpow_iff_log_lt one_lt_two (by positivity)).mp
  rw [Nat.cast_ofNat, zpow_add₀ two_ne_zero, zpow_natCast]
  exact mul_lt_mul_of_pos_right (by exact_mod_cast hn) (by positivity)

/-- What has no more than `p` places is not rounded. -/
theorem Fits.roundMagnitude_eq {q : ℚ} (hp : 0 < p) (h : Fits p l q) :
    roundMagnitude p l q = q := by
  obtain ⟨n, e, hn, he, rfl⟩ := h
  rcases Nat.eq_zero_or_pos n with rfl | hpos
  · exact Rounding.roundMagnitude_eq (n := 0) le_rfl (by simp)
  rcases hn.lt_or_eq with hlt | rfl
  · have hlog := log_lt hpos hlt e
    exact Rounding.roundMagnitude_eq (n := n) (max_le (by omega) he) (by push_cast; rfl)
  · -- A power of two has one place.
    have hpow : ((2 ^ p : ℕ) : ℚ) * 2 ^ e = ((1 : ℤ) : ℚ) * 2 ^ ((p : ℤ) + e) := by
      rw [Nat.cast_pow, Nat.cast_ofNat, Int.cast_one, one_mul, zpow_add₀ two_ne_zero,
        zpow_natCast]
    have hlog : Int.log 2 (((2 ^ p : ℕ) : ℚ) * 2 ^ e) = p + e := by
      rw [hpow, Int.cast_one, one_mul]
      exact Int.log_zpow one_lt_two _
    refine Rounding.roundMagnitude_eq (max_le ?_ ?_) hpow <;> omega

theorem lt_two_pow_lastPlace {q : ℚ} : q < 2 ^ (p + lastPlace p l q) := by
  have hlt : q < (2 : ℚ) ^ (Int.log 2 q + 1) := by
    exact_mod_cast Int.lt_zpow_succ_log_self one_lt_two q
  refine hlt.trans_le (zpow_le_zpow_right₀ one_le_two ?_)
  have := le_max_left (Int.log 2 q + 1 - p) l
  unfold lastPlace
  omega

/-- Rounding keeps below a multiple of the last place. -/
theorem roundMagnitude_le {q : ℚ} {n : ℤ} (h : q ≤ n * 2 ^ lastPlace p l q) :
    roundMagnitude p l q ≤ n * 2 ^ lastPlace p l q := by
  have hle := nearestEven_mono ((div_le_iff₀ (by positivity)).mpr h)
  rw [nearestEven_intCast] at hle
  exact mul_le_mul_of_nonneg_right (by exact_mod_cast hle) (by positivity)

/-- Rounding keeps above a multiple of the last place. -/
theorem le_roundMagnitude {q : ℚ} {n : ℤ} (h : n * 2 ^ lastPlace p l q ≤ q) :
    n * 2 ^ lastPlace p l q ≤ roundMagnitude p l q := by
  have hle := nearestEven_mono ((le_div_iff₀ (by positivity)).mpr h)
  rw [nearestEven_intCast] at hle
  exact mul_le_mul_of_nonneg_right (by exact_mod_cast hle) (by positivity)

theorem roundMagnitude_nonneg {q : ℚ} (hq : 0 ≤ q) : 0 ≤ roundMagnitude p l q := by
  simpa using le_roundMagnitude (p := p) (n := 0) (q := q) (by simpa using hq)

theorem fits_roundMagnitude {q : ℚ} (hq : 0 ≤ q) : Fits p l (roundMagnitude p l q) := by
  have hunit : (0 : ℚ) < 2 ^ lastPlace p l q := by positivity
  have hnonneg : 0 ≤ nearestEven (q / 2 ^ lastPlace p l q) := by
    have h := roundMagnitude_nonneg (p := p) (l := l) hq
    rw [roundMagnitude] at h
    exact_mod_cast nonneg_of_mul_nonneg_left h hunit
  have hbound : nearestEven (q / 2 ^ lastPlace p l q) ≤ ((2 ^ p : ℕ) : ℤ) := by
    have h : roundMagnitude p l q ≤ ((2 ^ p : ℕ) : ℤ) * 2 ^ lastPlace p l q := by
      apply roundMagnitude_le
      rw [Int.cast_natCast, Nat.cast_pow, Nat.cast_ofNat, ← zpow_natCast, ← zpow_add₀ two_ne_zero]
      exact lt_two_pow_lastPlace.le
    exact_mod_cast le_of_mul_le_mul_right h hunit
  refine ⟨(nearestEven (q / 2 ^ lastPlace p l q)).toNat, lastPlace p l q, by omega,
    le_max_right _ _, ?_⟩
  rw [roundMagnitude, ← Int.cast_natCast, Int.toNat_of_nonneg hnonneg]

theorem roundMagnitude_zero : roundMagnitude p l 0 = 0 :=
  Rounding.roundMagnitude_eq (n := 0) le_rfl (by simp)

/-- A number whose last place is above `l` has all `p` places. -/
theorem two_pow_lastPlace_le {q : ℚ} (hq : 0 < q) (h : l < lastPlace p l q) :
    2 ^ (p + lastPlace p l q - 1) ≤ q := by
  have hlog : (2 : ℚ) ^ Int.log 2 q ≤ q := by
    exact_mod_cast Int.zpow_log_le_self one_lt_two hq
  refine le_trans (zpow_le_zpow_right₀ one_le_two ?_) hlog
  unfold lastPlace at h ⊢
  omega

theorem roundMagnitude_mono (hp : 0 < p) {q r : ℚ} (hq : 0 ≤ q) (hqr : q ≤ r) :
    roundMagnitude p l q ≤ roundMagnitude p l r := by
  rcases hq.eq_or_lt with rfl | hpos
  · rw [roundMagnitude_zero]
    exact roundMagnitude_nonneg hqr
  have hlog : Int.log 2 q ≤ Int.log 2 r := Int.log_mono_right hpos hqr
  have hplace : lastPlace p l q ≤ lastPlace p l r := max_le_max (by omega) le_rfl
  rcases hplace.lt_or_eq with hlt | heq
  · -- A power of two that is a multiple of both last places lies between the two.
    have hpow : ∀ k : ℕ, ∀ e : ℤ, ((2 ^ k : ℤ) : ℚ) * 2 ^ e = 2 ^ (k + e) := fun k e => by
      rw [Int.cast_pow, Int.cast_ofNat, ← zpow_natCast, ← zpow_add₀ two_ne_zero]
    have hlow := roundMagnitude_le (p := p) (l := l) (n := 2 ^ p) (q := q) (by
      rw [hpow]
      exact lt_two_pow_lastPlace.le)
    have hbelow : (2 : ℚ) ^ (p + lastPlace p l r - 1) ≤ r :=
      two_pow_lastPlace_le (hpos.trans_le hqr) ((le_max_right _ _).trans_lt hlt)
    have hexp : (p : ℤ) + lastPlace p l r - 1 = ((p - 1 : ℕ) : ℤ) + lastPlace p l r := by
      omega
    rw [hexp] at hbelow
    have hhigh := le_roundMagnitude (p := p) (l := l) (n := 2 ^ (p - 1)) (q := r) (by
      rw [hpow]
      exact hbelow)
    rw [hpow] at hlow hhigh
    refine hlow.trans (le_trans (zpow_le_zpow_right₀ one_le_two ?_) hhigh)
    omega
  · rw [roundMagnitude, roundMagnitude, heq]
    apply mul_le_mul_of_nonneg_right _ (by positivity)
    exact_mod_cast nearestEven_mono (div_le_div_of_nonneg_right hqr (by positivity))

theorem round_of_nonneg {x : ℚ} (hx : 0 ≤ x) : round p l x = roundMagnitude p l x :=
  if_neg hx.not_gt

theorem round_neg (x : ℚ) : round p l (-x) = -round p l x := by
  rcases lt_trichotomy x 0 with hx | rfl | hx
  · rw [round, round, if_neg (by linarith), if_pos hx, neg_neg]
  · rw [neg_zero, round_of_nonneg le_rfl, roundMagnitude_zero, neg_zero]
  · rw [round, round, if_pos (by linarith), if_neg hx.not_gt, neg_neg]

theorem round_zero : round p l 0 = 0 := by
  rw [round_of_nonneg le_rfl, roundMagnitude_zero]

theorem Fits.round_eq (hp : 0 < p) {x : ℚ} (h : Fits p l |x|) : round p l x = x := by
  rcases le_total 0 x with hx | hx
  · rw [abs_of_nonneg hx] at h
    rw [round_of_nonneg hx, h.roundMagnitude_eq hp]
  · rw [abs_of_nonpos hx] at h
    rw [← neg_neg x, round_neg, round_of_nonneg (neg_nonneg.mpr hx), h.roundMagnitude_eq hp]

theorem fits_round (x : ℚ) : Fits p l |round p l x| := by
  rcases le_total 0 x with hx | hx
  · rw [round_of_nonneg hx, abs_of_nonneg (roundMagnitude_nonneg hx)]
    exact fits_roundMagnitude hx
  · have hneg := neg_nonneg.mpr hx
    rw [← neg_neg x, round_neg, abs_neg, round_of_nonneg hneg,
      abs_of_nonneg (roundMagnitude_nonneg hneg)]
    exact fits_roundMagnitude hneg

theorem round_round (hp : 0 < p) (x : ℚ) : round p l (round p l x) = round p l x :=
  (fits_round x).round_eq hp

theorem round_nonneg {x : ℚ} (hx : 0 ≤ x) : 0 ≤ round p l x := by
  rw [round_of_nonneg hx]
  exact roundMagnitude_nonneg hx

theorem round_mono (hp : 0 < p) : Monotone (round p l) := by
  intro x y hxy
  rcases le_total 0 x with hx | hx
  · rw [round_of_nonneg hx, round_of_nonneg (hx.trans hxy)]
    exact roundMagnitude_mono hp hx hxy
  rcases le_total 0 y with hy | hy
  · have hneg := round_nonneg (p := p) (l := l) (neg_nonneg.mpr hx)
    rw [round_neg] at hneg
    exact (neg_nonneg.mp hneg).trans (round_nonneg hy)
  · have hneg := roundMagnitude_mono (l := l) hp (neg_nonneg.mpr hy) (neg_le_neg hxy)
    rw [← round_of_nonneg (neg_nonneg.mpr hy), ← round_of_nonneg (neg_nonneg.mpr hx), round_neg,
      round_neg] at hneg
    exact neg_le_neg_iff.mp hneg

end Rounding
