import CapacityFabric.Persistence.Binary

/-!
# The values of doubles

The bits of a value are read back as the value.
-/

namespace CapacityFabric

/-- The value of some `double`.  Amounts are rationals here; those of the program all are. -/
def IsDouble (v : ℚ) : Prop := ∃ bits, Double.ofBits bits = .finite v

namespace Double

def magnitude (exponent fraction : ℕ) : ℚ :=
  if exponent = 0 then (fraction : ℚ) / (2 ^ 1074 : ℕ)
  else if exponent < 1075 then ((2 ^ 52 + fraction : ℕ) : ℚ) / (2 ^ (1075 - exponent) : ℕ)
  else ((2 ^ 52 + fraction) * 2 ^ (exponent - 1075) : ℕ)

def magnitudeBits (q : ℚ) : ℕ :=
  if q = 0 then 0
  else if Int.log 2 q < -1022 then ⌊q * (2 ^ 1074 : ℕ)⌋₊
  else if 1023 < Int.log 2 q then 9218868437227405311
  else
    (Int.log 2 q + 1022).toNat * 2 ^ 52 +
      if Int.log 2 q ≤ 52 then ⌊q * (2 ^ (52 - Int.log 2 q).toNat : ℕ)⌋₊
      else ⌊q / (2 ^ (Int.log 2 q - 52).toNat : ℕ)⌋₊

theorem ofBits_eq (bits : UInt64) :
    ofBits bits = if bits.toNat / 2 ^ 52 % 2048 = 2047 then .nonFinite
      else .finite (if bits.toNat / 2 ^ 63 = 0
        then magnitude (bits.toNat / 2 ^ 52 % 2048) (bits.toNat % 2 ^ 52)
        else -magnitude (bits.toNat / 2 ^ 52 % 2048) (bits.toNat % 2 ^ 52)) := rfl

theorem toBits_eq (v : ℚ) :
    toBits v = UInt64.ofNat (if v < 0 then 2 ^ 63 + magnitudeBits |v| else magnitudeBits |v|) := rfl

theorem magnitude_nonneg (exponent fraction : ℕ) : 0 ≤ magnitude exponent fraction := by
  unfold magnitude
  split_ifs <;> positivity

theorem log_eq {q : ℚ} {e : ℤ} (hle : (2 : ℚ) ^ e ≤ q) (hlt : q < 2 ^ (e + 1)) :
    Int.log 2 q = e := by
  have hq : 0 < q := lt_of_lt_of_le (by positivity) hle
  have hlow : e ≤ Int.log 2 q := (Int.zpow_le_iff_le_log one_lt_two hq).mp (by exact_mod_cast hle)
  have hhigh : Int.log 2 q < e + 1 :=
    (Int.lt_zpow_iff_log_lt one_lt_two hq).mp (by exact_mod_cast hlt)
  omega

theorem log_magnitude {exponent fraction : ℕ} (hpos : exponent ≠ 0) (hlt : fraction < 2 ^ 52) :
    Int.log 2 (magnitude exponent fraction) = (exponent : ℤ) - 1023 := by
  have hscale : magnitude exponent fraction =
      ((2 ^ 52 + fraction : ℕ) : ℚ) * 2 ^ ((exponent : ℤ) - 1075) := by
    unfold magnitude
    rw [if_neg hpos]
    split_ifs with hsmall
    · have hneg : (exponent : ℤ) - 1075 = -((1075 - exponent : ℕ) : ℤ) := by omega
      rw [hneg, zpow_neg, zpow_natCast, div_eq_mul_inv, Nat.cast_pow, Nat.cast_ofNat]
    · have hcast : (exponent : ℤ) - 1075 = ((exponent - 1075 : ℕ) : ℤ) := by omega
      rw [hcast, zpow_natCast, Nat.cast_mul, Nat.cast_pow, Nat.cast_ofNat]
  have hsplit : (exponent : ℤ) - 1023 = 52 + ((exponent : ℤ) - 1075) := by omega
  have hnext : (exponent : ℤ) - 1023 + 1 = 53 + ((exponent : ℤ) - 1075) := by omega
  have hfraction : (fraction : ℚ) < 2 ^ 52 := by exact_mod_cast hlt
  have hunit : (0 : ℚ) < 2 ^ ((exponent : ℤ) - 1075) := by positivity
  -- Between the two powers lie just the fractions of 52 bits.
  apply log_eq
  · rw [hscale, hsplit, zpow_add₀ two_ne_zero]
    apply mul_le_mul_of_nonneg_right _ hunit.le
    push_cast
    norm_num
  · rw [hscale, hnext, zpow_add₀ two_ne_zero]
    apply mul_lt_mul_of_pos_right _ hunit
    rw [Nat.cast_add, Nat.cast_pow, Nat.cast_ofNat, zpow_ofNat]
    have hdouble : (2 : ℚ) ^ 53 = 2 ^ 52 + 2 ^ 52 := by norm_num
    linarith

theorem magnitudeBits_magnitude {exponent fraction : ℕ} (hexponent : exponent < 2047)
    (hfraction : fraction < 2 ^ 52) :
    magnitudeBits (magnitude exponent fraction) = exponent * 2 ^ 52 + fraction := by
  by_cases hzero : exponent = 0
  · -- Zero and the subnormal numbers.
    subst hzero
    have hsub : magnitude 0 fraction = (fraction : ℚ) / (2 ^ 1074 : ℕ) := rfl
    have hunit : (0 : ℚ) < (2 ^ 1074 : ℕ) := by positivity
    by_cases hnone : fraction = 0
    · rw [hsub, hnone, Nat.cast_zero, zero_div, magnitudeBits, if_pos rfl, zero_mul]
    · have hpos : 0 < (fraction : ℚ) / (2 ^ 1074 : ℕ) :=
        div_pos (Nat.cast_pos.mpr (Nat.pos_of_ne_zero hnone)) hunit
      have hlog : Int.log 2 ((fraction : ℚ) / (2 ^ 1074 : ℕ)) < -1022 := by
        apply (Int.lt_zpow_iff_log_lt one_lt_two hpos).mp
        have hsplit : ((2 : ℕ) : ℚ) ^ (-1022 : ℤ) * (2 ^ 1074 : ℕ) = 2 ^ 52 := by
          rw [Nat.cast_pow, Nat.cast_ofNat, ← zpow_natCast, ← zpow_add₀ two_ne_zero]
          norm_num
        rw [div_lt_iff₀ hunit, hsplit]
        exact_mod_cast hfraction
      rw [hsub, magnitudeBits, if_neg hpos.ne', if_pos hlog, div_mul_cancel₀ _ hunit.ne',
        Nat.floor_natCast, zero_mul, zero_add]
  · -- A normal number: its significand is what scaling by its exponent leaves.
    have hlog := log_magnitude hzero hfraction
    have hpos : magnitude exponent fraction ≠ 0 := by
      intro h
      rw [h, Int.log_zero_right] at hlog
      unfold magnitude at h
      rw [if_neg hzero, if_pos (by omega)] at h
      have hnum : ((2 ^ 52 + fraction : ℕ) : ℚ) ≠ 0 := Nat.cast_ne_zero.mpr (by omega)
      exact div_ne_zero hnum (by positivity) h
    have hcode : ((exponent : ℤ) - 1023 + 1022).toNat = exponent - 1 := by omega
    rw [magnitudeBits, hlog, if_neg hpos, if_neg (by omega), if_neg (by omega), hcode, magnitude,
      if_neg hzero]
    have hfloor : (if (exponent : ℤ) - 1023 ≤ 52 then
        ⌊(if exponent < 1075 then ((2 ^ 52 + fraction : ℕ) : ℚ) / (2 ^ (1075 - exponent) : ℕ)
          else ((2 ^ 52 + fraction) * 2 ^ (exponent - 1075) : ℕ)) *
            (2 ^ (52 - ((exponent : ℤ) - 1023)).toNat : ℕ)⌋₊
        else ⌊(if exponent < 1075 then ((2 ^ 52 + fraction : ℕ) : ℚ) / (2 ^ (1075 - exponent) : ℕ)
          else ((2 ^ 52 + fraction) * 2 ^ (exponent - 1075) : ℕ)) /
            (2 ^ ((exponent : ℤ) - 1023 - 52).toNat : ℕ)⌋₊) = 2 ^ 52 + fraction := by
      rcases lt_trichotomy exponent 1075 with h | h | h
      · have hshift : (52 - ((exponent : ℤ) - 1023)).toNat = 1075 - exponent := by omega
        rw [if_pos (by omega), if_pos h, hshift, div_mul_cancel₀ _ (by positivity),
          Nat.floor_natCast]
      · subst h
        have hshift : (52 - (((1075 : ℕ) : ℤ) - 1023)).toNat = 0 := rfl
        rw [if_pos (by omega), if_neg (by omega), hshift, Nat.sub_self, pow_zero, mul_one,
          Nat.cast_one, mul_one, Nat.floor_natCast]
      · have hshift : ((exponent : ℤ) - 1023 - 52).toNat = exponent - 1075 := by omega
        rw [if_neg (by omega), if_neg (by omega), hshift, Nat.cast_mul,
          mul_div_cancel_right₀ _ (by positivity), Nat.floor_natCast]
    rw [hfloor]
    omega

/-- The bits of what some bits stand for, up to the sign of zero. -/
theorem ofBits_toBits {v : ℚ} (h : IsDouble v) : ofBits (toBits v) = .finite v := by
  obtain ⟨bits, h⟩ := h
  by_cases hzero : v = 0
  · have hnone : magnitude 0 0 = 0 := by rw [magnitude, if_pos rfl, Nat.cast_zero, zero_div]
    rw [hzero, toBits_eq, abs_zero, if_neg (lt_irrefl _), magnitudeBits, if_pos rfl, ofBits_eq]
    simp [hnone]
  suffices heq : toBits v = bits by rw [heq, h]
  have hbits := bits.toNat_lt
  rw [ofBits_eq] at h
  split_ifs at h with hexponent hsign
  all_goals
    have hparts := magnitudeBits_magnitude
      (Nat.lt_of_le_of_ne (Nat.le_of_lt_succ (Nat.mod_lt _ (by norm_num))) hexponent)
      (Nat.mod_lt bits.toNat (by norm_num : 0 < 2 ^ 52))
    have hnonneg := magnitude_nonneg (bits.toNat / 2 ^ 52 % 2048) (bits.toNat % 2 ^ 52)
  · obtain rfl := Double.finite.inj h
    have hn : bits.toNat / 2 ^ 52 % 2048 * 2 ^ 52 + bits.toNat % 2 ^ 52 = bits.toNat := by omega
    rw [toBits_eq, if_neg hnonneg.not_gt, abs_of_nonneg hnonneg, hparts, hn, UInt64.ofNat_toNat]
  · obtain rfl := Double.finite.inj h
    have hneg := lt_of_le_of_ne (neg_nonpos.mpr hnonneg) hzero
    have hn : 2 ^ 63 + (bits.toNat / 2 ^ 52 % 2048 * 2 ^ 52 + bits.toNat % 2 ^ 52) =
        bits.toNat := by omega
    rw [toBits_eq, if_pos hneg, abs_neg, abs_of_nonneg hnonneg, hparts, hn, UInt64.ofNat_toNat]

end Double

theorem isDouble_zero : IsDouble 0 := ⟨0, by decide +kernel⟩

theorem isDouble_shifted {n k : ℕ} (hn : n < 2 ^ 53) (hk : k ≤ 900) :
    IsDouble ((n * 2 ^ k : ℕ) : ℚ) := by
  rcases Nat.eq_zero_or_pos n with rfl | hpos
  · rw [zero_mul, Nat.cast_zero]
    exact isDouble_zero
  -- The leading bit of the number gives the exponent, the rest the fraction.
  set b := Nat.log2 n
  have hlow : 2 ^ b ≤ n := Nat.log2_self_le hpos.ne'
  have hhigh : n < 2 ^ (b + 1) := Nat.lt_log2_self
  have hb : b ≤ 52 := by
    by_contra hlt
    have : 2 ^ 53 ≤ 2 ^ b := Nat.pow_le_pow_right (by norm_num) (by omega)
    omega
  have hscale : 2 ^ b * 2 ^ (52 - b) = 2 ^ 52 := by rw [← pow_add]; congr 1; omega
  have hscale' : 2 ^ (b + 1) * 2 ^ (52 - b) = 2 ^ 53 := by rw [← pow_add]; congr 1; omega
  have hle : 2 ^ 52 ≤ n * 2 ^ (52 - b) := hscale ▸ Nat.mul_le_mul_right _ hlow
  have hlt : n * 2 ^ (52 - b) < 2 ^ 53 :=
    hscale' ▸ Nat.mul_lt_mul_of_pos_right hhigh (by positivity)
  set fraction := n * 2 ^ (52 - b) - 2 ^ 52 with hfraction
  have hmagnitude : Double.magnitude (1023 + b + k) fraction = ((n * 2 ^ k : ℕ) : ℚ) := by
    have hsum : 2 ^ 52 + fraction = n * 2 ^ (52 - b) := by omega
    unfold Double.magnitude
    rw [if_neg (by omega), hsum]
    split_ifs with hsmall
    · have hsplit : 52 - b = k + (1075 - (1023 + b + k)) := by omega
      rw [hsplit, pow_add, ← mul_assoc, Nat.cast_mul, mul_div_cancel_right₀ _ (by positivity)]
    · have hsplit : k = (52 - b) + (1023 + b + k - 1075) := by omega
      rw [mul_assoc, ← pow_add, ← hsplit]
  refine ⟨UInt64.ofNat ((1023 + b + k) * 2 ^ 52 + fraction), ?_⟩
  have hbits : (UInt64.ofNat ((1023 + b + k) * 2 ^ 52 + fraction)).toNat =
      (1023 + b + k) * 2 ^ 52 + fraction := by
    rw [UInt64.toNat_ofNat', Nat.mod_eq_of_lt]
    omega
  have hexponent : ((1023 + b + k) * 2 ^ 52 + fraction) / 2 ^ 52 % 2048 = 1023 + b + k := by omega
  have hrest : ((1023 + b + k) * 2 ^ 52 + fraction) % 2 ^ 52 = fraction := by omega
  have hsign : ((1023 + b + k) * 2 ^ 52 + fraction) / 2 ^ 63 = 0 := by omega
  rw [Double.ofBits_eq, hbits, hexponent, hrest, if_neg (by omega), if_pos hsign, hmagnitude]

end CapacityFabric
