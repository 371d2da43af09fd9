import CapacityFabric.Foundation.ShortChange

/-!
# Checksums that xor and multiply

A checksum that takes in one byte after the other: the byte is xored into the low end of
the state, and the state is multiplied.  Where the multiplier spreads, no message followed
by its checksum is a short change of another.
-/

namespace XorMultiply

def absorb (p h : UInt64) (b : UInt8) : UInt64 := (h ^^^ b.toUInt64) * p

def digest (p h : UInt64) (l : List UInt8) : UInt64 := l.foldl (absorb p) h

/-- The multiplier is invertible, and takes any difference of low bytes out of the low byte
without wrapping around. -/
structure Spreads (p : UInt64) : Prop where
  odd : p.toNat % 2 = 1
  low : 256 ≤ p.toNat
  high : 255 * p.toNat + 256 ≤ 2 ^ 64

variable {p h h' : UInt64} {a a' b b' : UInt8} {l l' : List UInt8}

theorem toNat_xor_div (h : UInt64) (b : UInt8) :
    (h ^^^ b.toUInt64).toNat / 256 = h.toNat / 256 := by
  have hb : b.toNat / 2 ^ 8 = 0 := Nat.div_eq_of_lt b.toNat_lt
  rw [UInt64.toNat_xor, UInt8.toNat_toUInt64]
  change (h.toNat ^^^ b.toNat) / 2 ^ 8 = h.toNat / 2 ^ 8
  rw [Nat.xor_div_two_pow, hb, Nat.xor_zero]

theorem toNat_xor_mod_ne (hab : a ≠ a') :
    (h ^^^ a.toUInt64).toNat % 256 ≠ (h ^^^ a'.toUInt64).toNat % 256 := by
  intro heq
  have hdiv : (h ^^^ a.toUInt64).toNat / 256 = (h ^^^ a'.toUInt64).toNat / 256 := by
    rw [toNat_xor_div, toNat_xor_div]
  have hnat : (h ^^^ a.toUInt64).toNat = (h ^^^ a'.toUInt64).toNat := by
    rw [← Nat.div_add_mod (h ^^^ a.toUInt64).toNat 256, hdiv, heq, Nat.div_add_mod]
  have hxor := (UInt64.xor_right_inj h).mp (UInt64.toNat_inj.mp hnat)
  exact hab (UInt8.toUInt64_inj.mp hxor)

theorem mul_right_cancel (hp : Spreads p) (heq : h * p = h' * p) : h = h' := by
  have hcoprime : Nat.gcd (2 ^ 64) p.toNat = 1 :=
    Nat.Coprime.pow_left 64 (Nat.coprime_two_left.mpr (Nat.odd_iff.mpr hp.odd))
  have hmod : h.toNat * p.toNat ≡ h'.toNat * p.toNat [MOD 2 ^ 64] := by
    have hnat := congrArg UInt64.toNat heq
    rwa [UInt64.toNat_mul, UInt64.toNat_mul] at hnat
  have hcancel := Nat.ModEq.cancel_right_of_coprime hcoprime hmod
  rw [Nat.ModEq, Nat.mod_eq_of_lt h.toNat_lt, Nat.mod_eq_of_lt h'.toNat_lt] at hcancel
  exact UInt64.toNat_inj.mp hcancel

theorem absorb_left_cancel (hp : Spreads p) (heq : absorb p h b = absorb p h' b) : h = h' := by
  have hxor := mul_right_cancel hp heq
  exact (UInt64.xor_left_inj _).mp hxor

/-- Different bytes lead to states that differ above the low byte. -/
theorem absorb_div_ne (hp : Spreads p) (hab : a ≠ a') :
    (absorb p h a).toNat / 256 ≠ (absorb p h a').toNat / 256 := by
  have hlow := hp.low
  have hhigh := hp.high
  -- Either product is ahead of the other by a multiple of `p` that neither vanishes in the
  -- low byte nor reaches around.
  have hahead : ∀ x δ : ℕ, 0 < δ → δ ≤ 255 →
      (x + δ) * p.toNat % 2 ^ 64 / 256 ≠ x * p.toNat % 2 ^ 64 / 256 := by
    intro x δ hpos hle
    have hmin : 256 ≤ δ * p.toNat := hlow.trans (Nat.le_mul_of_pos_left _ hpos)
    have hmax : δ * p.toNat ≤ 255 * p.toNat := Nat.mul_le_mul_right _ hle
    rw [add_mul]
    omega
  have hdiv : (h ^^^ a.toUInt64).toNat / 256 = (h ^^^ a'.toUInt64).toNat / 256 := by
    rw [toNat_xor_div, toNat_xor_div]
  have hmod := toNat_xor_mod_ne (h := h) hab
  rw [absorb, absorb, UInt64.toNat_mul, UInt64.toNat_mul]
  generalize (h ^^^ a.toUInt64).toNat = x at hdiv hmod
  generalize (h ^^^ a'.toUInt64).toNat = x' at hdiv hmod
  rcases lt_or_gt_of_ne (fun heq => hmod (congrArg (· % 256) heq) : x ≠ x') with hlt | hlt
  · obtain ⟨δ, rfl⟩ := Nat.exists_eq_add_of_le hlt.le
    exact (hahead x δ (by omega) (by omega)).symm
  · obtain ⟨δ, rfl⟩ := Nat.exists_eq_add_of_le hlt.le
    exact hahead x' δ (by omega) (by omega)

theorem digest_append (p h : UInt64) (l l' : List UInt8) :
    digest p h (l ++ l') = digest p (digest p h l) l' :=
  List.foldl_append

theorem digest_left_cancel (hp : Spreads p) (heq : digest p h l = digest p h' l) : h = h' := by
  induction l generalizing h h' with
  | nil => exact heq
  | cons b l ih => exact absorb_left_cancel hp (ih heq)

/-- A changed byte changes the checksum, also when the next one is changed with it. -/
theorem digest_ne (hp : Spreads p) (hab : a ≠ a')
    (hrest : l = l' ∨ ∃ b b' post, b ≠ b' ∧ l = b :: post ∧ l' = b' :: post) :
    digest p h (a :: l) ≠ digest p h (a' :: l') := by
  intro heq
  rcases hrest with rfl | ⟨b, b', post, -, rfl, rfl⟩
  · exact absorb_div_ne hp hab (congrArg (·.toNat / 256) (digest_left_cancel hp heq))
  · have hstates : absorb p (absorb p h a) b = absorb p (absorb p h a') b' :=
      digest_left_cancel hp heq
    have hxor : (absorb p h a ^^^ b.toUInt64).toNat / 256 =
        (absorb p h a' ^^^ b'.toUInt64).toNat / 256 :=
      congrArg (·.toNat / 256) (mul_right_cancel hp hstates)
    rw [toNat_xor_div, toNat_xor_div] at hxor
    exact absorb_div_ne hp hab hxor

/-- No message with its checksum behind it, the low byte of it first, is a short change of
another one. -/
theorem not_shortChange (hp : Spreads p) (encode : UInt64 → List UInt8)
    (hinj : Function.Injective encode)
    (htail : ∀ s s' : UInt64, (encode s).tail = (encode s').tail → s.toNat / 256 = s'.toNat / 256)
    {off width : ℕ} (hlength : l'.length = l.length) :
    ¬ShortChange (l ++ encode (digest p h l)) (l' ++ encode (digest p h l')) off width := by
  intro hchange
  rcases lt_or_ge off l.length with hfront | hbehind
  · rcases le_or_gt (off + width) l.length with hinside | hacross
    · obtain ⟨hmessage, hsum⟩ := hchange.of_append_left hlength hinside
      obtain ⟨a, a', rest, rest', hne, hl, hl', hrest⟩ := hmessage.exists_split
      have hdigest := hinj hsum
      rw [hl, hl', digest_append, digest_append] at hdigest
      exact digest_ne hp hne hrest hdigest
    · obtain ⟨⟨pre, a, a', hne, rfl, rfl⟩, hsum⟩ :=
        hchange.of_append_across hlength hfront hacross
      have hdiv := htail _ _ hsum
      rw [digest_append, digest_append] at hdiv
      exact absorb_div_ne hp hne hdiv
  · -- The message is not touched, so that its checksum is the same.
    have htake := hchange.take_eq hbehind
    rw [List.take_left, ← hlength, List.take_left] at htake
    exact hchange.ne (by rw [htake])

end XorMultiply
