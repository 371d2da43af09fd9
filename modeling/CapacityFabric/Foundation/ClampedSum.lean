import Mathlib.Algebra.Order.BigOperators.Group.List
import Mathlib.Tactic

/-!
# Sums clamped at zero

A running total that is cut off at zero after every step, as an account that
forgives whatever it is overdrawn by.  `clampedSum_eq` accounts for the
difference from the plain sum: it is the deepest overdraft met on the way.
-/

namespace ClampedSum

variable {K : Type*} [AddCommGroup K] [LinearOrder K]

/-- The total of `l` from `x`, cut off at zero after every step. -/
def clampedSum (x : K) (l : List K) : K := l.foldl (fun a δ => max (a + δ) 0) x

/-- The deepest overdraft of the plain running total, zero if there is none. -/
def overdraft (x : K) (l : List K) : K :=
  (l.foldl (fun s δ => (s.1 + δ, max s.2 (-(s.1 + δ)))) (x, 0)).2

@[simp] theorem clampedSum_nil (x : K) : clampedSum x [] = x := rfl

@[simp] theorem overdraft_nil (x : K) : overdraft x [] = 0 := rfl

theorem clampedSum_concat (x : K) (l : List K) (δ : K) :
    clampedSum x (l ++ [δ]) = max (clampedSum x l + δ) 0 := by
  simp [clampedSum]

theorem balance_eq (x : K) (l : List K) :
    (l.foldl (fun s δ => (s.1 + δ, max s.2 (-(s.1 + δ)))) (x, (0 : K))).1 = x + l.sum := by
  induction l using List.reverseRecOn with
  | nil => simp
  | append_singleton l δ ih =>
    rw [List.foldl_append, List.foldl_cons, List.foldl_nil, ih, List.sum_append,
      List.sum_singleton, add_assoc]

theorem overdraft_concat (x : K) (l : List K) (δ : K) :
    overdraft x (l ++ [δ]) = max (overdraft x l) (-(x + l.sum + δ)) := by
  rw [overdraft, List.foldl_append, List.foldl_cons, List.foldl_nil, balance_eq]
  rfl

theorem overdraft_nonneg (x : K) (l : List K) : 0 ≤ overdraft x l := by
  induction l using List.reverseRecOn with
  | nil => exact le_rfl
  | append_singleton l δ ih => rw [overdraft_concat]; exact ih.trans (le_max_left _ _)

variable [IsOrderedAddMonoid K]

/-- What clamping adds to the plain total is the deepest overdraft. -/
theorem clampedSum_eq (x : K) (l : List K) :
    clampedSum x l = x + l.sum + overdraft x l := by
  induction l using List.reverseRecOn with
  | nil => simp
  | append_singleton l δ ih =>
    have hsum : x + (l ++ [δ]).sum = x + l.sum + δ := by
      rw [List.sum_append, List.sum_singleton, add_assoc]
    rw [clampedSum_concat, overdraft_concat, ih, hsum, ← max_add_add_left, add_neg_cancel,
      add_right_comm]

theorem overdraft_le_iff {x c : K} {l : List K} (hx : 0 ≤ x) (hc : 0 ≤ c) :
    overdraft x l ≤ c ↔ ∀ p, p <+: l → -(x + p.sum) ≤ c := by
  induction l using List.reverseRecOn with
  | nil =>
    simp only [overdraft_nil, List.prefix_nil, forall_eq, List.sum_nil, add_zero, hc, true_iff]
    exact (neg_nonpos.mpr hx).trans hc
  | append_singleton l δ ih =>
    have hsum : x + (l ++ [δ]).sum = x + l.sum + δ := by
      rw [List.sum_append, List.sum_singleton, add_assoc]
    rw [overdraft_concat, max_le_iff, ih]
    constructor
    · rintro ⟨h, hlast⟩ p hp
      rcases List.prefix_concat_iff.mp hp with rfl | hp
      · rwa [hsum]
      · exact h p hp
    · intro h
      exact ⟨fun p hp => h p (hp.trans (List.prefix_append _ _)), hsum ▸ h _ List.prefix_rfl⟩

/-- Nothing is forgiven exactly when the running total never goes below zero. -/
theorem overdraft_eq_zero_iff {x : K} {l : List K} (hx : 0 ≤ x) :
    overdraft x l = 0 ↔ ∀ p, p <+: l → 0 ≤ x + p.sum := by
  rw [← (overdraft_nonneg x l).ge_iff_eq', overdraft_le_iff hx le_rfl]
  simp only [neg_nonpos]

theorem overdraft_prefix_le {x : K} {p l : List K} (hx : 0 ≤ x) (h : p <+: l) :
    overdraft x p ≤ overdraft x l := by
  rw [overdraft_le_iff hx (overdraft_nonneg x l)]
  intro q hq
  exact (overdraft_le_iff hx (overdraft_nonneg x l)).mp le_rfl q (hq.trans h)

/-- What is there at first is taken off the overdraft. -/
theorem overdraft_eq_max {x : K} (hx : 0 ≤ x) (l : List K) :
    overdraft x l = max (overdraft 0 l - x) 0 := by
  induction l using List.reverseRecOn with
  | nil => rw [overdraft_nil, overdraft_nil, zero_sub, max_eq_right (neg_nonpos.mpr hx)]
  | append_singleton l δ ih =>
    have hlast : -(x + l.sum + δ) = -(0 + l.sum + δ) - x := by
      rw [zero_add, add_assoc, neg_add, sub_eq_add_neg, add_comm]
    rw [overdraft_concat, overdraft_concat, ih, hlast, max_right_comm, max_sub_sub_right]

/-- What a plain total is short of zero. -/
def shortfall (x : K) (p : List K) : K := max (-(x + p.sum)) 0

theorem shortfall_le_overdraft {x : K} {p l : List K} (hx : 0 ≤ x) (h : p <+: l) :
    shortfall x p ≤ overdraft x l :=
  max_le ((overdraft_le_iff hx (overdraft_nonneg x l)).mp le_rfl p h) (overdraft_nonneg x l)

theorem exists_shortfall_eq {x : K} (hx : 0 ≤ x) (l : List K) :
    ∃ p, p <+: l ∧ shortfall x p = overdraft x l := by
  induction l using List.reverseRecOn with
  | nil => exact ⟨[], List.prefix_rfl, by simpa [shortfall] using hx⟩
  | append_singleton l δ ih =>
    rw [overdraft_concat]
    rcases le_total (-(x + l.sum + δ)) (overdraft x l) with h | h
    · obtain ⟨p, hp, heq⟩ := ih
      exact ⟨p, hp.trans (List.prefix_append _ _), by rw [heq, max_eq_left h]⟩
    · refine ⟨l ++ [δ], List.prefix_rfl, ?_⟩
      have hsum : x + (l ++ [δ]).sum = x + l.sum + δ := by
        rw [List.sum_append, List.sum_singleton, add_assoc]
      rw [max_eq_right h, shortfall, hsum, max_eq_left ((overdraft_nonneg x l).trans h)]

/-- One walk is overdrawn by no more than another and `c` exactly when each shortfall of
its plain total has its like in the other's. -/
theorem overdraft_le_add_iff {x y c : K} {l l' : List K} (hx : 0 ≤ x) (hy : 0 ≤ y) :
    overdraft x l ≤ c + overdraft y l' ↔
      ∀ p, p <+: l → ∃ q, q <+: l' ∧ shortfall x p ≤ c + shortfall y q := by
  constructor
  · intro h p hp
    obtain ⟨q, hq, heq⟩ := exists_shortfall_eq hy l'
    exact ⟨q, hq, heq ▸ (shortfall_le_overdraft hx hp).trans h⟩
  · intro h
    obtain ⟨p, hp, heq⟩ := exists_shortfall_eq hx l
    obtain ⟨q, hq, hle⟩ := h p hp
    calc overdraft x l = shortfall x p := heq.symm
      _ ≤ c + shortfall y q := hle
      _ ≤ c + overdraft y l' := add_le_add_right (shortfall_le_overdraft hy hq) c

theorem overdraft_eq_zero_of_nonneg {x : K} {l : List K} (hx : 0 ≤ x) (hl : ∀ δ ∈ l, 0 ≤ δ) :
    overdraft x l = 0 := by
  rw [overdraft_eq_zero_iff hx]
  intro p hp
  exact add_nonneg hx (List.sum_nonneg fun δ hδ => hl δ (hp.subset hδ))

theorem add_sum_le_clampedSum (x : K) (l : List K) : x + l.sum ≤ clampedSum x l := by
  rw [clampedSum_eq]
  exact le_add_of_nonneg_right (overdraft_nonneg x l)

/-- From zero, the clamped total is the largest sum that some suffix has. -/
theorem clampedSum_lt_iff {c : K} {l : List K} :
    clampedSum 0 l < c ↔ ∀ s, s <:+ l → s.sum < c := by
  induction l using List.reverseRecOn generalizing c with
  | nil => simp
  | append_singleton l δ ih =>
    have hlt : clampedSum 0 (l ++ [δ]) < c ↔ clampedSum 0 l < c - δ ∧ 0 < c := by
      rw [clampedSum_concat, max_lt_iff, lt_sub_iff_add_lt]
    rw [hlt, ih]
    constructor
    · intro h s hs
      rcases List.suffix_concat_iff.mp hs with rfl | ⟨r, rfl, hr⟩
      · exact h.2
      · rw [List.sum_append, List.sum_singleton]
        exact lt_sub_iff_add_lt.mp (h.1 r hr)
    · intro h
      refine ⟨fun s hs => ?_, h [] List.nil_suffix⟩
      have hlast := h (s ++ [δ]) (List.suffix_concat_iff.mpr (Or.inr ⟨s, rfl, hs⟩))
      rw [List.sum_append, List.sum_singleton] at hlast
      exact lt_sub_iff_add_lt.mpr hlast

section Approximate

variable {f : K → K → K} {x y : K} {l : List K}

omit [IsOrderedAddMonoid K] in
variable (f) in
/-- No step leaves more than the sum clamped at zero. -/
def StaysBelow : K → List K → Prop
  | _, [] => True
  | x, δ :: l => f x δ ≤ max (x + δ) 0 ∧ StaysBelow (f x δ) l

omit [IsOrderedAddMonoid K] in
variable (f) in
/-- No step leaves less than the sum clamped at zero. -/
def StaysAbove : K → List K → Prop
  | _, [] => True
  | x, δ :: l => max (x + δ) 0 ≤ f x δ ∧ StaysAbove (f x δ) l

instance decidableStaysBelow : ∀ (x : K) (l : List K), Decidable (StaysBelow f x l)
  | _, [] => isTrue trivial
  | x, δ :: l =>
    have := decidableStaysBelow (f x δ) l
    inferInstanceAs (Decidable (_ ∧ _))

theorem StaysBelow.foldl_le (h : StaysBelow f x l) (hxy : x ≤ y) :
    l.foldl f x ≤ clampedSum y l := by
  induction l generalizing x y with
  | nil => exact hxy
  | cons δ l ih => exact ih h.2 (h.1.trans (max_le_max_right 0 (add_le_add_left hxy δ)))

theorem StaysAbove.le_foldl (h : StaysAbove f x l) (hyx : y ≤ x) :
    clampedSum y l ≤ l.foldl f x := by
  induction l generalizing x y with
  | nil => exact hyx
  | cons δ l ih => exact ih h.2 (le_trans (max_le_max_right 0 (add_le_add_left hyx δ)) h.1)

omit [IsOrderedAddMonoid K] in
theorem StaysBelow.of_prefix {p : List K} (h : StaysBelow f x l) (hp : p <+: l) :
    StaysBelow f x p := by
  induction p generalizing x l with
  | nil => trivial
  | cons δ p ih =>
    obtain ⟨s, rfl⟩ := hp
    exact ⟨h.1, ih h.2 (List.prefix_append p s)⟩

omit [IsOrderedAddMonoid K] in
theorem StaysAbove.of_prefix {p : List K} (h : StaysAbove f x l) (hp : p <+: l) :
    StaysAbove f x p := by
  induction p generalizing x l with
  | nil => trivial
  | cons δ p ih =>
    obtain ⟨s, rfl⟩ := hp
    exact ⟨h.1, ih h.2 (List.prefix_append p s)⟩

/-- A walk that never falls short of a sum ends with the plain total only if no step of it
has added anything. -/
theorem StaysAbove.of_foldl_le (h : StaysAbove f x l) (hx : 0 ≤ x)
    (hle : l.foldl f x ≤ x + l.sum) : StaysBelow f x l ∧ ∀ p, p <+: l → 0 ≤ x + p.sum := by
  induction l generalizing x with
  | nil => exact ⟨trivial, fun p hp => by simpa [List.prefix_nil.mp hp] using hx⟩
  | cons δ l ih =>
    obtain ⟨hstep, hrest⟩ := h
    have hsum : (x + δ) + l.sum = x + (δ :: l).sum := by rw [List.sum_cons, add_assoc]
    have hlow : f x δ + l.sum ≤ (x + δ) + l.sum := by
      calc f x δ + l.sum ≤ clampedSum (f x δ) l := add_sum_le_clampedSum _ _
        _ ≤ l.foldl f (f x δ) := hrest.le_foldl le_rfl
        _ ≤ (x + δ) + l.sum := hsum ▸ hle
    have heq : f x δ = x + δ :=
      (le_of_add_le_add_right hlow).antisymm ((le_max_left _ _).trans hstep)
    have hpos : 0 ≤ x + δ := heq ▸ (le_max_right _ _).trans hstep
    obtain ⟨hbelow, hprefix⟩ := ih hrest (heq ▸ hpos) (hle.trans_eq (by rw [heq, hsum]))
    refine ⟨⟨heq ▸ le_max_left _ _, hbelow⟩, fun p hp => ?_⟩
    rcases List.prefix_cons_iff.mp hp with rfl | ⟨q, rfl, hq⟩
    · simpa using hx
    · have hq' := hprefix q hq
      rwa [heq, add_assoc, ← List.sum_cons] at hq'

end Approximate

end ClampedSum
