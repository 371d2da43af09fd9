import Mathlib.Algebra.Order.BigOperators.Group.List
import Mathlib.Data.List.Sort
import Mathlib.Tactic

/-!
# Sorting with ties in an unspecified order

A sort by a key that leaves items of equal key in any order.  A run over the
sorted list may pass through totals that depend on how the ties fell; the
lowest total that any of these orders can reach is `lowestSum`.
-/

/-- A sort by `key`; nothing is promised about items of equal key. -/
structure SortBy {α T : Type*} [LinearOrder T] (key : α → T) where
  sort : List α → List α
  perm : ∀ l, (sort l).Perm l
  sorted : ∀ l, (sort l).Pairwise fun a b => key a ≤ key b

namespace SortBy

variable {α T K : Type*} [LinearOrder T] {key : α → T}

/-- Items of equal key for which `first` holds come before the others. -/
def Before (key : α → T) (first : α → Bool) (a b : α) : Prop :=
  key a < key b ∨ key a = key b ∧ (first b = true → first a = true)

instance (first : α → Bool) : DecidableRel (Before key first) := fun a b =>
  inferInstanceAs (Decidable (key a < key b ∨ key a = key b ∧ (first b = true → first a = true)))

instance (first : α → Bool) : Std.Total (Before key first) where
  total a b := by
    rcases lt_trichotomy (key a) (key b) with h | h | h
    · exact Or.inl (Or.inl h)
    · by_cases ha : first a = true
      · exact Or.inl (Or.inr ⟨h, fun _ => ha⟩)
      · exact Or.inr (Or.inr ⟨h.symm, fun ha' => absurd ha' ha⟩)
    · exact Or.inr (Or.inl h)

instance (first : α → Bool) : IsTrans α (Before key first) where
  trans a b c := by
    rintro (hab | ⟨hab, fab⟩) (hbc | ⟨hbc, fbc⟩)
    · exact Or.inl (hab.trans hbc)
    · exact Or.inl (hbc ▸ hab)
    · exact Or.inl (hab ▸ hbc)
    · exact Or.inr ⟨hab.trans hbc, fab ∘ fbc⟩

theorem Before.key_le {first : α → Bool} {a b : α} (h : Before key first a b) :
    key a ≤ key b :=
  h.elim le_of_lt fun h => h.1.le

/-- The sort that puts the items with `first` at the head of their ties and
otherwise keeps the given order. -/
def tieBreak (key : α → T) (first : α → Bool) : SortBy key where
  sort l := l.insertionSort (Before key first)
  perm l := List.perm_insertionSort _ l
  sorted l := (List.pairwise_insertionSort (Before key first) l).imp Before.key_le

/-- The sort that keeps ties in the given order. -/
def stable (key : α → T) : SortBy key := tieBreak key fun _ => true

instance : Inhabited (SortBy key) := ⟨stable key⟩

/-- A sort that sees nothing of the items but their keys. -/
def LooksAtKeys (σ : SortBy key) : Prop :=
  ∀ f : α → α, (∀ a, key (f a) = key a) → ∀ l, σ.sort (l.map f) = (σ.sort l).map f

theorem looksAtKeys_stable : LooksAtKeys (stable key) := by
  intro f hf l
  refine (List.map_insertionSort _ _ f l fun a _ b _ => ?_).symm
  simp only [Before, hf]

theorem filter_eq_takeWhile {r : α → α → Prop} {p : α → Bool} {l : List α}
    (hl : l.Pairwise r) (hp : ∀ a b, r a b → p b = true → p a = true) :
    l.filter p = l.takeWhile p := by
  induction l with
  | nil => rfl
  | cons a l ih =>
    obtain ⟨ha, hl⟩ := List.pairwise_cons.mp hl
    by_cases hpa : p a = true
    · rw [List.filter_cons_of_pos hpa, List.takeWhile_cons_of_pos hpa, ih hl]
    · rw [List.filter_cons_of_neg hpa, List.takeWhile_cons_of_neg hpa]
      exact List.filter_eq_nil_iff.mpr fun b hb hpb => hpa (hp a b (ha b hb) hpb)

/-- A sorted list cut at two places, the first before the second. -/
theorem filter_eq_append {r : α → α → Prop} {p q : α → Bool} {l : List α}
    (hl : l.Pairwise r) (hp : ∀ a b, r a b → p b = true → p a = true)
    (hpq : ∀ a, p a = true → q a = true) :
    l.filter q = l.filter p ++ l.filter fun a => q a && !p a := by
  induction l with
  | nil => rfl
  | cons a l ih =>
    obtain ⟨ha, hl⟩ := List.pairwise_cons.mp hl
    by_cases hpa : p a = true
    · simp [hpa, hpq a hpa, ih hl]
    · have hnone : ∀ b ∈ a :: l, p b = false := by
        intro b hb
        rcases List.mem_cons.mp hb with rfl | hb
        · simpa using hpa
        · exact Bool.eq_false_iff.mpr fun hpb => hpa (hp a b (ha b hb) hpb)
      have hnil : (a :: l).filter p = [] := List.filter_eq_nil_iff.mpr (by simpa using hnone)
      rw [hnil, List.nil_append]
      exact List.filter_congr fun b hb => by rw [hnone b hb, Bool.not_false, Bool.and_true]

theorem filter_le_prefix {l : List α} (hl : l.Pairwise fun a b => key a ≤ key b) (t : T) :
    l.filter (fun a => key a ≤ t) <+: l := by
  rw [filter_eq_takeWhile hl fun a b hab hb => by simpa using hab.trans (by simpa using hb)]
  exact List.takeWhile_prefix _

theorem sum_map_filter {K : Type*} [AddMonoid K] (p : α → Bool) (w : α → K) (l : List α) :
    ((l.filter p).map w).sum = (l.map fun a => if p a = true then w a else 0).sum := by
  induction l with
  | nil => rfl
  | cons a l ih => by_cases h : p a = true <;> simp [h, ih]

theorem filter_le_eq_append {es : List α} (h : es.Pairwise fun a b => key a ≤ key b) (t : T) :
    es.filter (fun a => key a ≤ t) =
      (es.filter fun a => key a < t) ++ es.filter fun a => key a = t := by
  rw [filter_eq_append h (p := fun a => decide (key a < t))
    (fun a b hab hb => by simpa using hab.trans_lt (by simpa using hb))
    fun a ha => by simpa using (of_decide_eq_true ha).le]
  congr 1
  refine List.filter_congr fun a _ => ?_
  rw [← decide_not, ← Bool.decide_and, decide_eq_decide, not_lt, eq_comm (a := key a)]
  exact ⟨fun h => h.2.antisymm h.1, fun h => ⟨h.ge, h.le⟩⟩

theorem exists_last_key {es : List α} (hne : es ≠ []) :
    ∃ a ∈ es, ∀ b ∈ es, key b ≤ key a :=
  Set.exists_max_image {a | a ∈ es} key (List.finite_toSet es) (List.exists_mem_of_ne_nil es hne)

/-- What is the same for two orders of ties through every key before which it is the same, is
the same for all that comes up to some key. -/
theorem eq_of_ties {β : Type*} (F : List α → β) {es es' : List α} (hperm : es.Perm es')
    (h : ∀ t, F (es.filter fun a => key a < t) = F (es'.filter fun a => key a < t) →
      F (es.filter fun a => key a ≤ t) = F (es'.filter fun a => key a ≤ t))
    (p : T → Bool) (hp : ∀ s t, s ≤ t → p t = true → p s = true) :
    F (es.filter fun a => p (key a)) = F (es'.filter fun a => p (key a)) := by
  induction hn : (es.filter fun a => p (key a)).length using Nat.strongRecOn generalizing p with
  | ind n ih =>
    rcases eq_or_ne (es.filter fun a => p (key a)) [] with hnil | hne
    · have hnil' := (hperm.filter fun a => p (key a)).symm
      rw [hnil] at hnil'
      rw [hnil, hnil'.eq_nil]
    · -- Up to the last key before which `p` ends, the two are the same by induction.
      obtain ⟨a, ha, hmax⟩ : ∃ a ∈ _, ∀ b ∈ _, key b ≤ key a := exists_last_key hne
      obtain ⟨hmem, hpa⟩ := List.mem_filter.mp ha
      have hcut : ∀ l : List α, (∀ b ∈ l, b ∈ es) →
          (l.filter fun b => p (key b)) = l.filter fun b => key b ≤ key a := by
        intro l hl
        refine List.filter_congr fun b hb => Bool.eq_iff_iff.mpr ?_
        rw [decide_eq_true_eq]
        exact ⟨fun hpb => hmax b (List.mem_filter.mpr ⟨hl b hb, hpb⟩), fun hle => hp _ _ hle hpa⟩
      rw [hcut es fun _ => id, hcut es' fun b hb => hperm.mem_iff.mpr hb]
      refine h (key a) (ih _ ?_ (fun t => t < key a) (fun s t hst ht => ?_) rfl)
      · have hsub : (es.filter fun b => decide (key b < key a)) =
            (es.filter fun b => p (key b)).filter fun b => key b < key a := by
          rw [List.filter_filter]
          refine List.filter_congr fun b _ => Bool.eq_iff_iff.mpr ?_
          rw [Bool.and_eq_true, decide_eq_true_eq]
          exact ⟨fun hlt => ⟨hlt, hp _ _ hlt.le hpa⟩, fun h => h.1⟩
        rw [hsub, ← hn]
        exact List.length_filter_lt_length_iff_exists.mpr ⟨a, ha, by simp⟩
      · exact decide_eq_true (hst.trans_lt (of_decide_eq_true ht))

variable [AddCommGroup K] [LinearOrder K]

/-- What an item adds to the lowest total at `t`: all of it before `t`, and at
`t` itself only if it is a decrease. -/
def lowestTerm (key : α → T) (w : α → K) (t : T) (a : α) : K :=
  if key a < t then w a else if key a = t then min (w a) 0 else 0

def lowestSum (key : α → T) (w : α → K) (t : T) (l : List α) : K :=
  (l.map (lowestTerm key w t)).sum

variable (key) in
theorem exists_prefix_sum_eq (w : α → K) (t : T) (l : List α) :
    ∃ σ : SortBy key, ∃ p, p <+: σ.sort l ∧ (p.map w).sum = lowestSum key w t l := by
  classical
  -- The decreases come first among the ties; cut after the decreases at `t`.
  let first : α → Bool := fun a => w a < 0
  let early : α → Bool := fun a => key a < t ∨ key a = t ∧ first a = true
  let σ := tieBreak key first
  have hsorted : (σ.sort l).Pairwise (Before key first) :=
    List.pairwise_insertionSort (Before key first) l
  have hdown : ∀ a b, Before key first a b → early b = true → early a = true := by
    intro a b hab hb
    simp only [early, decide_eq_true_eq] at hb ⊢
    rcases hab with hab | ⟨hab, fab⟩
    · exact Or.inl (hb.elim hab.trans fun hb => hb.1 ▸ hab)
    · exact hb.imp (hab ▸ ·) fun hb => ⟨hab.trans hb.1, fab hb.2⟩
  refine ⟨σ, (σ.sort l).filter early, ?_, ?_⟩
  · rw [filter_eq_takeWhile hsorted hdown]
    exact List.takeWhile_prefix _
  · rw [sum_map_filter, lowestSum, ((σ.perm l).map _).sum_eq]
    congr 1
    apply List.map_congr_left
    intro a _
    simp only [early, first, lowestTerm, decide_eq_true_eq]
    rcases lt_trichotomy (key a) t with h | h | h
    · simp [h]
    · by_cases hw : w a < 0
      · simp [h, hw, hw.le]
      · simp [h, hw, not_lt.mp hw]
    · simp [h.not_gt, h.ne']

variable [IsOrderedAddMonoid K]

/-- No order goes lower: a nonempty prefix of a sorted list sums to at least the
lowest total at its last key. -/
theorem lowestSum_le_prefix {w : α → K} {q : List α} {e : α} {l : List α}
    (hl : l.Pairwise fun a b => key a ≤ key b) (h : q ++ [e] <+: l) :
    lowestSum key w (key e) l ≤ ((q ++ [e]).map w).sum := by
  obtain ⟨s, rfl⟩ := h
  obtain ⟨hq, -, hqs⟩ := List.pairwise_append.mp hl
  have hle : ∀ a ∈ q ++ [e], key a ≤ key e := by
    intro a ha
    rcases List.mem_append.mp ha with ha | ha
    · exact (List.pairwise_append.mp hq).2.2 a ha e (List.mem_singleton_self e)
    · rw [List.mem_singleton.mp ha]
  -- Before the key a term is the item itself, at the key at most the item.
  have hprefix : ((q ++ [e]).map (lowestTerm key w (key e))).sum ≤ ((q ++ [e]).map w).sum := by
    apply List.sum_le_sum
    intro a ha
    rw [lowestTerm]
    split_ifs with h1 h2
    · exact le_rfl
    · exact min_le_left _ _
    · exact absurd ((hle a ha).lt_or_eq) (not_or.mpr ⟨h1, h2⟩)
  -- What comes later adds only its decreases.
  have hsuffix : (s.map (lowestTerm key w (key e))).sum ≤ 0 := by
    have hterm : ∀ a ∈ s, lowestTerm key w (key e) a ≤ 0 := by
      intro a ha
      have hge : key e ≤ key a :=
        hqs e (List.mem_append_right _ (List.mem_singleton_self e)) a ha
      rw [lowestTerm, if_neg hge.not_gt]
      split_ifs
      · exact min_le_right _ _
      · exact le_rfl
    simpa using List.sum_le_sum hterm
  calc lowestSum key w (key e) (q ++ [e] ++ s)
      = ((q ++ [e]).map (lowestTerm key w (key e))).sum +
          (s.map (lowestTerm key w (key e))).sum := by
        rw [lowestSum, List.map_append, List.sum_append]
    _ ≤ ((q ++ [e]).map w).sum + 0 := add_le_add hprefix hsuffix
    _ = _ := add_zero _

variable (key) in
/-- The running total stays nonnegative under every order of ties exactly when
the lowest total does at every key. -/
theorem forall_prefix_nonneg_iff {x : K} (hx : 0 ≤ x) (w : α → K) (l : List α) :
    (∀ σ : SortBy key, ∀ p, p <+: σ.sort l → 0 ≤ x + (p.map w).sum) ↔
      ∀ t, 0 ≤ x + lowestSum key w t l := by
  constructor
  · intro h t
    obtain ⟨σ, p, hp, hsum⟩ := exists_prefix_sum_eq key w t l
    exact hsum ▸ h σ p hp
  · intro h σ p hp
    rcases List.eq_nil_or_concat' p with rfl | ⟨q, e, rfl⟩
    · simpa using hx
    · have hlow := lowestSum_le_prefix (w := w) (σ.sorted l) hp
      rw [lowestSum, ((σ.perm l).map _).sum_eq] at hlow
      exact (h (key e)).trans (add_le_add_right hlow x)

end SortBy
