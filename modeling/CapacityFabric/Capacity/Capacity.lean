import CapacityFabric.Foundation.OrderedMap
import CapacityFabric.Core.Arithmetic
import CapacityFabric.Core.Units
import CapacityFabric.Capacity.Dimension

/-!
# Capacity amounts

A capacity holds a non-negative amount for each stored dimension; a dimension
that is not stored counts as zero.  Some operations store explicit zeros and some
erase them, so `entry` (what is stored) is kept apart from `amount`.
-/

namespace CapacityFabric

def amountIn (amounts : OrderedMap Dimension ℚ) (d : Dimension) : ℚ := (amounts.find? d).getD 0

structure Capacity where
  amounts : OrderedMap Dimension ℚ
  nonneg : ∀ d v, amounts.find? d = some v → 0 ≤ v

namespace Capacity

instance : EmptyCollection Capacity := ⟨⟨∅, by simp⟩⟩
instance : Inhabited Capacity := ⟨∅⟩

def entry (c : Capacity) (d : Dimension) : Option ℚ := c.amounts.find? d

def has (c : Capacity) (d : Dimension) : Bool := c.amounts.contains d

def amount (c : Capacity) (d : Dimension) : ℚ := amountIn c.amounts d

theorem amount_eq (c : Capacity) (d : Dimension) : c.amount d = (c.entry d).getD 0 := rfl

theorem has_eq (c : Capacity) (d : Dimension) : c.has d = (c.entry d).isSome := rfl

@[simp] theorem entry_empty (d : Dimension) : (∅ : Capacity).entry d = none := rfl

@[simp] theorem amount_empty (d : Dimension) : (∅ : Capacity).amount d = 0 := rfl

theorem amount_of_entry {c : Capacity} {d : Dimension} {v : ℚ} (h : c.entry d = some v) :
    c.amount d = v := by
  rw [amount_eq, h, Option.getD_some]

theorem amount_of_not_has {c : Capacity} {d : Dimension} (h : c.has d = false) :
    c.amount d = 0 := by
  have hnone : c.entry d = none := by simpa [has_eq] using h
  rw [amount_eq, hnone, Option.getD_none]

theorem amount_nonneg (c : Capacity) (d : Dimension) : 0 ≤ c.amount d := by
  cases h : c.entry d with
  | none => rw [amount_eq, h, Option.getD_none]
  | some v => rw [amount_of_entry h]; exact c.nonneg d v h

theorem has_of_amount_pos {c : Capacity} {d : Dimension} (h : 0 < c.amount d) :
    c.has d = true := by
  by_contra hn
  exact h.ne' (amount_of_not_has (Bool.not_eq_true _ ▸ hn))

theorem ext_entry {a b : Capacity} (h : ∀ d, a.entry d = b.entry d) : a = b := by
  obtain ⟨a, ha⟩ := a
  obtain ⟨b, hb⟩ := b
  have he : a = b := OrderedMap.ext_find? h
  subst he
  rfl

/-- Sets an amount, erasing the entry when it is zero.  Nothing on a negative
amount, which the source rejects. -/
def setAmount? (c : Capacity) (d : Dimension) (v : ℚ) : Option Capacity :=
  if hv : v < 0 then none
  else if v = 0 then
    some ⟨c.amounts.erase d, fun d' w h => by
      rw [OrderedMap.find?_erase] at h
      split_ifs at h
      exact c.nonneg d' w h⟩
  else
    some ⟨c.amounts.insert d v, fun d' w h => by
      rw [OrderedMap.find?_insert] at h
      split_ifs at h with he
      · exact Option.some.inj h ▸ not_lt.mp hv
      · exact c.nonneg d' w h⟩

/-- The capacity after a call that ignores whether the amount was rejected. -/
def setAmount (c : Capacity) (d : Dimension) (v : ℚ) : Capacity := (c.setAmount? d v).getD c

/-- The loop `for (d, v) in other: amounts[d] = f(amount(d), v)`. -/
def updateAmounts (f : ℚ → ℚ → ℚ) (amounts other : OrderedMap Dimension ℚ) :
    OrderedMap Dimension ℚ :=
  other.entries.foldl (fun acc p => acc.insert p.1 (f (amountIn acc p.1) p.2)) amounts

theorem find?_updateAmounts (f : ℚ → ℚ → ℚ) (amounts other : OrderedMap Dimension ℚ)
    (d : Dimension) :
    (updateAmounts f amounts other).find? d =
      (other.find? d).elim (amounts.find? d) fun v => some (f (amountIn amounts d) v) := by
  apply OrderedMap.foldl_pointwise (fun s k => OrderedMap.find? s k)
    (fun acc k v => acc.insert k (f (amountIn acc k) v)) (fun k v o => some (f (o.getD 0) v))
  intro s k v k'
  exact OrderedMap.find?_insert s k k' _

/-- An `updateAmounts` loop over another capacity, for an `f` that stays non-negative. -/
def update (f : ℚ → ℚ → ℚ) (hf : ∀ x y, 0 ≤ x → 0 ≤ y → 0 ≤ f x y) (c other : Capacity) :
    Capacity where
  amounts := updateAmounts f c.amounts other.amounts
  nonneg d v h := by
    rw [find?_updateAmounts] at h
    cases ho : other.amounts.find? d with
    | none => rw [ho] at h; exact c.nonneg d v h
    | some w =>
      rw [ho] at h
      exact Option.some.inj h ▸ hf _ _ (c.amount_nonneg d) (other.nonneg d w ho)

def add [A : Arithmetic] (c other : Capacity) : Capacity :=
  c.update (fun cur v => Arithmetic.round (cur + v))
    (fun _ _ hx hy => Arithmetic.round_nonneg (add_nonneg hx hy)) other

/-- Subtracts component-wise, clamping at zero.  Every dimension of `other` is
stored afterwards, if only as a zero. -/
def subtractClamp [A : Arithmetic] (c other : Capacity) : Capacity :=
  c.update (fun cur v =>
      let t := Arithmetic.round (cur - v)
      if 0 < t then t else 0)
    (fun _ _ _ _ => by
      dsimp only
      split_ifs with h
      · exact h.le
      · exact le_rfl) other

def satisfies (c requirement : Capacity) : Bool :=
  requirement.amounts.entries.all fun p => !(c.amount p.1 < p.2)

def missingDimensions (c requirement : Capacity) : List Dimension :=
  (requirement.amounts.entries.filter fun p => c.amount p.1 < p.2).map Prod.fst

/-- The two loops that `min` and `maxCap` share: `pick` on the dimensions of the
left side, then the dimensions that only the right side has, as they are. -/
def mergeAmounts (pick : ℚ → ℚ → ℚ) (left right : OrderedMap Dimension ℚ) :
    OrderedMap Dimension ℚ :=
  let out := left.entries.foldl (fun out p => out.insert p.1 (pick p.2 (amountIn right p.1))) ∅
  right.entries.foldl (fun out p => if out.contains p.1 then out else out.insert p.1 p.2) out

theorem find?_mergeAmounts (pick : ℚ → ℚ → ℚ) (left right : OrderedMap Dimension ℚ)
    (d : Dimension) :
    (mergeAmounts pick left right).find? d =
      ((left.find? d).map fun v => pick v (amountIn right d)).or (right.find? d) := by
  have hleft := OrderedMap.foldl_pointwise (fun s k => OrderedMap.find? s k)
    (fun out k v => out.insert k (pick v (amountIn right k)))
    (fun k v _ => some (pick v (amountIn right k)))
    (fun s k v k' => OrderedMap.find?_insert s k k' _) left ∅ d
  have hright := fun out => OrderedMap.foldl_pointwise (fun s k => OrderedMap.find? s k)
    (fun (out : OrderedMap Dimension ℚ) k v => if out.contains k then out else out.insert k v)
    (fun _ v o => o.or (some v))
    (fun s k v k' => by
      by_cases hk : k' = k
      · subst hk
        cases hs : s.find? k' with
        | none => simp [OrderedMap.contains, hs]
        | some w => simp [OrderedMap.contains, hs]
      · by_cases hc : s.contains k = true
        · simp [hc, hk]
        · simp [hc, hk, OrderedMap.find?_insert]) right out d
  rw [mergeAmounts, hright, hleft]
  cases left.find? d <;> cases right.find? d <;> simp

def merge (pick : ℚ → ℚ → ℚ) (hpick : ∀ x y, 0 ≤ x → 0 ≤ y → 0 ≤ pick x y)
    (c other : Capacity) : Capacity where
  amounts := mergeAmounts pick c.amounts other.amounts
  nonneg d v h := by
    rw [find?_mergeAmounts] at h
    cases hc : c.amounts.find? d with
    | none => rw [hc] at h; exact other.nonneg d v (by simpa using h)
    | some w =>
      rw [hc] at h
      exact Option.some.inj h ▸ hpick _ _ (c.nonneg d w hc) (other.amount_nonneg d)

def min (c other : Capacity) : Capacity :=
  c.merge (fun v ov => if v < ov then v else ov)
    (fun _ _ hx hy => by split_ifs <;> assumption) other

def maxCap (c other : Capacity) : Capacity :=
  c.merge (fun v ov => if v > ov then v else ov)
    (fun _ _ hx hy => by split_ifs <;> assumption) other

def setVram [A : Arithmetic] (c : Capacity) (b : ByteCount) : Capacity :=
  c.setAmount .vramBytes (Arithmetic.round b.toNat)

def setAccelerators [A : Arithmetic] (c : Capacity) (n : DeviceCount) : Capacity :=
  c.setAmount .acceleratorCount (Arithmetic.round n.toNat)

def vram (c : Capacity) : ByteCount := toUInt64 (c.amount .vramBytes)

def accelerators (c : Capacity) : DeviceCount := toUInt64 (c.amount .acceleratorCount)

theorem entry_setAmount {v : ℚ} (hv : 0 ≤ v) (c : Capacity) (d d' : Dimension) :
    (c.setAmount d v).entry d' =
      if d' = d then if v = 0 then none else some v else c.entry d' := by
  unfold setAmount setAmount? entry
  rw [dif_neg hv.not_gt]
  by_cases h : v = 0
  · simp only [h, if_true, Option.getD_some]
    exact OrderedMap.find?_erase _ d d'
  · simp only [h, if_false, Option.getD_some]
    exact OrderedMap.find?_insert _ d d' v

theorem amount_setAmount {v : ℚ} (hv : 0 ≤ v) (c : Capacity) (d d' : Dimension) :
    (c.setAmount d v).amount d' = if d' = d then v else c.amount d' := by
  rw [amount_eq, entry_setAmount hv]
  split_ifs with hd h0
  · exact h0.symm
  · rfl
  · rfl

theorem amount_setAccelerators [A : Arithmetic] (c : Capacity) (n : DeviceCount) (d : Dimension) :
    (c.setAccelerators n).amount d =
      if d = .acceleratorCount then Arithmetic.round n.toNat else c.amount d :=
  amount_setAmount (Arithmetic.round_nonneg (Nat.cast_nonneg _)) c .acceleratorCount d

theorem amount_setVram [A : Arithmetic] (c : Capacity) (b : ByteCount) (d : Dimension) :
    (c.setVram b).amount d = if d = .vramBytes then Arithmetic.round b.toNat else c.amount d :=
  amount_setAmount (Arithmetic.round_nonneg (Nat.cast_nonneg _)) c .vramBytes d

/-- A negative amount is rejected, which leaves the capacity as it is. -/
theorem setAmount_of_neg {v : ℚ} (hv : v < 0) (c : Capacity) (d : Dimension) :
    c.setAmount d v = c := by
  rw [setAmount, setAmount?, dif_pos hv, Option.getD_none]

theorem setAmount?_of_nonneg (c : Capacity) (d : Dimension) {v : ℚ} (hv : 0 ≤ v) :
    c.setAmount? d v = some (c.setAmount d v) := by
  unfold setAmount setAmount?
  rw [dif_neg hv.not_gt]
  split_ifs <;> rfl

def BuiltBySetAmount (c : Capacity) : Prop :=
  ∃ calls : List (Dimension × ℚ), c = calls.foldl (fun c p => c.setAmount p.1 p.2) ∅

theorem builtBySetAmount_setAmount (d : Dimension) (v : ℚ) :
    (setAmount ∅ d v).BuiltBySetAmount :=
  ⟨[(d, v)], rfl⟩

def StoresNoZero (c : Capacity) : Prop := ∀ d, c.has d = true → 0 < c.amount d

theorem StoresNoZero.setAmount {c : Capacity} (h : c.StoresNoZero) (d : Dimension) (v : ℚ) :
    (c.setAmount d v).StoresNoZero := by
  intro d' hd'
  rcases lt_or_ge v 0 with hneg | hpos
  · rw [setAmount_of_neg hneg] at hd' ⊢
    exact h d' hd'
  · rw [has_eq, entry_setAmount hpos] at hd'
    rw [amount_setAmount hpos]
    by_cases hd : d' = d
    · have hv : v ≠ 0 := by
        intro hzero
        simp [hd, hzero] at hd'
      rw [if_pos hd]
      exact lt_of_le_of_ne hpos hv.symm
    · rw [if_neg hd] at hd' ⊢
      exact h d' hd'

theorem BuiltBySetAmount.storesNoZero {c : Capacity} (h : c.BuiltBySetAmount) :
    c.StoresNoZero := by
  have hall : ∀ (calls : List (Dimension × ℚ)) (c : Capacity), c.StoresNoZero →
      (calls.foldl (fun c p => c.setAmount p.1 p.2) c).StoresNoZero := by
    intro calls
    induction calls with
    | nil => exact fun c hc => hc
    | cons p calls ih => exact fun c hc => ih _ (hc.setAmount p.1 p.2)
  obtain ⟨calls, rfl⟩ := h
  exact hall calls ∅ fun d hd => by simp [has_eq] at hd

section Rounded

variable [A : Arithmetic]

theorem entry_add (a b : Capacity) (d : Dimension) :
    (a.add b).entry d =
      (b.entry d).elim (a.entry d) fun v => some (Arithmetic.round (a.amount d + v)) :=
  find?_updateAmounts _ _ _ d

theorem entry_subtractClamp (a b : Capacity) (d : Dimension) :
    (a.subtractClamp b).entry d = (b.entry d).elim (a.entry d) fun v =>
      some (max (Arithmetic.round (a.amount d - v)) 0) := by
  have h := find?_updateAmounts (fun cur v =>
    if 0 < Arithmetic.round (cur - v) then Arithmetic.round (cur - v) else 0)
    a.amounts b.amounts d
  refine h.trans ?_
  congr
  funext v
  rw [max_def]
  split_ifs with h1 h2 h2
  · exact absurd h1 (not_lt.mpr h2)
  · rfl
  · rfl
  · exact absurd (not_lt.mp h1) h2

theorem has_add (a b : Capacity) (d : Dimension) :
    (a.add b).has d = (a.has d || b.has d) := by
  rw [has_eq, has_eq, has_eq, entry_add]
  cases b.entry d <;> simp

theorem has_subtractClamp (a b : Capacity) (d : Dimension) :
    (a.subtractClamp b).has d = (a.has d || b.has d) := by
  rw [has_eq, has_eq, has_eq, entry_subtractClamp]
  cases b.entry d <;> simp

end Rounded

@[simp] theorem amount_add (a b : Capacity) (d : Dimension) :
    (a.add b).amount d = a.amount d + b.amount d := by
  rw [amount_eq, entry_add]
  cases h : b.entry d with
  | none => rw [b.amount_eq, h, Option.getD_none, add_zero]; rfl
  | some v => rw [amount_of_entry h]; rfl

@[simp] theorem amount_subtractClamp (a b : Capacity) (d : Dimension) :
    (a.subtractClamp b).amount d = max (a.amount d - b.amount d) 0 := by
  rw [amount_eq, entry_subtractClamp]
  cases h : b.entry d with
  | none =>
    rw [b.amount_eq, h, Option.getD_none, sub_zero, max_eq_left (a.amount_nonneg d)]
    rfl
  | some v => rw [amount_of_entry h]; rfl

/-- The minimum of an unstored and a stored amount is the stored one. -/
theorem entry_min (a b : Capacity) (d : Dimension) :
    (a.min b).entry d =
      ((a.entry d).map fun v => Min.min v (b.amount d)).or (b.entry d) := by
  have h := find?_mergeAmounts (fun v ov => if v < ov then v else ov) a.amounts b.amounts d
  refine h.trans ?_
  congr
  funext v
  rw [min_def_lt]
  rfl

theorem satisfies_iff {c requirement : Capacity} :
    c.satisfies requirement = true ↔ ∀ d, requirement.amount d ≤ c.amount d := by
  simp only [satisfies, List.all_eq_true, Bool.not_eq_true', decide_eq_false_iff_not, not_lt]
  constructor
  · intro h d
    cases hd : requirement.entry d with
    | none => rw [requirement.amount_eq, hd]; exact c.amount_nonneg d
    | some v => rw [amount_of_entry hd]; exact h (d, v) (OrderedMap.find?_eq_some_iff.mp hd)
  · intro h p hp
    have hv : requirement.entry p.1 = some p.2 := OrderedMap.find?_eq_some_iff.mpr hp
    exact amount_of_entry hv ▸ h p.1

theorem satisfies_setAmount {c : Capacity} {d : Dimension} {v : ℚ} (hv : 0 ≤ v) :
    c.satisfies (setAmount ∅ d v) = true ↔ v ≤ c.amount d := by
  rw [satisfies_iff]
  constructor
  · intro h
    simpa [amount_setAmount hv] using h d
  · intro h d'
    rw [amount_setAmount hv]
    split_ifs with hd
    · exact hd ▸ h
    · exact c.amount_nonneg d'

theorem missingDimensions_eq_nil_iff {c requirement : Capacity} :
    c.missingDimensions requirement = [] ↔ c.satisfies requirement = true := by
  simp [missingDimensions, satisfies]

theorem mem_missingDimensions_iff {c requirement : Capacity} {d : Dimension} :
    d ∈ c.missingDimensions requirement ↔ c.amount d < requirement.amount d := by
  rw [missingDimensions, List.mem_map]
  simp only [List.mem_filter, decide_eq_true_eq]
  constructor
  · rintro ⟨p, ⟨hp, hlt⟩, rfl⟩
    have hv : requirement.entry p.1 = some p.2 := OrderedMap.find?_eq_some_iff.mpr hp
    rwa [amount_of_entry hv]
  · intro hlt
    cases hd : requirement.entry d with
    | none =>
      rw [requirement.amount_eq, hd] at hlt
      exact absurd hlt (c.amount_nonneg d).not_gt
    | some v =>
      rw [amount_of_entry hd] at hlt
      exact ⟨(d, v), ⟨OrderedMap.find?_eq_some_iff.mp hd, hlt⟩, rfl⟩

theorem missingDimensions_congr (c : Capacity) {requirement requirement' : Capacity}
    (h : ∀ d, requirement.amount d = requirement'.amount d) :
    c.missingDimensions requirement = c.missingDimensions requirement' := by
  have hsorted : ∀ requirement : Capacity,
      (c.missingDimensions requirement).Pairwise (· < ·) := by
    intro requirement
    exact (requirement.amounts.sorted.filter _).map _ fun _ _ hlt => hlt
  have hnodup : ∀ requirement : Capacity, (c.missingDimensions requirement).Nodup :=
    fun requirement => (hsorted requirement).imp fun hlt => hlt.ne
  have hperm := (List.perm_ext_iff_of_nodup (hnodup requirement) (hnodup requirement')).mpr
    fun d => by rw [mem_missingDimensions_iff, mem_missingDimensions_iff, h]
  exact hperm.eq_of_pairwise (fun _ _ _ _ hab hba => absurd hba hab.not_gt) (hsorted _)
    (hsorted _)

end Capacity

end CapacityFabric
