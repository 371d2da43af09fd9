import CapacityFabric.Capacity.Capacity
import CapacityFabric.Foundation.CheckedLoop

/-!
# Sums that are not finite

Adding capacities raises when the sum in some dimension is no longer finite.
-/

namespace CapacityFabric

namespace Capacity

variable [A : Arithmetic]

/-- Every amount is stored as at most the largest `double`. -/
def IsFinite (c : Capacity) : Prop := ∀ d, Arithmetic.round (c.amount d) ≤ dblMax

theorem isFinite_empty : (∅ : Capacity).IsFinite := fun d => by
  rw [amount_empty, Arithmetic.round_zero, dblMax]
  positivity

/-- One turn of the loop of `add`, which raises on a sum that is not finite. -/
def addEntry? (acc : OrderedMap Dimension ℚ) (p : Dimension × ℚ) :
    Option (OrderedMap Dimension ℚ) :=
  let sum := Arithmetic.round (amountIn acc p.1 + p.2)
  if dblMax < sum then none else some (acc.insert p.1 sum)

def addAmounts? (amounts other : OrderedMap Dimension ℚ) : Option (OrderedMap Dimension ℚ) :=
  other.entries.foldlM addEntry? amounts

def addEntry (acc : OrderedMap Dimension ℚ) (p : Dimension × ℚ) : OrderedMap Dimension ℚ :=
  acc.insert p.1 (Arithmetic.round (amountIn acc p.1 + p.2))

theorem addEntry?_eq_some_iff {acc acc' : OrderedMap Dimension ℚ} {p : Dimension × ℚ} :
    addEntry? acc p = some acc' ↔
      acc' = addEntry acc p ∧ Arithmetic.round (amountIn acc p.1 + p.2) ≤ dblMax := by
  unfold addEntry?
  dsimp only
  split_ifs with h
  · simp [h.not_ge]
  · simp [not_lt.mp h, addEntry, eq_comm]

theorem addAmounts?_eq_updateAmounts {amounts other acc : OrderedMap Dimension ℚ}
    (h : addAmounts? amounts other = some acc) :
    acc = updateAmounts (fun cur v => Arithmetic.round (cur + v)) amounts other :=
  CheckedLoop.eq_foldl_of_foldlM (fun _ _ _ hstep => (addEntry?_eq_some_iff.mp hstep).1) h

/-- `add` as the source has it: nothing where it raises. -/
def add? (c other : Capacity) : Option Capacity :=
  match h : addAmounts? c.amounts other.amounts with
  | none => none
  | some amounts => some ⟨amounts, addAmounts?_eq_updateAmounts h ▸ (c.add other).nonneg⟩

theorem amountIn_addEntry (acc : OrderedMap Dimension ℚ) (p : Dimension × ℚ) (d : Dimension) :
    amountIn (addEntry acc p) d =
      if d = p.1 then Arithmetic.round (amountIn acc p.1 + p.2) else amountIn acc d := by
  rw [addEntry, amountIn, OrderedMap.find?_insert]
  split_ifs <;> rfl

/-- What is stored for the amounts of a running total. -/
def storedIn (amounts : OrderedMap Dimension ℚ) (d : Dimension) : ℚ :=
  Arithmetic.round (amountIn amounts d)

theorem storedIn_addEntry (acc : OrderedMap Dimension ℚ) (p : Dimension × ℚ) (d : Dimension) :
    storedIn (addEntry acc p) d =
      if d = p.1 then Arithmetic.round (amountIn acc p.1 + p.2) else storedIn acc d := by
  rw [storedIn, amountIn_addEntry]
  split_ifs
  · exact Arithmetic.round_round _
  · rfl

theorem checks_addEntry {p : Dimension × ℚ} (hp : 0 ≤ p.2) :
    CheckedLoop.Checks addEntry? addEntry storedIn (fun _ => dblMax) p where
  grows acc d := by
    rw [storedIn_addEntry]
    split_ifs with hd
    · rw [hd]
      exact Arithmetic.round_mono (le_add_of_nonneg_right hp)
    · exact le_rfl
  checked acc acc' hacc := by
    rw [addEntry?_eq_some_iff]
    refine and_congr_right ?_
    rintro rfl
    constructor
    · intro hsum d
      rw [storedIn_addEntry]
      split_ifs
      · exact hsum
      · exact hacc d
    · intro hbound
      have hsum := hbound p.1
      rwa [storedIn_addEntry, if_pos rfl] at hsum

theorem round_amount_le_add (c other : Capacity) (d : Dimension) :
    Arithmetic.round (c.amount d) ≤ Arithmetic.round ((c.add other).amount d) := by
  rw [(c.add other).amount_eq, entry_add]
  cases h : other.entry d with
  | none => exact le_rfl
  | some v =>
    rw [Option.elim_some, Option.getD_some, Arithmetic.round_round]
    exact Arithmetic.round_mono (le_add_of_nonneg_right (other.nonneg d v h))

/-- Adding to a finite capacity raises exactly when the sum is not finite. -/
theorem add?_eq_some_iff {c other c' : Capacity} (hc : c.IsFinite) :
    c.add? other = some c' ↔ c' = c.add other ∧ c'.IsFinite := by
  have hentries : ∀ p ∈ other.amounts.entries,
      CheckedLoop.Checks addEntry? addEntry storedIn (fun _ => dblMax) p := fun p hp =>
    checks_addEntry (other.nonneg p.1 p.2 (OrderedMap.find?_eq_some_iff.mpr hp))
  have hloop := CheckedLoop.foldlM_eq_some_iff hentries hc
  unfold add?
  constructor
  · intro h
    split at h
    · exact absurd h (by simp)
    · next amounts hamounts =>
      obtain ⟨heq, hfinite⟩ := (hloop amounts).mp hamounts
      obtain rfl := Option.some.inj h
      subst heq
      exact ⟨rfl, hfinite⟩
  · rintro ⟨rfl, hfinite⟩
    have hamounts : addAmounts? c.amounts other.amounts = some (c.add other).amounts :=
      (hloop _).mpr ⟨rfl, hfinite⟩
    split
    · next hnone => simp [hamounts] at hnone
    · next amounts hsome =>
      obtain rfl := Option.some.inj (hamounts.symm.trans hsome)
      rfl

end Capacity

end CapacityFabric
