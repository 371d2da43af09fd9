import CapacityFabric.Capacity.Capacity

/-!
# Rounded sums and differences

In any arithmetic sums and clamped differences grow with what is added, and what has been
rounded once stays as it is.
-/

namespace CapacityFabric

namespace Capacity

variable [A : Arithmetic]

def IsRounded (c : Capacity) : Prop := ∀ d, Arithmetic.round (c.amount d) = c.amount d

theorem isRounded_empty : (∅ : Capacity).IsRounded := fun _ => Arithmetic.round_zero

theorem IsRounded.setAmount {c : Capacity} (hc : c.IsRounded) {v : ℚ}
    (hv : Arithmetic.round v = v) (d : Dimension) : (c.setAmount d v).IsRounded := by
  rcases lt_or_ge v 0 with hneg | hpos
  · rwa [setAmount_of_neg hneg]
  · intro d'
    rw [amount_setAmount hpos]
    split_ifs
    · exact hv
    · exact hc d'

theorem amount_add_eq (a b : Capacity) (d : Dimension) :
    (a.add b).amount d =
      if b.has d then Arithmetic.round (a.amount d + b.amount d) else a.amount d := by
  rw [amount_eq, entry_add, has_eq]
  cases h : b.entry d with
  | none => rfl
  | some v =>
    rw [amount_of_entry h]
    rfl

theorem amount_subtractClamp_eq (a b : Capacity) (d : Dimension) :
    (a.subtractClamp b).amount d =
      if b.has d then max (Arithmetic.round (a.amount d - b.amount d)) 0 else a.amount d := by
  rw [amount_eq, entry_subtractClamp, has_eq]
  cases h : b.entry d with
  | none => rfl
  | some v =>
    rw [amount_of_entry h]
    rfl

theorem round_max_zero (x : ℚ) :
    Arithmetic.round (max (Arithmetic.round x) 0) = max (Arithmetic.round x) 0 := by
  rw [Arithmetic.round_mono.map_max, Arithmetic.round_round, Arithmetic.round_zero]

theorem IsRounded.add {a : Capacity} (ha : a.IsRounded) (b : Capacity) : (a.add b).IsRounded := by
  intro d
  rw [amount_add_eq]
  split_ifs
  · exact Arithmetic.round_round _
  · exact ha d

theorem IsRounded.subtractClamp {a : Capacity} (ha : a.IsRounded) (b : Capacity) :
    (a.subtractClamp b).IsRounded := by
  intro d
  rw [amount_subtractClamp_eq]
  split_ifs
  · exact round_max_zero _
  · exact ha d

theorem amount_add_mono {a a' : Capacity} {d : Dimension} (h : a.amount d ≤ a'.amount d)
    (b : Capacity) : (a.add b).amount d ≤ (a'.add b).amount d := by
  rw [amount_add_eq, amount_add_eq]
  split_ifs
  · exact Arithmetic.round_mono (add_le_add_left h _)
  · exact h

theorem IsRounded.amount_le_add {a : Capacity} (ha : a.IsRounded) (b : Capacity) (d : Dimension) :
    a.amount d ≤ (a.add b).amount d := by
  rw [amount_add_eq]
  split_ifs
  · calc a.amount d = Arithmetic.round (a.amount d) := (ha d).symm
      _ ≤ _ := Arithmetic.round_mono (le_add_of_nonneg_right (b.amount_nonneg d))
  · exact le_rfl

theorem amount_subtractClamp_mono {a a' : Capacity} {d : Dimension}
    (h : a.amount d ≤ a'.amount d) (b : Capacity) :
    (a.subtractClamp b).amount d ≤ (a'.subtractClamp b).amount d := by
  rw [amount_subtractClamp_eq, amount_subtractClamp_eq]
  split_ifs
  · exact max_le_max_right _ (Arithmetic.round_mono (sub_le_sub_right h _))
  · exact h

theorem IsRounded.amount_subtractClamp_le {a : Capacity} (ha : a.IsRounded) (b : Capacity)
    (d : Dimension) : (a.subtractClamp b).amount d ≤ a.amount d := by
  rw [amount_subtractClamp_eq]
  split_ifs
  · refine max_le ?_ (a.amount_nonneg d)
    calc Arithmetic.round (a.amount d - b.amount d)
        ≤ Arithmetic.round (a.amount d) :=
          Arithmetic.round_mono (sub_le_self _ (b.amount_nonneg d))
      _ = a.amount d := ha d
  · exact le_rfl

end Capacity

end CapacityFabric
