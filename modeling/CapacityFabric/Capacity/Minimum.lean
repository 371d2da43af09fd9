import CapacityFabric.Capacity.Capacity

/-!
# The component-wise minimum

A dimension that the left side does not store comes out as the right side has it, so
only where the left side stores its amounts are both sides bounds of the minimum.
-/

namespace CapacityFabric.Capacity

theorem has_min (a b : Capacity) (d : Dimension) : (a.min b).has d = (a.has d || b.has d) := by
  rw [has_eq, has_eq, has_eq, entry_min]
  cases a.entry d <;> simp

theorem amount_min (a b : Capacity) (d : Dimension) :
    (a.min b).amount d =
      if a.has d = true then Min.min (a.amount d) (b.amount d) else b.amount d := by
  rw [amount_eq, entry_min, has_eq]
  cases ha : a.entry d with
  | none => rfl
  | some v => rw [amount_of_entry ha]; rfl

theorem amount_min_of_has {a : Capacity} {d : Dimension} (ha : a.has d = true) (b : Capacity) :
    (a.min b).amount d = Min.min (a.amount d) (b.amount d) := by
  rw [amount_min, if_pos ha]

theorem amount_min_of_not_has {a : Capacity} {d : Dimension} (ha : a.has d = false)
    (b : Capacity) : (a.min b).amount d = b.amount d := by
  rw [amount_min, ha, if_neg Bool.false_ne_true]

theorem min_amount_eq_zero_iff {a b : Capacity} {d : Dimension} :
    Min.min (a.amount d) (b.amount d) = 0 ↔ a.amount d = 0 ∨ b.amount d = 0 := by
  constructor
  · intro h
    rcases min_choice (a.amount d) (b.amount d) with ha | hb
    · exact Or.inl (ha.symm.trans h)
    · exact Or.inr (hb.symm.trans h)
  · rintro (ha | hb)
    · rw [ha, min_eq_left (b.amount_nonneg d)]
    · rw [hb, min_eq_right (a.amount_nonneg d)]

/-- The minimum meets what the right side meets, and the left side where it stores. -/
theorem satisfies_min_iff {a b r : Capacity} :
    (a.min b).satisfies r = true ↔
      b.satisfies r = true ∧ ∀ d, a.has d = true → r.amount d ≤ a.amount d := by
  rw [satisfies_iff, satisfies_iff, ← forall_and]
  apply forall_congr'
  intro d
  by_cases ha : a.has d = true
  · rw [amount_min_of_has ha, le_min_iff, and_comm]
    exact and_congr_right fun _ => ⟨fun h _ => h, fun h => h ha⟩
  · rw [amount_min_of_not_has (Bool.not_eq_true _ ▸ ha)]
    exact (and_iff_left fun h => absurd h ha).symm

/-- What only the right side stores is not required. -/
theorem satisfies_iff_stored {a r : Capacity} :
    a.satisfies r = true ↔ (∀ d, a.has d = true → r.amount d ≤ a.amount d) ∧
      ∀ d, a.has d = false → r.amount d = 0 := by
  rw [satisfies_iff]
  constructor
  · intro h
    refine ⟨fun d _ => h d, fun d ha => ?_⟩
    exact le_antisymm (amount_of_not_has ha ▸ h d) (r.amount_nonneg d)
  · rintro ⟨hstored, hunstored⟩ d
    cases ha : a.has d with
    | true => exact hstored d ha
    | false => rw [hunstored d ha]; exact a.amount_nonneg d

theorem satisfies_min_iff_both {a b r : Capacity} :
    ((a.min b).satisfies r = true ↔ a.satisfies r = true ∧ b.satisfies r = true) ↔
      (b.satisfies r = true → (∀ d, a.has d = true → r.amount d ≤ a.amount d) →
        ∀ d, a.has d = false → r.amount d = 0) := by
  rw [satisfies_min_iff, satisfies_iff_stored (a := a)]
  tauto

/-- The minimum is the greatest lower bound exactly when nothing is left that only the
right side stores. -/
theorem min_isGLB_iff {a b : Capacity} :
    (∀ r, (a.min b).satisfies r = true ↔ a.satisfies r = true ∧ b.satisfies r = true) ↔
      ∀ d, a.has d = false → b.amount d = 0 := by
  constructor
  · intro h d ha
    -- The amount that the right side has in the dimension is itself a requirement.
    have hr := b.amount_nonneg d
    have hleft : (a.min b).satisfies (setAmount ∅ d (b.amount d)) = true := by
      rw [satisfies_setAmount hr, amount_min_of_not_has ha]
    have hzero := (satisfies_setAmount hr).mp ((h _).mp hleft).1
    exact le_antisymm (amount_of_not_has ha ▸ hzero) hr
  · intro h r
    apply satisfies_min_iff_both.mpr
    intro hb _ d ha
    exact le_antisymm (h d ha ▸ satisfies_iff.mp hb d) (r.amount_nonneg d)

theorem amount_min_comm_iff {a b : Capacity} {d : Dimension} :
    (a.min b).amount d = (b.min a).amount d ↔
      (a.has d = false → b.amount d = 0) ∧ (b.has d = false → a.amount d = 0) := by
  cases ha : a.has d with
  | true =>
    cases hb : b.has d with
    | true =>
      rw [amount_min_of_has ha, amount_min_of_has hb]
      simp [min_comm]
    | false =>
      rw [amount_min_of_has ha, amount_min_of_not_has hb,
        min_amount_eq_zero_iff.mpr (Or.inr (amount_of_not_has hb))]
      simp [eq_comm]
  | false =>
    cases hb : b.has d with
    | true =>
      rw [amount_min_of_not_has ha, amount_min_of_has hb,
        min_amount_eq_zero_iff.mpr (Or.inr (amount_of_not_has ha))]
      simp [eq_comm]
    | false =>
      rw [amount_min_of_not_has ha, amount_min_of_not_has hb, amount_of_not_has ha,
        amount_of_not_has hb]
      simp

theorem amount_min_assoc_iff {a b c : Capacity} {d : Dimension} :
    ((a.min b).min c).amount d = (a.min (b.min c)).amount d ↔
      (b.has d = false → a.amount d = 0 ∨ c.amount d = 0) := by
  cases ha : a.has d with
  | true =>
    have hab : (a.min b).has d = true := by rw [has_min, ha, Bool.true_or]
    rw [amount_min_of_has hab, amount_min_of_has ha, amount_min_of_has ha]
    cases hb : b.has d with
    | true =>
      rw [amount_min_of_has hb, min_assoc]
      simp
    | false =>
      -- The outer minimum sees the zero that the inner one stored.
      rw [amount_min_of_not_has hb, min_amount_eq_zero_iff.mpr (Or.inr (amount_of_not_has hb)),
        min_eq_left (c.amount_nonneg d), eq_comm, min_amount_eq_zero_iff]
      simp
  | false =>
    have hboth : ((a.min b).min c).amount d = (a.min (b.min c)).amount d := by
      rw [amount_min_of_not_has ha, amount_min, amount_min b c, has_min, ha, Bool.false_or,
        amount_min_of_not_has ha]
    exact iff_of_true hboth fun _ => Or.inl (amount_of_not_has ha)

theorem amount_min_self (a : Capacity) (d : Dimension) : (a.min a).amount d = a.amount d := by
  rw [amount_min, min_self, ite_self]

/-- The exact conditions for the laws of the minimum: for the bound and for commuting
what only one side stores is zero, for associativity what the middle does not store is
zero on the left or on the right. -/
theorem min_laws_iff (a b c r : Capacity) :
    (((a.min b).satisfies r = true ↔ a.satisfies r = true ∧ b.satisfies r = true) ↔
      (b.satisfies r = true → (∀ d, a.has d = true → r.amount d ≤ a.amount d) →
        ∀ d, a.has d = false → r.amount d = 0)) ∧
    ((∀ r, (a.min b).satisfies r = true ↔ a.satisfies r = true ∧ b.satisfies r = true) ↔
      ∀ d, a.has d = false → b.amount d = 0) ∧
    ((∀ d, (a.min b).amount d = (b.min a).amount d) ↔
      ∀ d, (a.has d = false → b.amount d = 0) ∧ (b.has d = false → a.amount d = 0)) ∧
    ((∀ d, ((a.min b).min c).amount d = (a.min (b.min c)).amount d) ↔
      ∀ d, b.has d = false → a.amount d = 0 ∨ c.amount d = 0) ∧
    ∀ d, (a.min a).amount d = a.amount d :=
  ⟨satisfies_min_iff_both, min_isGLB_iff, forall_congr' fun _ => amount_min_comm_iff,
    forall_congr' fun _ => amount_min_assoc_iff, amount_min_self a⟩

theorem min_of_nothing :
    ¬ ∀ a b r : Capacity,
      (a.min b).satisfies r = true ↔ a.satisfies r = true ∧ b.satisfies r = true := by
  intro h
  have hempty := (h ∅ (setAccelerators ∅ 4) (setAccelerators ∅ 1)).mp (by decide +kernel)
  revert hempty
  decide +kernel

end CapacityFabric.Capacity
