import CapacityFabric.Model.Aggregates

/-!
# The headroom gate

The gate is to reject a placement that leaves too little.  It compares the fraction with
a constant instead of what is left, and looks at every dimension that is stored.
-/

namespace CapacityFabric

/-- Where the demand asks for anything, something is left after placement, and at least
the fraction `s` of what there was. -/
def LeavesShare (effective requirements : Capacity) (s : ℚ) : Prop :=
  ∀ d, 0 < requirements.amount d → 0 < (effective.subtractClamp requirements).amount d ∧
    s * effective.amount d ≤ (effective.subtractClamp requirements).amount d

theorem has_holdCapacity_iff {hold : CapacityDelta} {d : Dimension} :
    (holdCapacity hold).has d = true ↔ hold.at_ d ≠ 0 := by
  rw [Capacity.has_eq, entry_holdCapacity, CapacityDelta.at_, amountIn]
  cases hold.changes.find? d with
  | none => simp
  | some v => by_cases hv : v = 0 <;> simp [hv]

/-- The dimension is stored without being asked for: as available, as a requirement of
nothing, or by an active hard reservation. -/
def StoredUnasked (view : FleetView) (requirements : Capacity) (d : Dimension) : Prop :=
  requirements.amount d = 0 ∧ (view.available.has d = true ∨ requirements.has d = true ∨
    ∃ rv ∈ view.reservations, holdsNow view.now rv = true ∧ rv.hold.at_ d ≠ 0)

theorem has_afterPlacement_iff {view : FleetView} {requirements : Capacity} {d : Dimension} :
    ((effectiveCapacity view).subtractClamp requirements).has d = true ↔
      view.available.has d = true ∨ requirements.has d = true ∨
        ∃ rv ∈ view.reservations, holdsNow view.now rv = true ∧ rv.hold.at_ d ≠ 0 := by
  have heffective : (effectiveCapacity view).has d =
      (subtractHolds view.now view.reservations view.available).has d := rfl
  simp only [Capacity.has_subtractClamp, heffective, has_subtractHolds, Bool.or_eq_true,
    List.any_eq_true, Bool.and_eq_true, has_holdCapacity_iff]
  rw [or_assoc]
  exact or_congr_right or_comm

/-- What is stored is positive after placement exactly when that is so of what nobody
asked for. -/
theorem positive_afterPlacement_iff {view : FleetView} {requirements : Capacity}
    (hleft : ∀ d, 0 < requirements.amount d →
      0 < ((effectiveCapacity view).subtractClamp requirements).amount d) :
    (∀ d, ((effectiveCapacity view).subtractClamp requirements).has d = true →
      0 < ((effectiveCapacity view).subtractClamp requirements).amount d) ↔
    ∀ d, StoredUnasked view requirements d →
      heldNow view.reservations view.now d < view.available.amount d := by
  have hunasked : ∀ d, requirements.amount d = 0 →
      (0 < ((effectiveCapacity view).subtractClamp requirements).amount d ↔
        heldNow view.reservations view.now d < view.available.amount d) := by
    intro d hnone
    rw [Capacity.amount_subtractClamp, hnone, sub_zero, amount_effectiveCapacity,
      max_eq_left (le_max_right _ _), lt_max_iff, sub_pos]
    exact or_iff_left (lt_irrefl 0)
  constructor
  · rintro h d ⟨hnone, hstored⟩
    exact (hunasked d hnone).mp (h d (has_afterPlacement_iff.mpr hstored))
  · intro h d hstored
    rcases (requirements.amount_nonneg d).eq_or_lt with hnone | hasked
    · have hheld := h d ⟨hnone.symm, has_afterPlacement_iff.mp hstored⟩
      exact (hunasked d hnone.symm).mpr hheld
    · exact hleft d hasked

/-- Where the other gates accept, the headroom gate decides. -/
theorem outcome_ne_noFitSloHeadroom_iff {view : FleetView} {demand : WorkloadDemand}
    (hvalid : demand.valid = true)
    (hfit : (evaluateNow view { demand with sloHeadroomRequirement := default }).outcome =
      .fitNow) :
    (evaluateNow view demand).outcome ≠ .noFitSloHeadroom ↔
      sloOk (effectiveCapacity view) demand = true := by
  obtain ⟨-, hgate, hgates⟩ := outcome_eq_fitNow_iff.mp hfit
  obtain ⟨htopology, hcount, hcontiguity, hsatisfies, hfragmentation, -⟩ :=
    gatesOutcome_eq_fitNow_iff.mp hgates
  -- The other gates do not read the fraction.
  have htopology : topologyOk view.devices demand = true := htopology
  have hcount : countOk view.devices demand = true := hcount
  have hcontiguity : contiguityOk view.devices demand = true := hcontiguity
  have hfragmentation : fragmentationOk view.devices demand = true := hfragmentation
  have hmissing := Capacity.missingDimensions_eq_nil_iff.mpr hsatisfies
  rw [outcome_of_valid hvalid hgate, gatesOutcome, htopology, hcount, hcontiguity, hmissing,
    hfragmentation]
  cases sloOk (effectiveCapacity view) demand <;> simp

def fourAvailable : FleetView where
  devices := [{ id := ⟨1⟩, health := .healthy }]
  available := Capacity.setAccelerators ∅ 4

def threeQuarters : WorkloadDemand :=
  { Reference.makeDemand ⟨1⟩ ⟨1⟩ 1 1 with sloHeadroomRequirement := ⟨3 / 4, by norm_num⟩ }

theorem leavesShare_threeQuarters :
    LeavesShare (effectiveCapacity fourAvailable) threeQuarters.requirements
      threeQuarters.sloHeadroomRequirement.value := by
  intro d hd
  by_cases hdimension : d = .acceleratorCount
  · subst hdimension
    decide +kernel
  · have hnone : threeQuarters.requirements.amount d = 0 :=
      (Capacity.amount_setAmount (by decide) ∅ .acceleratorCount d).trans (if_neg hdimension)
    exact absurd hd hnone.not_gt

end CapacityFabric
