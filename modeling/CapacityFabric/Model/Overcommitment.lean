import CapacityFabric.Model.Aggregates

/-!
# Placements are covered

The effective capacity is cut off at zero after every hold, so it alone does not say
what the holds add up to.  Where a positive requirement is met nothing was cut off, and
the requirement and the holds together are within what the view has available.
-/

namespace CapacityFabric

/-- What meets a positive requirement after the holds is what is left of the whole. -/
theorem add_heldNow_le_available {view : FleetView} {d : Dimension} {q : ℚ} (hq : 0 < q)
    (h : q ≤ (effectiveCapacity view).amount d) :
    q + heldNow view.reservations view.now d ≤ view.available.amount d := by
  rw [amount_effectiveCapacity] at h
  rcases le_max_iff.mp h with hleft | hzero
  · exact le_sub_iff_add_le.mp hleft
  · exact absurd hzero hq.not_ge

/-- A demand that fits now is covered by what the active hard reservations leave, in
every dimension it requires; it has its devices, and the evidence is not in doubt. -/
theorem fitNow_covered {view : FleetView} {demand : WorkloadDemand}
    (hfit : (evaluateNow view demand).outcome = .fitNow) :
    (∀ d, 0 < demand.requirements.amount d →
      demand.requirements.amount d + heldNow view.reservations view.now d ≤
        view.available.amount d) ∧
    demand.minAccelerators.toNat ≤ (usableDevices view.devices demand).length ∧
    view.freshness ≠ .stale ∧ view.freshness ≠ .revalidationRequired ∧
      view.freshness ≠ .insufficientEvidence := by
  obtain ⟨-, hgate, hgates⟩ := outcome_eq_fitNow_iff.mp hfit
  obtain ⟨-, hcount, -, hsatisfies, -⟩ := gatesOutcome_eq_fitNow_iff.mp hgates
  refine ⟨?_, countOk_iff.mp hcount, ?_⟩
  · intro d hpos
    exact add_heldNow_le_available hpos (Capacity.satisfies_iff.mp hsatisfies d)
  · rcases freshnessGate_eq_none_iff.mp hgate with hfresh | hunknown
    · simp [hfresh]
    · simp [hunknown]

def halfHeld : FleetView where
  devices := [{ id := ⟨1⟩, health := .healthy }]
  available := acceleratorBase 8
  reservations := [hardHold 1 firstTen 4]
  now := 5

theorem fitNow_covered_halfHeld :
    fourAccelerators.requirements.amount .acceleratorCount +
        heldNow halfHeld.reservations halfHeld.now .acceleratorCount ≤
      halfHeld.available.amount .acceleratorCount :=
  (fitNow_covered (by decide +kernel)).1 .acceleratorCount (by decide +kernel)

end CapacityFabric
