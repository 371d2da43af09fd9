import CapacityFabric.Model.Operations
import CapacityFabric.Model.Query

/-!
# The present and the future path of feasibility

A query about the present asks every gate, a query about the future only whether
the timeline has the required capacity then.
-/

namespace CapacityFabric

theorem capacityAt_buildTimeline_nil [A : Arithmetic] (σ : EventSort) (base : Capacity)
    (mode : QueryMode) (t : TimePoint) : (buildTimeline σ base [] [] mode).capacityAt t = base := by
  have hnil : σ.sort (draftTimeline base [] [] mode).events = [] := (σ.perm _).eq_nil
  rw [buildTimeline, Timeline.capacityAt_freeze, Timeline.eventsUntil, Timeline.events_freeze, hnil]
  rfl

namespace CapacityModel

section Paths

variable [A : Arithmetic]

/-- The demand is well formed and passes every gate of the present path that is not
about the amount of capacity. -/
def PassesShapeGates (view : FleetView) (d : WorkloadDemand) : Prop :=
  d.valid = true ∧ topologyOk view.devices d = true ∧ countOk view.devices d = true ∧
    contiguityOk view.devices d = true ∧ fragmentationOk view.devices d = true ∧
    sloOk view.available d = true

theorem freshness_buildView (m : CapacityModel) (now : TimePoint) :
    (m.buildView now).freshness = .fresh ∨ (m.buildView now).freshness = .revalidationRequired ∨
      (m.buildView now).freshness = .insufficientEvidence := by
  simp only [buildView]
  split_ifs <;> simp

/-- A present fit takes fresh evidence, the required capacity and every other gate. -/
theorem fitNow_iff (view : FleetView) (d : WorkloadDemand) (hunknown : view.freshness ≠ .unknown) :
    (evaluateNow view d).outcome = .fitNow ↔ d.valid = true ∧ view.freshness = .fresh ∧
      gatesOutcome view.devices (effectiveCapacity view) d = .fitNow := by
  rw [outcome_eq_fitNow_iff, freshnessGate_eq_none_iff, or_iff_left hunknown]

theorem fitFuture_iff (σ : EventSort) (view : FleetView) (d : WorkloadDemand) (mode : QueryMode)
    (t : TimePoint) :
    (evaluateFuture σ view d mode t).outcome = .fitFuture ↔ view.freshness = .fresh ∧
      ((buildTimeline σ view.available view.reservations view.releases mode).capacityAt
        t).satisfies d.requirements = true := by
  by_cases hfresh : view.freshness = .fresh
  · by_cases hcap : ((buildTimeline σ view.available view.reservations view.releases
        mode).capacityAt t).satisfies d.requirements = true
    · simp [evaluateFuture, hfresh, hcap]
    · simp [evaluateFuture, hfresh, hcap]
  · simp [evaluateFuture, hfresh]

/-- Without reservations and releases the future path fits exactly when the present
one does, precisely when fresh evidence of enough capacity also passes the gates about
the shape of the demand. -/
theorem future_agrees_iff (σ : EventSort) (m : CapacityModel) (d : WorkloadDemand)
    (mode : QueryMode) {t : TimePoint} (ht : 0 < t) (hreservations : m.reservations = [])
    (hreleases : m.releases = []) :
    ((m.queryFeasibility σ d mode t).outcome = .fitFuture ↔
      (m.queryFeasibility σ d mode 0).outcome = .fitNow) ↔
    ((m.buildView 0).freshness = .fresh →
      (m.buildView 0).available.satisfies d.requirements = true →
      PassesShapeGates (m.buildView 0) d) := by
  have heffective : effectiveCapacity (m.buildView 0) = (m.buildView 0).available := by
    unfold effectiveCapacity
    rw [show (m.buildView 0).reservations = [] from hreservations]
    rfl
  -- The timeline without events is the available capacity at every instant.
  have hfuture : (m.queryFeasibility σ d mode t).outcome = .fitFuture ↔
      (m.buildView 0).freshness = .fresh ∧
        (m.buildView 0).available.satisfies d.requirements = true := by
    rw [queryFeasibility, if_neg ht.not_ge, fitFuture_iff,
      show (m.buildView t).reservations = [] from hreservations,
      show (m.buildView t).releases = [] from hreleases, capacityAt_buildTimeline_nil]
    rfl
  have hnow : (m.queryFeasibility σ d mode 0).outcome = .fitNow ↔
      (m.buildView 0).freshness = .fresh ∧
        (m.buildView 0).available.satisfies d.requirements = true ∧
          PassesShapeGates (m.buildView 0) d := by
    have hunknown : (m.buildView 0).freshness ≠ .unknown := by
      rcases freshness_buildView m 0 with h | h | h <;> simp [h]
    rw [queryFeasibility, if_pos le_rfl]
    refine (fitNow_iff _ d hunknown).trans ?_
    rw [gatesOutcome_eq_fitNow_iff, heffective, PassesShapeGates]
    constructor
    · rintro ⟨hvalid, hfresh, htopology, hcount, hcontiguity, hcapacity, hrest⟩
      exact ⟨hfresh, hcapacity, hvalid, htopology, hcount, hcontiguity, hrest⟩
    · rintro ⟨hfresh, hcapacity, hvalid, htopology, hcount, hcontiguity, hrest⟩
      exact ⟨hvalid, hfresh, htopology, hcount, hcontiguity, hcapacity, hrest⟩
  rw [hfuture, hnow, and_congr_right_iff]
  exact imp_congr_right fun _ => iff_self_and

end Paths

def oneAccelerator : CapacityModel :=
  Runs.run step {} [.registerWorker ⟨1⟩ ⟨1⟩, .publishResource
    (Reference.makeResource ⟨1⟩ ⟨1⟩ ⟨1⟩ ⟨1⟩ ⟨1⟩ ⟨1⟩ ⟨1⟩ {} 16 8 [8])]

def fiveDevices : WorkloadDemand := Reference.makeDemand ⟨1⟩ ⟨1⟩ 1 5

theorem future_agrees_iff_oneAccelerator :
    let ask :=
      oneAccelerator.queryFeasibility (A := .double) (SortBy.stable _) fiveDevices .expected
    let view := oneAccelerator.buildView (A := .double) 0
    ((ask 10).outcome = .fitFuture ↔ (ask 0).outcome = .fitNow) ↔
    (view.freshness = .fresh → view.available.satisfies fiveDevices.requirements = true →
      PassesShapeGates (A := .double) view fiveDevices) :=
  future_agrees_iff (A := .double) _ _ _ _ (by decide) rfl rfl

/-- Five devices fit in the future where there is one. -/
theorem future_fits_more_devices_than_there_are :
    ¬ ∀ (σ : EventSort) (m : CapacityModel), Reachable m → m.reservations = [] →
      m.releases = [] → ∀ (d : WorkloadDemand) (mode : QueryMode) (t : TimePoint), 0 < t →
      ((m.queryFeasibility (A := .double) σ d mode t).outcome = .fitFuture ↔
        (m.queryFeasibility (A := .double) σ d mode 0).outcome = .fitNow) := by
  intro h
  have hreachable : Reachable oneAccelerator := Runs.Reachable.init.run _
  have hiff := h (SortBy.stable _) oneAccelerator hreachable rfl rfl fiveDevices .expected 10
    (by decide)
  revert hiff
  decide +kernel

end CapacityModel

end CapacityFabric
