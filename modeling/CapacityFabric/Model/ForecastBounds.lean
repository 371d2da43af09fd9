import CapacityFabric.Model.Operations
import CapacityFabric.Model.Query
import CapacityFabric.Timeline.Accounting

/-!
# The order of the forecast bounds

The conservative, the expected and the optimistic curve hold the same reservations
and differ in when they credit a release.  Crediting it later can forgive a hold that
crediting it earlier would have paid for.
-/

namespace CapacityFabric

namespace CapacityModel

theorem activeHolds_eq {a b : QueryMode} (ha : a ≠ .guaranteed) (hb : b ≠ .guaranteed)
    (reservations : List Reservation) (t : TimePoint) (d : Dimension) :
    activeHolds a reservations t d = activeHolds b reservations t d := by
  simp [activeHolds, holdsWhere, includes, ha, hb]

section Curves

variable [A : Arithmetic] (m : CapacityModel) (σ : EventSort)

/-- What the plain total of a mode is short of by `t` is what that of the other mode is
short of, too, or is still credited on top by the other. -/
def Repaid (a b : QueryMode) (d : Dimension) : Prop :=
  ∀ t p, p <+: Timeline.changesOf d ((m.queryTimeline σ a).eventsUntil t) →
    ∃ q, q <+: Timeline.changesOf d ((m.queryTimeline σ b).eventsUntil t) ∧
      ClampedSum.shortfall ((m.buildView 0).available.amount d) p ≤
        creditedBy b m.releases t d - creditedBy a m.releases t d +
          ClampedSum.shortfall ((m.buildView 0).available.amount d) q

/-- Two modes make the same changes, or what is forgiven under the first one is repaid and
the sums are rounded the right way. -/
def KeptBelow (a b : QueryMode) (d : Dimension) : Prop :=
  (∀ t, Timeline.changesOf d ((m.queryTimeline σ a).eventsUntil t) =
      Timeline.changesOf d ((m.queryTimeline σ b).eventsUntil t)) ∨
    m.Repaid σ a b d ∧ (m.queryTimeline σ a).NeverRoundsUp d ∧
      (m.queryTimeline σ b).NeverRoundsDown d

/-- No sum of the timeline is rounded. -/
def Unrounded (mode : QueryMode) (d : Dimension) : Prop :=
  (m.queryTimeline σ mode).NeverRoundsUp d ∧ (m.queryTimeline σ mode).NeverRoundsDown d

theorem base_queryTimeline (mode : QueryMode) :
    (m.queryTimeline σ mode).base = (m.buildView 0).available :=
  base_draftTimeline _ _ _ _

theorem amount_queryCapacity (mode : QueryMode) (t : TimePoint) (d : Dimension) :
    (m.queryCapacity σ mode t).amount d =
      (Timeline.changesOf d ((m.queryTimeline σ mode).eventsUntil t)).foldl changedAmount
        ((m.buildView 0).available.amount d) := by
  rw [queryCapacity, queryTimeline, buildTimeline, Timeline.capacityAt_freeze,
    Timeline.amount_after_eq, base_draftTimeline]

theorem clampedSum_queryTimeline (mode : QueryMode) (t : TimePoint) (d : Dimension) :
    ClampedSum.clampedSum ((m.buildView 0).available.amount d)
        (Timeline.changesOf d ((m.queryTimeline σ mode).eventsUntil t)) =
      (m.buildView 0).available.amount d +
        (creditedBy mode m.releases t d - activeHolds mode m.reservations t d) +
        ClampedSum.overdraft ((m.buildView 0).available.amount d)
          (Timeline.changesOf d ((m.queryTimeline σ mode).eventsUntil t)) := by
  rw [ClampedSum.clampedSum_eq, Timeline.sum_changesOf]
  congr 2
  exact sum_eventsUntil σ t d

variable {a b : QueryMode} {d : Dimension}

theorem repaid_iff (ha : a ≠ .guaranteed) (hb : b ≠ .guaranteed) :
    m.Repaid σ a b d ↔ ∀ t,
      ClampedSum.clampedSum ((m.buildView 0).available.amount d)
          (Timeline.changesOf d ((m.queryTimeline σ a).eventsUntil t)) ≤
        ClampedSum.clampedSum ((m.buildView 0).available.amount d)
          (Timeline.changesOf d ((m.queryTimeline σ b).eventsUntil t)) := by
  refine forall_congr' fun t => ?_
  rw [← ClampedSum.overdraft_le_add_iff (Capacity.amount_nonneg _ d) (Capacity.amount_nonneg _ d),
    clampedSum_queryTimeline, clampedSum_queryTimeline, activeHolds_eq ha hb]
  constructor <;> intro h <;> linarith

theorem queryCapacity_le_of_keptBelow (ha : a ≠ .guaranteed) (hb : b ≠ .guaranteed)
    (h : m.KeptBelow σ a b d) (t : TimePoint) :
    (m.queryCapacity σ a t).amount d ≤ (m.queryCapacity σ b t).amount d := by
  rcases h with hsame | ⟨hrepaid, hup, hdown⟩
  · rw [amount_queryCapacity, amount_queryCapacity, hsame]
  · calc (m.queryCapacity σ a t).amount d
        ≤ ClampedSum.clampedSum ((m.buildView 0).available.amount d)
            (Timeline.changesOf d ((m.queryTimeline σ a).eventsUntil t)) :=
          base_queryTimeline m σ a ▸ hup.amount_le σ t
      _ ≤ ClampedSum.clampedSum ((m.buildView 0).available.amount d)
            (Timeline.changesOf d ((m.queryTimeline σ b).eventsUntil t)) :=
          (m.repaid_iff σ ha hb).mp hrepaid t
      _ ≤ (m.queryCapacity σ b t).amount d := base_queryTimeline m σ b ▸ hdown.le_amount σ t

theorem repaid_of_queryCapacity_le (ha : a ≠ .guaranteed) (hb : b ≠ .guaranteed)
    (hdown : (m.queryTimeline σ a).NeverRoundsDown d)
    (hup : (m.queryTimeline σ b).NeverRoundsUp d)
    (h : ∀ t, (m.queryCapacity σ a t).amount d ≤ (m.queryCapacity σ b t).amount d) :
    m.Repaid σ a b d := by
  refine (m.repaid_iff σ ha hb).mpr fun t => ?_
  calc ClampedSum.clampedSum ((m.buildView 0).available.amount d)
        (Timeline.changesOf d ((m.queryTimeline σ a).eventsUntil t))
      ≤ (m.queryCapacity σ a t).amount d := base_queryTimeline m σ a ▸ hdown.le_amount σ t
    _ ≤ (m.queryCapacity σ b t).amount d := h t
    _ ≤ ClampedSum.clampedSum ((m.buildView 0).available.amount d)
          (Timeline.changesOf d ((m.queryTimeline σ b).eventsUntil t)) :=
        base_queryTimeline m σ b ▸ hup.amount_le σ t

end Curves

/-- Four accelerators are held from 5 to 10 and released at 6, or as early as 0. -/
def holdBeforeRelease : CapacityModel :=
  Runs.run step {} [
    .publishReservation (hardHold 1 fiveToTen 4),
    .publishRelease (Reference.makeRelease ⟨1⟩ 6 0 6 4 default)]

end CapacityModel

end CapacityFabric
