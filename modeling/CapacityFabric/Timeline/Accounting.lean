import CapacityFabric.Timeline.Forecast

/-!
# Accounting for commitments

The exact ledger of a calendar, as sums over its reservations and releases, and
when the clamped curve that the timeline computes agrees with it.
-/

namespace CapacityFabric

section Ledger

variable (mode : QueryMode) (reservations : List Reservation) (releases : List ReleaseEvent)

def holdsWhere (p : Reservation → Bool) (d : Dimension) : ℚ :=
  ((reservations.filter fun r => includes mode r && p r).map fun r => r.hold.at_ d).sum

def releasesWhere (p : ReleaseEvent → Bool) (d : Dimension) : ℚ :=
  ((releases.filter p).map fun e => e.release.at_ d).sum

/-- The holds active at `t`. -/
def activeHolds (t : TimePoint) (d : Dimension) : ℚ :=
  holdsWhere mode reservations (fun r => r.interval.containsPoint t) d

/-- The holds active at `t`, with those that end exactly at `t` counted in. -/
def touchingHolds (t : TimePoint) (d : Dimension) : ℚ :=
  holdsWhere mode reservations (fun r => r.interval.start ≤ t ∧ t ≤ r.interval.end_) d

/-- The releases the mode credits at or before `t`. -/
def creditedBy (t : TimePoint) (d : Dimension) : ℚ :=
  releasesWhere releases (fun e => releaseTime e mode ≤ t) d

/-- The releases the mode credits strictly before `t`. -/
def creditedBefore (t : TimePoint) (d : Dimension) : ℚ :=
  releasesWhere releases (fun e => releaseTime e mode < t) d

/-- At every instant the active holds fit in the base and the credited releases. -/
def NotOversubscribed (base : Capacity) : Prop :=
  ∀ t d, activeHolds mode reservations t d ≤ base.amount d + creditedBy mode releases t d

/-- The holds that touch an instant fit in the base and the releases credited before
it: at a hand-over both the ending and the starting reservation are counted. -/
def FitsThroughHandovers (base : Capacity) : Prop :=
  ∀ t d, touchingHolds mode reservations t d ≤ base.amount d + creditedBefore mode releases t d

end Ledger

variable {mode : QueryMode} {reservations : List Reservation} {releases : List ReleaseEvent}
  {base : Capacity}

theorem activeHolds_maxValue (d : Dimension) :
    activeHolds mode reservations Int64.maxValue d = 0 := by
  have hnone : ∀ r : Reservation, r.interval.containsPoint Int64.maxValue = false := fun r => by
    have := (Int64.le_maxValue r.interval.end_).not_gt
    simp [Interval.containsPoint, this]
  simp [activeHolds, holdsWhere, hnone]

theorem activeHolds_cons (mode : QueryMode) (r : Reservation) (reservations : List Reservation)
    (t : TimePoint) (d : Dimension) :
    activeHolds mode (r :: reservations) t d =
      (if includes mode r = true ∧ r.interval.containsPoint t = true then r.hold.at_ d else 0) +
        activeHolds mode reservations t d := by
  simp [activeHolds, holdsWhere, SortBy.sum_map_filter]

theorem activeHolds_nonneg (mode : QueryMode) (hholds : ∀ r ∈ reservations, r.hold.Nonneg)
    (t : TimePoint) (d : Dimension) : 0 ≤ activeHolds mode reservations t d := by
  apply List.sum_nonneg
  intro x hx
  obtain ⟨r, hr, rfl⟩ := List.mem_map.mp hx
  exact hholds r (List.mem_of_mem_filter hr) d

/-- Both events of every reservation together, when they leave the hold where `p`. -/
theorem sum_reservations_eq {f : Reservation → ℚ} {p : Reservation → Bool} {d : Dimension}
    (hf : ∀ r ∈ reservations, f r = if p r = true then -r.hold.at_ d else 0) :
    (reservations.map fun r => if includes mode r = true then f r else 0).sum =
      -holdsWhere mode reservations p d := by
  rw [holdsWhere, SortBy.sum_map_filter, List.sum_neg, List.map_map]
  congr 1
  apply List.map_congr_left
  intro r hr
  rw [hf r hr]
  by_cases hi : includes mode r = true <;> by_cases hp : p r = true <;> simp [hi, hp]

/-- The plain total of the events up to `t` is the ledger's. -/
theorem sum_eventsUntil [A : Arithmetic] (σ : EventSort) (t : TimePoint) (d : Dimension) :
    (((buildTimeline σ base reservations releases mode).eventsUntil t).map
        fun e => e.delta.at_ d).sum =
      creditedBy mode releases t d - activeHolds mode reservations t d := by
  let g : TimePoint → ℚ → ℚ := fun s v => if s ≤ t then v else 0
  have hsum : (((buildTimeline σ base reservations releases mode).eventsUntil t).map
      fun e => e.delta.at_ d).sum = ((draftTimeline base reservations releases mode).events.map
        fun e => g e.time (e.delta.at_ d)).sum := by
    rw [Timeline.eventsUntil, SortBy.sum_map_filter, buildTimeline, Timeline.events_freeze,
      ((σ.perm _).map _).sum_eq]
    simp [g]
  have hactive : (reservations.map fun r => if includes mode r = true then
      g r.interval.start (-r.hold.at_ d) + g r.interval.end_ (r.hold.at_ d) else 0).sum =
      -activeHolds mode reservations t d := by
    apply sum_reservations_eq
    intro r _
    have hle := r.interval.start_le_end
    rcases lt_or_ge t r.interval.start with hs | hs
    · simp [g, Interval.containsPoint, hs.not_ge, (hs.trans_le hle).not_ge]
    · rcases lt_or_ge t r.interval.end_ with he | he
      · simp [g, Interval.containsPoint, hs, he, he.not_ge]
      · simp [g, Interval.containsPoint, hs, he, he.not_gt]
  rw [hsum, sum_draft_events _ _ _ _ _ g (by simp [g]), hactive, creditedBy, releasesWhere,
    SortBy.sum_map_filter]
  simp only [g, decide_eq_true_eq]
  ring

/-- The lowest total that an order of the events at `t` can reach counts the holds
that touch `t` and only the releases before it. -/
theorem lowestSum_draft (hholds : ∀ r ∈ reservations, r.hold.Nonneg)
    (hreleases : ∀ e ∈ releases, e.release.Nonneg) (t : TimePoint) (d : Dimension) :
    SortBy.lowestSum CapacityEvent.time (fun e => e.delta.at_ d) t
        (draftTimeline base reservations releases mode).events =
      creditedBefore mode releases t d - touchingHolds mode reservations t d := by
  let g : TimePoint → ℚ → ℚ := fun s v => if s < t then v else if s = t then min v 0 else 0
  have htouching : (reservations.map fun r => if includes mode r = true then
      g r.interval.start (-r.hold.at_ d) + g r.interval.end_ (r.hold.at_ d) else 0).sum =
      -touchingHolds mode reservations t d := by
    apply sum_reservations_eq
    intro r hr
    have hle := r.interval.start_le_end
    have hh := hholds r hr d
    have hstart : g r.interval.start (-r.hold.at_ d) =
        if r.interval.start ≤ t then -r.hold.at_ d else 0 := by
      rcases lt_trichotomy r.interval.start t with hs | hs | hs
      · simp [g, hs, hs.le]
      · simp [g, hs, hh]
      · simp [g, hs.not_gt, hs.ne', hs.not_ge]
    have hend : g r.interval.end_ (r.hold.at_ d) =
        if r.interval.end_ < t then r.hold.at_ d else 0 := by
      simp [g, hh]
    rw [hstart, hend]
    rcases lt_or_ge t r.interval.start with hs | hs
    · simp [hs.not_ge, (hs.trans_le hle).not_gt]
    · rcases lt_or_ge r.interval.end_ t with he | he
      · simp [hs, he, he.not_ge]
      · simp [hs, he, he.not_gt]
  have hcredited : (releases.map fun e => g (releaseTime e mode) (e.release.at_ d)).sum =
      creditedBefore mode releases t d := by
    rw [creditedBefore, releasesWhere, SortBy.sum_map_filter]
    congr 1
    apply List.map_congr_left
    intro e he
    simp [g, hreleases e he d]
  have hdraft := sum_draft_events base reservations releases mode d g (by simp [g])
  rw [htouching, hcredited, neg_add_eq_sub] at hdraft
  exact hdraft

/-- The curve is the ledger plus what clamping has forgiven so far. -/
theorem amount_capacityAt_buildTimeline (σ : EventSort) (t : TimePoint) (d : Dimension) :
    ((buildTimeline σ base reservations releases mode).capacityAt t).amount d =
      base.amount d + (creditedBy mode releases t d - activeHolds mode reservations t d) +
        ClampedSum.overdraft (base.amount d)
          (((buildTimeline σ base reservations releases mode).eventsUntil t).map
            fun e => e.delta.at_ d) := by
  have h := Timeline.amount_capacityAt_freeze σ (draftTimeline base reservations releases mode) t d
  rw [ClampedSum.clampedSum_eq, base_draftTimeline] at h
  rw [← sum_eventsUntil σ]
  exact h

/-- The hand-over condition is what keeps every prefix of every event order out of
overdraft. -/
theorem overdraft_eq_zero_iff_fits (hholds : ∀ r ∈ reservations, r.hold.Nonneg)
    (hreleases : ∀ e ∈ releases, e.release.Nonneg) :
    (∀ σ d, ClampedSum.overdraft (base.amount d)
        ((buildTimeline σ base reservations releases mode).events.map fun e => e.delta.at_ d) =
      0) ↔ FitsThroughHandovers mode reservations releases base := by
  have hdim : ∀ d, (∀ σ, ClampedSum.overdraft (base.amount d)
      ((buildTimeline σ base reservations releases mode).events.map fun e => e.delta.at_ d) = 0) ↔
      ∀ t, touchingHolds mode reservations t d ≤
        base.amount d + creditedBefore mode releases t d := by
    intro d
    have hzero : ∀ σ : EventSort, ClampedSum.overdraft (base.amount d)
        ((buildTimeline σ base reservations releases mode).events.map fun e => e.delta.at_ d) = 0 ↔
        ∀ p, p <+: σ.sort (draftTimeline base reservations releases mode).events →
          0 ≤ base.amount d + (p.map fun e => e.delta.at_ d).sum := by
      intro σ
      rw [ClampedSum.overdraft_eq_zero_iff (base.amount_nonneg d)]
      constructor
      · intro h p hp
        exact h _ (hp.map _)
      · intro h p hp
        obtain ⟨q, hq, rfl⟩ := List.prefix_map_iff.mp hp
        exact h q hq
    rw [forall_congr' hzero, SortBy.forall_prefix_nonneg_iff CapacityEvent.time
      (base.amount_nonneg d)]
    apply forall_congr'
    intro t
    rw [lowestSum_draft hholds hreleases]
    constructor <;> intro h <;> linarith
  rw [forall_comm, forall_congr' hdim]
  exact forall_comm

/-- Without oversubscription the curve is the exact ledger, whatever order equal-time
events are left in, precisely when the holds also fit through every hand-over. -/
theorem exact_accounting_iff (hholds : ∀ r ∈ reservations, r.hold.Nonneg)
    (hreleases : ∀ e ∈ releases, e.release.Nonneg) :
    (NotOversubscribed mode reservations releases base → ∀ σ t d,
      ((buildTimeline σ base reservations releases mode).capacityAt t).amount d =
        base.amount d + creditedBy mode releases t d - activeHolds mode reservations t d) ↔
    (NotOversubscribed mode reservations releases base →
      FitsThroughHandovers mode reservations releases base) := by
  apply imp_congr_right
  intro _
  rw [← overdraft_eq_zero_iff_fits hholds hreleases]
  constructor
  · intro h σ d
    -- At the last instant every event has been applied.
    have hlast := h σ Int64.maxValue d
    rw [amount_capacityAt_buildTimeline, Timeline.eventsUntil_maxValue] at hlast
    linarith
  · intro h σ t d
    have hle := Timeline.overdraft_eventsUntil_le σ
      (draftTimeline base reservations releases mode) (base.amount_nonneg d) t d
    have hzero := (hle.trans_eq (h σ d)).antisymm (ClampedSum.overdraft_nonneg _ _)
    rw [amount_capacityAt_buildTimeline, buildTimeline, hzero]
    ring

/-- Two back-to-back holds of four accelerators, the later one listed first. -/
def handover : List Reservation :=
  [hardHold 2 nextTen 4, hardHold 1 firstTen 4]

theorem handover_nonneg : ∀ r ∈ handover, r.hold.Nonneg := by
  intro r hr
  simp only [handover, List.mem_cons, List.not_mem_nil, or_false] at hr
  rcases hr with rfl | rfl <;> exact hardHold_nonneg _ _ (by norm_num)

theorem handover_notOversubscribed :
    NotOversubscribed .expected handover [] (acceleratorBase 4) := by
  intro t d
  have hnil : activeHolds .expected [] t d = 0 := rfl
  have hcredited : creditedBy .expected [] t d = 0 := rfl
  simp only [handover, activeHolds_cons, includes_hardHold, at_hardHold, hnil, hcredited,
    amount_acceleratorBase, Interval.containsPoint_iff, interval_hardHold, true_and, firstTen,
    nextTen]
  rcases lt_or_ge t 10 with ht | ht
  · have hlater : ¬(10 ≤ t ∧ t < (20 : TimePoint)) := fun h => ht.not_ge h.1
    rw [if_neg hlater]
    split_ifs <;> simp
  · have hearlier : ¬(0 ≤ t ∧ t < (10 : TimePoint)) := fun h => ht.not_gt h.2
    rw [if_neg hearlier]
    split_ifs <;> simp

theorem exact_accounting_iff_handover :
    (NotOversubscribed .expected handover [] (acceleratorBase 4) → ∀ σ t d,
      ((buildTimeline σ (acceleratorBase 4) handover [] .expected).capacityAt t).amount d =
        (acceleratorBase 4).amount d + creditedBy .expected [] t d -
          activeHolds .expected handover t d) ↔
    (NotOversubscribed .expected handover [] (acceleratorBase 4) →
      FitsThroughHandovers .expected handover [] (acceleratorBase 4)) :=
  exact_accounting_iff handover_nonneg (by simp)

/-- At the hand-over the second hold is clamped away before the first is returned. -/
theorem exact_accounting_fails_at_handover :
    ¬ ∀ (base : Capacity) (reservations : List Reservation) (releases : List ReleaseEvent)
      (mode : QueryMode), (∀ r ∈ reservations, r.hold.Nonneg) →
      (∀ e ∈ releases, e.release.Nonneg) → NotOversubscribed mode reservations releases base →
      ∀ σ t d, ((buildTimeline σ base reservations releases mode).capacityAt t).amount d =
        base.amount d + creditedBy mode releases t d - activeHolds mode reservations t d := by
  intro h
  have heq := h (acceleratorBase 4) handover [] .expected handover_nonneg (by simp)
    handover_notOversubscribed (SortBy.stable _) 10 .acceleratorCount
  revert heq
  decide +kernel

namespace Timeline

/-- No plain total of the base and the changes, in the order of the timeline, is negative. -/
def NeverOverdrawn (tl : Timeline) (d : Dimension) : Prop :=
  ∀ p, p <+: changesOf d tl.events → 0 ≤ tl.base.amount d + p.sum

section Rounding

variable [A : Arithmetic] (tl : Timeline)

/-- No sum of an amount and a change is rounded up. -/
def NeverRoundsUp (d : Dimension) : Prop :=
  ClampedSum.StaysBelow changedAmount (tl.base.amount d) (changesOf d tl.events)

/-- No sum of an amount and a change is rounded down, or rejected. -/
def NeverRoundsDown (d : Dimension) : Prop :=
  ClampedSum.StaysAbove changedAmount (tl.base.amount d) (changesOf d tl.events)

variable (σ : EventSort)

theorem changesOf_eventsUntil (t : TimePoint) (d : Dimension) :
    changesOf d ((tl.freeze σ).eventsUntil t) <+: changesOf d (tl.freeze σ).events :=
  changesOf_prefix d (SortBy.filter_le_prefix (σ.sorted _) t)

variable {tl} {d : Dimension}

theorem NeverRoundsUp.amount_le (h : (tl.freeze σ).NeverRoundsUp d) (t : TimePoint) :
    ((tl.freeze σ).capacityAt t).amount d ≤
      ClampedSum.clampedSum (tl.base.amount d) (changesOf d ((tl.freeze σ).eventsUntil t)) := by
  rw [capacityAt_freeze, amount_after_eq]
  exact (h.of_prefix (changesOf_eventsUntil tl σ t d)).foldl_le le_rfl

theorem NeverRoundsDown.le_amount (h : (tl.freeze σ).NeverRoundsDown d) (t : TimePoint) :
    ClampedSum.clampedSum (tl.base.amount d) (changesOf d ((tl.freeze σ).eventsUntil t)) ≤
      ((tl.freeze σ).capacityAt t).amount d := by
  rw [capacityAt_freeze, amount_after_eq]
  exact (h.of_prefix (changesOf_eventsUntil tl σ t d)).le_foldl le_rfl

/-- Where no plain total is negative, no instant has more than its plain total. -/
theorem NeverRoundsUp.amount_le_sum (h : (tl.freeze σ).NeverRoundsUp d)
    (hdrawn : (tl.freeze σ).NeverOverdrawn d) (t : TimePoint) :
    ((tl.freeze σ).capacityAt t).amount d ≤
      tl.base.amount d + (((tl.freeze σ).eventsUntil t).map fun e => e.delta.at_ d).sum := by
  have hzero := (ClampedSum.overdraft_eq_zero_iff (tl.base.amount_nonneg d)).mpr hdrawn
  have hforgiven :=
    ClampedSum.overdraft_prefix_le (tl.base.amount_nonneg d) (changesOf_eventsUntil tl σ t d)
  have hle := h.amount_le σ t
  rw [ClampedSum.clampedSum_eq, sum_changesOf] at hle
  linarith

/-- If no more than the plain total is left in the end, none was ever negative. -/
theorem NeverRoundsDown.neverOverdrawn (h : (tl.freeze σ).NeverRoundsDown d)
    (hend : ((tl.freeze σ).capacityAt Int64.maxValue).amount d ≤
      tl.base.amount d + ((tl.freeze σ).events.map fun e => e.delta.at_ d).sum) :
    (tl.freeze σ).NeverOverdrawn d ∧ (tl.freeze σ).NeverRoundsUp d := by
  rw [capacityAt_freeze, eventsUntil_maxValue, amount_after_eq, ← sum_changesOf] at hend
  exact (ClampedSum.StaysAbove.of_foldl_le h (tl.base.amount_nonneg d) hend).symm

end Rounding

end Timeline

/-- There is no phantom capacity in a dimension if no plain total is negative and no sum is
rounded up; and where none is rounded down, only then. -/
theorem no_phantom_capacity_iff [A : Arithmetic] (σ : EventSort)
    (hholds : ∀ r ∈ reservations, r.hold.Nonneg) (d : Dimension) :
    ((buildTimeline σ base reservations releases mode).NeverOverdrawn d ∧
        (buildTimeline σ base reservations releases mode).NeverRoundsUp d →
      ∀ t, ((buildTimeline σ base reservations releases mode).capacityAt t).amount d ≤
        base.amount d + creditedBy mode releases t d) ∧
    ((buildTimeline σ base reservations releases mode).NeverRoundsDown d →
      (∀ t, ((buildTimeline σ base reservations releases mode).capacityAt t).amount d ≤
        base.amount d + creditedBy mode releases t d) →
      (buildTimeline σ base reservations releases mode).NeverOverdrawn d ∧
        (buildTimeline σ base reservations releases mode).NeverRoundsUp d) := by
  have hsum : ∀ t, ((((draftTimeline base reservations releases mode).freeze σ).eventsUntil
      t).map fun e => e.delta.at_ d).sum =
        creditedBy mode releases t d - activeHolds mode reservations t d :=
    fun t => sum_eventsUntil σ t d
  unfold buildTimeline
  constructor
  · rintro ⟨hdrawn, hup⟩ t
    have hle := hup.amount_le_sum σ hdrawn t
    have hactive := activeHolds_nonneg mode hholds t d
    rw [hsum, base_draftTimeline] at hle
    linarith
  · intro hdown h
    apply hdown.neverOverdrawn
    -- At the last instant every reservation has ended.
    have hlast := hsum Int64.maxValue
    rw [Timeline.eventsUntil_maxValue, activeHolds_maxValue, sub_zero] at hlast
    rw [hlast, base_draftTimeline]
    exact h Int64.maxValue

def backToBack : List Reservation := [hardHold 1 firstTen 4, hardHold 2 nextTen 4]

theorem backToBack_nonneg : ∀ r ∈ backToBack, r.hold.Nonneg := by
  intro r hr
  rcases List.mem_pair.mp hr with rfl | rfl <;> exact hardHold_nonneg _ _ (by norm_num)

theorem no_phantom_capacity_iff_backToBack :
    ((buildTimeline (A := .double) (SortBy.stable _) (acceleratorBase 4) backToBack []
        .expected).capacityAt 10).amount .acceleratorCount ≤
      (acceleratorBase 4).amount .acceleratorCount +
        creditedBy .expected [] 10 .acceleratorCount := by
  have hdrawn : (buildTimeline (A := .double) (SortBy.stable _) (acceleratorBase 4) backToBack []
      .expected).NeverOverdrawn .acceleratorCount := by
    refine (ClampedSum.overdraft_eq_zero_iff (Capacity.amount_nonneg _ _)).mp ?_
    decide +kernel
  have hup : ClampedSum.StaysBelow (changedAmount (A := .double))
      ((acceleratorBase 4).amount .acceleratorCount)
      (Timeline.changesOf .acceleratorCount (buildTimeline (A := .double) (SortBy.stable _)
        (acceleratorBase 4) backToBack [] .expected).events) := by
    decide +kernel
  exact (no_phantom_capacity_iff (A := .double) _ backToBack_nonneg _).1 ⟨hdrawn, hup⟩ 10

def oversubscription : List Reservation := [hardHold 1 firstTen 10]

/-- The end of the hold returns the six accelerators that its start never took. -/
theorem oversubscription_ends_in_phantom_capacity :
    ¬ ∀ (base : Capacity) (reservations : List Reservation) (releases : List ReleaseEvent)
      (mode : QueryMode), (∀ r ∈ reservations, r.hold.Nonneg) →
      (∀ e ∈ releases, e.release.Nonneg) → ∀ σ t d,
      ((buildTimeline (A := .double) σ base reservations releases mode).capacityAt t).amount d ≤
        base.amount d + creditedBy mode releases t d := by
  intro h
  have hle := h (acceleratorBase 4) oversubscription [] .expected
    (by simpa [oversubscription] using hardHold_nonneg 1 _ (by norm_num)) (by simp)
    (SortBy.stable _) 10 .acceleratorCount
  revert hle
  decide +kernel

end CapacityFabric
