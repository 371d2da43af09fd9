import CapacityFabric.Model.SavedState
import CapacityFabric.Timeline.Accounting

/-!
# The timeline after a restart

A file keeps the accelerators of a hold and of a release, and nothing else of them.
-/

namespace CapacityFabric

/-- How far the plain total of the events up to `t` falls below zero. -/
def owed (σ : EventSort) (mode : QueryMode) (reservations : List Reservation)
    (releases : List ReleaseEvent) (t : TimePoint) (d : Dimension) : ℚ :=
  ClampedSum.overdraft 0
    (((buildTimeline σ ∅ reservations releases mode).eventsUntil t).map fun e => e.delta.at_ d)

variable {σ : EventSort} {mode : QueryMode} {reservations : List Reservation}
  {releases : List ReleaseEvent}

/-- The base pays for what is owed as far as it goes. -/
theorem amount_capacityAt_eq (base : Capacity) (t : TimePoint) (d : Dimension) :
    ((buildTimeline σ base reservations releases mode).capacityAt t).amount d =
      base.amount d + (creditedBy mode releases t d - activeHolds mode reservations t d) +
        max (owed σ mode reservations releases t d - base.amount d) 0 := by
  have hevents : (buildTimeline σ base reservations releases mode).eventsUntil t =
      (buildTimeline σ ∅ reservations releases mode).eventsUntil t := by
    simp only [Timeline.eventsUntil, buildTimeline, Timeline.events_freeze, draftTimeline_eq]
  rw [amount_capacityAt_buildTimeline, ClampedSum.overdraft_eq_max (base.amount_nonneg d), hevents]
  rfl

theorem owed_nonneg (t : TimePoint) (d : Dimension) :
    0 ≤ owed σ mode reservations releases t d := ClampedSum.overdraft_nonneg _ _

/-- Two calendars give the same curves over every base exactly when they credit and hold
the same on balance, and owe the same. -/
theorem capacityAt_eq_iff {reservations' : List Reservation} {releases' : List ReleaseEvent}
    (t : TimePoint) (d : Dimension) :
    (∀ base, ((buildTimeline σ base reservations' releases' mode).capacityAt t).amount d =
        ((buildTimeline σ base reservations releases mode).capacityAt t).amount d) ↔
      creditedBy mode releases' t d - activeHolds mode reservations' t d =
          creditedBy mode releases t d - activeHolds mode reservations t d ∧
        owed σ mode reservations' releases' t d = owed σ mode reservations releases t d := by
  simp only [amount_capacityAt_eq]
  constructor
  · intro h
    let rich :=
      max (owed σ mode reservations' releases' t d) (owed σ mode reservations releases t d)
    have hrich : 0 ≤ rich := (owed_nonneg t d).trans (le_max_left _ _)
    -- A base that pays for everything shows the balance, an empty one what is owed.
    have hbalance := h (Capacity.setAmount ∅ d rich)
    rw [Capacity.amount_setAmount hrich, if_pos rfl,
      max_eq_right (sub_nonpos.mpr (le_max_left _ _)),
      max_eq_right (sub_nonpos.mpr (le_max_right _ _))] at hbalance
    have howed := h ∅
    rw [Capacity.amount_empty, sub_zero, sub_zero, max_eq_left (owed_nonneg t d),
      max_eq_left (owed_nonneg t d)] at howed
    exact ⟨by linarith, by linarith⟩
  · rintro ⟨hbalance, howed⟩ base
    rw [hbalance, howed]

namespace CapacityModel

theorem at_savedReservation (r : Reservation) (d : Dimension) :
    (savedReservation r).hold.at_ d =
      if d = .acceleratorCount then r.hold.at_ .acceleratorCount else 0 := by
  rw [savedReservation, CapacityDelta.at_change]
  split_ifs
  · exact zero_add _
  · rfl

theorem at_savedRelease (e : ReleaseEvent) (d : Dimension) :
    (savedRelease e).release.at_ d =
      if d = .acceleratorCount then e.release.at_ .acceleratorCount else 0 := by
  rw [savedRelease, CapacityDelta.at_change]
  split_ifs
  · exact zero_add _
  · rfl

theorem holdsWhere_saved (mode : QueryMode) (reservations : List Reservation)
    (p : Interval → Bool) (d : Dimension) :
    holdsWhere mode (reservations.map savedReservation) (fun r => p r.interval) d =
      if d = .acceleratorCount
        then holdsWhere mode reservations (fun r => p r.interval) .acceleratorCount else 0 := by
  have hfilter : (reservations.map savedReservation).filter
      (fun r => includes mode r && p r.interval) =
      (reservations.filter fun r => includes mode r && p r.interval).map savedReservation :=
    List.filter_map
  rw [holdsWhere, hfilter, List.map_map]
  split_ifs with hd
  · apply congrArg List.sum
    apply List.map_congr_left
    intro r _
    rw [Function.comp_apply, at_savedReservation, if_pos hd]
  · apply List.sum_eq_zero
    intro v hv
    obtain ⟨r, -, rfl⟩ := List.mem_map.mp hv
    rw [Function.comp_apply, at_savedReservation, if_neg hd]

theorem creditedBy_saved (mode : QueryMode) (releases : List ReleaseEvent) (t : TimePoint)
    (d : Dimension) :
    creditedBy mode (releases.map savedRelease) t d =
      if d = .acceleratorCount then creditedBy mode releases t .acceleratorCount else 0 := by
  have htime : ∀ e, releaseTime (savedRelease e) mode = releaseTime e mode := fun e => by
    cases mode <;> rfl
  have hfilter : (releases.map savedRelease).filter (fun e => releaseTime e mode ≤ t) =
      (releases.filter fun e => releaseTime e mode ≤ t).map savedRelease := by
    rw [List.filter_map]
    simp only [Function.comp_def, htime]
  rw [creditedBy, releasesWhere, hfilter, List.map_map]
  split_ifs with hd
  · apply congrArg List.sum
    apply List.map_congr_left
    intro e _
    rw [Function.comp_apply, at_savedRelease, if_pos hd]
  · apply List.sum_eq_zero
    intro v hv
    obtain ⟨e, -, rfl⟩ := List.mem_map.mp hv
    rw [Function.comp_apply, at_savedRelease, if_neg hd]

theorem activeHolds_saved (mode : QueryMode) (reservations : List Reservation) (t : TimePoint)
    (d : Dimension) :
    activeHolds mode (reservations.map savedReservation) t d =
      if d = .acceleratorCount then activeHolds mode reservations t .acceleratorCount else 0 :=
  holdsWhere_saved mode reservations (fun i => i.containsPoint t) d

theorem at_savedEvents {base : Capacity} {e : CapacityEvent} {d : Dimension}
    (hd : d ≠ .acceleratorCount)
    (he : e ∈ (buildTimeline σ base (reservations.map savedReservation)
      (releases.map savedRelease) mode).events) : e.delta.at_ d = 0 := by
  rw [buildTimeline, Timeline.events_freeze, (σ.perm _).mem_iff, draftTimeline_eq,
    List.mem_append, List.mem_flatMap, List.mem_map] at he
  rcases he with ⟨r', hr', he⟩ | ⟨e', he', rfl⟩
  · obtain ⟨r, -, rfl⟩ := List.mem_map.mp hr'
    have hzero : (savedReservation r).hold.at_ d = 0 := by rw [at_savedReservation, if_neg hd]
    unfold reservationEvents at he
    split_ifs at he
    · rcases List.mem_cons.mp he with rfl | he
      · rw [CapacityDelta.at_negate, hzero, neg_zero]
      · rwa [List.mem_singleton.mp he]
    · exact absurd he List.not_mem_nil
  · obtain ⟨e, -, rfl⟩ := List.mem_map.mp he'
    exact (at_savedRelease e d).trans (if_neg hd)

theorem owed_saved {d : Dimension} (hd : d ≠ .acceleratorCount) (t : TimePoint) :
    owed σ mode (reservations.map savedReservation) (releases.map savedRelease) t d = 0 := by
  apply ClampedSum.overdraft_eq_zero_of_nonneg le_rfl
  intro δ hδ
  obtain ⟨e, he, rfl⟩ := List.mem_map.mp hδ
  rw [at_savedEvents hd (List.mem_of_mem_filter he)]

/-- Accelerators aside, the credited releases balance the active holds and are never
behind them; the accelerators are owed alike without the other amounts. -/
structure NothingLost (σ : EventSort) (m : CapacityModel) : Prop where
  balanced : ∀ mode t d, d ≠ .acceleratorCount →
    creditedBy mode m.releases t d = activeHolds mode m.reservations t d ∧
      owed σ mode m.reservations m.releases t d = 0
  accelerators : ∀ mode t,
    owed σ mode (m.reservations.map savedReservation) (m.releases.map savedRelease) t
      .acceleratorCount = owed σ mode m.reservations m.releases t .acceleratorCount

def savedEvent (e : CapacityEvent) : CapacityEvent :=
  ⟨e.time, CapacityDelta.change ∅ .acceleratorCount (e.delta.at_ .acceleratorCount)⟩

theorem negate_change_empty (d : Dimension) (v : ℚ) :
    (CapacityDelta.change ∅ d v).negate = CapacityDelta.change ∅ d (-v) := by
  have hzero : (∅ : CapacityDelta).at_ d = 0 := rfl
  have hneg : (CapacityDelta.change ∅ d v).negate =
      ⟨(∅ : OrderedMap Dimension ℚ).insert d (-((∅ : CapacityDelta).at_ d + v))⟩ := rfl
  rw [hneg, CapacityDelta.change, hzero, zero_add, zero_add]
  rfl

/-- Without empty holds, which leave no events in the one timeline and idle ones in the
other, the restored events are the original ones as far as they are kept. -/
theorem draft_events_saved {base : Capacity}
    (hholds : ∀ r ∈ reservations, r.hold.isEmpty = false) :
    (draftTimeline base (reservations.map savedReservation) (releases.map savedRelease)
      mode).events = ((draftTimeline base reservations releases mode).events).map savedEvent := by
  have hreservation : ∀ r ∈ reservations, reservationEvents mode (savedReservation r) =
      (reservationEvents mode r).map savedEvent := by
    intro r hr
    have hincludes : includes mode (savedReservation r) = includes mode r := rfl
    have hkept : (savedReservation r).hold.isEmpty = false := rfl
    unfold reservationEvents
    rw [hincludes, hkept, hholds r hr]
    split_ifs
    · rw [List.map_cons, List.map_singleton, savedEvent, savedEvent, CapacityDelta.at_negate,
        ← negate_change_empty]
      rfl
    · rfl
  have hrelease : ∀ e, releaseEvent mode (savedRelease e) = savedEvent (releaseEvent mode e) := by
    intro e
    cases mode <;> rfl
  rw [draftTimeline_eq, draftTimeline_eq, List.map_append, List.map_map, List.map_map,
    List.map_flatMap, List.flatMap_map]
  exact congrArg₂ (· ++ ·) (List.flatMap_congr hreservation)
    (List.map_congr_left fun e _ => hrelease e)

theorem owed_accelerators_saved (hσ : σ.LooksAtKeys)
    (hholds : ∀ r ∈ reservations, r.hold.isEmpty = false) (t : TimePoint) :
    owed σ mode (reservations.map savedReservation) (releases.map savedRelease) t
      .acceleratorCount = owed σ mode reservations releases t .acceleratorCount := by
  have hkept : ∀ e, (savedEvent e).delta.at_ .acceleratorCount = e.delta.at_ .acceleratorCount :=
    fun e => at_change_empty _ _
  have htime : ∀ e, (savedEvent e).time = e.time := fun _ => rfl
  rw [owed, owed, Timeline.eventsUntil, Timeline.eventsUntil, buildTimeline, buildTimeline,
    Timeline.events_freeze, Timeline.events_freeze, draft_events_saved hholds,
    hσ savedEvent fun _ => rfl, List.filter_map, List.map_map]
  simp only [Function.comp_def, hkept, htime]

theorem capacityAt_saved_iff (σ : EventSort) (m : CapacityModel) :
    (∀ base mode t d,
      ((buildTimeline σ base (m.reservations.map savedReservation) (m.releases.map savedRelease)
        mode).capacityAt t).amount d =
      ((buildTimeline σ base m.reservations m.releases mode).capacityAt t).amount d) ↔
      NothingLost σ m := by
  constructor
  · intro h
    have hboth := fun mode t d => (capacityAt_eq_iff t d).mp fun base => h base mode t d
    refine ⟨fun mode t d hd => ?_, fun mode t => (hboth mode t _).2⟩
    obtain ⟨hbalance, howed⟩ := hboth mode t d
    rw [creditedBy_saved, activeHolds_saved, if_neg hd, if_neg hd] at hbalance
    rw [owed_saved hd] at howed
    exact ⟨by linarith, howed.symm⟩
  · intro h base mode t d
    revert base
    rw [capacityAt_eq_iff, creditedBy_saved, activeHolds_saved]
    by_cases hd : d = .acceleratorCount
    · subst hd
      rw [if_pos rfl, if_pos rfl]
      exact ⟨rfl, h.accelerators mode t⟩
    · obtain ⟨hbalance, howed⟩ := h.balanced mode t d hd
      rw [if_neg hd, if_neg hd, owed_saved hd, howed, hbalance]
      exact ⟨by ring, rfl⟩

/-- With no empty hold the balance of the other dimensions decides. -/
theorem nothingLost_iff (hσ : σ.LooksAtKeys) {m : CapacityModel}
    (hholds : ∀ r ∈ m.reservations, r.hold.isEmpty = false) :
    NothingLost σ m ↔ ∀ mode t d, d ≠ .acceleratorCount →
      creditedBy mode m.releases t d = activeHolds mode m.reservations t d ∧
        owed σ mode m.reservations m.releases t d = 0 :=
  ⟨NothingLost.balanced, fun h => ⟨h, fun _ t => owed_accelerators_saved hσ hholds t⟩⟩

def memoryHeld : CapacityModel :=
  Runs.run step {} [.publishReservation
    { (hardHold 1 fiveToTen 0) with hold := CapacityDelta.change ∅ .vramBytes 8 }]

theorem memoryHeld_storesDoubles : memoryHeld.StoresDoubles :=
  storesDoubles_run storesDoubles_empty (List.forall_mem_singleton.mpr ⟨0, by decide +kernel⟩)

end CapacityModel

end CapacityFabric
