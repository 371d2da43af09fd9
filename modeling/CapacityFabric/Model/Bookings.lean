import CapacityFabric.Model.AddedSupply
import CapacityFabric.Model.Query
import CapacityFabric.Query.UnroundedFit

/-!
# Booking what the planner reports

The earliest fit that the model reports against its own reservations and releases, and what
becomes of them when the reported windows are booked one after the other.
-/

namespace CapacityFabric

theorem activeHolds_append (mode : QueryMode) (rs rs' : List Reservation) (t : TimePoint)
    (d : Dimension) :
    activeHolds mode (rs ++ rs') t d = activeHolds mode rs t d + activeHolds mode rs' t d := by
  simp [activeHolds, holdsWhere]

theorem activeHolds_filter_le (mode : QueryMode) {rs : List Reservation}
    (hholds : ∀ r ∈ rs, r.hold.Nonneg) (keep : Reservation → Bool) (t : TimePoint)
    (d : Dimension) : activeHolds mode (rs.filter keep) t d ≤ activeHolds mode rs t d := by
  have hsub : ((rs.filter keep).filter fun r =>
      includes mode r && r.interval.containsPoint t).Sublist
        (rs.filter fun r => includes mode r && r.interval.containsPoint t) :=
    List.filter_sublist.filter _
  apply (hsub.map fun r => r.hold.at_ d).sum_le_sum
  intro v hv
  obtain ⟨r, hr, rfl⟩ := List.mem_map.mp hv
  exact hholds r (List.mem_of_mem_filter hr) d

namespace CapacityModel

section Planner

variable [A : Arithmetic]

abbrev Plannable (m : CapacityModel) (mode : QueryMode) (requirement : Capacity) : Prop :=
  CapacityFabric.Plannable mode m.reservations m.releases (m.buildView 0).available requirement

/-- No sum of the curve that the planner searches is rounded or rejected. -/
abbrev AddsExactly (m : CapacityModel) (σ : EventSort) (mode : QueryMode) : Prop :=
  Timeline.AddsExactly (m.queryTimeline σ mode).base (m.queryTimeline σ mode).events

/-- The planner reports the least start from which the ledger covers the demand. -/
theorem queryEarliestFit_exact {m : CapacityModel} {mode : QueryMode} {σ : EventSort}
    (hexact : m.AddsExactly σ mode) {demand : WorkloadDemand}
    (h : m.Plannable mode demand.requirements) {earliestStart horizon : TimePoint}
    {duration : DurationNs} (hduration : 1 ≤ duration)
    (hroom : windowEnd earliestStart duration ≤ horizon.toInt) {s : TimePoint} :
    (m.queryEarliestFit σ demand mode earliestStart duration horizon).found = true ∧
        (m.queryEarliestFit σ demand mode earliestStart duration horizon).start = s ↔
      IsLeast (coveredStarts mode m.reservations m.releases (m.buildView 0).available demand
        earliestStart duration horizon) s := by
  have hsearch : m.queryEarliestFit σ demand mode earliestStart duration horizon =
      earliestFit (A := .exact) (buildTimeline (A := .exact) σ (m.buildView 0).available
        m.reservations m.releases mode) demand earliestStart duration horizon :=
    Timeline.AddsExactly.earliestFit_eq hexact demand earliestStart duration horizon
  rw [hsearch]
  exact h.earliestFit_iff σ hduration hroom

end Planner

def acceleratorPair : CapacityModel :=
  (healthyAccelerator.publishResource { healthyResource with id := ⟨3⟩, deviceId := ⟨3⟩ }).1

def oneOfTwo : WorkloadDemand := Reference.makeDemand ⟨1⟩ ⟨1⟩ 1 1

theorem amount_oneOfTwo (d : Dimension) :
    oneOfTwo.requirements.amount d = if d = .acceleratorCount then 1 else 0 := by
  have hunit : ((toUInt64 1).toNat : ℚ) = 1 := by decide +kernel
  exact hunit ▸ amount_acceleratorBase (toUInt64 1) d

def firstBooked : CapacityModel := (acceleratorPair.publishReservation (hardHold 1 firstTen 1)).1

def laterHold : Reservation := hardHold 2 ⟨20, 30, Or.inr (by decide)⟩ 1

theorem neverUsedUp_of_one {reservations : List Reservation}
    (hactive : ∀ t, activeHolds .expected reservations t .acceleratorCount ≤ 1) :
    NeverUsedUp .expected reservations [] (acceleratorPair.buildView (A := .double) 0).available
      oneOfTwo.requirements := by
  intro t d hd
  have haccelerators : d = .acceleratorCount := by
    by_contra hne
    rw [amount_oneOfTwo, if_neg hne] at hd
    exact hd.false
  subst haccelerators
  have havailable : (acceleratorPair.buildView (A := .double) 0).available.amount
      .acceleratorCount = 2 := by
    decide +kernel
  have hcredited : creditedBy .expected [] t .acceleratorCount = 0 := rfl
  have hheld := hactive t
  rw [leftAt, havailable, hcredited]
  linarith

theorem plannable_acceleratorPair :
    acceleratorPair.Plannable (A := .double) .expected oneOfTwo.requirements where
  holds_nonneg _ hr := absurd hr List.not_mem_nil
  releases_nonneg _ he := absurd he List.not_mem_nil
  noHandovers _ hr := absurd hr List.not_mem_nil
  neverUsedUp := @neverUsedUp_of_one [] fun _ => zero_le_one

theorem plannable_firstBooked :
    firstBooked.Plannable (A := .double) .expected oneOfTwo.requirements where
  holds_nonneg r hr := by
    obtain rfl := List.mem_singleton.mp hr
    exact hardHold_nonneg _ _ (by norm_num)
  releases_nonneg _ he := absurd he List.not_mem_nil
  noHandovers := by decide +kernel
  neverUsedUp := @neverUsedUp_of_one [hardHold 1 firstTen 1] fun t => by
    have hnil : activeHolds .expected [] t .acceleratorCount = 0 := rfl
    rw [activeHolds_cons, hnil, at_hardHold, add_zero]
    split_ifs <;> norm_num

theorem addsExactly_acceleratorPair :
    acceleratorPair.AddsExactly (A := .double) (SortBy.stable _) .expected := trivial

theorem addsExactly_firstBooked :
    firstBooked.AddsExactly (A := .double) (SortBy.stable _) .expected := by
  refine (Timeline.addsExactly_iff_follows (A := .double)).mpr fun d => ?_
  by_cases hd : d = .acceleratorCount
  · subst hd
    decide +kernel
  · -- The hold changes nothing but accelerators.
    have hnil : Timeline.changesOf d (firstBooked.queryTimeline (A := .double) (SortBy.stable _)
        .expected).events = [] := by
      refine changesOf_buildTimeline (A := .double) _ _ _ (fun r hr => ?_) fun rel hrel => ?_
      · obtain rfl := List.mem_singleton.mp hr
        rw [find?_hardHold, if_neg hd]
      · exact absurd hrel List.not_mem_nil
    rw [hnil]
    trivial

theorem queryEarliestFit_exact_firstBooked :
    (firstBooked.queryEarliestFit (A := .double) (SortBy.stable _) oneOfTwo .expected 0 20
          100).found = true ∧
        (firstBooked.queryEarliestFit (A := .double) (SortBy.stable _) oneOfTwo .expected 0 20
          100).start = 0 ↔
      IsLeast (coveredStarts .expected firstBooked.reservations firstBooked.releases
        (firstBooked.buildView (A := .double) 0).available oneOfTwo 0 20 100) 0 :=
  queryEarliestFit_exact (A := .double) addsExactly_firstBooked plannable_firstBooked (by decide)
    (by decide)

section Booking

variable [A : Arithmetic]

/-- The planner has reported the window of the booking for a demand of no less than it
holds. -/
def Offers (m : CapacityModel) (σ : EventSort) (mode : QueryMode) (booking : Reservation) :
    Prop :=
  ∃ (demand : WorkloadDemand) (earliestStart : TimePoint) (duration : DurationNs)
    (horizon : TimePoint), 1 ≤ duration ∧ windowEnd earliestStart duration ≤ horizon.toInt ∧
    m.AddsExactly σ mode ∧ m.Plannable mode demand.requirements ∧
    (m.queryEarliestFit σ demand mode earliestStart duration horizon).found = true ∧
    (m.queryEarliestFit σ demand mode earliestStart duration horizon).start =
      booking.interval.start ∧
    (m.queryEarliestFit σ demand mode earliestStart duration horizon).end_ =
      booking.interval.end_ ∧
    ∀ d, 0 ≤ booking.hold.at_ d ∧ booking.hold.at_ d ≤ demand.requirements.amount d

inductive Books (σ : EventSort) (mode : QueryMode) (m : CapacityModel) : CapacityModel → Prop
  | of_offers {booking : Reservation} (h : m.Offers σ mode booking) :
      Books σ mode m (m.publishReservation booking).1

variable {σ : EventSort} {mode : QueryMode} {m m' : CapacityModel} {booking : Reservation}

/-- At every instant of its window the ledger has room for an offered booking. -/
theorem Offers.covered (h : m.Offers σ mode booking) {t : TimePoint}
    (ht : booking.interval.containsPoint t = true) {d : Dimension}
    (hd : 0 < booking.hold.at_ d) :
    booking.hold.at_ d ≤ leftAt mode m.reservations m.releases (m.buildView 0).available t d := by
  obtain ⟨demand, earliestStart, duration, horizon, hduration, hroom, hexact, hplannable, hfound,
    hstart, hend, hhold⟩ := h
  obtain ⟨⟨-, hinside, hcovers⟩, -⟩ :=
    (queryEarliestFit_exact hexact hplannable hduration hroom).mp ⟨hfound, hstart⟩
  have hnonneg : 0 ≤ duration := le_trans (by decide) hduration
  have hsum : booking.interval.end_ = booking.interval.start + duration := by
    rw [← hend, ← hstart]
    have hhorizon : earliestStart < horizon :=
      Int64.lt_iff_toInt_lt.mpr ((start_lt_windowEnd hduration _).trans_le hroom)
    unfold queryEarliestFit earliestFit at hfound ⊢
    rw [if_neg (not_or.mpr ⟨hnonneg.not_gt, hhorizon.not_ge⟩)] at hfound ⊢
    exact firstFit_end _ _ _ _ hfound
  obtain ⟨hfrom, huntil⟩ := Interval.containsPoint_iff.mp ht
  have hmax : windowEnd booking.interval.start duration ≤ Int64.maxValue.toInt :=
    hinside.trans (Int64.le_iff_toInt_le.mp (Int64.le_maxValue horizon))
  have hbefore : t.toInt < windowEnd booking.interval.start duration := by
    rw [← toInt_add_duration hnonneg hmax, ← hsum]
    exact Int64.lt_iff_toInt_lt.mp huntil
  calc booking.hold.at_ d ≤ demand.requirements.amount d := (hhold d).2
    _ ≤ leftAt mode m.reservations m.releases (m.buildView 0).available t d :=
      hcovers t hfrom hbefore d (hd.trans_le (hhold d).2)

theorem Offers.nonneg (h : m.Offers σ mode booking) : booking.hold.Nonneg := by
  obtain ⟨_, _, _, _, _, _, _, _, _, _, _, hhold⟩ := h
  exact fun d => (hhold d).1

theorem Offers.holds (h : m.Offers σ mode booking) : ∀ r ∈ m.reservations, r.hold.Nonneg := by
  obtain ⟨_, _, _, _, _, _, _, hplannable, _⟩ := h
  exact hplannable.holds_nonneg

theorem Books.notOversubscribed (h : Books σ mode m m')
    (hm : NotOversubscribed mode m.reservations m.releases (m.buildView 0).available) :
    NotOversubscribed mode m'.reservations m'.releases (m'.buildView 0).available := by
  cases h with | @of_offers booking h =>
  unfold publishReservation
  dsimp only
  split_ifs
  · exact hm
  intro t d
  change activeHolds mode ((m.reservations.filter fun r => r.id ≠ booking.id) ++ [booking]) t d ≤
    (m.buildView 0).available.amount d + creditedBy mode m.releases t d
  have hkept := activeHolds_filter_le mode h.holds (fun r => r.id ≠ booking.id) t d
  have hbefore := hm t d
  have hnil : activeHolds mode [] t d = 0 := rfl
  rw [activeHolds_append, activeHolds_cons, hnil, add_zero]
  split_ifs with hactive
  · rcases (h.nonneg d).eq_or_lt with h0 | hpos
    · rw [← h0, add_zero]
      exact hkept.trans hbefore
    · have hroom := h.covered hactive.2 hpos
      rw [leftAt] at hroom
      linarith
  · rw [add_zero]
    exact hkept.trans hbefore

/-- Whoever books only what the planner offers never oversubscribes the fleet. -/
theorem bookings_never_oversubscribe
    (hm : NotOversubscribed mode m.reservations m.releases (m.buildView 0).available)
    (hrun : Relation.ReflTransGen (Books σ mode) m m') :
    NotOversubscribed mode m'.reservations m'.releases (m'.buildView 0).available := by
  induction hrun with
  | refl => exact hm
  | tail _ hbooks ih => exact hbooks.notOversubscribed ih

end Booking

theorem bookings_never_oversubscribe_laterHold :
    NotOversubscribed .expected (firstBooked.publishReservation laterHold).1.reservations
      (firstBooked.publishReservation laterHold).1.releases
      ((firstBooked.publishReservation laterHold).1.buildView (A := .double) 0).available := by
  have hfirst : acceleratorPair.Offers (A := .double) (SortBy.stable _) .expected
      (hardHold 1 firstTen 1) := by
    refine ⟨oneOfTwo, 0, 10, 100, by decide, by decide, addsExactly_acceleratorPair,
      plannable_acceleratorPair, by decide +kernel, by decide +kernel, by decide +kernel,
      fun d => ?_⟩
    rw [at_hardHold, amount_oneOfTwo]
    split_ifs <;> norm_num
  have hlater : firstBooked.Offers (A := .double) (SortBy.stable _) .expected laterHold := by
    refine ⟨oneOfTwo, 20, 10, 100, by decide, by decide, addsExactly_firstBooked,
      plannable_firstBooked, by decide +kernel, by decide +kernel, by decide +kernel,
      fun d => ?_⟩
    rw [laterHold, at_hardHold, amount_oneOfTwo]
    split_ifs <;> norm_num
  have hempty : NotOversubscribed .expected acceleratorPair.reservations acceleratorPair.releases
      (acceleratorPair.buildView (A := .double) 0).available := by
    intro t d
    have hactive : activeHolds .expected acceleratorPair.reservations t d = 0 := rfl
    have hcredited : creditedBy .expected acceleratorPair.releases t d = 0 := rfl
    rw [hactive, hcredited, add_zero]
    exact Capacity.amount_nonneg _ d
  have hbooked : Books (A := .double) (SortBy.stable _) .expected acceleratorPair firstBooked :=
    .of_offers (A := .double) hfirst
  exact bookings_never_oversubscribe (A := .double) hempty
    ((Relation.ReflTransGen.single hbooked).tail (.of_offers (A := .double) hlater))

end CapacityModel

end CapacityFabric
