import CapacityFabric.Query.RequestedWindow
import CapacityFabric.Timeline.Accounting
import CapacityFabric.Timeline.Ties

/-!
# Planning against the ledger

Where no reservation begins at the instant at which another ends or a release is
credited, and no required dimension is ever used up, the search for the earliest fit is
exact: it finds the least start from which the ledger covers the demand.
-/

namespace CapacityFabric

section Ledger

variable (mode : QueryMode) (reservations : List Reservation) (releases : List ReleaseEvent)
  (base : Capacity)

/-- What the active holds leave of the base and the credited releases. -/
def leftAt (t : TimePoint) (d : Dimension) : ℚ :=
  base.amount d + creditedBy mode releases t d - activeHolds mode reservations t d

/-- What is left at `t` before anything is returned or credited there. -/
def leftThrough (t : TimePoint) (d : Dimension) : ℚ :=
  base.amount d + creditedBefore mode releases t d - touchingHolds mode reservations t d

/-- No reservation begins as a reservation ends or as a release is credited. -/
def NoHandovers : Prop :=
  ∀ r ∈ reservations, includes mode r = true →
    (∀ r' ∈ reservations, includes mode r' = true → r'.interval.end_ ≠ r.interval.start) ∧
      ∀ e ∈ releases, releaseTime e mode ≠ r.interval.start

instance : Decidable (NoHandovers mode reservations releases) :=
  inferInstanceAs (Decidable (∀ r ∈ reservations, includes mode r = true →
    (∀ r' ∈ reservations, includes mode r' = true → r'.interval.end_ ≠ r.interval.start) ∧
      ∀ e ∈ releases, releaseTime e mode ≠ r.interval.start))

/-- The ledger covers the requirement from `start` until `stop`. -/
def Covers (requirement : Capacity) (start : TimePoint) (stop : ℤ) : Prop :=
  ∀ t : TimePoint, start ≤ t → t.toInt < stop → ∀ d, 0 < requirement.amount d →
    requirement.amount d ≤ leftAt mode reservations releases base t d

/-- Something of every required dimension is left at every instant. -/
def NeverUsedUp (requirement : Capacity) : Prop :=
  ∀ t d, 0 < requirement.amount d → 0 < leftAt mode reservations releases base t d

/-- What exact planning for a requirement asks of a calendar. -/
structure Plannable (requirement : Capacity) : Prop where
  holds_nonneg : ∀ r ∈ reservations, r.hold.Nonneg
  releases_nonneg : ∀ e ∈ releases, e.release.Nonneg
  noHandovers : NoHandovers mode reservations releases
  neverUsedUp : NeverUsedUp mode reservations releases base requirement

/-- The starts in the requested range from which the ledger covers the demand. -/
def coveredStarts (demand : WorkloadDemand) (earliestStart : TimePoint) (duration : DurationNs)
    (horizon : TimePoint) : Set TimePoint :=
  {t | earliestStart ≤ t ∧ windowEnd t duration ≤ horizon.toInt ∧
    Covers mode reservations releases base demand.requirements t (windowEnd t duration)}

end Ledger

variable {mode : QueryMode} {reservations : List Reservation} {releases : List ReleaseEvent}
  {base : Capacity}

theorem holdsWhere_congr {p q : Reservation → Bool} (d : Dimension)
    (h : ∀ r ∈ reservations, includes mode r = true → p r = q r) :
    holdsWhere mode reservations p d = holdsWhere mode reservations q d := by
  rw [holdsWhere, holdsWhere]
  congr 2
  apply List.filter_congr
  intro r hr
  cases hi : includes mode r with
  | false => rfl
  | true => rw [Bool.true_and, Bool.true_and, h r hr hi]

theorem releasesWhere_congr {p q : ReleaseEvent → Bool} (d : Dimension)
    (h : ∀ e ∈ releases, p e = q e) : releasesWhere releases p d = releasesWhere releases q d := by
  rw [releasesWhere, releasesWhere, List.filter_congr h]

/-- Where a reservation begins, nothing is returned or credited. -/
theorem leftThrough_of_starts (h : NoHandovers mode reservations releases) {r : Reservation}
    (hr : r ∈ reservations) (hi : includes mode r = true) (d : Dimension) :
    leftThrough mode reservations releases base r.interval.start d =
      leftAt mode reservations releases base r.interval.start d := by
  obtain ⟨hends, hreleased⟩ := h r hr hi
  have htouching : touchingHolds mode reservations r.interval.start d =
      activeHolds mode reservations r.interval.start d := by
    apply holdsWhere_congr
    intro r' hr' hi'
    have hne := (hends r' hr' hi').symm
    rw [Interval.containsPoint, decide_eq_decide]
    constructor
    · rintro ⟨hstart, hend⟩
      exact ⟨hstart, lt_of_le_of_ne hend hne⟩
    · rintro ⟨hstart, hend⟩
      exact ⟨hstart, hend.le⟩
  have hcredited : creditedBefore mode releases r.interval.start d =
      creditedBy mode releases r.interval.start d := by
    apply releasesWhere_congr
    intro e he
    rw [decide_eq_decide]
    constructor
    · exact le_of_lt
    · intro hle
      exact lt_of_le_of_ne hle (hreleased e he)
  rw [leftThrough, leftAt, htouching, hcredited]

theorem le_pred_iff {s t : TimePoint} (ht : Int64.minValue < t) : s ≤ t - 1 ↔ s < t := by
  rw [Int64.le_iff_toInt_le, Int64.lt_iff_toInt_lt, Timeline.toInt_pred ht]
  omega

theorem pred_lt_iff {s t : TimePoint} (ht : Int64.minValue < t) : t - 1 < s ↔ t ≤ s := by
  rw [Int64.lt_iff_toInt_lt, Int64.le_iff_toInt_le, Timeline.toInt_pred ht]
  omega

/-- Where no reservation begins, what is left just before is left. -/
theorem leftThrough_of_quiet {t : TimePoint} (ht : Int64.minValue < t)
    (hquiet : ∀ r ∈ reservations, includes mode r = true → r.interval.start ≠ t) (d : Dimension) :
    leftThrough mode reservations releases base t d =
      leftAt mode reservations releases base (t - 1) d := by
  have htouching : touchingHolds mode reservations t d =
      activeHolds mode reservations (t - 1) d := by
    apply holdsWhere_congr
    intro r hr hi
    rw [Interval.containsPoint, decide_eq_decide, le_pred_iff ht, pred_lt_iff ht]
    constructor
    · rintro ⟨hstart, hend⟩
      exact ⟨lt_of_le_of_ne hstart (hquiet r hr hi), hend⟩
    · rintro ⟨hstart, hend⟩
      exact ⟨hstart.le, hend⟩
  have hcredited : creditedBefore mode releases t d = creditedBy mode releases (t - 1) d := by
    apply releasesWhere_congr
    intro e _
    rw [decide_eq_decide, le_pred_iff ht]
  rw [leftThrough, leftAt, htouching, hcredited]

/-- Without hand-overs what is left through an instant is what is left at it or just
before it. -/
theorem leftThrough_eq (h : NoHandovers mode reservations releases) {t : TimePoint}
    (ht : Int64.minValue < t) (d : Dimension) :
    leftThrough mode reservations releases base t d =
        leftAt mode reservations releases base t d ∨
      leftThrough mode reservations releases base t d =
        leftAt mode reservations releases base (t - 1) d := by
  by_cases hstarts : ∃ r ∈ reservations, includes mode r = true ∧ r.interval.start = t
  · obtain ⟨r, hr, hi, rfl⟩ := hstarts
    exact Or.inl (leftThrough_of_starts h hr hi d)
  · push Not at hstarts
    exact Or.inr (leftThrough_of_quiet ht hstarts d)

theorem leftThrough_nonneg (h : NoHandovers mode reservations releases) {d : Dimension}
    (hleft : ∀ t, 0 < leftAt mode reservations releases base t d) (t : TimePoint) :
    0 ≤ leftThrough mode reservations releases base t d := by
  rcases (Int64.minValue_le t).eq_or_lt with rfl | ht
  · by_cases hstarts : ∃ r ∈ reservations, includes mode r = true ∧
        r.interval.start = Int64.minValue
    · obtain ⟨r, hr, hi, hmin⟩ := hstarts
      rw [← hmin, leftThrough_of_starts h hr hi]
      exact (hleft _).le
    · push Not at hstarts
      -- Nothing touches the first instant.
      have htouching : touchingHolds mode reservations Int64.minValue d =
          holdsWhere mode reservations (fun _ => false) d := by
        apply holdsWhere_congr
        intro r hr hi
        rw [decide_eq_false_iff_not]
        rintro ⟨hle, -⟩
        exact hstarts r hr hi (hle.antisymm (Int64.minValue_le _))
      have hcredited : creditedBefore mode releases Int64.minValue d =
          releasesWhere releases (fun _ => false) d := by
        apply releasesWhere_congr
        intro e _
        rw [decide_eq_false_iff_not]
        exact (Int64.minValue_le _).not_gt
      rw [leftThrough, htouching, hcredited]
      simp [holdsWhere, releasesWhere, base.amount_nonneg d]
  · rcases leftThrough_eq h ht d with heq | heq
    · exact heq ▸ (hleft _).le
    · exact heq ▸ (hleft _).le

variable (σ : EventSort)

/-- In a required dimension the curve is the ledger. -/
theorem Plannable.amount_capacityAt {requirement : Capacity}
    (h : Plannable mode reservations releases base requirement) {d : Dimension}
    (hd : 0 < requirement.amount d) (t : TimePoint) :
    ((buildTimeline σ base reservations releases mode).capacityAt t).amount d =
      leftAt mode reservations releases base t d := by
  have hlowest : ∀ s, 0 ≤ base.amount d + SortBy.lowestSum CapacityEvent.time
      (fun e => e.delta.at_ d) s (draftTimeline base reservations releases mode).events := by
    intro s
    rw [lowestSum_draft h.holds_nonneg h.releases_nonneg, ← add_sub_assoc]
    exact leftThrough_nonneg h.noHandovers (fun t => h.neverUsedUp t d hd) s
  have hzero : ClampedSum.overdraft (base.amount d)
      ((buildTimeline σ base reservations releases mode).events.map fun e => e.delta.at_ d) =
        0 := by
    rw [ClampedSum.overdraft_eq_zero_iff (base.amount_nonneg d)]
    intro p hp
    obtain ⟨q, hq, rfl⟩ := List.prefix_map_iff.mp hp
    exact (SortBy.forall_prefix_nonneg_iff CapacityEvent.time (base.amount_nonneg d) _ _).mpr
      hlowest σ q hq
  have hle := Timeline.overdraft_eventsUntil_le σ (draftTimeline base reservations releases mode)
    (base.amount_nonneg d) t d
  have huntil := (hle.trans_eq hzero).antisymm (ClampedSum.overdraft_nonneg _ _)
  rw [amount_capacityAt_buildTimeline, buildTimeline, huntil, leftAt]
  ring

theorem Capacity.satisfies_of_required {c requirement : Capacity}
    (h : ∀ d, 0 < requirement.amount d → requirement.amount d ≤ c.amount d) :
    c.satisfies requirement = true := by
  rw [Capacity.satisfies_iff]
  intro d
  rcases (requirement.amount_nonneg d).eq_or_lt with h0 | hpos
  · exact h0 ▸ c.amount_nonneg d
  · exact h d hpos

namespace Timeline

theorem eventsUntil_append_within [A : Arithmetic] (tl : Timeline) (start : TimePoint)
    (stop : ℤ) :
    (tl.freeze σ).eventsUntil start ++ (tl.freeze σ).eventsWithin start stop <+:
      σ.sort tl.events := by
  have hevents : (tl.freeze σ).eventsUntil start ++
      ((tl.freeze σ).events.filter fun e => start < e.time) = σ.sort tl.events := by
    rw [← drop_firstEventIndexAfter, eventsUntil_eq_take]
    exact List.take_append_drop _ _
  have hprefix := (List.prefix_append_right_inj ((tl.freeze σ).eventsUntil start)).mpr
    (List.takeWhile_prefix (fun e : CapacityEvent => decide (e.time.toInt < stop))
      (l := (tl.freeze σ).events.filter fun e => start < e.time))
  rwa [hevents, ← eventsWithin_eq_takeWhile] at hprefix

/-- A walk that recovers from a start at which no required dimension is used up meets
the requirement there. -/
theorem Recovers.satisfies_start {tl : Timeline} {requirement : Capacity} {start : TimePoint}
    {stop : ℤ} (h : tl.Recovers requirement start stop)
    (hhas : ∀ d, 0 < requirement.amount d → (tl.capacityAt start).has d = true) :
    (tl.capacityAt start).satisfies requirement = true := by
  obtain ⟨rest, hwalk⟩ : ∃ rest, tl.walk start stop = tl.capacityAt start :: rest := by
    unfold walk walkFrom
    cases tl.eventsWithin start stop <;> simp
  apply Capacity.satisfies_of_required
  intro d hd
  apply (h d hd).2
  rw [hwalk, List.dropWhile_cons_of_neg (by simp [hhas d hd])]
  exact List.mem_cons_self

end Timeline

/-- Past its start the walk shows no less than what is left through some instant. -/
theorem leftThrough_le_of_mem_walk (hholds : ∀ r ∈ reservations, r.hold.Nonneg)
    (hreleases : ∀ e ∈ releases, e.release.Nonneg) {start : TimePoint} {stop : ℤ} {c : Capacity}
    (hc : c ∈ (buildTimeline σ base reservations releases mode).walk start stop) :
    c = (buildTimeline σ base reservations releases mode).capacityAt start ∨
      ∃ t : TimePoint, start < t ∧ t.toInt < stop ∧
        ∀ d, leftThrough mode reservations releases base t d ≤ c.amount d := by
  obtain ⟨p, hp, rfl⟩ := Timeline.mem_walkFrom.mp hc
  rcases List.eq_nil_or_concat' p with rfl | ⟨q, e, rfl⟩
  · exact Or.inl rfl
  have hmem : e ∈ (buildTimeline σ base reservations releases mode).eventsWithin start stop :=
    hp.subset (List.mem_append_right q (List.mem_singleton_self e))
  obtain ⟨hafter, hstop⟩ := of_decide_eq_true (List.mem_filter.mp hmem).2
  refine Or.inr ⟨e.time, hafter, hstop, fun d => ?_⟩
  have hprefix : (buildTimeline σ base reservations releases mode).eventsUntil start ++ q ++ [e] <+:
      σ.sort (draftTimeline base reservations releases mode).events := by
    rw [List.append_assoc]
    exact ((List.prefix_append_right_inj _).mpr hp).trans
      (Timeline.eventsUntil_append_within σ _ start stop)
  have hlowest := SortBy.lowestSum_le_prefix (w := fun e : CapacityEvent => e.delta.at_ d)
    (σ.sorted _) hprefix
  have hperm : SortBy.lowestSum CapacityEvent.time (fun e => e.delta.at_ d) e.time
      (σ.sort (draftTimeline base reservations releases mode).events) =
        creditedBefore mode releases e.time d - touchingHolds mode reservations e.time d := by
    rw [← lowestSum_draft hholds hreleases]
    exact ((σ.perm _).map _).sum_eq
  have hcurve : (Timeline.after ((buildTimeline σ base reservations releases mode).capacityAt start)
      (q ++ [e])).amount d = ClampedSum.clampedSum (base.amount d)
        (((buildTimeline σ base reservations releases mode).eventsUntil start ++ q ++ [e]).map
          fun e => e.delta.at_ d) := by
    rw [buildTimeline, Timeline.capacityAt_freeze, ← Timeline.after_append, Timeline.amount_after,
      List.append_assoc, base_draftTimeline]
  have hclamped := ClampedSum.add_sum_le_clampedSum (base.amount d)
    (((buildTimeline σ base reservations releases mode).eventsUntil start ++ q ++ [e]).map
      fun e => e.delta.at_ d)
  rw [hperm] at hlowest
  rw [hcurve, leftThrough]
  linarith

section Search

variable {requirement : Capacity} {start : TimePoint} {stop : ℤ}

theorem Plannable.feasible_iff (h : Plannable mode reservations releases base requirement) :
    (buildTimeline σ base reservations releases mode).Feasible requirement start stop ↔
      Covers mode reservations releases base requirement start stop := by
  constructor
  · intro hfeasible t hs ht d hd
    rw [← h.amount_capacityAt σ hd]
    exact Capacity.satisfies_iff.mp (hfeasible t hs ht) d
  · intro hcovers t hs ht
    apply Capacity.satisfies_of_required
    intro d hd
    rw [h.amount_capacityAt σ hd]
    exact hcovers t hs ht d hd

/-- The walk over a covered window never dips below the requirement, in whatever order
the events of one instant were left. -/
theorem Plannable.clears (h : Plannable mode reservations releases base requirement)
    (hcovers : Covers mode reservations releases base requirement start stop)
    (hstop : start.toInt < stop) :
    (buildTimeline σ base reservations releases mode).Clears requirement start stop := by
  intro c hc
  rcases leftThrough_le_of_mem_walk σ h.holds_nonneg h.releases_nonneg hc with
    rfl | ⟨t, hst, htstop, hle⟩
  · exact (h.feasible_iff σ).mpr hcovers start le_rfl hstop
  apply Capacity.satisfies_of_required
  intro d hd
  have hmin : Int64.minValue < t := (Int64.minValue_le start).trans_lt hst
  refine le_trans ?_ (hle d)
  rcases leftThrough_eq h.noHandovers hmin d with heq | heq
  · rw [heq]
    exact hcovers t hst.le htstop d hd
  · rw [heq]
    refine hcovers (t - 1) ((le_pred_iff hmin).mpr hst) ?_ d hd
    rw [Timeline.toInt_pred hmin]
    omega

/-- The minimum over a window meets the requirement just when the ledger covers it. -/
theorem Plannable.recovers_iff (h : Plannable mode reservations releases base requirement)
    (hstop : start.toInt < stop) :
    (buildTimeline σ base reservations releases mode).Recovers requirement start stop ↔
      Covers mode reservations releases base requirement start stop := by
  constructor
  · intro hrec
    have hstart := hrec.satisfies_start fun d hd => Capacity.has_of_amount_pos (by
      rw [h.amount_capacityAt σ hd]
      exact h.neverUsedUp start d hd)
    exact (h.feasible_iff σ).mp ((hrec.clears σ _ hstart).feasible σ _)
  · intro hcovers
    exact (h.clears σ hcovers hstop).recovers σ _ hstop

end Search

variable {demand : WorkloadDemand} {earliestStart horizon : TimePoint} {duration : DurationNs}

theorem window_of_mem_candidateStarts {tl : Timeline} {t : TimePoint}
    (hroom : windowEnd earliestStart duration ≤ horizon.toInt)
    (ht : t ∈ candidateStarts tl earliestStart horizon duration) :
    earliestStart ≤ t ∧ windowEnd t duration ≤ horizon.toInt := by
  refine ⟨earliestStart_le_candidate ht, ?_⟩
  by_cases hne : t = earliestStart
  · exact hne ▸ hroom
  · exact windowEnd_le_horizon ht hne

/-- Every covered start has a candidate before it from which the ledger covers the demand. -/
theorem Plannable.exists_candidate
    (h : Plannable mode reservations releases base demand.requirements) {t : TimePoint}
    (ht : t ∈ coveredStarts mode reservations releases base demand earliestStart duration horizon) :
    ∃ c ∈ candidateStarts (buildTimeline σ base reservations releases mode) earliestStart horizon
        duration, c ≤ t ∧
      Covers mode reservations releases base demand.requirements c (windowEnd c duration) := by
  obtain ⟨hstart, hend, hcovers⟩ := ht
  have hlast : t.toInt ≤ horizon.toInt - duration.toInt := by
    rw [windowEnd] at hend
    omega
  obtain ⟨c, hc, hct, hfeasible⟩ := exists_feasible_candidate σ
    (draftTimeline base reservations releases mode) demand hstart hlast
    ((h.feasible_iff σ).mpr hcovers)
  exact ⟨c, hc, hct, (h.feasible_iff σ).mp hfeasible⟩

/-- What is reported is the least start from which the ledger covers the demand. -/
theorem Plannable.earliestFit_iff
    (h : Plannable mode reservations releases base demand.requirements) (hduration : 1 ≤ duration)
    (hroom : windowEnd earliestStart duration ≤ horizon.toInt) {s : TimePoint} :
    (earliestFit (buildTimeline σ base reservations releases mode) demand earliestStart duration
          horizon).found = true ∧
        (earliestFit (buildTimeline σ base reservations releases mode) demand earliestStart
          duration horizon).start = s ↔
      IsLeast (coveredStarts mode reservations releases base demand earliestStart duration horizon)
        s := by
  have hnonneg : 0 ≤ duration := le_trans (by decide) hduration
  have hhorizon : earliestStart < horizon :=
    Int64.lt_iff_toInt_lt.mpr ((start_lt_windowEnd hduration _).trans_le hroom)
  have hrecovers := fun t => @Plannable.recovers_iff mode reservations releases base σ
    demand.requirements t (windowEnd t duration) h (start_lt_windowEnd hduration t)
  refine (earliestFit_reports_iff σ (draftTimeline base reservations releases mode) demand hnonneg
    hhorizon).trans ?_
  constructor
  · rintro ⟨hmem, hrec, hleast⟩
    obtain ⟨hstart, hend⟩ := window_of_mem_candidateStarts hroom hmem
    refine ⟨⟨hstart, hend, (hrecovers s).mp hrec⟩, fun t ht => ?_⟩
    obtain ⟨c, hc, hct, hcovers⟩ := h.exists_candidate σ ht
    by_contra hlt
    exact hleast c hc (hct.trans_lt (not_le.mp hlt)) ((hrecovers c).mpr hcovers)
  · rintro ⟨hs, hleast⟩
    obtain ⟨c, hc, hcs, hcovers⟩ := h.exists_candidate σ hs
    have hcovered : ∀ c' ∈ candidateStarts (buildTimeline σ base reservations releases mode)
        earliestStart horizon duration,
        Covers mode reservations releases base demand.requirements c' (windowEnd c' duration) →
        s ≤ c' := by
      intro c' hc' hcovers'
      obtain ⟨hstart, hend⟩ := window_of_mem_candidateStarts hroom hc'
      exact hleast ⟨hstart, hend, hcovers'⟩
    obtain rfl : c = s := hcs.antisymm (hcovered c hc hcovers)
    refine ⟨hc, (hrecovers c).mpr hs.2.2, fun c' hc' hlt hrec => ?_⟩
    exact hlt.not_ge (hcovered c' hc' ((hrecovers c').mp hrec))

end CapacityFabric
