import CapacityFabric.Demand.Demand
import CapacityFabric.Foundation.FirstHit
import CapacityFabric.Timeline.Window

/-!
# Earliest fit

The search for the earliest start at which a demand fits for its whole duration.
-/

namespace CapacityFabric

structure EarliestFitResult where
  found : Bool := false
  start : TimePoint := 0
  end_ : TimePoint := 0
  capacityAtFit : Capacity := ∅
  candidatesChecked : ℕ := 0

/-- The requested start and the event boundaries that leave room for the duration,
sorted and without repetitions. -/
def candidateStarts (tl : Timeline) (earliestStart horizon : TimePoint) (duration : DurationNs) :
    List TimePoint :=
  let latestPossible := horizon.toInt - duration.toInt
  -- Whether the requested start leaves room itself is not asked.
  let out := earliestStart :: (tl.events.filter fun e =>
    earliestStart ≤ e.time ∧ e.time.toInt ≤ latestPossible).map CapacityEvent.time
  (out.insertionSort (· ≤ ·)).dedup

/-- The end of the window from `t`, which the source assumes not to overflow. -/
def windowEnd (t : TimePoint) (duration : DurationNs) : ℤ := t.toInt + duration.toInt

/-- The loop over the candidate starts, with the number already checked. -/
def firstFit [A : Arithmetic] (tl : Timeline) (demand : WorkloadDemand) (duration : DurationNs) :
    ℕ → List TimePoint → EarliestFitResult
  | checked, [] => { candidatesChecked := checked }
  | checked, t :: ts =>
    let win := tl.rangeMin t (windowEnd t duration)
    if win.satisfies demand.requirements then
      { found := true, start := t, end_ := t + duration, capacityAtFit := win
        candidatesChecked := checked + 1 }
    else firstFit tl demand duration (checked + 1) ts

/-- No sum or difference of instants that the search forms leaves the 64-bit range. -/
def NoOverflow (tl : Timeline) (earliestStart : TimePoint) (duration : DurationNs)
    (horizon : TimePoint) : Prop :=
  Int64.minValue.toInt ≤ horizon.toInt - duration.toInt ∧
    horizon.toInt - duration.toInt ≤ Int64.maxValue.toInt ∧
    ∀ t ∈ candidateStarts tl earliestStart horizon duration,
      windowEnd t duration ≤ Int64.maxValue.toInt

instance (tl : Timeline) (earliestStart : TimePoint) (duration : DurationNs)
    (horizon : TimePoint) : Decidable (NoOverflow tl earliestStart duration horizon) :=
  have : Decidable (∀ t ∈ candidateStarts tl earliestStart horizon duration,
      windowEnd t duration ≤ Int64.maxValue.toInt) := List.decidableBAll _ _
  inferInstanceAs (Decidable (_ ∧ _ ∧ _))

/-- The first candidate start whose window minimum meets the demand. -/
def earliestFit [A : Arithmetic] (tl : Timeline) (demand : WorkloadDemand)
    (earliestStart : TimePoint) (duration : DurationNs) (horizon : TimePoint) : EarliestFitResult :=
  if duration < 0 ∨ horizon ≤ earliestStart then {}
  else firstFit tl demand duration 0 (candidateStarts tl earliestStart horizon duration)

theorem mem_candidateStarts {tl : Timeline} {earliestStart horizon : TimePoint}
    {duration : DurationNs} {t : TimePoint} :
    t ∈ candidateStarts tl earliestStart horizon duration ↔
      t = earliestStart ∨ earliestStart ≤ t ∧ t.toInt ≤ horizon.toInt - duration.toInt ∧
        ∃ e ∈ tl.events, e.time = t := by
  rw [candidateStarts, List.mem_dedup, (List.perm_insertionSort _ _).mem_iff, List.mem_cons,
    List.mem_map]
  simp only [List.mem_filter, decide_eq_true_eq]
  apply or_congr_right
  constructor
  · rintro ⟨e, ⟨he, h1, h2⟩, rfl⟩
    exact ⟨h1, h2, e, he, rfl⟩
  · rintro ⟨h1, h2, e, he, rfl⟩
    exact ⟨e, ⟨he, h1, h2⟩, rfl⟩

theorem candidateStarts_sorted (tl : Timeline) (earliestStart horizon : TimePoint)
    (duration : DurationNs) :
    (candidateStarts tl earliestStart horizon duration).Pairwise (· < ·) := by
  have hle := (List.pairwise_insertionSort (· ≤ ·) (earliestStart :: (tl.events.filter fun e =>
    earliestStart ≤ e.time ∧ e.time.toInt ≤ horizon.toInt - duration.toInt).map
      CapacityEvent.time)).sublist (List.dedup_sublist _)
  exact hle.imp₂ (fun _ _ h hne => lt_of_le_of_ne h hne) (List.nodup_dedup _)

theorem firstFit_eq_find? (tl : Timeline) (demand : WorkloadDemand) (duration : DurationNs)
    (checked : ℕ) (ts : List TimePoint) :
    (if (firstFit tl demand duration checked ts).found = true then
        some (firstFit tl demand duration checked ts).start else none) =
      ts.find? fun t => (tl.rangeMin t (windowEnd t duration)).satisfies
        demand.requirements := by
  induction ts generalizing checked with
  | nil => rfl
  | cons t ts ih =>
    rw [firstFit, List.find?_cons]
    by_cases h : (tl.rangeMin t (windowEnd t duration)).satisfies demand.requirements = true
    · simp [h]
    · simpa [h] using ih (checked + 1)

section Search

variable (σ : EventSort) (tl : Timeline) (demand : WorkloadDemand)
  {earliestStart horizon : TimePoint} {duration : DurationNs}

theorem earliestFit_eq_find? (hduration : 0 ≤ duration) (hhorizon : earliestStart < horizon) :
    (if (earliestFit tl demand earliestStart duration horizon).found = true then
        some (earliestFit tl demand earliestStart duration horizon).start else none) =
      (candidateStarts tl earliestStart horizon duration).find? fun t =>
        (tl.rangeMin t (windowEnd t duration)).satisfies demand.requirements := by
  rw [earliestFit, if_neg (not_or.mpr ⟨hduration.not_gt, hhorizon.not_ge⟩)]
  exact firstFit_eq_find? tl demand duration 0 _

/-- What is reported is the least candidate whose window recovers. -/
theorem earliestFit_reports_iff (hduration : 0 ≤ duration) (hhorizon : earliestStart < horizon)
    {s : TimePoint} :
    (earliestFit (tl.freeze σ) demand earliestStart duration horizon).found = true ∧
        (earliestFit (tl.freeze σ) demand earliestStart duration horizon).start = s ↔
      s ∈ candidateStarts (tl.freeze σ) earliestStart horizon duration ∧
        (tl.freeze σ).Recovers demand.requirements s (windowEnd s duration) ∧
        ∀ c ∈ candidateStarts (tl.freeze σ) earliestStart horizon duration, c < s →
          ¬(tl.freeze σ).Recovers demand.requirements c (windowEnd c duration) := by
  have hfind := earliestFit_eq_find? (tl.freeze σ) demand hduration hhorizon
  have hfirst := FirstHit.isFirst_find?
    (candidateStarts_sorted (tl.freeze σ) earliestStart horizon duration)
    fun t => ((tl.freeze σ).rangeMin t (windowEnd t duration)).satisfies demand.requirements
  simp only [Timeline.rangeMin_satisfies_iff] at hfirst
  rw [← hfind] at hfirst
  constructor
  · rintro ⟨hfound, rfl⟩
    rwa [if_pos hfound] at hfirst
  · intro h
    have hsome : _ = some s := hfirst.unique h
    split_ifs at hsome with hfound
    exact ⟨hfound, Option.some.inj hsome⟩

theorem earliestFit_found_of_recovers (hduration : 0 ≤ duration)
    (hhorizon : earliestStart < horizon) {c : TimePoint}
    (hc : c ∈ candidateStarts (tl.freeze σ) earliestStart horizon duration)
    (hrecovers : (tl.freeze σ).Recovers demand.requirements c (windowEnd c duration)) :
    (earliestFit (tl.freeze σ) demand earliestStart duration horizon).found = true ∧
      (earliestFit (tl.freeze σ) demand earliestStart duration horizon).start ≤ c := by
  have hfind := earliestFit_eq_find? (tl.freeze σ) demand hduration hhorizon
  have hfound :
      (earliestFit (tl.freeze σ) demand earliestStart duration horizon).found = true := by
    by_contra hn
    rw [if_neg hn, eq_comm, List.find?_eq_none] at hfind
    exact hfind c hc ((Timeline.rangeMin_satisfies_iff σ tl _ _ _).mpr hrecovers)
  refine ⟨hfound, le_of_not_gt fun hlt => ?_⟩
  have hspec := (earliestFit_reports_iff σ tl demand hduration hhorizon).mp ⟨hfound, rfl⟩
  exact hspec.2.2 c hc hlt hrecovers

theorem start_lt_windowEnd (hduration : 1 ≤ duration) (t : TimePoint) :
    t.toInt < windowEnd t duration := by
  have h : (1 : Int64).toInt ≤ duration.toInt := Int64.le_iff_toInt_le.mp hduration
  have h1 : (1 : Int64).toInt = 1 := rfl
  rw [windowEnd]
  omega

/-- A reported fit holds at every instant of its window precisely when no candidate
is accepted although the demand is not met at its first instant, unless a candidate
before it meets the demand throughout. -/
theorem earliestFit_sound_iff (hduration : 1 ≤ duration) :
    ((earliestFit (tl.freeze σ) demand earliestStart duration horizon).found = true →
      ∀ t d, (earliestFit (tl.freeze σ) demand earliestStart duration horizon).start ≤ t →
        t.toInt < windowEnd
          (earliestFit (tl.freeze σ) demand earliestStart duration horizon).start duration →
        demand.requirements.amount d ≤ ((tl.freeze σ).capacityAt t).amount d) ↔
    (horizon ≤ earliestStart ∨
      ∀ c ∈ candidateStarts (tl.freeze σ) earliestStart horizon duration,
        (tl.freeze σ).Recovers demand.requirements c (windowEnd c duration) →
        ¬((tl.freeze σ).capacityAt c).satisfies demand.requirements = true →
        ∃ c' ∈ candidateStarts (tl.freeze σ) earliestStart horizon duration, c' < c ∧
          (tl.freeze σ).Clears demand.requirements c' (windowEnd c' duration)) := by
  rcases le_or_gt horizon earliestStart with hhorizon | hhorizon
  · simp [earliestFit, hhorizon]
  have hnonneg : 0 ≤ duration := le_trans (by decide) hduration
  have hspec := @earliestFit_reports_iff σ tl demand earliestStart horizon duration hnonneg
    hhorizon
  constructor
  · intro hsound
    refine Or.inr fun c hc hrecovers hshort => ?_
    obtain ⟨hfound, hle⟩ :=
      earliestFit_found_of_recovers σ tl demand hnonneg hhorizon hc hrecovers
    obtain ⟨hmem, hrec, -⟩ := hspec.mp ⟨hfound, rfl⟩
    have hstart := Capacity.satisfies_iff.mpr fun d =>
      hsound hfound _ d le_rfl (start_lt_windowEnd hduration _)
    refine ⟨_, hmem, lt_of_le_of_ne hle fun he => hshort (he ▸ hstart), ?_⟩
    exact hrec.clears σ tl hstart
  · rintro hcondition hfound t d hs ht
    obtain ⟨hmem, hrec, hleast⟩ := hspec.mp ⟨hfound, rfl⟩
    have hstart : ((tl.freeze σ).capacityAt (earliestFit (tl.freeze σ) demand earliestStart
        duration horizon).start).satisfies demand.requirements = true := by
      by_contra hshort
      obtain ⟨c', hc', hlt, hclears⟩ :=
        hcondition.resolve_left hhorizon.not_ge _ hmem hrec hshort
      exact hleast c' hc' hlt (hclears.recovers σ tl (start_lt_windowEnd hduration c'))
    exact Capacity.satisfies_iff.mp ((hrec.clears σ tl hstart).feasible σ tl t hs ht) d

def emptyUntilRelease : Timeline :=
  (Timeline.ofBase ∅).addRelease (Reference.makeRelease ⟨1⟩ 10 10 10 4 default)

def fourAccelerators : WorkloadDemand := Reference.makeDemand ⟨1⟩ ⟨1⟩ 4 1

theorem earliestFit_sound_iff_emptyUntilRelease :
    ((earliestFit (emptyUntilRelease.freeze (SortBy.stable _)) fourAccelerators 0 20 100).found =
        true →
      ∀ t d, (earliestFit (emptyUntilRelease.freeze (SortBy.stable _)) fourAccelerators 0 20
          100).start ≤ t →
        t.toInt < windowEnd (earliestFit (emptyUntilRelease.freeze (SortBy.stable _))
          fourAccelerators 0 20 100).start 20 →
        fourAccelerators.requirements.amount d ≤
          ((emptyUntilRelease.freeze (SortBy.stable _)).capacityAt t).amount d) ↔
    (100 ≤ (0 : TimePoint) ∨
      ∀ c ∈ candidateStarts (emptyUntilRelease.freeze (SortBy.stable _)) 0 100 20,
        (emptyUntilRelease.freeze (SortBy.stable _)).Recovers fourAccelerators.requirements c
          (windowEnd c 20) →
        ¬((emptyUntilRelease.freeze (SortBy.stable _)).capacityAt c).satisfies
          fourAccelerators.requirements = true →
        ∃ c' ∈ candidateStarts (emptyUntilRelease.freeze (SortBy.stable _)) 0 100 20, c' < c ∧
          (emptyUntilRelease.freeze (SortBy.stable _)).Clears fourAccelerators.requirements c'
            (windowEnd c' 20)) :=
  earliestFit_sound_iff _ _ _ (by decide)

/-- A window is accepted although nothing is available before the release inside it. -/
theorem earliestFit_accepts_empty_start :
    ¬ ∀ (σ : EventSort) (tl : Timeline) (demand : WorkloadDemand) (earliestStart : TimePoint)
      (duration : DurationNs) (horizon : TimePoint), 1 ≤ duration →
      NoOverflow (tl.freeze σ) earliestStart duration horizon →
      (earliestFit (tl.freeze σ) demand earliestStart duration horizon).found = true →
      ∀ t d, (earliestFit (tl.freeze σ) demand earliestStart duration horizon).start ≤ t →
        t.toInt < windowEnd
          (earliestFit (tl.freeze σ) demand earliestStart duration horizon).start duration →
        demand.requirements.amount d ≤ ((tl.freeze σ).capacityAt t).amount d := by
  intro h
  have hle := h (SortBy.stable _) emptyUntilRelease fourAccelerators 0 20 100 (by decide)
    (by decide +kernel) (by decide +kernel) 0 .acceleratorCount (by decide +kernel)
    (by decide +kernel)
  revert hle
  decide +kernel

theorem capacityAt_eq_of_no_event {s t : TimePoint} (h : s ≤ t)
    (hnone : ∀ e ∈ (tl.freeze σ).events, s < e.time → t < e.time) :
    (tl.freeze σ).capacityAt t = (tl.freeze σ).capacityAt s := by
  have hnil : ((tl.freeze σ).events.filter fun e => s < e.time ∧ e.time ≤ t) = [] :=
    List.filter_eq_nil_iff.mpr fun e he h => by
      obtain ⟨hs, ht⟩ := of_decide_eq_true h
      exact (hnone e he hs).not_ge ht
  rw [Timeline.capacityAt_eq_after σ tl h, hnil]
  rfl

/-- The last candidate up to an instant; no event lies between the two. -/
theorem exists_last_candidate {s : TimePoint} (hs : earliestStart ≤ s)
    (hroom : s.toInt ≤ horizon.toInt - duration.toInt) :
    ∃ c ∈ candidateStarts (tl.freeze σ) earliestStart horizon duration, c ≤ s ∧
      (∀ c' ∈ candidateStarts (tl.freeze σ) earliestStart horizon duration, c' ≤ s → c' ≤ c) ∧
      ∀ e ∈ (tl.freeze σ).events, c < e.time → s < e.time := by
  let past := (candidateStarts (tl.freeze σ) earliestStart horizon duration).toFinset.filter (· ≤ s)
  have hne : earliestStart ∈ past := by
    simp [past, mem_candidateStarts, hs]
  obtain ⟨c, hc, hlast⟩ := past.exists_max_image id ⟨_, hne⟩
  obtain ⟨hc, hcs⟩ := Finset.mem_filter.mp hc
  rw [List.mem_toFinset] at hc
  have hec : earliestStart ≤ c := hlast _ hne
  refine ⟨c, hc, hcs, fun c' hc' hle => ?_, fun e he hce => ?_⟩
  · exact hlast c' (Finset.mem_filter.mpr ⟨List.mem_toFinset.mpr hc', hle⟩)
  · by_contra hes
    have hle : e.time.toInt ≤ s.toInt := Int64.le_iff_toInt_le.mp (not_lt.mp hes)
    have hcand : e.time ∈ past := by
      simp only [past, Finset.mem_filter, List.mem_toFinset, mem_candidateStarts]
      exact ⟨Or.inr ⟨hec.trans hce.le, hle.trans hroom, e, he, rfl⟩, not_lt.mp hes⟩
    exact (hlast _ hcand).not_gt hce

/-- Moving a feasible start back to the last candidate before it keeps it feasible,
since nothing happens in between. -/
theorem exists_feasible_candidate {s : TimePoint} (hs : earliestStart ≤ s)
    (hroom : s.toInt ≤ horizon.toInt - duration.toInt)
    (hfeasible : (tl.freeze σ).Feasible demand.requirements s (windowEnd s duration)) :
    ∃ c ∈ candidateStarts (tl.freeze σ) earliestStart horizon duration, c ≤ s ∧
      (tl.freeze σ).Feasible demand.requirements c (windowEnd c duration) := by
  obtain ⟨c, hc, hcs, -, hnone⟩ := exists_last_candidate σ tl hs hroom
  refine ⟨c, hc, hcs, fun t hct htend => ?_⟩
  have hend : windowEnd c duration ≤ windowEnd s duration :=
    Int.add_le_add_right (Int64.le_iff_toInt_le.mp hcs) _
  rcases le_or_gt s t with hst | hts
  · exact hfeasible t hst (htend.trans_le hend)
  · have hts' : (tl.freeze σ).capacityAt s = (tl.freeze σ).capacityAt t :=
      capacityAt_eq_of_no_event σ tl hts.le fun e he hte =>
        hnone e he (hct.trans_lt hte)
    have hwindow : s.toInt < windowEnd s duration := by
      have := Int64.lt_iff_toInt_lt.mp hts
      have := Int64.le_iff_toInt_le.mp hct
      rw [windowEnd] at *
      omega
    exact hts' ▸ hfeasible s le_rfl hwindow

/-- Two holds of two accelerators meet at 10; the later one was added first. -/
def meetingHolds : Timeline :=
  ((Timeline.ofBase (acceleratorBase 4)).addReservation
    (hardHold 2 nextTen 2)).addReservation
    (hardHold 1 firstTen 2)

def twoAccelerators : WorkloadDemand := Reference.makeDemand ⟨1⟩ ⟨1⟩ 2 1

theorem meetingHolds_feasible :
    (meetingHolds.freeze (SortBy.stable _)).Feasible twoAccelerators.requirements 5
      (windowEnd 5 10) := by
  have htimes : ∀ e ∈ (meetingHolds.freeze (SortBy.stable _)).events,
      e.time = 0 ∨ e.time = 10 ∨ e.time = 20 := by
    decide +kernel
  have h5 : ((meetingHolds.freeze (SortBy.stable _)).capacityAt 5).satisfies
      twoAccelerators.requirements = true := by
    decide +kernel
  have h10 : ((meetingHolds.freeze (SortBy.stable _)).capacityAt 10).satisfies
      twoAccelerators.requirements = true := by
    decide +kernel
  intro t h5t ht
  have ht20 : t < 20 := Int64.lt_iff_toInt_lt.mpr (ht.trans (by decide))
  -- Before the handover the first hold is in force, after it the second.
  rcases lt_or_ge t 10 with ht10 | ht10
  · rwa [capacityAt_eq_of_no_event _ _ h5t]
    intro e he h5e
    rcases htimes e he with h | h | h
    · exact absurd (h ▸ h5e) (by decide)
    · exact h ▸ ht10
    · exact h ▸ ht20
  · rwa [capacityAt_eq_of_no_event _ _ ht10]
    intro e he h10e
    rcases htimes e he with h | h | h
    · exact absurd (h ▸ h10e) (by decide)
    · exact absurd (h ▸ h10e) (by decide)
    · exact h ▸ ht20

end Search

end CapacityFabric
