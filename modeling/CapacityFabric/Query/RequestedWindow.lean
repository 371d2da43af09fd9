import CapacityFabric.Query.EarliestFit

/-!
# The requested window

An event is a candidate start only if it leaves room for the duration before the
horizon.  The requested start is a candidate in any case.
-/

namespace CapacityFabric

theorem firstFit_end [A : Arithmetic] (tl : Timeline) (demand : WorkloadDemand)
    (duration : DurationNs) (checked : ℕ) {ts : List TimePoint}
    (hfound : (firstFit tl demand duration checked ts).found = true) :
    (firstFit tl demand duration checked ts).end_ =
      (firstFit tl demand duration checked ts).start + duration := by
  induction ts generalizing checked with
  | nil => cases hfound
  | cons t ts ih =>
    rw [firstFit] at hfound ⊢
    by_cases h : (tl.rangeMin t (windowEnd t duration)).satisfies demand.requirements = true
    · simp [h]
    · simp only [h, if_false, Bool.false_eq_true] at hfound ⊢
      exact ih (checked + 1) hfound

theorem toInt_add_duration {t : TimePoint} {duration : DurationNs} (hduration : 0 ≤ duration)
    (hend : windowEnd t duration ≤ Int64.maxValue.toInt) :
    (t + duration).toInt = windowEnd t duration := by
  have hnonneg : (0 : Int64).toInt ≤ duration.toInt := Int64.le_iff_toInt_le.mp hduration
  have hzero : (0 : Int64).toInt = 0 := rfl
  have hmin := t.le_toInt
  rw [Int64.toInt_maxValue] at hend
  rw [windowEnd] at hend ⊢
  rw [Int64.toInt_add, Int.bmod_eq_of_le (by omega) (by omega)]

section

variable {σ : EventSort} {tl : Timeline} {demand : WorkloadDemand}
  {earliestStart horizon : TimePoint} {duration : DurationNs}

theorem earliestStart_le_candidate {t : TimePoint}
    (ht : t ∈ candidateStarts tl earliestStart horizon duration) : earliestStart ≤ t := by
  rcases mem_candidateStarts.mp ht with rfl | ⟨hle, -⟩
  · exact le_rfl
  · exact hle

theorem windowEnd_le_horizon {t : TimePoint}
    (ht : t ∈ candidateStarts tl earliestStart horizon duration) (hne : t ≠ earliestStart) :
    windowEnd t duration ≤ horizon.toInt := by
  obtain ⟨-, hroom, -⟩ := (mem_candidateStarts.mp ht).resolve_left hne
  rw [windowEnd]
  omega

theorem earliestFit_end (hduration : 0 ≤ duration) (hhorizon : earliestStart < horizon)
    (hoverflow : NoOverflow (tl.freeze σ) earliestStart duration horizon)
    (hfound : (earliestFit (tl.freeze σ) demand earliestStart duration horizon).found = true) :
    (earliestFit (tl.freeze σ) demand earliestStart duration horizon).end_.toInt =
      windowEnd (earliestFit (tl.freeze σ) demand earliestStart duration horizon).start
        duration := by
  obtain ⟨hmem, -⟩ :=
    (earliestFit_reports_iff σ tl demand hduration hhorizon).mp ⟨hfound, rfl⟩
  rw [← toInt_add_duration hduration (hoverflow.2.2 _ hmem)]
  unfold earliestFit at hfound ⊢
  rw [if_neg (not_or.mpr ⟨hduration.not_gt, hhorizon.not_ge⟩)] at hfound ⊢
  rw [firstFit_end _ _ _ _ hfound]

end

def alwaysFour : Timeline := Timeline.ofBase (acceleratorBase 4)

def InRange (n : ℤ) : Prop := Int64.minValue.toInt ≤ n ∧ n ≤ Int64.maxValue.toInt

/-- Every sum and difference of instants that the search forms is in range. -/
def SumsInRange (tl : Timeline) (earliestStart : TimePoint) (duration : DurationNs)
    (horizon : TimePoint) : Prop :=
  InRange (horizon.toInt - duration.toInt) ∧
    ∀ t ∈ candidateStarts tl earliestStart horizon duration, InRange (windowEnd t duration)

/-- The events never overflow, since they leave room before the horizon; only the
bound on them and the end of the first window may. -/
theorem sumsInRange_iff {tl : Timeline} {earliestStart horizon : TimePoint}
    {duration : DurationNs} (hduration : 0 ≤ duration) :
    SumsInRange tl earliestStart duration horizon ↔
      Int64.minValue.toInt ≤ horizon.toInt - duration.toInt ∧
        windowEnd earliestStart duration ≤ Int64.maxValue.toInt := by
  have hnonneg : (0 : Int64).toInt ≤ duration.toInt := Int64.le_iff_toInt_le.mp hduration
  have hzero : (0 : Int64).toInt = 0 := rfl
  have hmax := Int64.le_iff_toInt_le.mp horizon.le_maxValue
  constructor
  · intro h
    exact ⟨h.1.1, (h.2 earliestStart (mem_candidateStarts.mpr (Or.inl rfl))).2⟩
  · rintro ⟨hbound, hwindow⟩
    refine ⟨⟨hbound, by omega⟩, fun t ht => ⟨?_, ?_⟩⟩
    · have hmin := Int64.le_iff_toInt_le.mp t.minValue_le
      rw [windowEnd]
      omega
    · by_cases hne : t = earliestStart
      · rw [hne]
        exact hwindow
      · exact (windowEnd_le_horizon ht hne).trans hmax

theorem sumsInRange_iff_alwaysFour :
    SumsInRange (alwaysFour.freeze (SortBy.stable _)) 5 Int64.maxValue 10 ↔
      Int64.minValue.toInt ≤ (10 : TimePoint).toInt - Int64.maxValue.toInt ∧
        windowEnd 5 Int64.maxValue ≤ Int64.maxValue.toInt :=
  sumsInRange_iff (by decide)

theorem longest_duration_overflows :
    ¬ ∀ (σ : EventSort) (tl : Timeline) (earliestStart : TimePoint) (duration : DurationNs)
      (horizon : TimePoint), 0 ≤ duration → earliestStart < horizon →
      SumsInRange (tl.freeze σ) earliestStart duration horizon := by
  intro h
  have hrange := h (SortBy.stable _) alwaysFour 5 Int64.maxValue 10 (by decide) (by decide)
  have hend := (hrange.2 5 (mem_candidateStarts.mpr (Or.inl rfl))).2
  revert hend
  decide

end CapacityFabric
