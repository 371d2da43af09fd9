import CapacityFabric.Model.Aggregates
import CapacityFabric.Model.FutureFit

/-!
# Fits without fresh evidence

A feasibility query looks at the freshness of the view.  The search for the earliest
fit does not: where no resource is counted it still finds what reservations and
releases return.
-/

namespace CapacityFabric

section

variable (σ : EventSort) (tl : Timeline) (demand : WorkloadDemand)

theorem rangeMin_satisfies_of_no_event {start : TimePoint} {stop : ℤ}
    (hnone : (tl.freeze σ).eventsWithin start stop = [])
    (hstart : ((tl.freeze σ).capacityAt start).satisfies demand.requirements = true) :
    ((tl.freeze σ).rangeMin start stop).satisfies demand.requirements = true := by
  rw [Timeline.rangeMin_satisfies_iff]
  intro d hpos
  have hle := Capacity.satisfies_iff.mp hstart d
  have hhas := Capacity.has_of_amount_pos (hpos.trans_le hle)
  have hwalk : (tl.freeze σ).walk start stop = [(tl.freeze σ).capacityAt start] := by
    rw [Timeline.walk, hnone]
    rfl
  rw [hwalk, List.dropWhile_cons_of_neg (by simp [hhas])]
  exact ⟨List.cons_ne_nil _ _, fun c hc => List.mem_singleton.mp hc ▸ hle⟩

theorem exists_of_found {earliestStart horizon : TimePoint} {duration : DurationNs}
    (h : (earliestFit tl demand earliestStart duration horizon).found = true) :
    ∃ c, (tl.rangeMin c (windowEnd c duration)).satisfies demand.requirements = true := by
  unfold earliestFit at h
  split_ifs at h
  have hfind := firstFit_eq_find? tl demand duration 0
    (candidateStarts tl earliestStart horizon duration)
  rw [if_pos h] at hfind
  have hfits := List.find?_some hfind.symm
  exact ⟨_, hfits⟩

theorem found_of_candidate {earliestStart horizon c : TimePoint} {duration : DurationNs}
    (hduration : ¬duration < 0) (hhorizon : earliestStart < horizon)
    (hc : c ∈ candidateStarts tl earliestStart horizon duration)
    (hfits : (tl.rangeMin c (windowEnd c duration)).satisfies demand.requirements = true) :
    (earliestFit tl demand earliestStart duration horizon).found = true := by
  rw [earliestFit, if_neg (not_or.mpr ⟨hduration, hhorizon.not_ge⟩)]
  have hfind := firstFit_eq_find? tl demand duration 0
    (candidateStarts tl earliestStart horizon duration)
  by_contra hnot
  rw [if_neg hnot, eq_comm, List.find?_eq_none] at hfind
  exact hfind c hc hfits

/-- Some search finds a fit exactly when some instant meets the demand. -/
theorem exists_found_iff :
    (∃ earliestStart duration horizon,
        (earliestFit (tl.freeze σ) demand earliestStart duration horizon).found = true) ↔
      ∃ t, ((tl.freeze σ).capacityAt t).satisfies demand.requirements = true := by
  have hnone : ∀ t, (tl.freeze σ).eventsWithin t (windowEnd t 0) = [] := by
    intro t
    rw [Timeline.eventsWithin, List.filter_eq_nil_iff]
    intro e _ he
    obtain ⟨hafter, hbefore⟩ := of_decide_eq_true he
    have hlt := Int64.lt_iff_toInt_lt.mp hafter
    rw [windowEnd, show (0 : Int64).toInt = 0 from rfl] at hbefore
    omega
  -- An instant before the last is searched from; at the last one there is an event to start at.
  have hbefore : ∀ t, t < Int64.maxValue →
      ((tl.freeze σ).capacityAt t).satisfies demand.requirements = true →
      ∃ earliestStart duration horizon,
        (earliestFit (tl.freeze σ) demand earliestStart duration horizon).found = true := by
    intro t ht hfits
    exact ⟨t, 0, Int64.maxValue, found_of_candidate _ demand (lt_irrefl 0) ht
      (mem_candidateStarts.mpr (Or.inl rfl))
      (rangeMin_satisfies_of_no_event σ tl demand (hnone t) hfits)⟩
  constructor
  · intro h
    obtain ⟨earliestStart, duration, horizon, hfound⟩ := h
    obtain ⟨c, hc⟩ := exists_of_found _ demand hfound
    obtain ⟨t, -, ht⟩ :=
      Timeline.Recovers.exists_satisfies σ tl ((Timeline.rangeMin_satisfies_iff σ tl _ _ _).mp hc)
    exact ⟨t, ht⟩
  · intro h
    obtain ⟨t, ht⟩ := h
    rcases (Int64.le_maxValue t).lt_or_eq with hlt | rfl
    · exact hbefore t hlt ht
    by_cases hevent : ∃ e ∈ (tl.freeze σ).events, e.time = Int64.maxValue
    · refine ⟨0, 0, Int64.maxValue, found_of_candidate _ demand (lt_irrefl 0) (by decide)
        (mem_candidateStarts.mpr (Or.inr ⟨by decide, by decide, hevent⟩))
        (rangeMin_satisfies_of_no_event σ tl demand (hnone _) ht)⟩
    · apply hbefore (Int64.maxValue - 1) (by decide)
      rw [← capacityAt_eq_of_no_event σ tl (t := Int64.maxValue) (by decide)]
      · exact ht
      · intro e he hlast
        refine absurd ⟨e, he, ?_⟩ hevent
        have hlt := Int64.lt_iff_toInt_lt.mp hlast
        have hle := Int64.le_iff_toInt_le.mp (Int64.le_maxValue e.time)
        have hpred : (Int64.maxValue - 1).toInt + 1 = Int64.maxValue.toInt := by decide
        apply Int64.toInt_inj.mp
        omega

end

namespace CapacityModel

/-- No query about the demand in this mode asserts a fit. -/
def AssertsNoFit (m : CapacityModel) (σ : EventSort) (d : WorkloadDemand) (mode : QueryMode) :
    Prop :=
  (∀ t, (m.queryFeasibility σ d mode t).outcome ≠ .fitNow ∧
      (m.queryFeasibility σ d mode t).outcome ≠ .fitFuture) ∧
    ∀ earliestStart duration horizon,
      (m.queryEarliestFit σ d mode earliestStart duration horizon).found = false

/-- The events that reservations and releases make up to `t`. -/
def publishedUntil (m : CapacityModel) (σ : EventSort) (mode : QueryMode) (t : TimePoint) :
    List CapacityEvent :=
  (σ.sort (draftTimeline ∅ m.reservations m.releases mode).events).filter fun e => e.time ≤ t

/-- At every instant some required dimension lacks capacity: from whichever event on, the
changes up to the instant add to less than the requirement. -/
def ReturnsTooLittle (m : CapacityModel) (σ : EventSort) (d : WorkloadDemand)
    (mode : QueryMode) : Prop :=
  ∀ t, ∃ dim, ∀ es, es <:+ m.publishedUntil σ mode t →
    (es.map fun e => e.delta.at_ dim).sum < d.requirements.amount dim

variable {m : CapacityModel} {now : TimePoint}

theorem available_of_not_fresh (hfresh : (m.buildView now).freshness ≠ .fresh) (t : TimePoint) :
    (m.buildView t).available = ∅ := by
  have hnil : m.counted = [] := by
    by_contra hne
    exact hfresh ((m.fresh_buildView_iff now).mpr hne)
  rw [available_buildView, hnil]
  rfl

theorem queryFeasibility_of_not_fresh (hfresh : (m.buildView now).freshness ≠ .fresh)
    (σ : EventSort) (d : WorkloadDemand) (mode : QueryMode) (t : TimePoint) :
    (m.queryFeasibility σ d mode t).outcome ≠ .fitNow ∧
      (m.queryFeasibility σ d mode t).outcome ≠ .fitFuture := by
  have hview : (m.buildView t).freshness ≠ .fresh := by
    rw [ne_eq, fresh_buildView_iff, ← m.fresh_buildView_iff now]
    exact hfresh
  unfold queryFeasibility
  by_cases ht : t ≤ 0
  · have hstale : (m.buildView t).freshness = .revalidationRequired ∨
        (m.buildView t).freshness = .insufficientEvidence :=
      (m.freshness_buildView t).resolve_left hview
    dsimp only
    rw [if_pos ht, evaluateNow]
    unfold validityGate freshnessGate
    rcases hstale with hstale | hstale <;> cases d.valid <;> simp [hstale]
  · simp [ht, evaluateFuture, hview]

theorem satisfies_queryTimeline_iff (hfresh : (m.buildView now).freshness ≠ .fresh)
    (σ : EventSort) (d : WorkloadDemand) (mode : QueryMode) (t : TimePoint) :
    ((m.queryTimeline σ mode).capacityAt t).satisfies d.requirements = true ↔
      ¬∃ dim, ∀ es, es <:+ m.publishedUntil σ mode t →
        (es.map fun e => e.delta.at_ dim).sum < d.requirements.amount dim := by
  have hamount : ∀ dim, ((m.queryTimeline σ mode).capacityAt t).amount dim =
      ClampedSum.clampedSum 0 ((m.publishedUntil σ mode t).map fun e => e.delta.at_ dim) := by
    intro dim
    have htimeline : m.queryTimeline σ mode =
        (draftTimeline ∅ m.reservations m.releases mode).freeze σ := by
      show (draftTimeline (m.buildView 0).available _ _ mode).freeze σ = _
      rw [available_of_not_fresh hfresh]
      rfl
    rw [htimeline, Timeline.amount_capacityAt_freeze, base_draftTimeline]
    rfl
  rw [Capacity.satisfies_iff, not_exists]
  apply forall_congr'
  intro dim
  rw [hamount, ← not_lt, ClampedSum.clampedSum_lt_iff]
  apply not_congr
  constructor
  · intro h es hes
    exact h _ (hes.map _)
  · intro h s hs
    obtain ⟨es, hes, rfl⟩ := List.suffix_map_iff.mp hs
    exact h es hes

def releaseWithoutSource : CapacityModel :=
  Runs.run step {} [.publishRelease (Reference.makeRelease ⟨1⟩ 10 10 10 4 default)]

end CapacityModel

end CapacityFabric
