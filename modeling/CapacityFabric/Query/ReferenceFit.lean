import CapacityFabric.Query.EarliestFit

/-!
# The reference search

The slow search that differential tests compare `earliestFit` with.  It tries every
instant of its grid and walks over all events for each window.
-/

namespace CapacityFabric

def referenceLoop [A : Arithmetic] (start : TimePoint) (stop : ℤ) :
    List CapacityEvent → Capacity → Capacity → Capacity
  | [], best, cur => best.min cur
  | e :: es, best, cur =>
    if e.time ≤ start then referenceLoop start stop es best cur
    else if stop ≤ e.time.toInt then best.min cur
    else
      let cur' := applyDelta cur e.delta
      referenceLoop start stop es ((best.min cur).min cur') cur'

def referenceMin [A : Arithmetic] (tl : Timeline) (start : TimePoint) (stop : ℤ) : Capacity :=
  referenceLoop start stop tl.events (tl.capacityAt start) (tl.capacityAt start)

/-- The loop over the time grid, from `t` on and at most `fuel` times. -/
def firstSample [A : Arithmetic] (tl : Timeline) (demand : WorkloadDemand) (duration : DurationNs)
    (horizon step : TimePoint) : ℕ → TimePoint → EarliestFitResult
  | 0, _ => {}
  | fuel + 1, t =>
    if windowEnd t duration ≤ horizon.toInt then
      let best := referenceMin tl t (windowEnd t duration)
      if best.satisfies demand.requirements then
        { found := true, start := t, end_ := t + duration, capacityAtFit := best }
      else if horizon.toInt - duration.toInt < t.toInt then {}
      else firstSample tl demand duration horizon step fuel (t + step)
    else {}

/-- The grid has no more samples than there are instants, so this many rounds are enough. -/
def slowReferenceEarliestFit [A : Arithmetic] (tl : Timeline) (demand : WorkloadDemand)
    (earliestStart : TimePoint) (duration : DurationNs) (horizon step : TimePoint) :
    EarliestFitResult :=
  if duration < 0 ∨ horizon ≤ earliestStart ∨ step ≤ 0 then {}
  else
    firstSample tl demand duration horizon step
      ((horizon.toInt - duration.toInt - earliestStart.toInt).toNat + 1) earliestStart

structure SameFit (a b : EarliestFitResult) : Prop where
  found : a.found = b.found
  start : a.start = b.start
  end_ : a.end_ = b.end_
  amount : ∀ d, a.capacityAtFit.amount d = b.capacityAtFit.amount d

/-- Every required dimension is stored somewhere in the window. -/
def StoresRequired (tl : Timeline) (requirement : Capacity) (start : TimePoint) (stop : ℤ) :
    Prop :=
  ∀ d, 0 < requirement.amount d → ∃ c ∈ tl.walk start stop, c.has d = true

theorem referenceLoop_eq_rangeLoop (start : TimePoint) (stop : ℤ) (es : List CapacityEvent)
    (best cur : Capacity) :
    referenceLoop start stop es best cur =
      Timeline.rangeLoop Capacity.min start stop (es.filter fun e => start < e.time) best cur := by
  induction es generalizing best cur with
  | nil => rfl
  | cons e es ih =>
    rw [referenceLoop]
    by_cases he : e.time ≤ start
    · rw [if_pos he, ih, List.filter_cons_of_neg (by simpa using he)]
    · have hafter : start < e.time := not_le.mp he
      rw [if_neg he, List.filter_cons_of_pos (by simpa using hafter), Timeline.rangeLoop,
        if_neg hafter.not_gt]
      split_ifs
      · rfl
      · exact ih _ _

theorem referenceMin_eq_rangeMin (σ : EventSort) (tl : Timeline) (start : TimePoint) (stop : ℤ) :
    referenceMin (tl.freeze σ) start stop = (tl.freeze σ).rangeMin start stop := by
  rw [referenceMin, referenceLoop_eq_rangeLoop, Timeline.rangeMin, Timeline.rangeFold,
    Timeline.drop_firstEventIndexAfter]

/-- The answer that reports the window from a start, if there is one. -/
def fitAt (tl : Timeline) (duration : DurationNs) : Option TimePoint → EarliestFitResult
  | none => {}
  | some s =>
    { found := true, start := s, end_ := s + duration
      capacityAtFit := tl.rangeMin s (windowEnd s duration) }

theorem SameFit.refl (a : EarliestFitResult) : SameFit a a := ⟨rfl, rfl, rfl, fun _ => rfl⟩

theorem SameFit.symm {a b : EarliestFitResult} (h : SameFit a b) : SameFit b a :=
  ⟨h.found.symm, h.start.symm, h.end_.symm, fun d => (h.amount d).symm⟩

theorem SameFit.trans {a b c : EarliestFitResult} (h : SameFit a b) (h' : SameFit b c) :
    SameFit a c :=
  ⟨h.found.trans h'.found, h.start.trans h'.start, h.end_.trans h'.end_,
    fun d => (h.amount d).trans (h'.amount d)⟩

theorem sameFit_fitAt_iff {tl : Timeline} {duration : DurationNs} {o o' : Option TimePoint} :
    SameFit (fitAt tl duration o) (fitAt tl duration o') ↔ o = o' := by
  constructor
  · intro h
    cases o with
    | none =>
      cases o' with
      | none => rfl
      | some s' => exact absurd h.found Bool.false_ne_true
    | some s =>
      cases o' with
      | none => exact absurd h.found.symm Bool.false_ne_true
      | some s' => exact congrArg some h.start
  · rintro rfl
    exact SameFit.refl _

section Search

variable (σ : EventSort) (tl : Timeline) (demand : WorkloadDemand)
  {earliestStart horizon : TimePoint} {duration : DurationNs}

theorem sameFit_firstFit (duration : DurationNs) (checked : ℕ) (ts : List TimePoint) :
    SameFit (firstFit tl demand duration checked ts)
      (fitAt tl duration (ts.find? fun t =>
        (tl.rangeMin t (windowEnd t duration)).satisfies demand.requirements)) := by
  induction ts generalizing checked with
  | nil => exact ⟨rfl, rfl, rfl, fun _ => rfl⟩
  | cons t ts ih =>
    rw [firstFit, List.find?_cons]
    by_cases h : (tl.rangeMin t (windowEnd t duration)).satisfies demand.requirements = true
    · rw [if_pos h, h]
      exact ⟨rfl, rfl, rfl, fun _ => rfl⟩
    · rw [if_neg h, Bool.eq_false_iff.mpr h]
      exact ih (checked + 1)

theorem toInt_add_one {t : TimePoint} (h : t.toInt < Int64.maxValue.toInt) :
    (t + 1).toInt = t.toInt + 1 := by
  have hmin := Int64.minValue_le_toInt t
  rw [Int64.toInt_minValue] at hmin
  rw [Int64.toInt_maxValue] at h
  have hone : (1 : Int64).toInt = 1 := rfl
  rw [Int64.toInt_add, hone, Int.bmod_eq_of_le (by omega) (by omega)]

/-- With one round for each instant that is left, the loop finds the first one whose window
recovers. -/
theorem firstSample_spec (hduration : 0 ≤ duration) (fuel : ℕ) {t : TimePoint}
    (hfuel : t.toInt + fuel = horizon.toInt - duration.toInt + 1) :
    ∃ o, FirstHit.IsFirst (fun s => t ≤ s ∧ windowEnd s duration ≤ horizon.toInt)
        (fun s => (tl.freeze σ).Recovers demand.requirements s (windowEnd s duration)) o ∧
      SameFit (firstSample (tl.freeze σ) demand duration horizon 1 fuel t)
        (fitAt (tl.freeze σ) duration o) := by
  induction fuel generalizing t with
  | zero =>
    refine ⟨none, fun s hs _ => ?_, SameFit.refl _⟩
    have hle : t.toInt ≤ s.toInt := Int64.le_iff_toInt_le.mp hs.1
    have hend := hs.2
    rw [windowEnd] at hend
    push_cast at hfuel
    omega
  | succ fuel ih =>
    have hroom : windowEnd t duration ≤ horizon.toInt := by
      rw [windowEnd]
      omega
    have hlast : ¬horizon.toInt - duration.toInt < t.toInt := by omega
    rw [firstSample, if_pos hroom, referenceMin_eq_rangeMin]
    by_cases h : ((tl.freeze σ).rangeMin t (windowEnd t duration)).satisfies
        demand.requirements = true
    · refine ⟨some t, ⟨⟨le_rfl, hroom⟩, ?_, fun s hs hlt => absurd hlt hs.1.not_gt⟩, ?_⟩
      · exact (Timeline.rangeMin_satisfies_iff σ tl _ _ _).mp h
      · rw [if_pos h]
        exact SameFit.refl _
    · rw [if_neg h, if_neg hlast]
      have hnot : ¬(tl.freeze σ).Recovers demand.requirements t (windowEnd t duration) :=
        fun hrecovers => h ((Timeline.rangeMin_satisfies_iff σ tl _ _ _).mpr hrecovers)
      have hdur : (0 : Int64).toInt ≤ duration.toInt := Int64.le_iff_toInt_le.mp hduration
      have hzero : (0 : Int64).toInt = 0 := rfl
      cases fuel with
      | zero =>
        -- `t` was the last instant, and the loop does not look at the next one.
        refine ⟨none, fun s hs => ?_, SameFit.refl _⟩
        have hle : t.toInt ≤ s.toInt := Int64.le_iff_toInt_le.mp hs.1
        have hend := hs.2
        rw [windowEnd] at hend
        obtain rfl : t = s := Int64.toInt_inj.mp (by omega)
        exact hnot
      | succ fuel =>
        have hmax := Int64.toInt_lt horizon
        have hnext : (t + 1).toInt = t.toInt + 1 :=
          toInt_add_one (by rw [Int64.toInt_maxValue]; omega)
        obtain ⟨o, hfirst, hsame⟩ := ih (t := t + 1) (by rw [hnext]; omega)
        refine ⟨o, hfirst.enlarge ?_ ?_, hsame⟩
        · intro s hs
          have hle : (t + 1).toInt ≤ s.toInt := Int64.le_iff_toInt_le.mp hs.1
          exact ⟨Int64.le_iff_toInt_le.mpr (by omega), hs.2⟩
        · -- What is missing from the rest of the grid is `t` alone.
          intro s hs hrest
          have hle : t.toInt ≤ s.toInt := Int64.le_iff_toInt_le.mp hs.1
          have hlt : ¬(t + 1).toInt ≤ s.toInt := fun h =>
            hrest ⟨Int64.le_iff_toInt_le.mpr h, hs.2⟩
          obtain rfl : t = s := Int64.toInt_inj.mp (by omega)
          exact hnot

/-- Both searches look for the first instant whose window recovers, one among the
candidates and one among all instants. -/
theorem searches_spec (hduration : 0 ≤ duration)
    (hroom : windowEnd earliestStart duration ≤ horizon.toInt) :
    ∃ o o', FirstHit.IsFirst
        (· ∈ candidateStarts (tl.freeze σ) earliestStart horizon duration)
        (fun s => (tl.freeze σ).Recovers demand.requirements s (windowEnd s duration)) o ∧
      FirstHit.IsFirst (fun s => earliestStart ≤ s ∧ windowEnd s duration ≤ horizon.toInt)
        (fun s => (tl.freeze σ).Recovers demand.requirements s (windowEnd s duration)) o' ∧
      (earliestStart < horizon →
        SameFit (earliestFit (tl.freeze σ) demand earliestStart duration horizon)
          (fitAt (tl.freeze σ) duration o) ∧
        SameFit (slowReferenceEarliestFit (tl.freeze σ) demand earliestStart duration horizon 1)
          (fitAt (tl.freeze σ) duration o')) := by
  -- The fuel reaches just past the last start that leaves room.
  have hfuel : earliestStart.toInt +
      ((horizon.toInt - duration.toInt - earliestStart.toInt).toNat + 1 : ℕ) =
      horizon.toInt - duration.toInt + 1 := by
    rw [windowEnd] at hroom
    push_cast
    omega
  obtain ⟨o', hfirst', hsame'⟩ := firstSample_spec σ tl demand hduration _ hfuel
  have hfirst := FirstHit.isFirst_find?
    (candidateStarts_sorted (tl.freeze σ) earliestStart horizon duration)
    fun t => ((tl.freeze σ).rangeMin t (windowEnd t duration)).satisfies demand.requirements
  simp only [Timeline.rangeMin_satisfies_iff] at hfirst
  refine ⟨_, o', hfirst, hfirst', fun hhorizon => ⟨?_, ?_⟩⟩
  · rw [earliestFit, if_neg (not_or.mpr ⟨hduration.not_gt, hhorizon.not_ge⟩)]
    exact sameFit_firstFit (tl.freeze σ) demand duration 0 _
  · rw [slowReferenceEarliestFit, if_neg]
    · exact hsame'
    · have hstep : ¬(1 : TimePoint) ≤ 0 := by decide
      simp only [not_or]
      exact ⟨hduration.not_gt, hhorizon.not_ge, hstep⟩

theorem storesRequired_of_recovers {tl : Timeline} {requirement : Capacity} {start : TimePoint}
    {stop : ℤ} (h : tl.Recovers requirement start stop) :
    StoresRequired tl requirement start stop := by
  intro d hpos
  obtain ⟨hne, -⟩ := h d hpos
  by_contra hnone
  push Not at hnone
  exact hne (List.dropWhile_eq_nil_iff.mpr fun c hc => by simpa using hnone c hc)

/-- Until the next event the walk from an instant only grows at its end. -/
theorem walk_isPrefix {c t : TimePoint} (hct : c ≤ t)
    (hnone : ∀ e ∈ (tl.freeze σ).events, c < e.time → t < e.time) :
    (tl.freeze σ).walk c (windowEnd c duration) <+:
      (tl.freeze σ).walk t (windowEnd t duration) := by
  have hend : windowEnd c duration ≤ windowEnd t duration :=
    Int.add_le_add_right (Int64.le_iff_toInt_le.mp hct) _
  have hafter : ((tl.freeze σ).events.filter fun e => t < e.time) =
      (tl.freeze σ).events.filter fun e => c < e.time := by
    apply List.filter_congr
    intro e he
    rw [decide_eq_decide]
    exact ⟨hct.trans_lt, hnone e he⟩
  obtain ⟨more, hmore⟩ : ∃ more, (tl.freeze σ).eventsWithin t (windowEnd t duration) =
      (tl.freeze σ).eventsWithin c (windowEnd c duration) ++ more := by
    rw [Timeline.eventsWithin_eq_takeWhile, Timeline.eventsWithin_eq_takeWhile, hafter]
    -- Both walks take from the same later events, one of them further.
    let later := (tl.freeze σ).events.filter fun e => c < e.time
    have htwice : (later.takeWhile fun e => e.time.toInt < windowEnd t duration).takeWhile
        (fun e => e.time.toInt < windowEnd c duration) =
        later.takeWhile fun e => e.time.toInt < windowEnd c duration := by
      rw [List.takeWhile_takeWhile]
      congr 1
      funext e
      simp only [decide_eq_true_eq, decide_eq_decide]
      exact and_iff_left_of_imp fun h => h.trans_le hend
    obtain ⟨more, hmore⟩ := List.takeWhile_prefix
      (fun e : CapacityEvent => decide (e.time.toInt < windowEnd c duration))
      (l := later.takeWhile fun e => e.time.toInt < windowEnd t duration)
    exact ⟨more, (htwice ▸ hmore).symm⟩
  rw [Timeline.walk, Timeline.walk, capacityAt_eq_of_no_event σ tl hct hnone, hmore,
    Timeline.walkFrom, Timeline.walkFrom, List.scanl_append]
  exact List.prefix_append _ _

/-- The last candidate before a window that recovers has one too, if its own window
stores everything that is required. -/
theorem recovers_of_later {requirement : Capacity} {c t : TimePoint} (hct : c ≤ t)
    (hnone : ∀ e ∈ (tl.freeze σ).events, c < e.time → t < e.time)
    (h : (tl.freeze σ).Recovers requirement t (windowEnd t duration))
    (hstores : StoresRequired (tl.freeze σ) requirement c (windowEnd c duration)) :
    (tl.freeze σ).Recovers requirement c (windowEnd c duration) := by
  intro d hpos
  obtain ⟨x, hx, hhas⟩ := hstores d hpos
  obtain ⟨rest, hrest⟩ := @walk_isPrefix σ tl duration c t hct hnone
  have hne : ((tl.freeze σ).walk c (windowEnd c duration)).dropWhile (fun c => !c.has d) ≠ [] := by
    intro hnil
    have := List.dropWhile_eq_nil_iff.mp hnil x hx
    simp [hhas] at this
  refine ⟨hne, fun y hy => ?_⟩
  apply (h d hpos).2 y
  rw [← hrest, List.dropWhile_append, if_neg (by simpa using hne)]
  exact List.mem_append_left rest hy

end Search

end CapacityFabric
