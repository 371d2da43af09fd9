import CapacityFabric.Query.Planning

/-!
# Searches without rounding

Where no sum of a timeline is rounded or rejected, every arithmetic walks the same curve,
and the search for the earliest fit reports what the exact search reports.
-/

namespace CapacityFabric

namespace Timeline

/-- Every amount that the events lead to, one after the other, is the exact one. -/
def AddsExactly [A : Arithmetic] : Capacity → List CapacityEvent → Prop
  | _, [] => True
  | c, e :: es => applyDelta c e.delta = applyDelta (A := .exact) c e.delta ∧
      AddsExactly (applyDelta c e.delta) es

variable [A : Arithmetic]

theorem follows_changesOf_cons (c : Capacity) (e : CapacityEvent) (es : List CapacityEvent)
    (d : Dimension) :
    TiedWalk.Follows changed (c.entry d) (changesOf d (e :: es)) ↔
      (applyDelta c e.delta).entry d = (applyDelta (A := .exact) c e.delta).entry d ∧
        TiedWalk.Follows changed ((applyDelta c e.delta).entry d) (changesOf d es) := by
  rw [entry_applyDelta, entry_applyDelta (A := .exact), changesOf, changesOf,
    List.filterMap_cons]
  cases e.delta.changes.find? d with
  | none => exact (and_iff_right rfl).symm
  | some v =>
    refine and_congr_right fun hstep => ?_
    rw [Option.elim_some, hstep]

/-- Every amount is the exact one if in each dimension the changes add up exactly. -/
theorem addsExactly_iff_follows {c : Capacity} {es : List CapacityEvent} :
    AddsExactly c es ↔ ∀ d, TiedWalk.Follows changed (c.entry d) (changesOf d es) := by
  induction es generalizing c with
  | nil => exact iff_of_true trivial fun _ => trivial
  | cons e es ih =>
    simp only [follows_changesOf_cons, forall_and, ← ih]
    refine and_congr_left' ⟨fun h d => ?_, Capacity.ext_entry⟩
    rw [h]

theorem AddsExactly.of_append {c : Capacity} {es fs : List CapacityEvent}
    (h : AddsExactly c (es ++ fs)) : AddsExactly c es ∧ AddsExactly (after c es) fs := by
  induction es generalizing c with
  | nil => exact ⟨trivial, h⟩
  | cons e es ih =>
    obtain ⟨hstep, hrest⟩ := h
    obtain ⟨hes, hfs⟩ := ih hrest
    exact ⟨⟨hstep, hes⟩, hfs⟩

theorem AddsExactly.walkFrom_eq {c : Capacity} {es : List CapacityEvent}
    (h : AddsExactly c es) : walkFrom c es = walkFrom (A := .exact) c es := by
  induction es generalizing c with
  | nil => rfl
  | cons e es ih =>
    obtain ⟨hstep, hrest⟩ := h
    have htail := ih hrest
    rw [hstep] at htail
    unfold walkFrom at htail ⊢
    rw [List.scanl_cons, List.scanl_cons, hstep, htail]

variable {σ : EventSort} {tl : Timeline}

theorem AddsExactly.freeze_eq (h : AddsExactly tl.base (σ.sort tl.events)) :
    tl.freeze σ = tl.freeze (A := .exact) σ := by
  have hprefixes := h.walkFrom_eq
  unfold walkFrom at hprefixes
  unfold freeze
  dsimp only
  rw [hprefixes]

theorem AddsExactly.walk_eq (h : AddsExactly tl.base (σ.sort tl.events)) (start : TimePoint)
    (stop : ℤ) :
    (tl.freeze σ).walk start stop =
      walk (A := .exact) (tl.freeze (A := .exact) σ) start stop := by
  obtain ⟨rest, hevents⟩ := eventsUntil_append_within σ tl start stop
  have hfreeze := h.freeze_eq
  rw [← hevents] at h
  have hwindow := h.of_append.1.of_append.2
  rw [← capacityAt_freeze] at hwindow
  rw [walk, hwindow.walkFrom_eq, hfreeze]
  rfl

theorem AddsExactly.rangeMin_eq (h : AddsExactly tl.base (σ.sort tl.events)) (start : TimePoint)
    (stop : ℤ) :
    (tl.freeze σ).rangeMin start stop =
      rangeMin (A := .exact) (tl.freeze (A := .exact) σ) start stop := by
  refine Capacity.ext_entry fun d => ?_
  rw [entry_rangeMin, h.walk_eq, entry_rangeMin (A := .exact)]

/-- The search reports what the exact search reports. -/
theorem AddsExactly.earliestFit_eq (h : AddsExactly tl.base (σ.sort tl.events))
    (demand : WorkloadDemand) (earliestStart : TimePoint) (duration : DurationNs)
    (horizon : TimePoint) :
    earliestFit (tl.freeze σ) demand earliestStart duration horizon =
      earliestFit (A := .exact) (tl.freeze (A := .exact) σ) demand earliestStart duration
        horizon := by
  have hloop : ∀ checked ts, firstFit (tl.freeze σ) demand duration checked ts =
      firstFit (A := .exact) (tl.freeze (A := .exact) σ) demand duration checked ts := by
    intro checked ts
    induction ts generalizing checked with
    | nil => rfl
    | cons t ts ih =>
      unfold firstFit
      rw [h.rangeMin_eq, ih]
  unfold earliestFit
  rw [hloop]
  rfl

end Timeline

end CapacityFabric
