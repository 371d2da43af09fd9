import CapacityFabric.Foundation.BinarySearch
import CapacityFabric.Timeline.Window

/-!
# The indexed lookup

Both binary searches of a frozen timeline, the one over the tabulated times and the one
over the events, divide the events at the same place, and from there the walk over a
window goes on as the walk from the base would.
-/

namespace CapacityFabric

inductive TimelineCall
  | addReservation (r : Reservation)
  | addRelease (e : ReleaseEvent)
  | addMaintenance (m : MaintenanceWindow)

def TimelineCall.apply (tl : Timeline) : TimelineCall → Timeline
  | .addReservation r => tl.addReservation r
  | .addRelease e => tl.addRelease e
  | .addMaintenance m => tl.addMaintenance m

namespace Timeline

def ofCalls (base : Capacity) (calls : List TimelineCall) : Timeline :=
  calls.foldl TimelineCall.apply (ofBase base)

theorem base_ofCalls (base : Capacity) (calls : List TimelineCall) :
    (ofCalls base calls).base = base := by
  have hcalls : ∀ tl : Timeline, (calls.foldl TimelineCall.apply tl).base = tl.base := by
    induction calls with
    | nil => exact fun _ => rfl
    | cons call calls ih =>
      intro tl
      rw [List.foldl_cons, ih]
      cases call <;> rfl
  exact hcalls (ofBase base)

variable (σ : EventSort) (tl : Timeline)

/-- The search over the events ends after those up to `t`. -/
theorem search_events (t : TimePoint) :
    BinarySearch.search (fun i => (tl.freeze σ).events[i]?.any fun e => e.time ≤ t) 0
        (tl.freeze σ).events.length =
      (tl.freeze σ).firstEventIndexAfter t := by
  apply BinarySearch.search_eq_length_takeWhile
  apply (σ.sorted tl.events).imp
  intro a b hab hb
  exact decide_eq_true (hab.trans (of_decide_eq_true hb))

/-- The search over the tabulated times ends one further, for the sentinel. -/
theorem search_times (t : TimePoint) :
    BinarySearch.search (fun i => (tl.freeze σ).times[i]?.any fun s => s ≤ t) 0
        (tl.freeze σ).times.length =
      (tl.freeze σ).firstEventIndexAfter t + 1 := by
  have hsorted : (tl.freeze σ).times.Pairwise (· ≤ ·) := by
    rw [times_freeze, List.pairwise_cons]
    exact ⟨fun s _ => Int64.minValue_le s, (σ.sorted tl.events).map _ fun _ _ h => h⟩
  have hmin : decide (Int64.minValue ≤ t) = true := decide_eq_true (Int64.minValue_le t)
  rw [BinarySearch.search_eq_length_takeWhile, times_freeze,
    List.takeWhile_cons_of_pos (p := fun s => decide (s ≤ t)) hmin, List.takeWhile_map,
    List.length_cons, List.length_map]
  · rfl
  · apply hsorted.imp
    intro a b hab hb
    exact decide_eq_true (hab.trans (of_decide_eq_true hb))

theorem upperBound_lt_length (t : TimePoint) :
    (tl.freeze σ).upperBound t < (tl.freeze σ).prefixes.length := by
  have hle : (tl.freeze σ).firstEventIndexAfter t ≤ (tl.freeze σ).events.length :=
    List.Sublist.length_le (List.takeWhile_sublist _)
  rw [upperBound_freeze, prefixes_freeze, List.length_scanl]
  exact Nat.lt_succ_of_le hle

/-- The events up to `t` are those up to an earlier instant and the rest of them after
the index that the search finds there. -/
theorem eventsUntil_eq_append {s t : TimePoint} (hst : s ≤ t) :
    (tl.freeze σ).eventsUntil t = (tl.freeze σ).eventsUntil s ++
      ((tl.freeze σ).events.drop ((tl.freeze σ).firstEventIndexAfter s)).filter
        fun e => e.time ≤ t := by
  have hsplit := List.take_append_drop ((tl.freeze σ).firstEventIndexAfter s) (tl.freeze σ).events
  have htake := eventsUntil_eq_take σ tl s
  rw [← events_freeze σ tl] at htake
  have hbefore : ((tl.freeze σ).eventsUntil s).filter (fun e => e.time ≤ t) =
      (tl.freeze σ).eventsUntil s := by
    rw [List.filter_eq_self]
    intro e he
    have hes := (List.mem_filter.mp he).2
    exact decide_eq_true ((of_decide_eq_true hes).trans hst)
  rw [← htake] at hsplit
  calc (tl.freeze σ).eventsUntil t
      = ((tl.freeze σ).eventsUntil s ++ (tl.freeze σ).events.drop
          ((tl.freeze σ).firstEventIndexAfter s)).filter fun e => e.time ≤ t := by
        rw [hsplit]
        rfl
    _ = _ := by rw [List.filter_append, hbefore]

theorem capacityAt_append {s t : TimePoint} (hst : s ≤ t) :
    after ((tl.freeze σ).capacityAt s)
        (((tl.freeze σ).events.drop ((tl.freeze σ).firstEventIndexAfter s)).filter
          fun e => e.time ≤ t) =
      (tl.freeze σ).capacityAt t := by
  rw [capacityAt_freeze, capacityAt_freeze, eventsUntil_eq_append σ tl hst, after_append]

/-- What the loop of the window queries comes to when it keeps its current value only. -/
theorem rangeLoop_current (start : TimePoint) (stop : ℤ) (es : List CapacityEvent)
    (best cur : Capacity) (hafter : ∀ e ∈ es, start < e.time) :
    rangeLoop (fun _ cur => cur) start stop es best cur =
      after cur (es.takeWhile fun e => e.time.toInt < stop) := by
  induction es generalizing best cur with
  | nil => rfl
  | cons e es ih =>
    obtain ⟨he, hes⟩ := List.forall_mem_cons.mp hafter
    rw [rangeLoop, if_neg he.not_gt]
    by_cases hstop : stop ≤ e.time.toInt
    · rw [if_pos hstop, List.takeWhile_cons_of_neg (by simpa using hstop)]
      rfl
    · rw [if_neg hstop, List.takeWhile_cons_of_pos (by simpa using hstop), ih _ _ hes]
      rfl

/-- The window queries go on from the lookup at the start of their window to the lookup
at any later instant. -/
theorem rangeFold_current {s t : TimePoint} (hst : s ≤ t) :
    rangeFold (fun _ cur => cur) (tl.freeze σ) s (t.toInt + 1) = (tl.freeze σ).capacityAt t := by
  have hdrop := drop_firstEventIndexAfter σ tl s
  have hafter : ∀ e ∈ (tl.freeze σ).events.filter (fun e => s < e.time), s < e.time :=
    fun e he => of_decide_eq_true (List.mem_filter.mp he).2
  rw [rangeFold, hdrop, rangeLoop_current _ _ _ _ _ hafter, ← eventsWithin_eq_takeWhile,
    ← capacityAt_append σ tl hst, hdrop, List.filter_filter, eventsWithin]
  congr 2
  funext e
  rw [← Bool.decide_and, decide_eq_decide, and_comm, Int.lt_add_one_iff, Int64.le_iff_toInt_le]

/-- The indexed lookup is in range and is the plain walk over the events up to the
instant, and every walk that goes on from an earlier lookup ends in it; both binary
searches find the places that it divides the events at. -/
theorem indexed_lookup (σ : EventSort) (base : Capacity) (calls : List TimelineCall) :
    (∀ t, ((ofCalls base calls).freeze σ).upperBound t <
          ((ofCalls base calls).freeze σ).prefixes.length ∧
        ((ofCalls base calls).freeze σ).capacityAt t =
          after base (((ofCalls base calls).freeze σ).events.filter fun e => e.time ≤ t)) ∧
    (∀ s t, s ≤ t →
        after (((ofCalls base calls).freeze σ).capacityAt s)
            ((((ofCalls base calls).freeze σ).events.drop
              (((ofCalls base calls).freeze σ).firstEventIndexAfter s)).filter
                fun e => e.time ≤ t) =
          ((ofCalls base calls).freeze σ).capacityAt t ∧
        rangeFold (fun _ cur => cur) ((ofCalls base calls).freeze σ) s (t.toInt + 1) =
          ((ofCalls base calls).freeze σ).capacityAt t) ∧
    ∀ t, BinarySearch.search
            (fun i => ((ofCalls base calls).freeze σ).times[i]?.any fun s => s ≤ t) 0
            ((ofCalls base calls).freeze σ).times.length =
          ((ofCalls base calls).freeze σ).upperBound t + 1 ∧
        BinarySearch.search
            (fun i => ((ofCalls base calls).freeze σ).events[i]?.any fun e => e.time ≤ t) 0
            ((ofCalls base calls).freeze σ).events.length =
          ((ofCalls base calls).freeze σ).firstEventIndexAfter t := by
  refine ⟨fun t => ⟨upperBound_lt_length σ _ t, ?_⟩, fun s t hst => ?_, fun t => ?_⟩
  · rw [capacityAt_freeze, base_ofCalls]
    rfl
  · exact ⟨capacityAt_append σ _ hst, rangeFold_current σ _ hst⟩
  · rw [upperBound_freeze]
    exact ⟨search_times σ _ t, search_events σ _ t⟩

end Timeline

end CapacityFabric
