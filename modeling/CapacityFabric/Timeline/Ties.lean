import CapacityFabric.Foundation.TiedWalk
import CapacityFabric.Query.EarliestFit

/-!
# Events of one instant

A sort leaves the events of one instant in any order, and the walk of a window passes
through the values between them.  Two timelines with the same events project the same
capacity when the ties agree.
-/

namespace CapacityFabric

namespace Timeline

def changeIn (d : Dimension) (e : CapacityEvent) : Option ℚ := e.delta.changes.find? d

theorem ties_eq_nil {d : Dimension} {es : List CapacityEvent} (h : changesOf d es = [])
    (t : TimePoint) : TiedWalk.ties CapacityEvent.time (changeIn d) t es = [] :=
  List.filterMap_eq_nil_iff.mpr fun e he =>
    List.filterMap_eq_nil_iff.mp h e (List.mem_of_mem_filter he)

section Agree

variable [A : Arithmetic] (tl tl' : Timeline)

/-- At every instant the changes of a dimension come in one order, or none of their sums is
rounded and both orders dip equally deep. -/
def TiesAgree : Prop :=
  ∀ d, TiedWalk.TiesAgree CapacityEvent.time (changeIn d) changed Int64.minValue
    (tl.base.entry d) tl.events tl'.events

/-- At every instant the changes of a dimension come in one order, or none of their sums is
rounded. -/
def TiesSameOrExact : Prop :=
  ∀ d, TiedWalk.TiesSameOrExact CapacityEvent.time (changeIn d) changed (tl.base.entry d)
    tl.events tl'.events

end Agree

/-- Two timelines show the same amounts at every instant and report the same earliest
fits. -/
structure SameProjections [A : Arithmetic] (tl tl' : Timeline) : Prop where
  capacity : ∀ t d, (tl.capacityAt t).amount d = (tl'.capacityAt t).amount d
  fit : ∀ demand earliestStart duration horizon,
    (earliestFit tl demand earliestStart duration horizon).found =
        (earliestFit tl' demand earliestStart duration horizon).found ∧
      (earliestFit tl demand earliestStart duration horizon).start =
        (earliestFit tl' demand earliestStart duration horizon).start ∧
      (earliestFit tl demand earliestStart duration horizon).end_ =
        (earliestFit tl' demand earliestStart duration horizon).end_

def demandFor (d : Dimension) (v : ℚ) : WorkloadDemand where
  id := ⟨1⟩
  generation := ⟨1⟩
  requirements := Capacity.setAmount ∅ d v

theorem satisfies_demandFor {c : Capacity} {d : Dimension} {v : ℚ} (hv : 0 ≤ v) :
    c.satisfies (demandFor d v).requirements = true ↔ v ≤ c.amount d :=
  Capacity.satisfies_setAmount hv

theorem toInt_pred {t : TimePoint} (h : Int64.minValue < t) : (t - 1).toInt = t.toInt - 1 := by
  have hone : (1 : Int64).toInt = 1 := rfl
  have hlt := t.toInt_lt
  have hmin := Int64.lt_iff_toInt_lt.mp h
  rw [Int64.toInt_minValue] at hmin
  rw [Int64.toInt_sub, hone, Int.bmod_eq_of_le (by omega) (by omega)]

section Projections

variable [A : Arithmetic]

theorem getD_changed_nonneg (o : Option ℚ) (v : ℚ) (ho : 0 ≤ o.getD 0) :
    0 ≤ (changed o v).getD 0 := by
  rw [getD_changed, changedAmount]
  split_ifs
  · exact le_max_right _ _
  · exact ho

theorem entry_after_eq (c : Capacity) (es : List CapacityEvent) (d : Dimension) :
    (after c es).entry d = TiedWalk.reached (changeIn d) changed (c.entry d) es :=
  entry_after c es d

theorem map_entry_walkFrom (c : Capacity) (es : List CapacityEvent) (d : Dimension)
    (m : Option ℚ) :
    ((walkFrom c es).map fun c => c.entry d).foldl OptionalMin.leftMin m =
      (((es.filterMap (changeIn d)).foldl (OptionalMin.lowStep changed)
        (OptionalMin.leftMin m (c.entry d), c.entry d))).1 := by
  induction es generalizing c m with
  | nil => rfl
  | cons e es ih =>
    rw [walkFrom, List.scanl_cons, List.map_cons, List.foldl_cons]
    refine (ih (applyDelta c e.delta) _).trans ?_
    rw [entry_applyDelta, List.filterMap_cons, changeIn]
    cases e.delta.changes.find? d with
    | none => rw [Option.elim_none, OptionalMin.leftMin_self]
    | some v => rfl

variable (σ : EventSort) (tl : Timeline)

theorem entry_rangeMin_eq_windowLow (start : TimePoint) (stop : ℤ) (d : Dimension) :
    ((tl.freeze σ).rangeMin start stop).entry d =
      TiedWalk.windowLow CapacityEvent.time (changeIn d) changed start (tl.base.entry d)
        (σ.sort tl.events) fun t => t.toInt < stop := by
  have hwithin : (tl.freeze σ).eventsWithin start stop =
      ((σ.sort tl.events).filter fun e => e.time.toInt < stop).filter fun e => start < e.time := by
    rw [List.filter_filter, eventsWithin, events_freeze]
    refine List.filter_congr fun e _ => ?_
    rw [Bool.decide_and]
  rw [entry_rangeMin, walk, OptionalMin.lowest, map_entry_walkFrom, OptionalMin.leftMin_none,
    capacityAt_freeze, entry_after_eq, hwithin]
  rfl

/-- An empty window has the capacity at its start. -/
theorem entry_rangeMin_self (t : TimePoint) (d : Dimension) :
    ((tl.freeze σ).rangeMin t t.toInt).entry d = ((tl.freeze σ).capacityAt t).entry d := by
  have hnone : (tl.freeze σ).eventsWithin t t.toInt = [] := by
    refine List.filter_eq_nil_iff.mpr fun e _ => ?_
    rw [decide_eq_true_eq, not_and, not_lt]
    exact fun h => (Int64.lt_iff_toInt_lt.mp h).le
  rw [entry_rangeMin, walk, hnone]
  cases h : ((tl.freeze σ).capacityAt t).entry d <;> simp [walkFrom, OptionalMin.lowest, h]

/-- A search with one candidate, the instant before `t`, looks at the events of `t`. -/
theorem earliestFit_found_before {t : TimePoint} (h : Int64.minValue < t)
    (demand : WorkloadDemand) :
    (earliestFit tl demand (t - 1) 2 t).found = true ↔
      (tl.rangeMin (t - 1) (t.toInt + 1)).satisfies demand.requirements = true := by
  have hpred := toInt_pred h
  have htwo : (2 : Int64).toInt = 2 := rfl
  have hlt : t - 1 < t := Int64.lt_iff_toInt_lt.mpr (by omega)
  have hcandidates : candidateStarts tl (t - 1) t 2 = [t - 1] := by
    have hnone : (tl.events.filter fun e =>
        t - 1 ≤ e.time ∧ e.time.toInt ≤ t.toInt - (2 : Int64).toInt) = [] := by
      refine List.filter_eq_nil_iff.mpr fun e _ => ?_
      rw [decide_eq_true_eq, not_and]
      intro hle
      have := Int64.le_iff_toInt_le.mp hle
      omega
    rw [candidateStarts, hnone]
    rfl
  have hend : windowEnd (t - 1) 2 = t.toInt + 1 := by
    rw [windowEnd]
    omega
  rw [earliestFit, if_neg (not_or.mpr ⟨by decide, hlt.not_ge⟩), hcandidates, firstFit, hend]
  by_cases hfits : (tl.rangeMin (t - 1) (t.toInt + 1)).satisfies demand.requirements = true
  · simp [hfits]
  · simp [hfits, firstFit]

variable {tl} {tl' : Timeline}

/-- Equal projections have equal minima in the window around one instant. -/
theorem SameProjections.amount_rangeMin (h : SameProjections tl tl') {t : TimePoint}
    (ht : Int64.minValue < t) (d : Dimension) :
    (tl.rangeMin (t - 1) (t.toInt + 1)).amount d =
      (tl'.rangeMin (t - 1) (t.toInt + 1)).amount d := by
  have hiff : ∀ v, 0 ≤ v → (v ≤ (tl.rangeMin (t - 1) (t.toInt + 1)).amount d ↔
      v ≤ (tl'.rangeMin (t - 1) (t.toInt + 1)).amount d) := by
    intro v hv
    have hfound := (h.fit (demandFor d v) (t - 1) 2 t).1
    rw [← satisfies_demandFor hv, ← satisfies_demandFor hv, ← earliestFit_found_before tl ht,
      ← earliestFit_found_before tl' ht, hfound]
  apply le_antisymm
  · exact (hiff _ (Capacity.amount_nonneg _ d)).mp le_rfl
  · exact (hiff _ (Capacity.amount_nonneg _ d)).mpr le_rfl

/-- The search sees no more of a timeline than its event times and its window minima. -/
theorem earliestFit_congr (hperm : tl.events.Perm tl'.events)
    (hmin : ∀ start stop, tl.rangeMin start stop = tl'.rangeMin start stop)
    (demand : WorkloadDemand) (earliestStart : TimePoint) (duration : DurationNs)
    (horizon : TimePoint) :
    earliestFit tl demand earliestStart duration horizon =
      earliestFit tl' demand earliestStart duration horizon := by
  have hcandidates : candidateStarts tl earliestStart horizon duration =
      candidateStarts tl' earliestStart horizon duration := by
    unfold candidateStarts
    dsimp only
    congr 1
    apply List.Perm.eq_of_pairwise (fun _ _ _ _ hab hba => le_antisymm hab hba)
      (List.pairwise_insertionSort _ _) (List.pairwise_insertionSort _ _)
    refine (List.perm_insertionSort _ _).trans
      (List.Perm.trans ?_ (List.perm_insertionSort _ _).symm)
    exact ((hperm.filter _).map _).cons _
  have hloop : ∀ checked ts, firstFit tl demand duration checked ts =
      firstFit tl' demand duration checked ts := by
    intro checked ts
    induction ts generalizing checked with
    | nil => rfl
    | cons t ts ih => rw [firstFit, firstFit, hmin, ih]
  rw [earliestFit, earliestFit, hcandidates, hloop]

/-- The window that begins just before `t` and ends with it consists of the ties at `t`. -/
theorem windowLow_pred {t : TimePoint} (h : Int64.minValue < t) (d : Dimension) (o : Option ℚ)
    (es : List CapacityEvent) :
    TiedWalk.windowLow CapacityEvent.time (changeIn d) changed (t - 1) o es
        (fun s => s.toInt < t.toInt + 1) =
      ((TiedWalk.ties CapacityEvent.time (changeIn d) t es).foldl (OptionalMin.lowStep changed)
        (TiedWalk.reached (changeIn d) changed o (es.filter fun e => e.time < t),
          TiedWalk.reached (changeIn d) changed o (es.filter fun e => e.time < t))).1 := by
  have hpred := toInt_pred h
  have hbefore : (es.filter fun e => e.time ≤ t - 1) = es.filter fun e => e.time < t := by
    refine List.filter_congr fun e _ => ?_
    rw [decide_eq_decide, Int64.le_iff_toInt_le, Int64.lt_iff_toInt_lt]
    omega
  have hat : ((es.filter fun e => e.time.toInt < t.toInt + 1).filter fun e => t - 1 < e.time) =
      es.filter fun e => e.time = t := by
    rw [List.filter_filter]
    refine List.filter_congr fun e _ => ?_
    rw [← Bool.decide_and, decide_eq_decide, ← Int64.toInt_inj, Int64.lt_iff_toInt_lt]
    omega
  rw [TiedWalk.windowLow, TiedWalk.walkAfter, hbefore, hat]
  rfl

/-- Timelines over permuted events project the same if their ties agree. -/
theorem sameProjections_of_tiesAgree (hbase : tl.base = tl'.base)
    (hperm : tl.events.Perm tl'.events)
    (h : TiesAgree (tl.freeze σ) (tl'.freeze σ)) :
    SameProjections (tl.freeze σ) (tl'.freeze σ) := by
  have hsorted : (tl.freeze σ).events.Perm (tl'.freeze σ).events :=
    (σ.perm _).trans (hperm.trans (σ.perm _).symm)
  have hmin : ∀ start stop, (tl.freeze σ).rangeMin start stop =
      (tl'.freeze σ).rangeMin start stop := by
    intro start stop
    refine Capacity.ext_entry fun d => ?_
    rw [entry_rangeMin_eq_windowLow, entry_rangeMin_eq_windowLow, ← hbase]
    exact (h d).windowLow_eq getD_changed_nonneg (tl.base.amount_nonneg d) (σ.sorted _)
      (σ.sorted _) hsorted Int64.minValue_le start _ fun s t hst ht =>
        decide_eq_true ((Int64.le_iff_toInt_le.mp hst).trans_lt (of_decide_eq_true ht))
  refine ⟨fun t d => ?_, fun demand earliestStart duration horizon => ?_⟩
  · rw [Capacity.amount_eq, Capacity.amount_eq, ← entry_rangeMin_self, ← entry_rangeMin_self,
      hmin]
  · rw [earliestFit_congr hsorted hmin]
    exact ⟨rfl, rfl, rfl⟩

/-- Where no sum of ties in different orders is rounded, only then. -/
theorem tiesAgree_of_sameProjections (hbase : tl.base = tl'.base)
    (hperm : tl.events.Perm tl'.events)
    (hexact : TiesSameOrExact (tl.freeze σ) (tl'.freeze σ))
    (h : SameProjections (tl.freeze σ) (tl'.freeze σ)) :
    TiesAgree (tl.freeze σ) (tl'.freeze σ) := by
  have hsorted : (tl.freeze σ).events.Perm (tl'.freeze σ).events :=
    (σ.perm _).trans (hperm.trans (σ.perm _).symm)
  intro d
  refine TiedWalk.tiesAgree_of_eq getD_changed_nonneg (tl.base.amount_nonneg d) (σ.sorted _)
    (σ.sorted _) hsorted (hexact d) (fun t => ?_) fun t ht => ?_
  · have hamount := h.capacity t d
    rwa [capacityAt_freeze, capacityAt_freeze, Capacity.amount_eq, Capacity.amount_eq,
      entry_after_eq, entry_after_eq, ← hbase] at hamount
  · have hafter : Int64.minValue < t := lt_of_le_of_ne (Int64.minValue_le t) (Ne.symm ht)
    have hamount := h.amount_rangeMin hafter d
    rwa [Capacity.amount_eq, Capacity.amount_eq, entry_rangeMin_eq_windowLow,
      entry_rangeMin_eq_windowLow, windowLow_pred hafter, windowLow_pred hafter, ← hbase]
      at hamount

end Projections

end Timeline

end CapacityFabric
