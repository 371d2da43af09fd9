import CapacityFabric.Foundation.OptionalMin
import CapacityFabric.Timeline.Timeline

/-!
# Window minima

What `rangeMin` computes over a window, as the running minimum of the values that
the walk over the window's events passes through.
-/

namespace CapacityFabric

namespace Timeline

/-- The events of the window after its start, in stored order. -/
def eventsWithin (tl : Timeline) (start : TimePoint) (stop : ℤ) : List CapacityEvent :=
  tl.events.filter fun e => start < e.time ∧ e.time.toInt < stop

def walkFrom [A : Arithmetic] (c : Capacity) (es : List CapacityEvent) : List Capacity :=
  es.scanl (fun c e => applyDelta c e.delta) c

/-- The values that the walk over a window passes through.  Between two events of
one instant it passes through a value that no instant has. -/
def walk [A : Arithmetic] (tl : Timeline) (start : TimePoint) (stop : ℤ) : List Capacity :=
  walkFrom (tl.capacityAt start) (tl.eventsWithin start stop)

def Clears [A : Arithmetic] (tl : Timeline) (requirement : Capacity) (start : TimePoint)
    (stop : ℤ) : Prop :=
  ∀ c ∈ tl.walk start stop, c.satisfies requirement = true

/-- In every required dimension the walk stays at the requirement from the first
value that stores the dimension on, and there is such a value. -/
def Recovers [A : Arithmetic] (tl : Timeline) (requirement : Capacity) (start : TimePoint)
    (stop : ℤ) : Prop :=
  ∀ d, 0 < requirement.amount d →
    (tl.walk start stop).dropWhile (fun c => !c.has d) ≠ [] ∧
    ∀ c ∈ (tl.walk start stop).dropWhile (fun c => !c.has d), requirement.amount d ≤ c.amount d

def Feasible (tl : Timeline) (requirement : Capacity) (start : TimePoint) (stop : ℤ) : Prop :=
  ∀ t : TimePoint, start ≤ t → t.toInt < stop → (tl.capacityAt t).satisfies requirement = true

theorem entry_min_eq (a b : Capacity) (d : Dimension) :
    (a.min b).entry d = OptionalMin.leftMin (a.entry d) (b.entry d) :=
  Capacity.entry_min a b d

section Walks

variable [A : Arithmetic]

theorem mem_walkFrom {c x : Capacity} {es : List CapacityEvent} :
    x ∈ walkFrom c es ↔ ∃ p, p <+: es ∧ after c p = x :=
  OptionalMin.mem_scanl_iff

theorem entry_rangeLoop (start : TimePoint) (stop : ℤ) (es : List CapacityEvent)
    (best cur : Capacity) (d : Dimension) (hafter : ∀ e ∈ es, start < e.time) :
    (rangeLoop Capacity.min start stop es best cur).entry d =
      ((walkFrom cur (es.takeWhile fun e => e.time.toInt < stop)).map fun c => c.entry d).foldl
        OptionalMin.leftMin (best.entry d) := by
  induction es generalizing best cur with
  | nil => simp [rangeLoop, walkFrom, entry_min_eq]
  | cons e es ih =>
    obtain ⟨he, hes⟩ := List.forall_mem_cons.mp hafter
    rw [rangeLoop, if_neg he.not_gt]
    by_cases hstop : stop ≤ e.time.toInt
    · rw [if_pos hstop, List.takeWhile_cons_of_neg (by simpa using hstop)]
      simp [walkFrom, entry_min_eq]
    · rw [if_neg hstop, List.takeWhile_cons_of_pos (by simpa using hstop)]
      -- The new value is met twice in a row; the second time changes nothing.
      have htwice : ∀ (b : Option ℚ) (l : List (Option ℚ)) (x : Option ℚ),
          (x :: l).foldl OptionalMin.leftMin (OptionalMin.leftMin b x) =
            (x :: l).foldl OptionalMin.leftMin b := by
        intro b l x
        rw [List.foldl_cons, OptionalMin.leftMin_self, List.foldl_cons]
      have hhead : ∀ (c : Capacity) (l : List CapacityEvent), ∃ l',
          (walkFrom c l).map (fun c => c.entry d) = c.entry d :: l' := by
        intro c l
        cases l <;> simp [walkFrom]
      have hstep : walkFrom cur (e :: es.takeWhile fun e => e.time.toInt < stop) =
          cur :: walkFrom (applyDelta cur e.delta) (es.takeWhile fun e => e.time.toInt < stop) := by
        simp [walkFrom]
      obtain ⟨l', hl'⟩ := hhead (applyDelta cur e.delta) (es.takeWhile fun e => e.time.toInt < stop)
      rw [ih _ _ hes, entry_min_eq, entry_min_eq, hstep, List.map_cons, hl', htwice]
      rfl

variable (σ : EventSort) (tl : Timeline)

theorem drop_firstEventIndexAfter (t : TimePoint) :
    (tl.freeze σ).events.drop ((tl.freeze σ).firstEventIndexAfter t) =
      (tl.freeze σ).events.filter fun e => t < e.time := by
  have hsplit := SortBy.filter_eq_append (σ.sorted tl.events)
    (p := fun e => decide (e.time ≤ t)) (q := fun _ => true)
    (fun a b hab hb => by simpa using hab.trans (by simpa using hb)) (fun _ _ => rfl)
  have huntil := eventsUntil_eq_take σ tl t
  rw [eventsUntil] at huntil
  rw [List.filter_true, ← events_freeze, huntil] at hsplit
  have hdrop := List.append_cancel_left ((List.take_append_drop _ _).trans hsplit)
  rw [hdrop]
  congr 1
  funext e
  rw [Bool.true_and, ← decide_not, decide_eq_decide, not_le]

theorem eventsWithin_eq_takeWhile (start : TimePoint) (stop : ℤ) :
    (tl.freeze σ).eventsWithin start stop =
      ((tl.freeze σ).events.filter fun e => start < e.time).takeWhile
        fun e => e.time.toInt < stop := by
  have hsorted : ((tl.freeze σ).events.filter fun e => start < e.time).Pairwise
      fun a b => a.time ≤ b.time := (σ.sorted tl.events).filter _
  rw [← SortBy.filter_eq_takeWhile hsorted, List.filter_filter]
  · rw [eventsWithin]
    congr 1
    funext e
    simp [and_comm]
  · intro a b hab hb
    simpa using (Int64.le_iff_toInt_le.mp hab).trans_lt (by simpa using hb)

/-- In each dimension the window minimum is the running minimum of the walk. -/
theorem entry_rangeMin (start : TimePoint) (stop : ℤ) (d : Dimension) :
    ((tl.freeze σ).rangeMin start stop).entry d =
      OptionalMin.lowest (((tl.freeze σ).walk start stop).map fun c => c.entry d) := by
  have hafter : ∀ e ∈ (tl.freeze σ).events.filter fun e => start < e.time, start < e.time := by
    intro e he
    simpa using (List.mem_filter.mp he).2
  rw [rangeMin, rangeFold, drop_firstEventIndexAfter, entry_rangeLoop _ _ _ _ _ _ hafter, walk,
    eventsWithin_eq_takeWhile]
  cases (tl.freeze σ).events.filter (fun e => start < e.time) |>.takeWhile
      fun e => e.time.toInt < stop with
  | nil =>
    cases h : ((tl.freeze σ).capacityAt start).entry d <;>
      simp [walkFrom, OptionalMin.lowest, h]
  | cons e es =>
    cases h : ((tl.freeze σ).capacityAt start).entry d <;>
      simp [walkFrom, OptionalMin.lowest, h]

theorem rangeMin_satisfies_iff (requirement : Capacity) (start : TimePoint) (stop : ℤ) :
    ((tl.freeze σ).rangeMin start stop).satisfies requirement = true ↔
      (tl.freeze σ).Recovers requirement start stop := by
  rw [Capacity.satisfies_iff]
  apply forall_congr'
  intro d
  rcases (requirement.amount_nonneg d).eq_or_lt with h0 | hpos
  · simp [← h0, Capacity.amount_nonneg]
  · have hcomp : (Option.isNone ∘ fun c : Capacity => c.entry d) = fun c => !c.has d := by
      funext c
      cases h : c.entry d <;> simp [Capacity.has_eq, h]
    rw [((tl.freeze σ).rangeMin start stop).amount_eq, entry_rangeMin,
      OptionalMin.le_lowest_iff hpos, List.dropWhile_map, hcomp, ne_eq, List.map_eq_nil_iff,
      List.forall_mem_map]
    simp only [hpos, true_imp_iff]
    rfl

theorem eventsUntil_append {s t : TimePoint} (h : s ≤ t) :
    (tl.freeze σ).eventsUntil t = (tl.freeze σ).eventsUntil s ++
      (tl.freeze σ).events.filter fun e => s < e.time ∧ e.time ≤ t := by
  have hsplit := SortBy.filter_eq_append (σ.sorted tl.events)
    (p := fun e => decide (e.time ≤ s)) (q := fun e => decide (e.time ≤ t))
    (fun a b hab hb => by simpa using hab.trans (by simpa using hb))
    (fun a ha => by simpa using (by simpa using ha : a.time ≤ s).trans h)
  rw [eventsUntil, eventsUntil, events_freeze, hsplit]
  congr 2
  funext e
  rw [← decide_not, ← Bool.decide_and, decide_eq_decide, not_le, and_comm]

theorem capacityAt_eq_after {s t : TimePoint} (h : s ≤ t) :
    (tl.freeze σ).capacityAt t = after ((tl.freeze σ).capacityAt s)
      ((tl.freeze σ).events.filter fun e => s < e.time ∧ e.time ≤ t) := by
  rw [capacityAt_freeze, capacityAt_freeze, eventsUntil_append σ tl h, after_append]

theorem capacityAt_mem_walk {start t : TimePoint} {stop : ℤ} (hs : start ≤ t)
    (ht : t.toInt < stop) :
    (tl.freeze σ).capacityAt t ∈ (tl.freeze σ).walk start stop := by
  rw [walk, mem_walkFrom]
  refine ⟨_, ?_, (capacityAt_eq_after σ tl hs).symm⟩
  have hsorted : ((tl.freeze σ).eventsWithin start stop).Pairwise fun a b => a.time ≤ b.time :=
    (σ.sorted tl.events).filter _
  have hfilter : ((tl.freeze σ).events.filter fun e => start < e.time ∧ e.time ≤ t) =
      ((tl.freeze σ).eventsWithin start stop).filter fun e => e.time ≤ t := by
    rw [eventsWithin, List.filter_filter]
    congr 1
    funext e
    rw [← Bool.decide_and, decide_eq_decide]
    constructor
    · rintro ⟨h1, h2⟩
      exact ⟨h2, h1, (Int64.le_iff_toInt_le.mp h2).trans_lt ht⟩
    · rintro ⟨h2, h1, -⟩
      exact ⟨h1, h2⟩
  rw [hfilter]
  exact SortBy.filter_le_prefix hsorted t

theorem Clears.feasible {requirement : Capacity} {start : TimePoint} {stop : ℤ}
    (h : (tl.freeze σ).Clears requirement start stop) :
    (tl.freeze σ).Feasible requirement start stop :=
  fun _ hs ht => h _ (capacityAt_mem_walk σ tl hs ht)

theorem Clears.recovers {requirement : Capacity} {start : TimePoint} {stop : ℤ}
    (h : (tl.freeze σ).Clears requirement start stop) (hstop : start.toInt < stop) :
    (tl.freeze σ).Recovers requirement start stop := by
  have hle : ∀ c ∈ (tl.freeze σ).walk start stop, ∀ d, requirement.amount d ≤ c.amount d :=
    fun c hc => Capacity.satisfies_iff.mp (h c hc)
  have hmem := capacityAt_mem_walk σ tl le_rfl hstop
  intro d hpos
  have hhas : ∀ c ∈ (tl.freeze σ).walk start stop, c.has d = true := fun c hc =>
    Capacity.has_of_amount_pos (hpos.trans_le (hle c hc d))
  have hall : (tl.freeze σ).walk start stop =
      ((tl.freeze σ).walk start stop).dropWhile fun c => !c.has d := by
    symm
    rw [List.dropWhile_eq_self_iff]
    intro hl
    simp [hhas _ (List.getElem_mem hl)]
  rw [← hall]
  exact ⟨List.ne_nil_of_mem hmem, fun c hc => hle c hc d⟩

/-- A walk that recovers ends at an instant that meets the requirement. -/
theorem Recovers.exists_satisfies {requirement : Capacity} {start : TimePoint} {stop : ℤ}
    (h : (tl.freeze σ).Recovers requirement start stop) :
    ∃ t, start ≤ t ∧ ((tl.freeze σ).capacityAt t).satisfies requirement = true := by
  let last := after ((tl.freeze σ).capacityAt start) ((tl.freeze σ).eventsWithin start stop)
  have hlast : last.satisfies requirement = true := by
    rw [Capacity.satisfies_iff]
    intro d
    rcases (requirement.amount_nonneg d).eq_or_lt with h0 | hpos
    · exact h0 ▸ last.amount_nonneg d
    · obtain ⟨hne, hall⟩ := h d hpos
      have hsuffix := List.dropWhile_suffix (fun c : Capacity => !c.has d)
        (l := (tl.freeze σ).walk start stop)
      have hend : ((tl.freeze σ).walk start stop).getLast (hsuffix.ne_nil hne) = last :=
        List.getLast_scanl _
      rw [← hend, ← hsuffix.getLast hne]
      exact hall _ (List.getLast_mem hne)
  -- The last event of the window, or its start, is such an instant.
  rcases List.eq_nil_or_concat' ((tl.freeze σ).eventsWithin start stop) with hnil | ⟨es, e, hes⟩
  · have heq : last = (tl.freeze σ).capacityAt start := by
      simp only [last, hnil]
      rfl
    exact ⟨start, le_rfl, heq ▸ hlast⟩
  · have hmem : e ∈ (tl.freeze σ).eventsWithin start stop :=
      hes ▸ List.mem_append_right es (List.mem_singleton_self e)
    obtain ⟨hafter, hstop⟩ := of_decide_eq_true (List.mem_filter.mp hmem).2
    refine ⟨e.time, hafter.le, ?_⟩
    have hsorted : ((tl.freeze σ).eventsWithin start stop).Pairwise fun a b => a.time ≤ b.time :=
      (σ.sorted tl.events).filter _
    have hwithin : ((tl.freeze σ).events.filter fun a => start < a.time ∧ a.time ≤ e.time) =
        (tl.freeze σ).eventsWithin start stop := by
      apply List.filter_congr
      intro a ha
      rw [decide_eq_decide]
      constructor
      · intro hle
        exact ⟨hle.1, (Int64.le_iff_toInt_le.mp hle.2).trans_lt hstop⟩
      · intro hlt
        have ha' : a ∈ es ++ [e] := hes ▸ List.mem_filter.mpr ⟨ha, decide_eq_true hlt⟩
        rw [hes] at hsorted
        rcases List.mem_append.mp ha' with hin | hin
        · exact ⟨hlt.1, (List.pairwise_append.mp hsorted).2.2 a hin e (List.mem_singleton_self e)⟩
        · exact ⟨hlt.1, (congrArg CapacityEvent.time (List.mem_singleton.mp hin)).le⟩
    rw [capacityAt_eq_after σ tl hafter.le, hwithin]
    exact hlast

/-- A walk that recovers and starts at the requirement never leaves it. -/
theorem Recovers.clears {requirement : Capacity} {start : TimePoint} {stop : ℤ}
    (h : (tl.freeze σ).Recovers requirement start stop)
    (hstart : ((tl.freeze σ).capacityAt start).satisfies requirement = true) :
    (tl.freeze σ).Clears requirement start stop := by
  intro c hc
  rw [Capacity.satisfies_iff] at hstart ⊢
  intro d
  rcases (requirement.amount_nonneg d).eq_or_lt with h0 | hpos
  · exact h0 ▸ c.amount_nonneg d
  · have hhas := Capacity.has_of_amount_pos (hpos.trans_le (hstart d))
    obtain ⟨rest, hwalk⟩ : ∃ rest, (tl.freeze σ).walk start stop =
        (tl.freeze σ).capacityAt start :: rest := by
      unfold walk walkFrom
      cases (tl.freeze σ).eventsWithin start stop <;> simp
    have hall := (h d hpos).2
    rw [hwalk] at hall hc
    rw [List.dropWhile_cons_of_neg (by simp [hhas])] at hall
    exact hall c hc

end Walks

end Timeline

end CapacityFabric
