import CapacityFabric.Foundation.ClampedSum
import CapacityFabric.Foundation.TieOrder
import CapacityFabric.Core.Identities
import CapacityFabric.Capacity.Capacity

/-!
# The capacity timeline

Signed capacity changes at instants, sorted and folded into the capacity curve.
`std::sort` promises nothing about events of equal time, so `freeze` takes the
sort as a parameter.
-/

namespace CapacityFabric

/-- A signed change to some dimensions. -/
structure CapacityDelta where
  changes : OrderedMap Dimension ℚ

namespace CapacityDelta

instance : EmptyCollection CapacityDelta := ⟨⟨∅⟩⟩
instance : Inhabited CapacityDelta := ⟨∅⟩

def isEmpty (δ : CapacityDelta) : Bool := δ.changes.entries.isEmpty

def at_ (δ : CapacityDelta) (d : Dimension) : ℚ := amountIn δ.changes d

def change [A : Arithmetic] (δ : CapacityDelta) (d : Dimension) (v : ℚ) : CapacityDelta :=
  ⟨δ.changes.insert d (Arithmetic.round (δ.at_ d + v))⟩

def negate (δ : CapacityDelta) : CapacityDelta :=
  ⟨δ.changes.entries.foldl (fun out p => out.insert p.1 (-p.2)) ∅⟩

def Nonneg (δ : CapacityDelta) : Prop := ∀ d, 0 ≤ δ.at_ d

end CapacityDelta

/-- Applies a signed change, clamping the resulting amounts at zero. -/
def applyDelta [A : Arithmetic] (c : Capacity) (δ : CapacityDelta) : Capacity :=
  δ.changes.entries.foldl (fun c p =>
    let next := Arithmetic.round (c.amount p.1 + p.2)
    -- An amount that is not finite is rejected.
    if Arithmetic.finite next then c.setAmount p.1 (if next < 0 then 0 else next) else c) c

inductive ReservationStrength
  | hard
  | soft
  | unnamed (offset : Fin 254)
  deriving DecidableEq, Inhabited

/-- A committed reservation, holding `hold` during its interval. -/
structure Reservation where
  id : ReservationId
  generation : ReservationGeneration
  interval : Interval
  hold : CapacityDelta
  strength : ReservationStrength
  deriving Inhabited

/-- A forecast return of capacity, with its expected instant and both bounds. -/
structure ReleaseEvent where
  sourceId : ForecastSourceId
  time : TimePoint
  earliest : TimePoint
  latest : TimePoint
  release : CapacityDelta
  confidence : Confidence
  deriving Inhabited

namespace Reference

/-- The reference builder of a reservation, which holds accelerators. -/
def makeReservation (id : ReservationId) (generation : ReservationGeneration)
    (interval : Interval) (holdUnits : ℚ) (strength : ReservationStrength) : Reservation :=
  { id, generation, interval, strength, hold := CapacityDelta.change ∅ .acceleratorCount holdUnits }

/-- The reference builder of a release, which returns accelerators. -/
def makeRelease (sourceId : ForecastSourceId) (expected earliest latest : TimePoint) (units : ℚ)
    (confidence : Confidence) : ReleaseEvent :=
  { sourceId, time := expected, earliest, latest, confidence
    release := CapacityDelta.change ∅ .acceleratorCount units }

end Reference

structure MaintenanceWindow where
  interval : Interval
  unavailable : CapacityDelta

structure CapacityEvent where
  time : TimePoint
  delta : CapacityDelta

/-- The order in which `std::sort` leaves the events of a timeline. -/
abbrev EventSort := SortBy CapacityEvent.time

structure Timeline where
  base : Capacity
  events : List CapacityEvent
  times : List TimePoint
  prefixes : List Capacity

namespace Timeline

def ofBase (base : Capacity) : Timeline := ⟨base, [], [], []⟩

def addEvent (tl : Timeline) (e : CapacityEvent) : Timeline :=
  { tl with events := tl.events ++ [e] }

/-- Subtracts the hold at the start of the reservation and returns it at its end. -/
def addReservation (tl : Timeline) (r : Reservation) : Timeline :=
  (tl.addEvent ⟨r.interval.start, r.hold.negate⟩).addEvent ⟨r.interval.end_, r.hold⟩

def addRelease (tl : Timeline) (e : ReleaseEvent) : Timeline := tl.addEvent ⟨e.time, e.release⟩

def addMaintenance (tl : Timeline) (m : MaintenanceWindow) : Timeline :=
  (tl.addEvent ⟨m.interval.start, m.unavailable.negate⟩).addEvent
    ⟨m.interval.end_, m.unavailable⟩

/-- Sorts the events and tabulates the capacity after each, under a sentinel
time that precedes them all. -/
def freeze [A : Arithmetic] (σ : EventSort) (tl : Timeline) : Timeline :=
  let events := σ.sort tl.events
  { base := tl.base
    events
    times := Int64.minValue :: events.map CapacityEvent.time
    prefixes := events.scanl (fun running e => applyDelta running e.delta) tl.base }

/-- The index of the last tabulated time up to `t`: one less than
`std::upper_bound` of the sorted times. -/
def upperBound (tl : Timeline) (t : TimePoint) : ℕ :=
  (tl.times.takeWhile (· ≤ t)).length - 1

/-- `std::upper_bound` of the sorted events. -/
def firstEventIndexAfter (tl : Timeline) (t : TimePoint) : ℕ :=
  (tl.events.takeWhile fun e => e.time ≤ t).length

/-- The capacity at `t`, with the events at `t` applied. -/
def capacityAt (tl : Timeline) (t : TimePoint) : Capacity := tl.prefixes.getD (tl.upperBound t) ∅

/-- The loop of `rangeMin` and `rangeMax`, which keep the best of the values on both
sides of each event of the window.  The window ends at the integer `stop`. -/
def rangeLoop [A : Arithmetic] (pick : Capacity → Capacity → Capacity) (start : TimePoint)
    (stop : ℤ) : List CapacityEvent → Capacity → Capacity → Capacity
  | [], best, cur => pick best cur
  | e :: es, best, cur =>
    if e.time < start then rangeLoop pick start stop es best cur
    -- The window is half-open: an event at its end is outside.
    else if stop ≤ e.time.toInt then pick best cur
    else
      let cur' := applyDelta cur e.delta
      rangeLoop pick start stop es (pick (pick best cur) cur') cur'

def rangeFold [A : Arithmetic] (pick : Capacity → Capacity → Capacity) (tl : Timeline)
    (start : TimePoint) (stop : ℤ) : Capacity :=
  rangeLoop pick start stop (tl.events.drop (tl.firstEventIndexAfter start))
    (tl.capacityAt start) (tl.capacityAt start)

def rangeMin [A : Arithmetic] (tl : Timeline) (start : TimePoint) (stop : ℤ) : Capacity :=
  tl.rangeFold Capacity.min start stop

def rangeMax [A : Arithmetic] (tl : Timeline) (start : TimePoint) (stop : ℤ) : Capacity :=
  tl.rangeFold Capacity.maxCap start stop

end Timeline

theorem CapacityDelta.find?_negate (δ : CapacityDelta) (d : Dimension) :
    δ.negate.changes.find? d = (δ.changes.find? d).map fun v => -v := by
  have h := OrderedMap.foldl_pointwise (fun s k => OrderedMap.find? s k)
    (fun out k v => out.insert k (-v)) (fun _ v _ => some (-v))
    (fun s k v k' => OrderedMap.find?_insert s k k' _) δ.changes ∅ d
  rw [negate, h]
  cases δ.changes.find? d <;> rfl

theorem CapacityDelta.at_negate (δ : CapacityDelta) (d : Dimension) :
    δ.negate.at_ d = -δ.at_ d := by
  unfold CapacityDelta.at_ amountIn
  rw [find?_negate]
  cases δ.changes.find? d <;> simp

theorem CapacityDelta.at_of_isEmpty {δ : CapacityDelta} (h : δ.isEmpty = true) (d : Dimension) :
    δ.at_ d = 0 := by
  have he : δ.changes.entries = [] := List.isEmpty_iff.mp h
  rw [CapacityDelta.at_, amountIn, OrderedMap.find?, he]
  rfl

theorem CapacityDelta.at_change (δ : CapacityDelta) (d d' : Dimension) (v : ℚ) :
    (δ.change d v).at_ d' = if d' = d then δ.at_ d + v else δ.at_ d' := by
  rw [change, CapacityDelta.at_, amountIn, OrderedMap.find?_insert]
  split_ifs <;> rfl

/-- What becomes of an amount, stored or not, by a change. -/
def changed [A : Arithmetic] (o : Option ℚ) (v : ℚ) : Option ℚ :=
  if Arithmetic.finite (Arithmetic.round (o.getD 0 + v)) then
    if max (Arithmetic.round (o.getD 0 + v)) 0 = 0 then none
    else some (max (Arithmetic.round (o.getD 0 + v)) 0)
  else o

theorem entry_applyDelta [A : Arithmetic] (c : Capacity) (δ : CapacityDelta) (d : Dimension) :
    (applyDelta c δ).entry d = (δ.changes.find? d).elim (c.entry d) (changed (c.entry d)) := by
  refine OrderedMap.foldl_pointwise Capacity.entry
    (fun c k v =>
      if Arithmetic.finite (Arithmetic.round (c.amount k + v)) = true then
        c.setAmount k
          (if Arithmetic.round (c.amount k + v) < 0 then 0 else Arithmetic.round (c.amount k + v))
      else c)
    (fun _ v o => changed o v) ?_ δ.changes c d
  intro c k v k'
  have hmax : ∀ x : ℚ, (if x < 0 then 0 else x) = max x 0 := fun x => by
    rw [max_comm, max_def_lt]
    split_ifs with h1 h2 h2
    · exact absurd h1 h2.not_gt
    · rfl
    · rfl
    · exact le_antisymm (not_lt.mp h2) (not_lt.mp h1)
  rw [hmax, changed, ← Capacity.amount_eq]
  by_cases hfinite : Arithmetic.finite (Arithmetic.round (c.amount k + v)) = true
  · rw [if_pos hfinite, if_pos hfinite, Capacity.entry_setAmount (le_max_right _ _)]
  · rw [if_neg hfinite, if_neg hfinite]
    split_ifs with hk
    · rw [hk]
    · rfl

/-- What becomes of the amount by a change; a sum that is not finite is rejected. -/
def changedAmount [A : Arithmetic] (x v : ℚ) : ℚ :=
  if Arithmetic.finite (Arithmetic.round (x + v)) then max (Arithmetic.round (x + v)) 0 else x

theorem getD_changed [A : Arithmetic] (o : Option ℚ) (v : ℚ) :
    (changed o v).getD 0 = changedAmount (o.getD 0) v := by
  unfold changed changedAmount
  split_ifs with hfinite hzero
  · exact hzero.symm
  · rfl
  · rfl

theorem changed_exact (o : Option ℚ) (v : ℚ) :
    changed o v = if max (o.getD 0 + v) 0 = 0 then none else some (max (o.getD 0 + v) 0) := rfl

@[simp] theorem amount_applyDelta (c : Capacity) (δ : CapacityDelta) (d : Dimension) :
    (applyDelta c δ).amount d = max (c.amount d + δ.at_ d) 0 := by
  rw [Capacity.amount_eq, entry_applyDelta, CapacityDelta.at_, amountIn]
  cases δ.changes.find? d with
  | none =>
    rw [Option.getD_none, add_zero, max_eq_left (c.amount_nonneg d)]
    rfl
  | some v =>
    rw [Option.elim_some, changed_exact, Option.getD_some, ← Capacity.amount_eq]
    split_ifs with h
    · exact h.symm
    · rfl

def acceleratorBase (n : DeviceCount) : Capacity := Capacity.setAccelerators ∅ n

def firstTen : Interval := ⟨0, 10, Or.inr (by decide)⟩

def fiveToTen : Interval := ⟨5, 10, Or.inr (by decide)⟩

def nextTen : Interval := ⟨10, 20, Or.inr (by decide)⟩

def hardHold (id : UInt64) (interval : Interval) (units : ℚ) : Reservation :=
  Reference.makeReservation ⟨id⟩ ⟨1⟩ interval units .hard

theorem amount_acceleratorBase (n : DeviceCount) (d : Dimension) :
    (acceleratorBase n).amount d = if d = .acceleratorCount then (n.toNat : ℚ) else 0 :=
  Capacity.amount_setAccelerators ∅ n d

@[simp] theorem interval_hardHold (id : UInt64) (interval : Interval) (units : ℚ) :
    (hardHold id interval units).interval = interval := rfl

theorem at_hardHold (id : UInt64) (interval : Interval) (units : ℚ) (d : Dimension) :
    (hardHold id interval units).hold.at_ d = if d = .acceleratorCount then units else 0 := by
  change (CapacityDelta.change ∅ .acceleratorCount units).at_ d = _
  rw [CapacityDelta.at_change]
  split_ifs
  · exact zero_add units
  · rfl

theorem find?_hardHold (id : UInt64) (interval : Interval) (units : ℚ) (d : Dimension) :
    (hardHold id interval units).hold.changes.find? d =
      if d = .acceleratorCount then some units else none := by
  change (CapacityDelta.change ∅ .acceleratorCount units).changes.find? d = _
  rw [CapacityDelta.change, OrderedMap.find?_insert]
  split_ifs
  · exact congrArg some (zero_add units)
  · rfl

theorem hardHold_nonneg (id : UInt64) (interval : Interval) {units : ℚ} (h : 0 ≤ units) :
    (hardHold id interval units).hold.Nonneg := by
  intro d
  rw [at_hardHold]
  split_ifs
  · exact h
  · exact le_rfl

namespace Timeline

def eventsUntil (tl : Timeline) (t : TimePoint) : List CapacityEvent :=
  tl.events.filter fun e => e.time ≤ t

def after [A : Arithmetic] (c : Capacity) (es : List CapacityEvent) : Capacity :=
  es.foldl (fun c e => applyDelta c e.delta) c

theorem after_append [A : Arithmetic] (c : Capacity) (es fs : List CapacityEvent) :
    after c (es ++ fs) = after (after c es) fs :=
  List.foldl_append

/-- The changes of one dimension that the events make, in their order. -/
def changesOf (d : Dimension) (es : List CapacityEvent) : List ℚ :=
  es.filterMap fun e => e.delta.changes.find? d

theorem sum_changesOf (d : Dimension) (es : List CapacityEvent) :
    (changesOf d es).sum = (es.map fun e => e.delta.at_ d).sum := by
  induction es with
  | nil => rfl
  | cons e es ih =>
    rw [changesOf, List.filterMap_cons, List.map_cons, List.sum_cons, ← ih, CapacityDelta.at_,
      amountIn]
    cases e.delta.changes.find? d with
    | none => simp [changesOf]
    | some v => simp [changesOf]

theorem changesOf_prefix (d : Dimension) {p es : List CapacityEvent} (h : p <+: es) :
    changesOf d p <+: changesOf d es := by
  obtain ⟨s, rfl⟩ := h
  exact ⟨changesOf d s, (List.filterMap_append ..).symm⟩

theorem entry_after [A : Arithmetic] (c : Capacity) (es : List CapacityEvent) (d : Dimension) :
    (after c es).entry d = (changesOf d es).foldl changed (c.entry d) := by
  induction es generalizing c with
  | nil => rfl
  | cons e es ih =>
    show (after (applyDelta c e.delta) es).entry d = _
    rw [ih, entry_applyDelta, changesOf, changesOf, List.filterMap_cons]
    cases e.delta.changes.find? d <;> rfl

theorem amount_after_eq [A : Arithmetic] (c : Capacity) (es : List CapacityEvent)
    (d : Dimension) :
    (after c es).amount d = (changesOf d es).foldl changedAmount (c.amount d) := by
  rw [Capacity.amount_eq, entry_after, Capacity.amount_eq]
  generalize c.entry d = o
  induction changesOf d es generalizing o with
  | nil => rfl
  | cons v l ih => rw [List.foldl_cons, List.foldl_cons, ih, getD_changed]

theorem amount_after (c : Capacity) (es : List CapacityEvent) (d : Dimension) :
    (after c es).amount d =
      ClampedSum.clampedSum (c.amount d) (es.map fun e => e.delta.at_ d) := by
  induction es generalizing c with
  | nil => rfl
  | cons e es ih =>
    change (after (applyDelta c e.delta) es).amount d = _
    rw [ih, amount_applyDelta]
    rfl

section Frozen

variable [A : Arithmetic] (σ : EventSort) (tl : Timeline)

@[simp] theorem events_freeze : (tl.freeze σ).events = σ.sort tl.events := rfl

@[simp] theorem base_freeze : (tl.freeze σ).base = tl.base := rfl

theorem times_freeze :
    (tl.freeze σ).times = Int64.minValue :: (σ.sort tl.events).map CapacityEvent.time := rfl

theorem prefixes_freeze : (tl.freeze σ).prefixes =
    (σ.sort tl.events).scanl (fun running e => applyDelta running e.delta) tl.base := rfl

theorem eventsUntil_eq_take (t : TimePoint) :
    (tl.freeze σ).eventsUntil t =
      (σ.sort tl.events).take ((tl.freeze σ).firstEventIndexAfter t) := by
  have hfilter := SortBy.filter_eq_takeWhile (σ.sorted tl.events)
    (p := fun e => decide (e.time ≤ t)) fun a b hab hb => by
      simpa using hab.trans (by simpa using hb)
  rw [eventsUntil, events_freeze, hfilter, firstEventIndexAfter, events_freeze]
  exact (List.prefix_iff_eq_take.mp (List.takeWhile_prefix _))

theorem upperBound_freeze (t : TimePoint) :
    (tl.freeze σ).upperBound t = (tl.freeze σ).firstEventIndexAfter t := by
  have hmin : decide (Int64.minValue ≤ t) = true := decide_eq_true (Int64.minValue_le t)
  rw [upperBound, times_freeze, List.takeWhile_cons_of_pos (p := fun s => decide (s ≤ t)) hmin,
    List.takeWhile_map, List.length_cons, List.length_map, Nat.add_sub_cancel]
  rfl

/-- The indexed lookup is the plain walk over the events up to `t`. -/
theorem capacityAt_freeze (t : TimePoint) :
    (tl.freeze σ).capacityAt t = after tl.base ((tl.freeze σ).eventsUntil t) := by
  have hle : (tl.freeze σ).firstEventIndexAfter t ≤ (σ.sort tl.events).length :=
    List.Sublist.length_le (List.takeWhile_sublist _)
  rw [capacityAt, upperBound_freeze, eventsUntil_eq_take, prefixes_freeze,
    List.getD_eq_getElem?_getD, List.getElem?_scanl, if_pos hle]
  rfl

end Frozen

variable (σ : EventSort) (tl : Timeline)

theorem amount_capacityAt_freeze (t : TimePoint) (d : Dimension) :
    ((tl.freeze σ).capacityAt t).amount d =
      ClampedSum.clampedSum (tl.base.amount d)
        (((tl.freeze σ).eventsUntil t).map fun e => e.delta.at_ d) := by
  rw [capacityAt_freeze, amount_after]

theorem eventsUntil_maxValue : tl.eventsUntil Int64.maxValue = tl.events := by
  simp [eventsUntil]

/-- What is forgiven up to some instant is at most what is forgiven in the end. -/
theorem overdraft_eventsUntil_le {x : ℚ} (hx : 0 ≤ x) (t : TimePoint) (d : Dimension) :
    ClampedSum.overdraft x (((tl.freeze σ).eventsUntil t).map fun e => e.delta.at_ d) ≤
      ClampedSum.overdraft x ((tl.freeze σ).events.map fun e => e.delta.at_ d) :=
  ClampedSum.overdraft_prefix_le hx ((SortBy.filter_le_prefix (σ.sorted _) t).map _)

end Timeline

end CapacityFabric
