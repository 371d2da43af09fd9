import CapacityFabric.Timeline.Timeline

/-!
# Query modes and forecast timelines
-/

namespace CapacityFabric

inductive QueryMode
  | guaranteed
  | conservative
  | expected
  | optimistic
  | whatIf
  | synthetic
  | unnamed (offset : Fin 250)
  deriving DecidableEq, Inhabited

namespace QueryMode

def code : QueryMode → UInt8
  | guaranteed => 0
  | conservative => 1
  | expected => 2
  | optimistic => 3
  | whatIf => 4
  | synthetic => 5
  | unnamed offset => UInt8.ofNat (offset.val + 6)

def ofCode (c : UInt8) : QueryMode :=
  match c.toNat with
  | 0 => guaranteed
  | 1 => conservative
  | 2 => expected
  | 3 => optimistic
  | 4 => whatIf
  | 5 => synthetic
  | n + 6 => unnamed (Fin.ofNat 250 n)

end QueryMode

/-- The bound of a release that the mode credits it at. -/
def releaseTime (e : ReleaseEvent) : QueryMode → TimePoint
  | .optimistic => e.earliest
  | .guaranteed | .conservative => e.latest
  | _ => e.time

/-- The timeline of a mode before it is frozen: the reservations the mode includes,
then the releases at the bound it credits. -/
def draftTimeline (base : Capacity) (reservations : List Reservation)
    (releases : List ReleaseEvent) (mode : QueryMode) : Timeline :=
  let withReservations := reservations.foldl (fun tl r =>
    -- Only the guaranteed mode leaves the soft holds out.
    if r.strength = .hard ∨ mode ≠ .guaranteed then
      if r.hold.isEmpty then tl else tl.addReservation r
    else tl) (Timeline.ofBase base)
  releases.foldl (fun tl e => tl.addRelease { e with time := releaseTime e mode })
    withReservations

def buildTimeline [A : Arithmetic] (σ : EventSort) (base : Capacity)
    (reservations : List Reservation)
    (releases : List ReleaseEvent) (mode : QueryMode) : Timeline :=
  (draftTimeline base reservations releases mode).freeze σ

def includes (mode : QueryMode) (r : Reservation) : Bool :=
  r.strength = .hard ∨ mode ≠ .guaranteed

theorem includes_hardHold (mode : QueryMode) (id : UInt64) (interval : Interval) (units : ℚ) :
    includes mode (hardHold id interval units) = true := by
  simp [includes, hardHold, Reference.makeReservation]

def reservationEvents (mode : QueryMode) (r : Reservation) : List CapacityEvent :=
  if includes mode r = true ∧ r.hold.isEmpty = false then
    [⟨r.interval.start, r.hold.negate⟩, ⟨r.interval.end_, r.hold⟩]
  else []

def releaseEvent (mode : QueryMode) (e : ReleaseEvent) : CapacityEvent :=
  ⟨releaseTime e mode, e.release⟩

theorem foldl_appends {α : Type*} {body : Timeline → α → Timeline} {f : α → List CapacityEvent}
    (hbody : ∀ tl a, body tl a = { tl with events := tl.events ++ f a }) (l : List α)
    (tl : Timeline) : l.foldl body tl = { tl with events := tl.events ++ l.flatMap f } := by
  induction l generalizing tl with
  | nil => simp
  | cons a l ih => rw [List.foldl_cons, ih, hbody, List.flatMap_cons, List.append_assoc]

theorem draftTimeline_eq (base : Capacity) (reservations : List Reservation)
    (releases : List ReleaseEvent) (mode : QueryMode) :
    draftTimeline base reservations releases mode =
      { Timeline.ofBase base with
        events := reservations.flatMap (reservationEvents mode) ++
          releases.map (releaseEvent mode) } := by
  rw [draftTimeline, foldl_appends (f := reservationEvents mode),
    foldl_appends (f := fun e => [releaseEvent mode e])]
  · simp [Timeline.ofBase, List.map_eq_flatMap]
  · exact fun _ _ => rfl
  · intro tl r
    unfold reservationEvents
    by_cases hi : r.strength = .hard ∨ mode ≠ .guaranteed
    · cases he : r.hold.isEmpty <;>
        simp [includes, hi, Timeline.addReservation, Timeline.addEvent]
    · simp [includes, hi]

@[simp] theorem base_draftTimeline (base : Capacity) (reservations : List Reservation)
    (releases : List ReleaseEvent) (mode : QueryMode) :
    (draftTimeline base reservations releases mode).base = base := by
  rw [draftTimeline_eq]
  rfl

/-- A dimension that no reservation and no release stores is not changed. -/
theorem changesOf_buildTimeline [A : Arithmetic] (σ : EventSort) (base : Capacity)
    {reservations : List Reservation} {releases : List ReleaseEvent} (mode : QueryMode)
    {d : Dimension} (hholds : ∀ r ∈ reservations, r.hold.changes.find? d = none)
    (hreleases : ∀ e ∈ releases, e.release.changes.find? d = none) :
    Timeline.changesOf d (buildTimeline σ base reservations releases mode).events = [] := by
  refine List.filterMap_eq_nil_iff.mpr fun e he => ?_
  rw [buildTimeline, Timeline.events_freeze, (σ.perm _).mem_iff, draftTimeline_eq,
    List.mem_append, List.mem_flatMap, List.mem_map] at he
  rcases he with ⟨r, hr, he⟩ | ⟨rel, hrel, rfl⟩
  · rw [reservationEvents] at he
    split_ifs at he
    · rcases List.mem_pair.mp he with rfl | rfl
      · rw [CapacityDelta.find?_negate, hholds r hr, Option.map_none]
      · exact hholds r hr
    · exact absurd he List.not_mem_nil
  · exact hreleases rel hrel

/-- What a draft adds up to, for any weight of its events that ignores empty changes. -/
theorem sum_draft_events (base : Capacity) (reservations : List Reservation)
    (releases : List ReleaseEvent) (mode : QueryMode) (d : Dimension)
    (g : TimePoint → ℚ → ℚ) (hg : ∀ t, g t 0 = 0) :
    ((draftTimeline base reservations releases mode).events.map
        fun e => g e.time (e.delta.at_ d)).sum =
      (reservations.map fun r => if includes mode r = true then
        g r.interval.start (-r.hold.at_ d) + g r.interval.end_ (r.hold.at_ d) else 0).sum +
      (releases.map fun e => g (releaseTime e mode) (e.release.at_ d)).sum := by
  rw [draftTimeline_eq, List.map_append, List.sum_append, List.map_map]
  congr 1
  induction reservations with
  | nil => rfl
  | cons r rs ih =>
    rw [List.flatMap_cons, List.map_append, List.sum_append, ih, List.map_cons, List.sum_cons]
    congr 1
    unfold reservationEvents
    by_cases hi : includes mode r = true
    · cases he : r.hold.isEmpty with
      | false => simp [hi, CapacityDelta.at_negate]
      | true => simp [hi, CapacityDelta.at_of_isEmpty he, hg]
    · simp [hi]

end CapacityFabric
