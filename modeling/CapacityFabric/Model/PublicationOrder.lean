import CapacityFabric.Foundation.Commutation
import CapacityFabric.Foundation.KeyedList
import CapacityFabric.Model.FutureFit
import CapacityFabric.Timeline.Ties

/-!
# The order of publications

Publications of different reservations and of releases from different sources leave the
same reservations and releases in whatever order they come, but not in the same order.
-/

namespace CapacityFabric

inductive Publication
  | reservation (res : Reservation)
  | release (rel : ReleaseEvent)

namespace Publication

def op : Publication → ModelOp
  | reservation res => .publishReservation res
  | release rel => .publishRelease rel

/-- The reservations have different ids, and the releases different sources. -/
def Apart : Publication → Publication → Prop
  | reservation res, reservation res' => res.id ≠ res'.id
  | release rel, release rel' => rel.sourceId ≠ rel'.sourceId
  | _, _ => True

theorem Apart.symm {p q : Publication} (h : p.Apart q) : q.Apart p := by
  cases p <;> cases q
  · exact Ne.symm h
  · trivial
  · trivial
  · exact Ne.symm h

end Publication

theorem GenerationTracker.advance_comm {idTag : IdTag} {genTag : GenerationTag}
    (t : GenerationTracker idTag genTag) {id id' : StrongId idTag} (hne : id ≠ id')
    (next next' : Generation genTag) (hid : t.isStale id next = false)
    (hid' : t.isStale id' next' = false) :
    ((t.advance id next).1.advance id' next').1 = ((t.advance id' next').1.advance id next).1 := by
  have hother : (t.advance id next).1.isStale id' next' = false := by
    rw [← hid']
    apply isStale_congr
    rw [find?_advance hid, if_neg hne.symm]
  have hother' : (t.advance id' next').1.isStale id next = false := by
    rw [← hid]
    apply isStale_congr
    rw [find?_advance hid', if_neg hne]
  have hfind : ∀ k, ((t.advance id next).1.advance id' next').1.gen.find? k =
      ((t.advance id' next').1.advance id next).1.gen.find? k := by
    intro k
    rw [find?_advance hother, find?_advance hid, find?_advance hother', find?_advance hid']
    by_cases hk : k = id
    · rw [if_pos hk, if_pos hk, if_neg (hk ▸ hne)]
    · rw [if_neg hk, if_neg hk]
  exact congrArg GenerationTracker.mk (OrderedMap.ext_find? hfind)

namespace CapacityModel

def publish (m : CapacityModel) (p : Publication) : CapacityModel := m.step p.op

/-- The model without what is published. -/
def unpublished (m : CapacityModel) : CapacityModel := { m with reservations := [], releases := [] }

/-- Two models that differ only in the order of reservations and of releases. -/
structure SameUpToOrder (m m' : CapacityModel) : Prop where
  reservations : m.reservations.Perm m'.reservations
  releases : m.releases.Perm m'.releases
  rest : m.unpublished = m'.unpublished

theorem SameUpToOrder.refl (m : CapacityModel) : m.SameUpToOrder m := ⟨.refl _, .refl _, rfl⟩

theorem SameUpToOrder.trans {m m' m'' : CapacityModel} (h : m.SameUpToOrder m')
    (h' : m'.SameUpToOrder m'') : m.SameUpToOrder m'' :=
  ⟨h.reservations.trans h'.reservations, h.releases.trans h'.releases, h.rest.trans h'.rest⟩

theorem publish_reservation (m : CapacityModel) (res : Reservation) :
    m.publish (.reservation res) =
      if m.reservationGen.isStale res.id res.generation = true then m
      else { m with
        reservationGen := (m.reservationGen.advance res.id res.generation).1
        reservations := (m.reservations.filter fun r => r.id ≠ res.id) ++ [res] } := by
  show (if m.reservationGen.isStale res.id res.generation = true then (m, false) else _).1 = _
  split_ifs <;> rfl

theorem publish_of_stale {m : CapacityModel} {res : Reservation}
    (h : m.reservationGen.isStale res.id res.generation = true) :
    m.publish (.reservation res) = m := by
  rw [publish_reservation, if_pos h]

theorem SameUpToOrder.publish {m m' : CapacityModel} (p : Publication) (h : m.SameUpToOrder m') :
    (m.publish p).SameUpToOrder (m'.publish p) := by
  cases p with
  | reservation res =>
    have hgen : m.unpublished.reservationGen = m'.unpublished.reservationGen := by rw [h.rest]
    change m.reservationGen = m'.reservationGen at hgen
    rw [publish_reservation, publish_reservation, ← hgen]
    split_ifs
    · exact h
    · refine ⟨KeyedList.replace_perm h.reservations res, h.releases, ?_⟩
      exact congrArg (fun k : CapacityModel => { k with
        reservationGen := (m.reservationGen.advance res.id res.generation).1 }) h.rest
  | release rel => exact ⟨h.reservations, KeyedList.replace_perm h.releases rel, h.rest⟩

theorem isStale_publish_of_ne (m : CapacityModel) {res : Reservation} {id : ReservationId}
    (hne : id ≠ res.id) (gen : ReservationGeneration) :
    (m.publish (.reservation res)).reservationGen.isStale id gen =
      m.reservationGen.isStale id gen := by
  rw [publish_reservation]
  split_ifs with hstale
  · rfl
  · apply GenerationTracker.isStale_congr
    rw [GenerationTracker.find?_advance (Bool.eq_false_iff.mpr hstale), if_neg hne]

theorem publish_comm (m : CapacityModel) {p q : Publication} (h : p.Apart q) :
    ((m.publish p).publish q).SameUpToOrder ((m.publish q).publish p) := by
  cases p with
  | reservation res =>
    cases q with
    | reservation res' =>
      have hne : res.id ≠ res'.id := h
      have hother := isStale_publish_of_ne m hne res.generation
      have hother' := isStale_publish_of_ne m hne.symm res'.generation
      -- A stale publication changes nothing, before or after the other.
      cases hstale : m.reservationGen.isStale res.id res.generation with
      | true =>
        rw [publish_of_stale hstale, publish_of_stale (hother.trans hstale)]
        exact SameUpToOrder.refl _
      | false =>
        cases hstale' : m.reservationGen.isStale res'.id res'.generation with
        | true =>
          rw [publish_of_stale hstale', publish_of_stale (hother'.trans hstale')]
          exact SameUpToOrder.refl _
        | false =>
          rw [publish_reservation (m.publish _), publish_reservation (m.publish _), hother, hother',
            hstale, hstale', publish_reservation, publish_reservation, hstale, hstale']
          refine ⟨KeyedList.replace_comm m.reservations hne, .refl _, ?_⟩
          exact congrArg (fun gen => { m.unpublished with reservationGen := gen })
            (m.reservationGen.advance_comm hne _ _ hstale hstale')
    | release rel =>
      have heq : (m.publish (.reservation res)).publish (.release rel) =
          (m.publish (.release rel)).publish (.reservation res) := by
        rw [publish_reservation, publish_reservation]
        show _ = if m.reservationGen.isStale res.id res.generation = true then _ else _
        split_ifs <;> rfl
      rw [heq]
      exact SameUpToOrder.refl _
  | release rel =>
    cases q with
    | reservation res =>
      have heq : (m.publish (.release rel)).publish (.reservation res) =
          (m.publish (.reservation res)).publish (.release rel) := by
        rw [publish_reservation, publish_reservation]
        show (if m.reservationGen.isStale res.id res.generation = true then _ else _) = _
        split_ifs <;> rfl
      rw [heq]
      exact SameUpToOrder.refl _
    | release rel' =>
      exact ⟨.refl _, KeyedList.replace_comm m.releases h, rfl⟩

theorem sameUpToOrder_run (m : CapacityModel) {pubs pubs' : List Publication}
    (hperm : pubs.Perm pubs') (hapart : pubs.Pairwise Publication.Apart) :
    (Runs.run publish m pubs).SameUpToOrder (Runs.run publish m pubs') :=
  Commutation.run_perm SameUpToOrder.refl SameUpToOrder.trans (fun p h => h.publish p)
    Publication.Apart.symm publish_comm hperm hapart m

section Projections

variable [A : Arithmetic] {m m' : CapacityModel} (σ : EventSort)

theorem SameUpToOrder.available (h : m.SameUpToOrder m') (now : TimePoint) :
    (m.buildView now).available = (m'.buildView now).available := by
  have hrest : (m.unpublished.buildView now).available =
      (m'.unpublished.buildView now).available := by
    rw [h.rest]
  exact hrest

theorem SameUpToOrder.draftTimeline (h : m.SameUpToOrder m') (mode : QueryMode) :
    (draftTimeline (m.buildView 0).available m.reservations m.releases mode).events.Perm
      (draftTimeline (m'.buildView 0).available m'.reservations m'.releases mode).events := by
  rw [draftTimeline_eq, draftTimeline_eq]
  exact (h.reservations.flatMap_right _).append (h.releases.map _)

variable (m m') in
/-- Two models answer alike, whatever is asked about projected capacity. -/
def SameProjections : Prop :=
  ∀ mode, (∀ t d, (m.queryCapacity σ mode t).amount d = (m'.queryCapacity σ mode t).amount d) ∧
    ∀ demand earliestStart duration horizon,
      let fit := m.queryEarliestFit σ demand mode earliestStart duration horizon
      let fit' := m'.queryEarliestFit σ demand mode earliestStart duration horizon
      fit.found = fit'.found ∧ fit.start = fit'.start ∧ fit.end_ = fit'.end_

variable (m m') in
def TiesAgree : Prop :=
  ∀ mode, Timeline.TiesAgree (m.queryTimeline σ mode) (m'.queryTimeline σ mode)

variable (m m') in
/-- In every mode the ties of the two timelines come in one order, or none of their sums is
rounded. -/
def TiesSameOrExact : Prop :=
  ∀ mode, Timeline.TiesSameOrExact (m.queryTimeline σ mode) (m'.queryTimeline σ mode)

/-- Publications in another order leave projected capacity alone if the ties that they lead
to agree; and where no sum of ties in another order is rounded, only then. -/
theorem publication_order_irrelevant_iff (m : CapacityModel) {pubs pubs' : List Publication}
    (hperm : pubs.Perm pubs') (hapart : pubs.Pairwise Publication.Apart) :
    (TiesAgree (Runs.run publish m pubs) (Runs.run publish m pubs') σ →
      SameProjections (Runs.run publish m pubs) (Runs.run publish m pubs') σ) ∧
    (TiesSameOrExact (Runs.run publish m pubs) (Runs.run publish m pubs') σ →
      SameProjections (Runs.run publish m pubs) (Runs.run publish m pubs') σ →
      TiesAgree (Runs.run publish m pubs) (Runs.run publish m pubs') σ) := by
  have hsame := sameUpToOrder_run m hperm hapart
  have hbase := fun mode => (base_draftTimeline _ (Runs.run publish m pubs).reservations
    (Runs.run publish m pubs).releases mode).trans
      ((hsame.available 0).trans (base_draftTimeline _ (Runs.run publish m pubs').reservations
        (Runs.run publish m pubs').releases mode).symm)
  constructor
  · intro h mode
    have hprojections :=
      Timeline.sameProjections_of_tiesAgree σ (hbase mode) (hsame.draftTimeline mode) (h mode)
    exact ⟨hprojections.capacity, hprojections.fit⟩
  · intro hexact h mode
    exact Timeline.tiesAgree_of_sameProjections σ (hbase mode) (hsame.draftTimeline mode)
      (hexact mode) ⟨(h mode).1, (h mode).2⟩

end Projections

def heldInHalves : List Publication :=
  [.reservation (hardHold 1 firstTen (1 / 2)), .reservation (hardHold 2 firstTen (1 / 4))]

theorem apart_heldInHalves : heldInHalves.Pairwise Publication.Apart := by
  have hne : (⟨1⟩ : ReservationId) ≠ ⟨2⟩ := by decide
  exact List.pairwise_pair.mpr hne

theorem tiesAgree_heldInHalves :
    TiesAgree (A := .double) (Runs.run publish oneAccelerator heldInHalves)
      (Runs.run publish oneAccelerator heldInHalves.reverse) (SortBy.stable _) := by
  intro mode d t
  by_cases hd : d = .acceleratorCount
  · subst hd
    have hbase : ((Runs.run publish oneAccelerator heldInHalves).queryTimeline (A := .double)
        (SortBy.stable _) mode).base = (oneAccelerator.buildView (A := .double) 0).available := rfl
    have hevents : ((Runs.run publish oneAccelerator heldInHalves).queryTimeline (A := .double)
        (SortBy.stable _) mode).events = [⟨0, (hardHold 1 firstTen (1 / 2)).hold.negate⟩,
          ⟨0, (hardHold 2 firstTen (1 / 4)).hold.negate⟩,
          ⟨10, (hardHold 1 firstTen (1 / 2)).hold⟩,
          ⟨10, (hardHold 2 firstTen (1 / 4)).hold⟩] := rfl
    have hevents' : ((Runs.run publish oneAccelerator heldInHalves.reverse).queryTimeline
        (A := .double) (SortBy.stable _) mode).events =
          [⟨0, (hardHold 2 firstTen (1 / 4)).hold.negate⟩,
          ⟨0, (hardHold 1 firstTen (1 / 2)).hold.negate⟩,
          ⟨10, (hardHold 2 firstTen (1 / 4)).hold⟩,
          ⟨10, (hardHold 1 firstTen (1 / 2)).hold⟩] := rfl
    rw [hbase, hevents, hevents']
    by_cases hstart : t = 0
    · subst hstart
      decide +kernel
    by_cases hend : t = 10
    · subst hend
      decide +kernel
    · refine Or.inl ?_
      simp [TiedWalk.ties, Ne.symm hstart, Ne.symm hend]
  · -- The holds change nothing but accelerators.
    have hnone : ∀ id units, (hardHold id firstTen units).hold.changes.find? d = none :=
      fun id units => by rw [find?_hardHold, if_neg hd]
    have hnil : ∀ pubs ∈ [heldInHalves, heldInHalves.reverse], TiedWalk.ties CapacityEvent.time
        (Timeline.changeIn d) t ((Runs.run publish oneAccelerator pubs).queryTimeline (A := .double)
          (SortBy.stable _) mode).events = [] := by
      intro pubs hpubs
      refine Timeline.ties_eq_nil (changesOf_buildTimeline _ _ _ (fun r hr => ?_)
        fun rel hrel => ?_) t
      · rcases List.mem_pair.mp hpubs with rfl | rfl <;>
          rcases List.mem_pair.mp hr with rfl | rfl <;> exact hnone _ _
      · rcases List.mem_pair.mp hpubs with rfl | rfl <;> exact absurd hrel List.not_mem_nil
    exact Or.inl ((hnil _ (by simp)).trans (hnil _ (by simp)).symm)

theorem publication_order_irrelevant_iff_heldInHalves :
    SameProjections (A := .double) (Runs.run publish oneAccelerator heldInHalves)
      (Runs.run publish oneAccelerator heldInHalves.reverse) (SortBy.stable _) :=
  (publication_order_irrelevant_iff (A := .double) _ oneAccelerator
    (List.reverse_perm _).symm apart_heldInHalves).1 tiesAgree_heldInHalves

/-- Two holds of one accelerator, the second of which begins where the first one ends. -/
def firstHold : Publication := .reservation (hardHold 1 firstTen 1)

def secondHold : Publication := .reservation (hardHold 2 nextTen 1)

theorem apart_holds : [firstHold, secondHold].Pairwise Publication.Apart := by
  have hne : (⟨1⟩ : ReservationId) ≠ ⟨2⟩ := by decide
  exact List.pairwise_pair.mpr hne

/-- Published in the other order, the second hold is clamped before the first one ends. -/
theorem later_hold_first_adds_capacity :
    ¬ ∀ (σ : EventSort) (m : CapacityModel), Reachable m → ∀ pubs pubs' : List Publication,
      pubs.Perm pubs' → pubs.Pairwise Publication.Apart →
      SameProjections (A := .double) (Runs.run publish m pubs) (Runs.run publish m pubs') σ := by
  intro h
  have hreachable : Reachable oneAccelerator := Runs.Reachable.init.run _
  have hsame := h (SortBy.stable _) oneAccelerator hreachable [firstHold, secondHold]
    [secondHold, firstHold] (List.Perm.swap _ _ _) apart_holds
  have hamount := (hsame .expected).1 10 .acceleratorCount
  revert hamount
  decide +kernel

end CapacityModel

end CapacityFabric
