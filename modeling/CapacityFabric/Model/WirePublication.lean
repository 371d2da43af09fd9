import CapacityFabric.Model.NominalBound
import CapacityFabric.Model.SavedState
import CapacityFabric.Protocol.Payload

/-!
# Publishing through the wire

The wire keeps of a hold and of a release what a file keeps of them, which is their
accelerators.  A query tells the two apart as soon as anything else was stored.
-/

namespace CapacityFabric

namespace Payload

open Parsing BinaryReader BinaryWriter CapacityModel

theorem parses_writeReservation {r : Reservation} (hinterval : r.interval.valid = true)
    (h : IsDouble (r.hold.at_ .acceleratorCount)) :
    Parses readReservation (writeReservation r) (some (savedReservation r)) := by
  simp only [writeReservation, List.append_assoc]
  refine (parses_readU64 _).bind ((parses_readU64 _).bind ((parses_readI64 _).bind
    ((parses_readI64 _).bind ((parses_readU8 _).bind ?_))))
  have hhold := parses_readF64 (r.hold.at_ .acceleratorCount)
  rw [Double.ofBits_toBits h] at hhold
  intro rest
  rw [hhold.run_bind, ReservationStrength.ofCode_code, Interval.make?_bounds, if_pos hinterval]
  rfl

theorem parses_writeRelease {e : ReleaseEvent}
    (hrelease : IsDouble (e.release.at_ .acceleratorCount))
    (hconfidence : IsDouble e.confidence.value) :
    Parses readRelease (writeRelease e) (some (savedRelease e)) := by
  simp only [writeRelease, List.append_assoc]
  refine (parses_readU64 _).bind ((parses_readI64 _).bind ((parses_readI64 _).bind
    ((parses_readI64 _).bind ((parses_readF64 _).bind ?_))))
  refine (parses_readF64 _).map ?_
  rw [Double.ofBits_toBits hrelease, Double.ofBits_toBits hconfidence, checkedConfidence,
    BoundedFraction.make?_value]
  rfl

end Payload

namespace CapacityDelta

/-- The change is one of the accelerator count and of nothing else. -/
def OnlyAccelerators (δ : CapacityDelta) : Prop :=
  ∀ d, δ.changes.contains d = true ↔ d = .acceleratorCount

/-- What the wire keeps of a change. -/
def acceleratorsOnly (δ : CapacityDelta) : CapacityDelta :=
  change ∅ .acceleratorCount (δ.at_ .acceleratorCount)

theorem find?_acceleratorsOnly (δ : CapacityDelta) (d : Dimension) :
    δ.acceleratorsOnly.changes.find? d =
      if d = .acceleratorCount then some (δ.at_ .acceleratorCount) else none := by
  rw [acceleratorsOnly, change, OrderedMap.find?_insert]
  split_ifs
  · exact congrArg some (zero_add _)
  · rfl

theorem acceleratorsOnly_eq_iff {δ : CapacityDelta} :
    δ.acceleratorsOnly = δ ↔ δ.OnlyAccelerators := by
  constructor
  · intro h d
    rw [← h, OrderedMap.contains, find?_acceleratorsOnly]
    split_ifs with hd <;> simp [hd]
  · intro h
    have hfind : ∀ d, δ.acceleratorsOnly.changes.find? d = δ.changes.find? d := by
      intro d
      rw [find?_acceleratorsOnly]
      split_ifs with hd
      · obtain ⟨v, hv⟩ := Option.isSome_iff_exists.mp ((h d).mpr hd)
        rw [at_, amountIn, ← hd, hv, Option.getD_some]
      · exact (Option.not_isSome_iff_eq_none.mp fun hsome => hd ((h d).mp hsome)).symm
    have hchanges := OrderedMap.ext_find? hfind
    exact congrArg CapacityDelta.mk hchanges

/-- Changes that do not store the same dimensions are told apart by what they make of some
amount. -/
theorem exists_applyDelta_ne {δ δ' : CapacityDelta} {d : Dimension}
    (h : (δ.changes.find? d).isSome ≠ (δ'.changes.find? d).isSome) :
    ∃ x, 0 ≤ x ∧ ∀ c : Capacity, c.entry d = some x →
      (applyDelta c δ).entry d ≠ (applyDelta c δ').entry d := by
  -- The size of a change is not left alone by it, even when it is zero.
  have hchanged : ∀ v : ℚ,
      (if max (|v| + v) 0 = 0 then none else some (max (|v| + v) 0) : Option ℚ) ≠ some |v| := by
    intro v
    rw [max_eq_left (by linarith [neg_abs_le v])]
    split_ifs with hzero
    · simp
    · intro heq
      have hv : v = 0 := by linarith [Option.some.inj heq]
      exact hzero (by simp [hv])
  have happly : ∀ {c : Capacity} {δ : CapacityDelta} {v : ℚ}, c.entry d = some |v| →
      δ.changes.find? d = some v → (applyDelta c δ).entry d ≠ some |v| := by
    intro c δ v hc hv
    rw [entry_applyDelta, hv, hc, Option.elim_some, changed_exact, Option.getD_some]
    exact hchanged v
  cases hδ : δ.changes.find? d with
  | none =>
    cases hδ' : δ'.changes.find? d with
    | none => simp [hδ, hδ'] at h
    | some v =>
      refine ⟨|v|, abs_nonneg v, fun c hc heq => happly hc hδ' ?_⟩
      rw [← heq, entry_applyDelta, hδ]
      exact hc
  | some v =>
    cases hδ' : δ'.changes.find? d with
    | some v' => simp [hδ, hδ'] at h
    | none =>
      refine ⟨|v|, abs_nonneg v, fun c hc heq => happly hc hδ ?_⟩
      rw [heq, entry_applyDelta, hδ']
      exact hc

end CapacityDelta

theorem capacityAt_one_reservation (σ : EventSort) (base : Capacity) {r : Reservation}
    (hinterval : r.interval.start < r.interval.end_) :
    (buildTimeline σ base [r] [] .expected).capacityAt r.interval.start =
      applyDelta base r.hold.negate := by
  have hdraft : (draftTimeline base [r] [] .expected).events = reservationEvents .expected r := by
    rw [draftTimeline_eq]
    simp
  have huntil := ((σ.perm (reservationEvents .expected r)).filter fun e =>
    e.time ≤ r.interval.start)
  rw [buildTimeline, Timeline.capacityAt_freeze, Timeline.eventsUntil, Timeline.events_freeze,
    hdraft, base_draftTimeline]
  cases hempty : r.hold.isEmpty with
  | true =>
    have hnone : reservationEvents .expected r = [] := by simp [reservationEvents, hempty]
    have hentries : r.hold.changes.entries = [] := List.isEmpty_iff.mp hempty
    rw [hnone] at huntil ⊢
    rw [huntil.eq_nil, CapacityDelta.negate, hentries]
    rfl
  | false =>
    have htwo : reservationEvents .expected r =
        [⟨r.interval.start, r.hold.negate⟩, ⟨r.interval.end_, r.hold⟩] := by
      simp [reservationEvents, includes, hempty]
    rw [htwo] at huntil ⊢
    rw [List.filter_cons_of_pos (by simp), List.filter_cons_of_neg (by simpa using hinterval),
      List.filter_nil, List.perm_singleton] at huntil
    rw [huntil]
    rfl

theorem capacityAt_one_release (σ : EventSort) (base : Capacity) (e : ReleaseEvent) :
    (buildTimeline σ base [] [e] .expected).capacityAt e.time = applyDelta base e.release := by
  have hdraft : (draftTimeline base [] [e] .expected).events = [⟨e.time, e.release⟩] := by
    rw [draftTimeline_eq]
    rfl
  have hsort : σ.sort [(⟨e.time, e.release⟩ : CapacityEvent)] = [⟨e.time, e.release⟩] :=
    List.perm_singleton.mp (σ.perm _)
  rw [buildTimeline, Timeline.capacityAt_freeze, Timeline.eventsUntil, Timeline.events_freeze,
    hdraft, base_draftTimeline, hsort, List.filter_cons_of_pos (by simp)]
  rfl

namespace CapacityModel

/-- No query tells the models apart. -/
structure SameAnswers (m m' : CapacityModel) : Prop where
  capacity : ∀ σ mode t, m.queryCapacity σ mode t = m'.queryCapacity σ mode t
  feasibility : ∀ σ d mode t, m.queryFeasibility σ d mode t = m'.queryFeasibility σ d mode t
  earliestFit : ∀ σ d mode earliestStart duration horizon,
    m.queryEarliestFit σ d mode earliestStart duration horizon =
      m'.queryEarliestFit σ d mode earliestStart duration horizon

theorem SameAnswers.refl (m : CapacityModel) : SameAnswers m m :=
  ⟨fun _ _ _ => rfl, fun _ _ _ _ => rfl, fun _ _ _ _ _ _ => rfl⟩

/-- A live resource that has one amount stored as free, if only as a zero. -/
def storing (d : Dimension) (x : ℚ) (hx : 0 ≤ x) : ResourceInfo :=
  { Reference.makeResource ⟨1⟩ ⟨1⟩ ⟨1⟩ ⟨1⟩ ⟨1⟩ ⟨1⟩ ⟨1⟩ {} 16 8 [8] with
    free := ⟨OrderedMap.insert ∅ d x, fun d' v h => by
      rw [OrderedMap.find?_insert] at h
      split_ifs at h
      · exact Option.some.inj h ▸ hx
      · exact absurd h (by simp)⟩ }

theorem entry_available_storing (d : Dimension) {x : ℚ} (hx : 0 ≤ x) (now : TimePoint) :
    ((publishedOnce (storing d x hx)).buildView now).available.entry d = some x := by
  have hcounted := (currentResources_publishedOnce (r := storing d x hx) rfl rfl).2
  have hfree : (storing d x hx).free.entry d = some x := OrderedMap.find?_insert_self _ _ _
  rw [available_buildView, hcounted]
  show ((∅ : Capacity).add (storing d x hx).free).entry d = some x
  rw [Capacity.entry_add, hfree]
  exact congrArg some (zero_add x)

theorem queryCapacity_storing_reservation (σ : EventSort) (d : Dimension) {x : ℚ} (hx : 0 ≤ x)
    {r : Reservation} (hinterval : r.interval.valid = true) :
    ((publishedOnce (storing d x hx)).publishReservation r).1.queryCapacity σ .expected
        r.interval.start =
      applyDelta ((publishedOnce (storing d x hx)).buildView 0).available r.hold.negate := by
  have hstart : r.interval.start < r.interval.end_ := (of_decide_eq_true hinterval).2
  rw [publishedOnce_eq rfl rfl]
  exact capacityAt_one_reservation σ _ hstart

theorem queryCapacity_storing_release (σ : EventSort) (d : Dimension) {x : ℚ} (hx : 0 ≤ x)
    (e : ReleaseEvent) :
    ((publishedOnce (storing d x hx)).publishRelease e).1.queryCapacity σ .expected e.time =
      applyDelta ((publishedOnce (storing d x hx)).buildView 0).available e.release := by
  rw [publishedOnce_eq rfl rfl]
  exact capacityAt_one_release σ _ e

theorem contains_ne_of_not_onlyAccelerators {δ : CapacityDelta} (h : ¬δ.OnlyAccelerators) :
    ∃ d, (δ.acceleratorsOnly.changes.find? d).isSome ≠ (δ.changes.find? d).isSome := by
  by_contra hall
  push Not at hall
  refine h fun d => ?_
  rw [OrderedMap.contains, ← hall d, CapacityDelta.find?_acceleratorsOnly]
  split_ifs with hd <;> simp [hd]

/-- What the wire keeps of a reservation cannot be told from it exactly when it holds
accelerators and nothing else. -/
theorem sameAnswers_savedReservation_iff {r : Reservation}
    (hinterval : r.interval.valid = true) :
    (∀ (m : CapacityModel) ops,
      SameAnswers (Runs.run step (m.publishReservation (savedReservation r)).1 ops)
        (Runs.run step (m.publishReservation r).1 ops)) ↔ r.hold.OnlyAccelerators := by
  constructor
  · intro h
    by_contra hnot
    obtain ⟨d, hd⟩ := contains_ne_of_not_onlyAccelerators hnot
    have hd' : (r.hold.acceleratorsOnly.negate.changes.find? d).isSome ≠
        (r.hold.negate.changes.find? d).isSome := by
      rw [CapacityDelta.find?_negate, CapacityDelta.find?_negate, Option.isSome_map,
        Option.isSome_map]
      exact hd
    obtain ⟨x, hx, hne⟩ := CapacityDelta.exists_applyDelta_ne hd'
    -- A model that stores this much of the dimension shows the difference.
    have hsame := (h (publishedOnce (storing d x hx)) []).capacity (SortBy.stable _) .expected
      r.interval.start
    rw [Runs.run_nil, Runs.run_nil, queryCapacity_storing_reservation _ d hx hinterval] at hsame
    refine hne _ (entry_available_storing d hx 0) ?_
    rw [← hsame]
    exact congrArg (fun c => Capacity.entry c d)
      (queryCapacity_storing_reservation (SortBy.stable _) d hx (r := savedReservation r)
        hinterval).symm
  · intro h m ops
    have hsame : savedReservation r = r :=
      congrArg (fun hold => { r with hold := hold }) (CapacityDelta.acceleratorsOnly_eq_iff.mpr h)
    rw [hsame]
    exact SameAnswers.refl _

theorem sameAnswers_savedRelease_iff {e : ReleaseEvent} :
    (∀ (m : CapacityModel) ops,
      SameAnswers (Runs.run step (m.publishRelease (savedRelease e)).1 ops)
        (Runs.run step (m.publishRelease e).1 ops)) ↔ e.release.OnlyAccelerators := by
  constructor
  · intro h
    by_contra hnot
    obtain ⟨d, hd⟩ := contains_ne_of_not_onlyAccelerators hnot
    obtain ⟨x, hx, hne⟩ := CapacityDelta.exists_applyDelta_ne hd
    have hsame := (h (publishedOnce (storing d x hx)) []).capacity (SortBy.stable _) .expected
      e.time
    rw [Runs.run_nil, Runs.run_nil, queryCapacity_storing_release _ d hx] at hsame
    refine hne _ (entry_available_storing d hx 0) ?_
    rw [← hsame]
    exact congrArg (fun c => Capacity.entry c d)
      (queryCapacity_storing_release (SortBy.stable _) d hx (savedRelease e)).symm
  · intro h m ops
    have hsame : savedRelease e = e :=
      congrArg (fun release => { e with release := release })
        (CapacityDelta.acceleratorsOnly_eq_iff.mpr h)
    rw [hsame]
    exact SameAnswers.refl _

open Payload in
/-- The reservation arrives over the wire, and publishing what arrives is the same as
publishing it. -/
def ReservationArrives (r : Reservation) : Prop :=
  ∃ r', readReservation.run (writeReservation r) = some (some r', []) ∧
    ∀ (m : CapacityModel) ops,
    SameAnswers (Runs.run step (m.publishReservation r').1 ops)
      (Runs.run step (m.publishReservation r).1 ops)

open Payload in
/-- The release arrives over the wire, and publishing what arrives is the same as
publishing it. -/
def ReleaseArrives (e : ReleaseEvent) : Prop :=
  ∃ e', readRelease.run (writeRelease e) = some (some e', []) ∧
    ∀ (m : CapacityModel) ops,
    SameAnswers (Runs.run step (m.publishRelease e').1 ops)
      (Runs.run step (m.publishRelease e).1 ops)

theorem reservationArrives_iff {r : Reservation} (hinterval : r.interval.valid = true)
    (hhold : IsDouble (r.hold.at_ .acceleratorCount)) :
    ReservationArrives r ↔ r.hold.OnlyAccelerators := by
  have hread := (Payload.parses_writeReservation hinterval hhold).run
  rw [← sameAnswers_savedReservation_iff hinterval]
  constructor
  · rintro ⟨r', hr', h⟩
    rw [hread] at hr'
    obtain rfl := Option.some.inj (Prod.mk.inj (Option.some.inj hr')).1
    exact h
  · intro h
    exact ⟨savedReservation r, hread, h⟩

theorem releaseArrives_iff {e : ReleaseEvent}
    (hrelease : IsDouble (e.release.at_ .acceleratorCount))
    (hconfidence : IsDouble e.confidence.value) :
    ReleaseArrives e ↔ e.release.OnlyAccelerators := by
  have hread := (Payload.parses_writeRelease hrelease hconfidence).run
  rw [← sameAnswers_savedRelease_iff]
  constructor
  · rintro ⟨e', he', h⟩
    rw [hread] at he'
    obtain rfl := Option.some.inj (Prod.mk.inj (Option.some.inj he')).1
    exact h
  · intro h
    exact ⟨savedRelease e, hread, h⟩

/-- A reservation and a release go through the wire unchanged, for whatever is asked later,
exactly when they change accelerators and nothing else. -/
theorem wire_publication_iff {r : Reservation} {e : ReleaseEvent}
    (hinterval : r.interval.valid = true) (hhold : IsDouble (r.hold.at_ .acceleratorCount))
    (hrelease : IsDouble (e.release.at_ .acceleratorCount))
    (hconfidence : IsDouble e.confidence.value) :
    ReservationArrives r ∧ ReleaseArrives e ↔
      r.hold.OnlyAccelerators ∧ e.release.OnlyAccelerators := by
  rw [reservationArrives_iff hinterval hhold, releaseArrives_iff hrelease hconfidence]

def fourHeld : Reservation := hardHold 1 firstTen 4

def fourReleased : ReleaseEvent := Reference.makeRelease ⟨1⟩ 5 5 5 4 default

theorem isDouble_fourHeld : IsDouble (fourHeld.hold.at_ .acceleratorCount) :=
  ⟨0x4010000000000000, by decide +kernel⟩

theorem isDouble_fourReleased : IsDouble (fourReleased.release.at_ .acceleratorCount) :=
  ⟨0x4010000000000000, by decide +kernel⟩

theorem wire_publication_iff_four :
    ReservationArrives fourHeld ∧ ReleaseArrives fourReleased ↔
      fourHeld.hold.OnlyAccelerators ∧ fourReleased.release.OnlyAccelerators :=
  wire_publication_iff (by decide) isDouble_fourHeld isDouble_fourReleased isDouble_zero

def vramHeld : Reservation :=
  { fourHeld with hold := CapacityDelta.change ∅ .vramBytes 8 }

theorem vram_hold_not_sent :
    ¬ ∀ (r : Reservation) (e : ReleaseEvent), r.interval.valid = true →
      IsDouble (r.hold.at_ .acceleratorCount) → IsDouble (e.release.at_ .acceleratorCount) →
      IsDouble e.confidence.value → ReservationArrives r ∧ ReleaseArrives e := by
  intro h
  have hvalid : vramHeld.interval.valid = true := by decide
  have harrives :=
    (h vramHeld fourReleased hvalid isDouble_zero isDouble_fourReleased isDouble_zero).1
  have honly := (reservationArrives_iff hvalid isDouble_zero).mp harrives .vramBytes
  exact Dimension.noConfusion (honly.mp rfl)

end CapacityModel

end CapacityFabric
