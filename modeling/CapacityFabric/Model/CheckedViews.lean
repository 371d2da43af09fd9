import CapacityFabric.Capacity.CheckedAdd
import CapacityFabric.Model.Aggregates

/-!
# Views whose sums may raise

Views and queries with the check that `add` makes.  Where every sum is finite they are the
unchecked ones, and otherwise each query ends with the exception of its view.
-/

namespace CapacityFabric

open CheckedLoop (YieldsIf)

variable [A : Arithmetic]

/-- The capacities add up to a finite sum in every dimension. -/
def FiniteSum (f : ResourceInfo → Capacity) (rs : List ResourceInfo) : Prop :=
  (totalOf f rs).IsFinite

/-- The sums of a view are finite, with what is free where `counts` holds. -/
structure FiniteTotals (counts : ResourceInfo → Bool) (rs : List ResourceInfo) : Prop where
  nominal : FiniteSum ResourceInfo.nominal rs
  committed : FiniteSum ResourceInfo.committed rs
  unavailable : FiniteSum ResourceInfo.unavailable rs
  free : FiniteSum ResourceInfo.free (rs.filter counts)

theorem FiniteSum.sublist {f : ResourceInfo → Capacity} {rs rs' : List ResourceInfo}
    (h : FiniteSum f rs) (hsub : rs'.Sublist rs) : FiniteSum f rs' := fun d =>
  (Arithmetic.round_mono (totalOf_le_of_sublist hsub f d)).trans (h d)

theorem FiniteTotals.sublist {counts : ResourceInfo → Bool} {rs rs' : List ResourceInfo}
    (h : FiniteTotals counts rs) (hsub : rs'.Sublist rs) : FiniteTotals counts rs' where
  nominal := h.nominal.sublist hsub
  committed := h.committed.sublist hsub
  unavailable := h.unavailable.sublist hsub
  free := h.free.sublist (hsub.filter counts)

structure Totals where
  nominal : Capacity := ∅
  committed : Capacity := ∅
  unavailable : Capacity := ∅
  available : Capacity := ∅

namespace Totals

/-- What is free on a resource is added where `counts` holds of it. -/
def addFree? (counts : ResourceInfo → Bool) (available : Capacity) (r : ResourceInfo) :
    Option Capacity :=
  if counts r then available.add? r.free else some available

/-- One turn of the loop of a view. -/
def add? (counts : ResourceInfo → Bool) (t : Totals) (r : ResourceInfo) : Option Totals := do
  let nominal ← t.nominal.add? r.nominal
  let committed ← t.committed.add? r.committed
  let unavailable ← t.unavailable.add? r.unavailable
  let available ← addFree? counts t.available r
  return { nominal, committed, unavailable, available }

def add (counts : ResourceInfo → Bool) (t : Totals) (r : ResourceInfo) : Totals where
  nominal := t.nominal.add r.nominal
  committed := t.committed.add r.committed
  unavailable := t.unavailable.add r.unavailable
  available := if counts r then t.available.add r.free else t.available

def stored (t : Totals) (d : Dimension) : ℚ × ℚ × ℚ × ℚ :=
  (Arithmetic.round (t.nominal.amount d), Arithmetic.round (t.committed.amount d),
    Arithmetic.round (t.unavailable.amount d), Arithmetic.round (t.available.amount d))

structure IsFinite (t : Totals) : Prop where
  nominal : t.nominal.IsFinite
  committed : t.committed.IsFinite
  unavailable : t.unavailable.IsFinite
  available : t.available.IsFinite

theorem stored_le_iff {t : Totals} :
    t.stored ≤ (fun _ => (dblMax, dblMax, dblMax, dblMax)) ↔ t.IsFinite := by
  constructor
  · intro h
    exact ⟨fun d => (h d).1, fun d => (h d).2.1, fun d => (h d).2.2.1, fun d => (h d).2.2.2⟩
  · exact fun h d => ⟨h.nominal d, h.committed d, h.unavailable d, h.available d⟩

theorem add?_eq_some_iff {counts : ResourceInfo → Bool} {t t' : Totals} {r : ResourceInfo}
    (ht : t.IsFinite) : t.add? counts r = some t' ↔ t' = t.add counts r ∧ t'.IsFinite := by
  have hfree : ∀ c, addFree? counts t.available r = some c ↔
      c = (if counts r then t.available.add r.free else t.available) ∧ c.IsFinite := by
    intro c
    unfold addFree?
    split_ifs
    · exact Capacity.add?_eq_some_iff ht.available
    · constructor
      · intro h
        obtain rfl := Option.some.inj h
        exact ⟨rfl, ht.available⟩
      · rintro ⟨rfl, -⟩
        rfl
  simp only [add?, Option.bind_eq_bind, Option.bind_eq_some_iff, hfree,
    Capacity.add?_eq_some_iff ht.nominal, Capacity.add?_eq_some_iff ht.committed,
    Capacity.add?_eq_some_iff ht.unavailable]
  constructor
  · rintro ⟨n, ⟨rfl, hn⟩, c, ⟨rfl, hc⟩, u, ⟨rfl, hu⟩, a, ⟨rfl, ha⟩, h⟩
    obtain rfl := Option.some.inj h
    exact ⟨rfl, hn, hc, hu, ha⟩
  · rintro ⟨rfl, h⟩
    exact ⟨_, ⟨rfl, h.nominal⟩, _, ⟨rfl, h.committed⟩, _, ⟨rfl, h.unavailable⟩, _,
      ⟨rfl, h.available⟩, rfl⟩

theorem checks_add (counts : ResourceInfo → Bool) (r : ResourceInfo) :
    CheckedLoop.Checks (add? counts) (add counts) stored
      (fun _ => (dblMax, dblMax, dblMax, dblMax)) r where
  grows t d := by
    refine ⟨Capacity.round_amount_le_add _ _ d, Capacity.round_amount_le_add _ _ d,
      Capacity.round_amount_le_add _ _ d, ?_⟩
    show Arithmetic.round (t.available.amount d) ≤
      Arithmetic.round ((if counts r then t.available.add r.free else t.available).amount d)
    split_ifs
    · exact Capacity.round_amount_le_add _ _ d
    · exact le_rfl
  checked t t' ht := by
    rw [add?_eq_some_iff (stored_le_iff.mp ht), stored_le_iff]

theorem foldl_add (counts : ResourceInfo → Bool) (rs : List ResourceInfo) :
    rs.foldl (add counts) {} =
      { nominal := totalOf ResourceInfo.nominal rs
        committed := totalOf ResourceInfo.committed rs
        unavailable := totalOf ResourceInfo.unavailable rs
        available := totalOf ResourceInfo.free (rs.filter counts) } := by
  induction rs using List.reverseRecOn with
  | nil => rfl
  | append_singleton rs r ih =>
    have hsnoc : ∀ (f : ResourceInfo → Capacity) (l : List ResourceInfo),
        totalOf f (l ++ [r]) = (totalOf f l).add (f r) := fun f l => by
      rw [totalOf, List.foldl_append]
      rfl
    rw [List.foldl_append, ih, List.foldl_cons, List.foldl_nil, hsnoc, hsnoc, hsnoc,
      List.filter_append, add]
    by_cases hcounts : counts r = true
    · rw [if_pos hcounts, List.filter_cons_of_pos hcounts, List.filter_nil, hsnoc]
    · rw [if_neg hcounts, List.filter_cons_of_neg hcounts, List.filter_nil, List.append_nil]

end Totals

/-- The sums of the resources, or nothing where one raises. -/
def aggregate? (counts : ResourceInfo → Bool) (rs : List ResourceInfo) : Option Totals :=
  rs.foldlM (Totals.add? counts) {}

theorem aggregate?_eq_some_iff {counts : ResourceInfo → Bool} {rs : List ResourceInfo}
    {t : Totals} : aggregate? counts rs = some t ↔
      t = { nominal := totalOf ResourceInfo.nominal rs
            committed := totalOf ResourceInfo.committed rs
            unavailable := totalOf ResourceInfo.unavailable rs
            available := totalOf ResourceInfo.free (rs.filter counts) } ∧
        FiniteTotals counts rs := by
  have hempty := Capacity.isFinite_empty
  have hstart : ({} : Totals).IsFinite := ⟨hempty, hempty, hempty, hempty⟩
  unfold aggregate?
  rw [CheckedLoop.foldlM_eq_some_iff (fun r _ => Totals.checks_add counts r)
    (Totals.stored_le_iff.mpr hstart), Totals.stored_le_iff, Totals.foldl_add]
  refine and_congr_right ?_
  rintro rfl
  constructor
  · rintro ⟨hnominal, hcommitted, hunavailable, havailable⟩
    exact ⟨hnominal, hcommitted, hunavailable, havailable⟩
  · rintro ⟨hnominal, hcommitted, hunavailable, hfree⟩
    exact ⟨hnominal, hcommitted, hunavailable, hfree⟩

theorem yieldsIf_aggregate? (counts : ResourceInfo → Bool) (rs : List ResourceInfo) :
    YieldsIf (aggregate? counts rs)
      { nominal := totalOf ResourceInfo.nominal rs
        committed := totalOf ResourceInfo.committed rs
        unavailable := totalOf ResourceInfo.unavailable rs
        available := totalOf ResourceInfo.free (rs.filter counts) }
      (FiniteTotals counts rs) :=
  fun _ => aggregate?_eq_some_iff

/-- The view with the sums, and the current use that follows from them. -/
def FleetView.withTotals (v : FleetView) (t : Totals) : FleetView :=
  { v with
    available := t.available
    nominal := t.nominal
    committed := t.committed
    unavailable := t.unavailable
    currentUse :=
      ((t.nominal.subtractClamp t.available).subtractClamp t.committed).subtractClamp
        t.unavailable }

namespace CapacityModel

/-- `buildView`, or nothing where a sum raises. -/
def buildView? (m : CapacityModel) (now : TimePoint) : Option FleetView := do
  let totals ← aggregate? m.isCurrent m.currentResources
  return (m.buildView now).withTotals totals

def queryFeasibilityNow? (m : CapacityModel) (d : WorkloadDemand) : Option FeasibilityResult := do
  let view ← m.buildView? 0
  return evaluateNow view d

def queryFeasibility? (m : CapacityModel) (σ : EventSort) (d : WorkloadDemand) (mode : QueryMode)
    (time : TimePoint) : Option FeasibilityResult := do
  let view ← m.buildView? time
  return if time ≤ 0 then { evaluateNow view d with mode := mode }
    else evaluateFuture σ view d mode time

def queryTimeline? (m : CapacityModel) (σ : EventSort) (mode : QueryMode) : Option Timeline := do
  let view ← m.buildView? 0
  return buildTimeline σ view.available view.reservations view.releases mode

def queryEarliestFit? (m : CapacityModel) (σ : EventSort) (d : WorkloadDemand) (mode : QueryMode)
    (earliestStart : TimePoint) (duration : DurationNs) (horizon : TimePoint) :
    Option EarliestFitResult := do
  let tl ← m.queryTimeline? σ mode
  return earliestFit tl d earliestStart duration horizon

def queryCapacity? (m : CapacityModel) (σ : EventSort) (mode : QueryMode) (time : TimePoint) :
    Option Capacity := do
  let tl ← m.queryTimeline? σ mode
  return tl.capacityAt time

def queryHeadroom? (m : CapacityModel) (d : WorkloadDemand) : Option Headroom := do
  let view ← m.buildView? 0
  let sloCap := if d.sloHeadroomRequirement.value > 0 then d.requirements else ∅
  return computeHeadroom view.available view.currentUse view.committed sloCap

/-- The sums of the views of the model are finite. -/
abbrev ViewFits (m : CapacityModel) : Prop := FiniteTotals m.isCurrent m.currentResources

variable {m : CapacityModel}

theorem yieldsIf_buildView? (now : TimePoint) :
    YieldsIf (m.buildView? now) (m.buildView now) m.ViewFits :=
  (yieldsIf_aggregate? _ _).map _

theorem buildView?_eq_some_iff {now : TimePoint} {v : FleetView} :
    m.buildView? now = some v ↔ v = m.buildView now ∧ m.ViewFits :=
  yieldsIf_buildView? now v

theorem queryFeasibilityNow?_eq_some_iff {d : WorkloadDemand} {res : FeasibilityResult} :
    m.queryFeasibilityNow? d = some res ↔ res = m.queryFeasibilityNow d ∧ m.ViewFits :=
  (yieldsIf_buildView? 0).map _ res

theorem outcome_queryFeasibilityNow?_iff {d : WorkloadDemand} {o : Outcome} :
    (m.queryFeasibilityNow? d).map FeasibilityResult.outcome = some o ↔
      (m.queryFeasibilityNow d).outcome = o ∧ m.ViewFits := by
  simp only [Option.map_eq_some_iff, queryFeasibilityNow?_eq_some_iff]
  constructor
  · rintro ⟨res, ⟨rfl, hfits⟩, ho⟩
    exact ⟨ho, hfits⟩
  · rintro ⟨ho, hfits⟩
    exact ⟨_, ⟨rfl, hfits⟩, ho⟩

theorem queryFeasibility?_eq_some_iff {σ : EventSort} {d : WorkloadDemand} {mode : QueryMode}
    {time : TimePoint} {res : FeasibilityResult} :
    m.queryFeasibility? σ d mode time = some res ↔
      res = m.queryFeasibility σ d mode time ∧ m.ViewFits :=
  (yieldsIf_buildView? time).map _ res

theorem yieldsIf_queryTimeline? (σ : EventSort) (mode : QueryMode) :
    YieldsIf (m.queryTimeline? σ mode) (m.queryTimeline σ mode) m.ViewFits :=
  (yieldsIf_buildView? 0).map _

theorem queryEarliestFit?_eq_some_iff {σ : EventSort} {d : WorkloadDemand} {mode : QueryMode}
    {earliestStart : TimePoint} {duration : DurationNs} {horizon : TimePoint}
    {res : EarliestFitResult} :
    m.queryEarliestFit? σ d mode earliestStart duration horizon = some res ↔
      res = m.queryEarliestFit σ d mode earliestStart duration horizon ∧ m.ViewFits :=
  (yieldsIf_queryTimeline? σ mode).map _ res

theorem queryCapacity?_eq_some_iff {σ : EventSort} {mode : QueryMode} {time : TimePoint}
    {c : Capacity} : m.queryCapacity? σ mode time = some c ↔
      c = m.queryCapacity σ mode time ∧ m.ViewFits :=
  (yieldsIf_queryTimeline? σ mode).map _ c

theorem queryHeadroom?_eq_some_iff {d : WorkloadDemand} {h : Headroom} :
    m.queryHeadroom? d = some h ↔ h = m.queryHeadroom d ∧ m.ViewFits :=
  (yieldsIf_buildView? 0).map _ h

end CapacityModel

end CapacityFabric
