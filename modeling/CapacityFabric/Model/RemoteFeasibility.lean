import CapacityFabric.Model.FutureFit
import CapacityFabric.Protocol.ResourceWire
import CapacityFabric.Query.Verdict

/-!
# Feasibility through the wire

A demand loses its constraints on topology, capability, headroom and fragmentation on
the wire.  The verdict survives where none of them decides it.
-/

namespace CapacityFabric

namespace Payload

open Parsing BinaryReader BinaryWriter

/-- What the wire carries of a demand; the rest takes its defaults. -/
def sentDemand (d : WorkloadDemand) : WorkloadDemand where
  id := d.id
  generation := d.generation
  requirements := d.requirements.withoutZeros
  minAccelerators := d.minAccelerators
  requiresContiguousVram := d.requiresContiguousVram
  minContiguousVram := d.minContiguousVram

theorem parses_readDemand {d : WorkloadDemand} (h : ∀ dim, IsDouble (d.requirements.amount dim)) :
    Parses readDemand (writeDemand d) (sentDemand d) := by
  simp only [writeDemand, List.append_assoc]
  refine (parses_readU64 _).bind ((parses_readU64 _).bind ((parses_readCapacity h).bind
    ((parses_readU64 _).bind ((parses_readU8 _).bind ((parses_readU64 _).map ?_)))))
  cases hcontiguous : d.requiresContiguousVram <;> simp [sentDemand, hcontiguous]

end Payload

open Payload

/-- At each gate that the demand reaches, what the wire drops of it makes no difference
to the outcome. -/
structure SurvivesWire [A : Arithmetic] (devices : List DeviceInfo) (effective : Capacity)
    (demand : WorkloadDemand) : Prop where
  topology : topologyOk devices demand = true
  /-- Where the demand lacks devices, so does what arrives, or it lacks capacity. -/
  count : countOk devices demand = false → countOk devices (sentDemand demand) = false ∨
    contiguityOk devices (sentDemand demand) = true ∧
      (effective.missingDimensions demand.requirements).head?.map missingKind = some .capacity
  /-- Where the demand lacks a block, so does what arrives. -/
  contiguity : countOk devices demand = true → contiguityOk devices demand = false →
    contiguityOk devices (sentDemand demand) = false
  /-- The last gates reject nothing. -/
  accepted : countOk devices demand = true → contiguityOk devices demand = true →
    effective.satisfies demand.requirements = true →
    fragmentationOk devices demand = true ∧ sloOk effective demand = true

section

variable {devices : List DeviceInfo} {effective : Capacity} {demand : WorkloadDemand}

theorem usableDevices_sublist_sent :
    List.Sublist (usableDevices devices demand) (usableDevices devices (sentDemand demand)) := by
  apply List.monotone_filter_right
  intro d hd
  unfold deviceCurrentlyUsable at hd ⊢
  have hcompatible : deviceCompatible d (sentDemand demand) = true := rfl
  rw [hcompatible]
  split_ifs at hd ⊢ <;> simp_all

theorem countOk_sent (h : countOk devices demand = true) :
    countOk devices (sentDemand demand) = true := by
  have hle : (usableDevices devices demand).length ≤
      (usableDevices devices (sentDemand demand)).length :=
    usableDevices_sublist_sent.length_le
  have hcount : (sentDemand demand).minAccelerators = demand.minAccelerators := rfl
  unfold countOk at h ⊢
  rw [hcount]
  simp only [Bool.not_eq_true', decide_eq_false_iff_not, not_lt] at h ⊢
  omega

theorem contiguityOk_sent (h : contiguityOk devices demand = true) :
    contiguityOk devices (sentDemand demand) = true := by
  have hrequired : (sentDemand demand).requiresContiguousVram = demand.requiresContiguousVram := rfl
  unfold contiguityOk at h ⊢
  rw [hrequired]
  rw [Bool.or_eq_true] at h ⊢
  refine h.imp_right fun hany => ?_
  obtain ⟨d, hd, hblock⟩ := List.any_eq_true.mp hany
  exact List.any_eq_true.mpr ⟨d, usableDevices_sublist_sent.subset hd, hblock⟩

theorem missingDimensions_sent :
    effective.missingDimensions (sentDemand demand).requirements =
      effective.missingDimensions demand.requirements :=
  effective.missingDimensions_congr demand.requirements.amount_withoutZeros

theorem satisfies_sent :
    effective.satisfies (sentDemand demand).requirements =
      effective.satisfies demand.requirements := by
  rw [Bool.eq_iff_iff, ← Capacity.missingDimensions_eq_nil_iff, missingDimensions_sent,
    Capacity.missingDimensions_eq_nil_iff]

theorem sloOk_sent [A : Arithmetic] : sloOk effective (sentDemand demand) = true :=
  if_neg (lt_irrefl 0)

theorem topologyOk_sent : topologyOk devices (sentDemand demand) = true := rfl

theorem fragmentationOk_sent [A : Arithmetic] :
    fragmentationOk devices (sentDemand demand) = true := rfl

theorem gatesOutcome_sent_eq_iff [A : Arithmetic] :
    gatesOutcome devices effective (sentDemand demand) = gatesOutcome devices effective demand ↔
      SurvivesWire devices effective demand := by
  constructor
  · intro h
    -- What arrives asks for no topology, so that gate must not have rejected.
    have htopology : topologyOk devices demand = true := by
      rw [← Bool.not_eq_false]
      intro hno
      have hreject : gatesOutcome devices effective demand = .noFitTopology :=
        gatesOutcome_eq_noFitTopology_iff.mpr hno
      rw [← h, gatesOutcome_eq_noFitTopology_iff, topologyOk_sent] at hreject
      exact Bool.noConfusion hreject
    refine ⟨htopology, fun hcount => ?_, fun hcount hblock => ?_, fun hcount hblock hs => ?_⟩
    · have hreject : gatesOutcome devices effective demand = .noFitCapacity :=
        (gatesOutcome_eq_noFitCapacity_iff htopology).mpr (Or.inl hcount)
      rw [← h, gatesOutcome_eq_noFitCapacity_iff topologyOk_sent, missingDimensions_sent]
        at hreject
      exact hreject
    · have hreject : gatesOutcome devices effective demand = .noFitFragmentation :=
        (gatesOutcome_eq_noFitFragmentation_iff htopology hcount).mpr (Or.inl hblock)
      rw [← h, gatesOutcome_eq_noFitFragmentation_iff topologyOk_sent (countOk_sent hcount)]
        at hreject
      refine hreject.resolve_right fun hlate => ?_
      rw [fragmentationOk_sent] at hlate
      exact Bool.noConfusion hlate.2
    · have haccept : gatesOutcome devices effective (sentDemand demand) = .fitNow :=
        gatesOutcome_eq_fitNow_iff.mpr ⟨topologyOk_sent, countOk_sent hcount,
          contiguityOk_sent hblock, satisfies_sent.trans hs, fragmentationOk_sent, sloOk_sent⟩
      rw [h, gatesOutcome_eq_fitNow_iff] at haccept
      exact haccept.2.2.2.2
  · intro hsurvives
    have htopology := hsurvives.topology
    cases hcount : countOk devices demand with
    | false =>
      rw [(gatesOutcome_eq_noFitCapacity_iff htopology).mpr (Or.inl hcount),
        gatesOutcome_eq_noFitCapacity_iff topologyOk_sent, missingDimensions_sent]
      exact hsurvives.count hcount
    | true =>
      cases hblock : contiguityOk devices demand with
      | false =>
        rw [(gatesOutcome_eq_noFitFragmentation_iff htopology hcount).mpr (Or.inl hblock),
          gatesOutcome_eq_noFitFragmentation_iff topologyOk_sent (countOk_sent hcount)]
        exact Or.inl (hsurvives.contiguity hcount hblock)
      | true =>
        rw [gatesOutcome_of_contiguityOk htopology hcount hblock,
          gatesOutcome_of_contiguityOk topologyOk_sent (countOk_sent hcount)
            (contiguityOk_sent hblock), missingDimensions_sent]
        cases hmissing : (effective.missingDimensions demand.requirements).head? with
        | some lim => rfl
        | none =>
          rw [List.head?_eq_none_iff, Capacity.missingDimensions_eq_nil_iff] at hmissing
          obtain ⟨hfragmentation, hslo⟩ := hsurvives.accepted hcount hblock hmissing
          rw [hfragmentation, hslo, fragmentationOk_sent, sloOk_sent]

end

theorem outcome_eq_of_not_fresh [A : Arithmetic] {view : FleetView} {d d' : WorkloadDemand}
    (hvalid : d.valid = true) (hvalid' : d'.valid = true) (hgate : freshnessGate view ≠ none) :
    (evaluateNow view d').outcome = (evaluateNow view d).outcome := by
  obtain ⟨result, hresult⟩ := Option.ne_none_iff_exists'.mp hgate
  rw [evaluateNow, evaluateNow, validityGate, validityGate, if_pos hvalid, if_pos hvalid', hresult]
  rfl

namespace CapacityModel

theorem valid_sent {d : WorkloadDemand} (h : d.valid = true) : (sentDemand d).valid = true := by
  unfold WorkloadDemand.valid at h ⊢
  rw [Bool.and_eq_true] at h
  rw [Bool.and_eq_true]
  exact ⟨h.1, rfl⟩

theorem outcome_future_sent [A : Arithmetic] (σ : EventSort) (view : FleetView)
    (d : WorkloadDemand) (mode : QueryMode) (t : TimePoint) :
    (evaluateFuture σ view (sentDemand d) mode t).outcome =
      (evaluateFuture σ view d mode t).outcome := by
  by_cases hfresh : view.freshness = .fresh
  · simp only [evaluateFuture, hfresh, satisfies_sent, ne_eq, not_true_eq_false, if_false]
    split_ifs <;> rfl
  · rw [evaluateFuture, evaluateFuture, if_pos hfresh, if_pos hfresh]

/-- A demand that went through the wire gets the verdict of the demand itself exactly
when no gate of the present path rejects it for what the wire drops. -/
theorem remote_feasibility_iff [A : Arithmetic] (σ : EventSort) (m : CapacityModel)
    {d : WorkloadDemand} (hvalid : d.valid = true)
    (hdoubles : ∀ dim, IsDouble (d.requirements.amount dim)) (mode : QueryMode) (t : TimePoint) :
    (∃ d', readDemand.run (writeDemand d) = some (d', []) ∧
      (m.queryFeasibility σ d' mode t).outcome = (m.queryFeasibility σ d mode t).outcome) ↔
    (t ≤ 0 → (m.buildView t).freshness = .fresh →
      SurvivesWire (m.buildView t).devices (effectiveCapacity (m.buildView t)) d) := by
  have hrun := (parses_readDemand hdoubles).run
  have harrives : (∃ d', readDemand.run (writeDemand d) = some (d', []) ∧
      (m.queryFeasibility σ d' mode t).outcome = (m.queryFeasibility σ d mode t).outcome) ↔
      (m.queryFeasibility σ (sentDemand d) mode t).outcome =
        (m.queryFeasibility σ d mode t).outcome := by
    rw [hrun]
    simp
  rw [harrives]
  by_cases ht : t ≤ 0
  · rw [queryFeasibility, queryFeasibility, if_pos ht, if_pos ht]
    show (evaluateNow _ _).outcome = (evaluateNow _ _).outcome ↔ _
    by_cases hfresh : (m.buildView t).freshness = .fresh
    · rw [outcome_of_fresh hvalid hfresh, outcome_of_fresh (valid_sent hvalid) hfresh,
        gatesOutcome_sent_eq_iff]
      exact ⟨fun h _ _ => h, fun h => h ht hfresh⟩
    · have hgate : freshnessGate (m.buildView t) ≠ none := by
        rw [Ne, freshnessGate_eq_none_iff]
        rcases freshness_buildView m t with h | h | h
        · exact absurd h hfresh
        · simp [h]
        · simp [h]
      exact iff_of_true (outcome_eq_of_not_fresh hvalid (valid_sent hvalid) hgate)
        fun _ h => absurd h hfresh
  · rw [queryFeasibility, queryFeasibility, if_neg ht, if_neg ht]
    exact iff_of_true (outcome_future_sent σ _ d mode t) fun h => absurd h ht

def capabilityDemand : WorkloadDemand :=
  { Reference.makeDemand ⟨1⟩ ⟨1⟩ 1 1 with requiredCapability := [120] }

theorem isDouble_capabilityDemand (dim : Dimension) :
    IsDouble (capabilityDemand.requirements.amount dim) := by
  have hamount : capabilityDemand.requirements.amount dim =
      if dim = .acceleratorCount then 1 else 0 :=
    Capacity.amount_setAmount (by decide) ∅ .acceleratorCount dim
  rw [hamount]
  split_ifs
  · exact ⟨0x3FF0000000000000, by decide +kernel⟩
  · exact isDouble_zero

theorem remote_feasibility_iff_capabilityDemand :
    (∃ d', readDemand.run (writeDemand capabilityDemand) = some (d', []) ∧
      (oneAccelerator.queryFeasibility (A := .double) (SortBy.stable _) d' .guaranteed
        0).outcome =
      (oneAccelerator.queryFeasibility (A := .double) (SortBy.stable _) capabilityDemand
        .guaranteed 0).outcome) ↔
    ((0 : TimePoint) ≤ 0 → (oneAccelerator.buildView (A := .double) 0).freshness = .fresh →
      SurvivesWire (A := .double) (oneAccelerator.buildView (A := .double) 0).devices
        (effectiveCapacity (A := .double) (oneAccelerator.buildView (A := .double) 0))
        capabilityDemand) :=
  remote_feasibility_iff (A := .double) _ _ (by decide +kernel) isDouble_capabilityDemand _ _

/-- The wire drops the capability: what does not fit locally fits remotely. -/
theorem capability_lost :
    ¬ ∀ (σ : EventSort) (m : CapacityModel), Reachable m → ∀ d : WorkloadDemand,
      d.valid = true → (∀ dim, IsDouble (d.requirements.amount dim)) →
      ∀ (mode : QueryMode) (t : TimePoint), ∃ d',
        readDemand.run (writeDemand d) = some (d', []) ∧
          (m.queryFeasibility (A := .double) σ d' mode t).outcome =
            (m.queryFeasibility (A := .double) σ d mode t).outcome := by
  intro h
  have hreachable : Reachable oneAccelerator := Runs.Reachable.init.run _
  obtain ⟨d', hrun, heq⟩ := h (SortBy.stable _) oneAccelerator hreachable capabilityDemand
    (by decide +kernel) isDouble_capabilityDemand .guaranteed 0
  have harrives := (parses_readDemand isDouble_capabilityDemand).run
  obtain rfl : sentDemand capabilityDemand = d' :=
    congrArg Prod.fst (Option.some.inj (harrives.symm.trans hrun))
  revert heq
  decide +kernel

end CapacityModel

end CapacityFabric
