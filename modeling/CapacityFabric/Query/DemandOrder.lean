import CapacityFabric.Query.Monotone

/-!
# Demands that ask for less

A demand that is no stricter than one that fits now fits now as well.
-/

namespace CapacityFabric

/-- The demand asks for the same kind of devices as the primed one, and for no more in
any other respect. -/
structure NoStricter (demand demand' : WorkloadDemand) : Prop where
  capability : demand.requiredCapability = demand'.requiredCapability
  classes : demand.allowedClasses = demand'.allowedClasses
  requirements : ∀ d, demand.requirements.amount d ≤ demand'.requirements.amount d
  count : demand.minAccelerators ≤ demand'.minAccelerators
  groupSize : ∀ size, demand.topologyGroupSize = some size →
    ∃ size', demand'.topologyGroupSize = some size' ∧ size ≤ size'
  contiguous : demand.requiresContiguousVram = true → demand'.requiresContiguousVram = true
  block : demand.minContiguousVram ≤ demand'.minContiguousVram
  headroom : demand.sloHeadroomRequirement.value ≤ demand'.sloHeadroomRequirement.value
  fragmentation : ∀ f, demand.maxAcceptableFragmentation = some (.finite f) →
    ∃ f', demand'.maxAcceptableFragmentation = some (.finite f') ∧ f' ≤ f

section

variable [A : Arithmetic] {demand demand' : WorkloadDemand}

omit [A : Arithmetic] in
theorem NoStricter.usableDevices (h : NoStricter demand demand') (devices : List DeviceInfo) :
    usableDevices devices demand = usableDevices devices demand' := by
  unfold CapacityFabric.usableDevices deviceCurrentlyUsable deviceCompatible
  rw [h.capability, h.classes]

theorem NoStricter.fragmentationOk (h : NoStricter demand demand') {devices : List DeviceInfo}
    (hok : fragmentationOk devices demand' = true) : fragmentationOk devices demand = true := by
  unfold CapacityFabric.fragmentationOk at hok ⊢
  cases hf : demand.maxAcceptableFragmentation with
  | none => rfl
  | some tolerance =>
    cases tolerance with
    | nonFinite => rfl
    | finite f =>
      obtain ⟨f', hf', hle⟩ := h.fragmentation f hf
      rw [hf'] at hok
      simp only [Bool.not_eq_true', decide_eq_false_iff_not, not_lt, gt_iff_lt] at hok ⊢
      calc (analyzeFragmentation devices demand 0).fragmentationRatio
          ≤ (analyzeFragmentation devices demand' 0).fragmentationRatio :=
            fragmentationRatio_mono h.block devices
        _ ≤ f' := hok
        _ ≤ f := hle

/-- What a demand built by `setAmount` stores after placement, a stricter one stores too. -/
theorem NoStricter.stored (h : NoStricter demand demand')
    (hbuilt : demand.requirements.StoresNoZero) (effective : Capacity) {d : Dimension}
    (hd : (effective.subtractClamp demand.requirements).has d = true) :
    (effective.subtractClamp demand'.requirements).has d = true := by
  rw [Capacity.has_subtractClamp, Bool.or_eq_true] at hd ⊢
  refine hd.imp_right fun hrequired => ?_
  have hpos : 0 < demand.requirements.amount d := hbuilt d hrequired
  exact Capacity.has_of_amount_pos (hpos.trans_le (h.requirements d))

theorem NoStricter.eases (h : NoStricter demand demand')
    (hbuilt : demand.requirements.StoresNoZero) (devices : List DeviceInfo)
    (effective : Capacity) : Eases devices devices effective effective demand' demand where
  usable := by rw [h.usableDevices]
  groupSize := h.groupSize
  count := h.count
  contiguous := h.contiguous
  block := h.block
  amounts _ := le_rfl
  requirements := h.requirements
  required d hd := Capacity.has_of_amount_pos ((hbuilt d hd).trans_le (h.requirements d))
  fragmentation := h.fragmentationOk
  headroom := h.headroom
  stored _ hd := Or.inl (h.stored hbuilt effective hd)

end

/-- Feasibility is antitone in the demand. -/
theorem fitNow_of_noStricter [A : Arithmetic] {view : FleetView} {demand demand' : WorkloadDemand}
    (hvalid : demand.valid = true) (hbuilt : demand.requirements.BuiltBySetAmount)
    (h : NoStricter demand demand') (hfit : (evaluateNow view demand').outcome = .fitNow) :
    (evaluateNow view demand).outcome = .fitNow := by
  rw [outcome_eq_fitNow_iff] at hfit ⊢
  obtain ⟨-, hfreshness, hgates⟩ := hfit
  exact ⟨hvalid, hfreshness,
    (h.eases hbuilt.storesNoZero view.devices (effectiveCapacity view)).fitNow hgates⟩

def oneBlock (block : ByteCount) : WorkloadDemand := Reference.makeDemand ⟨1⟩ ⟨1⟩ 1 1 true block

theorem oneBlock_requirements (block : ByteCount) :
    (oneBlock block).requirements.BuiltBySetAmount :=
  Capacity.builtBySetAmount_setAmount .acceleratorCount (toUInt64 1).toNat

theorem oneBlock_noStricter : NoStricter (oneBlock 2) (oneBlock 8) where
  capability := rfl
  classes := rfl
  requirements _ := le_rfl
  count := le_rfl
  groupSize _ hsize := by cases hsize
  contiguous _ := rfl
  block := by decide
  headroom := le_rfl
  fragmentation _ hf := by cases hf

theorem fitNow_of_noStricter_oneBlock :
    (evaluateNow oneLargeBlock (oneBlock 2)).outcome = .fitNow :=
  fitNow_of_noStricter (by decide +kernel) (oneBlock_requirements 2) oneBlock_noStricter
    (by decide +kernel)

end CapacityFabric
