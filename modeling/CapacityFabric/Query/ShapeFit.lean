import CapacityFabric.Query.Verdict

/-!
# A fit and the shape

The contiguity gate stops at the first usable device with a large enough block, the
analysis of the fleet counts every such device against the demand.
-/

namespace CapacityFabric

/-- The devices that have the demand's block, as the analysis counts them. -/
def shapedDevices (devices : List DeviceInfo) (demand : WorkloadDemand) : List DeviceInfo :=
  devices.filter (fragmentationUsable demand.minContiguousVram)

theorem usableDevices_scanDevices (perDevice : ByteCount) (devices : List DeviceInfo) (i : ℕ)
    (r : FragmentationReport) :
    (scanDevices perDevice i r devices).usableDevices =
      r.usableDevices + UInt64.ofNat (devices.filter (fragmentationUsable perDevice)).length := by
  induction devices generalizing i r with
  | nil => exact (UInt64.add_zero _).symm
  | cons d ds ih =>
    rw [scanDevices, ih]
    by_cases hd : fragmentationUsable perDevice d = true
    · simp only [hd, if_true, apply_ite FragmentationReport.usableDevices, ite_self,
        List.filter_cons_of_pos, List.length_cons, UInt64.ofNat_add]
      rw [UInt64.add_assoc, UInt64.add_comm (UInt64.ofNat _)]
      rfl
    · simp only [hd, if_false, apply_ite FragmentationReport.usableDevices, ite_self,
        List.filter_cons_of_neg, not_false_eq_true, Bool.false_eq_true]

theorem usableDevices_analyze [Arithmetic] (devices : List DeviceInfo) (demand : WorkloadDemand)
    (groupSize : ℕ) :
    (analyzeFragmentation devices demand groupSize).usableDevices =
      UInt64.ofNat (shapedDevices devices demand).length := by
  have hloop := usableDevices_scanDevices demand.minContiguousVram devices 0 {}
  rw [show ({} : FragmentationReport).usableDevices = 0 from rfl, UInt64.zero_add] at hloop
  exact hloop

theorem groupSatisfiable_iff [A : Arithmetic] {devices : List DeviceInfo}
    {demand : WorkloadDemand} :
    (analyzeFragmentation devices demand 0).groupSatisfiable = true ↔
      demand.minAccelerators ≤ UInt64.ofNat (shapedDevices devices demand).length := by
  rw [← usableDevices_analyze devices demand 0]
  simp only [analyzeFragmentation, decide_eq_true_eq, true_or, and_true, ge_iff_le]

theorem largest_scanBlocks (blocks : List ByteCount) (total largest : ByteCount) :
    (scanBlocks total largest blocks).2 = largest ∨
      (scanBlocks total largest blocks).2 ∈ blocks := by
  induction blocks generalizing total largest with
  | nil => exact Or.inl rfl
  | cons b bs ih =>
    rw [scanBlocks]
    cases ByteCount.add total b with
    | none => exact Or.inl rfl
    | some t =>
      by_cases hb : b > largest
      · rw [if_pos hb]
        exact Or.inr (List.mem_cons.mpr (ih t b))
      · rw [if_neg hb]
        exact (ih t largest).imp_right (List.mem_cons_of_mem b)

theorem shapeSatisfiable_iff {blocks : List ByteCount} {required : ByteCount} :
    (analyzeDeviceMemory blocks required).shapeSatisfiable = true ↔
      required ≤ (scanBlocks 0 0 blocks).2 := by
  unfold analyzeDeviceMemory
  rw [apply_ite FragmentationReport.shapeSatisfiable, ite_self]
  split_ifs with hzero hlargest
  · simp [hzero]
  · simpa using hlargest
  · simpa using hlargest

theorem shapeSatisfiable_of_usable {perDevice : ByteCount} {d : DeviceInfo}
    (hd : fragmentationUsable perDevice d = true) :
    (analyzeDeviceMemory d.freeBlocks perDevice).shapeSatisfiable = true := by
  simp only [fragmentationUsable, Bool.and_eq_true] at hd
  exact hd.1.1.1.1

theorem exists_block_of_shaped {d : DeviceInfo} {required : ByteCount} (hrequired : required ≠ 0)
    (hd : fragmentationUsable required d = true) : ∃ b ∈ d.freeBlocks, required ≤ b := by
  have hlargest := shapeSatisfiable_iff.mp (shapeSatisfiable_of_usable hd)
  rcases largest_scanBlocks d.freeBlocks 0 0 with hzero | hmem
  · rw [hzero] at hlargest
    exact absurd (UInt64.le_zero_iff.mp hlargest) hrequired
  · exact ⟨_, hmem, hlargest⟩

theorem minAccelerators_ne_zero {demand : WorkloadDemand} (hvalid : demand.valid = true) :
    demand.minAccelerators ≠ 0 := by
  intro hzero
  simp [WorkloadDemand.valid, hzero] at hvalid

theorem minContiguousVram_ne_zero {demand : WorkloadDemand} (hvalid : demand.valid = true)
    (hcontiguous : demand.requiresContiguousVram = true) : demand.minContiguousVram ≠ 0 := by
  intro hzero
  simp [WorkloadDemand.valid, hcontiguous, hzero] at hvalid

/-- The demand asks for as many devices of the same kind as the shape, each with a block of
the same size. -/
structure HasShape (demand shape : WorkloadDemand) : Prop where
  capability : demand.requiredCapability = shape.requiredCapability
  classes : demand.allowedClasses = shape.allowedClasses
  count : demand.minAccelerators = shape.minAccelerators
  contiguous : demand.requiresContiguousVram = true
  block : demand.minContiguousVram = shape.minContiguousVram

/-- The shape fits: enough devices have its block, by the analysis and one by one. -/
def ShapeFits [A : Arithmetic] (devices : List DeviceInfo) (demand : WorkloadDemand) : Prop :=
  (analyzeFragmentation devices demand 0).groupSatisfiable = true ∧
    demand.minAccelerators.toNat ≤ (devices.filter fun v =>
      v.freeBlocks.any fun b => demand.minContiguousVram ≤ b).length

/-- In every view of the devices, a fit of a demand of the shape is a fit of the shape. -/
def FitMeansShape [A : Arithmetic] (devices : List DeviceInfo) (shape : WorkloadDemand) : Prop :=
  ∀ (view : FleetView) (demand : WorkloadDemand), view.devices = devices →
    HasShape demand shape → demand.valid = true → (evaluateNow view demand).outcome = .fitNow →
    ShapeFits view.devices demand

/-- Too few devices are usable or none of them has the block, whatever view they are in; or
enough devices that the analysis takes for usable have it. -/
def ShapeDecided (devices : List DeviceInfo) (shape : WorkloadDemand) : Prop :=
  (usableDevices devices shape).length < shape.minAccelerators.toNat ∨
    (∀ v ∈ usableDevices devices shape,
      (scanBlocks 0 0 v.freeBlocks).2 < shape.minContiguousVram) ∨
    shape.minAccelerators ≤ UInt64.ofNat (shapedDevices devices shape).length

section

variable {view : FleetView} {demand : WorkloadDemand}

theorem contiguityOk_iff {devices : List DeviceInfo}
    (hcontiguous : demand.requiresContiguousVram = true) :
    contiguityOk devices demand = true ↔ ∃ v ∈ usableDevices devices demand,
      demand.minContiguousVram ≤ (scanBlocks 0 0 v.freeBlocks).2 := by
  rw [contiguityOk, hcontiguous, Bool.not_true, Bool.false_or, List.any_eq_true]
  simp only [shapeSatisfiable_iff]

theorem shapedDevices_length_le (hrequired : demand.minContiguousVram ≠ 0)
    (devices : List DeviceInfo) :
    (shapedDevices devices demand).length ≤
      (devices.filter fun v => v.freeBlocks.any fun b => demand.minContiguousVram ≤ b).length := by
  apply List.Sublist.length_le
  apply List.monotone_filter_right
  intro v hv
  obtain ⟨b, hb, hle⟩ := exists_block_of_shaped hrequired hv
  exact List.any_eq_true.mpr ⟨b, hb, decide_eq_true hle⟩

theorem HasShape.usableDevices_eq {shape : WorkloadDemand} (h : HasShape demand shape)
    (devices : List DeviceInfo) : usableDevices devices demand = usableDevices devices shape := by
  unfold usableDevices deviceCurrentlyUsable deviceCompatible
  rw [h.capability, h.classes]

theorem shapeFits_iff [A : Arithmetic] {devices : List DeviceInfo}
    (hrequired : demand.minContiguousVram ≠ 0) :
    ShapeFits devices demand ↔
      demand.minAccelerators ≤ UInt64.ofNat (shapedDevices devices demand).length := by
  rw [ShapeFits, groupSatisfiable_iff]
  refine and_iff_left_of_imp fun hcount => le_trans ?_ (shapedDevices_length_le hrequired devices)
  calc demand.minAccelerators.toNat
      ≤ (UInt64.ofNat (shapedDevices devices demand).length).toNat :=
        UInt64.le_iff_toNat_le.mp hcount
    _ ≤ (shapedDevices devices demand).length := by
        rw [UInt64.toNat_ofNat']
        exact Nat.mod_le _ _

/-- A fit means that the shape fits, in all views of the devices, exactly when the devices
decide it. -/
theorem fitNow_shape_iff [A : Arithmetic] {devices : List DeviceInfo} {shape : WorkloadDemand}
    (hvalid : shape.valid = true) (hcontiguous : shape.requiresContiguousVram = true) :
    FitMeansShape devices shape ↔ ShapeDecided devices shape := by
  have hrequired := minContiguousVram_ne_zero hvalid hcontiguous
  constructor
  · intro h
    by_contra hundecided
    simp only [ShapeDecided, not_or, not_lt, not_forall] at hundecided
    obtain ⟨hcount, ⟨v, hv, hblock⟩, hfew⟩ := hundecided
    -- In a view without reservations, a demand for no amount of capacity fits.
    let demand : WorkloadDemand :=
      { probe shape.requiredCapability shape.allowedClasses with
        minAccelerators := shape.minAccelerators
        requiresContiguousVram := true
        minContiguousVram := shape.minContiguousVram }
    have hshape : HasShape demand shape := ⟨rfl, rfl, rfl, rfl, rfl⟩
    have hvalid' : demand.valid = true := by
      simp [demand, WorkloadDemand.valid, probe, StrongId.valid, Generation.valid,
        WorkloadDemand.fragmentationToleranceValid, minAccelerators_ne_zero hvalid, hrequired]
    have hfit : (evaluateNow { devices := devices } demand).outcome = .fitNow := by
      rw [outcome_of_fresh hvalid' rfl, gatesOutcome_of_noAmounts rfl (lt_irrefl 0), countOk_iff,
        contiguityOk_iff rfl]
      exact ⟨rfl, hcount, ⟨v, hv, hblock⟩, rfl⟩
    have hfits := h { devices := devices } demand rfl hshape hvalid' hfit
    exact hfew ((shapeFits_iff hrequired).mp hfits)
  · rintro h view demand rfl hshape hdemand hfit
    have husable := hshape.usableDevices_eq view.devices
    obtain ⟨-, -, hgates⟩ := outcome_eq_fitNow_iff.mp hfit
    rw [gatesOutcome_eq_fitNow_iff, countOk_iff, contiguityOk_iff hshape.contiguous, husable,
      hshape.count, hshape.block] at hgates
    obtain ⟨-, hcount, ⟨v, hv, hblock⟩, -⟩ := hgates
    have hshaped : shapedDevices view.devices demand = shapedDevices view.devices shape := by
      unfold shapedDevices
      rw [hshape.block]
    rw [shapeFits_iff (hshape.block ▸ hrequired), hshaped, hshape.count]
    rcases h with hfew | hnone | henough
    · exact absurd hcount hfew.not_ge
    · exact absurd hblock (hnone v hv).not_ge
    · exact henough

end

def oneLargeBlock : FleetView where
  devices :=
    [{ id := ⟨1⟩, health := .healthy, freeBlocks := [8] },
      { id := ⟨2⟩, health := .healthy, freeBlocks := [1] }]
  available := Capacity.setAccelerators ∅ 2

def twoLargeBlocks : WorkloadDemand := Reference.makeDemand ⟨1⟩ ⟨1⟩ 2 2 true 8

theorem fitNow_shape_iff_oneLargeBlock :
    FitMeansShape (A := .double) oneLargeBlock.devices twoLargeBlocks ↔
      ShapeDecided oneLargeBlock.devices twoLargeBlocks :=
  fitNow_shape_iff (A := .double) (by decide +kernel) (by decide +kernel)

theorem one_block_fits_two :
    ¬ ∀ (view : FleetView) (demand : WorkloadDemand), demand.valid = true →
      demand.requiresContiguousVram = true →
      (evaluateNow (A := .double) view demand).outcome = .fitNow →
        (analyzeFragmentation (A := .double) view.devices demand 0).groupSatisfiable = true := by
  intro h
  have hshape := h oneLargeBlock twoLargeBlocks (by decide +kernel) (by decide +kernel)
    (by decide +kernel)
  revert hshape
  decide +kernel

end CapacityFabric
