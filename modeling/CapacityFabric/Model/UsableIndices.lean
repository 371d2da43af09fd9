import CapacityFabric.Model.NominalBound
import CapacityFabric.Model.UnusableEvidence

/-!
# Usable for the shape and usable at all

The analysis of the fleet leaves out what is Failed or of Unknown health, the gates leave
out what is Draining or in Maintenance as well.  The analysis reads two flags for these,
which the device records of a view never carry.
-/

namespace CapacityFabric

/-- Every device that the analysis lists is usable, and every usable device with the
demand's block is listed. -/
structure AgreesOnUsable (devices : List DeviceInfo) (demand : WorkloadDemand) : Prop where
  usable : ∀ i ∈ (analyzeFragmentation devices demand 0).usableDeviceIndices,
    ∃ v, devices[i]? = some v ∧ deviceCurrentlyUsable v demand = true
  listed : ∀ i v, devices[i]? = some v → deviceCurrentlyUsable v demand = true →
    (analyzeDeviceMemory v.freeBlocks demand.minContiguousVram).shapeSatisfiable = true →
      i ∈ (analyzeFragmentation devices demand 0).usableDeviceIndices

def WorkloadDemand.Unconstrained (demand : WorkloadDemand) : Prop :=
  demand.requiredCapability = [] ∧ demand.allowedClasses = []

theorem mem_usableDeviceIndices_scanDevices (perDevice : ByteCount) (devices : List DeviceInfo)
    (k : ℕ) (r : FragmentationReport) (i : ℕ) :
    i ∈ (scanDevices perDevice k r devices).usableDeviceIndices ↔
      i ∈ r.usableDeviceIndices ∨
        ∃ j v, devices[j]? = some v ∧ i = k + j ∧ fragmentationUsable perDevice v = true := by
  induction devices generalizing k r with
  | nil => simp [scanDevices]
  | cons d ds ih =>
    have hfirst : i ∈ (if fragmentationUsable perDevice d then r.usableDeviceIndices ++ [k]
          else r.usableDeviceIndices) ↔
        i ∈ r.usableDeviceIndices ∨ i = k ∧ fragmentationUsable perDevice d = true := by
      split_ifs with hd <;> simp [hd]
    rw [scanDevices, ih]
    simp only [apply_ite FragmentationReport.usableDeviceIndices, ite_self]
    rw [hfirst, or_assoc]
    apply or_congr_right
    constructor
    · rintro (⟨hi, hd⟩ | ⟨j, v, hv, hi, husable⟩)
      · exact ⟨0, d, rfl, hi, hd⟩
      · exact ⟨j + 1, v, hv, by omega, husable⟩
    · rintro ⟨j, v, hv, hi, husable⟩
      cases j with
      | zero =>
        obtain rfl := Option.some.inj hv
        exact Or.inl ⟨hi, husable⟩
      | succ j => exact Or.inr ⟨j, v, hv, by omega, husable⟩

theorem mem_usableDeviceIndices {devices : List DeviceInfo} {demand : WorkloadDemand} {i : ℕ} :
    i ∈ (analyzeFragmentation devices demand 0).usableDeviceIndices ↔
      ∃ v, devices[i]? = some v ∧ fragmentationUsable demand.minContiguousVram v = true := by
  refine (mem_usableDeviceIndices_scanDevices demand.minContiguousVram devices 0 {} i).trans ?_
  simp

/-- The lists agree when the two notions of a usable device do, for every device with
the block. -/
theorem agreesOnUsable_iff {devices : List DeviceInfo} {demand : WorkloadDemand} :
    AgreesOnUsable devices demand ↔ ∀ v ∈ devices,
      (analyzeDeviceMemory v.freeBlocks demand.minContiguousVram).shapeSatisfiable = true →
        (fragmentationUsable demand.minContiguousVram v = true ↔
          deviceCurrentlyUsable v demand = true) := by
  constructor
  · intro h v hv hshape
    obtain ⟨i, hi⟩ := List.mem_iff_getElem?.mp hv
    constructor
    · intro husable
      obtain ⟨w, hw, hcurrent⟩ := h.usable i (mem_usableDeviceIndices.mpr ⟨v, hi, husable⟩)
      exact Option.some.inj (hi.symm.trans hw) ▸ hcurrent
    · intro hcurrent
      obtain ⟨w, hw, husable⟩ := mem_usableDeviceIndices.mp (h.listed i v hi hcurrent hshape)
      exact Option.some.inj (hi.symm.trans hw) ▸ husable
  · intro h
    constructor
    · intro i hi
      obtain ⟨v, hv, husable⟩ := mem_usableDeviceIndices.mp hi
      have hshape := shapeSatisfiable_of_usable husable
      exact ⟨v, hv, (h v (List.mem_of_getElem? hv) hshape).mp husable⟩
    · intro i v hv hcurrent hshape
      have husable := (h v (List.mem_of_getElem? hv) hshape).mpr hcurrent
      exact mem_usableDeviceIndices.mpr ⟨v, hv, husable⟩

/-- Of devices without flags the two differ on Draining and Maintenance only. -/
theorem fragmentationUsable_iff_currentlyUsable {v : DeviceInfo} {demand : WorkloadDemand}
    (hdemand : demand.Unconstrained) (hdrained : v.drained = false)
    (hmaintenance : v.maintenance = false)
    (hshape : (analyzeDeviceMemory v.freeBlocks demand.minContiguousVram).shapeSatisfiable =
      true) :
    (fragmentationUsable demand.minContiguousVram v = true ↔
        deviceCurrentlyUsable v demand = true) ↔
      v.health ≠ .draining ∧ v.health ≠ .maintenance := by
  have hcompatible : deviceCompatible v demand = true := by
    rw [deviceCompatible, hdemand.1, hdemand.2]
    rfl
  unfold fragmentationUsable deviceCurrentlyUsable
  rw [hshape, hdrained, hmaintenance, hcompatible]
  cases v.health <;> simp [HealthState.unusable]

namespace CapacityModel

/-- The resource decides the record of its device: none of a larger id is on it. -/
def DecidesDevice (resources : OrderedMap ResourceId ResourceInfo) (r : ResourceInfo) : Prop :=
  ∃ id, resources.find? id = some r ∧
    ∀ id' r', resources.find? id' = some r' → r'.deviceId = r.deviceId → id' ≤ id

theorem mem_devices_buildView_iff {m : CapacityModel} {now : TimePoint} {v : DeviceInfo} :
    v ∈ (m.buildView now).devices ↔
      ∃ r, DecidesDevice m.resources r ∧ v = m.viewDevice r := by
  refine mem_viewDevices_iff.trans (exists_congr fun r => and_congr_left' ?_)
  refine OrderedMap.getLast?_filter_values.trans ?_
  simp only [decide_eq_true_eq, true_and]
  rfl

theorem agreesOnUsable_buildView_iff {m : CapacityModel} (h : Reachable m) (now : TimePoint)
    {demand : WorkloadDemand} (hdemand : demand.Unconstrained) :
    AgreesOnUsable (m.buildView now).devices demand ↔ ∀ r, DecidesDevice m.resources r →
      (analyzeDeviceMemory r.freeBlocks demand.minContiguousVram).shapeSatisfiable = true →
        r.health ≠ .draining ∧ r.health ≠ .maintenance := by
  rw [agreesOnUsable_iff]
  constructor
  · intro hagrees r hr hshape
    have hflags := unflagged_viewDevice h r
    exact (fragmentationUsable_iff_currentlyUsable (v := m.viewDevice r) hdemand hflags.1 hflags.2
      hshape).mp (hagrees _ (mem_devices_buildView_iff.mpr ⟨r, hr, rfl⟩) hshape)
  · intro hhealth v hv hshape
    obtain ⟨r, hr, rfl⟩ := mem_devices_buildView_iff.mp hv
    have hflags := unflagged_viewDevice h r
    exact (fragmentationUsable_iff_currentlyUsable hdemand hflags.1 hflags.2 hshape).mpr
      (hhealth r hr hshape)

/-- No resource that decides the record of its device is Draining or in Maintenance. -/
def NoneDraining (resources : OrderedMap ResourceId ResourceInfo) : Prop :=
  ∀ r, DecidesDevice resources r → r.health ≠ .draining ∧ r.health ≠ .maintenance

theorem agreesOnUsable_all_iff {m : CapacityModel} (h : Reachable m) :
    (∀ now demand, demand.Unconstrained → AgreesOnUsable (m.buildView now).devices demand) ↔
      NoneDraining m.resources := by
  constructor
  · intro hagrees r hr
    have hplain : (plainDemand ∅ 1).Unconstrained := ⟨rfl, rfl⟩
    have hshape : (analyzeDeviceMemory r.freeBlocks 0).shapeSatisfiable = true :=
      shapeSatisfiable_iff.mpr UInt64.zero_le
    exact (agreesOnUsable_buildView_iff h 0 hplain).mp (hagrees 0 _ hplain) r hr hshape
  · intro hnone now demand hdemand
    exact (agreesOnUsable_buildView_iff h now hdemand).mpr fun r hr _ => hnone r hr

/-- A resource that is written, by an accepted publication or a load, leaves no Draining
resource and none in Maintenance to decide the record of a device. -/
def WritesNoneDraining (m : CapacityModel) : ModelOp → Prop
  | .publishResource r => (m.publishResource r).2 = true → NoneDraining (m.resources.insert r.id r)
  | .load bytes => NoneDraining (m.load bytes).1.resources
  | _ => True

theorem DecidesDevice.of_insert {resources : OrderedMap ResourceId ResourceInfo}
    {id : ResourceId} {r r' x : ResourceInfo} (hr : resources.find? id = some r)
    (hdevice : r'.deviceId = r.deviceId) (h : DecidesDevice (resources.insert id r') x) :
    x = r' ∧ DecidesDevice resources r ∨ DecidesDevice resources x := by
  obtain ⟨k, hk, hmax⟩ := h
  -- Every resource that was on the device still is, under its id.
  have hlast : ∀ k' y, resources.find? k' = some y → y.deviceId = x.deviceId → k' ≤ k := by
    intro k' y hy hid
    by_cases hk' : k' = id
    · subst hk'
      obtain rfl := Option.some.inj (hr.symm.trans hy)
      exact hmax k' r' (OrderedMap.find?_insert_self _ _ _) (hdevice.trans hid)
    · exact hmax k' y ((OrderedMap.find?_insert_of_ne _ _ hk').trans hy) hid
  rw [OrderedMap.find?_insert] at hk
  split_ifs at hk with hkid
  · obtain rfl := Option.some.inj hk
    exact Or.inl ⟨rfl, k, hkid ▸ hr, fun k' y hy hid => hlast k' y hy (hid.trans hdevice.symm)⟩
  · exact Or.inr ⟨k, hk, hlast⟩

theorem NoneDraining.advance {resources : OrderedMap ResourceId ResourceInfo} {id : ResourceId}
    {r : ResourceInfo} (h : NoneDraining resources) (hr : resources.find? id = some r)
    (gen : ResourceGeneration) :
    NoneDraining (resources.insert id { r with generation := gen }) := by
  intro x hx
  have hdevice : ({ r with generation := gen } : ResourceInfo).deviceId = r.deviceId := rfl
  rcases hx.of_insert hr hdevice with ⟨rfl, hdecides⟩ | hdecides
  · exact h r hdecides
  · exact h x hdecides

theorem noneDraining_step_iff {m : CapacityModel} (h : NoneDraining m.resources) (op : ModelOp) :
    NoneDraining (m.step op).resources ↔ m.WritesNoneDraining op := by
  have hpublish : ∀ r, m.step (.publishResource r) = (m.publishResource r).1 := fun _ => rfl
  rcases step_cases m op with ⟨bytes, rfl, heq⟩ | heq | haccepted
  · rw [heq]
    rfl
  · refine iff_of_true (heq.symm ▸ h) ?_
    cases op with
    | publishResource r =>
      intro haccepted
      have hinsert : (m.publishResource r).1.resources = m.resources.insert r.id r := by
        rw [publishResource_eq] at haccepted ⊢
        split_ifs at haccepted ⊢
        rfl
      rw [← hinsert, ← hpublish, heq]
      exact h
    | load bytes =>
      show NoneDraining (m.step (.load bytes)).resources
      rw [heq]
      exact h
    | _ => trivial
  · generalize hm' : m.step op = m' at haccepted ⊢
    cases haccepted with
    | @publishResource r hboot hgen =>
      have haccepted : (m.publishResource r).2 = true := by
        rw [publishResource_eq, hboot, hgen]
        rfl
      exact ⟨fun h _ => h, fun h => h haccepted⟩
    | advanceResourceGeneration hr => exact iff_of_true (h.advance hr _) trivial
    | _ => exact iff_of_true h trivial

/-- A view and the analysis of its devices agree on what is usable exactly when no
resource that decides the record of its device has the shape while it is Draining or in
Maintenance; they agree along a run exactly when no write leaves such a resource. -/
theorem usable_indices_iff (ops : List ModelOp) :
    (∀ now demand, demand.Unconstrained →
      (AgreesOnUsable ((Runs.run step {} ops).buildView now).devices demand ↔
        ∀ r, DecidesDevice (Runs.run step {} ops).resources r →
          (analyzeDeviceMemory r.freeBlocks demand.minContiguousVram).shapeSatisfiable = true →
            r.health ≠ .draining ∧ r.health ≠ .maintenance)) ∧
    ((∀ before, before <+: ops → ∀ now demand, demand.Unconstrained →
        AgreesOnUsable ((Runs.run step {} before).buildView now).devices demand) ↔
      Runs.Always step WritesNoneDraining {} ops) := by
  have hreachable : ∀ before : List ModelOp, Reachable (Runs.run step {} before) :=
    fun before => Runs.Reachable.init.run before
  refine ⟨fun now demand hdemand => agreesOnUsable_buildView_iff (hreachable ops) now hdemand, ?_⟩
  have hempty : NoneDraining ({} : CapacityModel).resources := fun r hr => by
    obtain ⟨id, hid, -⟩ := hr
    simp at hid
  rw [← Runs.forall_prefix_iff_always (φ := fun m => NoneDraining m.resources)
    (fun m op h _ => noneDraining_step_iff h op) hempty (Runs.always_true _ _)]
  exact forall_congr' fun before => forall_congr' fun _ =>
    agreesOnUsable_all_iff (hreachable before)

def drainingDevice : ResourceInfo :=
  Reference.makeResource ⟨1⟩ ⟨1⟩ ⟨1⟩ ⟨1⟩ ⟨1⟩ ⟨1⟩ ⟨1⟩ {} 16 8 [8] .draining

theorem draining_device_listed :
    ¬ ∀ m : CapacityModel, Reachable m → ∀ now demand, demand.Unconstrained →
      AgreesOnUsable (m.buildView now).devices demand := by
  intro h
  have hreachable : Reachable (publishedOnce drainingDevice) := Runs.Reachable.init.run _
  obtain ⟨v, hv, husable⟩ :=
    (h _ hreachable 0 { plainDemand ∅ 1 with minContiguousVram := 8 } ⟨rfl, rfl⟩).usable 0
      (by decide +kernel)
  have hfirst : (((publishedOnce drainingDevice).buildView 0).devices[0]?.any fun v =>
      deviceCurrentlyUsable v { plainDemand ∅ 1 with minContiguousVram := 8 }) = true := by
    rw [hv]
    exact husable
  revert hfirst
  decide +kernel

end CapacityModel

end CapacityFabric
