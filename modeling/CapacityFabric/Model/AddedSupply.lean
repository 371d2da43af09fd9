import CapacityFabric.Model.CheckedViews
import CapacityFabric.Model.UnusableEvidence

/-!
# Publishing adds no obstacle but its sums

The publication of a resource on a device of its own adds a device to the view and,
while its worker is alive, its free capacity to what is available.  But the view raises
when a sum with the new resource is not finite.
-/

namespace CapacityFabric

namespace CapacityModel

/-- The model after a publication that took effect. -/
def withPublished (m : CapacityModel) (r : ResourceInfo) : CapacityModel :=
  { m with
    resourceGen := (m.resourceGen.advance r.id r.generation).1
    resources := m.resources.insert r.id r
    devices := m.devices.insert r.deviceId (publishedDevice r) }

section

variable {m : CapacityModel} {r : ResourceInfo}

theorem find?_withPublished : (m.withPublished r).resources.find? r.id = some r :=
  OrderedMap.find?_insert_self m.resources r.id r

theorem resources_withoutPublished (hnew : m.resources.find? r.id = none) :
    ((m.withPublished r).withoutResource r.id).resources = m.resources := by
  apply OrderedMap.ext_find?
  intro id
  change ((m.resources.insert r.id r).erase r.id).find? id = m.resources.find? id
  rw [OrderedMap.find?_erase]
  by_cases hid : id = r.id
  · rw [if_pos hid, hid, hnew]
  · rw [if_neg hid, OrderedMap.find?_insert_of_ne _ _ hid]

theorem currentResources_withoutPublished (hnew : m.resources.find? r.id = none) :
    ((m.withPublished r).withoutResource r.id).currentResources = m.currentResources := by
  unfold currentResources
  rw [resources_withoutPublished hnew]

theorem ownsDevice_withPublished (hdevice : ∀ x ∈ m.currentResources, x.deviceId ≠ r.deviceId) :
    (m.withPublished r).OwnsDevice r.id r := by
  intro id x hx hsame
  by_contra hid
  change (m.resources.insert r.id r).find? id = some x at hx
  rw [OrderedMap.find?_insert_of_ne _ _ hid] at hx
  have hmem : x ∈ m.currentResources :=
    List.mem_map.mpr ⟨(id, x), OrderedMap.find?_eq_some_iff.mp hx, rfl⟩
  exact hdevice x hmem hsame

theorem viewDevices_withoutPublished (hnew : m.resources.find? r.id = none)
    (hdevice : ∀ x ∈ m.currentResources, x.deviceId ≠ r.deviceId) :
    ((m.withPublished r).withoutResource r.id).viewDevices
        ((m.withPublished r).withoutResource r.id).currentResources =
      m.viewDevices m.currentResources := by
  have hindex : ((m.withPublished r).withoutResource r.id).deviceIndex m.currentResources =
      m.deviceIndex m.currentResources := by
    apply List.foldl_ext
    intro index x hx
    have hview : ((m.withPublished r).withoutResource r.id).viewDevice x = m.viewDevice x :=
      viewDevice_congr
        (OrderedMap.find?_insert_of_ne m.devices (publishedDevice r) (hdevice x hx))
    rw [hview]
  rw [currentResources_withoutPublished hnew, viewDevices, hindex]
  rfl

theorem usableDevices_withPublished (hnew : m.resources.find? r.id = none)
    (hdevice : ∀ x ∈ m.currentResources, x.deviceId ≠ r.deviceId) (d : WorkloadDemand) :
    (usableDevices (m.buildView 0).devices d).Subperm
      (usableDevices ((m.withPublished r).buildView 0).devices d) := by
  have hperm := perm_viewDevices find?_withPublished (ownsDevice_withPublished hdevice)
  rw [viewDevices_withoutPublished hnew hdevice] at hperm
  apply List.Subperm.filter
  exact hperm.subperm_left.mpr List.Subperm.cons_self

theorem currentResources_sublist (hnew : m.resources.find? r.id = none) :
    m.currentResources.Sublist (m.withPublished r).currentResources := by
  have herase := OrderedMap.entries_erase (m.withPublished r).resources r.id
  have hentries : m.resources.entries =
      (m.withPublished r).resources.entries.filter fun p => p.1 ≠ r.id :=
    (congrArg OrderedMap.entries (resources_withoutPublished hnew)).symm.trans herase
  rw [currentResources, hentries]
  exact List.filter_sublist.map _

theorem counted_sublist (hnew : m.resources.find? r.id = none) :
    m.counted.Sublist (m.withPublished r).counted :=
  (currentResources_sublist hnew).filter _

theorem mem_counted_withPublished {x : ResourceInfo} (hnew : m.resources.find? r.id = none)
    (hx : x ∈ (m.withPublished r).counted) : x ∈ m.counted ∨ x = r := by
  have hperm := perm_currentResources (find?_withPublished (m := m) (r := r))
  rw [currentResources_withoutPublished hnew] at hperm
  obtain ⟨hx, hcurrent⟩ := List.mem_filter.mp hx
  rcases List.mem_cons.mp (hperm.mem_iff.mp hx) with rfl | hx
  · exact Or.inr rfl
  · exact Or.inl (List.mem_filter.mpr ⟨hx, hcurrent⟩)

section Rounded

variable [A : Arithmetic]

theorem amount_available_le (hnew : m.resources.find? r.id = none) (d : Dimension) :
    (m.buildView 0).available.amount d ≤ ((m.withPublished r).buildView 0).available.amount d :=
  totalOf_le_of_sublist (counted_sublist hnew) ResourceInfo.free d

/-- A dimension that only the new resource stores is neither held nor required. -/
theorem stored_withPublished (hnew : m.resources.find? r.id = none)
    (hfree : r.free.StoresNoZero) (hrounded : r.free.IsRounded) (requirements : Capacity)
    (d : Dimension)
    (hd : ((effectiveCapacity ((m.withPublished r).buildView 0)).subtractClamp
      requirements).has d = true) :
    ((effectiveCapacity (m.buildView 0)).subtractClamp requirements).has d = true ∨
      0 < ((effectiveCapacity ((m.withPublished r).buildView 0)).subtractClamp
        requirements).amount d := by
  by_cases hbefore : ((effectiveCapacity (m.buildView 0)).subtractClamp requirements).has d = true
  · exact Or.inl hbefore
  right
  change ((subtractHolds 0 m.reservations _).subtractClamp requirements).has d = true at hd
  change ¬((subtractHolds 0 m.reservations _).subtractClamp requirements).has d = true at hbefore
  rw [Capacity.has_subtractClamp, has_subtractHolds, Bool.not_eq_true, Bool.or_eq_false_iff,
    Bool.or_eq_false_iff] at hbefore
  obtain ⟨⟨havailable, hholds⟩, hrequired⟩ := hbefore
  rw [Capacity.has_subtractClamp, has_subtractHolds, hholds, hrequired, Bool.or_false,
    Bool.or_false, available_buildView, has_totalOf, List.any_eq_true] at hd
  obtain ⟨x, hx, hhas⟩ := hd
  have hxr : x = r := by
    refine (mem_counted_withPublished hnew hx).resolve_left fun hold => ?_
    rw [available_buildView, has_totalOf, List.any_eq_false] at havailable
    exact havailable x hold hhas
  subst hxr
  rw [Capacity.amount_subtractClamp_eq, hrequired, if_neg Bool.false_ne_true]
  calc 0 < x.free.amount d := hfree d hhas
    _ ≤ (totalOf ResourceInfo.free (m.withPublished x).counted).amount d :=
      amount_le_totalOf hx hrounded d
    _ = (effectiveCapacity ((m.withPublished x).buildView 0)).amount d :=
      (amount_subtractHolds_of_none hholds).symm

theorem eases_withPublished (hnew : m.resources.find? r.id = none)
    (hdevice : ∀ x ∈ m.currentResources, x.deviceId ≠ r.deviceId) (hfree : r.free.StoresNoZero)
    (hrounded : r.free.IsRounded) {d : WorkloadDemand}
    (hfragmentation : d.maxAcceptableFragmentation = none) :
    Eases (m.buildView 0).devices ((m.withPublished r).buildView 0).devices
      (effectiveCapacity (m.buildView 0)) (effectiveCapacity ((m.withPublished r).buildView 0))
      d d :=
  .ofSupply hfragmentation (usableDevices_withPublished hnew hdevice d)
    (fun dim => amount_subtractHolds_mono (amount_available_le hnew dim))
    (stored_withPublished hnew hfree hrounded d.requirements)

theorem exists_current_of_fitNow {d : WorkloadDemand}
    (hfit : (m.queryFeasibilityNow d).outcome = .fitNow) :
    ∃ x ∈ m.currentResources, m.isCurrent x = true := by
  obtain ⟨-, hgate, -⟩ := outcome_eq_fitNow_iff.mp hfit
  rcases freshnessGate_eq_none_iff.mp hgate with hfresh | hunknown
  · obtain ⟨x, hx⟩ := List.exists_mem_of_ne_nil _ ((m.fresh_buildView_iff 0).mp hfresh)
    exact ⟨x, List.mem_filter.mp hx⟩
  · simp only [buildView] at hunknown
    split_ifs at hunknown

/-- What fits before the publication of a resource on a device of its own would fit after
it, were it not for the sums. -/
theorem fitNow_withPublished (hnew : m.resources.find? r.id = none)
    (hdevice : ∀ x ∈ m.currentResources, x.deviceId ≠ r.deviceId) (hfree : r.free.StoresNoZero)
    (hrounded : r.free.IsRounded) {d : WorkloadDemand}
    (hfragmentation : d.maxAcceptableFragmentation = none)
    (hfit : (m.queryFeasibilityNow d).outcome = .fitNow) :
    ((m.withPublished r).queryFeasibilityNow d).outcome = .fitNow := by
  obtain ⟨x, hx, hcurrent⟩ := exists_current_of_fitNow hfit
  have hvalid : d.valid = true := (outcome_eq_fitNow_iff.mp hfit).1
  have hx' : x ∈ (m.withPublished r).currentResources := (currentResources_sublist hnew).subset hx
  rw [outcome_of_current hx' hcurrent hvalid]
  rw [outcome_of_current hx hcurrent hvalid] at hfit
  exact (eases_withPublished hnew hdevice hfree hrounded hfragmentation).fitNow hfit

/-- Feasibility is monotone in the supply as long as the sums of the view stay finite. -/
theorem fitNow_of_published_iff (hnew : m.resources.find? r.id = none)
    (hdevice : ∀ x ∈ m.currentResources, x.deviceId ≠ r.deviceId)
    (hfree : r.free.BuiltBySetAmount) (hrounded : r.free.IsRounded) {d : WorkloadDemand}
    (hfragmentation : d.maxAcceptableFragmentation = none)
    (hfit : (m.queryFeasibilityNow? d).map FeasibilityResult.outcome = some .fitNow) :
    ((m.publishResource r).1.queryFeasibilityNow? d).map FeasibilityResult.outcome =
        some .fitNow ↔
      ((m.publishResource r).2 = true →
        FiniteTotals m.isCurrent ((m.resources.insert r.id r).entries.map Prod.snd)) := by
  obtain ⟨hbefore, hfits⟩ := outcome_queryFeasibilityNow?_iff.mp hfit
  rw [outcome_queryFeasibilityNow?_iff, publishResource_eq]
  split_ifs with haccepted
  · rw [imp_iff_right rfl]
    exact and_iff_right
      (fitNow_withPublished hnew hdevice hfree.storesNoZero hrounded hfragmentation hbefore)
  · exact iff_of_true ⟨hbefore, hfits⟩ False.elim

end Rounded

end

/-- A healthy accelerator whose nominal compute is the largest `double`. -/
def largestAccelerator (id : ResourceId) (device : DeviceId) : ResourceInfo :=
  { healthyResource with
    id := id
    deviceId := device
    nominal := Capacity.setAmount ∅ .acceleratorCompute dblMax }

def largestAcceleratorAlone : CapacityModel :=
  Runs.run step {} [.registerWorker ⟨1⟩ ⟨1⟩, .publishResource (largestAccelerator ⟨1⟩ ⟨1⟩)]

def oneDevice : WorkloadDemand := Reference.makeDemand ⟨1⟩ ⟨1⟩ 1 1

theorem built_healthyResource : healthyResource.free.BuiltBySetAmount :=
  ⟨[(.vramBytes, (8 : ByteCount).toNat), (.acceleratorCount, (1 : DeviceCount).toNat)], rfl⟩

theorem rounded_healthyResource : healthyResource.free.IsRounded (A := .double) :=
  Capacity.IsRounded.setAmount (A := .double)
    (Capacity.IsRounded.setAmount (A := .double) (Capacity.isRounded_empty (A := .double))
      (Arithmetic.round_natCast (n := (8 : ByteCount).toNat) (by decide)) .vramBytes)
    (Arithmetic.round_natCast (n := (1 : DeviceCount).toNat) (by decide)) .acceleratorCount

theorem fitNow_of_published_iff_largestAccelerator :
    ((largestAcceleratorAlone.publishResource (largestAccelerator ⟨2⟩ ⟨2⟩)).1.queryFeasibilityNow?
        (A := .double) oneDevice).map FeasibilityResult.outcome = some .fitNow ↔
      ((largestAcceleratorAlone.publishResource (largestAccelerator ⟨2⟩ ⟨2⟩)).2 = true →
        FiniteTotals (A := .double) largestAcceleratorAlone.isCurrent
          ((largestAcceleratorAlone.resources.insert (largestAccelerator ⟨2⟩ ⟨2⟩).id
            (largestAccelerator ⟨2⟩ ⟨2⟩)).entries.map Prod.snd)) := by
  have hnew : largestAcceleratorAlone.resources.find? (largestAccelerator ⟨2⟩ ⟨2⟩).id = none := by
    decide +kernel
  have hdevice : ∀ x ∈ largestAcceleratorAlone.currentResources,
      x.deviceId ≠ (largestAccelerator ⟨2⟩ ⟨2⟩).deviceId := by
    decide +kernel
  have hfree : (largestAccelerator ⟨2⟩ ⟨2⟩).free.BuiltBySetAmount := built_healthyResource
  have hrounded : (largestAccelerator ⟨2⟩ ⟨2⟩).free.IsRounded (A := .double) :=
    rounded_healthyResource
  have hfragmentation : oneDevice.maxAcceptableFragmentation = none := rfl
  have hfit : (largestAcceleratorAlone.queryFeasibilityNow? (A := .double) oneDevice).map
      FeasibilityResult.outcome = some .fitNow := by
    decide +kernel
  have hiff := fitNow_of_published_iff (A := .double) hnew hdevice hfree hrounded hfragmentation
    hfit
  exact hiff

/-- The second of two accepted resources, each finite, takes the fit away. -/
theorem published_overflow_loses_fit :
    ¬ ∀ m : CapacityModel, Reachable m → ∀ r : ResourceInfo, m.resources.find? r.id = none →
      (∀ x ∈ m.currentResources, x.deviceId ≠ r.deviceId) → m.isFreshBoot r.worker r.bootId = true →
      r.free.BuiltBySetAmount → r.nominal.BuiltBySetAmount → r.committed.BuiltBySetAmount →
      r.unavailable.BuiltBySetAmount → ∀ d : WorkloadDemand, d.valid = true →
      d.maxAcceptableFragmentation = none →
      (m.queryFeasibilityNow? (A := .double) d).map FeasibilityResult.outcome = some .fitNow →
      ((m.publishResource r).1.queryFeasibilityNow? (A := .double) d).map
        FeasibilityResult.outcome = some .fitNow := by
  intro h
  have hreachable : Reachable largestAcceleratorAlone := Runs.Reachable.init.run _
  have hfit := h largestAcceleratorAlone hreachable (largestAccelerator ⟨2⟩ ⟨2⟩)
    (by decide +kernel) (by decide +kernel) (by decide +kernel) built_healthyResource
    (Capacity.builtBySetAmount_setAmount _ _) ⟨[], rfl⟩ ⟨[], rfl⟩ oneDevice (by decide +kernel) rfl
    (by decide +kernel)
  revert hfit
  decide +kernel

end CapacityModel

end CapacityFabric
