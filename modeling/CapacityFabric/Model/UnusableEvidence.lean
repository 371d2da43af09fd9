import CapacityFabric.Model.Aggregates
import CapacityFabric.Model.StaleEvidence

/-!
# What an unusable resource contributes

The health of a resource keeps its device out of the count, but its free capacity is
added as long as its evidence is current, and nothing looks at its flags.
-/

namespace CapacityFabric

def plainDemand (requirements : Capacity) (minAccelerators : DeviceCount) : WorkloadDemand where
  id := ⟨1⟩
  generation := ⟨1⟩
  requirements := requirements
  minAccelerators := minAccelerators

theorem plainDemand_valid (requirements : Capacity) {minAccelerators : DeviceCount}
    (h : minAccelerators ≠ 0) : (plainDemand requirements minAccelerators).valid = true := by
  have hzero : (minAccelerators == 0) = false := beq_eq_false_iff_ne.mpr h
  simp [WorkloadDemand.valid, plainDemand, hzero, WorkloadDemand.fragmentationToleranceValid,
    StrongId.valid, Generation.valid]

theorem deviceCurrentlyUsable_plainDemand (v : DeviceInfo) (requirements : Capacity)
    (minAccelerators : DeviceCount) :
    deviceCurrentlyUsable v (plainDemand requirements minAccelerators) =
      (!v.health.unusable && !v.drained) := by
  have hcompatible : deviceCompatible v (plainDemand requirements minAccelerators) = true := rfl
  rw [deviceCurrentlyUsable, hcompatible]
  cases v.health.unusable <;> cases v.drained <;> rfl

theorem gatesOutcome_plainDemand {devices : List DeviceInfo} {effective requirements : Capacity}
    {minAccelerators : DeviceCount} :
    gatesOutcome devices effective (plainDemand requirements minAccelerators) = .fitNow ↔
      minAccelerators.toNat ≤
          (devices.filter fun v => !v.health.unusable && !v.drained).length ∧
        effective.satisfies requirements = true := by
  have husable : usableDevices devices (plainDemand requirements minAccelerators) =
      devices.filter fun v => !v.health.unusable && !v.drained :=
    List.filter_congr fun v _ => deviceCurrentlyUsable_plainDemand v _ _
  have hcount : countOk devices (plainDemand requirements minAccelerators) = true ↔
      minAccelerators.toNat ≤
        (devices.filter fun v => !v.health.unusable && !v.drained).length := by
    rw [countOk, husable, Bool.not_eq_true', decide_eq_false_iff_not, not_lt]
    rfl
  have hslo : sloOk effective (plainDemand requirements minAccelerators) = true :=
    sloOk_iff.mpr fun h => absurd h (lt_irrefl 0)
  rw [gatesOutcome_eq_fitNow_iff, hcount]
  exact ⟨fun h => ⟨h.2.1, h.2.2.2.1⟩, fun h => ⟨rfl, h.1, rfl, h.2, rfl, hslo⟩⟩

namespace CapacityModel

/-- The resource is Failed, Draining, in Maintenance, of Unknown health, or flagged. -/
def Unusable (r : ResourceInfo) : Prop :=
  r.health.unusable = true ∨ r.drained = true ∨ r.maintenance = true

def withoutResource (m : CapacityModel) (id : ResourceId) : CapacityModel :=
  { m with resources := m.resources.erase id }

def OwnsDevice (m : CapacityModel) (id : ResourceId) (r : ResourceInfo) : Prop :=
  ∀ id' r', m.resources.find? id' = some r' → r'.deviceId = r.deviceId → id' = id

/-- No device of the view is usable, or the resource's is not, and what is free on the
resource counts for nothing: its evidence is not current, or in each dimension it has
nothing or the reservations hold whatever is available. -/
def AddsNothing (m : CapacityModel) (r : ResourceInfo) : Prop :=
  (∀ v ∈ (m.buildView 0).devices, v.health.unusable = true) ∨
    r.health.unusable = true ∧ (m.isCurrent r = false ∨ ∀ d, r.free.amount d = 0 ∨
      (m.buildView 0).available.amount d ≤ heldNow m.reservations 0 d)

section

variable {m : CapacityModel} {id : ResourceId} {r : ResourceInfo}

theorem perm_currentResources (h : m.resources.find? id = some r) :
    m.currentResources.Perm (r :: (m.withoutResource id).currentResources) :=
  (OrderedMap.perm_cons_erase h).map Prod.snd

theorem amount_available_withoutResource (h : m.resources.find? id = some r) (d : Dimension) :
    (m.buildView 0).available.amount d =
      (if m.isCurrent r = true then r.free.amount d else 0) +
        ((m.withoutResource id).buildView 0).available.amount d := by
  change (totalOf ResourceInfo.free (m.currentResources.filter m.isCurrent)).amount d = _ +
    (totalOf ResourceInfo.free
      ((m.withoutResource id).currentResources.filter m.isCurrent)).amount d
  rw [amount_totalOf, amount_totalOf,
    (((perm_currentResources h).filter m.isCurrent).map _).sum_eq]
  by_cases hcurrent : m.isCurrent r = true
  · rw [List.filter_cons_of_pos hcurrent, if_pos hcurrent, List.map_cons, List.sum_cons]
  · rw [List.filter_cons_of_neg hcurrent, if_neg hcurrent, zero_add]

theorem has_available_withoutResource (h : m.resources.find? id = some r) {d : Dimension}
    (hd : ((m.withoutResource id).buildView 0).available.has d = true) :
    (m.buildView 0).available.has d = true := by
  change (totalOf ResourceInfo.free
    ((m.withoutResource id).currentResources.filter m.isCurrent)).has d = true at hd
  change (totalOf ResourceInfo.free (m.currentResources.filter m.isCurrent)).has d = true
  rw [has_totalOf, List.any_eq_true] at hd ⊢
  obtain ⟨x, hx, hfree⟩ := hd
  obtain ⟨hx, hcurrent⟩ := List.mem_filter.mp hx
  exact ⟨x, List.mem_filter.mpr
    ⟨(perm_currentResources h).mem_iff.mpr (List.mem_cons_of_mem r hx), hcurrent⟩, hfree⟩

theorem filter_deviceId_withoutResource (h : m.resources.find? id = some r)
    (howns : m.OwnsDevice id r) (k : DeviceId) :
    (m.withoutResource id).currentResources.filter (fun x => x.deviceId = k) =
      if k = r.deviceId then [] else m.currentResources.filter fun x => x.deviceId = k := by
  have herase : (m.withoutResource id).currentResources =
      (m.resources.entries.filter fun p => p.1 ≠ id).map Prod.snd :=
    congrArg (List.map Prod.snd) (OrderedMap.entries_erase m.resources id)
  rw [herase, List.filter_map, List.filter_filter, currentResources, List.filter_map]
  split_ifs with hk
  · rw [List.map_eq_nil_iff, List.filter_eq_nil_iff]
    intro p hp hcond
    simp only [Function.comp_apply, Bool.and_eq_true, decide_eq_true_eq] at hcond
    exact hcond.2 (howns p.1 p.2 (OrderedMap.find?_eq_some_iff.mpr hp) (hcond.1.trans hk))
  · congr 1
    apply List.filter_congr
    intro p hp
    rw [Bool.eq_iff_iff]
    simp only [Function.comp_apply, Bool.and_eq_true, decide_eq_true_eq]
    refine ⟨fun hcond => hcond.1, fun hcond => ⟨hcond, fun hid => hk ?_⟩⟩
    have hr := OrderedMap.find?_eq_some_iff.mpr hp
    rw [hid, h] at hr
    rw [← hcond, ← Option.some.inj hr]

theorem deviceIndex_withoutResource (h : m.resources.find? id = some r)
    (howns : m.OwnsDevice id r) :
    (m.withoutResource id).deviceIndex (m.withoutResource id).currentResources =
      (m.deviceIndex m.currentResources).erase r.deviceId := by
  apply OrderedMap.ext_find?
  intro k
  rw [find?_deviceIndex, OrderedMap.find?_erase, find?_deviceIndex,
    filter_deviceId_withoutResource h howns]
  split_ifs <;> rfl

theorem find?_deviceIndex_owned (h : m.resources.find? id = some r) (howns : m.OwnsDevice id r) :
    (m.deviceIndex m.currentResources).find? r.deviceId = some (m.viewDevice r) := by
  have hperm := (perm_currentResources h).filter fun x => x.deviceId = r.deviceId
  have hrest := filter_deviceId_withoutResource h howns r.deviceId
  rw [if_pos rfl] at hrest
  rw [List.filter_cons_of_pos (by simp), hrest] at hperm
  rw [find?_deviceIndex, List.perm_singleton.mp hperm]
  rfl

theorem perm_viewDevices (h : m.resources.find? id = some r) (howns : m.OwnsDevice id r) :
    (m.viewDevices m.currentResources).Perm
      (m.viewDevice r :: (m.withoutResource id).viewDevices
        (m.withoutResource id).currentResources) := by
  have hperm := (OrderedMap.perm_cons_erase (find?_deviceIndex_owned h howns)).map Prod.snd
  rwa [← deviceIndex_withoutResource h howns] at hperm

theorem usableDevices_withoutResource (h : m.resources.find? id = some r)
    (howns : m.OwnsDevice id r) (hunusable : r.health.unusable = true) (d : WorkloadDemand) :
    usableDevices (m.viewDevices m.currentResources) d =
      usableDevices ((m.withoutResource id).viewDevices
        (m.withoutResource id).currentResources) d := by
  have hdevice : deviceCurrentlyUsable (m.viewDevice r) d = false :=
    deviceCurrentlyUsable_of_unusable hunusable d
  unfold usableDevices viewDevices
  rw [deviceIndex_withoutResource h howns, OrderedMap.entries_erase, List.filter_map,
    List.filter_map, List.filter_filter]
  congr 1
  apply List.filter_congr
  intro p hp
  by_cases hk : p.1 = r.deviceId
  · have hp' := OrderedMap.find?_eq_some_iff.mpr hp
    rw [hk, find?_deviceIndex_owned h howns] at hp'
    simp [← Option.some.inj hp', hdevice]
  · simp [hk]

def usableCount (m : CapacityModel) : ℕ :=
  ((m.buildView 0).devices.filter fun v => !v.health.unusable).length

theorem usableCount_eq (hreachable : Reachable m) {m' : CapacityModel}
    (hdevices : m'.devices = m.devices) :
    ((m'.buildView 0).devices.filter fun v => !v.health.unusable && !v.drained).length =
      m'.usableCount := by
  unfold usableCount
  congr 1
  apply List.filter_congr
  intro v hv
  obtain ⟨x, -, rfl⟩ := mem_viewDevices hv
  have hdrained : (m'.viewDevice x).drained = false := by
    have h := (unflagged_viewDevice hreachable x).1
    rwa [viewDevice, ← hdevices] at h
  rw [hdrained, Bool.not_false, Bool.and_true]

theorem usableCount_withoutResource (h : m.resources.find? id = some r)
    (howns : m.OwnsDevice id r) :
    m.usableCount =
      (if r.health.unusable = true then 0 else 1) + (m.withoutResource id).usableCount := by
  have hperm := ((perm_viewDevices h howns).filter fun v => !v.health.unusable).length_eq
  change (List.filter (fun v => !v.health.unusable) (m.viewDevices m.currentResources)).length = _
  have hhealth : (m.viewDevice r).health = r.health := rfl
  rw [hperm]
  by_cases hr : r.health.unusable = true
  · rw [List.filter_cons_of_neg (by simpa [hhealth] using hr), if_pos hr, zero_add]
    rfl
  · rw [List.filter_cons_of_pos (by simpa [hhealth] using hr), if_neg hr, List.length_cons,
      add_comm]
    rfl

theorem usableCount_le (m : CapacityModel) : m.usableCount ≤ m.resources.size :=
  (List.length_filter_le _ _).trans ((m.length_viewDevices_le _).trans_eq (List.length_map _))

theorem usableCount_eq_zero_iff :
    m.usableCount = 0 ↔ ∀ v ∈ (m.buildView 0).devices, v.health.unusable = true := by
  rw [usableCount, List.length_eq_zero_iff, List.filter_eq_nil_iff]
  simp only [Bool.not_eq_true', Bool.not_eq_false]

/-- Every demand that the present path fits is still fitted without the resource. -/
def LosesNoFit (m : CapacityModel) (id : ResourceId) : Prop :=
  ∀ d : WorkloadDemand, d.valid = true → d.maxAcceptableFragmentation = none →
    (m.queryFeasibilityNow d).outcome = .fitNow →
      ((m.withoutResource id).queryFeasibilityNow d).outcome = .fitNow

/-- With current evidence the plain demands that fit are known by two numbers. -/
theorem fits_plainDemand_iff (hreachable : Reachable m) {m' : CapacityModel}
    (hdevices : m'.devices = m.devices) {r' : ResourceInfo} (hr' : r' ∈ m'.currentResources)
    (hcurrent : m'.isCurrent r' = true) {requirements : Capacity} {minAccelerators : DeviceCount}
    (hmin : minAccelerators ≠ 0) :
    (m'.queryFeasibilityNow (plainDemand requirements minAccelerators)).outcome = .fitNow ↔
      minAccelerators.toNat ≤ m'.usableCount ∧
        (effectiveCapacity (m'.buildView 0)).satisfies requirements = true := by
  rw [outcome_of_current hr' hcurrent (plainDemand_valid _ hmin), gatesOutcome_plainDemand,
    ← usableCount_eq hreachable hdevices]
  rfl

theorem held_of_losesNoFit (hreachable : Reachable m) (h : m.resources.find? id = some r)
    {r' : ResourceInfo} (hr' : r' ∈ (m.withoutResource id).currentResources)
    (hcurrent' : m.isCurrent r' = true) (hpos : m.usableCount ≠ 0) (hloses : m.LosesNoFit id)
    (hcurrent : m.isCurrent r = true) (d : Dimension) :
    r.free.amount d = 0 ∨ (m.buildView 0).available.amount d ≤ heldNow m.reservations 0 d := by
  by_contra hcontra
  obtain ⟨hfree, havailable⟩ := not_or.mp hcontra
  have hr : r' ∈ m.currentResources :=
    (perm_currentResources h).mem_iff.mpr (List.mem_cons_of_mem r hr')
  have hdevices : (m.withoutResource id).devices = m.devices := rfl
  have hone : (1 : DeviceCount).toNat ≤ m.usableCount := Nat.one_le_iff_ne_zero.mpr hpos
  let effective := effectiveCapacity (m.buildView 0)
  have hfits := (fits_plainDemand_iff hreachable rfl hr hcurrent' (by decide)).mpr
    ⟨hone, (Capacity.satisfies_setAmount (effective.amount_nonneg d)).mpr le_rfl⟩
  have hfits' := hloses _ (plainDemand_valid _ (by decide)) rfl hfits
  have hle := (Capacity.satisfies_setAmount (effective.amount_nonneg d)).mp
    ((fits_plainDemand_iff hreachable hdevices hr' hcurrent' (by decide)).mp hfits').2
  have havail := amount_available_withoutResource h d
  rw [if_pos hcurrent] at havail
  have hfree : 0 < r.free.amount d := lt_of_le_of_ne (r.free.amount_nonneg d) (Ne.symm hfree)
  rw [amount_effectiveCapacity, amount_effectiveCapacity] at hle
  change max ((m.buildView 0).available.amount d - heldNow m.reservations 0 d) 0 ≤
    max (((m.withoutResource id).buildView 0).available.amount d -
      heldNow m.reservations 0 d) 0 at hle
  rw [max_eq_left (by linarith)] at hle
  rcases le_max_iff.mp hle with hle | hle <;> linarith

theorem addsNothing_of_losesNoFit (hreachable : Reachable m) (hsize : m.resources.size < 2 ^ 64)
    (h : m.resources.find? id = some r) (howns : m.OwnsDevice id r)
    {r' : ResourceInfo} (hr' : r' ∈ (m.withoutResource id).currentResources)
    (hcurrent' : m.isCurrent r' = true) (hloses : m.LosesNoFit id) : m.AddsNothing r := by
  by_cases hnone : m.usableCount = 0
  · exact Or.inl (usableCount_eq_zero_iff.mp hnone)
  right
  refine ⟨?_, ?_⟩
  · -- A demand for as many devices as there are usable ones would miss this one.
    have hr : r' ∈ m.currentResources :=
      (perm_currentResources h).mem_iff.mpr (List.mem_cons_of_mem r hr')
    have hdevices : (m.withoutResource id).devices = m.devices := rfl
    have hcount : (UInt64.ofNat m.usableCount).toNat = m.usableCount :=
      UInt64.toNat_ofNat_of_lt ((usableCount_le m).trans_lt hsize)
    have hmin : UInt64.ofNat m.usableCount ≠ 0 := by
      intro hzero
      rw [hzero] at hcount
      exact hnone hcount.symm
    have hall : ∀ c : Capacity, c.satisfies ∅ = true := fun c => rfl
    have hfits := hloses _ (plainDemand_valid ∅ hmin) rfl
      ((fits_plainDemand_iff hreachable rfl hr hcurrent' hmin).mpr ⟨hcount.le, hall _⟩)
    have hle := ((fits_plainDemand_iff hreachable hdevices hr' hcurrent' hmin).mp hfits).1
    rw [hcount, usableCount_withoutResource h howns] at hle
    by_contra hhealth
    rw [if_neg hhealth] at hle
    omega
  · by_cases hcurrent : m.isCurrent r = true
    · exact Or.inr (held_of_losesNoFit hreachable h hr' hcurrent' hnone hloses hcurrent)
    · exact Or.inl (Bool.not_eq_true _ ▸ hcurrent)

theorem losesNoFit_of_addsNothing (h : m.resources.find? id = some r)
    (howns : m.OwnsDevice id r) {r' : ResourceInfo}
    (hr' : r' ∈ (m.withoutResource id).currentResources) (hcurrent' : m.isCurrent r' = true)
    (hadds : m.AddsNothing r) : m.LosesNoFit id := by
  intro d hvalid hfragmentation hfits
  have hr : r' ∈ m.currentResources :=
    (perm_currentResources h).mem_iff.mpr (List.mem_cons_of_mem r hr')
  rw [outcome_of_current hr hcurrent' hvalid] at hfits
  rcases hadds with hnone | ⟨hhealth, hfree⟩
  · -- No device is usable, so no valid demand passes the count.
    have hcount := (gatesOutcome_eq_fitNow_iff.mp hfits).2.1
    have husable : usableDevices (m.viewDevices m.currentResources) d = [] := by
      rw [usableDevices, List.filter_eq_nil_iff]
      intro v hv
      simp [deviceCurrentlyUsable_of_unusable (hnone v hv) d]
    rw [countOk, husable, Bool.not_eq_true', decide_eq_false_iff_not, not_lt,
      List.length_nil, Nat.le_zero] at hcount
    have hmin : d.minAccelerators ≠ 0 := by
      intro hzero
      simp [WorkloadDemand.valid, hzero] at hvalid
    exact absurd (UInt64.toNat_inj.mp hcount) hmin
  · rw [outcome_of_current (m := m.withoutResource id) hr' hcurrent' hvalid]
    have hamount : ∀ dim, (effectiveCapacity (m.buildView 0)).amount dim =
        (effectiveCapacity ((m.withoutResource id).buildView 0)).amount dim := by
      intro dim
      have havail := amount_available_withoutResource h dim
      rw [amount_effectiveCapacity, amount_effectiveCapacity]
      change max ((m.buildView 0).available.amount dim - heldNow m.reservations 0 dim) 0 =
        max (((m.withoutResource id).buildView 0).available.amount dim -
          heldNow m.reservations 0 dim) 0
      by_cases hcurrent : m.isCurrent r = true
      · rw [if_pos hcurrent] at havail
        rcases (hfree.resolve_left (by simp [hcurrent])) dim with hzero | hheld
        · rw [havail, hzero, zero_add]
        · have hnonneg := r.free.amount_nonneg dim
          rw [max_eq_right (by linarith), max_eq_right (by linarith)]
      · rw [if_neg hcurrent, zero_add] at havail
        rw [havail]
    have husable := usableDevices_withoutResource h howns hhealth d
    refine (Eases.ofSupply hfragmentation ?_ (fun dim => (hamount dim).le) fun dim hdim =>
      Or.inl ?_).fitNow hfits
    · exact husable ▸ List.Subperm.refl _
    · rw [Capacity.has_subtractClamp, Bool.or_eq_true] at hdim ⊢
      exact hdim.imp_left
        (has_subtractHolds_mono (has_available_withoutResource h) 0 m.reservations)

end

def healthyResource : ResourceInfo :=
  Reference.makeResource ⟨1⟩ ⟨1⟩ ⟨1⟩ ⟨1⟩ ⟨1⟩ ⟨1⟩ ⟨1⟩ {} 16 8 [8]

def healthyAccelerator : CapacityModel :=
  Runs.run step {} [.registerWorker ⟨1⟩ ⟨1⟩, .publishResource healthyResource]

def failedResource : ResourceInfo :=
  Reference.makeResource ⟨2⟩ ⟨1⟩ ⟨1⟩ ⟨1⟩ ⟨2⟩ ⟨1⟩ ⟨1⟩ {} 16 8 [8] .failed

def failedAccelerator : CapacityModel :=
  Runs.run step {} [.registerWorker ⟨1⟩ ⟨1⟩, .publishResource healthyResource,
    .publishResource failedResource]

theorem reachable_failedAccelerator : Reachable failedAccelerator := Runs.Reachable.init.run _

theorem find?_failedResource : failedAccelerator.resources.find? ⟨2⟩ = some failedResource := rfl

theorem owns_failedResource : failedAccelerator.OwnsDevice ⟨2⟩ failedResource := by
  intro id' r' hr' hdevice
  have hentries : failedAccelerator.resources.entries =
      [(⟨1⟩, healthyResource), (⟨2⟩, failedResource)] := rfl
  have hmem := OrderedMap.find?_eq_some_iff.mp hr'
  rw [hentries, List.mem_cons, List.mem_singleton] at hmem
  rcases hmem with hmem | hmem
  · obtain ⟨rfl, rfl⟩ := Prod.mk.inj hmem
    exact absurd hdevice (by decide)
  · exact (Prod.ext_iff.mp hmem).1

theorem mem_healthyResource :
    healthyResource ∈ (failedAccelerator.withoutResource ⟨2⟩).currentResources :=
  List.mem_of_getElem? (show
    (failedAccelerator.withoutResource ⟨2⟩).currentResources[0]? = some healthyResource from rfl)

end CapacityModel

end CapacityFabric
