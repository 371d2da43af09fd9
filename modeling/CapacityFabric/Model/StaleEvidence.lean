import CapacityFabric.Model.Aggregates
import CapacityFabric.Model.CheckedViews
import CapacityFabric.Query.Lookalikes

/-!
# What stale evidence contributes

A resource whose evidence is not current adds nothing to the available capacity, but its
device is still listed in the view, maybe in the place of a current one, and its other
amounts are still added up.
-/

namespace CapacityFabric

namespace CapacityModel

section

variable [A : Arithmetic] {m : CapacityModel} {r : ResourceInfo}

theorem freshness_of_current (hr : r ∈ m.currentResources) (hcurrent : m.isCurrent r = true)
    (now : TimePoint) : (m.buildView now).freshness = .fresh :=
  (m.fresh_buildView_iff now).mpr (List.ne_nil_of_mem (List.mem_filter.mpr ⟨hr, hcurrent⟩))

theorem outcome_of_current (hr : r ∈ m.currentResources) (hcurrent : m.isCurrent r = true)
    {d : WorkloadDemand} (hvalid : d.valid = true) :
    (m.queryFeasibilityNow d).outcome =
      gatesOutcome (m.viewDevices m.currentResources) (effectiveCapacity (m.buildView 0)) d :=
  outcome_of_fresh hvalid (freshness_of_current hr hcurrent 0)

end

def withoutStale (m : CapacityModel) : CapacityModel :=
  { m with resources := m.resources.filter fun p => m.isCurrent p.2 }

theorem currentResources_withoutStale (m : CapacityModel) :
    m.withoutStale.currentResources = m.currentResources.filter m.isCurrent := by
  unfold currentResources
  rw [List.filter_map]
  rfl

theorem available_withoutStale [A : Arithmetic] (m : CapacityModel) (now : TimePoint) :
    (m.withoutStale.buildView now).available = (m.buildView now).available := by
  change totalOf _ (m.withoutStale.currentResources.filter m.isCurrent) = totalOf _ _
  rw [currentResources_withoutStale, List.filter_filter]
  simp only [Bool.and_self]

/-- Whether the last resource on the device is stale. -/
def staleOn (m : CapacityModel) (k : DeviceId) : Bool :=
  (m.currentResources.filter fun r => r.deviceId = k).getLast?.any fun r => !m.isCurrent r

/-- The device records that show stale evidence. -/
def staleRecords (m : CapacityModel) : List DeviceInfo :=
  ((m.deviceIndex m.currentResources).filter fun p => m.staleOn p.1).entries.map Prod.snd

/-- The records of current evidence in whose place they stand. -/
def hiddenRecords (m : CapacityModel) : List DeviceInfo :=
  ((m.deviceIndex m.counted).filter fun p => m.staleOn p.1).entries.map Prod.snd

/-- The records that stand with the stale resources and without them. -/
def commonRecords (m : CapacityModel) : List DeviceInfo :=
  ((m.deviceIndex m.counted).filter fun p => !m.staleOn p.1).entries.map Prod.snd

theorem filter_deviceIndex (m : CapacityModel) :
    (m.deviceIndex m.currentResources).filter (fun p => !m.staleOn p.1) =
      (m.deviceIndex m.counted).filter fun p => !m.staleOn p.1 := by
  apply OrderedMap.ext_find?
  intro k
  rw [OrderedMap.find?_filter, OrderedMap.find?_filter, find?_deviceIndex, find?_deviceIndex]
  have hcounted : (m.counted.filter fun r => r.deviceId = k) =
      (m.currentResources.filter fun r => r.deviceId = k).filter m.isCurrent :=
    List.filter_comm _ _ _
  rw [hcounted]
  cases hstale : m.staleOn k with
  | true =>
    have hnone : ∀ o : Option DeviceInfo, (o.filter fun _ => !m.staleOn k) = none := fun o => by
      cases o <;> simp [hstale]
    exact (hnone _).trans (hnone _).symm
  | false =>
    unfold staleOn at hstale
    rcases List.eq_nil_or_concat (m.currentResources.filter fun r => r.deviceId = k) with
      hnil | ⟨rs, r, hrs⟩
    · rw [hnil, List.filter_nil]
    · rw [hrs] at hstale ⊢
      have hcurrent : m.isCurrent r = true := by simpa using hstale
      simp [hcurrent]

theorem perm_records (m : CapacityModel) :
    (m.viewDevices m.currentResources).Perm (m.commonRecords ++ m.staleRecords) ∧
      (m.viewDevices m.counted).Perm (m.commonRecords ++ m.hiddenRecords) := by
  have hsplit : ∀ I : OrderedMap DeviceId DeviceInfo, (I.entries.map Prod.snd).Perm
      ((I.filter fun p => !m.staleOn p.1).entries.map Prod.snd ++
        (I.filter fun p => m.staleOn p.1).entries.map Prod.snd) := by
    intro I
    rw [← List.map_append]
    refine (List.Perm.map _ ?_).symm
    exact List.perm_append_comm.trans (List.filter_append_perm _ _)
  refine ⟨?_, hsplit _⟩
  have hall := hsplit (m.deviceIndex m.currentResources)
  rwa [filter_deviceIndex] at hall

/-- No sum of the view overflows, the stale records show as many usable devices of any
capability and classes as they hide, and they leave the largest group, the largest block
and, where any device is usable, the fragmentation as they are without them. -/
structure StaleUnseen [A : Arithmetic] (m : CapacityModel) : Prop where
  finite : m.ViewFits
  count : ∀ capability classes, (servingDevices m.staleRecords capability classes).length =
    (servingDevices m.hiddenRecords capability classes).length
  group : ∀ capability classes,
    largestGroup (servingDevices (m.viewDevices m.currentResources) capability classes) =
      largestGroup (servingDevices (m.viewDevices m.counted) capability classes)
  block : ∀ capability classes,
    largestBlock (servingDevices (m.viewDevices m.currentResources) capability classes) =
      largestBlock (servingDevices (m.viewDevices m.counted) capability classes)
  ratio : servingDevices (m.viewDevices m.currentResources) [] [] ≠ [] → ∀ block,
    fleetFragmentation (m.viewDevices m.currentResources) block =
      fleetFragmentation (m.viewDevices m.counted) block

section

variable [A : Arithmetic] {m : CapacityModel} {r : ResourceInfo}

theorem staleUnseen_iff : m.StaleUnseen ↔ m.ViewFits ∧
    Lookalikes (m.viewDevices m.currentResources) (m.viewDevices m.counted) := by
  have hlength : ∀ {l common special : List DeviceInfo}, l.Perm (common ++ special) →
      ∀ capability classes, (servingDevices l capability classes).length =
        (servingDevices common capability classes).length +
          (servingDevices special capability classes).length := by
    intro l common special hl capability classes
    rw [servingDevices, usableDevices, (hl.filter _).length_eq, List.filter_append,
      List.length_append]
    rfl
  have hall := hlength m.perm_records.1
  have hcurrent := hlength m.perm_records.2
  constructor
  · intro h
    refine ⟨h.finite, fun capability classes => ?_, h.group, h.block, h.ratio⟩
    rw [hall, hcurrent, h.count]
  · rintro ⟨hfits, h⟩
    refine ⟨hfits, fun capability classes => ?_, h.group, h.block, h.ratio⟩
    have hcount := h.count capability classes
    rwa [hall, hcurrent, Nat.add_left_cancel_iff] at hcount

theorem viewFits_withoutStale (h : m.ViewFits) : m.withoutStale.ViewFits := by
  have hsub : m.withoutStale.currentResources.Sublist m.currentResources := by
    rw [currentResources_withoutStale]
    exact List.filter_sublist
  exact h.sublist hsub

/-- Where stale evidence hides no current record, none of its devices may be usable. -/
theorem staleUnseen_iff_of_unshared (hunshared : m.hiddenRecords = []) :
    m.StaleUnseen ↔ m.ViewFits ∧ servingDevices m.staleRecords [] [] = [] ∧
      (servingDevices (m.viewDevices m.currentResources) [] [] ≠ [] → ∀ block,
        fleetFragmentation (m.viewDevices m.currentResources) block =
          fleetFragmentation (m.viewDevices m.counted) block) := by
  constructor
  · intro h
    refine ⟨h.finite, ?_, h.ratio⟩
    rw [← List.length_eq_zero_iff, h.count, hunshared]
    rfl
  · rintro ⟨hfits, hnone, hratio⟩
    have hstale : ∀ capability classes, servingDevices m.staleRecords capability classes = [] :=
      fun capability classes => List.sublist_nil.mp (hnone ▸ usableDevices_sublist _ _)
    have hperm : ∀ capability classes,
        (servingDevices (m.viewDevices m.currentResources) capability classes).Perm
          (servingDevices (m.viewDevices m.counted) capability classes) := by
      intro capability classes
      have hall := m.perm_records.1.filter fun v =>
        deviceCurrentlyUsable v (probe capability classes)
      have hcurrent := m.perm_records.2.filter fun v =>
        deviceCurrentlyUsable v (probe capability classes)
      rw [hunshared, List.append_nil] at hcurrent
      rw [List.filter_append] at hall
      refine (hall.trans ?_).trans hcurrent.symm
      rw [show m.staleRecords.filter _ = [] from hstale capability classes, List.append_nil]
    refine ⟨hfits, fun capability classes => ?_, fun capability classes => ?_,
      fun capability classes => ?_, hratio⟩
    · rw [hstale, hunshared]
      rfl
    · exact largestGroup_perm (hperm capability classes)
    · exact largestBlock_perm (hperm capability classes)

/-- Every valid demand gets the same outcome with the stale resources and without them. -/
def SameWithoutStale (m : CapacityModel) : Prop :=
  ∀ d : WorkloadDemand, d.valid = true → ∃ o,
    (m.queryFeasibilityNow? d).map FeasibilityResult.outcome = some o ∧
      (m.withoutStale.queryFeasibilityNow? d).map FeasibilityResult.outcome = some o

/-- The stale resources change no verdict precisely when they cannot be seen. -/
theorem stale_evidence_unseen_iff (hsize : m.resources.size < 2 ^ 64)
    (hr : r ∈ m.currentResources) (hcurrent : m.isCurrent r = true) :
    m.SameWithoutStale ↔ m.StaleUnseen := by
  have hlength : m.currentResources.length < 2 ^ 64 := by
    rw [currentResources, List.length_map]
    exact hsize
  have hsize' : (m.viewDevices m.currentResources).length < 2 ^ 64 :=
    (m.length_viewDevices_le _).trans_lt hlength
  have hsize'' : (m.viewDevices m.counted).length < 2 ^ 64 :=
    (m.length_viewDevices_le _).trans_lt ((List.length_filter_le _ _).trans_lt hlength)
  have hr' : r ∈ m.withoutStale.currentResources := by
    rw [currentResources_withoutStale]
    exact List.mem_filter.mpr ⟨hr, hcurrent⟩
  have hout : ∀ d : WorkloadDemand, d.valid = true →
      (m.withoutStale.queryFeasibilityNow d).outcome =
        gatesOutcome (m.viewDevices m.counted) (effectiveCapacity (m.buildView 0)) d := by
    intro d hvalid
    rw [outcome_of_current hr' hcurrent hvalid, currentResources_withoutStale]
    unfold effectiveCapacity
    rw [available_withoutStale]
    rfl
  have hlookalikes : SameOutcomes (effectiveCapacity (m.buildView 0))
      (m.viewDevices m.currentResources) (m.viewDevices m.counted) ↔ _ :=
    sameOutcomes_iff hsize' hsize''
  rw [staleUnseen_iff, ← hlookalikes]
  unfold SameWithoutStale
  simp only [outcome_queryFeasibilityNow?_iff]
  constructor
  · intro h
    obtain ⟨-, ⟨-, hfits⟩, -⟩ := h (probe [] []) rfl
    refine ⟨hfits, fun d hvalid => ?_⟩
    obtain ⟨o, ⟨ho, -⟩, ho', -⟩ := h d hvalid
    rw [← outcome_of_current hr hcurrent hvalid, ← hout d hvalid, ho, ho']
  · rintro ⟨hfits, h⟩ d hvalid
    refine ⟨_, ⟨rfl, hfits⟩, ?_, viewFits_withoutStale hfits⟩
    rw [outcome_of_current hr hcurrent hvalid, hout d hvalid, h d hvalid]

end

def liveResource : ResourceInfo :=
  Reference.makeResource ⟨1⟩ ⟨1⟩ ⟨1⟩ ⟨1⟩ ⟨1⟩ ⟨1⟩ ⟨1⟩ {} 16 8 [8]

/-- An accelerator of a live worker and one of a worker that has died. -/
def deadAccelerator : CapacityModel :=
  Runs.run step {} [.registerWorker ⟨1⟩ ⟨1⟩, .registerWorker ⟨2⟩ ⟨2⟩,
    .publishResource liveResource,
    .publishResource (Reference.makeResource ⟨2⟩ ⟨1⟩ ⟨1⟩ ⟨1⟩ ⟨2⟩ ⟨2⟩ ⟨2⟩ {} 16 8 [8]),
    .markWorkerDead ⟨2⟩]

def twoDevices : WorkloadDemand := Reference.makeDemand ⟨1⟩ ⟨1⟩ 1 2

theorem mem_liveResource : liveResource ∈ deadAccelerator.currentResources :=
  List.mem_of_getElem? (show deadAccelerator.currentResources[0]? = some liveResource from rfl)

theorem stale_evidence_unseen_iff_deadAccelerator :
    deadAccelerator.SameWithoutStale (A := .double) ↔
      deadAccelerator.StaleUnseen (A := .double) :=
  stale_evidence_unseen_iff (A := .double) (by decide) mem_liveResource (by decide)

/-- The device of a dead worker makes up the count of a demand. -/
theorem dead_device_counted :
    ¬ ∀ m : CapacityModel, Reachable m → (∃ r ∈ m.currentResources, m.isCurrent r = true) →
      m.SameWithoutStale (A := .double) := by
  intro h
  have hreachable : Reachable deadAccelerator := Runs.Reachable.init.run _
  obtain ⟨o, ho, ho'⟩ := h deadAccelerator hreachable ⟨liveResource, mem_liveResource, by decide⟩
    twoDevices (by decide)
  have heq := ho.trans ho'.symm
  revert heq
  decide +kernel

end CapacityModel

end CapacityFabric
