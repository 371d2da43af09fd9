import CapacityFabric.Query.FleetTotals
import CapacityFabric.Query.Verdict

/-!
# Devices that no demand tells apart

The gates see of a list of devices how many of them serve, how many of these are
grouped together, their largest free block, and how fragmented the list is.
-/

namespace CapacityFabric

def servingDevices (devices : List DeviceInfo) (capability : ByteString)
    (classes : List AcceleratorClass) : List DeviceInfo :=
  usableDevices devices (probe capability classes)

def largestGroup (devices : List DeviceInfo) : ℕ :=
  (devices.map fun v => (devices.filter fun w => groupLabel w = groupLabel v).length).foldr max 0

def largestBlock (devices : List DeviceInfo) : ℕ :=
  (devices.map fun v => (scanBlocks 0 0 v.freeBlocks).2.toNat).foldr max 0

def fleetFragmentation [Arithmetic] (devices : List DeviceInfo) (block : ByteCount) : ℚ :=
  (analyzeFragmentation devices { probe [] [] with minContiguousVram := block }
    0).fragmentationRatio

/-- The two lists serve any capability and classes with as many devices, as large a group
and as large a block, and they are as fragmented where any device is usable. -/
structure Lookalikes [Arithmetic] (devices devices' : List DeviceInfo) : Prop where
  count : ∀ capability classes, (servingDevices devices capability classes).length =
    (servingDevices devices' capability classes).length
  group : ∀ capability classes, largestGroup (servingDevices devices capability classes) =
    largestGroup (servingDevices devices' capability classes)
  block : ∀ capability classes, largestBlock (servingDevices devices capability classes) =
    largestBlock (servingDevices devices' capability classes)
  ratio : servingDevices devices [] [] ≠ [] →
    ∀ block, fleetFragmentation devices block = fleetFragmentation devices' block

theorem le_foldr_max_iff {α : Type*} {f : α → ℕ} {l : List α} {n : ℕ} (hn : 0 < n) :
    n ≤ (l.map f).foldr max 0 ↔ ∃ x ∈ l, n ≤ f x := by
  constructor
  · intro h
    by_contra hnone
    push Not at hnone
    have hle : (l.map f).foldr max 0 ≤ n - 1 := by
      apply List.max_le_of_forall_le
      intro y hy
      obtain ⟨x, hx, rfl⟩ := List.mem_map.mp hy
      have := hnone x hx
      omega
    omega
  · rintro ⟨x, hx, hle⟩
    exact List.le_max_of_le' 0 (List.mem_map_of_mem hx) hle

section

variable [Arithmetic] {devices devices' : List DeviceInfo} {demand : WorkloadDemand}
  {effective : Capacity}

theorem fragmentationRatio_eq (devices : List DeviceInfo) (demand : WorkloadDemand) :
    (analyzeFragmentation devices demand 0).fragmentationRatio =
      fleetFragmentation devices demand.minContiguousVram := by
  rw [fleetFragmentation, fragmentationRatio_analyze, fragmentationRatio_analyze]

omit [Arithmetic] in
theorem topologyOk_iff_largestGroup : topologyOk devices demand = true ↔
    ∀ size, demand.topologyGroupSize = some size →
      max size.toNat 1 ≤ largestGroup
        (servingDevices devices demand.requiredCapability demand.allowedClasses) := by
  rw [topologyOk_iff]
  refine forall₂_congr fun size _ => ?_
  rw [largestGroup, le_foldr_max_iff (lt_max_of_lt_right one_pos)]
  constructor
  · rintro ⟨v, hv, hsize⟩
    have hown : v ∈ (servingDevices devices demand.requiredCapability
        demand.allowedClasses).filter fun w => groupLabel w = groupLabel v :=
      List.mem_filter.mpr ⟨hv, decide_eq_true rfl⟩
    exact ⟨v, hv, max_le hsize (List.length_pos_of_mem hown)⟩
  · rintro ⟨v, hv, hsize⟩
    exact ⟨v, hv, (le_max_left _ _).trans hsize⟩

omit [Arithmetic] in
theorem contiguityOk_iff_largestBlock (hvalid : demand.valid = true) :
    contiguityOk devices demand = true ↔ (demand.requiresContiguousVram = true →
      demand.minContiguousVram.toNat ≤ largestBlock
        (servingDevices devices demand.requiredCapability demand.allowedClasses)) := by
  by_cases hcontiguous : demand.requiresContiguousVram = true
  · have hblock : 0 < demand.minContiguousVram.toNat := by
      rw [Nat.pos_iff_ne_zero]
      exact fun hzero =>
        minContiguousVram_ne_zero hvalid hcontiguous (UInt64.toNat_inj.mp hzero)
    rw [contiguityOk_iff hcontiguous, largestBlock, le_foldr_max_iff hblock]
    simp only [hcontiguous, forall_true_left, UInt64.le_iff_toNat_le]
    rfl
  · simp [contiguityOk, hcontiguous]

theorem Lookalikes.topologyOk (h : Lookalikes devices devices') (demand : WorkloadDemand) :
    topologyOk devices demand = topologyOk devices' demand := by
  rw [Bool.eq_iff_iff, topologyOk_iff_largestGroup, topologyOk_iff_largestGroup, h.group]

theorem Lookalikes.countOk (h : Lookalikes devices devices') (demand : WorkloadDemand) :
    countOk devices demand = countOk devices' demand := by
  rw [Bool.eq_iff_iff, countOk_iff, countOk_iff]
  exact iff_of_eq (congrArg _ (h.count demand.requiredCapability demand.allowedClasses))

theorem Lookalikes.contiguityOk (h : Lookalikes devices devices') (hvalid : demand.valid = true) :
    contiguityOk devices demand = contiguityOk devices' demand := by
  rw [Bool.eq_iff_iff, contiguityOk_iff_largestBlock hvalid, contiguityOk_iff_largestBlock hvalid,
    h.block]

omit [Arithmetic] in
theorem usableDevices_sublist (devices : List DeviceInfo) (demand : WorkloadDemand) :
    (usableDevices devices demand).Sublist (servingDevices devices [] []) := by
  apply List.monotone_filter_right
  intro v husable
  have hcompatible : deviceCompatible v (probe [] []) = true := rfl
  unfold deviceCurrentlyUsable at husable ⊢
  rw [hcompatible]
  split_ifs at husable ⊢ <;> simp_all

omit [Arithmetic] in
theorem servingDevices_ne_nil (hvalid : demand.valid = true)
    (hcount : countOk devices demand = true) : servingDevices devices [] [] ≠ [] := by
  have hmin : 0 < demand.minAccelerators.toNat := Nat.pos_of_ne_zero fun hzero =>
    minAccelerators_ne_zero hvalid (UInt64.toNat_inj.mp hzero)
  obtain ⟨v, hv⟩ := List.exists_mem_of_length_pos (hmin.trans_le (countOk_iff.mp hcount))
  exact List.ne_nil_of_mem ((usableDevices_sublist devices demand).subset hv)

/-- The gate of the fragmentation comes after that of the count. -/
theorem Lookalikes.fragmentationOk (h : Lookalikes devices devices') (hvalid : demand.valid = true)
    (hcount : CapacityFabric.countOk devices demand = true) :
    fragmentationOk devices demand = fragmentationOk devices' demand := by
  unfold CapacityFabric.fragmentationOk
  rw [fragmentationRatio_eq, fragmentationRatio_eq, h.ratio (servingDevices_ne_nil hvalid hcount)]

theorem Lookalikes.gatesOutcome (h : Lookalikes devices devices') (hvalid : demand.valid = true) :
    gatesOutcome devices effective demand = gatesOutcome devices' effective demand := by
  have hfragmentation := h.fragmentationOk hvalid
  rw [h.countOk] at hfragmentation
  unfold CapacityFabric.gatesOutcome
  rw [h.topologyOk, h.countOk, h.contiguityOk hvalid]
  cases hcount : CapacityFabric.countOk devices' demand with
  | false => rfl
  | true => rw [hfragmentation hcount]

omit [Arithmetic] in
theorem eq_of_forall_toNat_le {a a' : ℕ} (ha : a < 2 ^ 64) (ha' : a' < 2 ^ 64)
    (h : ∀ n : UInt64, n ≠ 0 → (n.toNat ≤ a ↔ n.toNat ≤ a')) : a = a' := by
  have hle : ∀ {b b' : ℕ}, b < 2 ^ 64 → (∀ n : UInt64, n ≠ 0 → n.toNat ≤ b → n.toNat ≤ b') →
      b ≤ b' := by
    intro b b' hb hall
    rcases Nat.eq_zero_or_pos b with rfl | hpos
    · exact Nat.zero_le _
    have hn : (UInt64.ofNat b).toNat = b := UInt64.toNat_ofNat_of_lt hb
    have hne : UInt64.ofNat b ≠ 0 := by
      intro hzero
      rw [hzero] at hn
      exact hpos.ne hn
    have hmost := hall _ hne hn.le
    rwa [hn] at hmost
  exact le_antisymm (hle ha fun n hn => (h n hn).mp) (hle ha' fun n hn => (h n hn).mpr)

omit [Arithmetic] in
theorem length_servingDevices_le (capability : ByteString) (classes : List AcceleratorClass) :
    (servingDevices devices capability classes).length ≤ devices.length :=
  List.length_filter_le _ _

omit [Arithmetic] in
theorem largestGroup_le : largestGroup devices ≤ devices.length := by
  apply List.max_le_of_forall_le
  intro n hn
  obtain ⟨v, -, rfl⟩ := List.mem_map.mp hn
  exact List.length_filter_le _ _

omit [Arithmetic] in
theorem largestGroup_perm (h : devices.Perm devices') :
    largestGroup devices = largestGroup devices' := by
  have hsize : ∀ v : DeviceInfo, (devices.filter fun w => groupLabel w = groupLabel v).length =
      (devices'.filter fun w => groupLabel w = groupLabel v).length := fun v =>
    (h.filter _).length_eq
  rw [largestGroup, List.map_congr_left fun v _ => hsize v]
  exact (h.map _).foldr_eq 0

omit [Arithmetic] in
theorem largestBlock_perm (h : devices.Perm devices') :
    largestBlock devices = largestBlock devices' :=
  (h.map _).foldr_eq 0

omit [Arithmetic] in
theorem largestBlock_lt : largestBlock devices < 2 ^ 64 := by
  have hle : largestBlock devices ≤ 2 ^ 64 - 1 := by
    apply List.max_le_of_forall_le
    intro n hn
    obtain ⟨v, -, rfl⟩ := List.mem_map.mp hn
    exact Nat.le_sub_one_of_lt (scanBlocks 0 0 v.freeBlocks).2.toNat_lt
  exact hle.trans_lt (by norm_num)

omit [Arithmetic] in
theorem length_pos_of_le_largestBlock {n : ℕ} (hn : 0 < n) (h : n ≤ largestBlock devices) :
    0 < devices.length := by
  obtain ⟨v, hv, -⟩ := (le_foldr_max_iff hn).mp h
  exact List.length_pos_of_mem hv

/-- The lists get the same outcome for every valid demand. -/
def SameOutcomes (effective : Capacity) (devices devices' : List DeviceInfo) : Prop :=
  ∀ demand : WorkloadDemand, demand.valid = true →
    gatesOutcome devices effective demand = gatesOutcome devices' effective demand

theorem SameOutcomes.length_eq (h : SameOutcomes effective devices devices')
    (hsize : devices.length < 2 ^ 64) (hsize' : devices'.length < 2 ^ 64) (capability : ByteString)
    (classes : List AcceleratorClass) :
    (servingDevices devices capability classes).length =
      (servingDevices devices' capability classes).length := by
  have hfits : ∀ (l : List DeviceInfo) (n : DeviceCount),
      gatesOutcome l effective { probe capability classes with minAccelerators := n } = .fitNow ↔
        n.toNat ≤ (servingDevices l capability classes).length := by
    intro l n
    rw [gatesOutcome_of_noAmounts rfl (lt_irrefl 0), countOk_iff]
    exact ⟨fun hall => hall.2.1, fun hcount => ⟨rfl, hcount, rfl, rfl⟩⟩
  apply eq_of_forall_toNat_le ((length_servingDevices_le _ _).trans_lt hsize)
    ((length_servingDevices_le _ _).trans_lt hsize')
  intro n hn
  have hvalid : WorkloadDemand.valid { probe capability classes with minAccelerators := n } =
      true := by
    simp [WorkloadDemand.valid, hn, probe, StrongId.valid, Generation.valid,
      WorkloadDemand.fragmentationToleranceValid]
  rw [← hfits, ← hfits, h _ hvalid]

theorem SameOutcomes.largestGroup_eq (h : SameOutcomes effective devices devices')
    (hsize : devices.length < 2 ^ 64) (hsize' : devices'.length < 2 ^ 64) (capability : ByteString)
    (classes : List AcceleratorClass) :
    largestGroup (servingDevices devices capability classes) =
      largestGroup (servingDevices devices' capability classes) := by
  have hlt : ∀ {l : List DeviceInfo}, l.length < 2 ^ 64 →
      largestGroup (servingDevices l capability classes) < 2 ^ 64 := fun hl =>
    (largestGroup_le.trans (length_servingDevices_le _ _)).trans_lt hl
  have hgroup : ∀ (l : List DeviceInfo) (n : DeviceCount), n ≠ 0 →
      (topologyOk l { probe capability classes with topologyGroupSize := some n } = true ↔
        n.toNat ≤ largestGroup (servingDevices l capability classes)) := by
    intro l n hn
    have hpos : 1 ≤ n.toNat :=
      Nat.one_le_iff_ne_zero.mpr fun hzero => hn (UInt64.toNat_inj.mp hzero)
    rw [topologyOk_iff_largestGroup]
    simp only [Option.some.injEq, forall_eq', max_eq_left hpos]
    rfl
  apply eq_of_forall_toNat_le (hlt hsize) (hlt hsize')
  intro n hn
  have hsame := h { probe capability classes with topologyGroupSize := some n } rfl
  have hiff : ∀ l, gatesOutcome l effective
      { probe capability classes with topologyGroupSize := some n } = .noFitTopology ↔ _ :=
    fun l => gatesOutcome_eq_noFitTopology_iff
  rw [← hgroup _ n hn, ← hgroup _ n hn, ← Bool.not_eq_false, ← Bool.not_eq_false, ← hiff, ← hiff,
    hsame]

theorem SameOutcomes.largestBlock_eq (h : SameOutcomes effective devices devices')
    (capability : ByteString) (classes : List AcceleratorClass) :
    largestBlock (servingDevices devices capability classes) =
      largestBlock (servingDevices devices' capability classes) := by
  have hvalid : ∀ n : ByteCount, n ≠ 0 → WorkloadDemand.valid
      { probe capability classes with requiresContiguousVram := true, minContiguousVram := n } =
        true := by
    intro n hn
    simp [WorkloadDemand.valid, hn, probe, StrongId.valid, Generation.valid,
      WorkloadDemand.fragmentationToleranceValid]
  have hfits : ∀ (l : List DeviceInfo) (n : ByteCount), n ≠ 0 →
      (gatesOutcome l effective { probe capability classes with
          requiresContiguousVram := true, minContiguousVram := n } = .fitNow ↔
        n.toNat ≤ largestBlock (servingDevices l capability classes)) := by
    intro l n hn
    have hpos : 0 < n.toNat := Nat.pos_of_ne_zero fun hzero => hn (UInt64.toNat_inj.mp hzero)
    rw [gatesOutcome_of_noAmounts rfl (lt_irrefl 0), countOk_iff,
      contiguityOk_iff_largestBlock (hvalid n hn)]
    exact ⟨fun hall => hall.2.2.1 rfl, fun hblock =>
      ⟨rfl, length_pos_of_le_largestBlock hpos hblock, fun _ => hblock, rfl⟩⟩
  apply eq_of_forall_toNat_le largestBlock_lt largestBlock_lt
  intro n hn
  rw [← hfits _ n hn, ← hfits _ n hn, h _ (hvalid n hn)]

theorem SameOutcomes.fleetFragmentation_eq (h : SameOutcomes effective devices devices')
    (hserving : servingDevices devices [] [] ≠ []) (hserving' : servingDevices devices' [] [] ≠ [])
    (block : ByteCount) : fleetFragmentation devices block = fleetFragmentation devices' block := by
  have hfits : ∀ l : List DeviceInfo, servingDevices l [] [] ≠ [] → ∀ f : ℚ,
      (gatesOutcome l effective { probe [] [] with
          minContiguousVram := block, maxAcceptableFragmentation := some (.finite f) } = .fitNow ↔
        fleetFragmentation l block ≤ f) := by
    intro l hl f
    rw [gatesOutcome_of_noAmounts rfl (lt_irrefl 0), countOk_iff, fragmentationOk]
    simp only [fragmentationRatio_eq, gt_iff_lt, Bool.not_eq_true', decide_eq_false_iff_not, not_lt]
    exact ⟨fun hall => hall.2.2.2, fun hle => ⟨rfl, List.length_pos_iff.mpr hl, rfl, hle⟩⟩
  have hvalid : ∀ l : List DeviceInfo, WorkloadDemand.valid { probe [] [] with
      minContiguousVram := block
      maxAcceptableFragmentation := some (.finite (fleetFragmentation l block)) } = true := by
    intro l
    obtain ⟨hlow, hhigh⟩ :=
      fragmentationRatio_bounds l { probe [] [] with minContiguousVram := block }
    rw [← fleetFragmentation] at hlow hhigh
    simp [WorkloadDemand.valid, WorkloadDemand.fragmentationToleranceValid, hlow, hhigh, probe,
      StrongId.valid, Generation.valid]
  apply le_antisymm
  · rw [← hfits _ hserving, h _ (hvalid devices'), hfits _ hserving']
  · rw [← hfits _ hserving', ← h _ (hvalid devices), hfits _ hserving]

/-- No demand tells two lists of devices apart precisely when they look alike. -/
theorem sameOutcomes_iff (hsize : devices.length < 2 ^ 64) (hsize' : devices'.length < 2 ^ 64) :
    SameOutcomes effective devices devices' ↔ Lookalikes devices devices' := by
  constructor
  · intro h
    have hcount := h.length_eq hsize hsize'
    refine ⟨hcount, h.largestGroup_eq hsize hsize', h.largestBlock_eq, fun hserving => ?_⟩
    apply h.fleetFragmentation_eq hserving
    rw [← List.length_pos_iff, ← hcount]
    exact List.length_pos_iff.mpr hserving
  · exact fun h demand hvalid => h.gatesOutcome hvalid

end

end CapacityFabric
