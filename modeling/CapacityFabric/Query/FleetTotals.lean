import CapacityFabric.Query.Monotone

/-!
# The totals of the fleet

The two loops of the analysis form saturated sums over the devices, so the order of the
devices does not matter, what is stranded is part of what is free, and a larger block
strands more.
-/

namespace CapacityFabric

open SaturatingSum

/-- The totals of the analysis: what is free, stranded and usable, the largest block,
the usable devices, and the ratio. -/
def FragmentationReport.totals (r : FragmentationReport) :
    ByteCount × ByteCount × ByteCount × ByteCount × DeviceCount × ℚ :=
  (r.totalFreeMemory, r.stranded, r.usableForShape, r.largestContiguousBlock, r.usableDevices,
    r.fragmentationRatio)

def usableWeight (perDevice : ByteCount) (d : DeviceInfo) : ℕ :=
  if fragmentationUsable perDevice d then
    (analyzeDeviceMemory d.freeBlocks perDevice).usableForShape.toNat
  else 0

theorem usableForShape_scanDevices (perDevice : ByteCount) (devices : List DeviceInfo) (i : ℕ)
    (r : FragmentationReport) :
    (scanDevices perDevice i r devices).usableForShape =
      devices.foldl (fun usable d => if fragmentationUsable perDevice d then
        ByteCount.addSaturating usable (analyzeDeviceMemory d.freeBlocks perDevice).usableForShape
        else usable) r.usableForShape := by
  apply val_scanDevices FragmentationReport.usableForShape
  intro i r d
  refine ⟨_, ?_, fun ds => rfl⟩
  simp only [apply_ite FragmentationReport.usableForShape, ite_self]

theorem toNat_usableForShape [A : Arithmetic] (devices : List DeviceInfo) (demand : WorkloadDemand)
    (groupSize : ℕ) :
    (analyzeFragmentation devices demand groupSize).usableForShape.toNat =
      saturatingSum 18446744073709551615
        (devices.map (usableWeight demand.minContiguousVram)) := by
  have hloop := usableForShape_scanDevices demand.minContiguousVram devices 0 {}
  show (scanDevices demand.minContiguousVram 0 {} devices).usableForShape.toNat = _
  rw [hloop]
  apply foldl_eq_saturatingSum ByteCount.toNat_le_top _ rfl
  intro usable d
  unfold usableWeight
  split_ifs with hd
  · exact ByteCount.toNat_addSaturating usable _
  · exact (min_eq_left (ByteCount.toNat_le_top usable)).symm

theorem largest_scanDevices (perDevice : ByteCount) (devices : List DeviceInfo) (i : ℕ)
    (r : FragmentationReport) :
    (scanDevices perDevice i r devices).largestContiguousBlock =
      devices.foldl (fun largest d =>
        max largest (analyzeDeviceMemory d.freeBlocks perDevice).largestContiguousBlock)
        r.largestContiguousBlock := by
  apply val_scanDevices FragmentationReport.largestContiguousBlock
  intro i r d
  refine ⟨_, ?_, fun ds => rfl⟩
  rw [max_def_lt]
  simp only [apply_ite FragmentationReport.largestContiguousBlock, ite_self]

section

variable {devices devices' : List DeviceInfo} (h : devices.Perm devices')
include h

theorem freeMemory_perm : freeMemory devices = freeMemory devices' := by
  apply UInt64.toNat_inj.mp
  rw [toNat_freeMemory, toNat_freeMemory]
  exact saturatingSum_perm _ (h.map _)

theorem strandedMemory_perm (perDevice : ByteCount) :
    strandedMemory perDevice devices = strandedMemory perDevice devices' := by
  apply UInt64.toNat_inj.mp
  rw [toNat_strandedMemory, toNat_strandedMemory]
  exact saturatingSum_perm _ (h.map _)

theorem totals_perm [A : Arithmetic] (demand : WorkloadDemand) (groupSize : ℕ) :
    (analyzeFragmentation devices demand groupSize).totals =
      (analyzeFragmentation devices' demand groupSize).totals := by
  have hfree : ∀ l : List DeviceInfo,
      (analyzeFragmentation l demand groupSize).totalFreeMemory = freeMemory l :=
    fun l => totalFreeMemory_scanDevices demand.minContiguousVram l 0 {}
  have husable : (analyzeFragmentation devices demand groupSize).usableForShape =
      (analyzeFragmentation devices' demand groupSize).usableForShape := by
    apply UInt64.toNat_inj.mp
    rw [toNat_usableForShape, toNat_usableForShape]
    exact saturatingSum_perm _ (h.map _)
  have hlargest : (analyzeFragmentation devices demand groupSize).largestContiguousBlock =
      (analyzeFragmentation devices' demand groupSize).largestContiguousBlock := by
    refine (largest_scanDevices demand.minContiguousVram devices 0 {}).trans
      (Eq.trans ?_ (largest_scanDevices demand.minContiguousVram devices' 0 {}).symm)
    apply h.foldl_eq'
    intro d _ e _ largest
    exact max_right_comm largest _ _
  have hcount : (analyzeFragmentation devices demand groupSize).usableDevices =
      (analyzeFragmentation devices' demand groupSize).usableDevices := by
    rw [usableDevices_analyze, usableDevices_analyze]
    exact congrArg UInt64.ofNat (h.filter _).length_eq
  have hratio : (analyzeFragmentation devices demand groupSize).fragmentationRatio =
      (analyzeFragmentation devices' demand groupSize).fragmentationRatio := by
    refine (fragmentationRatio_analyze devices demand).trans
      (Eq.trans ?_ (fragmentationRatio_analyze devices' demand).symm)
    rw [freeMemory_perm h, strandedMemory_perm h]
  simp only [FragmentationReport.totals, hfree, husable, hlargest, hcount, hratio,
    freeMemory_perm h, Prod.mk.injEq, and_true, true_and]
  exact strandedMemory_perm h demand.minContiguousVram

end

theorem strandedMemory_le_freeMemory (perDevice : ByteCount) (devices : List DeviceInfo) :
    strandedMemory perDevice devices ≤ freeMemory devices := by
  rw [UInt64.le_iff_toNat_le, toNat_strandedMemory, toNat_freeMemory]
  apply saturatingSum_mono
  intro d _
  unfold strandedWeight
  split_ifs
  · exact Nat.zero_le _
  · exact le_rfl

theorem fragmentationRatio_bounds [A : Arithmetic] (devices : List DeviceInfo)
    (demand : WorkloadDemand) :
    0 ≤ (analyzeFragmentation devices demand 0).fragmentationRatio ∧
      (analyzeFragmentation devices demand 0).fragmentationRatio ≤ 1 := by
  rw [fragmentationRatio_analyze]
  split_ifs
  · exact ⟨le_min zero_le_one (roundedRatio_nonneg _ _), min_le_left _ _⟩
  · exact ⟨le_rfl, zero_le_one⟩

theorem toNat_usableDevices [A : Arithmetic] {devices : List DeviceInfo}
    (hsize : devices.length < 2 ^ 64) (demand : WorkloadDemand) (groupSize : ℕ) :
    (analyzeFragmentation devices demand groupSize).usableDevices.toNat =
      (shapedDevices devices demand).length := by
  have hle : (shapedDevices devices demand).length ≤ devices.length := List.length_filter_le _ _
  rw [usableDevices_analyze, UInt64.toNat_ofNat', Nat.mod_eq_of_lt (hle.trans_lt hsize)]

/-- The totals do not depend on the order of the devices, what is stranded is part of
what is free, and a larger block leaves fewer devices usable and strands more. -/
theorem fleet_totals [A : Arithmetic] (devices : List DeviceInfo) (demand : WorkloadDemand)
    (groupSize : ℕ) :
    (∀ devices', devices.Perm devices' →
      (analyzeFragmentation devices' demand groupSize).totals =
        (analyzeFragmentation devices demand groupSize).totals) ∧
    (analyzeFragmentation devices demand groupSize).stranded ≤
      (analyzeFragmentation devices demand groupSize).totalFreeMemory ∧
    0 ≤ (analyzeFragmentation devices demand groupSize).fragmentationRatio ∧
    (analyzeFragmentation devices demand groupSize).fragmentationRatio ≤ 1 ∧
    ∀ a b : ByteCount, a ≤ b →
      (devices.length < 2 ^ 64 →
        (analyzeFragmentation devices { demand with minContiguousVram := b }
            groupSize).usableDevices ≤
          (analyzeFragmentation devices { demand with minContiguousVram := a }
            groupSize).usableDevices) ∧
      (analyzeFragmentation devices { demand with minContiguousVram := a } groupSize).stranded ≤
        (analyzeFragmentation devices { demand with minContiguousVram := b } groupSize).stranded ∧
      (analyzeFragmentation devices { demand with minContiguousVram := a }
          groupSize).fragmentationRatio ≤
        (analyzeFragmentation devices { demand with minContiguousVram := b }
          groupSize).fragmentationRatio := by
  refine ⟨fun devices' h => (totals_perm h demand groupSize).symm, ?_,
    (fragmentationRatio_bounds devices demand).1, (fragmentationRatio_bounds devices demand).2, ?_⟩
  · have hfree := totalFreeMemory_scanDevices demand.minContiguousVram devices 0 {}
    calc (analyzeFragmentation devices demand groupSize).stranded
        ≤ freeMemory devices := strandedMemory_le_freeMemory demand.minContiguousVram devices
      _ = (analyzeFragmentation devices demand groupSize).totalFreeMemory := hfree.symm
  · intro a b hab
    refine ⟨fun hsize => ?_, strandedMemory_mono hab devices, ?_⟩
    · rw [UInt64.le_iff_toNat_le, toNat_usableDevices hsize, toNat_usableDevices hsize]
      apply List.Sublist.length_le
      exact List.monotone_filter_right devices fun d hd => fragmentationUsable_antitone hab hd
    · exact fragmentationRatio_mono hab devices

theorem fleet_totals_oneLargeBlock :
    (analyzeFragmentation oneLargeBlock.devices.reverse twoLargeBlocks 0).totals =
      (analyzeFragmentation oneLargeBlock.devices twoLargeBlocks 0).totals ∧
    (analyzeFragmentation oneLargeBlock.devices
        { twoLargeBlocks with minContiguousVram := 8 } 0).usableDevices ≤
      (analyzeFragmentation oneLargeBlock.devices
        { twoLargeBlocks with minContiguousVram := 1 } 0).usableDevices :=
  have h := fleet_totals oneLargeBlock.devices twoLargeBlocks 0
  ⟨h.1 _ (List.reverse_perm _).symm, (h.2.2.2.2 1 8 (by decide)).1 (by decide)⟩

end CapacityFabric
