import CapacityFabric.Capacity.RoundedSums
import CapacityFabric.Foundation.SaturatingSum
import CapacityFabric.Query.ShapeFit

/-!
# More supply and less demand

What each gate asks for is still met when devices and amounts are added and when the
demand asks for less, as long as no dimension is stored that the headroom gate would
find used up.
-/

namespace CapacityFabric

theorem find?_byGroup (usable : List DeviceInfo) (label : ByteString) :
    (byGroup usable).find? label =
      if (usable.filter fun v => groupLabel v = label) = [] then none
      else some (usable.filter fun v => groupLabel v = label).length := by
  rw [byGroup, OrderedMap.find?_foldl_count, OrderedMap.find?_empty, Option.getD_none, zero_add]
  congr!

theorem topologyOk_iff {devices : List DeviceInfo} {demand : WorkloadDemand} :
    topologyOk devices demand = true ↔ ∀ size, demand.topologyGroupSize = some size →
      ∃ v ∈ usableDevices devices demand, size.toNat ≤
        ((usableDevices devices demand).filter fun w => groupLabel w = groupLabel v).length := by
  unfold topologyOk
  cases demand.topologyGroupSize with
  | none => simp
  | some size =>
    simp only [List.any_eq_true, decide_eq_true_eq, ge_iff_le, Option.some.injEq, forall_eq']
    constructor
    · rintro ⟨⟨label, n⟩, hmem, hsize⟩
      have hn := OrderedMap.find?_eq_some_iff.mpr hmem
      rw [find?_byGroup] at hn
      split_ifs at hn with hnone
      obtain ⟨v, hv⟩ := List.exists_mem_of_ne_nil _ hnone
      obtain ⟨hv, hlabel⟩ := List.mem_filter.mp hv
      refine ⟨v, hv, ?_⟩
      rw [of_decide_eq_true hlabel, Option.some.inj hn]
      exact hsize
    · rintro ⟨v, hv, hsize⟩
      refine ⟨(groupLabel v, _), OrderedMap.find?_eq_some_iff.mp ?_, hsize⟩
      rw [find?_byGroup, if_neg]
      exact List.ne_nil_of_mem (List.mem_filter.mpr ⟨hv, decide_eq_true rfl⟩)

theorem sloOk_iff [A : Arithmetic] {effective : Capacity} {demand : WorkloadDemand} :
    sloOk effective demand = true ↔ (0 < demand.sloHeadroomRequirement.value →
      (∀ d, (effective.subtractClamp demand.requirements).has d = true →
        0 < (effective.subtractClamp demand.requirements).amount d) ∧
      demand.sloHeadroomRequirement.value ≤ 1 / 2) := by
  have hentries : ∀ c : Capacity, (c.amounts.entries.all fun p => !(p.2 ≤ 0)) = true ↔
      ∀ d, c.has d = true → 0 < c.amount d := by
    intro c
    simp only [List.all_eq_true, Bool.not_eq_true', decide_eq_false_iff_not, not_le]
    constructor
    · intro h d hd
      rw [Capacity.has_eq, Option.isSome_iff_exists] at hd
      obtain ⟨v, hv⟩ := hd
      exact Capacity.amount_of_entry hv ▸ h (d, v) (OrderedMap.find?_eq_some_iff.mp hv)
    · intro h p hp
      have hv : c.entry p.1 = some p.2 := OrderedMap.find?_eq_some_iff.mpr hp
      exact Capacity.amount_of_entry hv ▸ h p.1 (by rw [Capacity.has_eq, hv, Option.isSome_some])
  unfold sloOk
  split_ifs with hslo
  · simp only [Bool.not_or, Bool.and_eq_true, Bool.not_not, hentries, Bool.not_eq_true',
      decide_eq_false_iff_not, not_lt]
    exact ⟨fun h _ => h, fun h => h hslo⟩
  · exact ⟨fun _ h => absurd h hslo, fun _ => rfl⟩

open SaturatingSum

def freeMemory (devices : List DeviceInfo) : ByteCount :=
  devices.foldl (fun total d => ByteCount.addSaturating total d.vramFree) 0

/-- What the first loop makes of a quantity to which each device contributes on its own. -/
theorem val_scanDevices {S : Type*} {perDevice : ByteCount} (val : FragmentationReport → S)
    (f : S → DeviceInfo → S)
    (hstep : ∀ i r d, ∃ r', val r' = f (val r) d ∧
      ∀ ds, scanDevices perDevice i r (d :: ds) = scanDevices perDevice (i + 1) r' ds)
    (devices : List DeviceInfo) (i : ℕ) (r : FragmentationReport) :
    val (scanDevices perDevice i r devices) = devices.foldl f (val r) := by
  induction devices generalizing i r with
  | nil => rfl
  | cons d ds ih =>
    obtain ⟨r', hval, hrest⟩ := hstep i r d
    rw [hrest, ih, hval, List.foldl_cons]

theorem totalFreeMemory_scanDevices (perDevice : ByteCount) (devices : List DeviceInfo) (i : ℕ)
    (r : FragmentationReport) :
    (scanDevices perDevice i r devices).totalFreeMemory =
      devices.foldl (fun total d => ByteCount.addSaturating total d.vramFree)
        r.totalFreeMemory := by
  apply val_scanDevices FragmentationReport.totalFreeMemory
  intro i r d
  refine ⟨_, ?_, fun ds => rfl⟩
  simp only [apply_ite FragmentationReport.totalFreeMemory, ite_self]

theorem fragmentationRatio_analyze [A : Arithmetic] (devices : List DeviceInfo)
    (demand : WorkloadDemand) :
    (analyzeFragmentation devices demand 0).fragmentationRatio =
      if freeMemory devices > 0 ∧ demand.minContiguousVram > 0 then
        min 1 (roundedRatio (strandedMemory demand.minContiguousVram devices) (freeMemory devices))
      else 0 := by
  have htotal := totalFreeMemory_scanDevices demand.minContiguousVram devices 0 {}
  simp only [analyzeFragmentation]
  rw [htotal]
  rfl

theorem fragmentationUsable_antitone {perDevice perDevice' : ByteCount} (h : perDevice ≤ perDevice')
    {d : DeviceInfo} (hd : fragmentationUsable perDevice' d = true) :
    fragmentationUsable perDevice d = true := by
  simp only [fragmentationUsable, Bool.and_eq_true, shapeSatisfiable_iff] at hd ⊢
  exact ⟨⟨⟨⟨h.trans hd.1.1.1.1, hd.1.1.1.2⟩, hd.1.1.2⟩, hd.1.2⟩, hd.2⟩

def strandedWeight (perDevice : ByteCount) (d : DeviceInfo) : ℕ :=
  if fragmentationUsable perDevice d then 0 else d.vramFree.toNat

theorem toNat_freeMemory (devices : List DeviceInfo) :
    (freeMemory devices).toNat =
      saturatingSum 18446744073709551615 (devices.map fun d => d.vramFree.toNat) :=
  foldl_eq_saturatingSum ByteCount.toNat_le_top
    (fun _ d => ByteCount.toNat_addSaturating _ d.vramFree) rfl devices

theorem toNat_strandedMemory (perDevice : ByteCount) (devices : List DeviceInfo) :
    (strandedMemory perDevice devices).toNat =
      saturatingSum 18446744073709551615 (devices.map (strandedWeight perDevice)) := by
  apply foldl_eq_saturatingSum ByteCount.toNat_le_top _ rfl
  intro stranded d
  unfold strandedWeight
  split_ifs with hd
  · exact (min_eq_left (ByteCount.toNat_le_top stranded)).symm
  · exact ByteCount.toNat_addSaturating stranded d.vramFree

theorem strandedMemory_mono {perDevice perDevice' : ByteCount} (h : perDevice ≤ perDevice')
    (devices : List DeviceInfo) :
    strandedMemory perDevice devices ≤ strandedMemory perDevice' devices := by
  rw [UInt64.le_iff_toNat_le, toNat_strandedMemory, toNat_strandedMemory]
  apply saturatingSum_mono
  intro d _
  unfold strandedWeight
  by_cases hd' : fragmentationUsable perDevice' d = true
  · rw [if_pos hd', if_pos (fragmentationUsable_antitone h hd')]
  · rw [if_neg hd']
    split_ifs
    · exact Nat.zero_le _
    · exact le_rfl

theorem roundedRatio_nonneg [A : Arithmetic] (part whole : ByteCount) :
    0 ≤ roundedRatio part whole :=
  Arithmetic.round_nonneg (div_nonneg (Arithmetic.round_nonneg (Nat.cast_nonneg _))
    (Arithmetic.round_nonneg (Nat.cast_nonneg _)))

theorem roundedRatio_mono [A : Arithmetic] {part part' : ByteCount} (h : part ≤ part')
    (whole : ByteCount) : roundedRatio part whole ≤ roundedRatio part' whole := by
  have hpart : (part.toNat : ℚ) ≤ (part'.toNat : ℚ) := by
    exact_mod_cast UInt64.le_iff_toNat_le.mp h
  apply Arithmetic.round_mono
  apply div_le_div_of_nonneg_right (Arithmetic.round_mono hpart)
  exact Arithmetic.round_nonneg (Nat.cast_nonneg _)

theorem fragmentationRatio_mono [A : Arithmetic] {demand demand' : WorkloadDemand}
    (h : demand.minContiguousVram ≤ demand'.minContiguousVram) (devices : List DeviceInfo) :
    (analyzeFragmentation devices demand 0).fragmentationRatio ≤
      (analyzeFragmentation devices demand' 0).fragmentationRatio := by
  rw [fragmentationRatio_analyze, fragmentationRatio_analyze]
  split_ifs with hshape hshape' hshape'
  · exact min_le_min_left 1 (roundedRatio_mono (strandedMemory_mono h devices) _)
  · exact absurd ⟨hshape.1, lt_of_lt_of_le hshape.2 h⟩ hshape'
  · exact le_min zero_le_one (roundedRatio_nonneg _ _)
  · exact le_rfl

/-- The primed devices, amounts and demand are no harder to match than the others. -/
structure Eases [A : Arithmetic] (devices devices' : List DeviceInfo)
    (effective effective' : Capacity) (demand demand' : WorkloadDemand) : Prop where
  usable : (usableDevices devices demand).Subperm (usableDevices devices' demand')
  groupSize : ∀ size', demand'.topologyGroupSize = some size' →
    ∃ size, demand.topologyGroupSize = some size ∧ size' ≤ size
  count : demand'.minAccelerators ≤ demand.minAccelerators
  contiguous : demand'.requiresContiguousVram = true → demand.requiresContiguousVram = true
  block : demand'.minContiguousVram ≤ demand.minContiguousVram
  amounts : ∀ d, effective.amount d ≤ effective'.amount d
  requirements : ∀ d, demand'.requirements.amount d ≤ demand.requirements.amount d
  required : ∀ d, demand'.requirements.has d = true → demand.requirements.has d = true
  fragmentation : fragmentationOk devices demand = true → fragmentationOk devices' demand' = true
  headroom : demand'.sloHeadroomRequirement.value ≤ demand.sloHeadroomRequirement.value
  /-- What is stored after placement was stored before, or is not used up. -/
  stored : ∀ d, (effective'.subtractClamp demand'.requirements).has d = true →
    (effective.subtractClamp demand.requirements).has d = true ∨
      0 < (effective'.subtractClamp demand'.requirements).amount d

section

variable [A : Arithmetic] {devices devices' : List DeviceInfo} {effective effective' : Capacity}
  {demand demand' : WorkloadDemand}

/-- More devices and larger amounts, for a demand that tolerates any fragmentation. -/
theorem Eases.ofSupply (hfragmentation : demand.maxAcceptableFragmentation = none)
    (husable : (usableDevices devices demand).Subperm (usableDevices devices' demand))
    (hamounts : ∀ d, effective.amount d ≤ effective'.amount d)
    (hstored : ∀ d, (effective'.subtractClamp demand.requirements).has d = true →
      (effective.subtractClamp demand.requirements).has d = true ∨
        0 < (effective'.subtractClamp demand.requirements).amount d) :
    Eases devices devices' effective effective' demand demand where
  usable := husable
  groupSize size hsize := ⟨size, hsize, le_rfl⟩
  count := le_rfl
  contiguous h := h
  block := le_rfl
  amounts := hamounts
  requirements _ := le_rfl
  required _ h := h
  fragmentation _ := by rw [fragmentationOk, hfragmentation]
  headroom := le_rfl
  stored := hstored

theorem Eases.topologyOk (h : Eases devices devices' effective effective' demand demand')
    (hok : topologyOk devices demand = true) : topologyOk devices' demand' = true := by
  rw [topologyOk_iff] at hok ⊢
  intro size' hsize'
  obtain ⟨size, hsize, hle⟩ := h.groupSize size' hsize'
  obtain ⟨v, hv, hgroup⟩ := hok size hsize
  refine ⟨v, h.usable.subset hv, ?_⟩
  calc size'.toNat ≤ size.toNat := UInt64.le_iff_toNat_le.mp hle
    _ ≤ _ := hgroup
    _ ≤ _ := (h.usable.filter _).length_le

theorem Eases.countOk (h : Eases devices devices' effective effective' demand demand')
    (hok : countOk devices demand = true) : countOk devices' demand' = true := by
  rw [countOk_iff] at hok ⊢
  calc demand'.minAccelerators.toNat ≤ demand.minAccelerators.toNat :=
        UInt64.le_iff_toNat_le.mp h.count
    _ ≤ _ := hok
    _ ≤ _ := h.usable.length_le

theorem Eases.contiguityOk (h : Eases devices devices' effective effective' demand demand')
    (hok : contiguityOk devices demand = true) : contiguityOk devices' demand' = true := by
  by_cases hcontiguous' : demand'.requiresContiguousVram = true
  · rw [contiguityOk_iff (h.contiguous hcontiguous')] at hok
    obtain ⟨v, hv, hblock⟩ := hok
    exact (contiguityOk_iff hcontiguous').mpr ⟨v, h.usable.subset hv, h.block.trans hblock⟩
  · simp [CapacityFabric.contiguityOk, hcontiguous']

/-- Where something was left after placement, something is left. -/
theorem Eases.pos_after (h : Eases devices devices' effective effective' demand demand')
    {d : Dimension} (hpos : 0 < (effective.subtractClamp demand.requirements).amount d) :
    0 < (effective'.subtractClamp demand'.requirements).amount d := by
  have hamounts := h.amounts d
  have hrequirements := h.requirements d
  rw [Capacity.amount_subtractClamp_eq] at hpos ⊢
  by_cases hrequired : demand.requirements.has d = true
  · have hleft : 0 < Arithmetic.round (effective.amount d - demand.requirements.amount d) := by
      rw [if_pos hrequired, lt_max_iff] at hpos
      exact hpos.resolve_right (lt_irrefl 0)
    split_ifs
    · exact lt_max_of_lt_left (hleft.trans_le (Arithmetic.round_mono (by linarith)))
    · -- Rounding makes nothing positive that was not.
      have hnonneg := demand.requirements.amount_nonneg d
      have hdifference : 0 < effective.amount d - demand.requirements.amount d := by
        by_contra hle
        exact hleft.not_ge (Arithmetic.round_nonpos (not_lt.mp hle))
      linarith
  · rw [if_neg hrequired] at hpos
    rw [if_neg (mt (h.required d) hrequired)]
    exact hpos.trans_le hamounts

theorem Eases.sloOk (h : Eases devices devices' effective effective' demand demand')
    (hok : sloOk effective demand = true) : sloOk effective' demand' = true := by
  rw [sloOk_iff] at hok ⊢
  intro hslo'
  obtain ⟨hstored, hhalf⟩ := hok (hslo'.trans_le h.headroom)
  refine ⟨fun d hd => ?_, h.headroom.trans hhalf⟩
  rcases h.stored d hd with hbefore | hpos
  · exact h.pos_after (hstored d hbefore)
  · exact hpos

theorem Eases.fitNow (h : Eases devices devices' effective effective' demand demand')
    (hfit : gatesOutcome devices effective demand = .fitNow) :
    gatesOutcome devices' effective' demand' = .fitNow := by
  rw [gatesOutcome_eq_fitNow_iff] at hfit ⊢
  obtain ⟨htopology, hcount, hcontiguity, hsatisfies, hfragmentation, hslo⟩ := hfit
  refine ⟨h.topologyOk htopology, h.countOk hcount, h.contiguityOk hcontiguity, ?_,
    h.fragmentation hfragmentation, h.sloOk hslo⟩
  rw [Capacity.satisfies_iff] at hsatisfies ⊢
  intro d
  exact (h.requirements d).trans ((hsatisfies d).trans (h.amounts d))

end

end CapacityFabric
