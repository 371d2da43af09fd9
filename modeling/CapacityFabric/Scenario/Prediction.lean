import CapacityFabric.Model.AddedSupply
import CapacityFabric.Model.AdvanceFence
import CapacityFabric.Model.Revalidation
import CapacityFabric.Query.FleetTotals
import CapacityFabric.Scenario.Scenario

/-!
# What a scenario foretells

Where all evidence is current and all resources serve, the verdict on a scenario that adds
resources and reservations is the one that the model gives once they have been published.
-/

namespace CapacityFabric

section Gates

variable {devices devices' : List DeviceInfo} {demand : WorkloadDemand}

theorem gatesOutcome_of_gates [A : Arithmetic]
    (htopology : topologyOk devices demand = topologyOk devices' demand)
    (hcount : countOk devices demand = countOk devices' demand)
    (hcontiguity : contiguityOk devices demand = contiguityOk devices' demand)
    (hratio : (analyzeFragmentation devices demand 0).fragmentationRatio =
      (analyzeFragmentation devices' demand 0).fragmentationRatio) (effective : Capacity) :
    gatesOutcome devices effective demand = gatesOutcome devices' effective demand := by
  have hfragmentation : fragmentationOk devices demand = fragmentationOk devices' demand := by
    unfold fragmentationOk
    rw [hratio]
  unfold gatesOutcome
  rw [htopology, hcount, hcontiguity, hfragmentation]

theorem topologyOk_described :
    topologyOk (devices.map DeviceInfo.described) demand = topologyOk devices demand := by
  simp only [topologyOk, usableDevices, byGroup, List.filter_map, List.foldl_map]
  rfl

theorem countOk_described :
    countOk (devices.map DeviceInfo.described) demand = countOk devices demand := by
  simp only [countOk, usableDevices, List.filter_map, List.length_map]
  rfl

theorem contiguityOk_described :
    contiguityOk (devices.map DeviceInfo.described) demand = contiguityOk devices demand := by
  simp only [contiguityOk, usableDevices, List.filter_map, List.any_map]
  rfl

theorem fragmentationRatio_described [A : Arithmetic] :
    (analyzeFragmentation (devices.map DeviceInfo.described) demand 0).fragmentationRatio =
      (analyzeFragmentation devices demand 0).fragmentationRatio := by
  rw [fragmentationRatio_analyze, fragmentationRatio_analyze]
  simp only [freeMemory, strandedMemory, List.foldl_map]
  rfl

theorem topologyOk_perm (h : devices.Perm devices') :
    topologyOk devices demand = topologyOk devices' demand := by
  have husable : (usableDevices devices demand).Perm (usableDevices devices' demand) := h.filter _
  rw [Bool.eq_iff_iff, topologyOk_iff, topologyOk_iff]
  refine forall₂_congr fun size _ => exists_congr fun v => ?_
  rw [husable.mem_iff, (husable.filter _).length_eq]

/-- The gates look neither at the order of the devices nor at their generations. -/
theorem gatesOutcome_congr [A : Arithmetic]
    (h : (devices.map DeviceInfo.described).Perm (devices'.map DeviceInfo.described))
    (effective : Capacity) :
    gatesOutcome devices effective demand = gatesOutcome devices' effective demand := by
  have husable := h.filter fun v => deviceCurrentlyUsable v demand
  refine gatesOutcome_of_gates ?_ ?_ ?_ ?_ effective
  · rw [← topologyOk_described, topologyOk_perm h, topologyOk_described]
  · rw [← countOk_described, countOk, usableDevices, husable.length_eq]
    exact countOk_described
  · rw [← contiguityOk_described, contiguityOk, usableDevices, husable.any_eq]
    exact contiguityOk_described
  · rw [← fragmentationRatio_described, fragmentationRatio_analyze, freeMemory_perm h,
      strandedMemory_perm h, ← fragmentationRatio_analyze, fragmentationRatio_described]

end Gates

section Sums

/-- Whichever of the capacities are added up, the sum is not rounded. -/
def SumsUnrounded [A : Arithmetic] (f : ResourceInfo → Capacity) (rs : List ResourceInfo) :
    Prop :=
  ∀ part : List ResourceInfo, part.Subperm rs → ∀ d,
    Arithmetic.round (part.map fun r => (f r).amount d).sum =
      (part.map fun r => (f r).amount d).sum

/-- Counts that add up to no more than 53 bits are added without rounding. -/
theorem sumsUnrounded_of_counts {f : ResourceInfo → Capacity} {rs : List ResourceInfo}
    (count : ResourceInfo → Dimension → ℕ) (hcount : ∀ r ∈ rs, ∀ d, (f r).amount d = count r d)
    (hle : ∀ d, (rs.map fun r => count r d).sum ≤ 2 ^ 53) : SumsUnrounded (A := .double) f rs := by
  intro part hpart d
  have hsum : (part.map fun r => (f r).amount d).sum =
      ((part.map fun r => count r d).sum : ℕ) := by
    rw [Nat.cast_list_sum, List.map_map]
    exact congrArg List.sum (List.map_congr_left fun r hr => hcount r (hpart.subset hr) d)
  have hpartle : (part.map fun r => count r d).sum ≤ (rs.map fun r => count r d).sum := by
    obtain ⟨l, hperm, hsub⟩ := hpart
    rw [← (hperm.map _).sum_eq]
    exact (hsub.map _).sum_le_sum fun _ _ => Nat.zero_le _
  rw [hsum]
  exact Arithmetic.round_natCast (hpartle.trans (hle d))

variable [A : Arithmetic] {f : ResourceInfo → Capacity} {rs rs' : List ResourceInfo}

theorem SumsUnrounded.perm (h : SumsUnrounded f rs) (hperm : rs.Perm rs') :
    SumsUnrounded f rs' :=
  fun part hpart => h part (hpart.trans hperm.symm.subperm)

theorem SumsUnrounded.amount_totalOf (h : SumsUnrounded f rs) (d : Dimension) :
    (totalOf f rs).amount d = (rs.map fun r => (f r).amount d).sum := by
  induction rs using List.reverseRecOn with
  | nil => rfl
  | append_singleton rs r ih =>
    have hprefix : rs.Subperm (rs ++ [r]) := (List.sublist_append_left rs [r]).subperm
    have hrest := ih fun part hpart => h part (hpart.trans hprefix)
    have hsum := h _ (List.Subperm.refl _) d
    have htotal : totalOf f (rs ++ [r]) = (totalOf f rs).add (f r) := by
      rw [totalOf, List.foldl_append]
      rfl
    rw [List.map_append, List.sum_append, List.map_singleton, List.sum_singleton] at hsum ⊢
    rw [htotal, Capacity.amount_add_eq, hrest]
    split_ifs with hd
    · exact hsum
    · rw [Capacity.amount_of_not_has (Bool.eq_false_iff.mpr hd), add_zero]

theorem SumsUnrounded.totalOf_perm (h : SumsUnrounded f rs) (hperm : rs.Perm rs') :
    totalOf f rs = totalOf f rs' := by
  apply Capacity.ext_entry
  intro d
  have hamount : (totalOf f rs).amount d = (totalOf f rs').amount d := by
    rw [h.amount_totalOf, (h.perm hperm).amount_totalOf, (hperm.map _).sum_eq]
  have hhas : (totalOf f rs).has d = (totalOf f rs').has d := by
    rw [has_totalOf, has_totalOf, hperm.any_eq]
  rw [Capacity.amount_eq, Capacity.amount_eq] at hamount
  rw [Capacity.has_eq, Capacity.has_eq] at hhas
  cases hrs : (totalOf f rs).entry d <;> cases hrs' : (totalOf f rs').entry d <;>
    simp_all

end Sums

theorem effectiveCapacity_congr [A : Arithmetic] {v w : FleetView}
    (havailable : v.available = w.available)
    (hreservations : v.reservations = w.reservations) (hnow : v.now = w.now) :
    effectiveCapacity v = effectiveCapacity w := by
  unfold effectiveCapacity
  rw [havailable, hreservations, hnow]

/-- What the action stands for, done to the model. -/
def ScenarioAction.carryOut (m : CapacityModel) : ScenarioAction → CapacityModel
  | .addResource added => (m.publishResource added).1
  | .addReservation added => (m.publishReservation added).1
  | _ => m

namespace CapacityModel

variable {m : CapacityModel} {v : FleetView} {a : ScenarioAction} {s : Scenario}

/-- All evidence is current, all resources serve, each on a device of its own. -/
structure InService (m : CapacityModel) : Prop where
  exists_resource : m.currentResources ≠ []
  current : ∀ r ∈ m.currentResources, m.isCurrent r = true
  usable : ∀ r ∈ m.currentResources, overlayUsable r = true
  ownDevices : (m.currentResources.map ResourceInfo.deviceId).Nodup

/-- The action is granted as a new resource or a new reservation, or is none that the verdict
of the moment depends on. -/
def Grants (m : CapacityModel) : ScenarioAction → Prop
  | .addResource r => m.resources.find? r.id = none ∧
      (∀ x ∈ m.currentResources, x.deviceId ≠ r.deviceId) ∧ overlayUsable r = true ∧
      r.bootId.valid = true ∧ (m.publishResource r).2 = true
  | .addReservation res =>
      (∀ x ∈ m.reservations, x.id ≠ res.id) ∧ (m.publishReservation res).2 = true
  | .delayRelease .. | .setHeadroom _ | .moveMaintenance _ => True
  | _ => False

/-- The changed view shows what the model holds. -/
structure Foretells (v : FleetView) (m : CapacityModel) : Prop where
  resources : v.resources.Perm m.currentResources
  reservations : v.reservations = m.reservations
  freshness : v.freshness = .fresh
  now : v.now = 0

theorem InService.fresh [A : Arithmetic] (h : m.InService) :
    (m.buildView 0).freshness = .fresh := by
  obtain ⟨r, hr⟩ := List.exists_mem_of_ne_nil _ h.exists_resource
  exact freshness_of_current hr (h.current r hr) 0

theorem Foretells.buildView [A : Arithmetic] (h : m.InService) : Foretells (m.buildView 0) m :=
  ⟨.refl _, rfl, h.fresh, rfl⟩

theorem publishResource_of_accepted {r : ResourceInfo} (h : (m.publishResource r).2 = true) :
    (m.publishResource r).1 = m.withPublished r := by
  rw [publishResource_eq] at h ⊢
  split_ifs at h ⊢
  rfl

theorem publishReservation_of_accepted {res : Reservation}
    (hnew : ∀ x ∈ m.reservations, x.id ≠ res.id) (h : (m.publishReservation res).2 = true) :
    (m.publishReservation res).1 =
      { m with
        reservationGen := (m.reservationGen.advance res.id res.generation).1
        reservations := m.reservations ++ [res] } := by
  have hfilter : (m.reservations.filter fun x => x.id ≠ res.id) = m.reservations :=
    List.filter_eq_self.mpr fun x hx => decide_eq_true (hnew x hx)
  unfold publishReservation at h ⊢
  dsimp only at h ⊢
  split_ifs at h ⊢
  rw [hfilter]

theorem perm_currentResources_withPublished {r : ResourceInfo}
    (hnew : m.resources.find? r.id = none) :
    (m.withPublished r).currentResources.Perm (r :: m.currentResources) := by
  rw [← currentResources_withoutPublished hnew]
  exact perm_currentResources find?_withPublished

theorem InService.published (h : m.InService) {r : ResourceInfo} (ha : m.Grants (.addResource r)) :
    (m.withPublished r).InService := by
  obtain ⟨hnew, hdevice, husable, hboot, haccepted⟩ := ha
  have hperm := perm_currentResources_withPublished hnew
  have hcurrent : m.isCurrent r = true :=
    isCurrent_iff.mpr ⟨hboot, isFreshBoot_iff.mp (publishResource_accepted_iff.mp haccepted).1⟩
  refine ⟨?_, fun x hx => ?_, fun x hx => ?_, ?_⟩
  · exact List.ne_nil_of_mem (hperm.mem_iff.mpr List.mem_cons_self)
  · rcases List.mem_cons.mp (hperm.mem_iff.mp hx) with rfl | hx
    · exact hcurrent
    · exact h.current x hx
  · rcases List.mem_cons.mp (hperm.mem_iff.mp hx) with rfl | hx
    · exact husable
    · exact h.usable x hx
  · refine (hperm.map ResourceInfo.deviceId).nodup_iff.mpr (List.nodup_cons.mpr ⟨fun hmem => ?_,
      h.ownDevices⟩)
    obtain ⟨x, hx, heq⟩ := List.mem_map.mp hmem
    exact hdevice x hx heq

theorem Foretells.action (hv : Foretells v m) (h : m.InService) (ha : m.Grants a) :
    (a.carryOut m).InService ∧ Foretells (applyAction v a) (a.carryOut m) := by
  cases a with
  | removeResource | cancelReservation | degradeDevice => exact ha.elim
  | delayRelease | setHeadroom | moveMaintenance =>
    exact ⟨h, hv.resources, hv.reservations, hv.freshness, hv.now⟩
  | addResource r =>
    have hpublished : (m.publishResource r).1 = m.withPublished r :=
      publishResource_of_accepted ha.2.2.2.2
    rw [ScenarioAction.carryOut, hpublished]
    refine ⟨h.published ha, ?_, hv.reservations, hv.freshness, hv.now⟩
    refine List.Perm.trans ?_ (perm_currentResources_withPublished ha.1).symm
    exact (List.perm_append_singleton r v.resources).trans (hv.resources.cons r)
  | addReservation res =>
    rw [ScenarioAction.carryOut, publishReservation_of_accepted ha.1 ha.2]
    exact ⟨⟨h.exists_resource, h.current, h.usable, h.ownDevices⟩,
      hv.resources, congrArg (· ++ [res]) hv.reservations, hv.freshness, hv.now⟩

theorem Foretells.actions (hv : Foretells v m) (h : m.InService) {as : List ScenarioAction}
    (hgranted : Runs.Always ScenarioAction.carryOut Grants m as) :
    (Runs.run ScenarioAction.carryOut m as).InService ∧
      Foretells (as.foldl applyAction v) (Runs.run ScenarioAction.carryOut m as) := by
  induction as generalizing v m with
  | nil => exact ⟨h, hv⟩
  | cons a as ih =>
    obtain ⟨h', hv'⟩ := hv.action h hgranted.1
    exact ih hv' h' hgranted.2

theorem Foretells.outcome_eq [A : Arithmetic] (hv : Foretells v m) (h : m.InService)
    (hreach : Reachable m) (hsums : SumsUnrounded ResourceInfo.free m.currentResources)
    (d : WorkloadDemand) :
    (evaluateNow (reaggregate v) d).outcome = (m.queryFeasibilityNow d).outcome := by
  cases hvalid : d.valid with
  | false => rw [outcome_of_not_valid hvalid, queryFeasibilityNow, outcome_of_not_valid hvalid]
  | true =>
    have hunflagged : ∀ r ∈ m.currentResources, r.drained = false ∧ r.maintenance = false :=
      fun r hr => by
        have husable := h.usable r hr
        simp only [overlayUsable, Bool.and_eq_true, Bool.not_eq_true'] at husable
        exact ⟨husable.1.1.2, husable.1.2⟩
    have hdevices : ((reaggregate v).devices.map DeviceInfo.described).Perm
        ((m.buildView 0).devices.map DeviceInfo.described) := by
      have hsame := (@devices_reaggregate_iff m 0 hreach).mpr ⟨h.ownDevices, hunflagged⟩
      exact (((hv.resources.map overlayDevice).map DeviceInfo.described).trans hsame)
    have heffective : effectiveCapacity (reaggregate v) = effectiveCapacity (m.buildView 0) := by
      have hall : v.resources.filter overlayUsable = v.resources :=
        List.filter_eq_self.mpr fun r hr => h.usable r (hv.resources.mem_iff.mp hr)
      have hall' : m.currentResources.filter m.isCurrent = m.currentResources :=
        List.filter_eq_self.mpr h.current
      have havailable : (reaggregate v).available = (m.buildView 0).available := by
        change totalOf ResourceInfo.free (v.resources.filter overlayUsable) =
          totalOf ResourceInfo.free (m.currentResources.filter m.isCurrent)
        rw [hall, hall']
        exact ((hsums.perm hv.resources.symm).totalOf_perm hv.resources)
      exact effectiveCapacity_congr havailable hv.reservations hv.now
    have hfresh : (reaggregate v).freshness = .fresh := hv.freshness
    rw [queryFeasibilityNow, outcome_of_fresh hvalid hfresh, outcome_of_fresh hvalid h.fresh,
      heffective]
    exact gatesOutcome_congr hdevices _

theorem reachable_carryOut (h : Reachable m) (as : List ScenarioAction) :
    Reachable (Runs.run ScenarioAction.carryOut m as) := by
  induction as generalizing m with
  | nil => exact h
  | cons a as ih =>
    refine ih ?_
    cases a with
    | addResource r => exact h.step (.publishResource r)
    | addReservation res => exact h.step (.publishReservation res)
    | _ => exact h

/-- Where all resources serve, the verdict on a scenario of granted actions is the one that the
model gives once they have been carried out, as long as no sum of free amounts is rounded. -/
theorem scenario_foretells_publications [A : Arithmetic] (hreach : Reachable m)
    (h : m.InService) (hgranted : Runs.Always ScenarioAction.carryOut Grants m s.actions)
    (hsums : SumsUnrounded ResourceInfo.free
      (Runs.run ScenarioAction.carryOut m s.actions).currentResources) (d : WorkloadDemand) :
    (m.evaluateScenario s d).outcome =
      ((Runs.run ScenarioAction.carryOut m s.actions).queryFeasibilityNow d).outcome := by
  obtain ⟨h', hv⟩ := (Foretells.buildView h).actions h hgranted
  exact hv.outcome_eq h' (reachable_carryOut hreach s.actions) hsums d

def addedThenHeld : Scenario :=
  createScenario [.addResource { healthyResource with id := ⟨3⟩, deviceId := ⟨3⟩ },
    .addReservation (hardHold 1 firstTen 1)]

theorem inService_healthyAccelerator : healthyAccelerator.InService where
  exists_resource := by decide +kernel
  current := by decide +kernel
  usable := by decide +kernel
  ownDevices := by decide +kernel

theorem grants_addedThenHeld :
    Runs.Always ScenarioAction.carryOut Grants healthyAccelerator addedThenHeld.actions := by
  refine ⟨⟨?_, ?_, ?_, ?_, ?_⟩, ⟨?_, ?_⟩, trivial⟩ <;> decide +kernel

theorem amount_free_healthyResource (d : Dimension) :
    healthyResource.free.amount d =
      ((if d = .acceleratorCount then 1 else if d = .vramBytes then 8 else 0 : ℕ) : ℚ) := by
  change ((Capacity.setVram ∅ 8).setAccelerators 1).amount d = _
  rw [Capacity.amount_setAccelerators, Capacity.amount_setVram, Capacity.amount_empty]
  split_ifs <;> rfl

theorem sumsUnrounded_addedThenHeld :
    SumsUnrounded (A := .double) ResourceInfo.free (Runs.run ScenarioAction.carryOut
      healthyAccelerator addedThenHeld.actions).currentResources := by
  have hcurrent : (Runs.run ScenarioAction.carryOut healthyAccelerator
      addedThenHeld.actions).currentResources =
        [healthyResource, { healthyResource with id := ⟨3⟩, deviceId := ⟨3⟩ }] := rfl
  rw [hcurrent]
  refine sumsUnrounded_of_counts (fun _ d =>
    if d = .acceleratorCount then 1 else if d = .vramBytes then 8 else 0) (fun r hr d => ?_)
    fun d => ?_
  · rcases List.mem_pair.mp hr with rfl | rfl <;> exact amount_free_healthyResource d
  · simp only [List.map_cons, List.map_nil, List.sum_cons, List.sum_nil]
    split_ifs <;> norm_num

theorem scenario_foretells_publications_addedThenHeld :
    (healthyAccelerator.evaluateScenario (A := .double) addedThenHeld
        (Reference.makeDemand ⟨1⟩ ⟨1⟩ 1 1)).outcome =
      ((Runs.run ScenarioAction.carryOut healthyAccelerator
        addedThenHeld.actions).queryFeasibilityNow (A := .double)
          (Reference.makeDemand ⟨1⟩ ⟨1⟩ 1 1)).outcome :=
  scenario_foretells_publications (A := .double) (Runs.Reachable.init.run _)
    inService_healthyAccelerator grants_addedThenHeld sumsUnrounded_addedThenHeld _

end CapacityModel

end CapacityFabric
