import CapacityFabric.Model.AddedSupply

/-!
# Who decides the health of a device

A health report is written to the device record, but a view takes the health of a device
from the last resource on it.
-/

namespace CapacityFabric

namespace CapacityModel

variable {m : CapacityModel} {id : DeviceId} {h : HealthState}

/-- Views show the device, if at all, with the health, and do not count it as usable
where the health rules that out. -/
def ShowsHealth (m : CapacityModel) (id : DeviceId) (h : HealthState) : Prop :=
  ∀ now, ∀ v ∈ (m.buildView now).devices, v.id = id → v.health = h ∧
    (h.unusable = true → ∀ demand, v ∉ usableDevices (m.buildView now).devices demand)

def CarriesHealth (m : CapacityModel) (id : DeviceId) (h : HealthState) : Prop :=
  ∀ k x, m.resources.find? k = some x → x.deviceId = id → x.health = h

/-- The step is no accepted publication of a resource on the device, nor a load of one
with another health. -/
def LeavesHealth (id : DeviceId) (h : HealthState) (s : CapacityModel) (op : ModelOp) : Prop :=
  (∀ r, op = .publishResource r → (s.publishResource r).2 = true → r.deviceId ≠ id) ∧
    ∀ bytes, op = .load bytes → (s.load bytes).1.CarriesHealth id h

theorem CarriesHealth.shows (hcarries : m.CarriesHealth id h) : m.ShowsHealth id h := by
  intro now v hv hid
  obtain ⟨x, hx, rfl⟩ := mem_viewDevices hv
  obtain ⟨p, hp, rfl⟩ := List.mem_map.mp hx
  have hhealth : p.2.health = h := hcarries p.1 p.2 (OrderedMap.find?_eq_some_iff.mpr hp) hid
  refine ⟨hhealth, fun hunusable demand hmem => ?_⟩
  have husable := (List.mem_filter.mp hmem).2
  have hview : (m.viewDevice p.2).health.unusable = true := by
    change p.2.health.unusable = true
    rw [hhealth, hunusable]
  rw [deviceCurrentlyUsable_of_unusable hview] at husable
  exact Bool.false_ne_true husable

theorem health_of_shows {k : ResourceId} {x : ResourceInfo} (hshows : m.ShowsHealth id h)
    (hx : m.resources.find? k = some x) (hid : x.deviceId = id)
    (honly : ∀ k' y, m.resources.find? k' = some y → y.deviceId = id → y = x) : x.health = h := by
  have hmem : x ∈ m.currentResources.filter fun y => y.deviceId = id :=
    List.mem_filter.mpr
      ⟨List.mem_map.mpr ⟨(k, x), OrderedMap.find?_eq_some_iff.mp hx, rfl⟩, decide_eq_true hid⟩
  have hlast : (m.currentResources.filter fun y => y.deviceId = id).getLast? = some x := by
    obtain ⟨y, hy⟩ : ∃ y, (m.currentResources.filter fun y => y.deviceId = id).getLast? =
        some y := ⟨_, List.getLast?_eq_some_getLast (List.ne_nil_of_mem hmem)⟩
    obtain ⟨hycurrent, hyid⟩ := List.mem_filter.mp (List.mem_of_getLast? hy)
    obtain ⟨p, hp, rfl⟩ := List.mem_map.mp hycurrent
    rw [hy, honly p.1 p.2 (OrderedMap.find?_eq_some_iff.mpr hp) (of_decide_eq_true hyid)]
  have hview : m.viewDevice x ∈ (m.buildView 0).devices :=
    mem_viewDevices_iff.mpr ⟨x, by rw [hid]; exact hlast, rfl⟩
  exact (hshows 0 _ hview hid).1

theorem CarriesHealth.step (hcarries : m.CarriesHealth id h) {op : ModelOp}
    (hop : LeavesHealth id h m op) : (m.step op).CarriesHealth id h := by
  rcases step_cases m op with ⟨bytes, rfl, heq⟩ | heq | haccepted
  · rw [heq]
    exact hop.2 bytes rfl
  · rwa [heq]
  · have hpublish := hop.1
    generalize m.step op = m' at haccepted ⊢
    cases haccepted with
    | @publishResource r hboot hgen =>
      have hdevice : r.deviceId ≠ id := by
        apply hpublish r rfl
        rw [publishResource_eq, hboot, hgen]
        rfl
      intro k x hx hid
      dsimp only at hx
      rw [OrderedMap.find?_insert] at hx
      split_ifs at hx
      · exact absurd (Option.some.inj hx ▸ hid) hdevice
      · exact hcarries k x hx hid
    | @advanceResourceGeneration k' r hr =>
      intro k x hx hid
      dsimp only at hx
      rw [OrderedMap.find?_insert] at hx
      split_ifs at hx
      · -- Advancing leaves device and health of the resource.
        obtain rfl := Option.some.inj hx
        exact hcarries k' r hr hid
      · exact hcarries k x hx hid
    | _ => exact hcarries

theorem CarriesHealth.run (hcarries : m.CarriesHealth id h) {ops : List ModelOp}
    (hops : Runs.Always CapacityModel.step (LeavesHealth id h) m ops) :
    (Runs.run CapacityModel.step m ops).CarriesHealth id h := by
  induction ops generalizing m with
  | nil => exact hcarries
  | cons op ops ih => exact ih (hcarries.step hops.1) hops.2

def relocated (w : WorkerId) (b : WorkerBootId) (device : DeviceId) (k : ResourceId) :
    ResourceInfo where
  id := k
  generation := ⟨18446744073709551615⟩
  deviceId := device
  worker := w
  bootId := b

section

variable {w : WorkerId} {b : WorkerBootId} {device : DeviceId}

theorem step_relocated (hfresh : m.isFreshBoot w b = true) (device : DeviceId) (k : ResourceId) :
    (m.step (.publishResource (relocated w b device k))).resources =
        m.resources.insert k (relocated w b device k) ∧
      (m.step (.publishResource (relocated w b device k))).sources = m.sources := by
  have hstale : m.resourceGen.isStale (relocated w b device k).id
      (relocated w b device k).generation = false := by
    have hlt := (m.resourceGen.current k).value.toNat_lt
    have hlast : ¬(18446744073709551615 : UInt64) < (m.resourceGen.current k).value := by
      rw [UInt64.lt_iff_toNat_lt]
      have hmax : (18446744073709551615 : UInt64).toNat = 18446744073709551615 := rfl
      omega
    simp [GenerationTracker.isStale, relocated, hlast]
  have hboot : m.isFreshBoot (relocated w b device k).worker (relocated w b device k).bootId =
      true := hfresh
  rw [step, apply, publishResource_eq, hstale, hboot]
  exact ⟨rfl, rfl⟩

theorem run_relocated (hfresh : m.isFreshBoot w b = true) (device : DeviceId)
    (ks : List ResourceId) (k : ResourceId) :
    (Runs.run step m (ks.map fun k => .publishResource (relocated w b device k))).resources.find?
        k = if k ∈ ks then some (relocated w b device k) else m.resources.find? k := by
  induction ks generalizing m with
  | nil => rfl
  | cons k' ks ih =>
    obtain ⟨hresources, hsources⟩ := step_relocated hfresh device k'
    have hfresh' : (m.step (.publishResource (relocated w b device k'))).isFreshBoot w b =
        true := by
      rw [isFreshBoot, hsources]
      exact hfresh
    rw [List.map_cons, Runs.run_cons, ih hfresh', hresources, OrderedMap.find?_insert]
    by_cases hk : k = k'
    · simp [hk]
    · simp [hk]

theorem leavesHealth_relocated (hdevice : device ≠ id) (ks : List ResourceId) :
    Runs.Always step (LeavesHealth id h) m
      (ks.map fun k => .publishResource (relocated w b device k)) := by
  rw [Runs.always_iff]
  intro before op after heq
  have hmem : op ∈ ks.map fun k => ModelOp.publishResource (relocated w b device k) :=
    heq ▸ List.mem_append_right before List.mem_cons_self
  obtain ⟨k, -, rfl⟩ := List.mem_map.mp hmem
  constructor
  · intro r hr _
    rw [← ModelOp.publishResource.inj hr]
    exact hdevice
  · intro bytes hload
    cases hload

end

theorem leavesHealth_registrations {ops : List ModelOp}
    (hops : ∀ op ∈ ops, ∃ w b, op = .registerWorker w b) :
    Runs.Always step (LeavesHealth id h) m ops := by
  rw [Runs.always_iff]
  rintro before op after rfl
  obtain ⟨w, b, rfl⟩ := hops op (List.mem_append_right before List.mem_cons_self)
  constructor
  · intro r hr _
    cases hr
  · intro bytes hload
    cases hload

theorem carriesHealth_of_shows
    (hshows : ∀ ops, Runs.Always step (LeavesHealth id h) m ops →
      (Runs.run step m ops).ShowsHealth id h) : m.CarriesHealth id h := by
  intro k₀ x hx hid
  obtain ⟨ops, hops, w, b, hfresh, -, hresources⟩ := exists_freshBoot m
  let device : DeviceId := ⟨id.value + 1⟩
  have hdevice : device ≠ id := by
    intro heq
    have hvalue : id.value + 1 = id.value := congrArg StrongId.value heq
    simp at hvalue
  -- All other resources are published anew on another device.
  let others := (m.resources.entries.map Prod.fst).filter fun k => k ≠ k₀
  let moves := others.map fun k => ModelOp.publishResource (relocated w b device k)
  have hquiet : Runs.Always step (LeavesHealth id h) m (ops ++ moves) :=
    Runs.always_append.mpr ⟨leavesHealth_registrations hops, leavesHealth_relocated hdevice others⟩
  have hfound : ∀ k, (Runs.run step m (ops ++ moves)).resources.find? k =
      if k ∈ others then some (relocated w b device k) else m.resources.find? k := by
    intro k
    rw [Runs.run_append, run_relocated hfresh, hresources]
  refine health_of_shows (hshows _ hquiet) (k := k₀) ?_ hid ?_
  · rw [hfound, if_neg (by simp [others])]
    exact hx
  · intro k y hy hyid
    rw [hfound] at hy
    split_ifs at hy with hk
    · exact absurd ((congrArg ResourceInfo.deviceId (Option.some.inj hy)).trans hyid) hdevice
    · have hmem : k ∈ m.resources.entries.map Prod.fst :=
        List.mem_map.mpr ⟨(k, y), OrderedMap.find?_eq_some_iff.mp hy, rfl⟩
      have hk₀ : k = k₀ := by
        by_contra hne
        exact hk (List.mem_filter.mpr ⟨hmem, decide_eq_true hne⟩)
      rw [hk₀, hx] at hy
      exact (Option.some.inj hy).symm

/-- A health report is honoured, as long as nothing about the device is published or
loaded with another health, exactly when every resource on the device says the same. -/
theorem setHealth_honoured_iff (m : CapacityModel) (id : DeviceId) (h : HealthState)
    (gen : HealthGeneration) :
    (∀ ops, Runs.Always step (LeavesHealth id h) (m.step (.setHealth id h gen)) ops →
      (Runs.run step (m.step (.setHealth id h gen)) ops).ShowsHealth id h) ↔
    ∀ k x, m.resources.find? k = some x → x.deviceId = id → x.health = h := by
  have hresources : (m.step (.setHealth id h gen)).resources = m.resources := by
    rw [step, apply, setHealth]
    split_ifs <;> rfl
  have hcarries : (m.step (.setHealth id h gen)).CarriesHealth id h ↔
      ∀ k x, m.resources.find? k = some x → x.deviceId = id → x.health = h := by
    rw [CarriesHealth, hresources]
  rw [← hcarries]
  exact ⟨carriesHealth_of_shows, fun hcarries ops hops => (hcarries.run hops).shows⟩

theorem failure_report_ignored :
    ¬ ∀ (m : CapacityModel) (id : DeviceId) (h : HealthState) (gen : HealthGeneration),
      Reachable m → (∃ k x, m.resources.find? k = some x ∧ x.deviceId = id) →
      (m.setHealth id h gen).2 = true → ∀ ops : List ModelOp,
      Runs.Always step (fun s op => ∀ r, op = .publishResource r →
        (s.publishResource r).2 = true → r.deviceId ≠ id) (m.step (.setHealth id h gen)) ops →
      (Runs.run step (m.step (.setHealth id h gen)) ops).ShowsHealth id h := by
  intro hclaim
  have hreachable : Reachable healthyAccelerator := Runs.Reachable.init.run _
  have hshows := hclaim healthyAccelerator ⟨1⟩ .failed ⟨1⟩ hreachable
    ⟨⟨1⟩, healthyResource, rfl, rfl⟩ rfl [] trivial
  have hhealth := health_of_shows (k := ⟨1⟩) (x := healthyResource) hshows rfl rfl ?_
  · exact absurd hhealth (by decide)
  · intro k y hy _
    have hentries : (healthyAccelerator.step (.setHealth ⟨1⟩ .failed ⟨1⟩)).resources.entries =
        [(⟨1⟩, healthyResource)] := rfl
    have hmem := OrderedMap.find?_eq_some_iff.mp hy
    rw [Runs.run_nil, hentries, List.mem_singleton] at hmem
    exact (Prod.ext_iff.mp hmem).2

end CapacityModel

end CapacityFabric
