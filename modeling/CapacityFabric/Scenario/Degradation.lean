import CapacityFabric.Scenario.Removal

/-!
# Degrading a device in a scenario

The action fails every device that has a record in the view and a resource on it, and
never looks at the resource it names.
-/

namespace CapacityFabric

variable {base : FleetView} {s e : Scenario} {x : ResourceId}

def onDeviceOf (base : FleetView) (x : ResourceId) (r : ResourceInfo) : Bool :=
  base.resources.any fun y => decide (y.id = x) && decide (y.deviceId = r.deviceId)

/-- Whether the action fails the resource, whatever resource it names. -/
def fails (base : FleetView) (r : ResourceInfo) : Bool :=
  r.deviceId.valid && base.devices.any fun v => decide (v.id = r.deviceId)

/-- Degrading the device of `x` leaves the other devices alone: their resources keep
their health, each record of such a resource keeps the health that the view has for its
device, and no capacity is lost but what is free on the device. -/
structure DegradesOnly (base : FleetView) (x : ResourceId) (degraded empty : FleetView) :
    Prop where
  resources : ∀ (i : ℕ) (r r' : ResourceInfo), base.resources[i]? = some r →
    onDeviceOf base x r = false → degraded.resources[i]? = some r' → r'.health = r.health
  devices : ∀ (i : ℕ) (r : ResourceInfo) (v' : DeviceInfo), base.resources[i]? = some r →
    onDeviceOf base x r = false → degraded.devices[i]? = some v' →
    ∀ v ∈ base.devices, v.id = r.deviceId → v'.health = v.health
  available : ∀ d, empty.available.amount d - degraded.available.amount d ≤
    ((base.resources.filter (onDeviceOf base x)).map fun r => r.free.amount d).sum

def degrade (base : FleetView) (r : ResourceInfo) : ResourceInfo :=
  if fails base r = true then { r with health := .failed } else r

theorem degrade_health (base : FleetView) (r : ResourceInfo) :
    (degrade base r).health = if fails base r = true then .failed else r.health := by
  rw [degrade, apply_ite ResourceInfo.health]

theorem fails_iff {r : ResourceInfo} :
    fails base r = true ↔ r.deviceId.valid = true ∧ ∃ v ∈ base.devices, v.id = r.deviceId := by
  simp [fails]

/-- A resource keeps its health if it has failed already where the action fails it. -/
theorem degrade_health_eq_iff {r : ResourceInfo} :
    (degrade base r).health = r.health ↔ (fails base r = true → r.health = .failed) := by
  rw [degrade_health]
  split_ifs with hfails
  · simp [hfails, eq_comm]
  · simp [hfails]

theorem overlayUsable_degrade (base : FleetView) (r : ResourceInfo) :
    overlayUsable (degrade base r) = (overlayUsable r && !fails base r) := by
  rw [degrade]
  by_cases hfails : fails base r = true
  · simp [hfails, overlayUsable]
  · simp [hfails]

theorem resources_degraded (hs : s.actions = [.degradeDevice x]) :
    (applyScenario base s).resources = base.resources.map (degrade base) := by
  rw [applyScenario, hs]
  apply List.map_congr_left
  intro r _
  simp [degrade, fails]

theorem getElem?_resources_degraded (hs : s.actions = [.degradeDevice x]) {i : ℕ}
    {r : ResourceInfo} (hi : base.resources[i]? = some r) :
    (applyScenario base s).resources[i]? = some (degrade base r) := by
  rw [resources_degraded hs, List.getElem?_map, hi, Option.map_some]

theorem devices_degraded (hs : s.actions = [.degradeDevice x]) :
    (applyScenario base s).devices =
      base.resources.map fun r => overlayDevice (degrade base r) := by
  have hresources : (applyScenario base s).resources = _ := resources_degraded hs
  change (applyScenario base s).resources.map overlayDevice = _
  rw [hresources, List.map_map]
  rfl

theorem getElem?_devices_degraded (hs : s.actions = [.degradeDevice x]) {i : ℕ}
    {r : ResourceInfo} (hi : base.resources[i]? = some r) :
    (applyScenario base s).devices[i]? = some (overlayDevice (degrade base r)) := by
  rw [devices_degraded hs, List.getElem?_map, hi, Option.map_some]

theorem available_degraded (hs : s.actions = [.degradeDevice x]) (d : Dimension) :
    (applyScenario base s).available.amount d =
      ((base.resources.filter fun r => overlayUsable r && !fails base r).map
        fun r => r.free.amount d).sum := by
  have hamount := amount_available_reaggregate (s.actions.foldl applyAction base) d
  change _ = (((applyScenario base s).resources.filter overlayUsable).map _).sum at hamount
  rw [applyScenario, hamount, resources_degraded hs, List.filter_map, List.map_map]
  have hfilter : (base.resources.filter (overlayUsable ∘ degrade base)) =
      base.resources.filter fun r => overlayUsable r && !fails base r :=
    List.filter_congr fun r _ => overlayUsable_degrade base r
  rw [hfilter]
  congr 1
  apply List.map_congr_left
  intro r _
  rw [Function.comp_apply, degrade]
  split_ifs <;> rfl

theorem lost_degraded (hs : s.actions = [.degradeDevice x]) (he : e.actions = [])
    (d : Dimension) :
    (applyScenario base e).available.amount d - (applyScenario base s).available.amount d =
      ((base.resources.filter fun r => overlayUsable r && fails base r).map
        fun r => r.free.amount d).sum := by
  have hempty : (applyScenario base e).available.amount d =
      ((base.resources.filter overlayUsable).map fun r => r.free.amount d).sum := by
    rw [CapacityModel.applyScenario_of_nil base he, amount_available_reaggregate]
  rw [hempty, available_degraded hs, sum_filter_split overlayUsable (fails base)]
  exact add_sub_cancel_right _ _

def twoHealthy : FleetView where
  devices := [{ id := ⟨1⟩, health := .healthy }, { id := ⟨2⟩, health := .healthy }]
  resources := [{ id := ⟨1⟩, deviceId := ⟨1⟩, health := .healthy },
    { id := ⟨2⟩, deviceId := ⟨2⟩, health := .healthy }]

def firstDegraded : Scenario := CapacityModel.createScenario [.degradeDevice ⟨1⟩]

end CapacityFabric
