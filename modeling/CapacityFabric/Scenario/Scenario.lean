import CapacityFabric.Model.Aggregates
import CapacityFabric.Model.StaleEvidence

/-!
# What-if scenarios

A scenario changes a copy of a view, and the copy is aggregated anew.  What is
available is then decided by health and flags, where the view of a model goes by the
source of the evidence.
-/

namespace CapacityFabric

/-- A hypothetical change to a view. -/
inductive ScenarioAction
  | removeResource (resource : ResourceId)
  | addResource (added : ResourceInfo)
  | cancelReservation (reservation : ReservationId)
  | addReservation (added : Reservation)
  | delayRelease (source : ForecastSourceId) (delay : DurationNs)
  | degradeDevice (resource : ResourceId)
  | setHeadroom (sloHeadroom : CapacityFraction)
  | moveMaintenance (maintenance : Interval)

structure Scenario where
  id : ScenarioId
  generation : ScenarioGeneration
  actions : List ScenarioAction
  provenance : Provenance := .synthetic
  authoritative : Bool := false

def Scenario.valid (s : Scenario) : Bool := s.id.valid && s.generation.valid && !s.authoritative

/-- The view after one action, not yet aggregated. -/
def applyAction (v : FleetView) : ScenarioAction → FleetView
  | .removeResource resource =>
    -- The devices go too, whatever else is on them.
    let owned := (v.resources.filter fun r => r.id = resource).map ResourceInfo.deviceId
    { v with
      resources := v.resources.filter fun r => r.id ≠ resource
      devices := v.devices.filter fun d => d.id ∉ owned }
  | .addResource added => { v with resources := v.resources ++ [added] }
  | .cancelReservation reservation =>
    { v with reservations := v.reservations.filter fun r => r.id ≠ reservation }
  | .addReservation added => { v with reservations := v.reservations ++ [added] }
  | .delayRelease source delay =>
    { v with
      releases := v.releases.map fun e =>
        if e.sourceId = source then
          { e with time := e.time + delay, earliest := e.earliest + delay
                   latest := e.latest + delay }
        else e }
  | .degradeDevice _ =>
    -- The resource that the action names is not looked at: every device fails.
    { v with
      devices := v.devices.map fun d =>
        if d.id.valid ∧ v.resources.any (fun r => r.deviceId = d.id) then
          { d with health := .failed }
        else d
      resources := v.resources.map fun r =>
        if r.deviceId.valid ∧ v.devices.any (fun d => d.id = r.deviceId) then
          { r with health := .failed }
        else r }
  | .setHeadroom _ => v
  | .moveMaintenance maintenance =>
    { v with maintenance := v.maintenance ++ [⟨maintenance, ∅⟩] }

def overlayDevice (r : ResourceInfo) : DeviceInfo where
  id := r.deviceId
  nodeId := r.nodeId
  capability := r.capability
  vramTotal := r.nominal.vram
  vramFree := r.free.vram
  health := r.health
  provenance := r.provenance
  drained := r.drained
  maintenance := r.maintenance
  freeBlocks := r.freeBlocks

/-- Whether the changed view counts what is free on a resource. -/
def overlayUsable (r : ResourceInfo) : Bool :=
  r.health ≠ .failed && !r.drained && !r.maintenance && r.health ≠ .unknown

/-- The view with its devices and totals made anew from its resources. -/
def reaggregate [A : Arithmetic] (v : FleetView) : FleetView :=
  let nominal := totalOf ResourceInfo.nominal v.resources
  let committed := totalOf ResourceInfo.committed v.resources
  let unavailable := totalOf ResourceInfo.unavailable v.resources
  let available := totalOf ResourceInfo.free (v.resources.filter overlayUsable)
  { v with
    devices := v.resources.map overlayDevice
    available := available
    nominal := nominal
    committed := committed
    unavailable := unavailable
    currentUse :=
      ((nominal.subtractClamp available).subtractClamp committed).subtractClamp unavailable
    provenance := .synthetic }

def applyScenario [A : Arithmetic] (base : FleetView) (s : Scenario) : FleetView :=
  reaggregate (s.actions.foldl applyAction base)

namespace CapacityModel

def createScenario (actions : List ScenarioAction) : Scenario where
  id := ⟨1⟩
  generation := ⟨1⟩
  actions := actions

def evaluateScenario [A : Arithmetic] (m : CapacityModel) (s : Scenario) (d : WorkloadDemand) :
    FeasibilityResult :=
  let r := evaluateNow (applyScenario (m.buildView 0) s) d
  { r with
    mode := .whatIf
    bottleneck :=
      if r.outcome = .fitNow then
        { r.bottleneck with message := "WHAT_IF: " ++ r.bottleneck.message }
      else r.bottleneck }

end CapacityModel

/-- What is said of a device, apart from its generation and provenance. -/
def DeviceInfo.described (v : DeviceInfo) : DeviceInfo :=
  { v with generation := default, provenance := default }

structure SameFleet (v w : FleetView) : Prop where
  available : ∀ d, v.available.amount d = w.available.amount d
  nominal : ∀ d, v.nominal.amount d = w.nominal.amount d
  committed : ∀ d, v.committed.amount d = w.committed.amount d
  unavailable : ∀ d, v.unavailable.amount d = w.unavailable.amount d
  currentUse : ∀ d, v.currentUse.amount d = w.currentUse.amount d
  devices : (v.devices.map DeviceInfo.described).Perm (w.devices.map DeviceInfo.described)

theorem sum_filter_split {α : Type*} (p q : α → Bool) (w : α → ℚ) (l : List α) :
    ((l.filter p).map w).sum =
      ((l.filter fun a => p a && q a).map w).sum +
        ((l.filter fun a => p a && !q a).map w).sum := by
  simp only [SortBy.sum_map_filter]
  rw [← List.sum_map_add]
  congr 1
  apply List.map_congr_left
  intro a _
  cases p a <;> cases q a <;> simp

theorem sum_filter_common {α : Type*} (p q : α → Bool) (w : α → ℚ) (l : List α) :
    ∃ common,
      ((l.filter p).map w).sum = common + ((l.filter fun a => p a && !q a).map w).sum ∧
      ((l.filter q).map w).sum = common + ((l.filter fun a => q a && !p a).map w).sum := by
  refine ⟨_, sum_filter_split p q w l, ?_⟩
  have hboth : (l.filter fun a => p a && q a) = l.filter fun a => q a && p a :=
    List.filter_congr fun a _ => Bool.and_comm _ _
  rw [sum_filter_split q p, hboth]

theorem sum_filter_eq_iff {α : Type*} (p q : α → Bool) (w : α → ℚ) (l : List α) :
    ((l.filter p).map w).sum = ((l.filter q).map w).sum ↔
      ((l.filter fun a => p a && !q a).map w).sum =
        ((l.filter fun a => q a && !p a).map w).sum := by
  obtain ⟨common, hp, hq⟩ := sum_filter_common p q w l
  rw [hp, hq]
  exact add_right_inj common

theorem sum_filter_le_iff {α : Type*} (p q : α → Bool) (w : α → ℚ) (l : List α) :
    ((l.filter p).map w).sum ≤ ((l.filter q).map w).sum ↔
      ((l.filter fun a => p a && !q a).map w).sum ≤
        ((l.filter fun a => q a && !p a).map w).sum := by
  obtain ⟨common, hp, hq⟩ := sum_filter_common p q w l
  rw [hp, hq]
  exact add_le_add_iff_left common

theorem sum_filter_le_of_imp {α : Type*} {p q : α → Bool} {w : α → ℚ} (hw : ∀ a, 0 ≤ w a)
    {l : List α} (hpq : ∀ a ∈ l, p a = true → q a = true) :
    ((l.filter p).map w).sum ≤ ((l.filter q).map w).sum := by
  have hnone : (l.filter fun a => p a && !q a) = [] := by
    rw [List.filter_eq_nil_iff]
    intro a ha
    cases hp : p a
    · simp
    · simp [hpq a ha hp]
  rw [sum_filter_le_iff, hnone]
  apply List.sum_nonneg
  intro y hy
  obtain ⟨a, -, rfl⟩ := List.mem_map.mp hy
  exact hw a

namespace CapacityModel

variable {m : CapacityModel} {now : TimePoint} {s : Scenario}

/-- Every resource is on a device of its own, none carries a flag, and what is free on
those that only the model counts makes up for what is free on those that only the
overlay counts. -/
structure OverlayAgrees (m : CapacityModel) : Prop where
  ownDevices : (m.currentResources.map ResourceInfo.deviceId).Nodup
  unflagged : ∀ r ∈ m.currentResources, r.drained = false ∧ r.maintenance = false
  balanced : ∀ d,
    ((m.currentResources.filter fun r => overlayUsable r && !m.isCurrent r).map
        fun r => r.free.amount d).sum =
      ((m.currentResources.filter fun r => m.isCurrent r && !overlayUsable r).map
        fun r => r.free.amount d).sum

theorem applyScenario_of_nil (base : FleetView) (hs : s.actions = []) :
    applyScenario base s = reaggregate base := by
  rw [applyScenario, hs]
  rfl

theorem available_reaggregate_iff :
    (∀ d, (reaggregate (m.buildView now)).available.amount d =
        (m.buildView now).available.amount d) ↔
      ∀ d, ((m.currentResources.filter fun r => overlayUsable r && !m.isCurrent r).map
          fun r => r.free.amount d).sum =
        ((m.currentResources.filter fun r => m.isCurrent r && !overlayUsable r).map
          fun r => r.free.amount d).sum := by
  apply forall_congr'
  intro d
  rw [← sum_filter_eq_iff, ← amount_totalOf, ← amount_totalOf]
  rfl

theorem described_viewDevice (h : Reachable m) {r : ResourceInfo} (hdrained : r.drained = false)
    (hmaintenance : r.maintenance = false) :
    (overlayDevice r).described = (m.viewDevice r).described := by
  obtain ⟨hd, hm⟩ := unflagged_viewDevice h r
  simp only [viewDevice] at hd hm
  simp [DeviceInfo.described, overlayDevice, viewDevice, hd, hm, hdrained, hmaintenance]

/-- The overlay lists a device for each resource and shows its flags. -/
theorem devices_reaggregate_iff (h : Reachable m) :
    ((reaggregate (m.buildView now)).devices.map DeviceInfo.described).Perm
        ((m.buildView now).devices.map DeviceInfo.described) ↔
      (m.currentResources.map ResourceInfo.deviceId).Nodup ∧
        ∀ r ∈ m.currentResources, r.drained = false ∧ r.maintenance = false := by
  change ((m.currentResources.map overlayDevice).map DeviceInfo.described).Perm
    ((m.viewDevices m.currentResources).map DeviceInfo.described) ↔ _
  constructor
  · intro hperm
    constructor
    · have hids := (hperm.map DeviceInfo.id).nodup_iff.mpr (by
        rw [List.map_map]
        exact m.nodup_viewDevices _)
      rwa [List.map_map, List.map_map] at hids
    · -- A view never flags a device, so neither may the overlay.
      intro r hr
      have hmem : (overlayDevice r).described ∈
          (m.viewDevices m.currentResources).map DeviceInfo.described :=
        hperm.mem_iff.mp (List.mem_map_of_mem (List.mem_map_of_mem hr))
      obtain ⟨v, hv, heq⟩ := List.mem_map.mp hmem
      obtain ⟨x, -, rfl⟩ := mem_viewDevices hv
      obtain ⟨hd, hm⟩ := unflagged_viewDevice h x
      exact ⟨(congrArg DeviceInfo.drained heq).symm.trans hd,
        (congrArg DeviceInfo.maintenance heq).symm.trans hm⟩
  · rintro ⟨hnodup, hflags⟩
    have heq : (m.currentResources.map overlayDevice).map DeviceInfo.described =
        (m.currentResources.map m.viewDevice).map DeviceInfo.described := by
      rw [List.map_map, List.map_map]
      exact List.map_congr_left fun r hr =>
        described_viewDevice h (hflags r hr).1 (hflags r hr).2
    rw [heq]
    exact (m.perm_viewDevices_of_nodup hnodup).symm.map _

end CapacityModel

end CapacityFabric
