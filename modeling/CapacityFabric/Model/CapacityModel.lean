import CapacityFabric.Demand.Demand
import CapacityFabric.Model.Freshness
import CapacityFabric.Resource.Resource
import CapacityFabric.Timeline.Timeline

/-!
# The capacity model

The state of the authoritative controller and the operations that change it.
Each operation returns the state after it and whether it was accepted.
-/

namespace CapacityFabric

structure SourceState where
  bootId : WorkerBootId
  alive : Bool

structure CapacityModel where
  epoch : CoordinatorEpoch := ⟨1⟩
  recovered : Bool := false
  resources : OrderedMap ResourceId ResourceInfo := ∅
  devices : OrderedMap DeviceId DeviceInfo := ∅
  links : OrderedMap LinkId LinkInfo := ∅
  resourceGen : GenerationTracker .resource .resource := ∅
  reservationGen : GenerationTracker .reservation .reservation := ∅
  topologyGen : GenerationTracker .topology .topology := ∅
  healthGen : GenerationTracker .device .health := ∅
  sources : OrderedMap WorkerId SourceState := ∅
  demands : OrderedMap WorkloadDemandId WorkloadDemand := ∅
  reservations : List Reservation := []
  releases : List ReleaseEvent := []
  maintenance : List MaintenanceWindow := []
  topoGen : TopologyGeneration := default
  forecastHistory : List (TimePoint × Capacity × Capacity) := []

namespace CapacityModel

def setEpoch (m : CapacityModel) (e : CoordinatorEpoch) : CapacityModel := { m with epoch := e }

/-- A live incarnation cannot be replaced by one with a different boot id. -/
def registerWorker (m : CapacityModel) (w : WorkerId) (b : WorkerBootId) : CapacityModel × Bool :=
  if !w.valid || !b.valid then (m, false)
  else if (m.sources.find? w).any fun s => s.alive && s.bootId ≠ b then (m, false)
  else ({ m with sources := m.sources.insert w ⟨b, true⟩ }, true)

def unregisterWorker (m : CapacityModel) (w : WorkerId) : CapacityModel × Bool :=
  match m.sources.find? w with
  | none => (m, false)
  | some s => ({ m with sources := m.sources.insert w { s with alive := false } }, true)

def markWorkerDead (m : CapacityModel) (w : WorkerId) : CapacityModel :=
  match m.sources.find? w with
  | none => m
  | some s => { m with sources := m.sources.insert w { s with alive := false } }

def workerAlive (m : CapacityModel) (w : WorkerId) : Bool :=
  (m.sources.find? w).any SourceState.alive

def isFreshBoot (m : CapacityModel) (w : WorkerId) (b : WorkerBootId) : Bool :=
  (m.sources.find? w).any fun s => s.alive && s.bootId = b

/-- The device record that a published resource leaves. -/
def publishedDevice (r : ResourceInfo) : DeviceInfo where
  id := r.deviceId
  generation := ⟨r.generation.value⟩
  nodeId := r.nodeId
  capability := r.capability
  vramTotal := r.nominal.vram
  vramFree := r.free.vram
  health := r.health
  provenance := r.provenance

def publishResource (m : CapacityModel) (r : ResourceInfo) : CapacityModel × Bool :=
  match m.sources.find? r.worker with
  | none => (m, false)
  | some s =>
    if !s.alive || s.bootId ≠ r.bootId then (m, false)
    else
      let cur := m.resourceGen.current r.id
      -- A stale generation must never be re-admitted.
      if cur.valid && r.generation.value < cur.value then (m, false)
      else
        ({ m with
          resourceGen := (m.resourceGen.advance r.id r.generation).1
          resources := m.resources.insert r.id r
          devices := m.devices.insert r.deviceId (publishedDevice r) }, true)

def advanceResourceGeneration (m : CapacityModel) (id : ResourceId) : CapacityModel × Bool :=
  match m.resources.find? id with
  | none => (m, false)
  | some r =>
    let next := (m.resourceGen.current id).advance
    let (tracker, accepted) := m.resourceGen.advance id next
    if !accepted then (m, false)
    else
      ({ m with
        resourceGen := tracker
        resources := m.resources.insert id { r with generation := next }
        devices := m.devices.alter r.deviceId fun d =>
          d.map fun d => { d with generation := ⟨next.value⟩ } }, true)

def publishReservation (m : CapacityModel) (res : Reservation) : CapacityModel × Bool :=
  let cur := m.reservationGen.current res.id
  if cur.valid && res.generation.value < cur.value then (m, false)
  else
    -- An equal generation replaces what it published before.
    ({ m with
      reservationGen := (m.reservationGen.advance res.id res.generation).1
      reservations := (m.reservations.filter fun r => r.id ≠ res.id) ++ [res] }, true)

def publishRelease (m : CapacityModel) (rel : ReleaseEvent) : CapacityModel × Bool :=
  ({ m with
    releases := (m.releases.filter fun r => r.sourceId ≠ rel.sourceId) ++ [rel] }, true)

def registerDemand (m : CapacityModel) (d : WorkloadDemand) : CapacityModel × Bool :=
  -- Demands have no tracker: the stored demand stands for it.
  let cur := ((m.demands.find? d.id).map WorkloadDemand.generation).getD default
  if cur.valid && d.generation.value < cur.value then (m, false)
  else ({ m with demands := m.demands.insert d.id d }, true)

def registerTopology (m : CapacityModel) (links : List LinkInfo) (gen : TopologyGeneration) :
    CapacityModel × Bool :=
  -- There is one topology, tracked under a fixed id.
  let cur := m.topologyGen.current ⟨1⟩
  if cur.valid && gen.value < cur.value then (m, false)
  else
    ({ m with
      topologyGen := (m.topologyGen.advance ⟨1⟩ gen).1
      topoGen := gen
      links := links.foldl (fun ls l => ls.insert l.id l) m.links }, true)

def setHealth (m : CapacityModel) (id : DeviceId) (h : HealthState) (gen : HealthGeneration) :
    CapacityModel × Bool :=
  let cur := m.healthGen.current id
  if cur.valid && gen.value < cur.value then (m, false)
  else
    -- The resources on the device keep the health they were published with.
    ({ m with
      healthGen := (m.healthGen.advance id gen).1
      devices := m.devices.alter id fun d => d.map fun d => { d with health := h } }, true)

def recordForecast (m : CapacityModel) (at_ : TimePoint) (expected : Capacity) : CapacityModel :=
  { m with forecastHistory := m.forecastHistory ++ [(at_, expected, ∅)] }

def observeFirst (at_ : TimePoint) (observed : Capacity) :
    List (TimePoint × Capacity × Capacity) → List (TimePoint × Capacity × Capacity)
  | [] => []
  | (t, e, o) :: rest =>
    if t = at_ then (t, e, observed) :: rest else (t, e, o) :: observeFirst at_ observed rest

def recordObserved (m : CapacityModel) (at_ : TimePoint) (observed : Capacity) : CapacityModel :=
  { m with forecastHistory := observeFirst at_ observed m.forecastHistory }

end CapacityModel

end CapacityFabric
