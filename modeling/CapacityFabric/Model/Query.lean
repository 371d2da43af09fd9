import CapacityFabric.Model.CapacityModel
import CapacityFabric.Query.EarliestFit
import CapacityFabric.Query.Feasibility
import CapacityFabric.Query.Headroom

/-!
# Views and queries of the capacity model
-/

namespace CapacityFabric

def totalOf [A : Arithmetic] (f : ResourceInfo → Capacity) (rs : List ResourceInfo) : Capacity :=
  rs.foldl (fun total r => total.add (f r)) ∅

namespace CapacityModel

/-- The resources in the order of their ids. -/
def currentResources (m : CapacityModel) : List ResourceInfo := m.resources.entries.map Prod.snd

/-- Whether the evidence on a resource comes from a live incarnation. -/
def isCurrent (m : CapacityModel) (r : ResourceInfo) : Bool :=
  r.isCurrentDynamic && (m.sources.find? r.worker).any fun s => s.alive && s.bootId = r.bootId

/-- The device record of a resource in a view: the stored one, brought up to date. -/
def viewDevice (m : CapacityModel) (r : ResourceInfo) : DeviceInfo :=
  { (m.devices.find? r.deviceId).getD {} with
    id := r.deviceId
    generation := ⟨r.generation.value⟩
    nodeId := r.nodeId
    capability := r.capability
    vramTotal := r.nominal.vram
    vramFree := r.free.vram
    health := r.health
    provenance := r.provenance
    freeBlocks := r.freeBlocks }

/-- The device records of the resources; the last resource of a device decides. -/
def deviceIndex (m : CapacityModel) (rs : List ResourceInfo) : OrderedMap DeviceId DeviceInfo :=
  rs.foldl (fun index r => index.insert r.deviceId (m.viewDevice r)) ∅

def viewDevices (m : CapacityModel) (rs : List ResourceInfo) : List DeviceInfo :=
  (m.deviceIndex rs).entries.map Prod.snd

def buildView [A : Arithmetic] (m : CapacityModel) (now : TimePoint) : FleetView :=
  let rs := m.currentResources
  let anyStale := rs.any fun r => !m.isCurrent r
  let anyCurrent := rs.any m.isCurrent
  let nominal := totalOf ResourceInfo.nominal rs
  let committed := totalOf ResourceInfo.committed rs
  let unavailable := totalOf ResourceInfo.unavailable rs
  -- Only current evidence counts as available; the other totals take in every resource.
  let available := totalOf ResourceInfo.free (rs.filter m.isCurrent)
  { devices := m.viewDevices rs
    resources := rs
    available := available
    nominal := nominal
    committed := committed
    unavailable := unavailable
    currentUse :=
      ((nominal.subtractClamp available).subtractClamp committed).subtractClamp unavailable
    reservations := m.reservations
    releases := m.releases
    maintenance := m.maintenance
    now := now
    freshness :=
      if rs.isEmpty || !anyCurrent then
        if anyStale && !anyCurrent then .revalidationRequired
        else if rs.isEmpty then .insufficientEvidence else .revalidationRequired
      else .fresh
    staleDynamic := anyStale
    provenance := .derived }

def queryFeasibilityNow [A : Arithmetic] (m : CapacityModel) (d : WorkloadDemand) :
    FeasibilityResult :=
  evaluateNow (m.buildView 0) d

/-- The result at a future time, from the timeline that the view's data makes. -/
def evaluateFuture [A : Arithmetic] (σ : EventSort) (view : FleetView) (d : WorkloadDemand)
    (mode : QueryMode) (time : TimePoint) : FeasibilityResult :=
  let res : FeasibilityResult := { mode := mode, fitTime := time }
  if view.freshness ≠ .fresh then
    { res with
      outcome := .revalidationRequired
      bottleneck := { freshness := view.freshness } }
  else
    -- No gate but that on the amounts is asked.
    let cap := (buildTimeline σ view.available view.reservations view.releases mode).capacityAt time
    if cap.satisfies d.requirements then
      { res with
        outcome := .fitFuture
        confidence := confidenceOf (if mode = .guaranteed then 3 / 5 else 1 / 2)
        bottleneck := { message := "demand fits at the requested future time" } }
    else
      { res with
        outcome := .noFitCapacity
        bottleneck :=
          { kind := .capacity
            dimension := (cap.missingDimensions d.requirements).headD .acceleratorCount
            message := "no usable capacity at the requested future time" } }

def queryFeasibility [A : Arithmetic] (m : CapacityModel) (σ : EventSort) (d : WorkloadDemand)
    (mode : QueryMode) (time : TimePoint) : FeasibilityResult :=
  let view := m.buildView time
  -- No future instant is meant: the present is asked.
  if time ≤ 0 then { evaluateNow view d with mode := mode } else evaluateFuture σ view d mode time

def queryTimeline [A : Arithmetic] (m : CapacityModel) (σ : EventSort) (mode : QueryMode) :
    Timeline :=
  let view := m.buildView 0
  buildTimeline σ view.available view.reservations view.releases mode

def queryEarliestFit [A : Arithmetic] (m : CapacityModel) (σ : EventSort) (d : WorkloadDemand)
    (mode : QueryMode) (earliestStart : TimePoint) (duration : DurationNs) (horizon : TimePoint) :
    EarliestFitResult :=
  earliestFit (m.queryTimeline σ mode) d earliestStart duration horizon

def queryCapacity [A : Arithmetic] (m : CapacityModel) (σ : EventSort) (mode : QueryMode)
    (time : TimePoint) : Capacity :=
  (m.queryTimeline σ mode).capacityAt time

def queryHeadroom [A : Arithmetic] (m : CapacityModel) (d : WorkloadDemand) : Headroom :=
  let view := m.buildView 0
  let sloCap := if d.sloHeadroomRequirement.value > 0 then d.requirements else ∅
  computeHeadroom view.available view.currentUse view.committed sloCap

end CapacityModel

end CapacityFabric
