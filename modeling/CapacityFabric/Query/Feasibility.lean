import CapacityFabric.Model.View
import CapacityFabric.Query.Outcome
import CapacityFabric.Resource.Fragmentation

/-!
# Feasibility against the current view

`evaluateNow` asks one gate after the other; the first that rejects the demand
decides the result.
-/

namespace CapacityFabric

def deviceCompatible (d : DeviceInfo) (demand : WorkloadDemand) : Bool :=
  -- The capability may occur anywhere in any of the three texts.
  (demand.requiredCapability.isEmpty ||
    decide (demand.requiredCapability <:+: d.capability.architecture) ||
    decide (demand.requiredCapability <:+: d.capability.capability) ||
    decide (demand.requiredCapability <:+: d.capability.className)) &&
  (demand.allowedClasses.isEmpty || demand.allowedClasses.any fun ac =>
    d.capability.architecture == ac.architecture && d.capability.className == ac.name)

/-- The four states of health that make a device unusable. -/
def HealthState.unusable : HealthState → Bool
  | .failed | .draining | .maintenance | .unknown => true
  | _ => false

def deviceCurrentlyUsable (d : DeviceInfo) (demand : WorkloadDemand) : Bool :=
  if !deviceCompatible d demand then false
  else if d.health.unusable then false
  else if d.drained then false
  else true

theorem deviceCurrentlyUsable_of_unusable {v : DeviceInfo} (hv : v.health.unusable = true)
    (demand : WorkloadDemand) : deviceCurrentlyUsable v demand = false := by
  unfold deviceCurrentlyUsable
  rw [hv]
  cases deviceCompatible v demand <;> rfl

def usableDevices (devices : List DeviceInfo) (demand : WorkloadDemand) : List DeviceInfo :=
  devices.filter fun d => deviceCurrentlyUsable d demand

/-- The label of the topology group that a device is counted in. -/
def groupLabel (d : DeviceInfo) : ByteString :=
  d.capability.className ++ 47 ::
    (Nat.toDigits 10 d.nodeId.value.toNat).map fun c => UInt8.ofNat c.toNat

def byGroup (usable : List DeviceInfo) : OrderedMap ByteString ℕ :=
  usable.foldl (fun groups d =>
    groups.insert (groupLabel d) ((groups.find? (groupLabel d)).getD 0 + 1)) ∅

/-- Some topology group has as many usable devices as the demand groups together. -/
def topologyOk (devices : List DeviceInfo) (demand : WorkloadDemand) : Bool :=
  match demand.topologyGroupSize with
  | none => true
  | some size => (byGroup (usableDevices devices demand)).entries.any fun p => p.2 ≥ size.toNat

def countOk (devices : List DeviceInfo) (demand : WorkloadDemand) : Bool :=
  !((usableDevices devices demand).length < demand.minAccelerators.toNat)

theorem countOk_iff {devices : List DeviceInfo} {demand : WorkloadDemand} :
    countOk devices demand = true ↔
      demand.minAccelerators.toNat ≤ (usableDevices devices demand).length := by
  simp [countOk]

/-- Some usable device has a free block of the contiguous size, if one is required. -/
def contiguityOk (devices : List DeviceInfo) (demand : WorkloadDemand) : Bool :=
  !demand.requiresContiguousVram || (usableDevices devices demand).any fun d =>
    (analyzeDeviceMemory d.freeBlocks demand.minContiguousVram).shapeSatisfiable

/-- The fragmentation ratio is within the demand's tolerance, if it has one. -/
def fragmentationOk [A : Arithmetic] (devices : List DeviceInfo) (demand : WorkloadDemand) : Bool :=
  match demand.maxAcceptableFragmentation with
  | some (.finite f) => !((analyzeFragmentation devices demand 0).fragmentationRatio > f)
  | _ => true

/-- The capacity that a hold takes, whatever the signs of its changes. -/
def holdCapacity (hold : CapacityDelta) : Capacity :=
  hold.changes.entries.foldl (fun c p => c.setAmount p.1 (if p.2 < 0 then -p.2 else p.2)) ∅

def holdsNow (now : TimePoint) (rv : Reservation) : Bool :=
  rv.strength = .hard && rv.interval.containsPoint now

/-- The available capacity less the hard reservations active now. -/
def effectiveCapacity [A : Arithmetic] (view : FleetView) : Capacity :=
  view.reservations.foldl (fun effective rv =>
    if holdsNow view.now rv then effective.subtractClamp (holdCapacity rv.hold) else effective)
    view.available

/-- What is left after placement meets the headroom requirement, if there is one. -/
def sloOk [A : Arithmetic] (effective : Capacity) (demand : WorkloadDemand) : Bool :=
  if demand.sloHeadroomRequirement.value > 0 then
    let after := effective.subtractClamp demand.requirements
    -- Only dimensions that are stored are looked at.
    let ok := after.amounts.entries.all fun p => !(p.2 ≤ 0)
    !(!ok || demand.sloHeadroomRequirement.value > 1 / 2)
  else true

def confidenceOf (v : ℚ) : Confidence := (BoundedFraction.make? v).getD default

/-- The result before any gate has been asked. -/
def initialResult (view : FleetView) : FeasibilityResult where
  freshness := view.freshness
  fitTime := view.now

def validityGate (view : FleetView) (demand : WorkloadDemand) : Option FeasibilityResult :=
  if demand.valid then none
  else some { initialResult view with
    outcome := .unknown
    bottleneck := { kind := .policy, message := "malformed demand profile" } }

def freshnessGate (view : FleetView) : Option FeasibilityResult :=
  match view.freshness with
  | .revalidationRequired | .stale => some { initialResult view with
      outcome := .revalidationRequired
      bottleneck :=
        { kind := .uncertainty
          freshness := view.freshness
          message := "current dynamic evidence requires revalidation" } }
  | .insufficientEvidence => some { initialResult view with
      outcome := .insufficientEvidence
      bottleneck := { message := "insufficient evidence to determine current capacity" } }
  | .fresh | .unknown => none

def topologyGate (view : FleetView) (demand : WorkloadDemand) : Option FeasibilityResult :=
  if topologyOk view.devices demand then none
  else some { initialResult view with
    outcome := .noFitTopology
    bottleneck :=
      { kind := .topology
        dimension := .topologyLocalCount
        message := "no topology-local group has enough usable devices" } }

def countGate [A : Arithmetic] (view : FleetView) (demand : WorkloadDemand) :
    Option FeasibilityResult :=
  if countOk view.devices demand then none
  else some { initialResult view with
    outcome := .noFitCapacity
    bottleneck :=
      { kind := .capacity
        dimension := .acceleratorCount
        nominal := Capacity.setAccelerators ∅ (UInt64.ofNat view.devices.length)
        usable :=
          Capacity.setAccelerators ∅ (UInt64.ofNat (usableDevices view.devices demand).length)
        message := "fewer usable devices than the workload's minimum accelerator count" } }

def contiguityGate (view : FleetView) (demand : WorkloadDemand) : Option FeasibilityResult :=
  if contiguityOk view.devices demand then none
  else some { initialResult view with
    outcome := .noFitFragmentation
    bottleneck :=
      { kind := .memoryContiguity
        dimension := .contiguousVramBytes
        message := "no device has a contiguous VRAM block large enough for the demand" } }

def missingKind (lim : Dimension) : BottleneckKind :=
  if dimensionIsRate lim then .bandwidth
  else if dimensionIsBytes lim then .memoryContiguity
  else .capacity

def missingOutcome (lim : Dimension) : Outcome :=
  match missingKind lim with
  | .memoryContiguity => .noFitMemory
  | .bandwidth => .noFitBandwidth
  | _ => .noFitCapacity

def aggregateGate [A : Arithmetic] (view : FleetView) (demand : WorkloadDemand) :
    Option FeasibilityResult :=
  match (effectiveCapacity view).missingDimensions demand.requirements with
  | [] => none
  | lim :: _ =>
    let b : Bottleneck :=
      { kind := missingKind lim
        dimension := lim
        nominal := view.nominal
        usable := view.available
        committed := view.committed
        message := "insufficient " ++ dimensionName lim ++ ": demand " ++
          toStringAmount (demand.requirements.amount lim) ++ " > available " ++
          toStringAmount (view.available.amount lim) }
    some { initialResult view with
      outcome := missingOutcome lim
      bottleneck := b
      reasons := [b] }

def fragmentationGate [A : Arithmetic] (view : FleetView) (demand : WorkloadDemand) :
    Option FeasibilityResult :=
  if fragmentationOk view.devices demand then none
  else some { initialResult view with
    outcome := .noFitFragmentation
    bottleneck :=
      { kind := .fragmentation
        dimension := .contiguousVramBytes
        message := "observed fragmentation ratio exceeds the demand's acceptable maximum"
        stranded := Capacity.setAmount ∅ .contiguousVramBytes
          (analyzeFragmentation view.devices demand 0).stranded.toNat } }

def sloGate [A : Arithmetic] (view : FleetView) (demand : WorkloadDemand) :
    Option FeasibilityResult :=
  if sloOk (effectiveCapacity view) demand then none
  else some { initialResult view with
    outcome := .noFitSloHeadroom
    bottleneck :=
      { kind := .sloHeadroom
        dimension := .acceleratorCount
        message := "SLO headroom obligation cannot be satisfied after placement" } }

def fitNowResult (view : FleetView) : FeasibilityResult :=
  { initialResult view with
    outcome := .fitNow
    confidence := confidenceOf (4 / 5)
    bottleneck :=
      { kind := .capacity
        message := "workload fits in current capacity"
        confidence := confidenceOf (4 / 5) } }

def evaluateNow [A : Arithmetic] (view : FleetView) (demand : WorkloadDemand) : FeasibilityResult :=
  let rejection := (validityGate view demand).or <| (freshnessGate view).or <|
    (topologyGate view demand).or <| (countGate view demand).or <|
    (contiguityGate view demand).or <| (aggregateGate view demand).or <|
    (fragmentationGate view demand).or <| sloGate view demand
  rejection.getD (fitNowResult view)

/-- The outcome of the gates that look at devices and capacity, in their order. -/
def gatesOutcome [A : Arithmetic] (devices : List DeviceInfo) (effective : Capacity)
    (demand : WorkloadDemand) : Outcome :=
  if topologyOk devices demand = false then .noFitTopology
  else if countOk devices demand = false then .noFitCapacity
  else if contiguityOk devices demand = false then .noFitFragmentation
  else match effective.missingDimensions demand.requirements with
    | lim :: _ => missingOutcome lim
    | [] =>
      if fragmentationOk devices demand = false then .noFitFragmentation
      else if sloOk effective demand = false then .noFitSloHeadroom
      else .fitNow

section

variable [A : Arithmetic]

theorem outcome_of_valid {view : FleetView} {demand : WorkloadDemand} (hvalid : demand.valid = true)
    (hfreshness : freshnessGate view = none) :
    (evaluateNow view demand).outcome =
      gatesOutcome view.devices (effectiveCapacity view) demand := by
  have hv : validityGate view demand = none := by rw [validityGate, if_pos hvalid]
  rw [evaluateNow, hv, hfreshness, Option.none_or, Option.none_or, gatesOutcome]
  unfold topologyGate countGate contiguityGate aggregateGate fragmentationGate sloGate
  -- The gates in their order: the first that rejects decides.
  cases topologyOk view.devices demand
  · rfl
  cases countOk view.devices demand
  · rfl
  cases contiguityOk view.devices demand
  · rfl
  cases (effectiveCapacity view).missingDimensions demand.requirements with
  | cons lim rest => rfl
  | nil =>
    cases fragmentationOk view.devices demand
    · rfl
    cases sloOk (effectiveCapacity view) demand <;> rfl

theorem outcome_of_fresh {view : FleetView} {demand : WorkloadDemand} (hvalid : demand.valid = true)
    (hfresh : view.freshness = .fresh) :
    (evaluateNow view demand).outcome =
      gatesOutcome view.devices (effectiveCapacity view) demand :=
  outcome_of_valid hvalid (by rw [freshnessGate, hfresh])

omit [A : Arithmetic] in
theorem missingOutcome_ne_fitNow (lim : Dimension) : missingOutcome lim ≠ .fitNow := by
  unfold missingOutcome
  cases missingKind lim <;> decide

theorem gatesOutcome_eq_fitNow_iff {devices : List DeviceInfo} {effective : Capacity}
    {demand : WorkloadDemand} :
    gatesOutcome devices effective demand = .fitNow ↔
      topologyOk devices demand = true ∧ countOk devices demand = true ∧
        contiguityOk devices demand = true ∧ effective.satisfies demand.requirements = true ∧
        fragmentationOk devices demand = true ∧ sloOk effective demand = true := by
  rw [← Capacity.missingDimensions_eq_nil_iff, gatesOutcome]
  cases topologyOk devices demand
  · simp
  cases countOk devices demand
  · simp
  cases contiguityOk devices demand
  · simp
  cases effective.missingDimensions demand.requirements with
  | cons lim rest => simp [missingOutcome_ne_fitNow]
  | nil =>
    cases fragmentationOk devices demand
    · simp
    cases sloOk effective demand <;> simp

theorem outcome_of_not_valid {view : FleetView} {demand : WorkloadDemand}
    (h : demand.valid = false) : (evaluateNow view demand).outcome = .unknown := by
  rw [evaluateNow, validityGate, h]
  rfl

omit [A : Arithmetic] in
theorem freshnessGate_eq_none_iff {view : FleetView} :
    freshnessGate view = none ↔ view.freshness = .fresh ∨ view.freshness = .unknown := by
  unfold freshnessGate
  cases view.freshness <;> simp

theorem outcome_eq_fitNow_iff {view : FleetView} {demand : WorkloadDemand} :
    (evaluateNow view demand).outcome = .fitNow ↔ demand.valid = true ∧
      freshnessGate view = none ∧
      gatesOutcome view.devices (effectiveCapacity view) demand = .fitNow := by
  cases hvalid : demand.valid with
  | false => simp [outcome_of_not_valid hvalid]
  | true =>
    cases hgate : freshnessGate view with
    | none => simp [outcome_of_valid hvalid hgate]
    | some result =>
      have hrejected : evaluateNow view demand = result := by
        rw [evaluateNow, validityGate, if_pos hvalid, hgate]
        rfl
      have hne : result.outcome ≠ .fitNow := by
        unfold freshnessGate at hgate
        cases hfreshness : view.freshness <;> rw [hfreshness] at hgate <;> simp at hgate <;>
          simp [← hgate]
      simp [hrejected, hne]

end

end CapacityFabric
