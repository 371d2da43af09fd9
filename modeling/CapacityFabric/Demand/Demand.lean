import CapacityFabric.Core.Identities
import CapacityFabric.Core.Units
import CapacityFabric.Capacity.Capacity

/-!
# Workload demand
-/

namespace CapacityFabric

structure AcceleratorClass where
  name : ByteString
  architecture : ByteString

structure WorkloadDemand where
  id : WorkloadDemandId
  generation : WorkloadDemandGeneration
  requirements : Capacity
  requiresContiguousVram : Bool := false
  minContiguousVram : ByteCount := 0
  minAccelerators : DeviceCount := 1
  topologyGroupSize : Option DeviceCount := none
  allowedClasses : List AcceleratorClass := []
  requiredCapability : ByteString := []
  sloHeadroomRequirement : CapacityFraction := default
  maxAcceptableFragmentation : Option Double := none

namespace WorkloadDemand

def fragmentationToleranceValid (d : WorkloadDemand) : Bool :=
  match d.maxAcceptableFragmentation with
  | none => true
  | some (.finite f) => !(f < 0 || f > 1)
  | some .nonFinite => false

def valid (d : WorkloadDemand) : Bool :=
  !(!d.id.valid || !d.generation.valid) && !(d.minAccelerators == 0) &&
    !(d.requiresContiguousVram && d.minContiguousVram == 0) && d.fragmentationToleranceValid

end WorkloadDemand

namespace Reference

def makeDemand (id : WorkloadDemandId) (generation : WorkloadDemandGeneration) (units : ℚ)
    (minAccels : DeviceCount) (requireContiguous : Bool := false) (minContig : ByteCount := 0) :
    WorkloadDemand where
  id := id
  generation := generation
  requirements := Capacity.setAccelerators ∅ (toUInt64 units)
  minAccelerators := minAccels
  requiresContiguousVram := requireContiguous
  minContiguousVram := minContig

end Reference

end CapacityFabric
