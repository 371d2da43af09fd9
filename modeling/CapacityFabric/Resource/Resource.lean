import CapacityFabric.Core.Identities
import CapacityFabric.Core.Units
import CapacityFabric.Capacity.Capacity

/-!
# Resources and devices
-/

namespace CapacityFabric

/-- Health as reported; Capacity Fabric consumes it but does not assess it. -/
inductive HealthState
  | healthy
  | degraded
  | draining
  | maintenance
  | failed
  | unknown
  | unnamed (offset : Fin 250)
  deriving DecidableEq

inductive ResourceKind
  | physical
  | pool
  | virtual
  | unnamed (offset : Fin 253)
  deriving DecidableEq

inductive Provenance
  | measured
  | reported
  | derived
  | estimated
  | forecast
  | reconstructed
  | synthetic
  | unknown
  | unnamed (offset : Fin 248)
  deriving DecidableEq

instance : Inhabited HealthState := ⟨.unknown⟩
instance : Inhabited ResourceKind := ⟨.physical⟩
instance : Inhabited Provenance := ⟨.unknown⟩

namespace HealthState

def code : HealthState → UInt8
  | healthy => 0
  | degraded => 1
  | draining => 2
  | maintenance => 3
  | failed => 4
  | unknown => 5
  | unnamed offset => UInt8.ofNat (offset.val + 6)

def ofCode (c : UInt8) : HealthState :=
  match c.toNat with
  | 0 => healthy
  | 1 => degraded
  | 2 => draining
  | 3 => maintenance
  | 4 => failed
  | 5 => unknown
  | n + 6 => unnamed (Fin.ofNat 250 n)

theorem ofCode_code (x : HealthState) : ofCode x.code = x := by
  cases x with
  | unnamed offset =>
    rw [code, ofCode, FixedWidth.toNat_offset offset (by decide)]
    exact congrArg unnamed (Fin.ofNat_val_eq_self offset)
  | _ => rfl

end HealthState

namespace ResourceKind

def code : ResourceKind → UInt8
  | physical => 0
  | pool => 1
  | virtual => 2
  | unnamed offset => UInt8.ofNat (offset.val + 3)

def ofCode (c : UInt8) : ResourceKind :=
  match c.toNat with
  | 0 => physical
  | 1 => pool
  | 2 => virtual
  | n + 3 => unnamed (Fin.ofNat 253 n)

theorem ofCode_code (x : ResourceKind) : ofCode x.code = x := by
  cases x with
  | unnamed offset =>
    rw [code, ofCode, FixedWidth.toNat_offset offset (by decide)]
    exact congrArg unnamed (Fin.ofNat_val_eq_self offset)
  | _ => rfl

end ResourceKind

namespace Provenance

def code : Provenance → UInt8
  | measured => 0
  | reported => 1
  | derived => 2
  | estimated => 3
  | forecast => 4
  | reconstructed => 5
  | synthetic => 6
  | unknown => 7
  | unnamed offset => UInt8.ofNat (offset.val + 8)

def ofCode (c : UInt8) : Provenance :=
  match c.toNat with
  | 0 => measured
  | 1 => reported
  | 2 => derived
  | 3 => estimated
  | 4 => forecast
  | 5 => reconstructed
  | 6 => synthetic
  | 7 => unknown
  | n + 8 => unnamed (Fin.ofNat 248 n)

theorem ofCode_code (x : Provenance) : ofCode x.code = x := by
  cases x with
  | unnamed offset =>
    rw [code, ofCode, FixedWidth.toNat_offset offset (by decide)]
    exact congrArg unnamed (Fin.ofNat_val_eq_self offset)
  | _ => rfl

end Provenance

structure DeviceCapability where
  architecture : ByteString := []
  className : ByteString := []
  capability : ByteString := []
  markers : List ByteString := []
  deriving Inhabited

structure DeviceInfo where
  id : DeviceId := default
  generation : DeviceGeneration := default
  nodeId : NodeId := default
  capability : DeviceCapability := {}
  vramTotal : ByteCount := 0
  vramFree : ByteCount := 0
  freeBlocks : List ByteCount := []
  health : HealthState := .unknown
  provenance : Provenance := .unknown
  drained : Bool := false
  maintenance : Bool := false
  deriving Inhabited

/-- The evidence on a resource, with the source incarnation that produced it. -/
structure ResourceInfo where
  id : ResourceId := default
  generation : ResourceGeneration := default
  fleetId : FleetId := default
  nodeId : NodeId := default
  deviceId : DeviceId := default
  kind : ResourceKind := .physical
  capability : DeviceCapability := {}
  nominal : Capacity := ∅
  free : Capacity := ∅
  freeBlocks : List ByteCount := []
  committed : Capacity := ∅
  unavailable : Capacity := ∅
  health : HealthState := .unknown
  drained : Bool := false
  maintenance : Bool := false
  worker : WorkerId := default
  bootId : WorkerBootId := default
  provenance : Provenance := .unknown
  deriving Inhabited

/-- The resource without the markers of its device, which neither a message nor a file
carries. -/
def ResourceInfo.withoutMarkers (r : ResourceInfo) : ResourceInfo :=
  { r with capability := { r.capability with markers := [] } }

def ResourceInfo.isCurrentDynamic (r : ResourceInfo) : Bool := r.bootId.valid

structure LinkInfo where
  id : LinkId
  generation : LinkGeneration
  a : DeviceId
  b : DeviceId
  bandwidth : ℚ
  shared : Bool

namespace Reference

def makeResource (id : ResourceId) (generation : ResourceGeneration) (fleet : FleetId)
    (node : NodeId) (device : DeviceId) (worker : WorkerId) (boot : WorkerBootId)
    (cap : DeviceCapability) (vramNominal vramFree : ByteCount) (blocks : List ByteCount)
    (health : HealthState := .healthy) : ResourceInfo where
  id := id
  generation := generation
  fleetId := fleet
  nodeId := node
  deviceId := device
  kind := .physical
  capability := cap
  nominal := (Capacity.setVram ∅ vramNominal).setAccelerators 1
  free := (Capacity.setVram ∅ vramFree).setAccelerators 1
  freeBlocks := blocks
  health := health
  worker := worker
  bootId := boot
  provenance := .synthetic
  drained := health = .draining
  maintenance := health = .maintenance

end Reference

end CapacityFabric
