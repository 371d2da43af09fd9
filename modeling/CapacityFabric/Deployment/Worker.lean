import CapacityFabric.Protocol.ResourceWire

/-!
# The worker process

The worker says hello, registers, publishes one resource and then holds its connection.
-/

namespace CapacityFabric

structure WorkerConfig where
  workerId : WorkerId
  bootId : WorkerBootId
  resourceId : ResourceId
  deviceId : DeviceId
  totalMB : UInt64
  freeMB : UInt64
  deriving DecidableEq

inductive WorkerRequest
  | hello
  | register
  | publishResource
  deriving DecidableEq

namespace WorkerConfig

/-- `sm_120`, `blackwell` and `fp8`, with the markers `fp8` and `tensor_core`. -/
def capability : DeviceCapability where
  architecture := [115, 109, 95, 49, 50, 48]
  className := [98, 108, 97, 99, 107, 119, 101, 108, 108]
  capability := [102, 112, 56]
  markers := [[102, 112, 56], [116, 101, 110, 115, 111, 114, 95, 99, 111, 114, 101]]

def resource (cfg : WorkerConfig) : ResourceInfo :=
  Reference.makeResource cfg.resourceId ⟨1⟩ ⟨1⟩ ⟨1⟩ cfg.deviceId cfg.workerId cfg.bootId
    capability (cfg.totalMB <<< 20) (cfg.freeMB <<< 20) [cfg.freeMB <<< 20]

/-- The resource as the coordinator reads it. -/
def received (cfg : WorkerConfig) : ResourceInfo := cfg.resource.withoutMarkers

@[simp] theorem bootId_received (cfg : WorkerConfig) : cfg.received.bootId = cfg.bootId := rfl

open BinaryWriter Payload

def request (cfg : WorkerConfig) : WorkerRequest → FramedMessage
  | .hello => ⟨.hello, 0, []⟩
  | .register => ⟨.register, 0, writeU64 cfg.workerId.value ++ writeU64 cfg.bootId.value⟩
  | .publishResource => ⟨.publishResource, 0, writeResource cfg.resource⟩

end WorkerConfig

namespace WorkerRequest

def isAcknowledged (ack : FramedMessage) : WorkerRequest → Bool
  | .hello => ack.type = .hello
  | .register => ack.type = .register && ack.payload.head? = some 1
  | .publishResource => ack.type = .publishResource && ack.payload.head? = some 1

end WorkerRequest

inductive WorkerStage
  | aboutToSend (r : WorkerRequest)
  | awaiting (r : WorkerRequest)
  /-- `READY` has been printed, and the worker holds the connection. -/
  | ready
  | exited (code : ℕ)
  | killed
  deriving DecidableEq

namespace WorkerStage

def next : WorkerRequest → WorkerStage
  | .hello => .aboutToSend .register
  | .register => .aboutToSend .publishResource
  | .publishResource => .ready

def afterReply (r : WorkerRequest) (ack : FramedMessage) : WorkerStage :=
  if r.isAcknowledged ack then next r else .exited 1

def receives : WorkerStage → Bool
  | .awaiting _ | .ready => true
  | _ => false

def afterFrame (msg : FramedMessage) : WorkerStage → WorkerStage
  | .awaiting r => afterReply r msg
  | .ready => if msg.type = .shutdown then .exited 0 else .ready
  | stage => stage

/-- The message that stands for the reply when nothing can be sent or received. -/
def noReply : FramedMessage := ⟨.hello, 0, []⟩

def afterFailure : WorkerStage → WorkerStage
  | .aboutToSend r | .awaiting r => afterReply r noReply
  | .ready => .exited 0
  | stage => stage

def isOver : WorkerStage → Bool
  | .exited _ | .killed => true
  | _ => false

end WorkerStage

theorem toNat_shiftLeft_20 (x : UInt64) : (x <<< 20).toNat = x.toNat % 2 ^ 44 * 2 ^ 20 := by
  have hx := x.toNat_lt
  have hshift : (20 : UInt64).toNat % 64 = 20 := by decide
  rw [UInt64.toNat_shiftLeft, hshift, Nat.shiftLeft_eq]
  omega

theorem isDouble_megabytes (x : UInt64) : IsDouble ((x <<< 20).toNat : ℚ) := by
  rw [toNat_shiftLeft_20]
  exact isDouble_shifted (by omega) (by norm_num)

namespace WorkerConfig

open Payload

theorem carriedAmounts_accelerator {vram : ByteCount} (h : IsDouble (vram.toNat : ℚ)) :
    CarriedAmounts ((Capacity.setVram ∅ vram).setAccelerators 1) :=
  (carriedAmounts_empty.setAmount _ (Nat.cast_nonneg _) h).setAmount _ (Nat.cast_nonneg _)
    isDouble_one

/-- What a worker publishes fits the wire, whatever its arguments. -/
theorem fitsWire_resource (cfg : WorkerConfig) : FitsWire cfg.resource where
  nominal := carriedAmounts_accelerator (isDouble_megabytes cfg.totalMB)
  free := carriedAmounts_accelerator (isDouble_megabytes cfg.freeMB)
  committed := carriedAmounts_empty
  unavailable := carriedAmounts_empty
  architecture := by simp [resource, Reference.makeResource, capability]
  className := by simp [resource, Reference.makeResource, capability]
  capability := by simp [resource, Reference.makeResource, capability]
  freeBlocks := by simp [resource, Reference.makeResource]

end WorkerConfig

end CapacityFabric
