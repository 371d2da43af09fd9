import CapacityFabric.Demand.Demand
import CapacityFabric.Model.Persistence
import CapacityFabric.Protocol.Message

/-!
# Payloads

The writers and the bounded readers of what frames carry.  A malformed payload reads as
nothing.
-/

namespace CapacityFabric

namespace Payload

open BinaryReader BinaryWriter Parsing

def writeCapacity (c : Capacity) : List UInt8 :=
  writeU32 c.amounts.entries.length ++
    c.amounts.entries.flatMap fun p => writeU8 (UInt8.ofNat p.1.code) ++ writeF64 p.2

/-- The entries of a capacity, each of which `setAmount` has to accept. -/
def readAmounts : ℕ → Capacity → BinaryReader Capacity
  | 0, c => return c
  | n + 1, c => do
    let d ← readU8
    match ← readF64 with
    | .nonFinite => failure
    | .finite v =>
      match c.setAmount? (Dimension.ofCode d.toNat) v with
      | none => failure
      | some c => readAmounts n c

def readCapacity : BinaryReader Capacity := do
  let n ← readU32
  if n > 256 then failure else readAmounts n ∅

def writeResource (r : ResourceInfo) : List UInt8 :=
  writeU64 r.id.value ++ writeU64 r.generation.value ++ writeU64 r.fleetId.value ++
    writeU64 r.nodeId.value ++ writeU64 r.deviceId.value ++ writeU64 r.worker.value ++
    writeU64 r.bootId.value ++ writeU8 r.kind.code ++ writeU8 r.health.code ++
    writeString r.capability.architecture ++ writeString r.capability.className ++
    writeString r.capability.capability ++ writeCapacity r.nominal ++ writeCapacity r.free ++
    writeCapacity r.committed ++ writeCapacity r.unavailable ++
    writeU8 (if r.drained then 1 else 0) ++ writeU8 (if r.maintenance then 1 else 0) ++
    writeU8 r.provenance.code ++ writeU32 r.freeBlocks.length ++ r.freeBlocks.flatMap writeU64

def readResource : BinaryReader ResourceInfo := do
  let id ← readU64
  let generation ← readU64
  let fleetId ← readU64
  let nodeId ← readU64
  let deviceId ← readU64
  let worker ← readU64
  let bootId ← readU64
  let kind ← readU8
  let health ← readU8
  let architecture ← readString
  let className ← readString
  let capability ← readString
  let nominal ← readCapacity
  let free ← readCapacity
  let committed ← readCapacity
  let unavailable ← readCapacity
  let drained ← readU8
  let maintenance ← readU8
  let provenance ← readU8
  let nb ← readU32
  if nb > 1000000 then failure
  else
    let freeBlocks ← readMany readU64 nb
    return {
      id := ⟨id⟩
      generation := ⟨generation⟩
      fleetId := ⟨fleetId⟩
      nodeId := ⟨nodeId⟩
      deviceId := ⟨deviceId⟩
      worker := ⟨worker⟩
      bootId := ⟨bootId⟩
      kind := ResourceKind.ofCode kind
      health := HealthState.ofCode health
      capability := { architecture, className, capability }
      nominal
      free
      committed
      unavailable
      drained := drained ≠ 0
      maintenance := maintenance ≠ 0
      provenance := Provenance.ofCode provenance
      freeBlocks }

def writeReservation (r : Reservation) : List UInt8 :=
  writeU64 r.id.value ++ writeU64 r.generation.value ++ writeI64 r.interval.start ++
    writeI64 r.interval.end_ ++ writeU8 r.strength.code ++
    writeF64 (r.hold.at_ .acceleratorCount)

/-- A reservation, or nothing where its hold is not finite and the change raises.  The
exception of an interval is caught. -/
def readReservation : BinaryReader (Option Reservation) := do
  let id ← readU64
  let generation ← readU64
  let start ← readI64
  let end_ ← readI64
  let strength ← readU8
  let hold ← readF64
  match Interval.make? start end_, hold with
  | none, _ => failure
  | some _, .nonFinite => return none
  | some interval, .finite hold =>
    return some {
      id := ⟨id⟩
      generation := ⟨generation⟩
      interval
      strength := ReservationStrength.ofCode strength
      hold := CapacityDelta.change ∅ .acceleratorCount hold }

def writeRelease (e : ReleaseEvent) : List UInt8 :=
  writeU64 e.sourceId.value ++ writeI64 e.time ++ writeI64 e.earliest ++ writeI64 e.latest ++
    writeF64 e.confidence.value ++ writeF64 (e.release.at_ .acceleratorCount)

/-- A release, or nothing where its confidence is out of range or its amount not finite
and the constructor or the change raises. -/
def readRelease : BinaryReader (Option ReleaseEvent) := do
  let sourceId ← readU64
  let time ← readI64
  let earliest ← readI64
  let latest ← readI64
  let conf ← readF64
  let amount ← readF64
  return match CapacityModel.checkedConfidence conf, amount with
    | some confidence, .finite amount => some {
        sourceId := ⟨sourceId⟩
        time
        earliest
        latest
        confidence
        release := CapacityDelta.change ∅ .acceleratorCount amount }
    | _, _ => none

def writeDemand (d : WorkloadDemand) : List UInt8 :=
  writeU64 d.id.value ++ writeU64 d.generation.value ++ writeCapacity d.requirements ++
    writeU64 d.minAccelerators ++ writeU8 (if d.requiresContiguousVram then 1 else 0) ++
    writeU64 d.minContiguousVram

def readDemand : BinaryReader WorkloadDemand := do
  let id ← readU64
  let generation ← readU64
  let requirements ← readCapacity
  let minAccelerators ← readU64
  let requiresContiguousVram ← readU8
  let minContiguousVram ← readU64
  return {
    id := ⟨id⟩
    generation := ⟨generation⟩
    requirements
    minAccelerators
    requiresContiguousVram := requiresContiguousVram ≠ 0
    minContiguousVram }

end Payload

end CapacityFabric
