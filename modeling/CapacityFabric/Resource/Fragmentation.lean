import CapacityFabric.Demand.Demand
import CapacityFabric.Resource.Resource

/-!
# Fragmentation
-/

namespace CapacityFabric

/-- Fragmentation is quantified, never remediated. -/
structure FragmentationReport where
  totalFreeMemory : ByteCount := 0
  largestContiguousBlock : ByteCount := 0
  usableForShape : ByteCount := 0
  stranded : ByteCount := 0
  fragmentationRatio : ℚ := 0
  totalDevices : DeviceCount := 0
  usableDevices : DeviceCount := 0
  usableDeviceIndices : List ℕ := []
  shapeSatisfiable : Bool := false
  groupSatisfiable : Bool := false

/-- The quotient of two byte counts, both of them converted first. -/
def roundedRatio [A : Arithmetic] (part whole : ByteCount) : ℚ :=
  Arithmetic.round (Arithmetic.round part.toNat / Arithmetic.round whole.toNat)

/-- The loop over the free blocks: their total, at which it stops on overflow, and
the largest block so far. -/
def scanBlocks : ByteCount → ByteCount → List ByteCount → ByteCount × ByteCount
  | total, largest, [] => (total, largest)
  | total, largest, b :: bs =>
    match ByteCount.add total b with
    | none => (18446744073709551615, largest)
    | some t => scanBlocks t (if b > largest then b else largest) bs

/-- Analyzes the free blocks of one device against a required block size. -/
def analyzeDeviceMemory [A : Arithmetic] (freeBlocks : List ByteCount) (requiredBlock : ByteCount) :
    FragmentationReport :=
  let (total, largest) := scanBlocks 0 0 freeBlocks
  let r : FragmentationReport := { totalFreeMemory := total, largestContiguousBlock := largest }
  let r :=
    if requiredBlock = 0 then { r with shapeSatisfiable := true, usableForShape := total }
    else if largest ≥ requiredBlock then
      { r with
        shapeSatisfiable := true
        usableForShape := largest
        stranded := (ByteCount.subtract total largest).getD 0 }
    else { r with stranded := total }
  if total > 0 ∧ r.usableForShape > 0 then
    { r with
      fragmentationRatio :=
        max 0 (min 1 (Arithmetic.round (1 - roundedRatio r.usableForShape total))) }
  else r

/-- Whether the device counts as usable for the block size.  Nothing reads the ratio of a
single device. -/
def fragmentationUsable (perDevice : ByteCount) (d : DeviceInfo) : Bool :=
  (analyzeDeviceMemory d.freeBlocks perDevice).shapeSatisfiable && d.health ≠ .failed &&
    !d.drained && !d.maintenance && d.health ≠ .unknown

/-- The first loop over the devices, from the device of index `i` on. -/
def scanDevices (perDevice : ByteCount) :
    ℕ → FragmentationReport → List DeviceInfo → FragmentationReport
  | _, r, [] => r
  | i, r, d :: ds =>
    let per := analyzeDeviceMemory d.freeBlocks perDevice
    -- The total takes in every device, usable or not.
    let r := { r with totalFreeMemory := ByteCount.addSaturating r.totalFreeMemory d.vramFree }
    let r :=
      if fragmentationUsable perDevice d then
        { r with
          usableDevices := r.usableDevices + 1
          usableDeviceIndices := r.usableDeviceIndices ++ [i]
          usableForShape := ByteCount.addSaturating r.usableForShape per.usableForShape }
      else r
    let r :=
      if per.largestContiguousBlock > r.largestContiguousBlock then
        { r with largestContiguousBlock := per.largestContiguousBlock }
      else r
    scanDevices perDevice (i + 1) r ds

def strandedMemory (perDevice : ByteCount) (devices : List DeviceInfo) : ByteCount :=
  devices.foldl (fun stranded d =>
    if fragmentationUsable perDevice d then stranded
    else ByteCount.addSaturating stranded d.vramFree) 0

def analyzeFragmentation [A : Arithmetic] (devices : List DeviceInfo) (demand : WorkloadDemand)
    (groupSize : ℕ) : FragmentationReport :=
  let perDevice := demand.minContiguousVram
  let r := scanDevices perDevice 0 {} devices
  let stranded := strandedMemory perDevice devices
  { r with
    totalDevices := UInt64.ofNat devices.length
    stranded := stranded
    shapeSatisfiable := r.usableDevices > 0 ∧ perDevice > 0
    groupSatisfiable := r.usableDevices ≥ demand.minAccelerators ∧
      (groupSize = 0 ∨ r.usableDevices.toNat ≥ groupSize)
    fragmentationRatio :=
      if r.totalFreeMemory > 0 ∧ perDevice > 0 then
        min 1 (roundedRatio stranded r.totalFreeMemory)
      else 0 }

end CapacityFabric
