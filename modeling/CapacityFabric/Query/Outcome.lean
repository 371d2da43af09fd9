import CapacityFabric.Model.Freshness
import CapacityFabric.Timeline.Forecast

/-!
# Outcomes and bottlenecks
-/

namespace CapacityFabric

inductive Outcome
  | fitNow
  | fitFuture
  | fitWithReducedShape
  | fitWithLowerHeadroom
  | noFitCapacity
  | noFitFragmentation
  | noFitTopology
  | noFitCapability
  | noFitMemory
  | noFitBandwidth
  | noFitReservation
  | noFitDuration
  | noFitSloHeadroom
  | revalidationRequired
  | insufficientEvidence
  | unknown
  deriving DecidableEq

def Outcome.code : Outcome → UInt8
  | fitNow => 0
  | fitFuture => 1
  | fitWithReducedShape => 2
  | fitWithLowerHeadroom => 3
  | noFitCapacity => 4
  | noFitFragmentation => 5
  | noFitTopology => 6
  | noFitCapability => 7
  | noFitMemory => 8
  | noFitBandwidth => 9
  | noFitReservation => 10
  | noFitDuration => 11
  | noFitSloHeadroom => 12
  | revalidationRequired => 13
  | insufficientEvidence => 14
  | unknown => 15

inductive BottleneckKind
  | capacity
  | fragmentation
  | topology
  | capability
  | memoryContiguity
  | bandwidth
  | reservation
  | sloHeadroom
  | duration
  | policy
  | uncertainty
  deriving DecidableEq

structure Bottleneck where
  kind : BottleneckKind := .capacity
  dimension : Dimension := .acceleratorCount
  message : String := ""
  nominal : Capacity := ∅
  usable : Capacity := ∅
  committed : Capacity := ∅
  stranded : Capacity := ∅
  confidence : Confidence := default
  freshness : Freshness := .fresh

structure FeasibilityResult where
  outcome : Outcome := .unknown
  bottleneck : Bottleneck := {}
  reasons : List Bottleneck := []
  fitTime : TimePoint := 0
  mode : QueryMode := .guaranteed
  confidence : Confidence := default
  freshness : Freshness := .fresh

/-- `std::to_string` of a non-negative `double`: six decimals, ties to even. -/
def toStringAmount (q : ℚ) : String :=
  let scaled := q * 1000000
  let below := ⌊scaled⌋₊
  let rest := scaled - below
  let n := if rest < 1 / 2 ∨ rest = 1 / 2 ∧ below % 2 = 0 then below else below + 1
  let decimals := Nat.toDigits 10 (n % 1000000)
  toString (n / 1000000) ++ "." ++
    String.ofList (List.replicate (6 - decimals.length) '0' ++ decimals)

example : toStringAmount (7 / 2) = "3.500000" := by decide +kernel

end CapacityFabric
