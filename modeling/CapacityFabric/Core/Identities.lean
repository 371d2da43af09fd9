import CapacityFabric.Foundation.FixedWidth

/-!
# Identities and generations

Every identity domain has its own id type and every authority its own
generation type, so that values of different domains cannot be interchanged.
The value `0` is the invalid id and the invalid generation.
-/

namespace CapacityFabric

inductive IdTag
  | resource | fleet | node | device | link | topology | reservation | workloadDemand
  | forecastSource | workerBoot | worker | scenario

inductive GenerationTag
  | resource | device | link | topology | health | reservation | workloadDemand
  | coordinatorEpoch | scenario

structure StrongId (tag : IdTag) where
  value : UInt64

structure Generation (tag : GenerationTag) where
  value : UInt64
  deriving DecidableEq

abbrev ResourceId := StrongId .resource
abbrev FleetId := StrongId .fleet
abbrev NodeId := StrongId .node
abbrev DeviceId := StrongId .device
abbrev LinkId := StrongId .link
abbrev ReservationId := StrongId .reservation
abbrev WorkloadDemandId := StrongId .workloadDemand
abbrev ForecastSourceId := StrongId .forecastSource
abbrev WorkerBootId := StrongId .workerBoot
abbrev WorkerId := StrongId .worker
abbrev ScenarioId := StrongId .scenario

abbrev ResourceGeneration := Generation .resource
abbrev DeviceGeneration := Generation .device
abbrev LinkGeneration := Generation .link
abbrev TopologyGeneration := Generation .topology
abbrev HealthGeneration := Generation .health
abbrev ReservationGeneration := Generation .reservation
abbrev WorkloadDemandGeneration := Generation .workloadDemand
abbrev CoordinatorEpoch := Generation .coordinatorEpoch
abbrev ScenarioGeneration := Generation .scenario

namespace StrongId

variable {tag : IdTag}

theorem value_injective : Function.Injective (value : StrongId tag → UInt64) := by
  rintro ⟨a⟩ ⟨b⟩ h
  exact congrArg mk h

instance : LinearOrder (StrongId tag) := LinearOrder.lift' value value_injective

instance : Inhabited (StrongId tag) := ⟨⟨0⟩⟩

def valid (id : StrongId tag) : Bool := id.value ≠ 0

end StrongId

namespace Generation

variable {tag : GenerationTag}

instance : Inhabited (Generation tag) := ⟨⟨0⟩⟩

def valid (g : Generation tag) : Bool := g.value ≠ 0

theorem valid_iff {g : Generation tag} : g.valid = true ↔ 0 < g.value.toNat := by
  rw [valid, decide_eq_true_eq, Ne, ← UInt64.toNat_inj, Nat.pos_iff_ne_zero]
  rfl

/-- The next generation; the invalid one advances to `1`, the largest stays. -/
def advance (g : Generation tag) : Generation tag :=
  if g.value = 0 then ⟨1⟩
  else if g.value = 18446744073709551615 then g
  else ⟨g.value + 1⟩

theorem advance_toNat (g : Generation tag) :
    g.advance.value.toNat = min (g.value.toNat + 1) (2 ^ 64 - 1) := by
  have hlt := g.value.toNat_lt
  unfold advance
  split_ifs with h0 hmax
  · simp [h0]
  · simp [hmax]
  · have hne : g.value.toNat ≠ 18446744073709551615 := fun h => hmax (UInt64.toNat_inj.mp h)
    have hadd : (g.value + 1).toNat = (g.value.toNat + 1) % 2 ^ 64 := UInt64.toNat_add _ _
    rw [hadd]
    omega

end Generation

end CapacityFabric
