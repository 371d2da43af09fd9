import CapacityFabric.Query.Feasibility

/-!
# Which gate decides

Each outcome comes from one gate, or from two of which the later is asked where the
earlier does not reject.
-/

namespace CapacityFabric

def probe (capability : ByteString) (classes : List AcceleratorClass) : WorkloadDemand where
  id := ⟨1⟩
  generation := ⟨1⟩
  requirements := ∅
  requiredCapability := capability
  allowedClasses := classes

theorem missingOutcome_cases (lim : Dimension) :
    missingKind lim = .capacity ∧ missingOutcome lim = .noFitCapacity ∨
      missingKind lim = .bandwidth ∧ missingOutcome lim = .noFitBandwidth ∨
      missingKind lim = .memoryContiguity ∧ missingOutcome lim = .noFitMemory := by
  unfold missingOutcome missingKind
  split_ifs <;> simp

section

variable [A : Arithmetic] {devices : List DeviceInfo} {effective : Capacity}
  {demand : WorkloadDemand}

theorem gatesOutcome_of_contiguityOk (htopology : topologyOk devices demand = true)
    (hcount : countOk devices demand = true) (hcontiguity : contiguityOk devices demand = true) :
    gatesOutcome devices effective demand =
      match (effective.missingDimensions demand.requirements).head? with
      | some lim => missingOutcome lim
      | none =>
        if fragmentationOk devices demand = false then .noFitFragmentation
        else if sloOk effective demand = false then .noFitSloHeadroom
        else .fitNow := by
  rw [gatesOutcome, htopology, hcount, hcontiguity]
  cases effective.missingDimensions demand.requirements <;> rfl

theorem gatesOutcome_eq_noFitTopology_iff :
    gatesOutcome devices effective demand = .noFitTopology ↔
      topologyOk devices demand = false := by
  constructor
  · intro h
    by_contra htopology
    rw [Bool.not_eq_false] at htopology
    revert h
    rw [gatesOutcome, htopology]
    cases effective.missingDimensions demand.requirements with
    | nil => split_ifs <;> simp_all
    | cons lim rest =>
      rcases missingOutcome_cases lim with ⟨-, ho⟩ | ⟨-, ho⟩ | ⟨-, ho⟩ <;> split_ifs <;> simp_all
  · intro h
    rw [gatesOutcome, if_pos h]

theorem gatesOutcome_eq_noFitCapacity_iff (htopology : topologyOk devices demand = true) :
    gatesOutcome devices effective demand = .noFitCapacity ↔
      countOk devices demand = false ∨ contiguityOk devices demand = true ∧
        (effective.missingDimensions demand.requirements).head?.map missingKind =
          some .capacity := by
  cases hcount : countOk devices demand
  · simp [gatesOutcome, htopology, hcount]
  cases hcontiguity : contiguityOk devices demand
  · simp [gatesOutcome, htopology, hcount, hcontiguity]
  rw [gatesOutcome_of_contiguityOk htopology hcount hcontiguity]
  cases (effective.missingDimensions demand.requirements).head? with
  | none => cases fragmentationOk devices demand <;> cases sloOk effective demand <;> simp
  | some lim =>
    rcases missingOutcome_cases lim with ⟨hk, ho⟩ | ⟨hk, ho⟩ | ⟨hk, ho⟩ <;> simp [hk, ho]

theorem gatesOutcome_eq_noFitFragmentation_iff (htopology : topologyOk devices demand = true)
    (hcount : countOk devices demand = true) :
    gatesOutcome devices effective demand = .noFitFragmentation ↔
      contiguityOk devices demand = false ∨
        effective.satisfies demand.requirements = true ∧
          fragmentationOk devices demand = false := by
  rw [← Capacity.missingDimensions_eq_nil_iff, ← List.head?_eq_none_iff]
  cases hcontiguity : contiguityOk devices demand
  · simp [gatesOutcome, htopology, hcount, hcontiguity]
  rw [gatesOutcome_of_contiguityOk htopology hcount hcontiguity]
  cases (effective.missingDimensions demand.requirements).head? with
  | none => cases fragmentationOk devices demand <;> cases sloOk effective demand <;> simp
  | some lim =>
    rcases missingOutcome_cases lim with ⟨-, ho⟩ | ⟨-, ho⟩ | ⟨-, ho⟩ <;> simp [ho]

/-- A demand for no amount of capacity and no headroom asks for devices only. -/
theorem gatesOutcome_of_noAmounts (hrequirements : demand.requirements = ∅)
    (hslo : ¬0 < demand.sloHeadroomRequirement.value) :
    gatesOutcome devices effective demand = .fitNow ↔
      topologyOk devices demand = true ∧ countOk devices demand = true ∧
        contiguityOk devices demand = true ∧ fragmentationOk devices demand = true := by
  have hsatisfies : effective.satisfies demand.requirements = true := by
    rw [hrequirements]
    rfl
  have hheadroom : sloOk effective demand = true := if_neg hslo
  rw [gatesOutcome_eq_fitNow_iff]
  simp only [hsatisfies, hheadroom, true_and, and_true]

end

end CapacityFabric
