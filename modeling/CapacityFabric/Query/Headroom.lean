import CapacityFabric.Capacity.Capacity

/-!
# Headroom
-/

namespace CapacityFabric

/-- Headroom is never collapsed to a single percentage. -/
structure Headroom where
  raw : Capacity := ∅
  used : Capacity := ∅
  committed : Capacity := ∅
  safetyMargin : Capacity := ∅
  failureMargin : Capacity := ∅
  maintenanceMargin : Capacity := ∅
  conservative : Capacity := ∅
  expected : Capacity := ∅
  workloadSpecific : Capacity := ∅
  capacityConstrained : Bool := false

/-- What is left of `raw` under each deduction, cut off at zero one by one. -/
def computeHeadroom [A : Arithmetic] (raw used committed safetyMargin : Capacity) : Headroom :=
  let conservative :=
    ((raw.subtractClamp used).subtractClamp committed).subtractClamp safetyMargin
  { raw, used, committed, safetyMargin, conservative
    expected := conservative
    failureMargin := safetyMargin
    maintenanceMargin := safetyMargin
    capacityConstrained := conservative.amounts.entries.any fun p => p.2 ≤ 0 }

end CapacityFabric
