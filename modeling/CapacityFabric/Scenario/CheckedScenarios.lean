import CapacityFabric.Model.CheckedViews
import CapacityFabric.Scenario.Scenario

/-!
# Scenarios whose sums may raise
-/

namespace CapacityFabric

open CheckedLoop (YieldsIf)

variable [A : Arithmetic]

/-- `applyScenario`, or nothing where a sum raises. -/
def applyScenario? (base : FleetView) (s : Scenario) : Option FleetView := do
  let v := s.actions.foldl applyAction base
  let totals ← aggregate? overlayUsable v.resources
  return (reaggregate v).withTotals totals

theorem yieldsIf_applyScenario? (base : FleetView) (s : Scenario) :
    YieldsIf (applyScenario? base s) (applyScenario base s)
      (FiniteTotals overlayUsable (s.actions.foldl applyAction base).resources) :=
  (yieldsIf_aggregate? _ _).map _

namespace CapacityModel

def evaluateScenario? (m : CapacityModel) (s : Scenario) (d : WorkloadDemand) :
    Option FeasibilityResult := do
  let base ← m.buildView? 0
  let modified ← applyScenario? base s
  let r := evaluateNow modified d
  return { r with
    mode := .whatIf
    bottleneck :=
      if r.outcome = .fitNow then
        { r.bottleneck with message := "WHAT_IF: " ++ r.bottleneck.message }
      else r.bottleneck }

variable {m : CapacityModel}

/-- A scenario query raises where the view does, or where a sum of the resources that the
scenario leaves and adds is not finite. -/
theorem evaluateScenario?_eq_some_iff {s : Scenario} {d : WorkloadDemand}
    {res : FeasibilityResult} :
    m.evaluateScenario? s d = some res ↔ res = m.evaluateScenario s d ∧ m.ViewFits ∧
      FiniteTotals overlayUsable (s.actions.foldl applyAction (m.buildView 0)).resources :=
  (yieldsIf_buildView? 0).bind ((yieldsIf_applyScenario? _ s).map _) res

end CapacityModel

end CapacityFabric
