import CapacityFabric.Scenario.Scenario

/-!
# Removing resources in a scenario

The capacity that a scenario leaves is aggregated from all remaining resources of usable
health, current or not, so that a removal can end above the view it started from.
-/

namespace CapacityFabric

theorem resources_foldl_removeResource (ids : List ResourceId) (v : FleetView) :
    ((ids.map ScenarioAction.removeResource).foldl applyAction v).resources =
      v.resources.filter fun r => r.id ∉ ids := by
  induction ids generalizing v with
  | nil => simp
  | cons id ids ih =>
    rw [List.map_cons, List.foldl_cons, ih]
    change (v.resources.filter fun r => r.id ≠ id).filter (fun r => r.id ∉ ids) = _
    rw [List.filter_filter]
    apply List.filter_congr
    intro r _
    by_cases hid : r.id = id <;> simp [hid]

theorem amount_available_reaggregate (v : FleetView) (d : Dimension) :
    (reaggregate v).available.amount d =
      ((v.resources.filter overlayUsable).map fun r => r.free.amount d).sum :=
  amount_totalOf _ _ d

namespace CapacityModel

variable {m : CapacityModel}

def remainsUsable (ids : List ResourceId) (r : ResourceInfo) : Bool :=
  overlayUsable r && decide (r.id ∉ ids)

theorem amount_available_removed {s : Scenario} {ids : List ResourceId}
    (hs : s.actions = ids.map .removeResource) (now : TimePoint) (d : Dimension) :
    (applyScenario (m.buildView now) s).available.amount d =
      ((m.currentResources.filter (remainsUsable ids)).map fun r => r.free.amount d).sum := by
  rw [applyScenario, hs, amount_available_reaggregate, resources_foldl_removeResource,
    List.filter_filter]
  rfl

def largerDead : CapacityModel :=
  Runs.run step {} [.registerWorker ⟨1⟩ ⟨1⟩, .registerWorker ⟨2⟩ ⟨2⟩,
    .publishResource liveResource,
    .publishResource (Reference.makeResource ⟨2⟩ ⟨1⟩ ⟨1⟩ ⟨1⟩ ⟨2⟩ ⟨2⟩ ⟨2⟩ {} 16 16 [16]),
    .markWorkerDead ⟨2⟩]

def withoutLive : Scenario := createScenario [.removeResource ⟨1⟩]

end CapacityModel

end CapacityFabric
