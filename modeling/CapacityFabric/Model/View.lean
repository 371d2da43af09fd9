import CapacityFabric.Model.Freshness
import CapacityFabric.Resource.Resource
import CapacityFabric.Timeline.Timeline

/-!
# Fleet views
-/

namespace CapacityFabric

structure FleetView where
  devices : List DeviceInfo := []
  resources : List ResourceInfo := []
  available : Capacity := ∅
  nominal : Capacity := ∅
  committed : Capacity := ∅
  unavailable : Capacity := ∅
  currentUse : Capacity := ∅
  reservations : List Reservation := []
  releases : List ReleaseEvent := []
  maintenance : List MaintenanceWindow := []
  now : TimePoint := 0
  freshness : Freshness := .fresh
  staleDynamic : Bool := false
  provenance : Provenance := .unknown

end CapacityFabric
