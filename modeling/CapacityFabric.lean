import CapacityFabric.Foundation.BinarySearch
import CapacityFabric.Foundation.CheckedLoop
import CapacityFabric.Foundation.ClampedSum
import CapacityFabric.Foundation.Commutation
import CapacityFabric.Foundation.FirstHit
import CapacityFabric.Foundation.FixedWidth
import CapacityFabric.Foundation.Framing
import CapacityFabric.Foundation.KeyedList
import CapacityFabric.Foundation.Linearization
import CapacityFabric.Foundation.OptionalMin
import CapacityFabric.Foundation.OrderedMap
import CapacityFabric.Foundation.Parsing
import CapacityFabric.Foundation.Rounding
import CapacityFabric.Foundation.Runs
import CapacityFabric.Foundation.SaturatingSum
import CapacityFabric.Foundation.ShortChange
import CapacityFabric.Foundation.TieOrder
import CapacityFabric.Foundation.TiedWalk
import CapacityFabric.Foundation.XorMultiply
import CapacityFabric.Core.Arithmetic
import CapacityFabric.Core.Identities
import CapacityFabric.Core.Units
import CapacityFabric.Capacity.Capacity
import CapacityFabric.Capacity.CheckedAdd
import CapacityFabric.Capacity.Dimension
import CapacityFabric.Capacity.Minimum
import CapacityFabric.Capacity.RoundedSums
import CapacityFabric.Demand.Demand
import CapacityFabric.Resource.Fragmentation
import CapacityFabric.Resource.Resource
import CapacityFabric.Timeline.Accounting
import CapacityFabric.Timeline.Forecast
import CapacityFabric.Timeline.IndexedLookup
import CapacityFabric.Timeline.Ties
import CapacityFabric.Timeline.Timeline
import CapacityFabric.Timeline.Window
import CapacityFabric.Query.BlockScan
import CapacityFabric.Query.DemandOrder
import CapacityFabric.Query.EarliestFit
import CapacityFabric.Query.Explanation
import CapacityFabric.Query.Feasibility
import CapacityFabric.Query.FleetTotals
import CapacityFabric.Query.Headroom
import CapacityFabric.Query.Lookalikes
import CapacityFabric.Query.Monotone
import CapacityFabric.Query.Outcome
import CapacityFabric.Query.Planning
import CapacityFabric.Query.UnroundedFit
import CapacityFabric.Query.ReferenceFit
import CapacityFabric.Query.RequestedWindow
import CapacityFabric.Query.ShapeFit
import CapacityFabric.Query.SloGate
import CapacityFabric.Query.Verdict
import CapacityFabric.Model.AddedSupply
import CapacityFabric.Model.AdvanceFence
import CapacityFabric.Model.Aggregates
import CapacityFabric.Model.Bookings
import CapacityFabric.Model.CapacityModel
import CapacityFabric.Model.CheckedViews
import CapacityFabric.Model.Corruption
import CapacityFabric.Model.Fencing
import CapacityFabric.Model.FiniteSums
import CapacityFabric.Model.ForecastBounds
import CapacityFabric.Model.Freshness
import CapacityFabric.Model.FutureFit
import CapacityFabric.Model.Generations
import CapacityFabric.Model.HeadroomBalance
import CapacityFabric.Model.HealthAuthority
import CapacityFabric.Model.Incarnations
import CapacityFabric.Model.IndependentWorkers
import CapacityFabric.Model.LoadAtomicity
import CapacityFabric.Model.Loading
import CapacityFabric.Model.NominalBound
import CapacityFabric.Model.Operations
import CapacityFabric.Model.Overcommitment
import CapacityFabric.Model.Persistence
import CapacityFabric.Model.PublicationOrder
import CapacityFabric.Model.Query
import CapacityFabric.Model.Recovery
import CapacityFabric.Model.RemoteFeasibility
import CapacityFabric.Model.Resaving
import CapacityFabric.Model.Revalidation
import CapacityFabric.Model.SavedResources
import CapacityFabric.Model.SavedState
import CapacityFabric.Model.SavedTimeline
import CapacityFabric.Model.Snapshot
import CapacityFabric.Model.StaleEvidence
import CapacityFabric.Model.StoredDoubles
import CapacityFabric.Model.TrackerHistory
import CapacityFabric.Model.UnfoundedFit
import CapacityFabric.Model.UniqueAuthority
import CapacityFabric.Model.UnusableEvidence
import CapacityFabric.Model.UsableIndices
import CapacityFabric.Model.View
import CapacityFabric.Model.WirePublication
import CapacityFabric.Persistence.Binary
import CapacityFabric.Persistence.Checksum
import CapacityFabric.Persistence.Doubles
import CapacityFabric.Protocol.Frame
import CapacityFabric.Protocol.Integrity
import CapacityFabric.Protocol.Message
import CapacityFabric.Protocol.Payload
import CapacityFabric.Protocol.Receiving
import CapacityFabric.Protocol.ResourceWire
import CapacityFabric.Protocol.Sending
import CapacityFabric.Scenario.CheckedScenarios
import CapacityFabric.Scenario.Degradation
import CapacityFabric.Scenario.Effects
import CapacityFabric.Scenario.Prediction
import CapacityFabric.Scenario.Removal
import CapacityFabric.Scenario.Scenario
import CapacityFabric.Coordinator.Coordinator
import CapacityFabric.Coordinator.Decoding
import CapacityFabric.Coordinator.LiveWorkers
import CapacityFabric.Coordinator.Registration
import CapacityFabric.Coordinator.Requests
import CapacityFabric.Coordinator.Shutdown
import CapacityFabric.Coordinator.Threads
import CapacityFabric.Coordinator.Stopping
import CapacityFabric.Coordinator.StopProgress
import CapacityFabric.Coordinator.ThreadRefinement
import CapacityFabric.Coordinator.Serialization
import CapacityFabric.Coordinator.Conversation
import CapacityFabric.Coordinator.Linearizability
import CapacityFabric.Coordinator.RemoteFencing
import CapacityFabric.Deployment.Worker
import CapacityFabric.Deployment.Deployment
import CapacityFabric.Deployment.InStep
import CapacityFabric.Deployment.Handling
import CapacityFabric.Deployment.Invariant
import CapacityFabric.Deployment.Readiness
import CapacityFabric.Deployment.Acceptance
import CapacityFabric.Deployment.Handshake
