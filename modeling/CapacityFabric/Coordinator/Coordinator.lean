import CapacityFabric.Foundation.Runs
import CapacityFabric.Model.CheckedViews
import CapacityFabric.Protocol.Payload

/-!
# The coordinator

The coordinator as a step system: its open connections, each with the worker that
it last named, and the shared model.  A handler thread touches the model under its
lock once for each frame, so the frames of all connections interleave as steps.
-/

namespace CapacityFabric

abbrev ConnectionId := ℕ

def kMaxConcurrentConnections : ℕ := 32

structure Coordinator where
  model : CapacityModel := {}
  /-- The open connections with their `curWorker`. -/
  connections : OrderedMap ConnectionId WorkerId := ∅
  running : Bool := true
  /-- Whether the accept thread waits for a connection. -/
  accepting : Bool := true
  /-- Whether an exception has ended the process. -/
  terminated : Bool := false

namespace Coordinator

/-- What the environment does.  `sent` says whether the reply could be sent, `saved`
whether the state file could be written. -/
inductive Event
  | accept (c : ConnectionId)
  | frame (c : ConnectionId) (msg : FramedMessage) (sent saved : Bool)
  /-- The next frame cannot be received: the peer is gone or its bytes are corrupt. -/
  | lost (c : ConnectionId)
  | stop

def okPayload : List UInt8 := [1]

def rejectPayload : List UInt8 := [0]

inductive StdException
  /-- A constructor or a change refuses what has been decoded. -/
  | invalidArgument
  /-- A sum of capacities is not finite. -/
  | overflowError

/-- How a request is answered: with a reply, or by an exception that no handler
catches, which ends the process. -/
inductive Answer
  | reply (type : MessageType) (payload : List UInt8)
  | raised (e : StdException)

def errorAnswer : Answer := .reply .error rejectPayload

def publicationAnswer (type : MessageType) (p : CapacityModel × Bool) : CapacityModel × Answer :=
  (p.1, .reply type (if p.2 then okPayload else rejectPayload))

section Dispatch

open BinaryReader BinaryWriter Payload

/-- A query after its payload has been read, or the error reply. -/
def queryAnswer {α : Type} (m : CapacityModel) (read : BinaryReader α) (payload : List UInt8)
    (answer : α → Answer) : CapacityModel × Answer :=
  match read.run payload with
  | none => (m, errorAnswer)
  | some (a, _) => (m, answer a)

/-- The reply with the result of a query, whose sums may raise. -/
def resultAnswer {α : Type} (result : Option α) (type : MessageType)
    (payload : α → List UInt8) : Answer :=
  match result with
  | none => .raised .overflowError
  | some a => .reply type (payload a)

def readFeasibilityQuery : BinaryReader (WorkloadDemand × QueryMode × TimePoint) := do
  let d ← readDemand
  let mode ← readU8
  let t ← readI64
  return (d, QueryMode.ofCode mode, t)

def feasibilityReply (fr : FeasibilityResult) : List UInt8 :=
  writeU8 fr.outcome.code ++ writeI64 fr.fitTime ++ writeU8 fr.mode.code ++ writeU8 0

def readEarliestFitQuery :
    BinaryReader (WorkloadDemand × QueryMode × TimePoint × DurationNs × TimePoint) := do
  let d ← readDemand
  let es ← readI64
  let dur ← readI64
  let hor ← readI64
  let mode ← readU8
  return (d, QueryMode.ofCode mode, es, dur, hor)

def earliestFitReply (e : EarliestFitResult) : List UInt8 :=
  let found : UInt8 := if e.found then 1 else 0
  writeU8 found ++ writeI64 e.start ++ writeI64 e.end_ ++ writeI64 e.start ++ writeU8 found

def readCapacityQuery : BinaryReader (UInt8 × TimePoint) := do
  let mode ← readU8
  let t ← readI64
  return (mode, t)

def dispatch (σ : EventSort) (m : CapacityModel) (msg : FramedMessage) (saved : Bool) :
    CapacityModel × Answer :=
  match msg.type with
  | .hello => (m, .reply .hello (writeU64 m.epoch.value))
  | .publishResource =>
    match readResource.run msg.payload with
    | none => (m, .reply .publishResource rejectPayload)
    | some (res, _) => publicationAnswer .publishResource (m.publishResource res)
  | .publishReservation =>
    match readReservation.run msg.payload with
    | none => (m, .reply .publishReservation rejectPayload)
    | some (none, _) => (m, .raised .invalidArgument)
    | some (some res, _) => publicationAnswer .publishReservation (m.publishReservation res)
  | .publishRelease =>
    match readRelease.run msg.payload with
    | none => (m, .reply .publishRelease rejectPayload)
    | some (none, _) => (m, .raised .invalidArgument)
    | some (some rel, _) => publicationAnswer .publishRelease (m.publishRelease rel)
  | .advanceGeneration =>
    match readU64.run msg.payload with
    | none => (m, errorAnswer)
    | some (id, _) => publicationAnswer .advanceGeneration (m.advanceResourceGeneration ⟨id⟩)
  | .queryCapacity => queryAnswer m readCapacityQuery msg.payload fun (mode, t) =>
      resultAnswer (m.queryCapacity? (A := .double) σ (QueryMode.ofCode mode) t) .queryCapacity
        fun c => writeU8 mode ++ writeI64 t ++ writeCapacity c
  | .queryFeasibility => queryAnswer m readFeasibilityQuery msg.payload fun (d, mode, t) =>
      resultAnswer (m.queryFeasibility? (A := .double) σ d mode t) .queryFeasibility
        feasibilityReply
  | .queryEarliestFit =>
      queryAnswer m readEarliestFitQuery msg.payload fun (d, mode, es, dur, hor) =>
        resultAnswer (m.queryEarliestFit? (A := .double) σ d mode es dur hor) .queryEarliestFit
          earliestFitReply
  | .queryHeadroom => queryAnswer m readDemand msg.payload fun d =>
      resultAnswer (m.queryHeadroom? (A := .double) d) .queryHeadroom fun h =>
        writeU8 (if h.capacityConstrained then 1 else 0) ++
          writeF64 (h.conservative.amount .acceleratorCount)
  | .save => queryAnswer m readString msg.payload fun _ =>
      .reply .save (if saved then okPayload else rejectPayload)
  | _ => (m, errorAnswer)

def readRegistration : BinaryReader (WorkerId × WorkerBootId) := do
  let w ← readU64
  let b ← readU64
  return (⟨w⟩, ⟨b⟩)

end Dispatch

def close (s : Coordinator) (c : ConnectionId) : Coordinator :=
  { s with connections := s.connections.erase c }

/-- The end of the process: no connection survives it. -/
def terminate (s : Coordinator) : Coordinator :=
  { s with connections := ∅, running := false, accepting := false, terminated := true }

def handleFrame (σ : EventSort) (s : Coordinator) (c : ConnectionId) (msg : FramedMessage)
    (sent saved : Bool) : Coordinator :=
  match msg.type with
  | .shutdown => { s.close c with running := false }
  | .register =>
    match readRegistration.run msg.payload with
    | none => s
    -- The connection takes the name before the model accepts or rejects it.
    | some ((w, b), _) =>
      { s with
        connections := s.connections.insert c w
        model := (s.model.registerWorker w b).1 }
  | _ =>
    match dispatch σ s.model msg saved with
    | (_, .raised _) => s.terminate
    | (m, .reply _ _) =>
      if sent then { s with model := m } else { s.close c with model := m, running := false }

def handleLost (s : Coordinator) (c : ConnectionId) (curWorker : WorkerId) : Coordinator :=
  { s.close c with
    model := if curWorker.valid then s.model.markWorkerDead curWorker else s.model }

def step (σ : EventSort) (s : Coordinator) : Event → Coordinator
  | .accept c =>
    if !s.accepting || s.connections.contains c then s
    -- The accept thread looks at `running` between two connections only.
    else if s.connections.entries.length ≥ kMaxConcurrentConnections then
      { s with accepting := s.running }
    else { s with connections := s.connections.insert c default, accepting := s.running }
  | .frame c msg sent saved =>
    match s.connections.find? c with
    | none => s
    | some _ => s.handleFrame σ c msg sent saved
  | .lost c =>
    match s.connections.find? c with
    | none => s
    | some curWorker => s.handleLost c curWorker
  | .stop => if s.running then { s with running := false, accepting := false } else s

end Coordinator

end CapacityFabric
