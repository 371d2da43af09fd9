import CapacityFabric.Coordinator.ThreadRefinement
import CapacityFabric.Deployment.Worker

/-!
# A deployment

The threads of a coordinator together with the processes at the other ends of its connections:
workers, and clients that ask and publish reservations and releases.  A connection carries
frames in order, in either direction, until it breaks.
-/

namespace CapacityFabric

/-- The process at the other end of a connection. -/
inductive Peer
  | worker (cfg : WorkerConfig) (stage : WorkerStage)
  | client
  deriving DecidableEq

namespace Peer

def start : Option WorkerConfig → Peer
  | some cfg => .worker cfg (.aboutToSend .hello)
  | none => .client

def afterFailure : Peer → Peer
  | .worker cfg stage => .worker cfg stage.afterFailure
  | .client => .client

def afterKill : Peer → Peer
  | .worker cfg stage => .worker cfg (if stage.isOver then stage else .killed)
  | .client => .client

end Peer

structure Link where
  peer : Peer
  /-- The frames under way to the coordinator, first in, first out. -/
  requests : List FramedMessage := []
  replies : List FramedMessage := []
  /-- Whether the peer can send and receive nothing more. -/
  broken : Bool := false

structure Deployment where
  threads : Threads := {}
  /-- The other end of each connection, in the order of the handlers. -/
  links : List Link := []
  /-- The processes whose connections the accept thread has closed at once. -/
  turnedAway : List Peer := []

namespace Deployment

/-- The processes, whether or not a handler has taken up their connections. -/
def peers (d : Deployment) : List Peer := d.links.map Link.peer ++ d.turnedAway

inductive Event
  /-- With the process whose connection it is, if the accept thread creates a handler or closes
  the connection. -/
  | accept (e : Threads.AcceptEvent) (started : Option WorkerConfig)
  | deliver (c : ConnectionId)
  | lose (c : ConnectionId)
  | work (c : ConnectionId) (saved : Bool)
  | send (c : ConnectionId) (sent : Bool)
  | go (c : ConnectionId)
  | owner (e : Threads.OwnerEvent)
  | workerSends (c : ConnectionId)
  | workerReceives (c : ConnectionId)
  | clientSends (c : ConnectionId) (msg : FramedMessage)
  /-- The connection fails at the peer. -/
  | breaks (c : ConnectionId)
  /-- The process at the peer is killed. -/
  | ends (c : ConnectionId)
  /-- A process that was turned away finds its connection closed. -/
  | fails (i : ℕ)
  /-- A process that was turned away is killed. -/
  | dies (i : ℕ)

def setLink (d : Deployment) (c : ConnectionId) (link : Link) : Deployment :=
  { d with links := d.links.set c link }

variable (σ : EventSort)

/-- An action of a thread that takes nothing from the network and puts nothing there. -/
def threadStep (d : Deployment) (e : Threads.Event) : Deployment :=
  { d with threads := Threads.step σ d.threads e }

def acceptStep (d : Deployment) (e : Threads.AcceptEvent) (started : Option WorkerConfig) :
    Deployment :=
  let threads := Threads.step σ d.threads (.accept e)
  { threads
    links := if d.threads.handlers.length < threads.handlers.length
      then d.links ++ [{ peer := Peer.start started }] else d.links
    -- From there the accept thread goes back to its test only at the limit of connections.
    turnedAway := if d.threads.accepting = .accepted ∧ threads.accepting = .testing
      then d.turnedAway ++ [Peer.start started] else d.turnedAway }

def deliverStep (d : Deployment) (c : ConnectionId) : Deployment :=
  match d.threads.handlers[c]?, d.links[c]? with
  | some ⟨.receiving, _⟩, some ⟨peer, msg :: requests, replies, broken⟩ =>
    if d.threads.isOver then d
    else (d.threadStep σ (.handler c (.recv msg))).setLink c ⟨peer, requests, replies, broken⟩
  | _, _ => d

/-- A handler loses its connection once the peer is gone. -/
def loseStep (d : Deployment) (c : ConnectionId) : Deployment :=
  if (d.links[c]?).any Link.broken then d.threadStep σ (.handler c .lose) else d

/-- Only a connection whose peer is gone fails to take a reply. -/
def sendStep (d : Deployment) (c : ConnectionId) (sent : Bool) : Deployment :=
  match d.threads.handlers[c]?, d.links[c]? with
  | some ⟨.replying reply _, _⟩, some link =>
    if d.threads.isOver then d
    else if sent then
      (d.threadStep σ (.handler c (.send true))).setLink c
        { link with replies := link.replies ++ [reply] }
    else if link.broken then d.threadStep σ (.handler c (.send false))
    else d
  | _, _ => d

def workerSendsStep (d : Deployment) (c : ConnectionId) : Deployment :=
  match d.links[c]? with
  | some ⟨.worker cfg (.aboutToSend r), requests, replies, false⟩ =>
    d.setLink c ⟨.worker cfg (.awaiting r), requests ++ [cfg.request r], replies, false⟩
  | _ => d

def workerReceivesStep (d : Deployment) (c : ConnectionId) : Deployment :=
  match d.links[c]? with
  | some ⟨.worker cfg stage, requests, msg :: replies, false⟩ =>
    -- A process that has ended has closed its connection.
    if stage.receives then
      d.setLink c ⟨.worker cfg (stage.afterFrame msg), requests, replies,
        (stage.afterFrame msg).isOver⟩
    else d
  | _ => d

def clientSendsStep (d : Deployment) (c : ConnectionId) (msg : FramedMessage) : Deployment :=
  match d.links[c]? with
  | some ⟨.client, requests, replies, false⟩ =>
    d.setLink c ⟨.client, requests ++ [msg], replies, false⟩
  | _ => d

def breaksStep (d : Deployment) (c : ConnectionId) : Deployment :=
  match d.links[c]? with
  | some link => d.setLink c { link with peer := link.peer.afterFailure, broken := true }
  | none => d

def endsStep (d : Deployment) (c : ConnectionId) : Deployment :=
  match d.links[c]? with
  | some link => d.setLink c { link with peer := link.peer.afterKill, broken := true }
  | none => d

def failsStep (d : Deployment) (i : ℕ) : Deployment :=
  { d with turnedAway := d.turnedAway.modify i Peer.afterFailure }

def diesStep (d : Deployment) (i : ℕ) : Deployment :=
  { d with turnedAway := d.turnedAway.modify i Peer.afterKill }

def step (d : Deployment) : Event → Deployment
  | .accept e started => d.acceptStep σ e started
  | .deliver c => d.deliverStep σ c
  | .lose c => d.loseStep σ c
  | .work c saved => d.threadStep σ (.handler c (.work saved))
  | .send c sent => d.sendStep σ c sent
  | .go c => d.threadStep σ (.handler c .go)
  | .owner e => d.threadStep σ (.owner e)
  | .workerSends c => d.workerSendsStep c
  | .workerReceives c => d.workerReceivesStep c
  | .clientSends c msg => d.clientSendsStep c msg
  | .breaks c => d.breaksStep c
  | .ends c => d.endsStep c
  | .fails i => d.failsStep i
  | .dies i => d.diesStep i

/-- A worker is started with ids that no open connection uses, and clients leave the workers and
their resources alone. -/
def WellRun (d : Deployment) : Event → Prop
  | .accept _ (some cfg) => ∀ c link, d.links[c]? = some link →
      (Threads.worker? d.threads.handlers c).isSome = true → ∀ cfg' stage,
        link.peer = .worker cfg' stage →
          cfg'.workerId ≠ cfg.workerId ∧ cfg'.resourceId ≠ cfg.resourceId
  | .clientSends _ msg =>
      msg.type ≠ .register ∧ msg.type ≠ .publishResource ∧ msg.type ≠ .advanceGeneration
  | _ => True

end Deployment

end CapacityFabric
