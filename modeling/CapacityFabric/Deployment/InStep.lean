import CapacityFabric.Deployment.Deployment

/-!
# A worker and the coordinator in step

What a worker may rely on where it stands, and what holds between the worker, the handler of
its connection and the frames under way.
-/

namespace CapacityFabric

open CapacityModel

namespace WorkerConfig

variable {m m' : CapacityModel} {cfg : WorkerConfig}

structure Registered (m : CapacityModel) (cfg : WorkerConfig) : Prop where
  boot : cfg.bootId.valid = true
  source : m.sources.find? cfg.workerId = some ⟨cfg.bootId, true⟩

structure Published (m : CapacityModel) (cfg : WorkerConfig) : Prop where
  registered : Registered m cfg
  stored : m.resources.find? cfg.resourceId = some cfg.received

/-- What the worker may rely on before it sends a request. -/
def Before (m : CapacityModel) (cfg : WorkerConfig) : WorkerRequest → Prop
  | .hello | .register => True
  | .publishResource => Registered m cfg

/-- What an acknowledgement tells the worker. -/
def Done (m : CapacityModel) (cfg : WorkerConfig) : WorkerRequest → Prop
  | .hello => True
  | .register => Registered m cfg
  | .publishResource => Published m cfg

structure Same (cfg : WorkerConfig) (m m' : CapacityModel) : Prop where
  source : m'.sources.find? cfg.workerId = m.sources.find? cfg.workerId
  resource : m'.resources.find? cfg.resourceId = m.resources.find? cfg.resourceId

theorem Same.refl (cfg : WorkerConfig) (m : CapacityModel) : Same cfg m m := ⟨rfl, rfl⟩

theorem Registered.of_same (h : Registered m cfg) (hsame : Same cfg m m') : Registered m' cfg :=
  ⟨h.boot, hsame.source.trans h.source⟩

theorem Before.of_same {r : WorkerRequest} (h : Before m cfg r) (hsame : Same cfg m m') :
    Before m' cfg r := by
  cases r with
  | hello | register => trivial
  | publishResource => exact Registered.of_same h hsame

theorem Done.of_same {r : WorkerRequest} (h : Done m cfg r) (hsame : Same cfg m m') :
    Done m' cfg r := by
  cases r with
  | hello => trivial
  | register => exact Registered.of_same h hsame
  | publishResource => exact ⟨h.registered.of_same hsame, hsame.resource.trans h.stored⟩

theorem isCurrent_resource (h : Registered m cfg) : m.isCurrent cfg.received = true := by
  have hfind : m.sources.find? cfg.received.worker = some ⟨cfg.bootId, true⟩ := h.source
  rw [isCurrent, ResourceInfo.isCurrentDynamic, hfind]
  simp [h.boot]

end WorkerConfig

open WorkerConfig

/-- The worker, its handler and the connection between them are in step. -/
inductive InStep (m : CapacityModel) (cfg : WorkerConfig) :
    WorkerStage → HandlerStage → List FramedMessage → List FramedMessage → Prop
  | aboutToSend {r : WorkerRequest} (h : Before m cfg r) :
      InStep m cfg (.aboutToSend r) .receiving [] []
  | sent {r : WorkerRequest} (h : Before m cfg r) :
      InStep m cfg (.awaiting r) .receiving [cfg.request r] []
  | received {r : WorkerRequest} (h : Before m cfg r) :
      InStep m cfg (.awaiting r) (.received (cfg.request r)) [] []
  | answered {r : WorkerRequest} {reply : FramedMessage} {next : AfterReply}
      (hnext : next ≠ .endCoordinator) (h : r.isAcknowledged reply = true → Done m cfg r) :
      InStep m cfg (.awaiting r) (.replying reply next) [] []
  | replied {r : WorkerRequest} {reply : FramedMessage}
      (h : r.isAcknowledged reply = true → Done m cfg r) :
      InStep m cfg (.awaiting r) .receiving [] [reply]
  | ready (h : Published m cfg) : InStep m cfg .ready .receiving [] []

theorem InStep.of_same {m m' : CapacityModel} {cfg : WorkerConfig} {stage : WorkerStage}
    {hstage : HandlerStage} {requests replies : List FramedMessage}
    (h : InStep m cfg stage hstage requests replies) (hsame : Same cfg m m') :
    InStep m' cfg stage hstage requests replies := by
  cases h with
  | aboutToSend h => exact .aboutToSend (h.of_same hsame)
  | sent h => exact .sent (h.of_same hsame)
  | received h => exact .received (h.of_same hsame)
  | answered hnext h => exact .answered hnext fun hack => (h hack).of_same hsame
  | replied h => exact .replied fun hack => (h hack).of_same hsame
  | ready h => exact .ready (Done.of_same (r := .publishResource) h hsame)

section InStep

variable {m : CapacityModel} {cfg : WorkerConfig} {stage : WorkerStage} {hstage : HandlerStage}
  {requests replies : List FramedMessage}

theorem InStep.not_given_up (h : InStep m cfg stage hstage requests replies) :
    hstage ≠ .lost ∧ hstage ≠ .ending := by
  cases h <;> exact ⟨nofun, nofun⟩

theorem InStep.connected {h : Handler} (hin : InStep m cfg stage h.stage requests replies) :
    h.connected = some h.curWorker := by
  obtain ⟨hstage, w⟩ := h
  cases hin <;> rfl

theorem InStep.of_received {msg : FramedMessage}
    (h : InStep m cfg stage (.received msg) requests replies) :
    ∃ r, stage = .awaiting r ∧ msg = cfg.request r ∧ requests = [] ∧ replies = [] ∧
      Before m cfg r := by
  cases h with
  | received hbefore => exact ⟨_, rfl, rfl, rfl, rfl, hbefore⟩

theorem InStep.of_replying {reply : FramedMessage} {next : AfterReply}
    (h : InStep m cfg stage (.replying reply next) requests replies) :
    ∃ r, stage = .awaiting r ∧ requests = [] ∧ replies = [] ∧ next ≠ .endCoordinator ∧
      (r.isAcknowledged reply = true → Done m cfg r) := by
  cases h with
  | answered hnext hack => exact ⟨_, rfl, rfl, rfl, hnext, hack⟩

theorem InStep.isOver_eq (h : InStep m cfg stage hstage requests replies) :
    stage.isOver = false := by
  cases h <;> rfl

theorem InStep.published (h : InStep m cfg .ready hstage requests replies) : Published m cfg := by
  cases h with
  | ready hpublished => exact hpublished

end InStep

namespace Peer

def MaySend : Peer → FramedMessage → Prop
  | .worker cfg _, msg => ∃ r, msg = cfg.request r
  | .client, msg =>
    msg.type ≠ .register ∧ msg.type ≠ .publishResource ∧ msg.type ≠ .advanceGeneration

def MayName : Peer → WorkerId → Prop
  | .worker cfg _, w => w = default ∨ w = cfg.workerId
  | .client, w => w = default

/-- What stays of a peer while it lives. -/
def config : Peer → Option WorkerConfig
  | .worker cfg _ => some cfg
  | .client => none

theorem config_afterFailure (p : Peer) : p.afterFailure.config = p.config := by
  cases p <;> rfl

theorem config_afterKill (p : Peer) : p.afterKill.config = p.config := by
  cases p <;> rfl

def IsApart (cfg : WorkerConfig) : Peer → Prop
  | .worker cfg' _ => cfg'.workerId ≠ cfg.workerId ∧ cfg'.resourceId ≠ cfg.resourceId
  | .client => True

theorem isApart_congr {p p' : Peer} (h : p.config = p'.config) (cfg : WorkerConfig) :
    p.IsApart cfg ↔ p'.IsApart cfg := by
  cases p <;> cases p' <;> cases h <;> exact Iff.rfl

theorem worker_of_config {p p' : Peer} (h : p'.config = p.config) {cfg : WorkerConfig}
    {stage : WorkerStage} (hp : p' = .worker cfg stage) : ∃ stage', p = .worker cfg stage' := by
  subst hp
  cases p with
  | client => cases h
  | worker cfg' stage' =>
    obtain rfl := Option.some.inj h
    exact ⟨stage', rfl⟩

end Peer

def HandlerStage.taken : HandlerStage → List FramedMessage
  | .received msg => [msg]
  | _ => []

/-- What is known of an open connection. -/
structure LinkOk (m : CapacityModel) (h : Handler) (link : Link) : Prop where
  sends : ∀ msg ∈ h.stage.taken ++ link.requests, link.peer.MaySend msg
  names : link.peer.MayName h.curWorker
  inStep : ∀ cfg stage, link.peer = .worker cfg stage → link.broken = false →
    InStep m cfg stage h.stage link.requests link.replies

end CapacityFabric
