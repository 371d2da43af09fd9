import CapacityFabric.Coordinator.Coordinator

/-!
# The threads of the coordinator

The accept thread, the handler threads and the owner of a coordinator, one action at a time.
They share the model, which an action changes under its lock, the flag `running_` and the
count `active_`, which are atomic.
-/

namespace CapacityFabric

/-- What a handler does once it has replied. -/
inductive AfterReply
  /-- Goes on, whether the reply could be sent or not. -/
  | goOn
  | goOnIfSent
  | endCoordinator

inductive HandlerStage
  /-- In `recvFrame`. -/
  | receiving
  | received (msg : FramedMessage)
  /-- `recvFrame` has failed. -/
  | lost
  | replying (reply : FramedMessage) (next : AfterReply)
  /-- About to store `false` into `running_`. -/
  | ending
  /-- About to close the connection. -/
  | closing
  /-- `handleConnection` has returned. -/
  | returned
  | finished

/-- The thread that serves one connection. -/
structure Handler where
  stage : HandlerStage := .receiving
  curWorker : WorkerId := default

def Handler.isFinished (h : Handler) : Bool :=
  match h.stage with
  | .finished => true
  | _ => false

inductive AcceptStage
  /-- At the loop's test of `running_`. -/
  | testing
  /-- In `accept`. -/
  | waiting
  /-- `accept` has failed. -/
  | failed
  /-- About to look at `active_`. -/
  | accepted
  /-- The connection is counted and its thread not yet created. -/
  | counted
  | finished
  deriving DecidableEq

/-- Where the owner of the coordinator stands: outside, in `stop()`, or past its end. -/
inductive OwnerStage
  | outside
  | closingListener
  | joiningAccept
  | joiningHandlers (joined : ℕ)
  /-- `stop()` has returned with every thread joined. -/
  | stopped
  | destroyed
  /-- A thread was still joinable when the members were destroyed. -/
  | aborted
  deriving DecidableEq

structure Threads where
  model : CapacityModel := {}
  running : Bool := true
  active : ℕ := 0
  listening : Bool := true
  accepting : AcceptStage := .testing
  /-- A handler for each connection, which is named by its place. -/
  handlers : List Handler := []
  owner : OwnerStage := .outside
  /-- Whether an exception has ended the process. -/
  terminated : Bool := false

namespace Threads

inductive AcceptEvent
  | connect
  | fail
  | go

inductive HandlerEvent
  | recv (msg : FramedMessage)
  | lose
  /-- The part of the handling under the model's lock. -/
  | work (saved : Bool)
  | send (sent : Bool)
  | go

inductive OwnerEvent
  /-- The call of `stop()`. -/
  | stop
  | go
  /-- The end of the members, after the `stop()` of the destructor. -/
  | destroy

inductive Event
  | accept (e : AcceptEvent)
  | handler (c : ConnectionId) (e : HandlerEvent)
  | owner (e : OwnerEvent)

def acceptStep (s : Threads) : AcceptEvent → Threads
  | .connect =>
    if s.accepting = .waiting ∧ s.listening then { s with accepting := .accepted } else s
  | .fail => if s.accepting = .waiting then { s with accepting := .failed } else s
  | .go =>
    match s.accepting with
    | .testing => { s with accepting := if s.running then .waiting else .finished }
    | .failed => { s with accepting := if s.running then .testing else .finished }
    | .accepted =>
      -- Beyond the limit the connection is closed at once.
      if s.active ≥ kMaxConcurrentConnections then { s with accepting := .testing }
      else { s with accepting := .counted, active := s.active + 1 }
    | .counted => { s with accepting := .testing, handlers := s.handlers ++ [{}] }
    | _ => s

def setHandler (s : Threads) (c : ConnectionId) (h : Handler) : Threads :=
  { s with handlers := s.handlers.set c h }

def replyTo (msg : FramedMessage) (type : MessageType) (payload : List UInt8) : FramedMessage :=
  ⟨type, msg.seq, payload⟩

/-- What a handler does with a frame before it replies. -/
def handle (σ : EventSort) (s : Threads) (c : ConnectionId) (h : Handler) (msg : FramedMessage)
    (saved : Bool) : Threads :=
  match msg.type with
  | .shutdown =>
    s.setHandler c { h with stage := .replying (replyTo msg .shutdown [1]) .endCoordinator }
  | .register =>
    match Coordinator.readRegistration.run msg.payload with
    | none =>
      s.setHandler c
        { h with stage := .replying (replyTo msg .error Coordinator.rejectPayload) .goOn }
    | some ((w, b), _) =>
      let (m, ok) := s.model.registerWorker w b
      { s.setHandler c
          { curWorker := w
            stage := .replying (replyTo msg .register
              (if ok then Coordinator.okPayload else Coordinator.rejectPayload)) .goOn } with
        model := m }
  | _ =>
    match Coordinator.dispatch σ s.model msg saved with
    | (_, .raised _) => { s with terminated := true }
    | (m, .reply type payload) =>
      { s.setHandler c { h with stage := .replying (replyTo msg type payload) .goOnIfSent } with
        model := m }

def handlerStep (σ : EventSort) (s : Threads) (c : ConnectionId) (h : Handler) :
    HandlerEvent → Threads
  | .recv msg =>
    match h.stage with
    | .receiving => s.setHandler c { h with stage := .received msg }
    | _ => s
  | .lose =>
    match h.stage with
    | .receiving => s.setHandler c { h with stage := .lost }
    | _ => s
  | .work saved =>
    match h.stage with
    | .received msg => s.handle σ c h msg saved
    | .lost =>
      { s.setHandler c { h with stage := .closing } with
        model := if h.curWorker.valid then s.model.markWorkerDead h.curWorker else s.model }
    | _ => s
  | .send sent =>
    match h.stage with
    | .replying _ .goOn => s.setHandler c { h with stage := .receiving }
    | .replying _ .goOnIfSent =>
      s.setHandler c { h with stage := if sent then .receiving else .ending }
    | .replying _ .endCoordinator => s.setHandler c { h with stage := .ending }
    | _ => s
  | .go =>
    match h.stage with
    | .ending => { s.setHandler c { h with stage := .closing } with running := false }
    | .closing => s.setHandler c { h with stage := .returned }
    | .returned => { s.setHandler c { h with stage := .finished } with active := s.active - 1 }
    | _ => s

def ownerStep (s : Threads) : OwnerEvent → Threads
  | .stop =>
    -- When `running_` is false already, `stop()` returns at once.
    if s.owner = .outside ∧ s.running then { s with owner := .closingListener, running := false }
    else s
  | .go =>
    match s.owner with
    | .closingListener => { s with owner := .joiningAccept, listening := false }
    | .joiningAccept =>
      if s.accepting = .finished then { s with owner := .joiningHandlers 0 } else s
    | .joiningHandlers n =>
      match s.handlers[n]? with
      | none => { s with owner := .stopped, handlers := [] }
      | some h => if h.isFinished then { s with owner := .joiningHandlers (n + 1) } else s
    | _ => s
  | .destroy =>
    match s.owner with
    | .outside => if s.running then s else { s with owner := .aborted }
    | .stopped => { s with owner := .destroyed }
    | _ => s

def isOver (s : Threads) : Bool :=
  s.terminated || s.owner = .destroyed || s.owner = .aborted

def step (σ : EventSort) (s : Threads) (e : Event) : Threads :=
  if s.isOver then s
  else
    match e with
    | .accept e => s.acceptStep e
    | .handler c e =>
      match s.handlers[c]? with
      | none => s
      | some h => s.handlerStep σ c h e
    | .owner e => s.ownerStep e

abbrev Reachable (σ : EventSort) (s : Threads) : Prop := Runs.Reachable (step σ) {} s

/-- The steps that have an effect, each with what it finds and the state that it leaves. -/
inductive Moves (σ : EventSort) (s : Threads) : Event → Threads → Prop
  | connects (haccepting : s.accepting = .waiting) (hlistening : s.listening = true) :
      Moves σ s (.accept .connect) { s with accepting := .accepted }
  | failsToAccept (haccepting : s.accepting = .waiting) :
      Moves σ s (.accept .fail) { s with accepting := .failed }
  | waits (haccepting : s.accepting = .testing) (hrunning : s.running = true) :
      Moves σ s (.accept .go) { s with accepting := .waiting }
  | retries (haccepting : s.accepting = .failed) (hrunning : s.running = true) :
      Moves σ s (.accept .go) { s with accepting := .testing }
  | leaves (haccepting : s.accepting = .testing ∨ s.accepting = .failed)
      (hrunning : s.running = false) :
      Moves σ s (.accept .go) { s with accepting := .finished }
  | refuses (haccepting : s.accepting = .accepted)
      (hfull : s.active ≥ kMaxConcurrentConnections) :
      Moves σ s (.accept .go) { s with accepting := .testing }
  | counts (haccepting : s.accepting = .accepted) (hroom : s.active < kMaxConcurrentConnections) :
      Moves σ s (.accept .go) { s with accepting := .counted, active := s.active + 1 }
  | serves (haccepting : s.accepting = .counted) :
      Moves σ s (.accept .go) { s with accepting := .testing, handlers := s.handlers ++ [{}] }
  | receives {c : ConnectionId} {h : Handler} (hc : s.handlers[c]? = some h)
      (hstage : h.stage = .receiving) (msg : FramedMessage) :
      Moves σ s (.handler c (.recv msg)) (s.setHandler c { h with stage := .received msg })
  | loses {c : ConnectionId} {h : Handler} (hc : s.handlers[c]? = some h)
      (hstage : h.stage = .receiving) :
      Moves σ s (.handler c .lose) (s.setHandler c { h with stage := .lost })
  | isAskedToEnd {c : ConnectionId} {h : Handler} {msg : FramedMessage}
      (hc : s.handlers[c]? = some h) (hstage : h.stage = .received msg)
      (htype : msg.type = .shutdown) (saved : Bool) :
      Moves σ s (.handler c (.work saved)) (s.setHandler c
        { h with stage := .replying (replyTo msg .shutdown [1]) .endCoordinator })
  | cannotRead {c : ConnectionId} {h : Handler} {msg : FramedMessage}
      (hc : s.handlers[c]? = some h) (hstage : h.stage = .received msg)
      (htype : msg.type = .register)
      (hread : Coordinator.readRegistration.run msg.payload = none) (saved : Bool) :
      Moves σ s (.handler c (.work saved)) (s.setHandler c
        { h with stage := .replying (replyTo msg .error Coordinator.rejectPayload) .goOn })
  | registers {c : ConnectionId} {h : Handler} {msg : FramedMessage}
      (hc : s.handlers[c]? = some h) (hstage : h.stage = .received msg)
      (htype : msg.type = .register) {w : WorkerId} {b : WorkerBootId} {rest : List UInt8}
      (hread : Coordinator.readRegistration.run msg.payload = some ((w, b), rest))
      (saved : Bool) :
      Moves σ s (.handler c (.work saved))
        { s.setHandler c
            { curWorker := w
              stage := .replying (replyTo msg .register (if (s.model.registerWorker w b).2 then
                Coordinator.okPayload else Coordinator.rejectPayload)) .goOn } with
          model := (s.model.registerWorker w b).1 }
  | answers {c : ConnectionId} {h : Handler} {msg : FramedMessage}
      (hc : s.handlers[c]? = some h) (hstage : h.stage = .received msg)
      (hshutdown : msg.type ≠ .shutdown) (hregister : msg.type ≠ .register) {saved : Bool}
      {m : CapacityModel} {type : MessageType} {payload : List UInt8}
      (hdispatch : Coordinator.dispatch σ s.model msg saved = (m, .reply type payload)) :
      Moves σ s (.handler c (.work saved))
        { s.setHandler c
            { h with stage := .replying (replyTo msg type payload) .goOnIfSent } with
          model := m }
  | raises {c : ConnectionId} {h : Handler} {msg : FramedMessage}
      (hc : s.handlers[c]? = some h) (hstage : h.stage = .received msg)
      (hshutdown : msg.type ≠ .shutdown) (hregister : msg.type ≠ .register) {saved : Bool}
      {m : CapacityModel} {e : Coordinator.StdException}
      (hdispatch : Coordinator.dispatch σ s.model msg saved = (m, .raised e)) :
      Moves σ s (.handler c (.work saved)) { s with terminated := true }
  | buries {c : ConnectionId} {h : Handler} (hc : s.handlers[c]? = some h)
      (hstage : h.stage = .lost) (saved : Bool) :
      Moves σ s (.handler c (.work saved))
        { s.setHandler c { h with stage := .closing } with
          model := if h.curWorker.valid then s.model.markWorkerDead h.curWorker else s.model }
  | goesOn {c : ConnectionId} {h : Handler} {reply : FramedMessage} {next : AfterReply}
      (hc : s.handlers[c]? = some h) (hstage : h.stage = .replying reply next)
      {sent : Bool} (hnext : next = .goOn ∨ next = .goOnIfSent ∧ sent = true) :
      Moves σ s (.handler c (.send sent)) (s.setHandler c { h with stage := .receiving })
  | givesUp {c : ConnectionId} {h : Handler} {reply : FramedMessage} {next : AfterReply}
      (hc : s.handlers[c]? = some h) (hstage : h.stage = .replying reply next)
      {sent : Bool} (hnext : next = .endCoordinator ∨ next = .goOnIfSent ∧ sent = false) :
      Moves σ s (.handler c (.send sent)) (s.setHandler c { h with stage := .ending })
  | ends {c : ConnectionId} {h : Handler} (hc : s.handlers[c]? = some h)
      (hstage : h.stage = .ending) :
      Moves σ s (.handler c .go)
        { s.setHandler c { h with stage := .closing } with running := false }
  | closes {c : ConnectionId} {h : Handler} (hc : s.handlers[c]? = some h)
      (hstage : h.stage = .closing) :
      Moves σ s (.handler c .go) (s.setHandler c { h with stage := .returned })
  | returns {c : ConnectionId} {h : Handler} (hc : s.handlers[c]? = some h)
      (hstage : h.stage = .returned) :
      Moves σ s (.handler c .go)
        { s.setHandler c { h with stage := .finished } with active := s.active - 1 }
  | stops (howner : s.owner = .outside) (hrunning : s.running = true) :
      Moves σ s (.owner .stop) { s with owner := .closingListener, running := false }
  | closesListener (howner : s.owner = .closingListener) :
      Moves σ s (.owner .go) { s with owner := .joiningAccept, listening := false }
  | joinsAccept (howner : s.owner = .joiningAccept) (haccepting : s.accepting = .finished) :
      Moves σ s (.owner .go) { s with owner := .joiningHandlers 0 }
  | joinsHandler {n : ℕ} {h : Handler} (howner : s.owner = .joiningHandlers n)
      (hn : s.handlers[n]? = some h) (hfinished : h.isFinished = true) :
      Moves σ s (.owner .go) { s with owner := .joiningHandlers (n + 1) }
  | hasJoined {n : ℕ} (howner : s.owner = .joiningHandlers n) (hn : s.handlers[n]? = none) :
      Moves σ s (.owner .go) { s with owner := .stopped, handlers := [] }
  | aborts (howner : s.owner = .outside) (hrunning : s.running = false) :
      Moves σ s (.owner .destroy) { s with owner := .aborted }
  | destroys (howner : s.owner = .stopped) :
      Moves σ s (.owner .destroy) { s with owner := .destroyed }

variable {σ : EventSort} {s : Threads}

theorem accept_cases (s : Threads) (e : AcceptEvent) :
    s.acceptStep e = s ∨ Moves σ s (.accept e) (s.acceptStep e) := by
  cases e with
  | connect =>
    rw [acceptStep]
    split_ifs with h
    · exact Or.inr (.connects h.1 h.2)
    · exact Or.inl rfl
  | fail =>
    rw [acceptStep]
    split_ifs with h
    · exact Or.inr (.failsToAccept h)
    · exact Or.inl rfl
  | go =>
    simp only [acceptStep]
    cases haccepting : s.accepting with
    | testing =>
      dsimp only
      split_ifs with hrunning
      · exact Or.inr (.waits haccepting hrunning)
      · exact Or.inr (.leaves (Or.inl haccepting) (Bool.not_eq_true _ ▸ hrunning))
    | failed =>
      dsimp only
      split_ifs with hrunning
      · exact Or.inr (.retries haccepting hrunning)
      · exact Or.inr (.leaves (Or.inr haccepting) (Bool.not_eq_true _ ▸ hrunning))
    | accepted =>
      dsimp only
      split_ifs with hfull
      · exact Or.inr (.refuses haccepting hfull)
      · exact Or.inr (.counts haccepting (not_le.mp hfull))
    | counted => exact Or.inr (.serves haccepting)
    | waiting | finished => exact Or.inl rfl

theorem handle_cases {c : ConnectionId} {h : Handler} {msg : FramedMessage}
    (hc : s.handlers[c]? = some h) (hstage : h.stage = .received msg) (saved : Bool) :
    Moves σ s (.handler c (.work saved)) (s.handle σ c h msg saved) := by
  unfold handle
  split
  · exact .isAskedToEnd hc hstage ‹_› saved
  · split
    · exact .cannotRead hc hstage ‹_› ‹_› saved
    · exact .registers hc hstage ‹_› ‹_› saved
  · split
    · exact .raises hc hstage ‹_› ‹_› ‹_›
    · exact .answers hc hstage ‹_› ‹_› ‹_›

theorem handler_cases {c : ConnectionId} {h : Handler} (hc : s.handlers[c]? = some h)
    (e : HandlerEvent) :
    s.handlerStep σ c h e = s ∨ Moves σ s (.handler c e) (s.handlerStep σ c h e) := by
  unfold handlerStep
  cases e with
  | recv msg =>
    cases hstage : h.stage with
    | receiving => exact Or.inr (.receives hc hstage msg)
    | _ => exact Or.inl rfl
  | lose =>
    cases hstage : h.stage with
    | receiving => exact Or.inr (.loses hc hstage)
    | _ => exact Or.inl rfl
  | work saved =>
    cases hstage : h.stage with
    | received msg => exact Or.inr (handle_cases hc hstage saved)
    | lost => exact Or.inr (.buries hc hstage saved)
    | _ => exact Or.inl rfl
  | send sent =>
    cases hstage : h.stage with
    | replying reply next =>
      cases next with
      | goOn => exact Or.inr (.goesOn hc hstage (Or.inl rfl))
      | goOnIfSent =>
        cases sent with
        | true => exact Or.inr (.goesOn hc hstage (Or.inr ⟨rfl, rfl⟩))
        | false => exact Or.inr (.givesUp hc hstage (Or.inr ⟨rfl, rfl⟩))
      | endCoordinator => exact Or.inr (.givesUp hc hstage (Or.inl rfl))
    | _ => exact Or.inl rfl
  | go =>
    cases hstage : h.stage with
    | ending => exact Or.inr (.ends hc hstage)
    | closing => exact Or.inr (.closes hc hstage)
    | returned => exact Or.inr (.returns hc hstage)
    | _ => exact Or.inl rfl

theorem owner_cases (s : Threads) (e : OwnerEvent) :
    s.ownerStep e = s ∨ Moves σ s (.owner e) (s.ownerStep e) := by
  cases e with
  | stop =>
    rw [ownerStep]
    split_ifs with h
    · exact Or.inr (.stops h.1 h.2)
    · exact Or.inl rfl
  | go =>
    simp only [ownerStep]
    cases howner : s.owner with
    | closingListener => exact Or.inr (.closesListener howner)
    | joiningAccept =>
      dsimp only
      split_ifs with haccepting
      · exact Or.inr (.joinsAccept howner haccepting)
      · exact Or.inl rfl
    | joiningHandlers n =>
      cases hn : s.handlers[n]? with
      | none => exact Or.inr (by simpa [hn] using Moves.hasJoined howner hn)
      | some h =>
        simp only [hn]
        split_ifs with hfinished
        · exact Or.inr (.joinsHandler howner hn hfinished)
        · exact Or.inl rfl
    | _ => exact Or.inl rfl
  | destroy =>
    simp only [ownerStep]
    cases howner : s.owner with
    | outside =>
      dsimp only
      split_ifs with hrunning
      · exact Or.inl rfl
      · exact Or.inr (.aborts howner (Bool.not_eq_true _ ▸ hrunning))
    | stopped => exact Or.inr (.destroys howner)
    | _ => exact Or.inl rfl

theorem step_cases (s : Threads) (e : Event) :
    step σ s e = s ∨ s.isOver = false ∧ Moves σ s e (step σ s e) := by
  cases hover : s.isOver with
  | true => exact Or.inl (if_pos hover)
  | false =>
    have hlives : ¬s.isOver = true := by simp [hover]
    simp only [step, if_neg hlives]
    cases e with
    | accept e => exact (accept_cases s e).imp_right fun h => ⟨trivial, h⟩
    | handler c e =>
      dsimp only
      cases hc : s.handlers[c]? with
      | none => exact Or.inl rfl
      | some h => exact (handler_cases hc e).imp_right fun h => ⟨trivial, h⟩
    | owner e => exact (owner_cases s e).imp_right fun h => ⟨trivial, h⟩

theorem Moves.step_eq {e : Event} {s' : Threads} (hmoves : Moves σ s e s')
    (hover : s.isOver = false) : step σ s e = s' := by
  have hlives : ¬s.isOver = true := by simp [hover]
  simp only [step, if_neg hlives]
  cases hmoves with
  | leaves haccepting => rcases haccepting with haccepting | haccepting <;> simp_all [acceptStep]
  | counts _ hroom => simp_all [acceptStep, not_le.mpr hroom]
  | goesOn _ _ hnext | givesUp _ _ hnext =>
    rcases hnext with rfl | ⟨rfl, rfl⟩ <;> simp_all [handlerStep]
  | _ => simp_all [acceptStep, handlerStep, handle, ownerStep]

/-- What a handler's action does to the model and to the handler. -/
inductive Acts (σ : EventSort) (m : CapacityModel) :
    Handler → HandlerEvent → CapacityModel → Handler → Prop
  | receives (w : WorkerId) (msg : FramedMessage) :
      Acts σ m ⟨.receiving, w⟩ (.recv msg) m ⟨.received msg, w⟩
  | loses (w : WorkerId) : Acts σ m ⟨.receiving, w⟩ .lose m ⟨.lost, w⟩
  | isAskedToEnd {w : WorkerId} {msg : FramedMessage} {saved : Bool}
      (htype : msg.type = .shutdown) :
      Acts σ m ⟨.received msg, w⟩ (.work saved) m
        ⟨.replying (replyTo msg .shutdown [1]) .endCoordinator, w⟩
  | cannotRead {w : WorkerId} {msg : FramedMessage} {saved : Bool} (htype : msg.type = .register)
      (hread : Coordinator.readRegistration.run msg.payload = none) :
      Acts σ m ⟨.received msg, w⟩ (.work saved) m
        ⟨.replying (replyTo msg .error Coordinator.rejectPayload) .goOn, w⟩
  | registers {w₀ w : WorkerId} {b : WorkerBootId} {msg : FramedMessage} {rest : List UInt8}
      {saved : Bool} (htype : msg.type = .register)
      (hread : Coordinator.readRegistration.run msg.payload = some ((w, b), rest)) :
      Acts σ m ⟨.received msg, w₀⟩ (.work saved) (m.registerWorker w b).1
        ⟨.replying (replyTo msg .register (if (m.registerWorker w b).2 then
          Coordinator.okPayload else Coordinator.rejectPayload)) .goOn, w⟩
  | answers {w : WorkerId} {msg : FramedMessage} {saved : Bool} {m' : CapacityModel}
      {type : MessageType} {payload : List UInt8} (hregister : msg.type ≠ .register)
      (hdispatch : Coordinator.dispatch σ m msg saved = (m', .reply type payload)) :
      Acts σ m ⟨.received msg, w⟩ (.work saved) m'
        ⟨.replying (replyTo msg type payload) .goOnIfSent, w⟩
  /-- An exception ends the process and changes nothing else. -/
  | raises {w : WorkerId} {msg : FramedMessage} {saved : Bool} :
      Acts σ m ⟨.received msg, w⟩ (.work saved) m ⟨.received msg, w⟩
  | buries {w : WorkerId} {saved : Bool} :
      Acts σ m ⟨.lost, w⟩ (.work saved) (if w.valid then m.markWorkerDead w else m)
        ⟨.closing, w⟩
  | goesOn {w : WorkerId} {reply : FramedMessage} {next : AfterReply} {sent : Bool} :
      Acts σ m ⟨.replying reply next, w⟩ (.send sent) m ⟨.receiving, w⟩
  | givesUp {w : WorkerId} {reply : FramedMessage} {next : AfterReply} {sent : Bool}
      (hnext : next = .endCoordinator ∨ next = .goOnIfSent ∧ sent = false) :
      Acts σ m ⟨.replying reply next, w⟩ (.send sent) m ⟨.ending, w⟩
  | ends {w : WorkerId} : Acts σ m ⟨.ending, w⟩ .go m ⟨.closing, w⟩
  | closes {w : WorkerId} : Acts σ m ⟨.closing, w⟩ .go m ⟨.returned, w⟩
  | returns {w : WorkerId} : Acts σ m ⟨.returned, w⟩ .go m ⟨.finished, w⟩

theorem Moves.acts {c : ConnectionId} {e : HandlerEvent} {h h' : Handler} {s' : Threads}
    (hmoves : Moves σ s (.handler c e) s') (hc : s.handlers[c]? = some h)
    (hc' : s'.handlers[c]? = some h') : Acts σ s.model h e s'.model h' := by
  have hset : ∀ h'' : Handler, (s.handlers.set c h'')[c]? = some h'' := fun _ =>
    List.getElem?_set_self (List.getElem?_eq_some_iff.mp hc).1
  obtain ⟨stage, w⟩ := h
  cases hmoves with
  | raises hc₀ hstage =>
    obtain rfl := Option.some.inj (hc.symm.trans hc')
    obtain rfl := Option.some.inj (hc.symm.trans hc₀)
    obtain rfl : stage = _ := hstage
    exact .raises
  | receives hc₀ hstage | loses hc₀ hstage | isAskedToEnd hc₀ hstage htype
  | cannotRead hc₀ hstage htype hread | registers hc₀ hstage htype hread
  | answers hc₀ hstage _ hregister hdispatch | buries hc₀ hstage | goesOn hc₀ hstage
  | givesUp hc₀ hstage hnext | ends hc₀ hstage | closes hc₀ hstage | returns hc₀ hstage =>
    obtain rfl := Option.some.inj (hc.symm.trans hc₀)
    obtain rfl := Option.some.inj ((hset _).symm.trans hc')
    obtain rfl : stage = _ := hstage
    constructor <;> assumption

/-- An invariant that every move of a living process keeps holds in every state reached. -/
theorem Reachable.invariant_of_moves {Inv : Threads → Prop} (h0 : Inv {})
    (hmove : ∀ s e s', s.isOver = false → Inv s → Moves σ s e s' → Inv s') {s : Threads}
    (h : Reachable σ s) : Inv s :=
  Runs.Reachable.invariant h0 (fun s e hs => by
    rcases step_cases (σ := σ) s e with heq | ⟨hover, hmoves⟩
    · rw [heq]
      exact hs
    · exact hmove s e _ hover hs hmoves) h

end Threads

end CapacityFabric
