import CapacityFabric.Coordinator.Stopping
import CapacityFabric.Protocol.Frame

/-!
# Requests and replies

Each connection is a conversation: the handler answers the requests that it receives one
after the other, each with one reply that carries the number of the request.
-/

namespace CapacityFabric

/-- A reply with the number of the request, of its type or an error, that fits in a frame. -/
structure Answers (request reply : FramedMessage) : Prop where
  seq : reply.seq = request.seq
  type : reply.type = request.type ∨ reply.type = .error
  fits : ∃ frame, encodeFrame reply = .ok frame

theorem encodes_of_length_le {msg : FramedMessage} (h : msg.payload.length ≤ kMaxFramePayload) :
    ∃ frame, encodeFrame msg = .ok frame :=
  ⟨_, if_neg (not_lt.mpr h)⟩

namespace Coordinator

open BinaryWriter Payload

theorem length_writeCapacity_le (c : Capacity) : (writeCapacity c).length ≤ 4 + 9 * 256 := by
  have hentries : c.amounts.entries.length ≤ 256 :=
    OrderedMap.length_entries_le Dimension.code_injective Dimension.code_lt c.amounts
  have heach : ∀ p ∈ c.amounts.entries,
      (writeU8 (UInt8.ofNat p.1.code) ++ writeF64 p.2).length = 9 := fun p _ => by
    rw [List.length_append, writeU8, writeF64, writeU64, length_littleEndian]
    rfl
  rw [writeCapacity, List.length_append, writeU32, length_littleEndian, List.length_flatMap,
    List.map_congr_left heach, List.map_const', List.sum_replicate, smul_eq_mul]
  omega

def Answer.Suits (type : MessageType) : Answer → Prop
  | .reply type' payload => (type' = type ∨ type' = .error) ∧ payload.length ≤ kMaxFramePayload
  | .raised _ => True

theorem suits_error (type : MessageType) : errorAnswer.Suits type :=
  ⟨Or.inr rfl, by decide⟩

theorem suits_verdict (type : MessageType) (ok : Bool) :
    (Answer.reply type (if ok then okPayload else rejectPayload)).Suits type := by
  refine ⟨Or.inl rfl, ?_⟩
  cases ok <;> decide

theorem suits_query {α : Type} {m : CapacityModel} {read : BinaryReader α} {payload : List UInt8}
    {answer : α → Answer} {type : MessageType} (h : ∀ a, (answer a).Suits type) :
    (queryAnswer m read payload answer).2.Suits type := by
  unfold queryAnswer
  split
  · exact suits_error type
  · exact h _

theorem suits_result {α : Type} {result : Option α} {type : MessageType}
    {payload : α → List UInt8} (h : ∀ a, (payload a).length ≤ kMaxFramePayload) :
    (resultAnswer result type payload).Suits type := by
  unfold resultAnswer
  split
  · trivial
  · exact ⟨Or.inl rfl, h _⟩

theorem suits_dispatch (σ : EventSort) (m : CapacityModel) (msg : FramedMessage) (saved : Bool) :
    (dispatch σ m msg saved).2.Suits msg.type := by
  have hu8 : ∀ v, (writeU8 v).length = 1 := fun _ => rfl
  have hu64 : ∀ v, (writeU64 v).length = 8 := fun _ => length_littleEndian 8 _
  unfold dispatch
  split <;> try rw [‹msg.type = _›]
  · exact ⟨Or.inl rfl, by rw [hu64]; decide⟩
  · split
    · exact suits_verdict .publishResource false
    · exact suits_verdict _ _
  · split
    · exact suits_verdict .publishReservation false
    · trivial
    · exact suits_verdict _ _
  · split
    · exact suits_verdict .publishRelease false
    · trivial
    · exact suits_verdict _ _
  · split
    · exact suits_error _
    · exact suits_verdict _ _
  · refine suits_query fun ⟨mode, t⟩ => suits_result fun c => ?_
    have := length_writeCapacity_le c
    simp only [List.length_append, hu8, writeI64, hu64, kMaxFramePayload]
    omega
  · refine suits_query fun ⟨d, mode, t⟩ => suits_result fun fr => ?_
    simp only [feasibilityReply, List.length_append, hu8, writeI64, hu64]
    decide
  · refine suits_query fun ⟨d, mode, es, dur, hor⟩ => suits_result fun e => ?_
    simp only [earliestFitReply, List.length_append, hu8, writeI64, hu64]
    decide
  · refine suits_query fun d => suits_result fun h => ?_
    simp only [List.length_append, hu8, writeF64, hu64]
    decide
  · exact suits_query fun _ => suits_verdict _ _
  · exact suits_error _

end Coordinator

namespace Threads

variable {σ : EventSort}

inductive Exchange
  | request (msg : FramedMessage)
  /-- What the handler sends, whether it goes out or not. -/
  | reply (msg : FramedMessage)

/-- What an event adds to the conversation over the connection `c`. -/
def exchanged (s : Threads) (c : ConnectionId) : Event → List Exchange
  | .handler c' e =>
    if s.isOver || c' ≠ c then []
    else
      match (s.handlers[c]?).map Handler.stage, e with
      | some .receiving, .recv msg => [.request msg]
      | some (.replying reply _), .send _ => [.reply reply]
      | _, _ => []
  | _ => []

def talkingStep (σ : EventSort) (s : Threads × (ConnectionId → List Exchange)) (e : Event) :
    Threads × (ConnectionId → List Exchange) :=
  (step σ s.1 e, fun c => s.2 c ++ exchanged s.1 c e)

def answered (pairs : List (FramedMessage × FramedMessage)) : List Exchange :=
  pairs.flatMap fun p => [.request p.1, .reply p.2]

def Pending (stage : HandlerStage) (last : List Exchange) : Prop :=
  match stage with
  | .received msg => last = [.request msg]
  | .replying reply _ => ∃ msg, last = [.request msg] ∧ Answers msg reply
  | _ => last = []

def InTurn (stage : HandlerStage) (log : List Exchange) : Prop :=
  ∃ pairs last, (∀ p ∈ pairs, Answers p.1 p.2) ∧ log = answered pairs ++ last ∧
    Pending stage last

variable {s s' : Threads} {c : ConnectionId} {log : List Exchange}

/-- How a handler and its conversation go on together. -/
inductive Turn : HandlerStage → List Exchange → HandlerStage → Prop
  | same (stage : HandlerStage) : Turn stage [] stage
  | idle {stage stage' : HandlerStage} (h : ∀ last, Pending stage last → last = [])
      (h' : Pending stage' []) : Turn stage [] stage'
  | request (msg : FramedMessage) : Turn .receiving [.request msg] (.received msg)
  | answer {msg reply : FramedMessage} (next : AfterReply) (h : Answers msg reply) :
      Turn (.received msg) [] (.replying reply next)
  | reply {reply : FramedMessage} {next : AfterReply} {stage : HandlerStage}
      (h : Pending stage []) : Turn (.replying reply next) [.reply reply] stage

theorem InTurn.turn {stage stage' : HandlerStage} {exchange : List Exchange}
    (h : InTurn stage log) (hturn : Turn stage exchange stage') :
    InTurn stage' (log ++ exchange) := by
  obtain ⟨pairs, last, hpairs, hlog, hlast⟩ := h
  cases hturn with
  | same =>
    rw [List.append_nil]
    exact ⟨pairs, last, hpairs, hlog, hlast⟩
  | idle hidle hpending =>
    rw [hidle last hlast, List.append_nil] at hlog
    rw [List.append_nil]
    exact ⟨pairs, [], hpairs, by rw [hlog, List.append_nil], hpending⟩
  | request msg =>
    refine ⟨pairs, [.request msg], hpairs, ?_, rfl⟩
    rw [hlog, show last = [] from hlast, List.append_nil]
  | answer next hanswers =>
    rw [List.append_nil]
    exact ⟨pairs, last, hpairs, hlog, _, hlast, hanswers⟩
  | @reply reply next _ hpending =>
    obtain ⟨msg, rfl, hanswers⟩ := hlast
    refine ⟨pairs ++ [(msg, reply)], [], fun p hp => ?_, ?_, hpending⟩
    · rcases List.mem_append.mp hp with hp | hp
      · exact hpairs p hp
      · rw [List.mem_singleton.mp hp]
        exact hanswers
    · rw [hlog, answered, answered, List.flatMap_append]
      simp

theorem answers_replyTo {msg : FramedMessage} {type : MessageType} {payload : List UInt8}
    (htype : type = msg.type ∨ type = .error) (hlen : payload.length ≤ kMaxFramePayload) :
    Answers msg (replyTo msg type payload) :=
  ⟨rfl, htype, encodes_of_length_le hlen⟩

theorem exchanged_of_step_eq {e : Event} (heq : step σ s e = s) : exchanged s c e = [] := by
  cases e with
  | accept | owner => rfl
  | handler c' e =>
    rcases ne_or_eq c' c with hne | rfl
    · simp [exchanged, hne]
    cases hover : s.isOver with
    | true => simp [exchanged, hover]
    | false =>
      cases hc : s.handlers[c']? with
      | none => simp [exchanged, hc]
      | some h =>
        -- A handler that takes a frame or replies stands elsewhere afterwards.
        have hmoved : ∀ {h' : Handler}, Moves σ s (.handler c' e) (s.setHandler c' h') →
            h'.stage = h.stage := fun hmoves => by
          rw [hmoves.step_eq hover] at heq
          have hset := congrArg (fun s => s.handlers[c']?) heq
          dsimp only [setHandler] at hset
          rw [List.getElem?_set_self (List.getElem?_eq_some_iff.mp hc).1, hc] at hset
          rw [Option.some.inj hset]
        cases e with
        | recv msg =>
          cases hstage : h.stage with
          | receiving => exact absurd (hmoved (.receives hc hstage msg)) (by simp [hstage])
          | _ => simp [exchanged, hc, hstage]
        | send sent =>
          cases hstage : h.stage with
          | replying reply next =>
            have hgoes := fun hnext => hmoved
              (show Moves σ s (.handler c' (.send sent))
                  (s.setHandler c' { h with stage := .receiving })
                from .goesOn hc hstage hnext)
            have hgives := fun hnext => hmoved
              (show Moves σ s (.handler c' (.send sent))
                  (s.setHandler c' { h with stage := .ending })
                from .givesUp hc hstage hnext)
            cases next <;> cases sent <;> simp [hstage] at hgoes hgives
          | _ => simp [exchanged, hc, hstage]
        | lose | work | go => simp [exchanged]

theorem Moves.turn {e : HandlerEvent} (hmoves : Moves σ s (.handler c e) s')
    (hover : s.isOver = false) {h h' : Handler} (hc : s.handlers[c]? = some h)
    (hc' : s'.handlers[c]? = some h') :
    Turn h.stage (exchanged s c (.handler c e)) h'.stage := by
  have hacts := hmoves.acts hc hc'
  generalize s'.model = m' at hacts
  cases hacts with
  | raises => simpa [exchanged, hc, hover] using Turn.same _
  | receives w msg => simpa [exchanged, hc, hover] using Turn.request msg
  | loses | buries | ends | closes | returns =>
    rw [show exchanged s c _ = [] by simp [exchanged, hc]]
    exact .idle (fun _ hlast => hlast) rfl
  | @goesOn _ reply | @givesUp _ reply =>
    rw [show exchanged s c _ = [.reply reply] by simp [exchanged, hc, hover]]
    exact .reply rfl
  | isAskedToEnd htype =>
    simpa [exchanged, hc, hover] using
      Turn.answer _ (answers_replyTo (Or.inl htype.symm) (by decide))
  | cannotRead htype =>
    simpa [exchanged, hc, hover] using Turn.answer _ (answers_replyTo (Or.inr rfl) (by decide))
  | @registers _ w b msg _ _ htype =>
    have hsuits := Coordinator.suits_verdict .register (s.model.registerWorker w b).2
    simpa [exchanged, hc, hover] using
      Turn.answer _ (answers_replyTo (Or.inl htype.symm) hsuits.2)
  | @answers _ msg saved m' type payload _ hdispatch =>
    have hsuits := Coordinator.suits_dispatch σ s.model msg saved
    rw [hdispatch] at hsuits
    simpa [exchanged, hc, hover] using Turn.answer _ (answers_replyTo hsuits.1 hsuits.2)

/-- Every conversation is in turn, and at the stage of its handler. -/
structure Conversing (s : Threads) (logs : ConnectionId → List Exchange) : Prop where
  inTurn : ∀ c h, s.handlers[c]? = some h → InTurn h.stage (logs c)
  whole : ∀ c, ∃ stage, InTurn stage (logs c)
  fresh : s.accepting ≠ .finished → ∀ c, s.handlers.length ≤ c → logs c = []

variable {logs logs' : ConnectionId → List Exchange}

theorem inTurn_nil : InTurn .receiving [] := ⟨[], [], by simp, rfl, rfl⟩

theorem conversing_init : Conversing {} fun _ => [] :=
  ⟨fun _ _ hc => absurd hc (by simp), fun _ => ⟨_, inTurn_nil⟩, fun _ _ _ => rfl⟩

theorem Conversing.accept (h : Conversing s logs) {e : AcceptEvent}
    (hmoves : Moves σ s (.accept e) s') : Conversing s' logs := by
  cases hmoves with
  | serves haccepting =>
    have hfresh := h.fresh (by simp [haccepting])
    refine ⟨fun c h' hc => ?_, h.whole, fun _ c hlen => hfresh c ?_⟩
    · rcases getElem?_concat_cases hc with hc | ⟨rfl, rfl⟩
      · exact h.inTurn c h' hc
      · rw [hfresh _ le_rfl]
        exact inTurn_nil
    · rw [List.length_append] at hlen
      omega
  | leaves => exact ⟨h.inTurn, h.whole, fun hno => absurd rfl hno⟩
  | connects haccepting | failsToAccept haccepting | waits haccepting | retries haccepting
  | refuses haccepting | counts haccepting =>
    exact ⟨h.inTurn, h.whole, fun _ => h.fresh (by simp [haccepting])⟩

theorem Conversing.owner (h : Conversing s logs) (hs : InOrder s) {e : OwnerEvent}
    (hmoves : Moves σ s (.owner e) s') : Conversing s' logs := by
  cases hmoves with
  | hasJoined howner =>
    have hknows := hs.knows
    rw [OwnerKnows, howner] at hknows
    exact ⟨fun _ _ hc => absurd hc (by simp), h.whole, fun hno => absurd hknows.2.1 hno⟩
  | _ => exact ⟨h.inTurn, h.whole, h.fresh⟩

theorem Conversing.handler (h : Conversing s logs) {e : HandlerEvent}
    (hmoves : Moves σ s (.handler c e) s') (hover : s.isOver = false) :
    Conversing s' fun c' => logs c' ++ exchanged s c' (.handler c e) := by
  have hothers : ∀ c', c' ≠ c → exchanged s c' (.handler c e) = [] := fun c' hne => by
    simp [exchanged, hne.symm]
  rcases hmoves.changesHandler with ⟨rfl, saved, rfl⟩ | ⟨h₀, h₁, hchange⟩
  · have hsame : (fun c' => logs c' ++ exchanged s c' (.handler c (.work saved))) = logs := by
      funext c'
      simp [exchanged]
    rw [hsame]
    exact ⟨h.inTurn, h.whole, h.fresh⟩
  · have hnow : s'.handlers[c]? = some h₁ := by
      rw [hchange.handlers, List.getElem?_set_self (List.getElem?_eq_some_iff.mp hchange.found).1]
    have hturn := (h.inTurn c h₀ hchange.found).turn (hmoves.turn hover hchange.found hnow)
    refine ⟨fun c' h' hc' => ?_, fun c' => ?_, fun hno c' hlen => ?_⟩
    · rcases eq_or_ne c' c with rfl | hne
      · obtain rfl := Option.some.inj (hnow.symm.trans hc')
        exact hturn
      · rw [hothers c' hne, List.append_nil]
        rw [hchange.handlers, List.getElem?_set_ne hne.symm] at hc'
        exact h.inTurn c' h' hc'
    · rcases eq_or_ne c' c with rfl | hne
      · exact ⟨_, hturn⟩
      · rw [hothers c' hne, List.append_nil]
        exact h.whole c'
    · rw [hchange.handlers, List.length_set] at hlen
      have hne : c' ≠ c := by
        rintro rfl
        exact absurd (List.getElem?_eq_some_iff.mp hchange.found).1 (not_lt.mpr hlen)
      rw [hothers c' hne, List.append_nil]
      exact h.fresh (hchange.accepting ▸ hno) c' hlen

theorem Conversing.talkingStep {p : Threads × (ConnectionId → List Exchange)} (hs : InOrder p.1)
    (h : Conversing p.1 p.2) (e : Event) :
    Conversing (talkingStep σ p e).1 (talkingStep σ p e).2 := by
  rcases step_cases (σ := σ) p.1 e with heq | ⟨hover, hmoves⟩
  · have hsame : (Threads.talkingStep σ p e).2 = p.2 := funext fun c => by
      simp only [Threads.talkingStep, exchanged_of_step_eq heq, List.append_nil]
    rw [hsame, show (Threads.talkingStep σ p e).1 = p.1 from heq]
    exact h
  · have hnone : ∀ e, (∀ c e', e ≠ .handler c e') →
        (fun c => p.2 c ++ exchanged p.1 c e) = p.2 := fun e hno => funext fun c => by
      cases e with
      | handler c e => exact absurd rfl (hno c e)
      | accept | owner => exact List.append_nil _
    cases e with
    | accept =>
      rw [Threads.talkingStep, hnone _ (by simp)]
      exact h.accept hmoves
    | owner =>
      rw [Threads.talkingStep, hnone _ (by simp)]
      exact h.owner hs hmoves
    | handler => exact h.handler hmoves hover

theorem conversing_of_reachable {p : Threads × (ConnectionId → List Exchange)}
    (h : Runs.Reachable (talkingStep σ) ({}, fun _ => []) p) :
    Reachable σ p.1 ∧ Conversing p.1 p.2 := by
  induction h with
  | init => exact ⟨.init, conversing_init⟩
  | step e _ ih => exact ⟨ih.1.step e, ih.2.talkingStep ih.1.inOrder e⟩

/-- However the threads interleave, what passes over a connection is requests and replies in
turn: each reply answers the request before it, and only the last request may still wait. -/
theorem conversations_in_turn (es : List Event) (c : ConnectionId) :
    ∃ pairs last, (∀ p ∈ pairs, Answers p.1 p.2) ∧
      (Runs.run (talkingStep σ) ({}, fun _ => []) es).2 c = answered pairs ++ last ∧
      (last = [] ∨ ∃ msg, last = [.request msg]) := by
  have hreach : Runs.Reachable (talkingStep σ) ({}, fun _ => [])
    (Runs.run (talkingStep σ) ({}, fun _ => []) es) := Runs.Reachable.init.run es
  obtain ⟨stage, pairs, last, hpairs, hlog, hlast⟩ := (conversing_of_reachable hreach).2.whole c
  refine ⟨pairs, last, hpairs, hlog, ?_⟩
  unfold Pending at hlast
  split at hlast
  · exact Or.inr ⟨_, hlast⟩
  · obtain ⟨msg, hlast, -⟩ := hlast
    exact Or.inr ⟨msg, hlast⟩
  · exact Or.inl hlast

end Threads

end CapacityFabric
