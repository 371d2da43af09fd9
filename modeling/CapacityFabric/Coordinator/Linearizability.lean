import CapacityFabric.Coordinator.Conversation
import CapacityFabric.Coordinator.ThreadRefinement
import CapacityFabric.Foundation.Linearization

/-!
# The coordinator is linearizable

Each request takes effect at the instant at which its handler holds the lock of the model.
What the peers see, in whatever order the threads act, is therefore what a coordinator shows
that serves one whole request after the other.
-/

namespace CapacityFabric

open Linearization

/-- A coordinator that serves one whole request after the other. -/
structure SerialCoordinator where
  model : CapacityModel := {}
  /-- The `curWorker` of each connection, until the connection is lost. -/
  names : ConnectionId → Option WorkerId := fun _ => some default

namespace SerialCoordinator

open Threads (replyTo)

def serve (σ : EventSort) (k : SerialCoordinator) (c : ConnectionId) (msg : FramedMessage)
    (saved : Bool) : Option (SerialCoordinator × FramedMessage) :=
  match msg.type with
  | .shutdown => some (k, replyTo msg .shutdown [1])
  | .register =>
    match Coordinator.readRegistration.run msg.payload with
    | none => some (k, replyTo msg .error Coordinator.rejectPayload)
    | some ((w, b), _) =>
      let (m, ok) := k.model.registerWorker w b
      some (⟨m, Function.update k.names c (some w)⟩, replyTo msg .register
        (if ok then Coordinator.okPayload else Coordinator.rejectPayload))
  | _ =>
    match Coordinator.dispatch σ k.model msg saved with
    | (_, .raised _) => none
    | (m, .reply type payload) => some ({ k with model := m }, replyTo msg type payload)

/-- Buries the worker of a lost connection, on which nothing more is served. -/
def lose (k : SerialCoordinator) (c : ConnectionId) (w : WorkerId) : SerialCoordinator where
  model := if w.valid then k.model.markWorkerDead w else k.model
  names := Function.update k.names c none

end SerialCoordinator

def serialCoordinator (σ : EventSort) :
    SerialObject SerialCoordinator ConnectionId FramedMessage FramedMessage where
  init := {}
  serves k c msg reply k' := (k.names c).isSome = true ∧
    ∃ saved, k.serve σ c msg saved = some (k', reply)
  changes k k' := ∃ c w, k.names c = some w ∧ k' = k.lose c w

def HandlerStage.turn : HandlerStage → Turn FramedMessage FramedMessage
  | .received msg => .called msg
  | .replying reply _ => .effected reply
  | _ => .idle

abbrev Serving : Type := SerialCoordinator × (ConnectionId → Turn FramedMessage FramedMessage)

namespace Threads

variable {σ : EventSort} {s s' : Threads} {c : ConnectionId}

def seen (s : Threads) (e : Event) : List (Visible ConnectionId FramedMessage FramedMessage) :=
  match e with
  | .handler c _ => (exchanged s c e).map fun
    | .request msg => .call c msg
    | .reply msg => .answer c msg
  | _ => []

/-- The serial coordinator that the threads stand for. -/
structure Explains (s : Threads) (p : Serving) : Prop where
  model : p.1.model = s.model
  turn : ∀ c h, s.handlers[c]? = some h → p.2 c = h.stage.turn
  name : ∀ c w, worker? s.handlers c = some w → p.1.names c = some w
  fresh : s.accepting ≠ .finished → ∀ c, s.handlers.length ≤ c →
    p.2 c = .idle ∧ p.1.names c = some default

variable {p q : Serving}

theorem explains_init : Explains {} ((serialCoordinator σ).init, fun _ => .idle) :=
  ⟨rfl, fun _ _ hc => absurd hc (by simp), fun _ _ hc => absurd hc (by simp [worker?]),
    fun _ _ _ => ⟨rfl, rfl⟩⟩

theorem Explains.change (hx : Explains s p) {h h' : Handler} (hc : s.handlers[c]? = some h)
    (hhandlers : s'.handlers = s.handlers.set c h') (haccepting : s'.accepting = s.accepting)
    (hmodel : q.1.model = s'.model) (hturn : q.2 c = h'.stage.turn)
    (hname : ∀ w, h'.connected = some w → q.1.names c = some w)
    (hothers : ∀ c', c' ≠ c → q.2 c' = p.2 c' ∧ q.1.names c' = p.1.names c') :
    Explains s' q := by
  have hlt := (List.getElem?_eq_some_iff.mp hc).1
  refine ⟨hmodel, fun c' h₁ hc₁ => ?_, fun c' w hw => ?_, fun hlives c' hlen => ?_⟩
  · rw [hhandlers] at hc₁
    rcases eq_or_ne c' c with rfl | hne
    · rw [List.getElem?_set_self hlt] at hc₁
      rw [hturn, Option.some.inj hc₁]
    · rw [List.getElem?_set_ne hne.symm] at hc₁
      rw [(hothers c' hne).1, hx.turn c' h₁ hc₁]
  · rw [hhandlers, worker?_set hc] at hw
    split_ifs at hw with heq
    · rw [heq]
      exact hname w hw
    · rw [(hothers c' heq).2, hx.name c' w hw]
  · rw [hhandlers, List.length_set] at hlen
    have hne : c' ≠ c := fun heq => absurd (heq ▸ hlt) (not_lt.mpr hlen)
    rw [(hothers c' hne).1, (hothers c' hne).2]
    exact hx.fresh (haccepting ▸ hlives) c' hlen

def Followed (σ : EventSort) (s : Threads) (e : Event) (s' : Threads) (p : Serving) : Prop :=
  ∃ marks q, Account (serialCoordinator σ) p marks q ∧ seenOf marks = seen s e ∧ Explains s' q

theorem followed_by_nothing {e : Event} (hseen : seen s e = []) (hx : Explains s' p) :
    Followed σ s e s' p :=
  ⟨[], p, .nil p, hseen.symm, hx⟩

theorem Explains.accept (hx : Explains s p) {e : AcceptEvent} (hmoves : Moves σ s (.accept e) s') :
    Followed σ s (.accept e) s' p := by
  refine followed_by_nothing rfl ?_
  cases hmoves with
  | serves haccepting =>
    have hfresh := hx.fresh (by simp [haccepting])
    refine ⟨hx.model, fun c h hc => ?_, fun c w hw => ?_, fun _ c hlen => hfresh c ?_⟩
    · rcases getElem?_concat_cases hc with hc | ⟨rfl, rfl⟩
      · exact hx.turn c h hc
      · rw [(hfresh _ le_rfl).1]
        rfl
    · obtain ⟨h, hc, hconnected⟩ := Option.bind_eq_some_iff.mp hw
      rcases getElem?_concat_cases hc with hc | ⟨rfl, rfl⟩
      · exact hx.name c w (Option.bind_eq_some_iff.mpr ⟨h, hc, hconnected⟩)
      · rw [(hfresh _ le_rfl).2, ← hconnected]
        rfl
    · rw [List.length_append] at hlen
      omega
  | leaves => exact ⟨hx.model, hx.turn, hx.name, fun hno => absurd rfl hno⟩
  | connects haccepting | failsToAccept haccepting | waits haccepting | retries haccepting
  | refuses haccepting | counts haccepting =>
    exact ⟨hx.model, hx.turn, hx.name, fun _ => hx.fresh (by simp [haccepting])⟩

theorem Explains.owner (hx : Explains s p) (hs : InOrder s) {e : OwnerEvent}
    (hmoves : Moves σ s (.owner e) s') : Followed σ s (.owner e) s' p := by
  refine followed_by_nothing rfl ?_
  cases hmoves with
  | hasJoined howner =>
    have hknows := hs.knows
    rw [OwnerKnows, howner] at hknows
    exact ⟨hx.model, fun _ _ hc => absurd hc (by simp), fun _ _ hw => absurd hw (by simp [worker?]),
      fun hno => absurd hknows.2.1 hno⟩
  | _ => exact ⟨hx.model, hx.turn, hx.name, hx.fresh⟩

theorem followed_unseen {e : HandlerEvent}
    (he : e = .lose ∨ (∃ saved, e = .work saved) ∨ e = .go) (hx : Explains s' p) :
    Followed σ s (.handler c e) s' p := by
  refine followed_by_nothing ?_ hx
  rcases he with rfl | ⟨saved, rfl⟩ | rfl <;> simp [seen, exchanged]

theorem Explains.keepsName (hx : Explains s p) {h : Handler} (hc : s.handlers[c]? = some h)
    (hopen : h.connected = some h.curWorker) {stage : HandlerStage} (w : WorkerId)
    (hw : Handler.connected { h with stage } = some w) : p.1.names c = some w := by
  refine hx.name c w ?_
  rw [worker?, hc, Option.bind_some, hopen]
  unfold Handler.connected at hw
  split at hw
  · cases hw
  · cases hw
  · cases hw
  · exact hw

theorem Explains.serves (hx : Explains s p) {h h' : Handler} {msg reply : FramedMessage}
    (hc : s.handlers[c]? = some h) (hstage : h.stage = .received msg) {saved : Bool}
    {k : SerialCoordinator} (hserve : p.1.serve σ c msg saved = some (k, reply))
    (hhandlers : s'.handlers = s.handlers.set c h') (haccepting : s'.accepting = s.accepting)
    (hmodel : k.model = s'.model) (hturn : h'.stage.turn = .effected reply)
    (hname : ∀ w, h'.connected = some w → k.names c = some w)
    (hothers : ∀ c', c' ≠ c → k.names c' = p.1.names c') :
    Followed σ s (.handler c (.work saved)) s' p := by
  have hcalled : p.2 c = .called msg := by
    rw [hx.turn c h hc, hstage]
    rfl
  have hopen : (p.1.names c).isSome = true := by
    rw [hx.name c h.curWorker (by rw [worker?, hc, Option.bind_some, Handler.connected, hstage])]
    rfl
  refine ⟨[.effect c msg reply], (k, Function.update p.2 c (.effected reply)),
    .single (.effect hcalled ⟨hopen, saved, hserve⟩), ?_, ?_⟩
  · simp [seenOf, Mark.visible, seen, exchanged]
  · refine hx.change hc hhandlers haccepting hmodel ?_ hname fun c' hne =>
      ⟨Function.update_of_ne hne _ _, hothers c' hne⟩
    rw [hturn]
    exact Function.update_self ..

theorem Explains.handler (hx : Explains s p) {e : HandlerEvent}
    (hmoves : Moves σ s (.handler c e) s') (hover : s.isOver = false) :
    Followed σ s (.handler c e) s' p := by
  -- What a handler keeps when only its stage changes.
  have hsame : ∀ {h : Handler} {stage : HandlerStage} {s' : Threads},
      s.handlers[c]? = some h → s'.handlers = s.handlers.set c { h with stage } →
      s'.accepting = s.accepting → s'.model = s.model → stage.turn = h.stage.turn →
      (Handler.connected { h with stage } = none ∨ h.connected = some h.curWorker) →
      Explains s' p := fun {h stage s'} hc hhandlers haccepting hmodel hturn hopen => by
    refine hx.change hc hhandlers haccepting (hx.model.trans hmodel.symm) ?_ (fun w hw => ?_)
      fun _ _ => ⟨rfl, rfl⟩
    · rw [hx.turn c h hc, hturn]
    · rcases hopen with hclosed | hopen
      · rw [hclosed] at hw
        cases hw
      · exact hx.keepsName hc hopen w hw
  cases hmoves with
  | @receives _ h hc hstage msg =>
    have hidle : p.2 c = .idle := by
      rw [hx.turn c h hc, hstage]
      rfl
    refine ⟨[.call c msg], (p.1, Function.update p.2 c (.called msg)), .single (.call hidle msg),
      ?_, ?_⟩
    · simp [seenOf, Mark.visible, seen, exchanged, hc, hstage, hover]
    · exact hx.change hc rfl rfl hx.model (Function.update_self ..)
        (hx.keepsName hc (by rw [Handler.connected, hstage]))
        fun c' hne => ⟨Function.update_of_ne hne _ _, rfl⟩
  | @loses _ h hc hstage =>
    refine followed_unseen (by simp) (hsame hc rfl rfl rfl ?_ (Or.inr ?_))
    · rw [hstage]
      rfl
    · rw [Handler.connected, hstage]
  | isAskedToEnd hc hstage htype saved =>
    refine hx.serves hc hstage (k := p.1) ?_ rfl rfl hx.model rfl
      (hx.keepsName hc (by rw [Handler.connected, hstage])) fun _ _ => rfl
    simp only [SerialCoordinator.serve, htype]
  | cannotRead hc hstage htype hread saved =>
    refine hx.serves hc hstage (k := p.1) ?_ rfl rfl hx.model rfl
      (hx.keepsName hc (by rw [Handler.connected, hstage])) fun _ _ => rfl
    simp only [SerialCoordinator.serve, htype, hread]
  | @registers _ h msg hc hstage htype w b rest hread saved =>
    refine hx.serves hc hstage (k := ⟨(s.model.registerWorker w b).1,
      Function.update p.1.names c (some w)⟩) ?_ rfl rfl rfl rfl (fun w' hw => ?_)
      fun c' hne => Function.update_of_ne hne _ _
    · simp only [SerialCoordinator.serve, htype, hread, hx.model]
    · rw [← hw]
      exact Function.update_self ..
  | @answers _ h msg hc hstage hshutdown hregister saved m type payload hdispatch =>
    refine hx.serves hc hstage (k := { p.1 with model := m }) ?_ rfl rfl rfl rfl
      (hx.keepsName hc (by rw [Handler.connected, hstage])) fun _ _ => rfl
    unfold SerialCoordinator.serve
    split
    · exact absurd ‹_› hshutdown
    · exact absurd ‹_› hregister
    · rw [hx.model, hdispatch]
  | raises => exact followed_unseen (by simp) ⟨hx.model, hx.turn, hx.name, hx.fresh⟩
  | @buries _ h hc hstage saved =>
    have hname : p.1.names c = some h.curWorker := hx.name c h.curWorker (by
      rw [worker?, hc, Option.bind_some, Handler.connected, hstage])
    refine ⟨[.change], (p.1.lose c h.curWorker, p.2),
      .single (.change ⟨c, h.curWorker, hname, rfl⟩),
      by simp [seenOf, Mark.visible, seen, exchanged], ?_⟩
    refine hx.change hc rfl rfl ?_ ?_ (fun w hw => ?_) fun c' hne =>
      ⟨rfl, Function.update_of_ne hne _ _⟩
    · rw [SerialCoordinator.lose, hx.model]
    · rw [hx.turn c h hc, hstage]
      rfl
    · cases hw
  | @goesOn _ h reply next hc hstage sent _ | @givesUp _ h reply next hc hstage sent _ =>
    have heffected : p.2 c = .effected reply := by
      rw [hx.turn c h hc, hstage]
      rfl
    refine ⟨[.answer c reply], (p.1, Function.update p.2 c .idle), .single (.answer heffected),
      ?_, ?_⟩
    · simp [seenOf, Mark.visible, seen, exchanged, hc, hstage, hover]
    · exact hx.change hc rfl rfl hx.model (Function.update_self ..)
        (hx.keepsName hc (by rw [Handler.connected, hstage]))
        fun c' hne => ⟨Function.update_of_ne hne _ _, rfl⟩
  | ends hc hstage | closes hc hstage | returns hc hstage =>
    refine followed_unseen (by simp) (hsame hc rfl rfl rfl ?_ (Or.inl rfl))
    rw [hstage]
    rfl

theorem exists_account (es : List Event) :
    ∃ marks p, Account (serialCoordinator σ) ((serialCoordinator σ).init, fun _ => .idle) marks p ∧
      seenOf marks = history (step σ) seen {} es ∧ Explains (Runs.run (step σ) {} es) p := by
  have hstep : ∀ s e p, Reachable σ s ∧ Explains s p → ∃ marks q,
      Account (serialCoordinator σ) p marks q ∧ seenOf marks = seen s e ∧
        Reachable σ (step σ s e) ∧ Explains (step σ s e) q := fun s e p ⟨hs, hx⟩ => by
    suffices h : Followed σ s e (step σ s e) p by
      obtain ⟨marks, q, hmarks, hseen, hx⟩ := h
      exact ⟨marks, q, hmarks, hseen, hs.step e, hx⟩
    rcases step_cases (σ := σ) s e with heq | ⟨hover, hmoves⟩
    · rw [heq]
      refine followed_by_nothing ?_ hx
      cases e with
      | accept | owner => rfl
      | handler c e => rw [seen, exchanged_of_step_eq heq, List.map_nil]
    · cases e with
      | accept => exact hx.accept hmoves
      | handler => exact hx.handler hmoves hover
      | owner => exact hx.owner hs.inOrder hmoves
  obtain ⟨marks, p, hmarks, hseen, -, hx⟩ :=
    exists_account_of_simulation _ hstep ⟨.init, explains_init⟩ es
  exact ⟨marks, p, hmarks, hseen, hx⟩

/-- Whatever the interleaving of the threads, what the peers see is what they see of a
coordinator that serves one whole request after the other, and the model ends as its model. -/
theorem seen_as_served_in_turn (es : List Event) :
    ∃ marks p, Account (serialCoordinator σ) ({}, fun _ => .idle) marks p ∧
      seenOf marks = history (step σ) seen {} es ∧ p.1.model = (Runs.run (step σ) {} es).model := by
  obtain ⟨marks, p, hmarks, hseen, hx⟩ := exists_account (σ := σ) es
  exact ⟨marks, p, hmarks, hseen, hx.model⟩

end Threads

end CapacityFabric
