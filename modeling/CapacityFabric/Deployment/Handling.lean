import CapacityFabric.Coordinator.Registration
import CapacityFabric.Deployment.InStep

/-!
# The handlers of a deployment

What an action of a handler does to the model and to its connection.
-/

namespace CapacityFabric

open CapacityModel WorkerConfig
open Threads (Acts HandlerEvent Moves replyTo)

def Within (peer : Peer) (m m' : CapacityModel) : Prop :=
  ∀ cfg, peer.IsApart cfg → Same cfg m m'

theorem within_refl (peer : Peer) (m : CapacityModel) : Within peer m m := fun _ _ => .refl _ _

theorem readRegistration_request (cfg : WorkerConfig) :
    Coordinator.readRegistration.run (cfg.request .register).payload =
      some ((cfg.workerId, cfg.bootId), []) := by
  have hparses : Parsing.Parses Coordinator.readRegistration
      (cfg.request .register).payload (cfg.workerId, cfg.bootId) :=
    (BinaryReader.parses_readU64 _).bind ((BinaryReader.parses_readU64 _).map rfl)
  exact hparses.run

/-- Only a worker registers, and only as itself. -/
theorem registration_of_maySend {peer : Peer} {msg : FramedMessage} (hmay : peer.MaySend msg)
    (htype : msg.type = .register) {w : WorkerId} {b : WorkerBootId} {rest : List UInt8}
    (hread : Coordinator.readRegistration.run msg.payload = some ((w, b), rest)) :
    ∃ cfg stage, peer = .worker cfg stage ∧ msg = cfg.request .register ∧ w = cfg.workerId ∧
      b = cfg.bootId := by
  cases peer with
  | client => exact absurd htype hmay.1
  | worker cfg stage =>
    obtain ⟨r, rfl⟩ := hmay
    cases r with
    | hello | publishResource => cases htype
    | register =>
      rw [readRegistration_request] at hread
      obtain ⟨hname, -⟩ := Prod.mk.inj (Option.some.inj hread)
      obtain ⟨rfl, rfl⟩ := Prod.mk.inj hname
      exact ⟨cfg, stage, rfl, rfl, rfl, rfl⟩

theorem readResource_request (cfg : WorkerConfig) :
    Payload.readResource.run (cfg.request .publishResource).payload = some (cfg.received, []) :=
  (Payload.parses_readResource cfg.fitsWire_resource).run

theorem same_registerWorker {cfg : WorkerConfig} {m : CapacityModel} {w : WorkerId}
    (b : WorkerBootId) (hw : w ≠ cfg.workerId) : Same cfg m (m.registerWorker w b).1 := by
  rcases registerWorker_eq m w b with heq | ⟨-, heq⟩
  · rw [heq]
    exact .refl cfg m
  · rw [heq]
    exact ⟨OrderedMap.find?_insert_of_ne _ _ hw.symm, rfl⟩

theorem same_markWorkerDead {cfg : WorkerConfig} {m : CapacityModel} {w : WorkerId}
    (hw : w ≠ cfg.workerId) : Same cfg m (m.markWorkerDead w) := by
  unfold markWorkerDead
  split
  · exact .refl cfg m
  · exact ⟨OrderedMap.find?_insert_of_ne _ _ hw.symm, rfl⟩

theorem same_publishResource {cfg : WorkerConfig} {m : CapacityModel} {r : ResourceInfo}
    (hid : r.id ≠ cfg.resourceId) : Same cfg m (m.publishResource r).1 := by
  rw [publishResource_eq]
  split_ifs
  · exact ⟨rfl, OrderedMap.find?_insert_of_ne _ _ hid.symm⟩
  · exact .refl cfg m

theorem resources_dispatch (σ : EventSort) (m : CapacityModel) {msg : FramedMessage}
    (saved : Bool) (hpublish : msg.type ≠ .publishResource)
    (hadvance : msg.type ≠ .advanceGeneration) :
    (Coordinator.dispatch σ m msg saved).1.resources = m.resources ∧
      (Coordinator.dispatch σ m msg saved).1.resourceGen = m.resourceGen := by
  have hquery : ∀ {α : Type} (read : BinaryReader α) (answer : α → Coordinator.Answer),
      (Coordinator.queryAnswer m read msg.payload answer).1 = m := fun read answer => by
    unfold Coordinator.queryAnswer
    split <;> rfl
  unfold Coordinator.dispatch
  split
  · exact ⟨rfl, rfl⟩
  · exact absurd ‹_› hpublish
  · split
    · exact ⟨rfl, rfl⟩
    · exact ⟨rfl, rfl⟩
    · unfold Coordinator.publicationAnswer publishReservation
      dsimp only
      split_ifs <;> exact ⟨rfl, rfl⟩
  · split <;> exact ⟨rfl, rfl⟩
  · exact absurd ‹_› hadvance
  · rw [hquery]
    exact ⟨rfl, rfl⟩
  · rw [hquery]
    exact ⟨rfl, rfl⟩
  · rw [hquery]
    exact ⟨rfl, rfl⟩
  · rw [hquery]
    exact ⟨rfl, rfl⟩
  · rw [hquery]
    exact ⟨rfl, rfl⟩
  · exact ⟨rfl, rfl⟩

theorem same_dispatch {σ : EventSort} {m : CapacityModel} {msg : FramedMessage} (saved : Bool)
    (hpublish : msg.type ≠ .publishResource) (hadvance : msg.type ≠ .advanceGeneration)
    (cfg : WorkerConfig) : Same cfg m (Coordinator.dispatch σ m msg saved).1 :=
  ⟨by rw [Coordinator.sources_dispatch],
    by rw [(resources_dispatch σ m saved hpublish hadvance).1]⟩

theorem dispatch_publishResource {σ : EventSort} {m : CapacityModel} (cfg : WorkerConfig)
    (saved : Bool) : Coordinator.dispatch σ m (cfg.request .publishResource) saved =
      Coordinator.publicationAnswer .publishResource (m.publishResource cfg.received) := by
  have hread := readResource_request cfg
  unfold Coordinator.dispatch
  simp only [WorkerConfig.request] at hread ⊢
  rw [hread]

theorem within_dispatch {σ : EventSort} {m : CapacityModel} {msg : FramedMessage} {peer : Peer}
    (hmay : peer.MaySend msg) (hregister : msg.type ≠ .register) (saved : Bool) :
    Within peer m (Coordinator.dispatch σ m msg saved).1 := by
  intro cfg hapart
  cases peer with
  | client => exact same_dispatch saved hmay.2.1 hmay.2.2 cfg
  | worker cfg' stage =>
    obtain ⟨r, rfl⟩ := hmay
    cases r with
    | hello => exact .refl cfg m
    | register => exact absurd rfl hregister
    | publishResource =>
      rw [dispatch_publishResource]
      exact same_publishResource hapart.2

/-- Handling a frame that the peer may send changes what the peer may touch. -/
theorem within_acts {σ : EventSort} {m m' : CapacityModel} {h h' : Handler} {e : HandlerEvent}
    {peer : Peer} (hacts : Acts σ m h e m' h') (hsends : ∀ msg ∈ h.stage.taken, peer.MaySend msg)
    (hnames : peer.MayName h.curWorker) : Within peer m m' := by
  cases hacts with
  | @registers _ w b msg _ _ htype hread =>
    intro cfg hapart
    obtain ⟨cfg', stage, rfl, -, rfl, -⟩ :=
      registration_of_maySend (hsends msg List.mem_cons_self) htype hread
    exact same_registerWorker b hapart.1
  | @answers _ msg saved _ _ _ hregister hdispatch =>
    have hwithin := within_dispatch (σ := σ) (m := m) (hsends msg List.mem_cons_self) hregister
      saved
    rw [hdispatch] at hwithin
    exact hwithin
  | @buries w =>
    intro cfg hapart
    split_ifs with hvalid
    · cases peer with
      | client =>
        rw [show w = default from hnames] at hvalid
        exact absurd hvalid Bool.false_ne_true
      | worker cfg' stage =>
        rcases hnames with hname | hname
        · rw [show w = default from hname] at hvalid
          exact absurd hvalid Bool.false_ne_true
        · exact same_markWorkerDead ((show w = cfg'.workerId from hname) ▸ hapart.1)
    · exact .refl cfg m
  | _ => exact within_refl peer m

/-- What an action of the handler takes from its connection, and what it puts there. -/
inductive Carries : HandlerEvent → HandlerStage → Link → Link → Prop
  | recv {msg : FramedMessage} {requests replies : List FramedMessage} {peer : Peer}
      {broken : Bool} {stage : HandlerStage} :
      Carries (.recv msg) stage ⟨peer, msg :: requests, replies, broken⟩
        ⟨peer, requests, replies, broken⟩
  | lose {stage : HandlerStage} {link : Link} (h : link.broken = true) :
      Carries .lose stage link link
  | work (saved : Bool) (stage : HandlerStage) (link : Link) :
      Carries (.work saved) stage link link
  | sent {reply : FramedMessage} (next : AfterReply) (link : Link) :
      Carries (.send true) (.replying reply next) link
        { link with replies := link.replies ++ [reply] }
  | notSent {stage : HandlerStage} {link : Link} (h : link.broken = true) :
      Carries (.send false) stage link link
  | go (stage : HandlerStage) (link : Link) : Carries .go stage link link

theorem registered_of_acknowledged {m : CapacityModel} {cfg : WorkerConfig}
    (h : WorkerRequest.isAcknowledged (replyTo (cfg.request .register) .register
      (if (m.registerWorker cfg.workerId cfg.bootId).2 then Coordinator.okPayload
        else Coordinator.rejectPayload)) .register = true) :
    Registered (m.registerWorker cfg.workerId cfg.bootId).1 cfg := by
  have haccepted : (m.registerWorker cfg.workerId cfg.bootId).2 = true := by
    by_contra hno
    rw [if_neg hno] at h
    simp [WorkerRequest.isAcknowledged, replyTo, Coordinator.rejectPayload] at h
  refine ⟨(registerWorker_accepted_iff.mp haccepted).2.1, ?_⟩
  rw [registerWorker_of_accepted haccepted]
  exact OrderedMap.find?_insert_self _ _ _

theorem published_of_acknowledged {m m' : CapacityModel} {cfg : WorkerConfig}
    {type : MessageType} {payload : List UInt8} (hregistered : Registered m cfg)
    (hanswer : Coordinator.publicationAnswer .publishResource (m.publishResource cfg.received) =
      (m', .reply type payload))
    (h : WorkerRequest.isAcknowledged (replyTo (cfg.request .publishResource) type payload)
      .publishResource = true) : Published m' cfg := by
  obtain ⟨rfl, heq⟩ := Prod.mk.inj hanswer
  obtain ⟨rfl, rfl⟩ := Coordinator.Answer.reply.inj heq
  have haccepted : (m.publishResource cfg.received).2 = true := by
    by_contra hno
    rw [if_neg hno] at h
    simp [WorkerRequest.isAcknowledged, replyTo, Coordinator.rejectPayload] at h
  rw [publishResource_eq] at haccepted ⊢
  split_ifs at haccepted ⊢
  exact ⟨⟨hregistered.boot, hregistered.source⟩, OrderedMap.find?_insert_self _ _ _⟩

section Handler

variable {σ : EventSort} {s s' : Threads} {m m' : CapacityModel} {c : ConnectionId}
  {h h' : Handler} {link link' : Link} {e : HandlerEvent}

/-- What is known of a connection is known after each action of its handler. -/
theorem LinkOk.acts (hok : LinkOk m h link) (hacts : Acts σ m h e m' h')
    (hcarries : Carries e h.stage link link') (hopen : h'.connected.isSome = true) :
    LinkOk m' h' link' := by
  have hsends : ∀ msg ∈ link.requests, link.peer.MaySend msg := fun msg hmem =>
    hok.sends msg (List.mem_append_right _ hmem)
  cases hacts with
  | raises =>
    cases hcarries
    exact hok
  | receives w msg =>
    cases hcarries
    refine ⟨fun msg' hmem => hok.sends msg' (List.mem_append_right _ hmem), hok.names,
      fun cfg stage hpeer hworks => ?_⟩
    have hin := hok.inStep cfg stage hpeer hworks
    cases hin with
    | sent hbefore => exact .received hbefore
  | loses =>
    cases hcarries with
    | lose hbroken =>
      refine ⟨hsends, hok.names, fun cfg stage _ hworks => ?_⟩
      exact absurd (hbroken.symm.trans hworks) Bool.true_eq_false.mp
  | isAskedToEnd htype =>
    cases hcarries
    refine ⟨hsends, hok.names, fun cfg stage hpeer hworks => ?_⟩
    obtain ⟨r, -, rfl, -⟩ := (hok.inStep cfg stage hpeer hworks).of_received
    cases r <;> cases htype
  | cannotRead htype hread =>
    cases hcarries
    refine ⟨hsends, hok.names, fun cfg stage hpeer hworks => ?_⟩
    obtain ⟨r, -, rfl, -⟩ := (hok.inStep cfg stage hpeer hworks).of_received
    cases r with
    | hello | publishResource => cases htype
    | register =>
      rw [readRegistration_request] at hread
      cases hread
  | @registers _ w b msg _ _ htype hread =>
    have hmay := hok.sends msg List.mem_cons_self
    cases hcarries
    refine ⟨hsends, ?_, fun cfg stage hpeer hworks => ?_⟩
    · obtain ⟨cfg, stage, hpeer, -, rfl, -⟩ := registration_of_maySend hmay htype hread
      rw [hpeer]
      exact Or.inr rfl
    · obtain ⟨r, rfl, rfl, hrequests, hreplies, -⟩ :=
        (hok.inStep cfg stage hpeer hworks).of_received
      cases r with
      | hello | publishResource => cases htype
      | register =>
        rw [readRegistration_request] at hread
        obtain ⟨⟨rfl, rfl⟩, -⟩ := Prod.mk.inj (Option.some.inj hread)
        rw [hrequests, hreplies]
        exact .answered nofun fun hack => registered_of_acknowledged hack
  | @answers _ msg saved _ type payload hregister hdispatch =>
    cases hcarries
    refine ⟨hsends, hok.names, fun cfg stage hpeer hworks => ?_⟩
    obtain ⟨r, rfl, rfl, hrequests, hreplies, hbefore⟩ :=
      (hok.inStep cfg stage hpeer hworks).of_received
    rw [hrequests, hreplies]
    refine .answered nofun fun hack => ?_
    cases r with
    | hello => trivial
    | register => exact absurd rfl hregister
    | publishResource =>
      rw [dispatch_publishResource] at hdispatch
      exact published_of_acknowledged hbefore hdispatch hack
  | goesOn =>
    cases hcarries with
    | sent =>
      refine ⟨hsends, hok.names, fun cfg stage hpeer hworks => ?_⟩
      obtain ⟨r, rfl, hrequests, hreplies, -, hack⟩ :=
        (hok.inStep cfg stage hpeer hworks).of_replying
      dsimp only
      rw [hrequests, hreplies]
      exact .replied hack
    | notSent hbroken =>
      refine ⟨hsends, hok.names, fun cfg stage _ hworks => ?_⟩
      exact absurd (hbroken.symm.trans hworks) Bool.true_eq_false.mp
  | givesUp hnext =>
    cases hcarries with
    | sent =>
      refine ⟨hsends, hok.names, fun cfg stage hpeer hworks => ?_⟩
      obtain ⟨r, -, -, -, hgoes, -⟩ := (hok.inStep cfg stage hpeer hworks).of_replying
      rcases hnext with hnext | ⟨-, hno⟩
      · exact absurd hnext hgoes
      · exact absurd hno Bool.true_eq_false.mp
    | notSent hbroken =>
      refine ⟨hsends, hok.names, fun cfg stage _ hworks => ?_⟩
      exact absurd (hbroken.symm.trans hworks) Bool.true_eq_false.mp
  | buries | ends | closes | returns => exact absurd hopen Bool.false_ne_true

theorem exists_handler (hmoves : Moves σ s (.handler c e) s') :
    ∃ h, s.handlers[c]? = some h := by
  cases hmoves <;> exact ⟨_, ‹_›⟩

theorem exists_send_move {reply : FramedMessage} {next : AfterReply} (sent : Bool)
    (hc : s.handlers[c]? = some h) (hstage : h.stage = .replying reply next) :
    ∃ s', Moves σ s (.handler c (.send sent)) s' := by
  cases next with
  | goOn => exact ⟨_, .goesOn hc hstage (Or.inl rfl)⟩
  | endCoordinator => exact ⟨_, .givesUp hc hstage (Or.inl rfl)⟩
  | goOnIfSent =>
    cases sent with
    | true => exact ⟨_, .goesOn hc hstage (Or.inr ⟨rfl, rfl⟩)⟩
    | false => exact ⟨_, .givesUp hc hstage (Or.inr ⟨rfl, rfl⟩)⟩

theorem handlers_of_moves (hmoves : Moves σ s (.handler c e) s') (hc : s.handlers[c]? = some h) :
    ∃ h' : Handler, s'.handlers[c]? = some h' ∧
      (∀ c', c' ≠ c → s'.handlers[c']? = s.handlers[c']?) ∧
      s'.handlers.length = s.handlers.length ∧ s'.accepting = s.accepting := by
  rcases hmoves.changesHandler with ⟨rfl, -⟩ | ⟨h₀, h', hchange⟩
  · exact ⟨h, hc, fun _ _ => rfl, rfl, rfl⟩
  · refine ⟨h', ?_, fun c' hne => ?_, ?_, hchange.accepting⟩
    · rw [hchange.handlers, List.getElem?_set_self (List.getElem?_eq_some_iff.mp hc).1]
    · rw [hchange.handlers, List.getElem?_set_ne hne.symm]
    · rw [hchange.handlers, List.length_set]

theorem LinkOk.of_same {m m' : CapacityModel} (hok : LinkOk m h link)
    (hsame : ∀ cfg stage, link.peer = .worker cfg stage → Same cfg m m') : LinkOk m' h link :=
  ⟨hok.sends, hok.names, fun cfg stage hpeer hworks =>
    (hok.inStep cfg stage hpeer hworks).of_same (hsame cfg stage hpeer)⟩

theorem LinkOk.sends_more (hok : LinkOk m h link) {msg : FramedMessage}
    (hmay : link.peer.MaySend msg) :
    ∀ msg' ∈ h.stage.taken ++ (link.requests ++ [msg]), link.peer.MaySend msg' := by
  intro msg' hmem
  rw [← List.append_assoc] at hmem
  rcases List.mem_append.mp hmem with hmem | hmem
  · exact hok.sends msg' hmem
  · rwa [List.mem_singleton.mp hmem]

theorem Carries.same_peer {hstage : HandlerStage} (h : Carries e hstage link link') :
    link'.peer = link.peer ∧ link'.broken = link.broken := by
  cases h <;> exact ⟨rfl, rfl⟩

/-- No connection opens again, and one that is closed does not reach the model. -/
theorem closed_of_acts (hacts : Acts σ m h e m' h') (hclosed : h.connected = none) :
    h'.connected = none ∧ m' = m := by
  cases hacts with
  | closes | returns => exact ⟨rfl, rfl⟩
  | receives | loses | isAskedToEnd | cannotRead | registers | answers | raises | buries | goesOn
  | givesUp | ends => cases hclosed

theorem LinkOk.closed_of_acts (hok : LinkOk m h link) (hacts : Acts σ m h e m' h')
    (hclosed : h'.connected = none) : link.broken = true ∨ link.peer = .client := by
  have hgone : h.stage = .lost ∨ h.stage = .ending ∨ h.connected = none := by
    cases hacts with
    | buries => exact Or.inl rfl
    | ends => exact Or.inr (Or.inl rfl)
    | closes | returns => exact Or.inr (Or.inr rfl)
    | receives | loses | isAskedToEnd | cannotRead | registers | answers | raises | goesOn
    | givesUp => cases hclosed
  cases hpeer : link.peer with
  | client => exact Or.inr rfl
  | worker cfg stage =>
    refine Or.inl ?_
    by_contra hworks
    have hin := hok.inStep cfg stage hpeer (Bool.not_eq_true _ ▸ hworks)
    rcases hgone with hlost | hending | hnone
    · exact hin.not_given_up.1 hlost
    · exact hin.not_given_up.2 hending
    · have hopen := hin.connected
      rw [hnone] at hopen
      cases hopen

end Handler

namespace Deployment

def Linked (d : Deployment) : Prop :=
  ∀ (c : ConnectionId) (h : Handler), d.threads.handlers[c]? = some h →
    ∃ link : Link, d.links[c]? = some link

/-- The steps that have an effect.  An action of a handler may take a frame from its connection
or put one there. -/
inductive Happens (σ : EventSort) (d : Deployment) : Event → Deployment → Prop
  | acts {e : Event} {c : ConnectionId} {a : HandlerEvent} {h : Handler} {link link' : Link}
      {s' : Threads} (hover : d.threads.isOver = false)
      (hmoves : Moves σ d.threads (.handler c a) s') (hc : d.threads.handlers[c]? = some h)
      (hl : d.links[c]? = some link) (hcarries : Carries a h.stage link link') :
      Happens σ d e ⟨s', d.links.set c link', d.turnedAway⟩
  | accepts {a : Threads.AcceptEvent} {started : Option WorkerConfig} {s' : Threads}
      (hover : d.threads.isOver = false) (hmoves : Moves σ d.threads (.accept a) s') :
      Happens σ d (.accept a started)
        ⟨s', if d.threads.handlers.length < s'.handlers.length
          then d.links ++ [{ peer := Peer.start started }] else d.links,
          if d.threads.accepting = .accepted ∧ s'.accepting = .testing
          then d.turnedAway ++ [Peer.start started] else d.turnedAway⟩
  | owns {a : Threads.OwnerEvent} {s' : Threads} (hover : d.threads.isOver = false)
      (hmoves : Moves σ d.threads (.owner a) s') :
      Happens σ d (.owner a) ⟨s', d.links, d.turnedAway⟩
  | workerSends {c : ConnectionId} {cfg : WorkerConfig} {r : WorkerRequest}
      {requests replies : List FramedMessage}
      (hl : d.links[c]? = some ⟨.worker cfg (.aboutToSend r), requests, replies, false⟩) :
      Happens σ d (.workerSends c)
        (d.setLink c ⟨.worker cfg (.awaiting r), requests ++ [cfg.request r], replies, false⟩)
  | workerReceives {c : ConnectionId} {cfg : WorkerConfig} {stage : WorkerStage}
      {msg : FramedMessage} {requests replies : List FramedMessage}
      (hl : d.links[c]? = some ⟨.worker cfg stage, requests, msg :: replies, false⟩)
      (hreceives : stage.receives = true) :
      Happens σ d (.workerReceives c) (d.setLink c
        ⟨.worker cfg (stage.afterFrame msg), requests, replies, (stage.afterFrame msg).isOver⟩)
  | clientSends {c : ConnectionId} {msg : FramedMessage} {requests replies : List FramedMessage}
      (hl : d.links[c]? = some ⟨.client, requests, replies, false⟩) :
      Happens σ d (.clientSends c msg) (d.setLink c ⟨.client, requests ++ [msg], replies, false⟩)
  | breaks {c : ConnectionId} {link : Link} (hl : d.links[c]? = some link) :
      Happens σ d (.breaks c)
        (d.setLink c { link with peer := link.peer.afterFailure, broken := true })
  | ends {c : ConnectionId} {link : Link} (hl : d.links[c]? = some link) :
      Happens σ d (.ends c)
        (d.setLink c { link with peer := link.peer.afterKill, broken := true })
  | fails {i : ℕ} : Happens σ d (.fails i)
      { d with turnedAway := d.turnedAway.modify i Peer.afterFailure }
  | dies {i : ℕ} : Happens σ d (.dies i)
      { d with turnedAway := d.turnedAway.modify i Peer.afterKill }

variable {σ : EventSort} {d : Deployment}

theorem setLink_self {c : ConnectionId} {link : Link} (hl : d.links[c]? = some link) :
    d.links.set c link = d.links := by
  obtain ⟨hlt, hget⟩ := List.getElem?_eq_some_iff.mp hl
  rw [← hget, List.set_getElem_self hlt]

theorem threadStep_cases (hlinked : d.Linked) (e : Event) {c : ConnectionId} {a : HandlerEvent}
    (hcarries : ∀ h link, d.threads.handlers[c]? = some h → d.links[c]? = some link →
      Carries a h.stage link link) :
    d.threadStep σ (.handler c a) = d ∨ Happens σ d e (d.threadStep σ (.handler c a)) := by
  unfold threadStep
  rcases Threads.step_cases (σ := σ) d.threads (.handler c a) with heq | ⟨hover, hmoves⟩
  · rw [heq]
    exact Or.inl rfl
  · obtain ⟨h, hc⟩ := exists_handler hmoves
    obtain ⟨link, hl⟩ := hlinked c h hc
    have hacts := Happens.acts (e := e) hover hmoves hc hl (hcarries h link hc hl)
    rw [setLink_self hl] at hacts
    exact Or.inr hacts

theorem deliverStep_cases (e : Event) (c : ConnectionId) :
    d.deliverStep σ c = d ∨ Happens σ d e (d.deliverStep σ c) := by
  unfold deliverStep
  split
  · rename_i w peer msg requests replies broken hc hl
    cases hover : d.threads.isOver with
    | true => exact Or.inl rfl
    | false =>
      have hmoves := Moves.receives (σ := σ) hc rfl msg
      have hacts := Happens.acts (e := e) hover hmoves hc hl .recv
      exact Or.inr (by simpa [setLink, threadStep, hmoves.step_eq hover] using hacts)
  · exact Or.inl rfl

theorem sendStep_cases (hlinked : d.Linked) (e : Event) (c : ConnectionId) (sent : Bool) :
    d.sendStep σ c sent = d ∨ Happens σ d e (d.sendStep σ c sent) := by
  unfold sendStep
  split
  · rename_i reply next w link hc hl
    cases hover : d.threads.isOver with
    | true => exact Or.inl rfl
    | false =>
      rw [if_neg Bool.false_ne_true]
      split_ifs with hsent hbroken
      · obtain ⟨s', hmoves⟩ := exists_send_move (σ := σ) true hc rfl
        have hacts := Happens.acts (e := e) hover hmoves hc hl (.sent next link)
        exact Or.inr (by simpa [setLink, threadStep, hmoves.step_eq hover] using hacts)
      · refine threadStep_cases hlinked e fun h l _ hl₀ => ?_
        obtain rfl := Option.some.inj (hl.symm.trans hl₀)
        exact .notSent hbroken
      · exact Or.inl rfl
  · exact Or.inl rfl

theorem step_cases (hlinked : d.Linked) (e : Event) :
    d.step σ e = d ∨ Happens σ d e (d.step σ e) := by
  cases e with
  | accept a started =>
    simp only [step, acceptStep]
    rcases Threads.step_cases (σ := σ) d.threads (.accept a) with heq | ⟨hover, hmoves⟩
    · have hstays : ¬ (d.threads.accepting = .accepted ∧ d.threads.accepting = .testing) := by
        rintro ⟨haccepted, htesting⟩
        cases haccepted.symm.trans htesting
      rw [heq, if_neg (lt_irrefl _), if_neg hstays]
      exact Or.inl rfl
    · exact Or.inr (.accepts hover hmoves)
  | owner a =>
    simp only [step, threadStep]
    rcases Threads.step_cases (σ := σ) d.threads (.owner a) with heq | ⟨hover, hmoves⟩
    · rw [heq]
      exact Or.inl rfl
    · exact Or.inr (.owns hover hmoves)
  | deliver c => exact deliverStep_cases _ c
  | send c sent => exact sendStep_cases hlinked _ c sent
  | work c saved => exact threadStep_cases hlinked _ fun _ _ _ _ => .work saved _ _
  | go c => exact threadStep_cases hlinked _ fun _ _ _ _ => .go _ _
  | lose c =>
    simp only [step, loseStep]
    split_ifs with hbroken
    · refine threadStep_cases hlinked _ fun h link _ hl => .lose ?_
      rwa [hl, Option.any_some] at hbroken
    · exact Or.inl rfl
  | workerSends c =>
    simp only [step, workerSendsStep]
    split
    · exact Or.inr (.workerSends ‹_›)
    · exact Or.inl rfl
  | workerReceives c =>
    simp only [step, workerReceivesStep]
    split
    · split_ifs with hreceives
      · exact Or.inr (.workerReceives ‹_› hreceives)
      · exact Or.inl rfl
    · exact Or.inl rfl
  | clientSends c msg =>
    simp only [step, clientSendsStep]
    split
    · exact Or.inr (.clientSends ‹_›)
    · exact Or.inl rfl
  | breaks c =>
    simp only [step, breaksStep]
    split
    · exact Or.inr (.breaks ‹_›)
    · exact Or.inl rfl
  | ends c =>
    simp only [step, endsStep]
    split
    · exact Or.inr (.ends ‹_›)
    · exact Or.inl rfl
  | fails i => exact Or.inr .fails
  | dies i => exact Or.inr .dies

end Deployment

end CapacityFabric
