import CapacityFabric.Deployment.Readiness
import CapacityFabric.Model.AdvanceFence

/-!
# No worker is turned away

In a deployment whose workers have their ids for themselves, the coordinator acknowledges what a
worker asks for as long as it runs: nobody else has registered under its id, and no later
generation of its resource has been published.
-/

namespace CapacityFabric

open CapacityModel WorkerConfig
open Threads (Acts HandlerEvent Moves replyTo worker?)

def HandlerStage.reply : HandlerStage → List FramedMessage
  | .replying reply _ => [reply]
  | _ => []

/-- What the coordinator has granted to a worker over an open connection. -/
structure Granted (m : CapacityModel) (cfg : WorkerConfig) (h : Handler) (link : Link) :
    Prop where
  named : h.curWorker = cfg.workerId → m.sources.find? cfg.workerId = some ⟨cfg.bootId, true⟩
  acknowledged : link.broken = false → ∀ r, link.peer = .worker cfg (.awaiting r) →
    ∀ reply ∈ h.stage.reply ++ link.replies, r.isAcknowledged reply = true

/-- No generation but the first has been published. -/
def FirstOnly (m : CapacityModel) : Prop := ∀ id, (m.resourceGen.current id).value ≤ 1

theorem acknowledged_register {cfg : WorkerConfig} {ok : Bool} (h : ok = true) :
    WorkerRequest.isAcknowledged (replyTo (cfg.request .register) .register
      (if ok then Coordinator.okPayload else Coordinator.rejectPayload)) .register = true := by
  rw [if_pos h]
  rfl

theorem publishResource_of_registered {m : CapacityModel} {cfg : WorkerConfig}
    (h : Registered m cfg) (hfirst : FirstOnly m) : (m.publishResource cfg.received).2 = true := by
  refine publishResource_accepted_iff.mpr ⟨isFreshBoot_iff.mpr h.source, ?_⟩
  have hnot : ¬cfg.received.generation.value < (m.resourceGen.current cfg.received.id).value :=
    not_lt.mpr (hfirst cfg.received.id)
  unfold GenerationTracker.isStale
  dsimp only
  rw [decide_eq_false hnot, Bool.and_false]

theorem firstOnly_publishResource {m : CapacityModel} {r : ResourceInfo} (hfirst : FirstOnly m)
    (hgeneration : r.generation.value ≤ 1) : FirstOnly (m.publishResource r).1 := by
  intro id
  rw [publishResource_eq]
  split_ifs with hfresh
  · rw [Bool.and_eq_true, Bool.not_eq_true'] at hfresh
    dsimp only
    rw [GenerationTracker.advance_eq, hfresh.2, Bool.and_false, if_neg Bool.false_ne_true,
      GenerationTracker.current_insert]
    split_ifs
    · exact hgeneration
    · exact hfirst id
  · exact hfirst id

section Handler

variable {σ : EventSort} {m m' : CapacityModel} {h h' : Handler} {link link' : Link}
  {e : HandlerEvent} {cfg : WorkerConfig} {stage : WorkerStage}

theorem firstOnly_acts {peer : Peer} (hfirst : FirstOnly m) (hacts : Acts σ m h e m' h')
    (hsends : ∀ msg ∈ h.stage.taken, peer.MaySend msg) : FirstOnly m' := by
  cases hacts with
  | @registers _ w b =>
    rcases registerWorker_eq m w b with heq | ⟨-, heq⟩ <;> rw [heq] <;> exact hfirst
  | @buries w =>
    split_ifs
    · unfold markWorkerDead
      split <;> exact hfirst
    · exact hfirst
  | @answers _ msg saved _ _ _ hregister hdispatch =>
    have hmay := hsends msg List.mem_cons_self
    obtain rfl : (Coordinator.dispatch σ m msg saved).1 = m' := by rw [hdispatch]
    cases peer with
    | client =>
      intro id
      rw [(resources_dispatch σ m saved hmay.2.1 hmay.2.2).2]
      exact hfirst id
    | worker cfg stage =>
      obtain ⟨r, rfl⟩ := hmay
      cases r with
      | hello => exact hfirst
      | register => exact absurd rfl hregister
      | publishResource =>
        rw [dispatch_publishResource]
        exact firstOnly_publishResource hfirst le_rfl
  | _ => exact hfirst

theorem Granted.acts (hg : Granted m cfg h link) (hok : LinkOk m h link)
    (hacts : Acts σ m h e m' h') (hcarries : Carries e h.stage link link')
    (hopen : h'.connected.isSome = true) (hpeer : link.peer = .worker cfg stage)
    (haccepted : (m.registerWorker cfg.workerId cfg.bootId).2 = true) (hfirst : FirstOnly m) :
    Granted m' cfg h' link' := by
  have hlater : ∀ r, link.peer = .worker cfg (.awaiting r) → link.broken = false →
      ∀ reply ∈ link.replies, r.isAcknowledged reply = true := fun r hr hworks reply hmem =>
    hg.acknowledged hworks r hr reply (List.mem_append_right _ hmem)
  cases hacts with
  | raises =>
    cases hcarries
    exact hg
  | receives | loses =>
    cases hcarries
    exact ⟨hg.named, fun hworks r hr => hlater r hr hworks⟩
  | isAskedToEnd htype =>
    cases hcarries
    refine ⟨hg.named, fun hworks r hr => ?_⟩
    obtain ⟨r, -, rfl, -⟩ := (hok.inStep cfg _ hr hworks).of_received
    cases r <;> cases htype
  | cannotRead htype hread =>
    cases hcarries
    refine ⟨hg.named, fun hworks r hr => ?_⟩
    obtain ⟨r, -, rfl, -⟩ := (hok.inStep cfg _ hr hworks).of_received
    cases r with
    | hello | publishResource => cases htype
    | register =>
      rw [readRegistration_request] at hread
      cases hread
  | @registers _ w b msg _ _ htype hread =>
    have hmay := hok.sends msg List.mem_cons_self
    cases hcarries
    rw [hpeer] at hmay
    obtain ⟨cfg', stage', hself, rfl, rfl, rfl⟩ := registration_of_maySend hmay htype hread
    obtain ⟨rfl, rfl⟩ := Peer.worker.inj hself
    refine ⟨fun _ => ?_, fun hworks r hr reply hmem => ?_⟩
    · rw [registerWorker_of_accepted haccepted]
      exact OrderedMap.find?_insert_self _ _ _
    · obtain ⟨r', hstage, hmsg, -, hreplies, -⟩ := (hok.inStep cfg _ hr hworks).of_received
      obtain rfl := WorkerStage.awaiting.inj hstage
      rw [hreplies] at hmem
      rw [List.mem_singleton.mp hmem]
      cases r with
      | hello | publishResource => cases congrArg FramedMessage.type hmsg
      | register => exact acknowledged_register haccepted
  | @answers _ msg saved _ type payload hregister hdispatch =>
    cases hcarries
    have hsources : m'.sources = m.sources := by
      have hsources := Coordinator.sources_dispatch σ m msg saved
      rwa [hdispatch] at hsources
    refine ⟨fun hname => by rw [hsources]; exact hg.named hname, fun hworks r hr reply hmem => ?_⟩
    obtain ⟨r', hstage, rfl, -, hreplies, hbefore⟩ := (hok.inStep cfg _ hr hworks).of_received
    obtain rfl := WorkerStage.awaiting.inj hstage
    rw [hreplies] at hmem
    rw [List.mem_singleton.mp hmem]
    cases r with
    | hello =>
      obtain ⟨rfl, rfl⟩ := Coordinator.Answer.reply.inj (Prod.mk.inj hdispatch).2
      rfl
    | register => exact absurd rfl hregister
    | publishResource =>
      rw [dispatch_publishResource, Coordinator.publicationAnswer,
        publishResource_of_registered hbefore hfirst] at hdispatch
      obtain ⟨rfl, rfl⟩ := Coordinator.Answer.reply.inj (Prod.mk.inj hdispatch).2
      rfl
  | goesOn | givesUp =>
    cases hcarries with
    | sent =>
      refine ⟨hg.named, fun hworks r hr reply hmem => hg.acknowledged hworks r hr reply ?_⟩
      exact (List.perm_append_singleton _ _).mem_iff.mp hmem
    | notSent hbroken =>
      exact ⟨hg.named, fun hworks => absurd (hbroken.symm.trans hworks) Bool.true_eq_false.mp⟩
  | buries | ends | closes | returns => exact absurd hopen Bool.false_ne_true

end Handler

def WorkerConfig.HasIds (cfg : WorkerConfig) : Prop :=
  cfg.workerId.valid = true ∧ cfg.bootId.valid = true

namespace Deployment

variable {σ : EventSort} {d : Deployment} {s' : Threads} {c : ConnectionId} {h : Handler}
  {link link' : Link} {e : HandlerEvent} {cfg : WorkerConfig} {stage : WorkerStage}
  {away : List Peer}

/-- Every worker with an open connection has been granted what it has asked for. -/
structure Granting (d : Deployment) : Prop where
  first : FirstOnly d.threads.model
  granted : d.threads.running = true → ∀ (c : ConnectionId) (h : Handler) (link : Link) cfg stage,
    d.threads.handlers[c]? = some h → d.links[c]? = some link →
    link.peer = .worker cfg stage → cfg.HasIds → h.connected.isSome = true →
    Granted d.threads.model cfg h link

/-- Nobody else holds the registration of a worker that connects. -/
theorem Sound.registration_accepted (hs : Sound σ d) (hlive : Live d.threads)
    (hrunning : d.threads.running = true) (hc : d.threads.handlers[c]? = some h)
    (hopen : h.connected.isSome = true) (hl : d.links[c]? = some link)
    (hpeer : link.peer = .worker cfg stage) (hids : cfg.HasIds)
    (hg : Granted d.threads.model cfg h link) :
    (d.threads.model.registerWorker cfg.workerId cfg.bootId).2 = true := by
  refine registerWorker_accepted_iff.mpr ⟨hids.1, hids.2, fun source hsource halive => ?_⟩
  have hworker : d.threads.model.workerAlive cfg.workerId = true := by
    rw [workerAlive, hsource]
    exact halive
  obtain ⟨-, c', hc'⟩ := hlive hrunning _ hworker
  obtain ⟨h', hh', hconnected⟩ := Option.bind_eq_some_iff.mp hc'
  rcases eq_or_ne c' c with rfl | hne
  · obtain rfl := Option.some.inj (hc.symm.trans hh')
    rw [hg.named (curWorker_of_connected hconnected)] at hsource
    obtain rfl := Option.some.inj hsource
    rfl
  · -- Another connection that names the worker would be that of another process.
    obtain ⟨l, hl', hok, -⟩ := hs.linked c' h' hh'
    obtain ⟨cfg', stage', hpeer', hself⟩ :=
      worker_of_name (hok (by rw [hconnected]; rfl)) hconnected hids.1
    have hapart := hs.apart c' c l link cfg stage hne hl' hl (by rw [hc']; rfl)
      (by rwa [worker?_isSome hc]) hpeer
    rw [hpeer'] at hapart
    exact absurd hself hapart.1

theorem granting_init : Granting {} :=
  ⟨fun _ => show (0 : UInt64) ≤ 1 by decide, fun _ _ _ _ _ _ hc => absurd hc (by simp)⟩

theorem Granting.handler (hg : Granting d) (hs : Sound σ d) (hlive : Live d.threads)
    (hmoves : Moves σ d.threads (.handler c e) s') (hc : d.threads.handlers[c]? = some h)
    (hl : d.links[c]? = some link) (hcarries : Carries e h.stage link link') :
    Granting ⟨s', d.links.set c link', away⟩ := by
  obtain ⟨h', hc', hothers, -⟩ := handlers_of_moves hmoves hc
  obtain ⟨l, hl₀, hok, -⟩ := hs.linked c h hc
  obtain rfl := Option.some.inj (hl.symm.trans hl₀)
  have hacts := hmoves.acts hc hc'
  have hrunning : s'.running = true → d.threads.running = true := by
    cases hmoves with
    | ends => exact fun hup => absurd hup Bool.false_ne_true
    | _ => exact id
  refine ⟨?_, fun hup c' h₁ l₁ cfg stage hc₁ hl₁ hpeer hids hopen => ?_⟩
  · cases hclosed : h.connected with
    | none =>
      rw [(closed_of_acts hacts hclosed).2]
      exact hg.first
    | some w =>
      have hok := hok (by rw [hclosed]; rfl)
      exact firstOnly_acts hg.first hacts fun msg hmem =>
        hok.sends msg (List.mem_append_left _ hmem)
  · have hbefore := hrunning hup
    rcases eq_or_ne c' c with rfl | hne
    · obtain rfl := Option.some.inj (hc'.symm.trans hc₁)
      rw [List.getElem?_set_self (List.getElem?_eq_some_iff.mp hl).1] at hl₁
      obtain rfl := Option.some.inj hl₁
      have hsome : h.connected.isSome = true := by
        rw [Option.isSome_iff_ne_none]
        intro hclosed
        rw [(closed_of_acts hacts hclosed).1] at hopen
        cases hopen
      rw [hcarries.same_peer.1] at hpeer
      have hgranted := hg.granted hbefore c' h link cfg stage hc hl hpeer hids hsome
      exact hgranted.acts (hok hsome) hacts hcarries hopen hpeer
        (hs.registration_accepted hlive hbefore hc hsome hl hpeer hids hgranted) hg.first
    · rw [hothers c' hne] at hc₁
      rw [List.getElem?_set_ne hne.symm] at hl₁
      have hgranted := hg.granted hbefore c' h₁ l₁ cfg stage hc₁ hl₁ hpeer hids hopen
      have hsame := hs.same_elsewhere hc hacts hne hc₁ hopen hl₁ hpeer
      exact ⟨fun hname => hsame.source.trans (hgranted.named hname), hgranted.acknowledged⟩

theorem Granting.peer (hg : Granting d) (hl : d.links[c]? = some link)
    (hconfig : link'.peer.config = link.peer.config)
    (hack : ∀ h cfg, d.threads.handlers[c]? = some h → h.connected.isSome = true →
      link'.broken = false → ∀ r, link'.peer = .worker cfg (.awaiting r) →
      Granted d.threads.model cfg h link →
      ∀ reply ∈ h.stage.reply ++ link'.replies, r.isAcknowledged reply = true) :
    Granting (d.setLink c link') := by
  refine ⟨hg.first, fun hup c' h l' cfg stage hc hl' hpeer hids hopen => ?_⟩
  change (d.links.set c link')[c']? = some l' at hl'
  rcases eq_or_ne c c' with rfl | hne
  · rw [List.getElem?_set_self (List.getElem?_eq_some_iff.mp hl).1] at hl'
    obtain rfl := Option.some.inj hl'
    obtain ⟨stage', hpeer'⟩ := Peer.worker_of_config hconfig hpeer
    have hgranted := hg.granted hup c h link cfg stage' hc hl hpeer' hids hopen
    exact ⟨hgranted.named, fun hworks r hr => hack h cfg hc hopen hworks r hr hgranted⟩
  · rw [List.getElem?_set_ne hne] at hl'
    exact hg.granted hup c' h l' cfg stage hc hl' hpeer hids hopen

theorem Granting.handlers_eq (hg : Granting d) (hhandlers : s'.handlers = d.threads.handlers)
    (hmodel : s'.model = d.threads.model)
    (hrunning : s'.running = true → d.threads.running = true) :
    Granting ⟨s', d.links, away⟩ where
  first := by
    rw [hmodel]
    exact hg.first
  granted hup := by
    rw [hhandlers, hmodel]
    exact hg.granted (hrunning hup)

theorem afterFrame_ne_awaiting {msg : FramedMessage} {r : WorkerRequest}
    (hreceives : stage.receives = true) : stage.afterFrame msg ≠ .awaiting r := by
  unfold WorkerStage.afterFrame WorkerStage.afterReply
  cases stage with
  | awaiting r' => cases r' <;> dsimp only <;> split_ifs <;> simp [WorkerStage.next]
  | ready => dsimp only; split_ifs <;> simp
  | aboutToSend | exited | killed => cases hreceives

theorem Granting.serves (hg : Granting d) (hs : Sound σ d) {started : Option WorkerConfig}
    (haccepting : d.threads.accepting = .counted) :
    Granting ⟨{ d.threads with
        accepting := .testing, handlers := d.threads.handlers ++ [({} : Handler)] },
      if d.threads.handlers.length < (d.threads.handlers ++ [({} : Handler)]).length
        then d.links ++ [{ peer := Peer.start started }] else d.links, away⟩ := by
  have hlen : d.links.length = d.threads.handlers.length := hs.aligned (by simp [haccepting])
  rw [if_pos (by simp)]
  refine ⟨hg.first, fun hup c h link cfg stage hc hl hpeer hids hopen => ?_⟩
  rcases getElem?_concat_cases hc with hc | ⟨rfl, rfl⟩
  · rcases getElem?_concat_cases hl with hl | ⟨rfl, -⟩
    · exact hg.granted hup c h link cfg stage hc hl hpeer hids hopen
    · exact absurd (List.getElem?_eq_some_iff.mp hc).1 (by rw [hlen]; exact lt_irrefl _)
  · rw [← hlen, List.getElem?_concat_length] at hl
    obtain rfl := Option.some.inj hl
    refine ⟨fun hname => ?_, fun _ _ _ _ hmem => absurd hmem List.not_mem_nil⟩
    have hvalid := hids.1
    rw [← hname] at hvalid
    cases hvalid

theorem Granting.step (hg : Granting d) (hs : Sound σ d) (hlive : Live d.threads) (e : Event) :
    Granting (d.step σ e) := by
  rcases step_cases hs.isLinked e with heq | hhappens
  · rwa [heq]
  generalize d.step σ e = d' at hhappens
  cases hhappens with
  | acts _ hmoves hc hl hcarries => exact hg.handler hs hlive hmoves hc hl hcarries
  | accepts _ hmoves =>
    cases hmoves with
    | serves haccepting => exact hg.serves hs haccepting
    | _ =>
      simp only [lt_irrefl, if_false]
      exact hg.handlers_eq rfl rfl id
  | owns _ hmoves =>
    cases hmoves with
    | stops => exact ⟨hg.first, fun hup => absurd hup Bool.false_ne_true⟩
    | hasJoined => exact ⟨hg.first, fun _ _ _ _ _ _ hc => absurd hc (by simp)⟩
    | _ => exact hg.handlers_eq rfl rfl id
  | @workerSends c cfg r requests replies hl =>
    refine hg.peer hl rfl fun h cfg' hc hopen _ r' hr _ => ?_
    obtain ⟨l, hl₀, hok, -⟩ := hs.linked c h hc
    obtain rfl := Option.some.inj (hl.symm.trans hl₀)
    have hin := (hok hopen).inStep cfg _ rfl rfl
    obtain ⟨hstage, w⟩ := h
    cases hin with
    | aboutToSend => exact fun _ hmem => absurd hmem List.not_mem_nil
  | @workerReceives c cfg stage msg requests replies hl hreceives =>
    refine hg.peer hl rfl fun _ _ _ _ _ r hr => ?_
    exact absurd (Peer.worker.inj hr).2 (afterFrame_ne_awaiting hreceives)
  | clientSends hl => exact hg.peer hl rfl fun _ _ _ _ _ _ hr => absurd hr (by simp)
  | fails | dies => exact hg.handlers_eq rfl rfl id
  | breaks hl =>
    exact hg.peer hl (Peer.config_afterFailure _) fun _ _ _ _ hworks =>
      absurd hworks Bool.true_eq_false.mp
  | ends hl =>
    exact hg.peer hl (Peer.config_afterKill _) fun _ _ _ _ hworks =>
      absurd hworks Bool.true_eq_false.mp

/-- Without a handler a process stays only where as many are at work as there may be. -/
theorem full_of_turnedAway (hs : Sound σ d) {e : Event}
    (hmore : d.turnedAway.length < (d.step σ e).turnedAway.length) :
    kMaxConcurrentConnections ≤ d.threads.active := by
  rcases step_cases hs.isLinked e with heq | hhappens
  · rw [heq] at hmore
    exact absurd hmore (lt_irrefl _)
  generalize d.step σ e = d' at hhappens hmore
  cases hhappens with
  | accepts _ hmoves =>
    cases hmoves with
    | refuses _ hfull => exact hfull
    | connects | failsToAccept | waits | retries | leaves | counts | serves => simp_all
  | fails | dies => simp at hmore
  | _ => exact absurd hmore (lt_irrefl _)

/-- The connection works, if it is that of a worker with ids. -/
def Unbroken (d : Deployment) (c : ConnectionId) : Prop :=
  ∀ (link : Link) cfg stage, d.links[c]? = some link → link.peer = .worker cfg stage →
    cfg.HasIds → link.broken = false

theorem Unbroken.setLink {c₀ : ConnectionId} (hu : Unbroken d c) (hl : d.links[c₀]? = some link)
    (hconfig : link'.peer.config = link.peer.config)
    (hbroken : c₀ = c → ∀ cfg stage, link.peer = .worker cfg stage → cfg.HasIds →
      link.broken = false → link'.broken = false) :
    ∀ (l : Link) cfg stage, (d.links.set c₀ link')[c]? = some l → l.peer = .worker cfg stage →
      cfg.HasIds → l.broken = false := by
  intro l cfg stage hl' hpeer hids
  rcases eq_or_ne c₀ c with rfl | hne
  · rw [List.getElem?_set_self (List.getElem?_eq_some_iff.mp hl).1] at hl'
    obtain rfl := Option.some.inj hl'
    obtain ⟨stage', hpeer'⟩ := Peer.worker_of_config hconfig hpeer
    exact hbroken rfl cfg stage' hpeer' hids (hu link cfg stage' hl hpeer' hids)
  · rw [List.getElem?_set_ne hne] at hl'
    exact hu l cfg stage hl' hpeer hids

/-- Nothing but a failure of the connection or the end of the process cuts a worker off. -/
theorem Unbroken.step (hu : Unbroken d c) (hg : Granting d) (hs : Sound σ d) {e : Event}
    (hrunning : d.threads.running = true) (hbreaks : e ≠ .breaks c) (hends : e ≠ .ends c) :
    Unbroken (d.step σ e) c := by
  rcases step_cases hs.isLinked e with heq | hhappens
  · rwa [heq]
  generalize d.step σ e = d' at hhappens
  cases hhappens with
  | acts _ _ _ hl hcarries =>
    have hpeer := hcarries.same_peer
    exact hu.setLink hl (congrArg Peer.config hpeer.1) fun _ _ _ _ _ hworks =>
      hpeer.2.trans hworks
  | accepts _ hmoves =>
    intro link cfg stage hl hpeer hids
    dsimp only at hl
    split_ifs at hl
    · rcases getElem?_concat_cases hl with hl | ⟨-, rfl⟩
      · exact hu link cfg stage hl hpeer hids
      · rfl
    · exact hu link cfg stage hl hpeer hids
  | owns | fails | dies => exact hu
  | workerSends hl | clientSends hl => exact hu.setLink hl rfl fun _ _ _ _ _ _ => rfl
  | breaks hl =>
    exact hu.setLink hl (Peer.config_afterFailure _) fun heq => absurd (by rw [heq]) hbreaks
  | ends hl =>
    exact hu.setLink hl (Peer.config_afterKill _) fun heq => absurd (by rw [heq]) hends
  | @workerReceives c₀ cfg₀ stage₀ msg requests replies hl hreceives =>
    refine hu.setLink hl rfl fun _ cfg stage hpeer hids _ => ?_
    obtain ⟨rfl, rfl⟩ := Peer.worker.inj hpeer
    obtain ⟨h, hc, hopen, hok⟩ := hs.open_of_works hl rfl rfl
    have hin := hok.inStep _ _ rfl rfl
    have hack := (hg.granted hrunning c₀ h _ cfg₀ stage₀ hc hl rfl hids hopen).acknowledged rfl
    obtain ⟨hstage, w⟩ := h
    cases hin with
    | @replied r =>
      have hyes := hack r rfl msg (List.mem_append_right _ List.mem_cons_self)
      simp only [WorkerStage.afterFrame, WorkerStage.afterReply, hyes, if_true]
      cases r <;> rfl

theorem running_of_step (hs : Sound σ d) {e : Event}
    (hrunning : (d.step σ e).threads.running = true) : d.threads.running = true := by
  by_contra hdown
  have hstays : ∀ {a : Threads.Event} {s' : Threads}, d.threads.isOver = false →
      Moves σ d.threads a s' → s'.running = false := fun hover hmoves =>
    hmoves.step_eq hover ▸ Threads.running_step (Bool.not_eq_true _ ▸ hdown) _
  rcases step_cases hs.isLinked e with heq | hhappens
  · exact hdown (heq ▸ hrunning)
  generalize d.step σ e = d' at hhappens hrunning
  cases hhappens with
  | acts hover hmoves | accepts hover hmoves | owns hover hmoves =>
    exact Bool.false_ne_true ((hstays hover hmoves).symm.trans hrunning)
  | workerSends | workerReceives | clientSends | breaks | ends | fails | dies =>
    exact hdown hrunning

theorem running_of_run {es : List Event} (hs : Sound σ d)
    (hwell : Runs.Always (Deployment.step σ) WellRun d es)
    (hrunning : (Runs.run (Deployment.step σ) d es).threads.running = true) :
    d.threads.running = true := by
  induction es generalizing d with
  | nil => exact hrunning
  | cons e es ih => exact running_of_step hs (ih (hs.step hwell.1) hwell.2 hrunning)

/-- What is known of a deployment in which the connection `c` has not failed. -/
structure Faithful (σ : EventSort) (c : ConnectionId) (d : Deployment) : Prop where
  sound : Sound σ d
  live : Live d.threads
  granting : Granting d
  unbroken : Unbroken d c

theorem faithful_init : Faithful σ c {} :=
  ⟨sound_init, live_init, granting_init, fun _ _ _ hl => absurd hl (by simp)⟩

theorem Faithful.step (hd : Faithful σ c d) {e : Event} (hwell : d.WellRun e)
    (hrunning : d.threads.running = true) (hfine : e ≠ .breaks c ∧ e ≠ .ends c) :
    Faithful σ c (d.step σ e) :=
  ⟨hd.sound.step hwell, hd.live.step hd.sound e, hd.granting.step hd.sound hd.live e,
    hd.unbroken.step hd.granting hd.sound hrunning hfine.1 hfine.2⟩

theorem Faithful.run {es : List Event} (hd : Faithful σ c d)
    (hwell : Runs.Always (Deployment.step σ) WellRun d es)
    (hrunning : (Runs.run (Deployment.step σ) d es).threads.running = true)
    (hfine : ∀ e ∈ es, e ≠ .breaks c ∧ e ≠ .ends c) :
    Faithful σ c (Runs.run (Deployment.step σ) d es) := by
  induction es generalizing d with
  | nil => exact hd
  | cons e es ih =>
    have hbefore := running_of_run hd.sound hwell hrunning
    have hnow := hfine e List.mem_cons_self
    exact ih (hd.step hwell.1 hbefore hnow) hwell.2 hrunning fun e' he' =>
      hfine e' (List.mem_cons_of_mem e he')

/-- While the coordinator runs, a worker whose connection does not fail is never turned away: it
has not given up, and every reply that is under way to it acknowledges its request. -/
theorem worker_never_turned_away {es : List Event}
    (hwell : Runs.Always (Deployment.step σ) WellRun {} es)
    (hrunning : (Runs.run (Deployment.step σ) {} es).threads.running = true)
    (hfine : ∀ e ∈ es, e ≠ .breaks c ∧ e ≠ .ends c)
    (hl : (Runs.run (Deployment.step σ) {} es).links[c]? = some link)
    (hpeer : link.peer = .worker cfg stage) (hids : cfg.HasIds) :
    stage.isOver = false ∧ link.broken = false ∧ ∀ r, stage = .awaiting r →
      ∀ reply ∈ link.replies, r.isAcknowledged reply = true := by
  have hd := faithful_init.run hwell hrunning hfine
  have hworks := hd.unbroken link cfg stage hl hpeer hids
  obtain ⟨h, hc, hopen, hok⟩ := hd.sound.open_of_works hl hpeer hworks
  have hgranted := hd.granting.granted hrunning c h link cfg stage hc hl hpeer hids hopen
  refine ⟨?_, hworks, fun r hr reply hmem => ?_⟩
  · exact (hok.inStep cfg stage hpeer hworks).isOver_eq
  · exact hgranted.acknowledged hworks r (hr ▸ hpeer) reply (List.mem_append_right _ hmem)

theorem wellRun_take (n : ℕ) :
    Runs.Always (Deployment.step (SortBy.stable _)) WellRun {} (workerStarts.take n) := by
  have hall := workerStarts_wellRun
  rw [← List.take_append_drop n workerStarts] at hall
  exact (Runs.always_append.mp hall).1

def workerPublishes : List Event := workerStarts.take 18

theorem workerPublishes_awaiting :
    (Runs.run (Deployment.step (SortBy.stable _)) {} workerPublishes).threads.running = true ∧
      ((Runs.run (Deployment.step (SortBy.stable _)) {} workerPublishes).links[0]?).map
        Link.peer = some (.worker smallWorker (.awaiting .publishResource)) := by
  decide +kernel

theorem worker_never_turned_away_workerPublishes :
    ∃ link, (Runs.run (Deployment.step (SortBy.stable _)) {} workerPublishes).links[0]? =
        some link ∧ link.broken = false ∧
      ∀ reply ∈ link.replies, WorkerRequest.publishResource.isAcknowledged reply = true := by
  obtain ⟨hrunning, hpeer⟩ := workerPublishes_awaiting
  obtain ⟨link, hl, hpeer⟩ := Option.map_eq_some_iff.mp hpeer
  have hfine : ∀ e ∈ workerPublishes, e ≠ .breaks 0 ∧ e ≠ .ends 0 := by
    intro e he
    fin_cases he <;> simp
  have hwell : Runs.Always (Deployment.step (SortBy.stable _)) WellRun {} workerPublishes :=
    wellRun_take 18
  obtain ⟨-, hworks, hack⟩ := worker_never_turned_away hwell hrunning hfine hl hpeer ⟨rfl, rfl⟩
  exact ⟨link, hl, hworks, hack _ rfl⟩

end Deployment

end CapacityFabric
