import CapacityFabric.Deployment.Handling

/-!
# The invariant of a deployment

Where workers have their ids for themselves, each of them stays in step with the coordinator,
however the threads and the processes interleave.
-/

namespace CapacityFabric

open CapacityModel WorkerConfig
open Threads (Acts HandlerEvent Moves)

namespace Deployment

open Threads (worker?)

structure Sound (σ : EventSort) (d : Deployment) : Prop where
  reach : Threads.Reachable σ d.threads
  aligned : d.threads.accepting ≠ .finished → d.links.length = d.threads.handlers.length
  linked : ∀ (c : ConnectionId) (h : Handler), d.threads.handlers[c]? = some h →
    ∃ link : Link, d.links[c]? = some link ∧
      (h.connected.isSome = true → LinkOk d.threads.model h link) ∧
      (h.connected = none → link.broken = true ∨ link.peer = .client)
  /-- A worker whose connection works has a handler. -/
  served : ∀ (c : ConnectionId) (link : Link) cfg stage, d.links[c]? = some link →
    link.peer = .worker cfg stage → link.broken = false → ∃ h, d.threads.handlers[c]? = some h
  ready : ∀ (c : ConnectionId) (link : Link) cfg, d.links[c]? = some link →
    link.peer = .worker cfg .ready → link.broken = false
  apart : ∀ (c c' : ConnectionId) (link link' : Link) cfg stage, c ≠ c' →
    d.links[c]? = some link → d.links[c']? = some link' →
    (worker? d.threads.handlers c).isSome = true →
    (worker? d.threads.handlers c').isSome = true → link'.peer = .worker cfg stage →
    link.peer.IsApart cfg

variable {σ : EventSort} {d : Deployment} {s' : Threads} {c : ConnectionId} {h : Handler}
  {link link' : Link} {e : HandlerEvent} {away : List Peer}

theorem sound_init : Sound σ {} where
  reach := .init
  aligned _ := rfl
  linked _ _ hc := absurd hc (by simp)
  served _ _ _ _ hl := absurd hl (by simp)
  ready _ _ _ hl := absurd hl (by simp)
  apart _ _ _ _ _ _ _ hl := absurd hl (by simp)

theorem worker?_isSome {handlers : List Handler} (hc : handlers[c]? = some h) :
    (worker? handlers c).isSome = h.connected.isSome := by
  rw [worker?, hc, Option.bind_some]

theorem Sound.isLinked (hs : Sound σ d) : d.Linked := fun c h hc => by
  obtain ⟨link, hl, -⟩ := hs.linked c h hc
  exact ⟨link, hl⟩

theorem Sound.reach_moves (hs : Sound σ d) {e : Threads.Event} (hover : d.threads.isOver = false)
    (hmoves : Moves σ d.threads e s') : Threads.Reachable σ s' :=
  hmoves.step_eq hover ▸ hs.reach.step e

theorem getElem?_set_link {links : List Link} {c' : ConnectionId} {l' : Link}
    (hpeer : link'.peer = link.peer ∧ link'.broken = link.broken) (hl : links[c]? = some link)
    (hl' : (links.set c link')[c']? = some l') :
    ∃ l : Link, links[c']? = some l ∧ l'.peer = l.peer ∧ l'.broken = l.broken := by
  rcases eq_or_ne c c' with rfl | hne
  · rw [List.getElem?_set_self (List.getElem?_eq_some_iff.mp hl).1] at hl'
    obtain rfl := Option.some.inj hl'
    exact ⟨link, hl, hpeer⟩
  · rw [List.getElem?_set_ne hne] at hl'
    exact ⟨l', hl', rfl, rfl⟩

/-- A worker whose connection works has a handler that holds it open. -/
theorem Sound.open_of_works (hs : Sound σ d) {cfg : WorkerConfig} {stage : WorkerStage}
    (hl : d.links[c]? = some link) (hpeer : link.peer = .worker cfg stage)
    (hworks : link.broken = false) :
    ∃ h : Handler, d.threads.handlers[c]? = some h ∧ h.connected.isSome = true ∧
      LinkOk d.threads.model h link := by
  obtain ⟨h, hc⟩ := hs.served c link cfg stage hl hpeer hworks
  obtain ⟨l, hl₀, hok, hgone⟩ := hs.linked c h hc
  obtain rfl := Option.some.inj (hl.symm.trans hl₀)
  have hsome : h.connected.isSome = true := by
    cases hclosed : h.connected with
    | some => rfl
    | none =>
      rcases hgone hclosed with hbroken | hclient
      · exact absurd (hbroken.symm.trans hworks) Bool.true_eq_false.mp
      · rw [hpeer] at hclient
        cases hclient
  exact ⟨h, hc, hsome, hok hsome⟩

theorem Sound.same_elsewhere {h' : Handler} {m' : CapacityModel} (hs : Sound σ d)
    (hc : d.threads.handlers[c]? = some h) (hacts : Acts σ d.threads.model h e m' h')
    {c' : ConnectionId} (hne : c' ≠ c) {h₁ : Handler} {cfg : WorkerConfig} {stage : WorkerStage}
    (hc' : d.threads.handlers[c']? = some h₁) (hopen : h₁.connected.isSome = true)
    (hl' : d.links[c']? = some link') (hpeer : link'.peer = .worker cfg stage) :
    Same cfg d.threads.model m' := by
  cases hclosed : h.connected with
  | none =>
    rw [(closed_of_acts hacts hclosed).2]
    exact .refl _ _
  | some w =>
    have hsome : h.connected.isSome = true := by rw [hclosed]; rfl
    obtain ⟨link, hl, hok, -⟩ := hs.linked c h hc
    have hok := hok hsome
    refine within_acts hacts (fun msg hmem => hok.sends msg (List.mem_append_left _ hmem))
      hok.names cfg ?_
    exact hs.apart c c' link link' cfg stage hne.symm hl hl' (by rwa [worker?_isSome hc])
      (by rwa [worker?_isSome hc']) hpeer

theorem Sound.handler (hs : Sound σ d) (hmoves : Moves σ d.threads (.handler c e) s')
    (hreach : Threads.Reachable σ s') (hc : d.threads.handlers[c]? = some h)
    (hl : d.links[c]? = some link) (hcarries : Carries e h.stage link link') :
    Sound σ ⟨s', d.links.set c link', away⟩ := by
  obtain ⟨h', hc', hothers, hlength, haccepting⟩ := handlers_of_moves hmoves hc
  obtain ⟨l, hl₀, hok, hgone⟩ := hs.linked c h hc
  obtain rfl := Option.some.inj (hl.symm.trans hl₀)
  have hacts := hmoves.acts hc hc'
  have hpeer := hcarries.same_peer
  have hlinks : ∀ {c' : ConnectionId} {l' : Link}, (d.links.set c link')[c']? = some l' →
      ∃ l : Link, d.links[c']? = some l ∧ l'.peer = l.peer ∧ l'.broken = l.broken := fun hl' =>
    getElem?_set_link hpeer hl hl'
  -- Connections only close.
  have hopen : ∀ c', (worker? s'.handlers c').isSome = true →
      (worker? d.threads.handlers c').isSome = true := by
    intro c' hopen
    rcases eq_or_ne c' c with rfl | hne
    · rw [worker?_isSome hc'] at hopen
      rw [worker?_isSome hc, Option.isSome_iff_ne_none]
      intro hclosed
      rw [(closed_of_acts hacts hclosed).1] at hopen
      cases hopen
    · rwa [worker?, hothers c' hne] at hopen
  refine ⟨hreach, ?_, ?_, ?_, ?_, ?_⟩
  · intro hlives
    rw [List.length_set, hlength]
    exact hs.aligned (haccepting ▸ hlives)
  · intro c' h₁ hc₁
    rcases eq_or_ne c' c with rfl | hne
    · obtain rfl := Option.some.inj (hc'.symm.trans hc₁)
      refine ⟨link', List.getElem?_set_self (List.getElem?_eq_some_iff.mp hl).1,
        fun hsome => ?_, fun hnone => ?_⟩
      · have hbefore := hopen c' (by rw [worker?_isSome hc']; exact hsome)
        rw [worker?_isSome hc] at hbefore
        exact (hok hbefore).acts hacts hcarries hsome
      · rw [hpeer.1, hpeer.2]
        cases hclosed : h.connected with
        | none => exact hgone hclosed
        | some w =>
          exact (hok (by rw [hclosed]; rfl)).closed_of_acts hacts hnone
    · rw [hothers c' hne] at hc₁
      obtain ⟨l₁, hl₁, hok₁, hgone₁⟩ := hs.linked c' h₁ hc₁
      refine ⟨l₁, (List.getElem?_set_ne hne.symm).trans hl₁, fun hsome => ?_, hgone₁⟩
      exact (hok₁ hsome).of_same fun cfg stage hworker =>
        hs.same_elsewhere hc hacts hne hc₁ hsome hl₁ hworker
  · intro c' l' cfg stage hl' hworker hworks
    obtain ⟨l, hl₁, hp, hb⟩ := hlinks hl'
    obtain ⟨h₁, hc₁⟩ := hs.served c' l cfg stage hl₁ (hp ▸ hworker) (hb ▸ hworks)
    rcases eq_or_ne c' c with rfl | hne
    · exact ⟨h', hc'⟩
    · exact ⟨h₁, (hothers c' hne).trans hc₁⟩
  · intro c' l' cfg hl' hready
    obtain ⟨l, hl₁, hp, hb⟩ := hlinks hl'
    rw [hb]
    exact hs.ready c' l cfg hl₁ (hp ▸ hready)
  · intro c₁ c₂ l₁ l₂ cfg stage hne hl₁ hl₂ ho₁ ho₂ hworker
    obtain ⟨k₁, hk₁, hp₁, -⟩ := hlinks hl₁
    obtain ⟨k₂, hk₂, hp₂, -⟩ := hlinks hl₂
    rw [hp₁]
    exact hs.apart c₁ c₂ k₁ k₂ cfg stage hne hk₁ hk₂ (hopen c₁ ho₁) (hopen c₂ ho₂) (hp₂ ▸ hworker)

theorem Sound.handlers_eq (hs : Sound σ d) (hreach : Threads.Reachable σ s')
    (hhandlers : s'.handlers = d.threads.handlers) (hmodel : s'.model = d.threads.model)
    (haccepting : s'.accepting ≠ .finished → d.threads.accepting ≠ .finished) :
    Sound σ ⟨s', d.links, away⟩ where
  reach := hreach
  aligned hlives := by
    rw [hhandlers]
    exact hs.aligned (haccepting hlives)
  linked := by
    rw [hhandlers, hmodel]
    exact hs.linked
  served := by
    rw [hhandlers]
    exact hs.served
  ready := hs.ready
  apart := by
    rw [hhandlers]
    exact hs.apart

theorem linkOk_start (m : CapacityModel) (started : Option WorkerConfig) :
    LinkOk m {} { peer := Peer.start started } where
  sends _ hmem := absurd hmem List.not_mem_nil
  names := by
    cases started with
    | none => rfl
    | some cfg => exact Or.inl rfl
  inStep cfg stage hpeer _ := by
    cases started with
    | none => cases hpeer
    | some cfg' =>
      obtain ⟨rfl, rfl⟩ := Peer.worker.inj hpeer
      exact .aboutToSend trivial

theorem Sound.serves (hs : Sound σ d) {started : Option WorkerConfig}
    (hwell : d.WellRun (.accept .go started)) (haccepting : d.threads.accepting = .counted)
    (hreach : Threads.Reachable σ
      { d.threads with accepting := .testing, handlers := d.threads.handlers ++ [{}] }) :
    Sound σ ⟨{ d.threads with accepting := .testing, handlers := d.threads.handlers ++ [{}] },
      d.links ++ [{ peer := Peer.start started }], away⟩ := by
  have hlen : d.links.length = d.threads.handlers.length := hs.aligned (by simp [haccepting])
  have hsplit : ∀ (c : ConnectionId) (l : Link),
      (d.links ++ [{ peer := Peer.start started }])[c]? = some l →
      d.links[c]? = some l ∨ c = d.links.length ∧ l = { peer := Peer.start started } :=
    fun _ _ => getElem?_concat_cases
  have hold : ∀ {c : ConnectionId} {l : Link}, d.links[c]? = some l →
      (d.threads.handlers ++ [({} : Handler)])[c]? = d.threads.handlers[c]? := fun hl =>
    List.getElem?_append_left (hlen ▸ (List.getElem?_eq_some_iff.mp hl).1)
  refine ⟨hreach, fun _ => ?_, ?_, ?_, ?_, ?_⟩
  · rw [List.length_append, List.length_append, hlen]
    rfl
  · intro c h hc
    rcases getElem?_concat_cases hc with hc | ⟨rfl, rfl⟩
    · have hlt := (List.getElem?_eq_some_iff.mp hc).1
      obtain ⟨l, hl, hok⟩ := hs.linked c h hc
      exact ⟨l, (List.getElem?_append_left (hlen ▸ hlt)).trans hl, hok⟩
    · refine ⟨{ peer := Peer.start started }, ?_, fun _ => linkOk_start _ _, fun hno => ?_⟩
      · rw [← hlen, List.getElem?_concat_length]
      · cases hno
  · intro c l cfg stage hl hworker hworks
    rcases hsplit c l hl with hl | ⟨rfl, -⟩
    · obtain ⟨h, hc⟩ := hs.served c l cfg stage hl hworker hworks
      exact ⟨h, (hold hl).trans hc⟩
    · exact ⟨{}, by rw [hlen, List.getElem?_concat_length]⟩
  · intro c l cfg hl hready
    rcases hsplit c l hl with hl | ⟨-, rfl⟩
    · exact hs.ready c l cfg hl hready
    · rfl
  · intro c c' l l' cfg stage hne hl hl' ho ho' hworker
    rcases hsplit c l hl with hl₁ | ⟨hc, rfl⟩
    · rw [worker?, hold hl₁] at ho
      rcases hsplit c' l' hl' with hl₂ | ⟨-, rfl⟩
      · rw [worker?, hold hl₂] at ho'
        exact hs.apart c c' l l' cfg stage hne hl₁ hl₂ ho ho' hworker
      · -- The new worker keeps away from the old connections.
        cases started with
        | none => cases hworker
        | some cfg' =>
          obtain ⟨rfl, -⟩ := Peer.worker.inj hworker
          cases hpeer : l.peer with
          | client => trivial
          | worker cfg₀ stage₀ => exact hwell c l hl₁ ho cfg₀ stage₀ hpeer
    · rcases hsplit c' l' hl' with hl₂ | ⟨hc', -⟩
      · rw [worker?, hold hl₂] at ho'
        cases started with
        | none => trivial
        | some cfg' =>
          obtain ⟨hw, hr⟩ := hwell c' l' hl₂ ho' cfg stage hworker
          exact ⟨hw.symm, hr.symm⟩
      · exact absurd (hc.trans hc'.symm) hne

theorem Sound.peer (hs : Sound σ d) (hl : d.links[c]? = some link)
    (hconfig : link'.peer.config = link.peer.config)
    (hok : ∀ m h, LinkOk m h link → LinkOk m h link')
    (hbroken : link.broken = true → link'.broken = true)
    (hready : ∀ cfg, link'.peer = .worker cfg .ready → link'.broken = false) :
    Sound σ (d.setLink c link') := by
  have hlinks : ∀ {c' : ConnectionId} {l' : Link}, (d.links.set c link')[c']? = some l' →
      c' = c ∧ l' = link' ∨ d.links[c']? = some l' := by
    intro c' l' hl'
    rcases eq_or_ne c c' with rfl | hne
    · rw [List.getElem?_set_self (List.getElem?_eq_some_iff.mp hl).1] at hl'
      exact Or.inl ⟨rfl, (Option.some.inj hl').symm⟩
    · rw [List.getElem?_set_ne hne] at hl'
      exact Or.inr hl'
  have hconfigs : ∀ {c' : ConnectionId} {l' : Link}, (d.links.set c link')[c']? = some l' →
      ∃ l : Link, d.links[c']? = some l ∧ l'.peer.config = l.peer.config := by
    intro c' l' hl'
    rcases hlinks hl' with ⟨rfl, rfl⟩ | hl'
    · exact ⟨link, hl, hconfig⟩
    · exact ⟨l', hl', rfl⟩
  refine ⟨hs.reach, fun hlives => (List.length_set).trans (hs.aligned hlives), ?_, ?_, ?_, ?_⟩
  · intro c' h hc
    obtain ⟨l, hl₀, hok₀, hgone⟩ := hs.linked c' h hc
    rcases eq_or_ne c c' with rfl | hne
    · obtain rfl := Option.some.inj (hl.symm.trans hl₀)
      refine ⟨link', List.getElem?_set_self (List.getElem?_eq_some_iff.mp hl).1,
        fun hsome => hok _ _ (hok₀ hsome), fun hnone => ?_⟩
      refine (hgone hnone).imp hbroken fun hclient => ?_
      rw [hclient] at hconfig
      cases hpeer : link'.peer with
      | client => rfl
      | worker cfg stage =>
        rw [hpeer] at hconfig
        cases hconfig
    · exact ⟨l, (List.getElem?_set_ne hne).trans hl₀, hok₀, hgone⟩
  · intro c' l' cfg stage hl' hworker hworks
    rcases hlinks hl' with ⟨rfl, rfl⟩ | hl'
    · obtain ⟨stage', hpeer⟩ := Peer.worker_of_config hconfig hworker
      refine hs.served c' link cfg stage' hl hpeer ?_
      by_contra hno
      exact Bool.false_ne_true (hworks.symm.trans (hbroken (Bool.not_eq_false _ ▸ hno)))
    · exact hs.served c' l' cfg stage hl' hworker hworks
  · intro c' l' cfg hl' hworker
    rcases hlinks hl' with ⟨rfl, rfl⟩ | hl'
    · exact hready cfg hworker
    · exact hs.ready c' l' cfg hl' hworker
  · intro c₁ c₂ l₁ l₂ cfg stage hne hl₁ hl₂ ho₁ ho₂ hworker
    obtain ⟨k₁, hk₁, hp₁⟩ := hconfigs hl₁
    obtain ⟨k₂, hk₂, hp₂⟩ := hconfigs hl₂
    obtain ⟨stage', hpeer⟩ := Peer.worker_of_config hp₂ hworker
    rw [Peer.isApart_congr hp₁]
    exact hs.apart c₁ c₂ k₁ k₂ cfg stage' hne hk₁ hk₂ ho₁ ho₂ hpeer

theorem Sound.accepts (hs : Sound σ d) {a : Threads.AcceptEvent} {started : Option WorkerConfig}
    (hwell : d.WellRun (.accept a started)) (hreach : Threads.Reachable σ s')
    (hmoves : Moves σ d.threads (.accept a) s') :
    Sound σ ⟨s', if d.threads.handlers.length < s'.handlers.length
      then d.links ++ [{ peer := Peer.start started }] else d.links, away⟩ := by
  cases hmoves with
  | serves haccepting =>
    have hgrows : d.threads.handlers.length <
        (d.threads.handlers ++ [({} : Handler)]).length := by simp
    simp only [if_pos hgrows]
    exact hs.serves hwell haccepting hreach
  | leaves =>
    simp only [lt_irrefl, if_false]
    exact hs.handlers_eq hreach rfl rfl fun hno => absurd rfl hno
  | connects haccepting | failsToAccept haccepting | waits haccepting | retries haccepting
  | refuses haccepting | counts haccepting =>
    simp only [lt_irrefl, if_false]
    exact hs.handlers_eq hreach rfl rfl fun _ => by simp [haccepting]

theorem Sound.owns (hs : Sound σ d) {a : Threads.OwnerEvent} (hreach : Threads.Reachable σ s')
    (hmoves : Moves σ d.threads (.owner a) s') : Sound σ ⟨s', d.links, away⟩ := by
  cases hmoves with
  | hasJoined howner hn =>
    have hin : Threads.InOrder d.threads := Threads.Reachable.inOrder hs.reach
    have haccepting : d.threads.accepting = .finished := by
      have hknows := hin.knows
      rw [Threads.OwnerKnows, howner] at hknows
      exact hknows.2.1
    refine ⟨hreach, fun hno => absurd haccepting hno, fun _ _ hc => absurd hc (by simp), ?_,
      hs.ready, fun _ _ _ _ _ _ _ _ _ ho => absurd ho (by simp [worker?])⟩
    -- A worker whose connection works still has its handler, which has not been joined.
    intro c link cfg stage hl hworker hworks
    obtain ⟨h, hc, hopen, -⟩ := hs.open_of_works hl hworker hworks
    have hclosed : h.connected = none := by
      rw [← Option.bind_some (f := Handler.connected), ← hc]
      exact hin.worker?_of_joined howner hn
    rw [hclosed] at hopen
    cases hopen
  | _ => exact hs.handlers_eq hreach rfl rfl id

theorem inStep_next {m : CapacityModel} {cfg : WorkerConfig} {r : WorkerRequest}
    (h : Done m cfg r) : InStep m cfg (WorkerStage.next r) .receiving [] [] := by
  cases r with
  | hello => exact .aboutToSend trivial
  | register => exact .aboutToSend h
  | publishResource => exact .ready h

/-- A peer that is cut off keeps its nature, and no worker gets ready by it. -/
theorem Sound.cutOff (hs : Sound σ d) (hl : d.links[c]? = some link) {peer : Peer}
    (hconfig : peer.config = link.peer.config) (hready : ∀ cfg, peer ≠ .worker cfg .ready) :
    Sound σ (d.setLink c { link with peer := peer, broken := true }) := by
  refine hs.peer hl hconfig (fun m h hok => ⟨fun msg hmem => ?_, ?_, nofun⟩) (fun _ => rfl)
    fun cfg hno => absurd hno (hready cfg)
  · have hmay := hok.sends msg hmem
    cases hpeer : link.peer <;> cases peer <;> rw [hpeer] at hconfig hmay <;> cases hconfig <;>
      exact hmay
  · have hname := hok.names
    cases hpeer : link.peer <;> cases peer <;> rw [hpeer] at hconfig hname <;> cases hconfig <;>
      exact hname

theorem Sound.step (hs : Sound σ d) {e : Event} (hwell : d.WellRun e) :
    Sound σ (d.step σ e) := by
  rcases step_cases hs.isLinked e with heq | hhappens
  · rwa [heq]
  generalize d.step σ e = d' at hhappens
  cases hhappens with
  | acts hover hmoves hc hl hcarries =>
    exact hs.handler hmoves (hs.reach_moves hover hmoves) hc hl hcarries
  | accepts hover hmoves => exact hs.accepts hwell (hs.reach_moves hover hmoves) hmoves
  | owns hover hmoves => exact hs.owns (hs.reach_moves hover hmoves) hmoves
  | @workerSends c cfg r requests replies hl =>
    refine hs.peer hl rfl (fun m h hok => ⟨hok.sends_more ⟨r, rfl⟩, hok.names, ?_⟩) id
      (fun _ _ => rfl)
    intro cfg' stage hpeer hworks
    obtain ⟨rfl, rfl⟩ := Peer.worker.inj hpeer
    have hin := hok.inStep _ _ rfl hworks
    generalize h.stage = hstage at hin ⊢
    cases hin with
    | aboutToSend hbefore => exact .sent hbefore
  | @workerReceives c cfg stage msg requests replies hl hreceives =>
    refine hs.peer hl rfl (fun m h hok => ⟨hok.sends, hok.names, ?_⟩) nofun ?_
    · intro cfg' stage' hpeer hworks
      obtain ⟨rfl, rfl⟩ := Peer.worker.inj hpeer
      have hin := hok.inStep _ _ rfl rfl
      generalize h.stage = hstage at hin ⊢
      cases hin with
      | @replied r _ hack =>
        unfold WorkerStage.afterFrame WorkerStage.afterReply at hworks ⊢
        dsimp only at hworks ⊢
        split_ifs at hworks ⊢ with hyes
        · exact inStep_next (hack hyes)
        · cases hworks
    · intro cfg' hready
      obtain ⟨-, hstage⟩ := Peer.worker.inj hready
      dsimp only
      rw [hstage]
      rfl
  | clientSends hl =>
    exact hs.peer hl rfl (fun m h hok => ⟨hok.sends_more hwell, hok.names, nofun⟩) id nofun
  | fails | dies => exact hs.handlers_eq hs.reach rfl rfl id
  | @breaks c link hl =>
    refine hs.cutOff hl link.peer.config_afterFailure fun cfg hready => ?_
    cases hpeer : link.peer with
    | client =>
      rw [hpeer] at hready
      cases hready
    | worker cfg' stage =>
      rw [hpeer] at hready
      obtain ⟨-, hstage⟩ := Peer.worker.inj hready
      cases stage with
      | aboutToSend r | awaiting r => cases r <;> cases hstage
      | ready | exited | killed => cases hstage
  | @ends c link hl =>
    refine hs.cutOff hl link.peer.config_afterKill fun cfg hready => ?_
    cases hpeer : link.peer with
    | client =>
      rw [hpeer] at hready
      cases hready
    | worker cfg' stage =>
      rw [hpeer] at hready
      obtain ⟨-, hstage⟩ := Peer.worker.inj hready
      cases stage <;> cases hstage

end Deployment

end CapacityFabric
