import CapacityFabric.Coordinator.LiveWorkers
import CapacityFabric.Deployment.Invariant

/-!
# What `READY` means

In a deployment whose workers have their ids for themselves, a worker that has printed `READY`
and lives has its resource stored and current, and who the model holds alive is connected.
-/

namespace CapacityFabric

open CapacityModel WorkerConfig
open Threads (HandlerEvent Moves worker?)

/-- Where a process stands whose connection was closed at once. -/
def Peer.Unserved : Peer → Prop
  | .worker _ stage =>
    stage = .aboutToSend .hello ∨ stage = .aboutToSend .register ∨ stage.isOver = true
  | .client => True

namespace Peer

theorem unserved_start (started : Option WorkerConfig) : (start started).Unserved := by
  cases started with
  | none => trivial
  | some cfg => exact Or.inl rfl

theorem Unserved.afterFailure {peer : Peer} (h : peer.Unserved) : peer.afterFailure.Unserved := by
  cases peer with
  | client => trivial
  | worker cfg stage =>
    rcases h with rfl | rfl | hover
    · -- The reply that stands for none is taken for an answer to the hello.
      exact Or.inr (Or.inl rfl)
    · exact Or.inr (Or.inr rfl)
    · cases stage with
      | exited | killed => exact Or.inr (Or.inr rfl)
      | _ => cases hover

theorem Unserved.afterKill {peer : Peer} (h : peer.Unserved) : peer.afterKill.Unserved := by
  cases peer with
  | client => trivial
  | worker cfg stage =>
    refine Or.inr (Or.inr ?_)
    split_ifs with hover
    · exact hover
    · rfl

end Peer

namespace Deployment

variable {σ : EventSort} {d : Deployment} {s' : Threads} {c : ConnectionId} {h : Handler}
  {link : Link} {e : HandlerEvent}

theorem Sound.run (hs : Sound σ d) {es : List Event}
    (hwell : Runs.Always (Deployment.step σ) WellRun d es) :
    Sound σ (Runs.run (Deployment.step σ) d es) := by
  induction es generalizing d with
  | nil => exact hs
  | cons e es ih => exact ih (hs.step hwell.1) hwell.2

theorem peer_mem_peers (hl : d.links[c]? = some link) : link.peer ∈ d.peers :=
  List.mem_append_left _ (List.mem_map_of_mem (List.mem_of_getElem? hl))

theorem unserved_modify {peers : List Peer} (h : ∀ peer ∈ peers, peer.Unserved) {f : Peer → Peer}
    (hf : ∀ peer, peer.Unserved → (f peer).Unserved) (i : ℕ) :
    ∀ peer ∈ peers.modify i f, peer.Unserved := by
  intro peer hpeer
  obtain ⟨j, hj⟩ := List.mem_iff_getElem?.mp hpeer
  rw [List.getElem?_modify] at hj
  obtain ⟨before, hbefore, rfl⟩ := Option.map_eq_some_iff.mp hj
  have hunserved := h before (List.mem_of_getElem? hbefore)
  split_ifs
  · exact hf before hunserved
  · exact hunserved

theorem unserved_step (hs : Sound σ d) (haway : ∀ peer ∈ d.turnedAway, peer.Unserved)
    (e : Event) : ∀ peer ∈ (d.step σ e).turnedAway, peer.Unserved := by
  rcases step_cases hs.isLinked e with heq | hhappens
  · rwa [heq]
  generalize d.step σ e = d' at hhappens
  cases hhappens with
  | @accepts a started s' =>
    intro peer hpeer
    dsimp only at hpeer
    split_ifs at hpeer
    · rcases List.mem_append.mp hpeer with hpeer | hpeer
      · exact haway peer hpeer
      · obtain rfl := List.mem_singleton.mp hpeer
        exact Peer.unserved_start started
    · exact haway peer hpeer
  | fails => exact unserved_modify haway (fun _ => .afterFailure) _
  | dies => exact unserved_modify haway (fun _ => .afterKill) _
  | _ => exact haway

theorem unserved_run {es : List Event} (hs : Sound σ d)
    (hwell : Runs.Always (Deployment.step σ) WellRun d es)
    (haway : ∀ peer ∈ d.turnedAway, peer.Unserved) :
    ∀ peer ∈ (Runs.run (Deployment.step σ) d es).turnedAway, peer.Unserved := by
  induction es generalizing d with
  | nil => exact haway
  | cons e es ih => exact ih (hs.step hwell.1) hwell.2 (unserved_step hs haway e)

/-- Whenever a worker has printed `READY` and lives, the model holds it registered with its boot
id, and the resource that it built from its arguments is stored but for its markers, and
current. -/
theorem ready_worker_is_current {es : List Event}
    (hwell : Runs.Always (Deployment.step σ) WellRun {} es) {cfg : WorkerConfig}
    (hready : .worker cfg .ready ∈ (Runs.run (Deployment.step σ) {} es).peers) :
    let m := (Runs.run (Deployment.step σ) {} es).threads.model
    m.isFreshBoot cfg.workerId cfg.bootId = true ∧
      m.resources.find? cfg.resourceId = some cfg.received ∧ m.isCurrent cfg.received = true := by
  have hs := sound_init.run hwell
  rcases List.mem_append.mp hready with hserved | haway
  · obtain ⟨link, hmem, hpeer⟩ := List.mem_map.mp hserved
    obtain ⟨c, hl⟩ := List.mem_iff_getElem?.mp hmem
    have hworks := hs.ready c link cfg hl hpeer
    obtain ⟨h, -, -, hok⟩ := hs.open_of_works hl hpeer hworks
    have hpublished := (hok.inStep cfg .ready hpeer hworks).published
    exact ⟨isFreshBoot_iff.mpr hpublished.registered.source, hpublished.stored,
      isCurrent_resource hpublished.registered⟩
  · -- Who was turned away has no `READY` to print.
    have hnone := unserved_run sound_init hwell (by simp) _ haway
    simp [Peer.Unserved, WorkerStage.isOver] at hnone

def smallWorker : WorkerConfig := ⟨⟨1⟩, ⟨100⟩, ⟨1⟩, ⟨1⟩, 16, 8⟩

def requestAnswered : List Event :=
  [.workerSends 0, .deliver 0, .work 0 true, .send 0 true, .workerReceives 0]

def workerStarts : List Event :=
  [.accept .go none, .accept .connect none, .accept .go none, .accept .go (some smallWorker)] ++
    (requestAnswered ++ requestAnswered ++ requestAnswered)

theorem workerStarts_wellRun :
    Runs.Always (Deployment.step (SortBy.stable _)) WellRun {} workerStarts := by
  refine Runs.always_append.mpr ⟨⟨trivial, trivial, trivial, fun c link hl => ?_, trivial⟩, ?_⟩
  · exact absurd (show ([] : List Link)[c]? = some link from hl) (by simp)
  · refine Runs.always_iff.mpr fun before e after heq => ?_
    have hmem : e ∈ requestAnswered ++ requestAnswered ++ requestAnswered :=
      heq ▸ List.mem_append_right _ List.mem_cons_self
    simp only [List.mem_append, or_self, requestAnswered] at hmem
    generalize Runs.run _ _ before = d
    fin_cases hmem <;> trivial

theorem workerStarts_ready :
    ((Runs.run (Deployment.step (SortBy.stable _)) {} workerStarts).links[0]?).map Link.peer =
      some (.worker smallWorker .ready) := by
  decide +kernel

theorem ready_worker_is_current_workerStarts :
    let m := (Runs.run (Deployment.step (SortBy.stable _)) {} workerStarts).threads.model
    m.isFreshBoot smallWorker.workerId smallWorker.bootId = true ∧
      m.resources.find? smallWorker.resourceId = some smallWorker.received ∧
      m.isCurrent smallWorker.received = true := by
  obtain ⟨link, hl, hready⟩ := Option.map_eq_some_iff.mp workerStarts_ready
  exact ready_worker_is_current workerStarts_wellRun (hready ▸ peer_mem_peers hl)

/-- While the flag is up, who is alive is named by an open connection. -/
def Live (s : Threads) : Prop :=
  s.running = true → ∀ w, s.model.workerAlive w = true →
    w.valid = true ∧ ∃ c, worker? s.handlers c = some w

theorem live_init : Live {} := fun _ w halive => absurd halive (by simp [workerAlive])

theorem Live.keep {s : Threads} (hlive : Live s) {h' : Handler} (hc : s.handlers[c]? = some h)
    (hhandlers : s'.handlers = s.handlers.set c h') (hrunning : s'.running = s.running)
    (hmodel : s'.model.sources = s.model.sources) (hconnected : h'.connected = h.connected) :
    Live s' := by
  intro hup w halive
  rw [workerAlive_congr hmodel] at halive
  obtain ⟨hvalid, c', hc'⟩ := hlive (hrunning ▸ hup) w halive
  refine ⟨hvalid, c', ?_⟩
  rw [hhandlers, Threads.worker?_set_same hc hconnected]
  exact hc'

theorem Live.handler (hlive : Live d.threads) (hs : Sound σ d)
    (hmoves : Moves σ d.threads (.handler c e) s') : Live s' := by
  cases hmoves with
  | raises => exact hlive
  | ends => exact fun hup => absurd hup Bool.false_ne_true
  | receives hc hstage | loses hc hstage | isAskedToEnd hc hstage | cannotRead hc hstage
  | goesOn hc hstage | givesUp hc hstage | closes hc hstage | returns hc hstage =>
    refine hlive.keep hc rfl rfl rfl ?_
    simp only [Handler.connected, hstage]
  | @answers _ h msg hc hstage _ _ saved m _ _ hdispatch =>
    have hsources := Coordinator.sources_dispatch σ d.threads.model msg saved
    rw [hdispatch] at hsources
    exact hlive.keep hc rfl rfl hsources (by simp only [Handler.connected, hstage])
  | @buries _ h hc hstage =>
    intro hup w halive
    have hnot : w ≠ h.curWorker ∧ d.threads.model.workerAlive w = true := by
      dsimp only at halive
      split_ifs at halive with hvalid
      · exact (workerAlive_markWorkerDead _ _ _).mp halive
      · refine ⟨?_, halive⟩
        rintro rfl
        exact hvalid (hlive hup _ halive).1
    obtain ⟨hvalid, c', hc'⟩ := hlive hup w hnot.2
    refine ⟨hvalid, c', ?_⟩
    -- The connection that names the worker is another one.
    have hne : c' ≠ c := by
      rintro rfl
      rw [worker?, hc, Option.bind_some, Handler.connected, hstage] at hc'
      exact hnot.1 (Option.some.inj hc').symm
    exact (Threads.worker?_set hc _ c').trans ((if_neg hne).trans hc')
  | @registers _ h msg hc hstage htype w b rest hread =>
    intro hup w' halive
    obtain ⟨link, hl, hok, -⟩ := hs.linked c h hc
    have hok := hok (by rw [Handler.connected, hstage]; rfl)
    have hmay := hok.sends msg (by rw [hstage]; exact List.mem_cons_self)
    obtain ⟨cfg, stage, hpeer, -, rfl, -⟩ := registration_of_maySend hmay htype hread
    have hnow : ∀ c', worker? (d.threads.setHandler c
        ⟨.replying (Threads.replyTo msg .register
          (if (d.threads.model.registerWorker cfg.workerId b).2 then Coordinator.okPayload
            else Coordinator.rejectPayload)) .goOn, cfg.workerId⟩).handlers c' =
          if c' = c then some cfg.workerId else worker? d.threads.handlers c' := fun c' =>
      Threads.worker?_set hc _ c'
    have hbefore : w'.valid = true ∧
        (w' = cfg.workerId ∨ d.threads.model.workerAlive w' = true) := by
      rcases registerWorker_eq d.threads.model cfg.workerId b with heq | ⟨hvalid, heq⟩
      · rw [heq] at halive
        exact ⟨(hlive hup w' halive).1, Or.inr halive⟩
      · rcases (workerAlive_registerWorker (by rw [heq]) w').mp halive with rfl | halive
        · exact ⟨hvalid, Or.inl rfl⟩
        · exact ⟨(hlive hup w' halive).1, Or.inr halive⟩
    refine ⟨hbefore.1, ?_⟩
    rcases hbefore.2 with rfl | halive
    · exact ⟨c, (hnow c).trans (if_pos rfl)⟩
    · obtain ⟨-, c', hc'⟩ := hlive hup w' halive
      rcases eq_or_ne c' c with rfl | hne
      · -- The connection has named nobody before, or the same worker.
        rw [worker?, hc, Option.bind_some, Handler.connected, hstage] at hc'
        obtain rfl := Option.some.inj hc'
        have hname := hok.names
        rw [hpeer] at hname
        rcases hname with hdefault | hname
        · rw [hdefault] at hbefore
          exact absurd hbefore.1 Bool.false_ne_true
        · exact ⟨c', (hnow c').trans ((if_pos rfl).trans (congrArg some hname.symm))⟩
      · exact ⟨c', (hnow c').trans ((if_neg hne).trans hc')⟩

theorem Live.of_serves {s : Threads} (hlive : Live s) (h' : Handler)
    (hrunning : s'.running = s.running) (hmodel : s'.model = s.model)
    (hhandlers : s'.handlers = s.handlers ++ [h']) : Live s' := by
  intro hup w halive
  obtain ⟨hvalid, c', hc'⟩ := hlive (hrunning ▸ hup) w (hmodel ▸ halive)
  refine ⟨hvalid, c', ?_⟩
  obtain ⟨h, hc, -⟩ := Option.bind_eq_some_iff.mp hc'
  rw [worker?, hhandlers, List.getElem?_append_left (List.getElem?_eq_some_iff.mp hc).1]
  exact hc'

theorem Live.step (hlive : Live d.threads) (hs : Sound σ d) (e : Event) :
    Live (d.step σ e).threads := by
  rcases step_cases hs.isLinked e with heq | hhappens
  · rwa [heq]
  generalize d.step σ e = d' at hhappens
  cases hhappens with
  | acts _ hmoves => exact hlive.handler hs hmoves
  | accepts _ hmoves =>
    cases hmoves with
    | serves => exact hlive.of_serves {} rfl rfl rfl
    | _ => exact hlive
  | owns _ hmoves =>
    have hin : Threads.InOrder d.threads := Threads.Reachable.inOrder hs.reach
    cases hmoves with
    | stops => exact fun hup => absurd hup Bool.false_ne_true
    | hasJoined howner =>
      have hdown := hin.lowered (by simp [howner])
      exact fun hup => absurd (hdown.symm.trans hup) Bool.false_ne_true
    | _ => exact hlive
  | workerSends | workerReceives | clientSends | breaks | ends | fails | dies => exact hlive

theorem live_run {es : List Event} (hwell : Runs.Always (Deployment.step σ) WellRun d es)
    (hs : Sound σ d) (hlive : Live d.threads) :
    Live (Runs.run (Deployment.step σ) d es).threads := by
  induction es generalizing d with
  | nil => exact hlive
  | cons e es ih => exact ih hwell.2 (hs.step hwell.1) (hlive.step hs e)

theorem curWorker_of_connected {w : WorkerId} (hconnected : h.connected = some w) :
    h.curWorker = w := by
  unfold Handler.connected at hconnected
  cases hstage : h.stage <;> rw [hstage] at hconnected <;>
    first | exact Option.some.inj hconnected | cases hconnected

theorem worker_of_name {m : CapacityModel} {w : WorkerId} (hok : LinkOk m h link)
    (hconnected : h.connected = some w) (hvalid : w.valid = true) :
    ∃ cfg stage, link.peer = .worker cfg stage ∧ cfg.workerId = w := by
  have hnames := hok.names
  rw [curWorker_of_connected hconnected] at hnames
  have hnot : w ≠ default := by
    rintro rfl
    cases hvalid
  cases hpeer : link.peer with
  | client =>
    rw [hpeer] at hnames
    exact absurd hnames hnot
  | worker cfg stage =>
    rw [hpeer] at hnames
    exact ⟨cfg, stage, rfl, (hnames.resolve_left hnot).symm⟩

/-- While the coordinator runs, each worker that the model holds alive has an open connection
with the process of that worker at its other end. -/
theorem live_worker_is_connected {es : List Event}
    (hwell : Runs.Always (Deployment.step σ) WellRun {} es)
    (hrunning : (Runs.run (Deployment.step σ) {} es).threads.running = true) {w : WorkerId}
    (halive : (Runs.run (Deployment.step σ) {} es).threads.model.workerAlive w = true) :
    ∃ (c : ConnectionId) (link : Link) (cfg : WorkerConfig) (stage : WorkerStage),
      worker? (Runs.run (Deployment.step σ) {} es).threads.handlers c = some w ∧
        (Runs.run (Deployment.step σ) {} es).links[c]? = some link ∧
        link.peer = .worker cfg stage ∧ cfg.workerId = w := by
  have hs := sound_init.run hwell
  obtain ⟨hvalid, c, hc⟩ := live_run hwell sound_init live_init hrunning w halive
  obtain ⟨h, hh, hconnected⟩ := Option.bind_eq_some_iff.mp hc
  obtain ⟨link, hl, hok, -⟩ := hs.linked c h hh
  have hname := hok (by rw [hconnected]; rfl)
  obtain ⟨cfg, stage, hpeer, hself⟩ := worker_of_name hname hconnected hvalid
  exact ⟨c, link, cfg, stage, hc, hl, hpeer, hself⟩

theorem workerStarts_alive :
    (Runs.run (Deployment.step (SortBy.stable _)) {} workerStarts).threads.running = true ∧
      (Runs.run (Deployment.step (SortBy.stable _)) {} workerStarts).threads.model.workerAlive
        smallWorker.workerId = true := by
  decide +kernel

theorem live_worker_is_connected_workerStarts :
    ∃ (c : ConnectionId) (link : Link) (cfg : WorkerConfig) (stage : WorkerStage),
      worker? (Runs.run (Deployment.step (SortBy.stable _)) {} workerStarts).threads.handlers c =
          some smallWorker.workerId ∧
        (Runs.run (Deployment.step (SortBy.stable _)) {} workerStarts).links[c]? = some link ∧
        link.peer = .worker cfg stage ∧ cfg.workerId = smallWorker.workerId :=
  live_worker_is_connected workerStarts_wellRun workerStarts_alive.1 workerStarts_alive.2

end Deployment

end CapacityFabric
