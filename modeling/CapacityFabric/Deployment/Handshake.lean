import CapacityFabric.Deployment.Acceptance

/-!
# The way to `READY`

A worker whose connection does not fail is at most fifteen actions away from `READY`, all of
them its own or those of its handler, wherever the other threads and processes stand.
-/

namespace CapacityFabric

open CapacityModel WorkerConfig
open Threads (HandlerEvent Moves replyTo)

/-- The actions that are left before the request of the worker, up to `READY`. -/
def WorkerRequest.left : WorkerRequest → ℕ
  | .hello => 15
  | .register => 10
  | .publishResource => 5

theorem WorkerRequest.five_le_left (r : WorkerRequest) : 5 ≤ r.left := by
  cases r <;> decide

def actionsLeft (h : Handler) (link : Link) : ℕ :=
  match link.peer, h.stage, link.requests with
  | .worker _ (.aboutToSend r), _, _ => r.left
  | .worker _ (.awaiting r), _, _ :: _ => r.left - 1
  | .worker _ (.awaiting r), .received _, [] => r.left - 2
  | .worker _ (.awaiting r), .replying .., [] => r.left - 3
  | .worker _ (.awaiting r), _, [] => r.left - 4
  | _, _, _ => 0

theorem exists_answer {σ : EventSort} {s : Threads} {c : ConnectionId} {h : Handler}
    {cfg : WorkerConfig} {r : WorkerRequest} (hc : s.handlers[c]? = some h)
    (hstage : h.stage = .received (cfg.request r)) :
    ∃ s' h' reply next, Moves σ s (.handler c (.work true)) s' ∧ s'.handlers[c]? = some h' ∧
      h'.stage = .replying reply next ∧ s'.running = s.running ∧ s'.isOver = s.isOver := by
  have hset : ∀ h'' : Handler, (s.handlers.set c h'')[c]? = some h'' := fun _ =>
    List.getElem?_set_self (List.getElem?_eq_some_iff.mp hc).1
  cases r with
  | hello => exact ⟨_, _, _, _, .answers hc hstage nofun nofun rfl, hset _, rfl, rfl, rfl⟩
  | register =>
    exact ⟨_, _, _, _, .registers hc hstage rfl (readRegistration_request cfg) true, hset _, rfl,
      rfl, rfl⟩
  | publishResource =>
    exact ⟨_, _, _, _, .answers hc hstage nofun nofun (dispatch_publishResource cfg true),
      hset _, rfl, rfl, rfl⟩

namespace Deployment

variable {σ : EventSort} {d : Deployment} {c : ConnectionId} {h : Handler} {link : Link}
  {cfg : WorkerConfig} {stage : WorkerStage}

def ownEvents (c : ConnectionId) : List Event :=
  [.workerSends c, .deliver c, .work c true, .send c true, .workerReceives c]

theorem wellRun_own {e : Event} (he : e ∈ ownEvents c) :
    d.WellRun e ∧ e ≠ .breaks c ∧ e ≠ .ends c := by
  simp only [ownEvents, List.mem_cons, List.not_mem_nil, or_false] at he
  rcases he with rfl | rfl | rfl | rfl | rfl <;> exact ⟨trivial, by simp, by simp⟩

/-- The worker `cfg` at the connection `c` of a running coordinator, `n` actions from `READY`. -/
structure OnTheWay (σ : EventSort) (c : ConnectionId) (cfg : WorkerConfig) (n : ℕ)
    (d : Deployment) : Prop where
  faithful : Faithful σ c d
  running : d.threads.running = true
  lives : d.threads.isOver = false
  away : ∃ h link stage, d.threads.handlers[c]? = some h ∧ d.links[c]? = some link ∧
    link.peer = .worker cfg stage ∧ actionsLeft h link = n

theorem OnTheWay.of_step {n : ℕ} {e : Event} {d' : Deployment} (hd : OnTheWay σ c cfg n d)
    (he : e ∈ ownEvents c) (heq : d.step σ e = d') (hrunning : d'.threads.running = true)
    (hlives : d'.threads.isOver = false) (hc : d'.threads.handlers[c]? = some h)
    (hl : d'.links[c]? = some link) (hpeer : link.peer = .worker cfg stage)
    (hcloser : actionsLeft h link < n) :
    ∃ e ∈ ownEvents c, ∃ n' < n, OnTheWay σ c cfg n' (d.step σ e) := by
  have hwell := wellRun_own (d := d) he
  refine ⟨e, he, _, hcloser, hd.faithful.step hwell.1 hd.running hwell.2, ?_, ?_, ?_⟩
  · rwa [heq]
  · rwa [heq]
  · rw [heq]
    exact ⟨h, link, stage, hc, hl, hpeer, rfl⟩

/-- Wherever the worker stands, an action of its own or of its handler brings it closer. -/
theorem OnTheWay.exists_closer {n : ℕ} (hd : OnTheWay σ c cfg n d) (hids : cfg.HasIds)
    (hnot : n ≠ 0) : ∃ e ∈ ownEvents c, ∃ n' < n, OnTheWay σ c cfg n' (d.step σ e) := by
  obtain ⟨h₀, link, stage, hc₀, hl, hpeer, rfl⟩ := hd.away
  have hworks := hd.faithful.unbroken link cfg stage hl hpeer hids
  obtain ⟨h, hc, hopen, hok⟩ := hd.faithful.sound.open_of_works hl hpeer hworks
  obtain rfl := Option.some.inj (hc.symm.trans hc₀)
  have hgranted := hd.faithful.granting.granted hd.running c h link cfg stage hc hl hpeer hids hopen
  have hin := hok.inStep cfg stage hpeer hworks
  have hset : ∀ link' : Link, (d.links.set c link')[c]? = some link' := fun _ =>
    List.getElem?_set_self (List.getElem?_eq_some_iff.mp hl).1
  have hset' : ∀ h' : Handler, (d.threads.handlers.set c h')[c]? = some h' := fun _ =>
    List.getElem?_set_self (List.getElem?_eq_some_iff.mp hc).1
  obtain ⟨peer, requests, replies, broken⟩ := link
  obtain ⟨hstage, w⟩ := h
  obtain rfl : peer = _ := hpeer
  obtain rfl : broken = false := hworks
  cases hin with
  | @aboutToSend r =>
    have hleft := r.five_le_left
    have heq : d.step σ (.workerSends c) =
        d.setLink c ⟨.worker cfg (.awaiting r), [cfg.request r], [], false⟩ := by
      simp [step, workerSendsStep, hl]
    refine hd.of_step (e := .workerSends c) (by simp [ownEvents]) heq hd.running hd.lives hc
      (hset _) rfl ?_
    change r.left - 1 < r.left
    omega
  | @sent r =>
    have hleft := r.five_le_left
    have hmoves := Moves.receives (σ := σ) hc rfl (cfg.request r)
    have heq : d.step σ (.deliver c) =
        ⟨d.threads.setHandler c ⟨.received (cfg.request r), w⟩,
          d.links.set c ⟨.worker cfg (.awaiting r), [], [], false⟩, d.turnedAway⟩ := by
      simp [step, deliverStep, hc, hl, hd.lives, threadStep, setLink, hmoves.step_eq hd.lives]
    refine hd.of_step (e := .deliver c) (by simp [ownEvents]) heq hd.running hd.lives (hset' _)
      (hset _) rfl ?_
    change r.left - 2 < r.left - 1
    omega
  | @received r =>
    have hleft := r.five_le_left
    obtain ⟨s', h', reply, next, hmoves, hc', hstage', hrunning, hover⟩ :=
      exists_answer (σ := σ) hc rfl
    have heq : d.step σ (.work c true) = ⟨s', d.links, d.turnedAway⟩ := by
      simp only [step, threadStep, hmoves.step_eq hd.lives]
    refine hd.of_step (e := .work c true) (by simp [ownEvents]) heq (hrunning.trans hd.running)
      (hover.trans hd.lives) hc' hl rfl ?_
    obtain ⟨hstage, w'⟩ := h'
    obtain rfl : hstage = _ := hstage'
    change r.left - 3 < r.left - 2
    omega
  | @answered r reply next hnext =>
    have hleft := r.five_le_left
    have hgoes : next = .goOn ∨ next = .goOnIfSent ∧ true = true := by
      cases next with
      | goOn => exact Or.inl rfl
      | goOnIfSent => exact Or.inr ⟨rfl, rfl⟩
      | endCoordinator => exact absurd rfl hnext
    have hmoves := Moves.goesOn (σ := σ) hc rfl hgoes
    have heq : d.step σ (.send c true) =
        ⟨d.threads.setHandler c ⟨.receiving, w⟩,
          d.links.set c ⟨.worker cfg (.awaiting r), [], [reply], false⟩, d.turnedAway⟩ := by
      simp [step, sendStep, hc, hl, hd.lives, threadStep, setLink, hmoves.step_eq hd.lives]
    refine hd.of_step (e := .send c true) (by simp [ownEvents]) heq hd.running hd.lives (hset' _)
      (hset _) rfl ?_
    change r.left - 4 < r.left - 3
    omega
  | @replied r reply =>
    have hyes := hgranted.acknowledged rfl r rfl reply List.mem_cons_self
    have heq : d.step σ (.workerReceives c) = d.setLink c
        ⟨.worker cfg (WorkerStage.next r), [], [], (WorkerStage.next r).isOver⟩ := by
      simp [step, workerReceivesStep, hl, WorkerStage.receives, WorkerStage.afterFrame,
        WorkerStage.afterReply, hyes]
    refine hd.of_step (e := .workerReceives c) (by simp [ownEvents]) heq hd.running hd.lives hc
      (hset _) rfl ?_
    cases r with
    | hello => exact show 10 < 11 by decide
    | register => exact show 5 < 6 by decide
    | publishResource => exact show 0 < 1 by decide
  | ready => exact absurd rfl hnot

theorem OnTheWay.exists_run {n : ℕ} (hd : OnTheWay σ c cfg n d) (hids : cfg.HasIds) :
    ∃ es, es.length ≤ n ∧ (∀ e ∈ es, e ∈ ownEvents c) ∧
      OnTheWay σ c cfg 0 (Runs.run (Deployment.step σ) d es) := by
  induction n using Nat.strong_induction_on generalizing d with
  | _ n ih =>
    by_cases hnone : n = 0
    · subst hnone
      exact ⟨[], le_rfl, by simp, hd⟩
    · obtain ⟨e, he, n', hcloser, hd'⟩ := hd.exists_closer hids hnone
      obtain ⟨es, hlen, hown, hend⟩ := ih n' hcloser hd'
      refine ⟨e :: es, ?_, List.forall_mem_cons.mpr ⟨he, hown⟩, hend⟩
      rw [List.length_cons]
      omega

theorem actionsLeft_le (h : Handler) (link : Link) : actionsLeft h link ≤ 15 := by
  have hleft : ∀ r : WorkerRequest, r.left ≤ 15 := fun r => by cases r <;> decide
  unfold actionsLeft
  split <;> first | exact hleft _ | exact (Nat.sub_le _ _).trans (hleft _) | exact Nat.zero_le _

theorem OnTheWay.ready (hd : OnTheWay σ c cfg 0 d) (hids : cfg.HasIds) :
    ∃ link, d.links[c]? = some link ∧ link.peer = .worker cfg .ready := by
  obtain ⟨h₀, link, stage, hc₀, hl, hpeer, hnone⟩ := hd.away
  have hworks := hd.faithful.unbroken link cfg stage hl hpeer hids
  obtain ⟨h, hc, -, hok⟩ := hd.faithful.sound.open_of_works hl hpeer hworks
  obtain rfl := Option.some.inj (hc.symm.trans hc₀)
  have hin := hok.inStep cfg stage hpeer hworks
  refine ⟨link, hl, ?_⟩
  obtain ⟨peer, requests, replies, broken⟩ := link
  obtain ⟨hstage, w⟩ := h
  obtain rfl : peer = _ := hpeer
  cases hin with
  | ready => rfl
  | @aboutToSend r | @sent r | @received r | @answered r | @replied r => cases r <;> cases hnone

/-- While the coordinator runs, a worker whose connection does not fail can always get ready:
fifteen actions of the worker and of its handler are enough, whatever the others have done. -/
theorem worker_can_get_ready {es : List Event}
    (hwell : Runs.Always (Deployment.step σ) WellRun {} es)
    (hrunning : (Runs.run (Deployment.step σ) {} es).threads.running = true)
    (hlives : (Runs.run (Deployment.step σ) {} es).threads.isOver = false)
    (hfine : ∀ e ∈ es, e ≠ .breaks c ∧ e ≠ .ends c)
    (hl : (Runs.run (Deployment.step σ) {} es).links[c]? = some link)
    (hpeer : link.peer = .worker cfg stage) (hids : cfg.HasIds) :
    ∃ es', es'.length ≤ 15 ∧ (∀ e ∈ es', e ∈ ownEvents c) ∧
      ∃ link', (Runs.run (Deployment.step σ) {} (es ++ es')).links[c]? = some link' ∧
        link'.peer = .worker cfg .ready := by
  have hd := faithful_init.run hwell hrunning hfine
  obtain ⟨h, hc, -, -⟩ :=
    hd.sound.open_of_works hl hpeer (hd.unbroken link cfg stage hl hpeer hids)
  have hway : OnTheWay σ c cfg _ _ := ⟨hd, hrunning, hlives, h, link, stage, hc, hl, hpeer, rfl⟩
  obtain ⟨es', hlen, hown, hend⟩ := hway.exists_run hids
  rw [← Runs.run_append] at hend
  exact ⟨es', hlen.trans (actionsLeft_le h link), hown, hend.ready hids⟩

def workerConnects : List Event := workerStarts.take 4

theorem workerConnects_starts :
    (Runs.run (Deployment.step (SortBy.stable _)) {} workerConnects).threads.running = true ∧
      (Runs.run (Deployment.step (SortBy.stable _)) {} workerConnects).threads.isOver = false ∧
      ((Runs.run (Deployment.step (SortBy.stable _)) {} workerConnects).links[0]?).map
        Link.peer = some (.worker smallWorker (.aboutToSend .hello)) := by
  decide +kernel

theorem worker_can_get_ready_workerConnects :
    ∃ es', es'.length ≤ 15 ∧ (∀ e ∈ es', e ∈ ownEvents 0) ∧
      ∃ link', (Runs.run (Deployment.step (SortBy.stable _)) {}
          (workerConnects ++ es')).links[0]? = some link' ∧
        link'.peer = .worker smallWorker .ready := by
  obtain ⟨hrunning, hlives, hpeer⟩ := workerConnects_starts
  obtain ⟨link, hl, hpeer⟩ := Option.map_eq_some_iff.mp hpeer
  have hfine : ∀ e ∈ workerConnects, e ≠ .breaks 0 ∧ e ≠ .ends 0 := by
    intro e he
    fin_cases he <;> simp
  have hwell : Runs.Always (Deployment.step (SortBy.stable _)) WellRun {} workerConnects :=
    wellRun_take 4
  exact worker_can_get_ready hwell hrunning hlives hfine hl hpeer ⟨rfl, rfl⟩

end Deployment

end CapacityFabric
