import CapacityFabric.Coordinator.Requests
import CapacityFabric.Coordinator.Stopping

/-!
# The threads refine the coordinator

Where the step system of the coordinator handles a frame at once, a handler takes several
actions, and the other threads act between them.  What the threads reach nevertheless agrees
with a state of the step system: a frame counts as handled when the model is asked, the end of
the service when the flag is lowered, and `stop()` when it has joined the accept thread.
-/

namespace CapacityFabric

/-- The `curWorker` of a handler whose connection counts as open. -/
def Handler.connected (h : Handler) : Option WorkerId :=
  match h.stage with
  | .closing | .returned | .finished => none
  | _ => some h.curWorker

namespace Threads

variable {σ : EventSort} {s s' : Threads} {t t' : Coordinator} {c : ConnectionId}

def worker? (handlers : List Handler) (c : ConnectionId) : Option WorkerId :=
  (handlers[c]?).bind Handler.connected

/-- What the accept thread has seen of the flag where it stands. -/
def StillAccepts (s : Threads) (t : Coordinator) : Prop :=
  match s.accepting with
  | .waiting | .accepted | .counted => t.accepting = true
  | .testing | .failed => s.running = true → t.accepting = true
  | .finished => True

/-- The state of the step system that the threads stand for. -/
structure Refines (s : Threads) (t : Coordinator) : Prop where
  model : t.model = s.model
  terminated : t.terminated = s.terminated
  connections : s.terminated = false → ∀ c, t.connections.find? c = worker? s.handlers c
  running : s.terminated = false → s.owner ≠ .closingListener → s.owner ≠ .joiningAccept →
    t.running = s.running
  accepting : s.terminated = false → StillAccepts s t

theorem refines_init : Refines {} {} :=
  ⟨rfl, rfl, fun _ _ => rfl, fun _ _ _ => rfl, fun _ _ => rfl⟩

theorem worker?_set {handlers : List Handler} {h : Handler} (hc : handlers[c]? = some h)
    (h' : Handler) (c' : ConnectionId) :
    worker? (handlers.set c h') c' = if c' = c then h'.connected else worker? handlers c' := by
  have hlt := (List.getElem?_eq_some_iff.mp hc).1
  unfold worker?
  split_ifs with heq
  · rw [heq, List.getElem?_set_self hlt]
    rfl
  · rw [List.getElem?_set_ne (Ne.symm heq)]

theorem worker?_set_same {handlers : List Handler} {h h' : Handler} (hc : handlers[c]? = some h)
    (hsame : h'.connected = h.connected) (c' : ConnectionId) :
    worker? (handlers.set c h') c' = worker? handlers c' := by
  rw [worker?_set hc]
  split_ifs with heq
  · rw [heq, hsame, worker?, hc]
    rfl
  · rfl

theorem Refines.length_connections_le (hr : Refines s t) (hlives : s.terminated = false) :
    t.connections.entries.length ≤ unfinished s.handlers := by
  refine OrderedMap.length_entries_le_countP _ fun c w hfind => ?_
  rw [hr.connections hlives, worker?, Option.bind_eq_some_iff] at hfind
  obtain ⟨h, hc, hconnected⟩ := hfind
  refine ⟨h, hc, ?_⟩
  unfold Handler.connected at hconnected
  unfold Handler.isFinished
  cases hstage : h.stage <;> simp_all

theorem InOrder.worker?_of_joined {n : ℕ} (hs : InOrder s) (howner : s.owner = .joiningHandlers n)
    (hn : s.handlers[n]? = none) : worker? s.handlers c = none := by
  cases hc : s.handlers[c]? with
  | none => rw [worker?, hc, Option.bind_none]
  | some h =>
    have hfinished : h.isFinished = true := by
      by_contra hno
      exact hs.not_joined hc (Bool.not_eq_true _ ▸ hno) howner hn
    rw [worker?, hc, Option.bind_some]
    unfold Handler.isFinished at hfinished
    unfold Handler.connected
    cases hstage : h.stage <;> simp_all

def Follows (σ : EventSort) (t t' : Coordinator) : Prop :=
  t' = t ∨ ∃ e, t' = Coordinator.step σ t e

theorem Refines.serves (hr : Refines s t) (hs : InOrder s) (hlives : s.terminated = false)
    (haccepting : s.accepting = .counted) :
    Refines { s with accepting := .testing, handlers := s.handlers ++ [{}] }
      (Coordinator.step σ t (.accept s.handlers.length)) := by
  have hopen : t.accepting = true := by
    have := hr.accepting hlives
    rwa [StillAccepts, haccepting] at this
  have hnew : worker? s.handlers s.handlers.length = none := by
    rw [worker?, List.getElem?_eq_none le_rfl, Option.bind_none]
  have hfresh : t.connections.contains s.handlers.length = false := by
    rw [OrderedMap.contains, hr.connections hlives, hnew, Option.isSome_none]
  have hroom : t.connections.entries.length < kMaxConcurrentConnections := by
    have hactive := hs.active_eq
    rw [if_pos haccepting] at hactive
    have := hr.length_connections_le hlives
    have := hs.active_le
    omega
  have hstep : Coordinator.step σ t (.accept s.handlers.length) =
      { t with
        connections := t.connections.insert s.handlers.length default
        accepting := t.running } := by
    simp [Coordinator.step, hopen, hfresh, not_le.mpr hroom]
  rw [hstep]
  refine ⟨hr.model, hr.terminated, fun _ c => ?_, hr.running, fun _ hup => ?_⟩
  · rw [OrderedMap.find?_insert, hr.connections hlives]
    unfold worker?
    split_ifs with hc
    · rw [hc, List.getElem?_concat_length]
      rfl
    · rcases lt_or_gt_of_ne hc with hlt | hgt
      · rw [List.getElem?_append_left hlt]
      · rw [List.getElem?_eq_none hgt.le, List.getElem?_eq_none (by simpa using hgt)]
  · -- The flag is up, so `stop()` has not been called.
    have howner : s.owner = .outside := by
      by_contra howner
      exact Bool.false_ne_true ((hs.lowered howner).symm.trans hup)
    exact (hr.running hlives (by simp [howner]) (by simp [howner])).trans hup

theorem Refines.accept {e : AcceptEvent} (hr : Refines s t) (hs : InOrder s)
    (hlives : s.terminated = false) (hmoves : Moves σ s (.accept e) s') :
    ∃ t', Follows σ t t' ∧ Refines s' t' := by
  have haccepts := hr.accepting hlives
  unfold StillAccepts at haccepts
  -- All moves but the last are of the accept thread alone.
  have hstutter : ∀ accepting active, (StillAccepts { s with accepting, active } t) →
      ∃ t', Follows σ t t' ∧ Refines { s with accepting, active } t' := fun _ _ h =>
    ⟨t, Or.inl rfl, hr.model, hr.terminated, hr.connections, hr.running, fun _ => h⟩
  cases hmoves with
  | serves haccepting => exact ⟨_, Or.inr ⟨_, rfl⟩, hr.serves hs hlives haccepting⟩
  | connects haccepting | counts haccepting =>
    rw [haccepting] at haccepts
    exact hstutter _ _ haccepts
  | failsToAccept haccepting | refuses haccepting =>
    rw [haccepting] at haccepts
    exact hstutter _ _ fun _ => haccepts
  | waits haccepting hrunning =>
    rw [haccepting] at haccepts
    exact hstutter _ _ (haccepts hrunning)
  | retries haccepting hrunning =>
    rw [haccepting] at haccepts
    exact hstutter _ _ haccepts
  | leaves => exact hstutter _ _ trivial

theorem Refines.owner {e : OwnerEvent} (hr : Refines s t) (hs : InOrder s)
    (hlives : s.terminated = false) (hmoves : Moves σ s (.owner e) s') :
    ∃ t', Follows σ t t' ∧ Refines s' t' := by
  have haccepts := hr.accepting hlives
  unfold StillAccepts at haccepts
  cases hmoves with
  | stops howner hrunning =>
    refine ⟨t, Or.inl rfl, hr.model, hr.terminated, hr.connections,
      fun _ h => absurd rfl h, fun _ => ?_⟩
    unfold StillAccepts
    dsimp only
    split at haccepts <;> simp_all
  | closesListener howner =>
    exact ⟨t, Or.inl rfl, hr.model, hr.terminated, hr.connections,
      fun _ _ h => absurd rfl h, hr.accepting⟩
  | joinsAccept howner haccepting =>
    -- Here the step system stops.
    refine ⟨_, Or.inr ⟨.stop, rfl⟩, ?_⟩
    have hlowered := hs.lowered (by simp [howner])
    unfold Coordinator.step
    dsimp only
    split_ifs with hrunning
    · exact ⟨hr.model, hr.terminated, hr.connections, fun _ _ _ => hlowered.symm, fun _ => by
        simp [StillAccepts, haccepting]⟩
    · exact ⟨hr.model, hr.terminated, hr.connections, fun _ _ _ => by
        simp [hlowered, hrunning], fun _ => by simp [StillAccepts, haccepting]⟩
  | joinsHandler howner =>
    exact ⟨t, Or.inl rfl, hr.model, hr.terminated, hr.connections,
      fun h _ _ => hr.running h (by simp [howner]) (by simp [howner]), hr.accepting⟩
  | hasJoined howner hn =>
    refine ⟨t, Or.inl rfl, hr.model, hr.terminated, fun _ c => ?_,
      fun h _ _ => hr.running h (by simp [howner]) (by simp [howner]), hr.accepting⟩
    rw [hr.connections hlives, hs.worker?_of_joined howner hn]
    rfl
  | aborts howner | destroys howner =>
    exact ⟨t, Or.inl rfl, hr.model, hr.terminated, hr.connections,
      fun h _ _ => hr.running h (by simp [howner]) (by simp [howner]), hr.accepting⟩

theorem Refines.change {h h' : Handler} (hr : Refines s t) (hlives : s.terminated = false)
    (hc : s.handlers[c]? = some h) (hhandlers : s'.handlers = s.handlers.set c h')
    (hothers : s'.terminated = s.terminated ∧ s'.accepting = s.accepting ∧ s'.owner = s.owner)
    (hmodel : t'.model = s'.model)
    (hkept : t'.terminated = t.terminated ∧ t'.accepting = t.accepting)
    (hconnections : ∀ c', t'.connections.find? c' =
      if c' = c then h'.connected else t.connections.find? c')
    (hrunning : t'.running = t.running ∧ s'.running = s.running ∨
      t'.running = false ∧ s'.running = false) : Refines s' t' where
  model := hmodel
  terminated := by rw [hkept.1, hr.terminated, hothers.1]
  connections _ c' := by
    rw [hconnections, hhandlers, worker?_set hc, hr.connections hlives]
  running _ h1 h2 := by
    rcases hrunning with ⟨ht, hs⟩ | ⟨ht, hs⟩
    · rw [ht, hs, hr.running hlives (hothers.2.2 ▸ h1) (hothers.2.2 ▸ h2)]
    · rw [ht, hs]
  accepting _ := by
    have haccepts := hr.accepting hlives
    unfold StillAccepts at haccepts ⊢
    rw [hothers.2.1, hkept.2]
    cases haccepting : s.accepting with
    | testing | failed =>
      rw [haccepting] at haccepts
      intro hup
      rcases hrunning with ⟨-, hs⟩ | ⟨-, hs⟩
      · exact haccepts (hs ▸ hup)
      · exact absurd (hs.symm.trans hup) Bool.false_ne_true
    | waiting | accepted | counted =>
      rw [haccepting] at haccepts
      exact haccepts
    | finished => trivial

theorem Refines.handler {e : HandlerEvent} (hr : Refines s t)
    (hlives : s.terminated = false) (hmoves : Moves σ s (.handler c e) s') :
    ∃ t', Follows σ t t' ∧ Refines s' t' := by
  have hopen : ∀ {h : Handler} {w : Option WorkerId}, s.handlers[c]? = some h →
      h.connected = w → t.connections.find? c = w := fun hc hw => by
    rw [hr.connections hlives, worker?, hc, Option.bind_some, hw]
  have hsame : ∀ {w : Option WorkerId}, t.connections.find? c = w → ∀ c',
      t.connections.find? c' = if c' = c then w else t.connections.find? c' := fun hw c' => by
    split_ifs with heq
    · rw [heq, hw]
    · rfl
  cases hmoves with
  | receives hc hstage | loses hc hstage | isAskedToEnd hc hstage | cannotRead hc hstage
  | goesOn hc hstage | givesUp hc hstage | closes hc hstage | returns hc hstage =>
    refine ⟨t, Or.inl rfl, hr.change hlives hc rfl ⟨rfl, rfl, rfl⟩ hr.model ⟨rfl, rfl⟩
      (hsame (hopen hc ?_)) (Or.inl ⟨rfl, rfl⟩)⟩
    rw [Handler.connected, hstage]
    rfl
  | @registers _ h msg hc hstage htype w b rest hread saved =>
    have hfind := hopen hc (w := some h.curWorker) (by rw [Handler.connected, hstage])
    refine ⟨_, Or.inr ⟨.frame c msg true saved, rfl⟩, ?_⟩
    have hstep : Coordinator.step σ t (.frame c msg true saved) =
        { t with
          connections := t.connections.insert c w
          model := (t.model.registerWorker w b).1 } := by
      simp only [Coordinator.step, hfind, Coordinator.handleFrame, htype, hread]
    rw [hstep]
    refine hr.change hlives hc rfl ⟨rfl, rfl, rfl⟩ ?_ ⟨rfl, rfl⟩
      (fun c' => OrderedMap.find?_insert _ _ _ _) (Or.inl ⟨rfl, rfl⟩)
    rw [hr.model]
  | @answers _ h msg hc hstage hshutdown hregister saved m type payload hdispatch =>
    have hfind := hopen hc (w := some h.curWorker) (by rw [Handler.connected, hstage])
    rw [← hr.model] at hdispatch
    have hserved : ¬Coordinator.Fails t.model msg := fun hfails => by
      obtain ⟨e, he⟩ := (Coordinator.fails_iff σ t.model msg saved).mp hfails
      rw [hdispatch] at he
      exact Coordinator.Answer.noConfusion he
    refine ⟨_, Or.inr ⟨.frame c msg true saved, rfl⟩, ?_⟩
    have hstep : Coordinator.step σ t (.frame c msg true saved) = { t with model := m } := by
      simp only [Coordinator.step, hfind]
      rw [Coordinator.handleFrame_of_answered σ t c true saved hregister hshutdown hserved,
        if_pos rfl, hdispatch]
    rw [hstep]
    refine hr.change hlives hc rfl ⟨rfl, rfl, rfl⟩ rfl ⟨rfl, rfl⟩ (hsame ?_) (Or.inl ⟨rfl, rfl⟩)
    exact hfind
  | @raises _ h msg hc hstage hshutdown hregister saved m e hdispatch =>
    have hfind := hopen hc (w := some h.curWorker) (by rw [Handler.connected, hstage])
    rw [← hr.model] at hdispatch
    have hfails : Coordinator.Fails t.model msg :=
      (Coordinator.fails_iff σ t.model msg saved).mpr ⟨e, by rw [hdispatch]⟩
    refine ⟨_, Or.inr ⟨.frame c msg true saved, rfl⟩, ?_⟩
    have hstep : Coordinator.step σ t (.frame c msg true saved) = t.terminate := by
      simp only [Coordinator.step, hfind]
      exact Coordinator.handleFrame_of_fails σ t c true saved hregister hshutdown hfails
    rw [hstep]
    have hended : ∀ {P : Prop}, true = false → P := fun h => absurd h Bool.true_eq_false.mp
    exact ⟨hr.model, rfl, hended, hended, hended⟩
  | @buries _ h hc hstage saved =>
    have hfind := hopen hc (w := some h.curWorker) (by rw [Handler.connected, hstage])
    refine ⟨_, Or.inr ⟨.lost c, rfl⟩, ?_⟩
    have hstep : Coordinator.step σ t (.lost c) = t.handleLost c h.curWorker := by
      simp only [Coordinator.step, hfind]
    rw [hstep]
    refine hr.change hlives hc rfl ⟨rfl, rfl, rfl⟩ ?_ ⟨rfl, rfl⟩
      (fun c' => OrderedMap.find?_erase _ _ _) (Or.inl ⟨rfl, rfl⟩)
    simp only [Coordinator.handleLost, hr.model]
  | @ends _ h hc hstage =>
    have hfind := hopen hc (w := some h.curWorker) (by rw [Handler.connected, hstage])
    refine ⟨_, Or.inr ⟨.frame c ⟨.shutdown, 0, []⟩ true true, rfl⟩, ?_⟩
    have hstep : Coordinator.step σ t (.frame c ⟨.shutdown, 0, []⟩ true true) =
        { t.close c with running := false } := by
      simp only [Coordinator.step, hfind, Coordinator.handleFrame]
    rw [hstep]
    exact hr.change hlives hc rfl ⟨rfl, rfl, rfl⟩ hr.model ⟨rfl, rfl⟩
      (fun c' => OrderedMap.find?_erase _ _ _) (Or.inr ⟨rfl, rfl⟩)

theorem terminated_of_isOver (hover : s.isOver = false) : s.terminated = false := by
  unfold isOver at hover
  exact (Bool.or_eq_false_iff.mp (Bool.or_eq_false_iff.mp hover).1).1

/-- Whatever state the threads reach in their interleaving, the step system that handles each
frame at once reaches one with the same model, the same open connections and the same flag. -/
theorem Reachable.refines (h : Reachable σ s) :
    ∃ t, Runs.Reachable (Coordinator.step σ) {} t ∧ Refines s t := by
  induction h with
  | init => exact ⟨{}, .init, refines_init⟩
  | @step s e hs ih =>
    obtain ⟨t, ht, hr⟩ := ih
    rcases step_cases (σ := σ) s e with heq | ⟨hover, hmoves⟩
    · rw [heq]
      exact ⟨t, ht, hr⟩
    · have hlives := terminated_of_isOver hover
      have hin : InOrder s := Reachable.inOrder hs
      obtain ⟨t', hfollows, hr'⟩ :
          ∃ t', Follows σ t t' ∧ Refines (Threads.step σ s e) t' := by
        cases e with
        | accept => exact hr.accept hin hlives hmoves
        | handler => exact hr.handler hlives hmoves
        | owner => exact hr.owner hin hlives hmoves
      refine ⟨t', ?_, hr'⟩
      rcases hfollows with rfl | ⟨e', rfl⟩
      · exact ht
      · exact ht.step e'

theorem refines_servedThenStopped :
    ∃ t, Runs.Reachable (Coordinator.step (SortBy.stable _)) {} t ∧ Refines servedThenStopped t :=
  Reachable.refines servedThenStopped_reachable

end Threads

end CapacityFabric
