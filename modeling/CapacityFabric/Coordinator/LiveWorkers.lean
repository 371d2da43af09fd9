import CapacityFabric.Coordinator.Registration
import CapacityFabric.Coordinator.Requests

/-!
# Connections of live workers

A worker lives by the connections on which it was registered.  A connection remembers the
last worker it named only, and only a lost connection marks that one dead.
-/

namespace CapacityFabric

namespace CapacityModel

theorem workerAlive_congr {m m' : CapacityModel} (h : m'.sources = m.sources) (w : WorkerId) :
    m'.workerAlive w = m.workerAlive w := by
  rw [workerAlive, workerAlive, h]

theorem workerAlive_registerWorker {m : CapacityModel} {w : WorkerId} {b : WorkerBootId}
    (h : (m.registerWorker w b).2 = true) (w' : WorkerId) :
    (m.registerWorker w b).1.workerAlive w' = true ↔ w' = w ∨ m.workerAlive w' = true := by
  rw [registerWorker_of_accepted h, workerAlive, workerAlive, OrderedMap.find?_insert]
  split_ifs with hw <;> simp [hw]

theorem workerAlive_markWorkerDead (m : CapacityModel) (w w' : WorkerId) :
    (m.markWorkerDead w).workerAlive w' = true ↔ w' ≠ w ∧ m.workerAlive w' = true := by
  unfold markWorkerDead workerAlive
  cases hs : m.sources.find? w with
  | none =>
    constructor
    · intro h
      refine ⟨?_, h⟩
      rintro rfl
      simp [hs] at h
    · exact And.right
  | some s =>
    simp only [OrderedMap.find?_insert]
    split_ifs with hw <;> simp [hw]

end CapacityModel

namespace Coordinator

open CapacityModel

variable (σ : EventSort)

/-- The coordinator with the accepted registrations of its open connections. -/
structure Tracked where
  coordinator : Coordinator
  registered : List (ConnectionId × WorkerId) := []

/-- The connection and the worker, if the event is a registration that is accepted. -/
def acceptedRegistration (s : Coordinator) : Event → Option (ConnectionId × WorkerId)
  | .frame c msg _ _ =>
    if s.connections.contains c && msg.type = .register then
      match readRegistration.run msg.payload with
      | none => none
      | some ((w, b), _) => if (s.model.registerWorker w b).2 then some (c, w) else none
    else none
  | _ => none

def trackedStep (t : Tracked) (e : Event) : Tracked where
  coordinator := step σ t.coordinator e
  registered := ((acceptedRegistration t.coordinator e).toList ++ t.registered).filter
    fun p => (step σ t.coordinator e).connections.contains p.1

/-- While the process lives, every live worker has an open connection with an accepted
registration of it. -/
def NoOrphans (t : Tracked) : Prop :=
  t.coordinator.terminated = false → ∀ w, t.coordinator.model.workerAlive w = true →
    ∃ c, t.coordinator.connections.contains c = true ∧ (c, w) ∈ t.registered

def RegisteredElsewhere (t : Tracked) (c : ConnectionId) (w : WorkerId) : Prop :=
  ∃ c', c' ≠ c ∧ t.coordinator.connections.contains c' = true ∧ (c', w) ∈ t.registered

/-- When a connection closes, the live workers that were registered on it are registered
elsewhere too.  A lost connection may leave out the worker it named last. -/
def HandsOver (t : Tracked) : Event → Prop
  | .frame c msg sent _ => t.coordinator.connections.contains c = true →
    msg.type ≠ .register → msg.type ≠ .shutdown → ¬Fails t.coordinator.model msg →
    sent = false → ∀ w, t.coordinator.model.workerAlive w = true → (c, w) ∈ t.registered →
      RegisteredElsewhere t c w
  | .lost c => ∀ curWorker, t.coordinator.connections.find? c = some curWorker →
    ∀ w, w ≠ curWorker → t.coordinator.model.workerAlive w = true → (c, w) ∈ t.registered →
      RegisteredElsewhere t c w
  | _ => True

/-- What holds along a run without a Shutdown frame, as long as no live worker is orphaned. -/
structure Connected (t : Tracked) : Prop where
  noOrphans : NoOrphans t
  opened : ∀ p ∈ t.registered, t.coordinator.connections.contains p.1 = true
  valid : ∀ w, t.coordinator.model.workerAlive w = true → w.valid = true
  ended : t.coordinator.terminated = true →
    t.coordinator.connections = ∅ ∧ t.coordinator.accepting = false

variable {σ} {t t' u : Tracked}

theorem mem_registered_step {e : Event} {p : ConnectionId × WorkerId} :
    p ∈ (trackedStep σ t e).registered ↔
      (acceptedRegistration t.coordinator e = some p ∨ p ∈ t.registered) ∧
        (step σ t.coordinator e).connections.contains p.1 = true := by
  rw [trackedStep, List.mem_filter, List.mem_append, Option.mem_toList]

/-- A step that closes no connection orphans nobody but whom it brings to life itself. -/
theorem NoOrphans.keep (h : NoOrphans t)
    (hterminated : t'.coordinator.terminated = false → t.coordinator.terminated = false)
    (hopen : ∀ c, t.coordinator.connections.contains c = true →
      t'.coordinator.connections.contains c = true)
    (hregistered : ∀ p ∈ t.registered, t'.coordinator.connections.contains p.1 = true →
      p ∈ t'.registered)
    (halive : ∀ w, t'.coordinator.model.workerAlive w = true →
      t.coordinator.model.workerAlive w = true ∨
        ∃ c, t'.coordinator.connections.contains c = true ∧ (c, w) ∈ t'.registered) :
    NoOrphans t' := by
  intro hlives w hw
  rcases halive w hw with hw | hw
  · obtain ⟨c, hc, hcw⟩ := h (hterminated hlives) w hw
    exact ⟨c, hopen c hc, hregistered _ hcw (hopen c hc)⟩
  · exact hw

/-- A step that closes `c` and leaves alive the live workers of `P` orphans none of them
exactly when those that were registered on `c` are registered elsewhere. -/
theorem NoOrphans.close_iff (h : NoOrphans t) {c : ConnectionId} {P : WorkerId → Prop}
    (hbefore : t.coordinator.terminated = false) (hafter : u.coordinator.terminated = false)
    (hopen : ∀ c', u.coordinator.connections.contains c' = true ↔
      c' ≠ c ∧ t.coordinator.connections.contains c' = true)
    (hregistered : ∀ p, p ∈ u.registered ↔
      p ∈ t.registered ∧ u.coordinator.connections.contains p.1 = true)
    (halive : ∀ w, u.coordinator.model.workerAlive w = true ↔
      P w ∧ t.coordinator.model.workerAlive w = true) :
    NoOrphans u ↔ ∀ w, P w → t.coordinator.model.workerAlive w = true →
      (c, w) ∈ t.registered → RegisteredElsewhere t c w := by
  constructor
  · intro h' w hP hw _
    obtain ⟨c', hc', hcw⟩ := h' hafter w ((halive w).mpr ⟨hP, hw⟩)
    exact ⟨c', ((hopen c').mp hc').1, ((hopen c').mp hc').2, ((hregistered _).mp hcw).1⟩
  · intro helsewhere _ w hw
    obtain ⟨hP, hw⟩ := (halive w).mp hw
    obtain ⟨c', hc', hcw⟩ := h hbefore w hw
    by_cases hcc : c' = c
    · subst hcc
      obtain ⟨c'', hne, hc'', hcw'⟩ := helsewhere w hP hw hcw
      have hopen' := (hopen c'').mpr ⟨hne, hc''⟩
      exact ⟨c'', hopen', (hregistered _).mpr ⟨hcw', hopen'⟩⟩
    · have hopen' := (hopen c').mpr ⟨hcc, hc'⟩
      exact ⟨c', hopen', (hregistered _).mpr ⟨hcw, hopen'⟩⟩

theorem contains_close (s : Coordinator) (c c' : ConnectionId) :
    (s.close c).connections.contains c' = true ↔ c' ≠ c ∧ s.connections.contains c' = true := by
  simp only [close, OrderedMap.contains, OrderedMap.find?_erase]
  split_ifs with hc <;> simp [hc]

theorem contains_insert (m : OrderedMap ConnectionId WorkerId) (c c' : ConnectionId)
    (w : WorkerId) : (m.insert c w).contains c' = true ↔ c' = c ∨ m.contains c' = true := by
  simp only [OrderedMap.contains, OrderedMap.find?_insert]
  split_ifs with hc <;> simp [hc]

theorem NoOrphans.keep_model {e : Event} (h : NoOrphans t)
    (hmodel : (step σ t.coordinator e).model.sources = t.coordinator.model.sources)
    (hterminated : (step σ t.coordinator e).terminated = t.coordinator.terminated)
    (hopen : ∀ c, t.coordinator.connections.contains c = true →
      (step σ t.coordinator e).connections.contains c = true) : NoOrphans (trackedStep σ t e) := by
  refine h.keep (fun hlives => hterminated.symm.trans hlives) hopen
    (fun p hp hc => mem_registered_step.mpr ⟨Or.inr hp, hc⟩) fun w hw => Or.inl ?_
  exact (workerAlive_congr hmodel w).symm.trans hw

theorem NoOrphans.keep_all {e : Event} (h : NoOrphans t)
    (hstep : step σ t.coordinator e = t.coordinator) : NoOrphans (trackedStep σ t e) := by
  refine h.keep_model ?_ ?_ fun c hc => ?_
  · rw [hstep]
  · rw [hstep]
  · rwa [hstep]

theorem NoOrphans.accept (h : NoOrphans t) (c : ConnectionId) :
    NoOrphans (trackedStep σ t (.accept c)) := by
  refine h.keep_model ?_ ?_ fun c' hc => ?_
  all_goals
    unfold step
    dsimp only
    split_ifs
  · rfl
  · rfl
  · rfl
  · rfl
  · rfl
  · rfl
  · exact hc
  · exact hc
  · exact (contains_insert _ _ _ _).mpr (Or.inr hc)

theorem NoOrphans.stop (h : NoOrphans t) : NoOrphans (trackedStep σ t .stop) := by
  refine h.keep_model ?_ ?_ fun c' hc => ?_
  all_goals
    unfold step
    dsimp only
    split_ifs
  · rfl
  · rfl
  · rfl
  · rfl
  · exact hc
  · exact hc

theorem lives_of_find? {s : Coordinator}
    (hended : s.terminated = true → s.connections = ∅ ∧ s.accepting = false) {c : ConnectionId}
    {curWorker : WorkerId} (hfind : s.connections.find? c = some curWorker) :
    s.terminated = false := by
  by_contra hno
  rw [(hended (Bool.not_eq_false _ ▸ hno)).1] at hfind
  exact absurd hfind (by simp)

/-- A registration orphans nobody: whom it brings to life it registers. -/
theorem Connected.noOrphans_register (h : Connected t) {c : ConnectionId} {msg : FramedMessage}
    {sent saved : Bool} (hopen : t.coordinator.connections.contains c = true)
    (hstep : step σ t.coordinator (.frame c msg sent saved) =
      t.coordinator.handleFrame σ c msg sent saved)
    (hregister : msg.type = .register) :
    NoOrphans (trackedStep σ t (.frame c msg sent saved)) := by
  cases hread : readRegistration.run msg.payload with
  | none =>
    have hsame : t.coordinator.handleFrame σ c msg sent saved = t.coordinator := by
      simp only [handleFrame, hregister, hread]
    exact h.noOrphans.keep_all (hstep.trans hsame)
  | some p =>
    obtain ⟨⟨w, b⟩, rest⟩ := p
    have hframe : step σ t.coordinator (.frame c msg sent saved) =
        { t.coordinator with
          connections := t.coordinator.connections.insert c w
          model := (t.coordinator.model.registerWorker w b).1 } := by
      rw [hstep]
      simp only [handleFrame, hregister, hread]
    have hkept : ∀ c', t.coordinator.connections.contains c' = true →
        (step σ t.coordinator (.frame c msg sent saved)).connections.contains c' = true := by
      intro c' hc
      rw [hframe]
      exact (contains_insert _ _ _ _).mpr (Or.inr hc)
    refine h.noOrphans.keep (fun hlives => ?_) hkept
      (fun p hp hc => mem_registered_step.mpr ⟨Or.inr hp, hc⟩) fun w' hw => ?_
    · rw [trackedStep, hframe] at hlives
      exact hlives
    · rw [trackedStep, hframe] at hw
      -- A rejected registration changes the name of the connection only.
      cases haccepted : (t.coordinator.model.registerWorker w b).2 with
      | true =>
        rcases (workerAlive_registerWorker haccepted w').mp hw with rfl | hw
        · refine Or.inr ⟨c, hkept c hopen, mem_registered_step.mpr ⟨Or.inl ?_, hkept c hopen⟩⟩
          simp [acceptedRegistration, hopen, hregister, hread, haccepted]
        · exact Or.inl hw
      | false =>
        rcases registerWorker_eq t.coordinator.model w b with heq | ⟨-, heq⟩
        · rw [heq] at hw
          exact Or.inl hw
        · rw [heq] at haccepted
          exact absurd haccepted Bool.true_eq_false.mp

/-- A lost connection marks the worker dead that it named last, and orphans the others
that are registered nowhere else. -/
theorem Connected.noOrphans_lost_iff (h : Connected t) (c : ConnectionId) :
    NoOrphans (trackedStep σ t (.lost c)) ↔ HandsOver t (.lost c) := by
  cases hfind : t.coordinator.connections.find? c with
  | none =>
    have hstep : step σ t.coordinator (.lost c) = t.coordinator := by simp only [step, hfind]
    refine iff_of_true (h.noOrphans.keep_all hstep) fun cur hcur => ?_
    exact absurd (hfind.symm.trans hcur) (by simp)
  | some curWorker =>
    have hstep : step σ t.coordinator (.lost c) = t.coordinator.handleLost c curWorker := by
      simp only [step, hfind]
    have hlives := lives_of_find? h.ended hfind
    have halive : ∀ w, (t.coordinator.handleLost c curWorker).model.workerAlive w = true ↔
        w ≠ curWorker ∧ t.coordinator.model.workerAlive w = true := by
      intro w
      unfold handleLost
      cases hvalid : curWorker.valid with
      | true => exact workerAlive_markWorkerDead _ _ _
      | false =>
        -- Nobody is marked dead, and nobody with an invalid id is alive.
        refine ⟨fun hw => ⟨?_, hw⟩, And.right⟩
        rintro rfl
        exact Bool.false_ne_true (hvalid.symm.trans (h.valid w hw))
    have hclose := h.noOrphans.close_iff (u := trackedStep σ t (.lost c)) (c := c)
      (P := fun w => w ≠ curWorker) hlives (by rw [trackedStep, hstep]; exact hlives)
      (fun c' => by rw [trackedStep, hstep]; exact contains_close _ _ _)
      (fun p => by rw [mem_registered_step]; simp [acceptedRegistration, trackedStep])
      (fun w => by rw [trackedStep, hstep]; exact halive w)
    rw [hclose, HandsOver]
    constructor
    · rintro hall cur hcur
      obtain rfl := Option.some.inj (hfind.symm.trans hcur)
      exact hall
    · exact fun hall => hall curWorker hfind

/-- A request that is served closes its connection where the reply is not sent, without
marking anybody dead. -/
theorem Connected.noOrphans_served_iff (h : Connected t) {c : ConnectionId} {msg : FramedMessage}
    {sent saved : Bool} {curWorker : WorkerId}
    (hfind : t.coordinator.connections.find? c = some curWorker) (hregister : msg.type ≠ .register)
    (hshutdown : msg.type ≠ .shutdown) :
    NoOrphans (trackedStep σ t (.frame c msg sent saved)) ↔
      HandsOver t (.frame c msg sent saved) := by
  have hopen : t.coordinator.connections.contains c = true := by
    simp [OrderedMap.contains, hfind]
  have hlives := lives_of_find? h.ended hfind
  have hstep : step σ t.coordinator (.frame c msg sent saved) =
      t.coordinator.handleFrame σ c msg sent saved := by
    simp only [step, hfind]
  have hsources := sources_dispatch σ t.coordinator.model msg saved
  by_cases hfails : Fails t.coordinator.model msg
  · -- The exception leaves the thread and ends the process.
    have hraised := handleFrame_of_fails σ t.coordinator c sent saved hregister hshutdown hfails
    refine iff_of_true (fun hno => ?_) fun _ _ _ hno => absurd hfails hno
    rw [trackedStep, hstep, hraised] at hno
    exact absurd hno Bool.true_eq_false.mp
  · have hserved :=
      handleFrame_of_answered σ t.coordinator c sent saved hregister hshutdown hfails
    rw [← hstep] at hserved
    cases sent with
    | true =>
      refine iff_of_true (h.noOrphans.keep_model ?_ ?_ fun c' hc => ?_)
        fun _ _ _ _ hno => absurd hno Bool.true_eq_false.mp
      · rw [hserved]
        exact hsources
      · rw [hserved]
        rfl
      · rw [hserved]
        exact hc
    | false =>
      have hnone : acceptedRegistration t.coordinator (.frame c msg false saved) = none := by
        simp [acceptedRegistration, hregister]
      have hclose := h.noOrphans.close_iff (u := trackedStep σ t (.frame c msg false saved))
        (c := c) (P := fun _ => True) hlives (by rw [trackedStep, hserved]; exact hlives)
        (fun c' => by rw [trackedStep, hserved]; exact contains_close _ _ _)
        (fun p => by rw [mem_registered_step, hnone]; simp [trackedStep])
        (fun w => by
          rw [trackedStep, hserved, true_and]
          exact iff_of_eq (congrArg (· = true) (workerAlive_congr hsources w)))
      rw [hclose, HandsOver]
      exact ⟨fun hall _ _ _ _ _ w => hall w trivial,
        fun hall w _ => hall hopen hregister hshutdown hfails rfl w⟩

/-- Without a Shutdown frame, a step orphans nobody exactly when what it closes is handed over. -/
theorem Connected.noOrphans_step_iff (h : Connected t) {e : Event}
    (hshutdown : deliversShutdown t.coordinator e = false) :
    NoOrphans (trackedStep σ t e) ↔ HandsOver t e := by
  cases e with
  | accept c => exact iff_of_true (h.noOrphans.accept c) trivial
  | stop => exact iff_of_true h.noOrphans.stop trivial
  | lost c => exact h.noOrphans_lost_iff c
  | frame c msg sent saved =>
    cases hfind : t.coordinator.connections.find? c with
    | none =>
      have hclosed : t.coordinator.connections.contains c = false := by
        simp [OrderedMap.contains, hfind]
      have hstep : step σ t.coordinator (.frame c msg sent saved) = t.coordinator := by
        simp only [step, hfind]
      refine iff_of_true (h.noOrphans.keep_all hstep) fun hopen => ?_
      exact absurd (hclosed.symm.trans hopen) Bool.false_ne_true
    | some curWorker =>
      have hopen : t.coordinator.connections.contains c = true := by
        simp [OrderedMap.contains, hfind]
      by_cases hregister : msg.type = .register
      · have hstep : step σ t.coordinator (.frame c msg sent saved) =
            t.coordinator.handleFrame σ c msg sent saved := by
          simp only [step, hfind]
        exact iff_of_true (h.noOrphans_register hopen hstep hregister)
          fun _ hno => absurd hregister hno
      · refine h.noOrphans_served_iff hfind hregister fun htype => ?_
        simp [deliversShutdown, hopen, htype] at hshutdown

theorem valid_of_alive_step {s : Coordinator} {e : Event} {w : WorkerId}
    (hw : (step σ s e).model.workerAlive w = true) :
    s.model.workerAlive w = true ∨ w.valid = true := by
  cases e with
  | accept c =>
    unfold step at hw
    dsimp only at hw
    split_ifs at hw <;> exact Or.inl hw
  | stop =>
    unfold step at hw
    dsimp only at hw
    split_ifs at hw <;> exact Or.inl hw
  | lost c =>
    unfold step at hw
    dsimp only at hw
    split at hw
    · exact Or.inl hw
    · unfold handleLost at hw
      dsimp only at hw
      split_ifs at hw
      · exact Or.inl ((workerAlive_markWorkerDead _ _ _).mp hw).2
      · exact Or.inl hw
  | frame c msg sent saved =>
    unfold step at hw
    dsimp only at hw
    split at hw
    · exact Or.inl hw
    have hdispatch := workerAlive_congr (sources_dispatch σ s.model msg saved) w
    unfold handleFrame at hw
    split at hw
    · exact Or.inl hw
    · split at hw
      · exact Or.inl hw
      · rename_i w' b' _ _
        rcases registerWorker_eq s.model w' b' with heq | ⟨hvalid, heq⟩
        · rw [heq] at hw
          exact Or.inl hw
        · have haccepted : (s.model.registerWorker w' b').2 = true := by rw [heq]
          rcases (workerAlive_registerWorker haccepted w).mp hw with rfl | hw
          · exact Or.inr hvalid
          · exact Or.inl hw
    · split at hw
      · exact Or.inl hw
      · rename_i heq
        rw [heq] at hdispatch
        split_ifs at hw <;> exact Or.inl (hdispatch.symm.trans hw)

theorem ended_step {s : Coordinator} {e : Event}
    (h : s.terminated = true → s.connections = ∅ ∧ s.accepting = false) :
    (step σ s e).terminated = true →
      (step σ s e).connections = ∅ ∧ (step σ s e).accepting = false := by
  cases e with
  | accept c =>
    unfold step
    dsimp only
    -- The accept thread waits only as long as the process lives.
    cases haccepting : s.accepting with
    | false => exact h
    | true =>
      have hlives : s.terminated = false := by
        by_contra hended
        have := (h (Bool.not_eq_false _ ▸ hended)).2
        exact Bool.false_ne_true (this.symm.trans haccepting)
      split_ifs <;> exact fun hended => absurd (hlives.symm.trans hended) Bool.false_ne_true
  | stop =>
    unfold step
    dsimp only
    split_ifs
    · exact fun hended => ⟨(h hended).1, rfl⟩
    · exact h
  | lost c =>
    unfold step
    dsimp only
    cases hfind : s.connections.find? c with
    | none => exact h
    | some curWorker =>
      exact fun hended => absurd ((lives_of_find? h hfind).symm.trans hended) Bool.false_ne_true
  | frame c msg sent saved =>
    unfold step
    dsimp only
    cases hfind : s.connections.find? c with
    | none => exact h
    | some curWorker =>
      have hlives := lives_of_find? h hfind
      have hno : ∀ {P : Prop}, s.terminated = true → P := fun hended =>
        absurd (hlives.symm.trans hended) Bool.false_ne_true
      dsimp only
      unfold handleFrame
      split
      · exact hno
      · split <;> exact hno
      · split
        · exact fun _ => ⟨rfl, rfl⟩
        · split_ifs <;> exact hno

theorem Connected.step (h : Connected t) {e : Event}
    (hshutdown : deliversShutdown t.coordinator e = false) (he : HandsOver t e) :
    Connected (trackedStep σ t e) where
  noOrphans := (h.noOrphans_step_iff hshutdown).mpr he
  opened _ hp := (mem_registered_step.mp hp).2
  valid w hw := (valid_of_alive_step hw).elim (h.valid w) id
  ended := ended_step h.ended

/-- Evidence that counts comes from a worker with an open connection. -/
def EvidenceConnected (t : Tracked) : Prop :=
  t.coordinator.terminated = false → ∀ r, t.coordinator.model.isCurrent r = true →
    ∃ c, t.coordinator.connections.contains c = true ∧ (c, r.worker) ∈ t.registered

theorem NoOrphans.evidenceConnected (h : NoOrphans t) : EvidenceConnected t := by
  intro hlives r hr
  apply h hlives
  have hlive := (Bool.and_eq_true_iff.mp hr).2
  unfold workerAlive
  cases hs : t.coordinator.model.sources.find? r.worker with
  | none => simp [hs] at hlive
  | some s =>
    rw [hs, Option.any_some, Bool.and_eq_true] at hlive
    exact hlive.1

variable (σ) in
/-- Along a run without Shutdown frames no live worker is ever orphaned, and no evidence counts
whose worker has no connection, precisely when every connection that closes hands its live
workers over. -/
theorem no_orphans_iff {m : CapacityModel} (hm : ∀ w, m.workerAlive w = false)
    (events : List Event)
    (hshutdown : Runs.Always (trackedStep σ)
      (fun t e => deliversShutdown t.coordinator e = false) ⟨{ model := m }, []⟩ events) :
    (∀ before, before <+: events →
      NoOrphans (Runs.run (trackedStep σ) ⟨{ model := m }, []⟩ before) ∧
        EvidenceConnected (Runs.run (trackedStep σ) ⟨{ model := m }, []⟩ before)) ↔
    Runs.Always (trackedStep σ) HandsOver ⟨{ model := m }, []⟩ events := by
  have hdead : ∀ w, ¬m.workerAlive w = true := fun w => Bool.not_eq_true _ ▸ hm w
  have hstart : Connected ⟨{ model := m }, []⟩ :=
    ⟨fun _ w hw => absurd hw (hdead w), fun _ hp => absurd hp List.not_mem_nil,
      fun w hw => absurd hw (hdead w), fun h => absurd h Bool.false_ne_true⟩
  have hcongr := Runs.always_congr Connected
    (fun t e h he => h.noOrphans_step_iff (σ := σ) he) (fun t e h he hover => h.step he hover)
    hstart hshutdown
  simp only [and_iff_left_of_imp NoOrphans.evidenceConnected]
  rw [Runs.forall_prefix_iff (φ := NoOrphans), hcongr]
  exact and_iff_right hstart.noOrphans

def registeredThenGone : List Event :=
  [.accept 1, .frame 1 (registration 1 100) true true, .frame 1 ⟨.hello, 2, []⟩ false true]

theorem registeredThenGone_noShutdown :
    Runs.Always (trackedStep (SortBy.stable _))
      (fun t e => deliversShutdown t.coordinator e = false) ⟨{ model := {} }, []⟩
      registeredThenGone :=
  ⟨by decide +kernel, by decide +kernel, by decide +kernel, trivial⟩

theorem no_orphans_iff_registeredThenGone :
    (∀ before, before <+: registeredThenGone →
      NoOrphans (Runs.run (trackedStep (SortBy.stable _)) ⟨{ model := {} }, []⟩ before) ∧
        EvidenceConnected
          (Runs.run (trackedStep (SortBy.stable _)) ⟨{ model := {} }, []⟩ before)) ↔
    Runs.Always (trackedStep (SortBy.stable _)) HandsOver ⟨{ model := {} }, []⟩
      registeredThenGone :=
  no_orphans_iff (SortBy.stable _) (fun _ => rfl) registeredThenGone registeredThenGone_noShutdown

/-- The connection is closed, and the worker lives on. -/
theorem worker_orphaned_by_failed_reply :
    ¬ ∀ (σ : EventSort) (events : List Event),
      Runs.Always (trackedStep σ) (fun t e => deliversShutdown t.coordinator e = false)
        ⟨{ model := {} }, []⟩ events →
      ∀ before, before <+: events →
        NoOrphans (Runs.run (trackedStep σ) ⟨{ model := {} }, []⟩ before) := by
  intro h
  have hno := h (SortBy.stable _) registeredThenGone registeredThenGone_noShutdown
    registeredThenGone List.prefix_rfl
  obtain ⟨c, -, hc⟩ := hno (by decide +kernel) ⟨1⟩ (by decide +kernel)
  exact List.not_mem_nil hc

end Coordinator

end CapacityFabric
