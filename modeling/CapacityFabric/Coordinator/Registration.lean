import CapacityFabric.Coordinator.Coordinator
import CapacityFabric.Model.Operations

/-!
# How long a registration stands
-/

namespace CapacityFabric

namespace CapacityModel

theorem registerWorker_eq (m : CapacityModel) (w : WorkerId) (b : WorkerBootId) :
    m.registerWorker w b = (m, false) ∨
      w.valid = true ∧ m.registerWorker w b =
        ({ m with sources := m.sources.insert w ⟨b, true⟩ }, true) := by
  cases haccepted : (m.registerWorker w b).2 with
  | true =>
    exact Or.inr
      ⟨(registerWorker_accepted_iff.mp haccepted).1, registerWorker_of_accepted haccepted⟩
  | false => exact Or.inl (registerWorker_of_rejected haccepted)

theorem isFreshBoot_registerWorker {m : CapacityModel} {w w' : WorkerId} {b b' : WorkerBootId}
    (h : m.isFreshBoot w b = true) : (m.registerWorker w' b').1.isFreshBoot w b = true := by
  rw [isFreshBoot_iff] at h ⊢
  cases haccepted : (m.registerWorker w' b').2 with
  | false => rwa [registerWorker_of_rejected haccepted]
  | true =>
    obtain ⟨-, -, hlive⟩ := registerWorker_accepted_iff.mp haccepted
    rw [registerWorker_of_accepted haccepted, OrderedMap.find?_insert]
    split_ifs with hw
    · subst hw
      -- Only the same boot id may replace a live incarnation.
      have hboot : b = b' := hlive _ h rfl
      rw [hboot]
    · exact h

theorem isFreshBoot_markWorkerDead (m : CapacityModel) (w w' : WorkerId) (b : WorkerBootId) :
    (m.markWorkerDead w').isFreshBoot w b = (decide (w ≠ w') && m.isFreshBoot w b) := by
  unfold markWorkerDead isFreshBoot
  cases hs : m.sources.find? w' with
  | none =>
    by_cases hw : w = w'
    · subst hw
      simp [hs]
    · simp [hw]
  | some s =>
    simp only [OrderedMap.find?_insert]
    by_cases hw : w = w' <;> simp [hw]

end CapacityModel

namespace Coordinator

open CapacityModel

theorem sources_dispatch (σ : EventSort) (m : CapacityModel) (msg : FramedMessage) (saved : Bool) :
    (dispatch σ m msg saved).1.sources = m.sources := by
  have hquery : ∀ {α : Type} (read : BinaryReader α) (answer : α → Answer),
      (queryAnswer m read msg.payload answer).1.sources = m.sources := by
    intro α read answer
    unfold queryAnswer
    cases read.run msg.payload <;> rfl
  unfold dispatch
  cases msg.type with
  | publishResource =>
    dsimp only
    split
    · rfl
    · exact sources_step_eq m (.publishResource _) (by simp) (by simp) (by simp)
  | publishReservation =>
    dsimp only
    split
    · rfl
    · rfl
    · exact sources_step_eq m (.publishReservation _) (by simp) (by simp) (by simp)
  | publishRelease =>
    dsimp only
    split <;> rfl
  | advanceGeneration =>
    dsimp only
    split
    · rfl
    · exact sources_step_eq m (.advanceResourceGeneration _) (by simp) (by simp) (by simp)
  | queryCapacity | queryFeasibility | queryEarliestFit | queryHeadroom | save => exact hquery _ _
  | _ => rfl

variable (σ : EventSort) {s : Coordinator} {w : WorkerId} {b : WorkerBootId}

theorem isFreshBoot_handleFrame (h : s.model.isFreshBoot w b = true) (c : ConnectionId)
    (msg : FramedMessage) (sent saved : Bool) :
    (s.handleFrame σ c msg sent saved).model.isFreshBoot w b = true := by
  have hdispatch : (dispatch σ s.model msg saved).1.isFreshBoot w b = true := by
    rw [isFreshBoot_iff, sources_dispatch]
    exact isFreshBoot_iff.mp h
  unfold handleFrame
  split
  · exact h
  · split
    · exact h
    · exact isFreshBoot_registerWorker h
  · split
    · exact h
    · rename_i m type payload heq
      rw [heq] at hdispatch
      split_ifs <;> exact hdispatch

/-- The connection sends no registration and is still open after the step. -/
def StaysOpen (c : ConnectionId) (s : Coordinator) (e : Event) : Prop :=
  (∀ msg sent saved, e = .frame c msg sent saved → msg.type ≠ .register) ∧
    (step σ s e).connections.contains c = true

/-- The step is not the loss of another connection whose `curWorker` is `w`. -/
def NoOtherLoss (c : ConnectionId) (w : WorkerId) (s : Coordinator) (e : Event) : Prop :=
  ∀ c', e = .lost c' → c' ≠ c → s.connections.find? c' ≠ some w

theorem not_contains_close (s : Coordinator) (c : ConnectionId) :
    (s.close c).connections.contains c = false := by
  simp [close, OrderedMap.contains, OrderedMap.find?_erase]

theorem isFreshBoot_step_iff (hw : w.valid = true) (h : s.model.isFreshBoot w b = true)
    {c : ConnectionId} {e : Event} (hstays : StaysOpen σ c s e) :
    (step σ s e).model.isFreshBoot w b = true ↔ NoOtherLoss c w s e := by
  cases e with
  | accept c' =>
    have hkept : (step σ s (.accept c')).model.isFreshBoot w b = true := by
      unfold step
      dsimp only
      split_ifs <;> exact h
    exact iff_of_true hkept (by rintro c'' ⟨⟩)
  | frame c' msg sent saved =>
    have hkept : (step σ s (.frame c' msg sent saved)).model.isFreshBoot w b = true := by
      unfold step
      dsimp only
      split
      · exact h
      · exact isFreshBoot_handleFrame σ h c' msg sent saved
    exact iff_of_true hkept (by rintro c'' ⟨⟩)
  | stop =>
    have hkept : (step σ s .stop).model.isFreshBoot w b = true := by
      unfold step
      dsimp only
      split_ifs <;> exact h
    exact iff_of_true hkept (by rintro c'' ⟨⟩)
  | lost c' =>
    have hcases : NoOtherLoss c w s (.lost c') ↔ (c' ≠ c → s.connections.find? c' ≠ some w) := by
      constructor
      · exact fun hno => hno c' rfl
      · rintro hno c'' ⟨⟩
        exact hno
    rw [hcases]
    cases hfind : s.connections.find? c' with
    | none => simpa [step, hfind] using h
    | some curWorker =>
      -- The loss of the connection itself would have closed it.
      have hne : c' ≠ c := by
        rintro rfl
        have hopen := hstays.2
        simp only [step, hfind, handleLost] at hopen
        rw [not_contains_close] at hopen
        exact Bool.false_ne_true hopen
      simp only [step, hfind, handleLost, ne_eq, hne, not_false_eq_true, true_imp_iff,
        Option.some.injEq]
      -- It takes the worker with it that it named last.
      by_cases hcur : curWorker = w
      · subst hcur
        simp [hw, isFreshBoot_markWorkerDead]
      · have hcur' : w ≠ curWorker := fun he => hcur he.symm
        split_ifs <;> simp [hcur, hcur', isFreshBoot_markWorkerDead, h]

/-- While a registered connection stays open and sends no further registration, its
worker stays alive under its boot id precisely when no other connection is lost that
named the same worker last. -/
theorem registration_stands_iff (s : Coordinator) (c : ConnectionId) (msg : FramedMessage)
    (sent saved : Bool) (w : WorkerId) (b : WorkerBootId) (rest : List UInt8)
    (hopen : s.connections.contains c = true) (hregister : msg.type = .register)
    (hread : readRegistration.run msg.payload = some ((w, b), rest))
    (haccepted : (s.model.registerWorker w b).2 = true) (events : List Event)
    (hstays : Runs.Always (step σ) (StaysOpen σ c) (step σ s (.frame c msg sent saved)) events) :
    (∀ before, before <+: events →
      (Runs.run (step σ) (step σ s (.frame c msg sent saved)) before).model.isFreshBoot w b =
        true) ↔
    Runs.Always (step σ) (NoOtherLoss c w) (step σ s (.frame c msg sent saved)) events := by
  obtain ⟨hw, hmodel⟩ : w.valid = true ∧ (s.model.registerWorker w b).1.isFreshBoot w b = true := by
    rcases registerWorker_eq s.model w b with heq | ⟨hw, heq⟩
    · rw [heq] at haccepted
      exact absurd haccepted Bool.false_ne_true
    · refine ⟨hw, isFreshBoot_iff.mpr ?_⟩
      rw [heq]
      exact OrderedMap.find?_insert_self _ _ _
  have hstart : (step σ s (.frame c msg sent saved)).model.isFreshBoot w b = true := by
    obtain ⟨cur, hcur⟩ := OrderedMap.contains_iff.mp hopen
    simpa only [step, hcur, handleFrame, hregister, hread] using hmodel
  exact Runs.forall_prefix_iff_always
    (φ := fun s : Coordinator => s.model.isFreshBoot w b = true)
    (fun _ _ h hstays => isFreshBoot_step_iff σ hw h hstays) hstart hstays

def registration (w b : UInt64) : FramedMessage :=
  ⟨.register, 1, BinaryWriter.writeU64 w ++ BinaryWriter.writeU64 b⟩

def twoConnections : Coordinator := Runs.run (step (SortBy.stable _)) {} [.accept 1, .accept 2]

/-- The second connection replays boot 100, is rejected, and disconnects. -/
def replayThenLost : List Event := [.frame 2 (registration 1 100) true true, .lost 2]

/-- The state once the first connection has registered boot 300. -/
def registered : Coordinator :=
  step (SortBy.stable _) twoConnections (.frame 1 (registration 1 300) true true)

theorem replayThenLost_staysOpen :
    Runs.Always (step (SortBy.stable _)) (StaysOpen (SortBy.stable _) 1) registered
      replayThenLost :=
  ⟨⟨by simp, by decide +kernel⟩, ⟨by simp, by decide +kernel⟩, trivial⟩

theorem registration_stands_iff_replayThenLost :
    (∀ before, before <+: replayThenLost →
      (Runs.run (step (SortBy.stable _)) registered before).model.isFreshBoot ⟨1⟩ ⟨300⟩ = true) ↔
    Runs.Always (step (SortBy.stable _)) (NoOtherLoss 1 ⟨1⟩) registered replayThenLost :=
  registration_stands_iff (SortBy.stable _) twoConnections 1 (registration 1 300) true true ⟨1⟩
    ⟨300⟩ [] (by decide +kernel) rfl (by decide +kernel) (by decide +kernel) replayThenLost
    replayThenLost_staysOpen

/-- The loss of a connection whose registration was rejected takes the live one down. -/
theorem registration_revoked_by_rejected_replay :
    ¬ ∀ (σ : EventSort) (s : Coordinator), Runs.Reachable (step σ) {} s →
      ∀ (c : ConnectionId) (msg : FramedMessage) (saved : Bool) (w : WorkerId) (b : WorkerBootId)
        (rest : List UInt8), s.connections.contains c = true → msg.type = .register →
      readRegistration.run msg.payload = some ((w, b), rest) →
      (s.model.registerWorker w b).2 = true → ∀ events : List Event,
      Runs.Always (step σ) (StaysOpen σ c) (step σ s (.frame c msg true saved)) events →
      ∀ before, before <+: events →
        (Runs.run (step σ) (step σ s (.frame c msg true saved)) before).model.isFreshBoot w b =
          true := by
  intro h
  have hreachable : Runs.Reachable (step (SortBy.stable _)) {} twoConnections :=
    Runs.Reachable.init.run _
  have halive := h (SortBy.stable _) twoConnections hreachable 1 (registration 1 300) true ⟨1⟩
    ⟨300⟩ [] (by decide +kernel) rfl (by decide +kernel) (by decide +kernel) replayThenLost
    replayThenLost_staysOpen replayThenLost List.prefix_rfl
  revert halive
  decide +kernel

end Coordinator

end CapacityFabric
