import CapacityFabric.Coordinator.Coordinator

/-!
# What a request does to its connection

A request is answered, or raises.  Whether the answer can be sent decides whether the
connection, and the coordinator, go on.
-/

namespace CapacityFabric

namespace Coordinator

open Payload CapacityModel

open CheckedLoop (YieldsIf)

/-- A request whose payload a constructor or a change refuses by an exception. -/
def raises (msg : FramedMessage) : Bool :=
  match msg.type with
  | .publishReservation => match readReservation.run msg.payload with
    | some (none, _) => true
    | _ => false
  | .publishRelease => match readRelease.run msg.payload with
    | some (none, _) => true
    | _ => false
  | _ => false

/-- A query whose payload can be read: it adds up the resources of the model. -/
def addsUp (msg : FramedMessage) : Bool :=
  match msg.type with
  | .queryCapacity => (readCapacityQuery.run msg.payload).isSome
  | .queryFeasibility => (readFeasibilityQuery.run msg.payload).isSome
  | .queryEarliestFit => (readEarliestFitQuery.run msg.payload).isSome
  | .queryHeadroom => (readDemand.run msg.payload).isSome
  | _ => false

/-- A request that ends the process: its payload is refused by an exception, or it adds up
sums that overflow. -/
def Fails (m : CapacityModel) (msg : FramedMessage) : Prop :=
  raises msg = true ∨ addsUp msg = true ∧ ¬m.ViewFits (A := .double)

def deliversShutdown (s : Coordinator) : Event → Bool
  | .frame c msg _ _ => s.connections.contains c && msg.type = .shutdown
  | _ => false

theorem queryAnswer_eq_raised_iff {α : Type} (m : CapacityModel) (read : BinaryReader α)
    (payload : List UInt8) (answer : α → Answer) (e : StdException) :
    (queryAnswer m read payload answer).2 = .raised e ↔
      ∃ p, read.run payload = some p ∧ answer p.1 = .raised e := by
  unfold queryAnswer errorAnswer
  rcases read.run payload with _ | ⟨a, rest⟩ <;> simp

theorem resultAnswer_eq_raised_iff {α : Type} {result : Option α} {a : α} {P : Prop}
    (h : YieldsIf result a P) (type : MessageType) (payload : α → List UInt8)
    (e : StdException) :
    resultAnswer result type payload = .raised e ↔ e = .overflowError ∧ ¬P := by
  rw [← h.eq_none_iff]
  cases result <;> simp [resultAnswer, eq_comm]

theorem query_eq_raised_iff {α β : Type} {m : CapacityModel} {read : BinaryReader α}
    {payload : List UInt8} {result : α → Option β} {value : α → β} {P : Prop}
    (h : ∀ a, YieldsIf (result a) (value a) P) (type : MessageType)
    (encode : α → β → List UInt8) (e : StdException) :
    (queryAnswer m read payload fun a => resultAnswer (result a) type (encode a)).2 = .raised e ↔
      e = .overflowError ∧ (read.run payload).isSome = true ∧ ¬P := by
  simp only [queryAnswer_eq_raised_iff, resultAnswer_eq_raised_iff (h _), Option.isSome_iff_exists]
  constructor
  · rintro ⟨p, hp, he, hP⟩
    exact ⟨he, ⟨p, hp⟩, hP⟩
  · rintro ⟨he, ⟨p, hp⟩, hP⟩
    exact ⟨p, hp, he, hP⟩

theorem dispatch_eq_raised_iff (σ : EventSort) (m : CapacityModel) (msg : FramedMessage)
    (saved : Bool) (e : StdException) :
    (dispatch σ m msg saved).2 = .raised e ↔
      e = .invalidArgument ∧ raises msg = true ∨
        e = .overflowError ∧ addsUp msg = true ∧ ¬m.ViewFits (A := .double) := by
  have hquery : ∀ {α β : Type} {read : BinaryReader α} {result : α → Option β} {value : α → β}
      (type : MessageType) (encode : α → β → List UInt8),
      (∀ a, YieldsIf (result a) (value a) (m.ViewFits (A := .double))) →
      ((queryAnswer m read msg.payload fun a => resultAnswer (result a) type (encode a)).2 =
          .raised e ↔
        e = .invalidArgument ∧ false = true ∨ e = .overflowError ∧
          (read.run msg.payload).isSome = true ∧ ¬m.ViewFits (A := .double)) := by
    intro α β read result value type encode h
    rw [query_eq_raised_iff h]
    simp
  unfold dispatch raises addsUp
  cases msg.type with
  | publishReservation =>
    dsimp only
    rcases readReservation.run msg.payload with _ | ⟨_ | res, rest⟩ <;>
      cases e <;> simp [publicationAnswer]
  | publishRelease =>
    dsimp only
    rcases readRelease.run msg.payload with _ | ⟨_ | rel, rest⟩ <;>
      cases e <;> simp [publicationAnswer]
  | publishResource =>
    dsimp only
    rcases readResource.run msg.payload with _ | ⟨res, rest⟩ <;> simp [publicationAnswer]
  | advanceGeneration =>
    dsimp only
    rcases BinaryReader.readU64.run msg.payload with _ | ⟨id, rest⟩ <;>
      simp [publicationAnswer, errorAnswer]
  | queryCapacity =>
    exact hquery .queryCapacity _ fun _ _ => queryCapacity?_eq_some_iff (A := .double)
  | queryFeasibility =>
    exact hquery .queryFeasibility _ fun _ _ => queryFeasibility?_eq_some_iff (A := .double)
  | queryEarliestFit =>
    exact hquery .queryEarliestFit _ fun _ _ => queryEarliestFit?_eq_some_iff (A := .double)
  | queryHeadroom =>
    exact hquery .queryHeadroom _ fun _ _ => queryHeadroom?_eq_some_iff (A := .double)
  | save =>
    dsimp only [queryAnswer]
    rcases BinaryReader.readString.run msg.payload with _ | ⟨path, rest⟩ <;> simp [errorAnswer]
  | _ => simp [errorAnswer]

theorem fails_iff (σ : EventSort) (m : CapacityModel) (msg : FramedMessage) (saved : Bool) :
    Fails m msg ↔ ∃ e, (dispatch σ m msg saved).2 = .raised e := by
  simp only [dispatch_eq_raised_iff, Fails]
  constructor
  · rintro (h | h)
    · exact ⟨_, Or.inl ⟨rfl, h⟩⟩
    · exact ⟨_, Or.inr ⟨rfl, h⟩⟩
  · rintro ⟨e, ⟨-, h⟩ | ⟨-, h⟩⟩
    · exact Or.inl h
    · exact Or.inr h

section

variable (σ : EventSort) (s : Coordinator) (c : ConnectionId) {msg : FramedMessage}
  (sent saved : Bool)

theorem handleFrame_of_fails (hregister : msg.type ≠ .register) (hshutdown : msg.type ≠ .shutdown)
    (h : Fails s.model msg) : s.handleFrame σ c msg sent saved = s.terminate := by
  obtain ⟨e, he⟩ := (fails_iff σ s.model msg saved).mp h
  unfold handleFrame
  split
  · exact absurd ‹_› hshutdown
  · exact absurd ‹_› hregister
  · rcases hdispatch : dispatch σ s.model msg saved with ⟨m, _ | _⟩
    · rw [hdispatch] at he
      exact Answer.noConfusion he
    · rfl

theorem handleFrame_of_answered (hregister : msg.type ≠ .register)
    (hshutdown : msg.type ≠ .shutdown) (h : ¬Fails s.model msg) :
    s.handleFrame σ c msg sent saved =
      if sent then { s with model := (dispatch σ s.model msg saved).1 }
      else { s.close c with model := (dispatch σ s.model msg saved).1, running := false } := by
  rw [fails_iff σ s.model msg saved] at h
  unfold handleFrame
  split
  · exact absurd ‹_› hshutdown
  · exact absurd ‹_› hregister
  · rcases hdispatch : dispatch σ s.model msg saved with ⟨m, _ | e⟩
    · rfl
    · exact absurd ⟨e, by rw [hdispatch]⟩ h

end

end Coordinator

end CapacityFabric
