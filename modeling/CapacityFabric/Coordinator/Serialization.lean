import CapacityFabric.Coordinator.Stopping
import CapacityFabric.Model.Generations
import CapacityFabric.Model.UniqueAuthority

/-!
# The threads change the model in order

Under the lock of the model each action of a thread is at most one public operation, so that
what holds along runs of the operations holds in every interleaving of the threads.
-/

namespace CapacityFabric

/-- The operations that a peer can bring about. -/
def ModelOp.isRemote : ModelOp → Bool
  | .registerWorker .. | .markWorkerDead .. | .publishResource .. | .advanceResourceGeneration ..
  | .publishReservation .. | .publishRelease .. => true
  | _ => false

theorem ModelOp.isLoad_of_isRemote {op : ModelOp} (h : op.isRemote = true) :
    op.isLoad = false := by
  cases op with
  | load => exact absurd h Bool.false_ne_true
  | _ => rfl

namespace Coordinator

theorem model_dispatch (σ : EventSort) (m : CapacityModel) (msg : FramedMessage) (saved : Bool) :
    (dispatch σ m msg saved).1 = m ∨
      ∃ op, op.isRemote = true ∧ (dispatch σ m msg saved).1 = m.step op := by
  have hquery : ∀ {α : Type} (read : BinaryReader α) (answer : α → Answer),
      (queryAnswer m read msg.payload answer).1 = m := fun read answer => by
    unfold queryAnswer
    split <;> rfl
  unfold dispatch
  split
  · exact Or.inl rfl
  · split
    · exact Or.inl rfl
    · exact Or.inr ⟨.publishResource _, rfl, rfl⟩
  · split
    · exact Or.inl rfl
    · exact Or.inl rfl
    · exact Or.inr ⟨.publishReservation _, rfl, rfl⟩
  · split
    · exact Or.inl rfl
    · exact Or.inl rfl
    · exact Or.inr ⟨.publishRelease _, rfl, rfl⟩
  · split
    · exact Or.inl rfl
    · exact Or.inr ⟨.advanceResourceGeneration _, rfl, rfl⟩
  · exact Or.inl (hquery _ _)
  · exact Or.inl (hquery _ _)
  · exact Or.inl (hquery _ _)
  · exact Or.inl (hquery _ _)
  · exact Or.inl (hquery _ _)
  · exact Or.inl rfl

end Coordinator

namespace Threads

variable {σ : EventSort} {s : Threads}

theorem model_step (s : Threads) (e : Event) :
    (step σ s e).model = s.model ∨
      ∃ op, op.isRemote = true ∧ (step σ s e).model = s.model.step op := by
  rcases step_cases (σ := σ) s e with heq | ⟨-, hmoves⟩
  · exact Or.inl (by rw [heq])
  · generalize step σ s e = s' at hmoves
    cases hmoves with
    | registers => exact Or.inr ⟨.registerWorker _ _, rfl, rfl⟩
    | @answers _ _ msg _ _ _ _ saved m _ _ hdispatch =>
      have hmodel := Coordinator.model_dispatch σ s.model msg saved
      rw [hdispatch] at hmodel
      exact hmodel
    | @buries _ h =>
      dsimp only
      split_ifs
      · exact Or.inr ⟨.markWorkerDead h.curWorker, rfl, rfl⟩
      · exact Or.inl rfl
    | _ => exact Or.inl rfl

theorem exists_ops (s : Threads) (es : List Event) :
    ∃ ops : List ModelOp, (∀ op ∈ ops, op.isRemote = true) ∧
      (Runs.run (step σ) s es).model = Runs.run CapacityModel.step s.model ops := by
  induction es generalizing s with
  | nil => exact ⟨[], by simp, rfl⟩
  | cons e es ih =>
    obtain ⟨ops, hremote, hmodel⟩ := ih (step σ s e)
    rcases model_step (σ := σ) s e with heq | ⟨op, hop, heq⟩
    · rw [heq] at hmodel
      exact ⟨ops, hremote, hmodel⟩
    · rw [heq] at hmodel
      refine ⟨op :: ops, fun op' hmem => ?_, hmodel⟩
      rcases List.mem_cons.mp hmem with rfl | hmem
      · exact hop
      · exact hremote op' hmem

/-- In every interleaving the model keeps one reservation for each id and one release for each
source, its records agree with their trackers, and no generation goes back. -/
theorem authority_kept (before after : List Event) :
    let s := Runs.run (step σ) {} before
    s.model.UniqueAuthority ∧ s.model.GenerationsAgree ∧
      CapacityModel.GenerationsLE s.model (Runs.run (step σ) s after).model := by
  obtain ⟨ops, hremote, hmodel⟩ := exists_ops (σ := σ) {} before
  obtain ⟨ops', hremote', hmodel'⟩ := exists_ops (σ := σ) (Runs.run (step σ) {} before) after
  have hloads : ∀ op ∈ ops, op.isLoad = false := fun op hop =>
    ModelOp.isLoad_of_isRemote (hremote op hop)
  have hagree : (Runs.run (step σ) {} before).model.GenerationsAgree := by
    rw [hmodel]
    exact (CapacityModel.generationsAgree_empty.run hloads).1
  refine ⟨?_, hagree, ?_⟩
  · rw [hmodel]
    have hempty : CapacityModel.UniqueAuthority {} := ⟨List.nodup_nil, List.nodup_nil⟩
    have haccepted : CapacityModel.LoadsAccepted {} ops :=
      Runs.always_iff.mpr fun _ op _ heq hload => by
        have hmem : op ∈ ops := heq ▸ List.mem_append_right _ List.mem_cons_self
        exact absurd ((hloads op hmem).symm.trans hload) Bool.false_ne_true
    have hnone : ∀ bytes, ModelOp.load bytes ∉ ops := fun _ hmem =>
      absurd (hloads _ hmem) Bool.true_eq_false.mp
    exact hempty.run haccepted (fun bytes _ hmem => absurd hmem (hnone bytes)) ops
      List.prefix_rfl
  · rw [hmodel']
    exact (hagree.run fun op hop => ModelOp.isLoad_of_isRemote (hremote' op hop)).2

end Threads

end CapacityFabric
