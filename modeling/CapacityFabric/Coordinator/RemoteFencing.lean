import CapacityFabric.Coordinator.Linearizability
import CapacityFabric.Coordinator.Serialization
import CapacityFabric.Model.AdvanceFence
import CapacityFabric.Protocol.ResourceWire

/-!
# Fencing across connections

Once a publication has been acknowledged to one peer, no other peer can publish an earlier
generation of the resource any more, whatever passes between them over other connections.
-/

namespace CapacityFabric

open CapacityModel Linearization

deriving instance DecidableEq for FramedMessage

structure FramedMessage.Publishes (msg : FramedMessage) (r : ResourceInfo) : Prop where
  type : msg.type = .publishResource
  reads : ∃ rest, Payload.readResource.run msg.payload = some (r, rest)

namespace SerialCoordinator

variable {σ : EventSort} {k k' : SerialCoordinator} {c : ConnectionId}
  {msg reply : FramedMessage} {saved : Bool} {r : ResourceInfo}

theorem model_serve (h : k.serve σ c msg saved = some (k', reply)) :
    k'.model = k.model ∨ ∃ op, k'.model = k.model.step op := by
  unfold serve at h
  split at h
  · obtain ⟨rfl, -⟩ := Prod.mk.inj (Option.some.inj h)
    exact Or.inl rfl
  · split at h
    · obtain ⟨rfl, -⟩ := Prod.mk.inj (Option.some.inj h)
      exact Or.inl rfl
    · obtain ⟨rfl, -⟩ := Prod.mk.inj (Option.some.inj h)
      exact Or.inr ⟨.registerWorker _ _, rfl⟩
  · split at h
    · cases h
    · rename_i m type payload hdispatch
      obtain ⟨rfl, -⟩ := Prod.mk.inj (Option.some.inj h)
      have hmodel := Coordinator.model_dispatch σ k.model msg saved
      rw [hdispatch] at hmodel
      exact hmodel.imp_right fun ⟨op, _, heq⟩ => ⟨op, heq⟩

theorem serve_publication (hmsg : msg.Publishes r)
    (h : k.serve σ c msg saved = some (k', reply)) :
    k'.model = (k.model.publishResource r).1 ∧ reply.payload =
      if (k.model.publishResource r).2 then Coordinator.okPayload
      else Coordinator.rejectPayload := by
  obtain ⟨htype, rest, hreads⟩ := hmsg
  have hdispatch : Coordinator.dispatch σ k.model msg saved =
      Coordinator.publicationAnswer .publishResource (k.model.publishResource r) := by
    unfold Coordinator.dispatch
    rw [htype]
    dsimp only
    rw [hreads]
  unfold serve at h
  rw [htype] at h
  dsimp only at h
  rw [hdispatch] at h
  obtain ⟨rfl, rfl⟩ := Prod.mk.inj (Option.some.inj h)
  exact ⟨rfl, rfl⟩

theorem current_le_goes (h : Relation.ReflTransGen (serialCoordinator σ).Goes k k')
    (id : ResourceId) :
    (k.model.resourceGen.current id).value ≤ (k'.model.resourceGen.current id).value := by
  induction h with
  | refl => exact le_rfl
  | @tail k₁ k₂ _ hgoes ih =>
    refine ih.trans ?_
    rcases hgoes with ⟨c, msg, reply, -, saved, hserve⟩ | ⟨c, w, -, rfl⟩
    · rcases model_serve hserve with heq | ⟨op, heq⟩
      · rw [heq]
      · rw [heq]
        exact current_le_step k₁.model op id
    · unfold lose
      split_ifs
      · exact current_le_step k₁.model (.markWorkerDead w) id
      · exact le_rfl

theorem current_publishResource {m : CapacityModel} (h : (m.publishResource r).2 = true) :
    (m.publishResource r).1.resourceGen.current r.id = r.generation := by
  rw [publishResource_eq] at h ⊢
  split_ifs at h ⊢ with hfresh
  rw [Bool.and_eq_true, Bool.not_eq_true'] at hfresh
  rw [GenerationTracker.current_advance hfresh.2, if_pos rfl]

end SerialCoordinator

namespace Threads

open SerialCoordinator

variable {σ : EventSort} {c c' : ConnectionId} {msg reply msg' reply' : FramedMessage}
  {r r' : ResourceInfo}

/-- In every interleaving, after the acknowledgement of a publication no request for an earlier
generation of the resource is granted, over whichever connection it comes. -/
theorem acknowledged_generation_fences {es : List Event}
    {h₁ h₂ h₃ h₄ h₅ : List (Visible ConnectionId FramedMessage FramedMessage)}
    (hseen : history (step σ) seen {} es = h₁ ++ .call c msg :: (h₂ ++ .answer c reply ::
      (h₃ ++ .call c' msg' :: (h₄ ++ .answer c' reply' :: h₅))))
    (h₂c : ∀ v ∈ h₂, v.client ≠ c) (h₄c : ∀ v ∈ h₄, v.client ≠ c')
    (hmsg : msg.Publishes r) (hok : reply.payload = Coordinator.okPayload)
    (hmsg' : msg'.Publishes r') (hid : r'.id = r.id)
    (hbehind : r'.generation.value < r.generation.value) :
    reply'.payload = Coordinator.rejectPayload := by
  have hlinearizable : Linearizable (serialCoordinator σ) (history (step σ) seen {} es) := by
    obtain ⟨marks, p, hmarks, hmarked, -⟩ := exists_account (σ := σ) es
    exact ⟨marks, p, hmarks, hmarked⟩
  rw [hseen] at hlinearizable
  obtain ⟨k₁, k₂, k₃, k₄, -, ⟨-, saved, hserve⟩, hgoes, -, saved', hserve'⟩ :=
    hlinearizable.in_order h₂c h₄c
  obtain ⟨hmodel, hpayload⟩ := serve_publication hmsg hserve
  have haccepted : (k₁.model.publishResource r).2 = true := by
    rw [hok] at hpayload
    by_contra hrefused
    rw [if_neg hrefused] at hpayload
    exact absurd hpayload (by decide)
  -- From here on the tracker is past the earlier generation.
  have hcurrent : r'.generation.value < (k₃.model.resourceGen.current r.id).value := by
    have hgrown := current_le_goes hgoes r.id
    rw [hmodel, current_publishResource haccepted] at hgrown
    exact hbehind.trans_le hgrown
  have hrefused : (k₃.model.publishResource r').2 = false :=
    fenced_of_lt_current hcurrent [] (by simp) r' hid le_rfl
  rw [(serve_publication hmsg' hserve').2, hrefused]
  rfl

def bareResource (g : UInt64) : ResourceInfo where
  id := ⟨1⟩
  generation := ⟨g⟩
  worker := ⟨1⟩
  bootId := ⟨1⟩

def registration : FramedMessage :=
  ⟨.register, 1, BinaryWriter.writeU64 1 ++ BinaryWriter.writeU64 1⟩

def publication (g : UInt64) : FramedMessage :=
  ⟨.publishResource, 2, Payload.writeResource (bareResource g)⟩

theorem publishes_publication (g : UInt64) : (publication g).Publishes (bareResource g) where
  type := rfl
  reads := by
    refine ⟨[], (Payload.parses_readResource ⟨?_, ?_, ?_, ?_, ?_, ?_, ?_, ?_⟩).run⟩
    · exact Payload.carriedAmounts_empty
    · exact Payload.carriedAmounts_empty
    · exact Payload.carriedAmounts_empty
    · exact Payload.carriedAmounts_empty
    all_goals simp [bareResource]

def connected : List Event := [.accept .go, .accept .connect, .accept .go, .accept .go]

def asked (c : ConnectionId) (msg : FramedMessage) : List Event :=
  [.handler c (.recv msg), .handler c (.work true), .handler c (.send true)]

/-- Over the first connection the worker registers and publishes generation 2, over the second
somebody publishes generation 1. -/
def publishedTwice : List Event :=
  connected ++ connected ++ asked 0 registration ++ asked 0 (publication 2) ++
    asked 1 (publication 1)

theorem seen_publishedTwice :
    history (step (SortBy.stable _)) seen {} publishedTwice =
      [Visible.call 0 registration,
        Visible.answer 0 (replyTo registration .register Coordinator.okPayload)] ++
      Visible.call 0 (publication 2) :: ([] ++
      Visible.answer 0 (replyTo (publication 2) .publishResource Coordinator.okPayload) :: ([] ++
      Visible.call 1 (publication 1) :: ([] ++
      Visible.answer 1
        (replyTo (publication 1) .publishResource Coordinator.rejectPayload) :: []))) := by
  decide +kernel

theorem acknowledged_generation_fences_publishedTwice :
    (replyTo (publication 1) .publishResource Coordinator.rejectPayload).payload =
      Coordinator.rejectPayload :=
  acknowledged_generation_fences seen_publishedTwice (by simp) (by simp)
    (publishes_publication 2) rfl (publishes_publication 1) rfl (by decide)

end Threads

end CapacityFabric
