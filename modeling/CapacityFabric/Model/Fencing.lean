import CapacityFabric.Model.Operations

/-!
# Generation fencing across a restart

A restarted model has the records that were saved but none of the generations
that were tracked.  What fences a resource there is only what was tracked since.
-/

namespace CapacityFabric

namespace CapacityModel

def heldGeneration (m : CapacityModel) (id : ResourceId) : ResourceGeneration :=
  ((m.resources.find? id).map ResourceInfo.generation).getD default

/-- An accepted publication is not behind the generation that `held` has for its
resource, and an accepted advance leaves the resource ahead of it. -/
def FencedBy (held : ResourceId → ResourceGeneration) (s : CapacityModel) : ModelOp → Prop
  | .publishResource r =>
    (s.publishResource r).2 = true → ¬r.generation.value < (held r.id).value
  | .advanceResourceGeneration id =>
    (s.advanceResourceGeneration id).2 = true →
      (held id).value < ((s.advanceResourceGeneration id).1.heldGeneration id).value
  | _ => True

/-- The step either finds a tracked generation, or does what no tracked generation
is needed for: it publishes from the live incarnation at `held` or above, and
advances only what `held` has no generation for. -/
def NeedsNoFence (held : ResourceId → ResourceGeneration) (s : CapacityModel) : ModelOp → Prop
  | .publishResource r =>
    (s.resourceGen.current r.id).valid = true ∨ s.isFreshBoot r.worker r.bootId = false ∨
      (held r.id).value ≤ r.generation.value
  | .advanceResourceGeneration id =>
    (s.resourceGen.current id).valid = true ∨ s.resources.find? id = none ∨
      (held id).value = 0
  | _ => True

def TrackedAbove (held : ResourceId → ResourceGeneration) (s : CapacityModel) : Prop :=
  ∀ id, (s.resourceGen.current id).valid = true →
    (held id).value ≤ (s.resourceGen.current id).value

theorem resourceGen_step (m : CapacityModel) (op : ModelOp) :
    (m.step op).resourceGen = m.resourceGen ∨
      (∃ r, op = .publishResource r ∧ m.isFreshBoot r.worker r.bootId = true ∧
        m.resourceGen.isStale r.id r.generation = false ∧
        (m.step op).resourceGen = (m.resourceGen.advance r.id r.generation).1) ∨
      ∃ id, op = .advanceResourceGeneration id ∧ m.resources.find? id ≠ none ∧
        (m.step op).resourceGen =
          (m.resourceGen.advance id (m.resourceGen.current id).advance).1 := by
  rcases step_cases m op with ⟨bytes, -, heq⟩ | heq | haccepted
  · exact Or.inl (heq ▸ load_resourceGen m bytes)
  · exact Or.inl (congrArg CapacityModel.resourceGen heq)
  · generalize m.step op = m' at haccepted ⊢
    cases haccepted with
    | publishResource hboot hgen => exact Or.inr (Or.inl ⟨_, rfl, hboot, hgen, rfl⟩)
    | advanceResourceGeneration hr =>
      exact Or.inr (Or.inr ⟨_, rfl, by simp [hr], rfl⟩)
    | _ => exact Or.inl rfl

variable {held : ResourceId → ResourceGeneration} {s : CapacityModel}

theorem current_advance_self (s : CapacityModel) (id : ResourceId) :
    (s.resourceGen.current id).advance.value.toNat =
      min ((s.resourceGen.current id).value.toNat + 1) (2 ^ 64 - 1) :=
  (s.resourceGen.current id).advance_toNat

theorem TrackedAbove.step (h : TrackedAbove held s) {op : ModelOp} (hop : NeedsNoFence held s op) :
    TrackedAbove held (s.step op) := by
  rcases resourceGen_step s op with heq | ⟨r, rfl, hboot, hstale, heq⟩ | ⟨id, rfl, hfound, heq⟩
  · rwa [TrackedAbove, heq]
  · intro id hvalid
    rw [heq, GenerationTracker.current_advance hstale] at hvalid ⊢
    split_ifs at hvalid ⊢ with hid
    · subst hid
      rcases hop with htracked | hdead | hle
      · have hcur : ¬r.generation.value < (s.resourceGen.current r.id).value := by
          simpa [GenerationTracker.isStale, htracked] using hstale
        exact (h r.id htracked).trans (not_lt.mp hcur)
      · exact absurd hboot (by simp [hdead])
      · exact hle
    · exact h id hvalid
  · intro id' hvalid
    rw [heq, GenerationTracker.current_advance (GenerationTracker.isStale_advance _ _)] at hvalid ⊢
    split_ifs at hvalid ⊢ with hid
    · subst hid
      rw [UInt64.le_iff_toNat_le, current_advance_self]
      rcases hop with htracked | hnone | hzero
      · have hle := UInt64.le_iff_toNat_le.mp (h id' htracked)
        have hlt := (s.resourceGen.current id').value.toNat_lt
        omega
      · exact absurd hnone hfound
      · rw [hzero]
        exact Nat.zero_le _
    · exact h id' hvalid

/-- Where the tracked generations are above `held`, a step is fenced exactly when it
needs no further fence. -/
theorem TrackedAbove.fencedBy_iff (h : TrackedAbove held s)
    (hheld : ∀ id, (held id).value.toNat < 2 ^ 64 - 1) (op : ModelOp) :
    FencedBy held s op ↔ NeedsNoFence held s op := by
  cases op with
  | publishResource r =>
    rw [FencedBy, NeedsNoFence, publishResource_eq]
    cases htracked : (s.resourceGen.current r.id).valid with
    | true =>
      simp only [true_or, iff_true]
      intro haccepted
      have hstale : s.resourceGen.isStale r.id r.generation = false := by
        split_ifs at haccepted with hcond
        simpa using (Bool.and_eq_true_iff.mp hcond).2
      have hcur : ¬r.generation.value < (s.resourceGen.current r.id).value := by
        simpa [GenerationTracker.isStale, htracked] using hstale
      exact ((h r.id htracked).trans (not_lt.mp hcur)).not_gt
    | false =>
      have hstale : s.resourceGen.isStale r.id r.generation = false := by
        simp [GenerationTracker.isStale, htracked]
      cases hboot : s.isFreshBoot r.worker r.bootId <;> simp [hstale]
  | advanceResourceGeneration id =>
    rw [FencedBy, NeedsNoFence, advanceResourceGeneration_eq]
    cases hfound : s.resources.find? id with
    | none => simp
    | some r =>
      -- The next generation passes what is held, unless the tracker starts from nothing.
      have hnext := current_advance_self s id
      have hmax := hheld id
      simp only [heldGeneration, OrderedMap.find?_insert_self, Option.map_some, Option.getD_some,
        true_imp_iff, UInt64.lt_iff_toNat_lt, hnext, reduceCtorEq, false_or]
      cases htracked : (s.resourceGen.current id).valid with
      | true =>
        have hle := UInt64.le_iff_toNat_le.mp (h id htracked)
        simp only [true_or, iff_true]
        omega
      | false =>
        have hzero : (s.resourceGen.current id).value = 0 := by
          simpa [Generation.valid] using htracked
        have hiff : (held id).value = 0 ↔ (held id).value.toNat = 0 := by
          rw [← UInt64.toNat_inj]
          rfl
        rw [hzero, hiff]
        simp
  | _ => exact Iff.rfl

theorem trackedAbove_restarted (m : CapacityModel) (held : ResourceId → ResourceGeneration) :
    TrackedAbove held m.restarted := by
  intro id hvalid
  rw [restarted, load_resourceGen] at hvalid
  exact absurd hvalid Bool.false_ne_true

/-- The steps after a restart are fenced by the generations that were saved exactly
when every one of them needs no fence. -/
theorem fenced_after_restart_iff (m : CapacityModel)
    (hheld : ∀ id, (m.heldGeneration id).value.toNat < 2 ^ 64 - 1) (ops : List ModelOp) :
    Runs.Always step (FencedBy m.heldGeneration) m.restarted ops ↔
      Runs.Always step (NeedsNoFence m.heldGeneration) m.restarted ops :=
  Runs.always_congr (TrackedAbove m.heldGeneration)
    (fun _ op h _ => h.fencedBy_iff hheld op) (fun _ _ h _ hop => h.step hop)
    (trackedAbove_restarted m _) (Runs.always_true _ ops)

def evidence (generation boot : UInt64) : ResourceInfo :=
  Reference.makeResource ⟨1⟩ ⟨generation⟩ ⟨1⟩ ⟨1⟩ ⟨1⟩ ⟨1⟩ ⟨boot⟩ {} 16 8 [8]

def atGenerationFive : CapacityModel :=
  Runs.run step {} [.registerWorker ⟨1⟩ ⟨1⟩, .publishResource (evidence 5 1)]

theorem atGenerationFive_held (id : ResourceId) :
    (atGenerationFive.heldGeneration id).value.toNat < 2 ^ 64 - 1 := by
  have hfind : atGenerationFive.resources.find? id =
      if id = ⟨1⟩ then some (evidence 5 1) else none := by
    exact OrderedMap.find?_insert ∅ ⟨1⟩ id (evidence 5 1)
  rw [heldGeneration, hfind]
  split_ifs <;> decide

theorem fenced_after_restart_iff_atGenerationFive :
    Runs.Always step (FencedBy atGenerationFive.heldGeneration) atGenerationFive.restarted
        [.registerWorker ⟨1⟩ ⟨2⟩, .publishResource (evidence 3 2)] ↔
      Runs.Always step (NeedsNoFence atGenerationFive.heldGeneration) atGenerationFive.restarted
        [.registerWorker ⟨1⟩ ⟨2⟩, .publishResource (evidence 3 2)] :=
  fenced_after_restart_iff atGenerationFive atGenerationFive_held _

/-- After the restart a new incarnation publishes generation 3 where 5 was held. -/
theorem stale_generation_readmitted_after_restart :
    ¬ ∀ m : CapacityModel, Reachable m →
      (∀ id, (m.heldGeneration id).value.toNat < 2 ^ 64 - 1) → (load {} m.save).2 = .accepted →
      ∀ ops : List ModelOp, (∀ op ∈ ops, op.isLoad = false) →
        Runs.Always step (FencedBy m.heldGeneration) m.restarted ops := by
  intro h
  have hreachable : Reachable atGenerationFive := Runs.Reachable.init.run _
  have hrun := h atGenerationFive hreachable atGenerationFive_held (by decide +kernel)
    [.registerWorker ⟨1⟩ ⟨2⟩, .publishResource (evidence 3 2)] (by decide)
  exact hrun.2.1 (by decide +kernel) (by decide +kernel)

end CapacityModel

end CapacityFabric
