import CapacityFabric.Model.Fencing
import CapacityFabric.Model.Generations

/-!
# What an advance fences

An advance goes on from the tracked generation, not from the stored one.  It fences the
stored generation only where the tracker has kept up with it.
-/

namespace CapacityFabric

namespace CapacityModel

variable {m : CapacityModel} {id : ResourceId}

/-- Until the next load no publication of the resource with a generation up to `g` is
accepted. -/
def Fenced (m : CapacityModel) (id : ResourceId) (g : ResourceGeneration) : Prop :=
  ∀ ops : List ModelOp, (∀ op ∈ ops, op.isLoad = false) → ∀ r : ResourceInfo, r.id = id →
    r.generation.value ≤ g.value → ((Runs.run step m ops).publishResource r).2 = false

theorem current_le_step (m : CapacityModel) (op : ModelOp) (id : ResourceId) :
    (m.resourceGen.current id).value ≤ ((m.step op).resourceGen.current id).value := by
  rcases resourceGen_step m op with heq | ⟨r, -, -, hstale, heq⟩ | ⟨id', -, -, heq⟩
  · rw [heq]
  · rw [heq]
    exact GenerationTracker.current_le_advance hstale id
  · rw [heq]
    exact GenerationTracker.current_le_advance (GenerationTracker.isStale_advance _ _) id

theorem current_le_run (m : CapacityModel) (ops : List ModelOp) (id : ResourceId) :
    (m.resourceGen.current id).value ≤
      ((Runs.run step m ops).resourceGen.current id).value := by
  induction ops generalizing m with
  | nil => exact le_rfl
  | cons op ops ih => exact (current_le_step m op id).trans (ih (m.step op))

theorem publishResource_accepted_iff {r : ResourceInfo} :
    (m.publishResource r).2 = true ↔
      m.isFreshBoot r.worker r.bootId = true ∧ m.resourceGen.isStale r.id r.generation = false := by
  rw [publishResource_eq]
  split_ifs with h
  · simpa using h
  · simpa using h

theorem fenced_of_lt_current {g : ResourceGeneration}
    (h : g.value < (m.resourceGen.current id).value) : m.Fenced id g := by
  intro ops _ r hid hle
  by_contra haccepted
  rw [Bool.not_eq_false, publishResource_accepted_iff] at haccepted
  have hgrown := current_le_run m ops id
  have hbehind : r.generation.value < ((Runs.run step m ops).resourceGen.current r.id).value := by
    rw [hid]
    exact (hle.trans_lt h).trans_le hgrown
  have hvalid : ((Runs.run step m ops).resourceGen.current r.id).valid = true := by
    simp only [Generation.valid, ne_eq, decide_eq_true_eq]
    exact (lt_of_le_of_lt UInt64.zero_le hbehind).ne'
  have hstale : (Runs.run step m ops).resourceGen.isStale r.id r.generation = true := by
    simp [GenerationTracker.isStale, hvalid, hbehind]
  rw [hstale] at haccepted
  exact Bool.true_eq_false.mp haccepted.2

/-- What is not behind the tracked generation is accepted from some worker. -/
theorem lt_current_of_fenced {g : ResourceGeneration} (h : m.Fenced id g) :
    g.value < (m.resourceGen.current id).value := by
  by_contra hbehind
  obtain ⟨ops, hops, w, b, hfresh, hgen, -⟩ := exists_freshBoot m
  have hloads : ∀ op ∈ ops, op.isLoad = false := by
    intro op hop
    obtain ⟨w, b, rfl⟩ := hops op hop
    rfl
  have hrejected := h ops hloads { id := id, generation := g, worker := w, bootId := b } rfl le_rfl
  have haccepted : ((Runs.run step m ops).publishResource
      { id := id, generation := g, worker := w, bootId := b }).2 = true := by
    rw [publishResource_accepted_iff, hgen]
    exact ⟨hfresh, by simp [GenerationTracker.isStale, hbehind]⟩
  exact Bool.true_eq_false.mp (haccepted.symm.trans hrejected)

theorem fenced_iff {g : ResourceGeneration} :
    m.Fenced id g ↔ g.value < (m.resourceGen.current id).value :=
  ⟨lt_current_of_fenced, fenced_of_lt_current⟩

theorem lt_advance_iff {tag : GenerationTag} {g cur : Generation tag} :
    g.value < cur.advance.value ↔
      g.value ≤ cur.value ∧ g.value ≠ 18446744073709551615 := by
  have hnext := cur.advance_toNat
  have hg := g.value.toNat_lt
  have hmax : g.value = 18446744073709551615 ↔ g.value.toNat = 18446744073709551615 := by
    rw [← UInt64.toNat_inj]
    rfl
  rw [UInt64.lt_iff_toNat_lt, UInt64.le_iff_toNat_le, ne_eq, hmax, hnext]
  omega

/-- An advance fences the stored generation exactly when that is tracked, or something
above it is, and is not the last one. -/
theorem advance_fences_iff {r : ResourceInfo} (hr : m.resources.find? id = some r) :
    (m.advanceResourceGeneration id).2 = true ∧
      ((m.advanceResourceGeneration id).1.Fenced id r.generation ↔
        r.generation.value ≤ (m.resourceGen.current id).value ∧
          r.generation.value ≠ 18446744073709551615) := by
  rw [advanceResourceGeneration_eq, hr]
  refine ⟨rfl, ?_⟩
  rw [fenced_iff, ← lt_advance_iff]
  dsimp only
  rw [GenerationTracker.current_advance (GenerationTracker.isStale_advance _ _), if_pos rfl]

theorem advance_fences_iff_atGenerationFive :
    (atGenerationFive.advanceResourceGeneration ⟨1⟩).2 = true ∧
      ((atGenerationFive.advanceResourceGeneration ⟨1⟩).1.Fenced ⟨1⟩ ⟨5⟩ ↔
        (5 : UInt64) ≤ (atGenerationFive.resourceGen.current ⟨1⟩).value ∧
          (5 : UInt64) ≠ 18446744073709551615) :=
  @advance_fences_iff atGenerationFive ⟨1⟩ (evidence 5 1) rfl

theorem reachable_restarted (m : CapacityModel) : Reachable m.restarted := by
  have hloaded : ∀ bytes, Reachable (load {} bytes).1 :=
    fun bytes => Runs.Reachable.step (ModelOp.load bytes) Runs.Reachable.init
  exact hloaded m.save

/-- After a restart an advance leaves generation 1 where 5 was stored, and 3 is accepted. -/
theorem advance_after_restart_admits_stale :
    ¬ ∀ (m : CapacityModel) (id : ResourceId) (r : ResourceInfo), Reachable m →
      m.resources.find? id = some r → (m.advanceResourceGeneration id).2 = true →
      (m.advanceResourceGeneration id).1.Fenced id r.generation := by
  intro h
  have hstored : (atGenerationFive.restarted.resources.find? ⟨1⟩).map ResourceInfo.generation =
      some ⟨5⟩ := by
    decide +kernel
  obtain ⟨r, hr, hgeneration⟩ := Option.map_eq_some_iff.mp hstored
  have hfenced := h _ _ r (reachable_restarted atGenerationFive) hr (by decide +kernel)
  rw [hgeneration] at hfenced
  have hrejected := hfenced [.registerWorker ⟨1⟩ ⟨2⟩] (by decide) (evidence 3 2) rfl (by decide)
  revert hrejected
  decide +kernel

end CapacityModel

end CapacityFabric
