import CapacityFabric.Model.Revalidation
import CapacityFabric.Model.Snapshot
import CapacityFabric.Model.UnusableEvidence

/-!
# Recovery is conservative

Evidence that comes out of a file names no incarnation.  What counts later is therefore
traced back to a publication that was accepted after the load.
-/

namespace CapacityFabric

namespace CapacityModel

/-- The run accepts a publication of evidence on `id`, from a live incarnation. -/
def Republished (m : CapacityModel) (ops : List ModelOp) (id : ResourceId) : Prop :=
  ∃ before r after, ops = before ++ .publishResource r :: after ∧ r.id = id ∧
    (Runs.run step m before).isFreshBoot r.worker r.bootId = true ∧
    ((Runs.run step m before).publishResource r).2 = true

variable {m : CapacityModel}

theorem Republished.append {ops : List ModelOp} {id : ResourceId} (h : m.Republished ops id)
    (more : List ModelOp) : m.Republished (ops ++ more) id := by
  obtain ⟨before, r, after, rfl, hr⟩ := h
  exact ⟨before, r, after ++ more, by simp, hr⟩

theorem isFreshBoot_of_published {r : ResourceInfo} (h : (m.publishResource r).2 = true) :
    m.isFreshBoot r.worker r.bootId = true := by
  rw [publishResource_eq] at h
  split_ifs at h with hcond
  exact (Bool.and_eq_true_iff.mp hcond).1

theorem bootId_of_loaded {bytes : List UInt8} (hload : (m.load bytes).2 = .accepted)
    {id : ResourceId} {r : ResourceInfo} (hr : (m.load bytes).1.resources.find? id = some r) :
    r.bootId.valid = false := by
  obtain ⟨hsize, body, snap, hbody, hsnap⟩ := (load_accepted_iff m bytes).mp hload
  -- The table is that of the file, so it is as if a fresh model had loaded it.
  have hfresh : (load {} bytes).1.resources.find? id = some r := by
    rw [load_eq_restore hsize hbody hsnap] at hr ⊢
    exact hr
  apply (load_resources hfresh).resolve_right
  simp

theorem republished_of_bootId (hnone : ∀ id r, m.resources.find? id = some r →
      r.bootId.valid = false) (ops : List ModelOp) {id : ResourceId} {r : ResourceInfo}
    (hr : (Runs.run step m ops).resources.find? id = some r) (hboot : r.bootId.valid = true) :
    m.Republished ops id := by
  induction ops using List.reverseRecOn generalizing r with
  | nil => exact absurd hboot (Bool.eq_false_iff.mp (hnone id r hr))
  | append_singleton ops op ih =>
    rw [Runs.run_append] at hr
    rcases origin_step hr with hinvalid | ⟨r₀, g, hr₀, rfl⟩ | ⟨rfl, haccepted, hid⟩
    · exact absurd hboot (Bool.eq_false_iff.mp hinvalid)
    · exact (ih hr₀ hboot).append [op]
    · exact ⟨ops, r, [], rfl, hid, isFreshBoot_of_published haccepted, haccepted⟩

theorem available_withoutResource_of_not_counted {id : ResourceId}
    (h : ∀ r, m.resources.find? id = some r → m.isCurrent r = false) (now : TimePoint) :
    ((m.withoutResource id).buildView now).available = (m.buildView now).available := by
  have hcounted : (m.withoutResource id).counted = m.counted := by
    have herase : (m.withoutResource id).currentResources =
        (m.resources.entries.filter fun p => p.1 ≠ id).map Prod.snd :=
      congrArg (List.map Prod.snd) (OrderedMap.entries_erase m.resources id)
    show (m.withoutResource id).currentResources.filter m.isCurrent = _
    rw [herase, counted, currentResources, List.filter_map, List.filter_map, List.filter_filter]
    congr 1
    apply List.filter_congr
    intro p hp
    by_cases hid : p.1 = id
    · have hstale := h p.2 (hid ▸ OrderedMap.find?_eq_some_iff.mpr hp)
      simp [hstale]
    · simp [hid]
  rw [available_buildView, available_buildView, hcounted]

/-- After a load that succeeds, on whatever model, a resource adds nothing to what is
available until evidence on it is accepted again, and before any such publication no view
is fresh.  Further loads may be among the later operations. -/
theorem recovery_conservative {bytes : List UInt8} (hload : (m.load bytes).2 = .accepted)
    (ops : List ModelOp) :
    (∀ id, ¬(m.load bytes).1.Republished ops id → ∀ now,
      (((Runs.run step (m.load bytes).1 ops).withoutResource id).buildView now).available =
        ((Runs.run step (m.load bytes).1 ops).buildView now).available) ∧
    ((∀ id, ¬(m.load bytes).1.Republished ops id) → ∀ now,
      ((Runs.run step (m.load bytes).1 ops).buildView now).freshness ≠ .fresh) := by
  have hstale : ∀ id, ¬(m.load bytes).1.Republished ops id → ∀ r,
      (Runs.run step (m.load bytes).1 ops).resources.find? id = some r →
      (Runs.run step (m.load bytes).1 ops).isCurrent r = false := by
    intro id hnot r hr
    by_contra hcurrent
    have hboot := (isCurrent_iff.mp (Bool.not_eq_false _ ▸ hcurrent)).1
    exact hnot (republished_of_bootId (fun _ _ => bootId_of_loaded hload) ops hr hboot)
  constructor
  · intro id hnot
    exact available_withoutResource_of_not_counted (hstale id hnot)
  · intro hnone now hfresh
    obtain ⟨r, hr⟩ := List.exists_mem_of_ne_nil _ ((fresh_buildView_iff _ now).mp hfresh)
    obtain ⟨hmem, hcurrent⟩ := List.mem_filter.mp hr
    obtain ⟨p, hp, rfl⟩ := List.mem_map.mp hmem
    have hnot := hstale p.1 (hnone p.1) p.2 (OrderedMap.find?_eq_some_iff.mpr hp)
    exact absurd hcurrent (Bool.eq_false_iff.mp hnot)

def savedAccelerator : List UInt8 :=
  (Runs.run step {} [.registerWorker ⟨1⟩ ⟨1⟩, .publishResource bootOneEvidence]).save

/-- After the restart the worker registers under its old boot id. -/
def returnsUnderOldBoot : List ModelOp :=
  [.registerWorker ⟨1⟩ ⟨1⟩, .advanceResourceGeneration ⟨1⟩]

theorem savedAccelerator_accepted : (load {} savedAccelerator).2 = .accepted := by
  decide +kernel

theorem recovery_conservative_returnsUnderOldBoot :
    ((Runs.run step (load {} savedAccelerator).1 returnsUnderOldBoot).buildView 0).freshness ≠
      .fresh := by
  apply (recovery_conservative savedAccelerator_accepted returnsUnderOldBoot).2
  intro id h
  obtain ⟨before, r, after, heq, -⟩ := h
  have hmem : ModelOp.publishResource r ∈ returnsUnderOldBoot := heq ▸ by simp
  simp [returnsUnderOldBoot] at hmem

end CapacityModel

end CapacityFabric
