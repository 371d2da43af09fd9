import CapacityFabric.Model.Recovery

/-!
# Available within nominal

What a view has available is added up from the free capacity of the counted resources,
and what is nominal from that of all resources.  Publication compares neither with the
other, so the bound is what the published resources make of it.
-/

namespace CapacityFabric

def ResourceInfo.FreeWithinNominal (r : ResourceInfo) : Prop :=
  ∀ d, r.free.amount d ≤ r.nominal.amount d

namespace CapacityModel

/-- What is available lies between zero and what is nominal, in every view. -/
def AvailableWithinNominal (m : CapacityModel) : Prop :=
  ∀ now d, 0 ≤ (m.buildView now).available.amount d ∧
    (m.buildView now).available.amount d ≤ (m.buildView now).nominal.amount d

/-- The resource publication `op`, if it is accepted, publishes a resource that has at
most its nominal capacity free. -/
def PublishesWithinNominal (m : CapacityModel) : ModelOp → Prop
  | .publishResource r => (m.publishResource r).2 = true → r.FreeWithinNominal
  | _ => True

/-- The evidence that names an incarnation is within its nominal capacity. -/
def EvidenceWithinNominal (m : CapacityModel) : Prop :=
  ∀ id r, m.resources.find? id = some r → r.bootId.valid = true → r.FreeWithinNominal

theorem EvidenceWithinNominal.step {m : CapacityModel} (h : m.EvidenceWithinNominal)
    {op : ModelOp} (hop : m.PublishesWithinNominal op) :
    (m.step op).EvidenceWithinNominal := by
  intro id r hr hboot
  rcases origin_step hr with hinvalid | ⟨r₀, g, hr₀, rfl⟩ | ⟨rfl, haccepted, -⟩
  · exact absurd hboot (Bool.eq_false_iff.mp hinvalid)
  · exact h id r₀ hr₀ hboot
  · exact hop haccepted

theorem EvidenceWithinNominal.run {m : CapacityModel} (h : m.EvidenceWithinNominal)
    {ops : List ModelOp} (hops : Runs.Always CapacityModel.step PublishesWithinNominal m ops) :
    (Runs.run CapacityModel.step m ops).EvidenceWithinNominal := by
  induction ops generalizing m with
  | nil => exact h
  | cons op ops ih => exact ih (h.step hops.1) hops.2

theorem EvidenceWithinNominal.available {m : CapacityModel} (h : m.EvidenceWithinNominal) :
    m.AvailableWithinNominal := by
  intro now d
  refine ⟨Capacity.amount_nonneg _ d, ?_⟩
  have hnominal : (m.buildView now).nominal = totalOf ResourceInfo.nominal m.currentResources :=
    rfl
  rw [available_buildView, hnominal, amount_totalOf, amount_totalOf]
  have hcounted : ∀ r ∈ m.counted, r.free.amount d ≤ r.nominal.amount d := by
    intro r hr
    obtain ⟨hmem, hcurrent⟩ := List.mem_filter.mp hr
    obtain ⟨p, hp, rfl⟩ := List.mem_map.mp hmem
    have hboot := (isCurrent_iff.mp hcurrent).1
    exact h p.1 p.2 (OrderedMap.find?_eq_some_iff.mpr hp) hboot d
  calc (m.counted.map fun r => r.free.amount d).sum
      ≤ (m.counted.map fun r => r.nominal.amount d).sum := List.sum_le_sum hcounted
    _ ≤ (m.currentResources.map fun r => r.nominal.amount d).sum := by
      -- What is not counted adds no less than nothing.
      rw [counted, SortBy.sum_map_filter]
      apply List.sum_le_sum
      intro r _
      split_ifs
      · exact le_rfl
      · exact r.nominal.amount_nonneg d

def publishedOnce (r : ResourceInfo) : CapacityModel :=
  Runs.run step {} [.registerWorker r.worker r.bootId, .publishResource r]

theorem publishedOnce_eq {r : ResourceInfo} (hworker : r.worker.valid = true)
    (hboot : r.bootId.valid = true) :
    publishedOnce r =
      { resources := OrderedMap.insert ∅ r.id r
        devices := OrderedMap.insert ∅ r.deviceId (publishedDevice r)
        resourceGen := (GenerationTracker.advance ∅ r.id r.generation).1
        sources := OrderedMap.insert ∅ r.worker ⟨r.bootId, true⟩ } := by
  have hregistered : step {} (.registerWorker r.worker r.bootId) =
      { sources := OrderedMap.insert ∅ r.worker ⟨r.bootId, true⟩ } := by
    simp [step, apply, registerWorker, hworker, hboot]
  have hlive : isFreshBoot { sources := OrderedMap.insert ∅ r.worker ⟨r.bootId, true⟩ }
      r.worker r.bootId = true := by
    simp [isFreshBoot]
  have hgeneration : GenerationTracker.isStale ∅ r.id r.generation = false := rfl
  rw [publishedOnce, Runs.run_cons, hregistered, Runs.run_cons, Runs.run_nil, step, apply,
    publishResource_eq, hlive, hgeneration]
  rfl

theorem currentResources_publishedOnce {r : ResourceInfo} (hworker : r.worker.valid = true)
    (hboot : r.bootId.valid = true) :
    (publishedOnce r).currentResources = [r] ∧ (publishedOnce r).counted = [r] := by
  have hresources : (publishedOnce r).currentResources = [r] := by
    rw [publishedOnce_eq hworker hboot]
    rfl
  have hcurrent : (publishedOnce r).isCurrent r = true := by
    rw [isCurrent_iff, publishedOnce_eq hworker hboot]
    exact ⟨hboot, OrderedMap.find?_insert_self _ _ _⟩
  refine ⟨hresources, ?_⟩
  rw [counted, hresources, List.filter_cons_of_pos hcurrent, List.filter_nil]

theorem buildView_publishedOnce {r : ResourceInfo} (hworker : r.worker.valid = true)
    (hboot : r.bootId.valid = true) (now : TimePoint) (d : Dimension) :
    ((publishedOnce r).buildView now).available.amount d = r.free.amount d ∧
      ((publishedOnce r).buildView now).nominal.amount d = r.nominal.amount d := by
  obtain ⟨hresources, hcounted⟩ := currentResources_publishedOnce hworker hboot
  have hnominal : ((publishedOnce r).buildView now).nominal =
      totalOf ResourceInfo.nominal (publishedOnce r).currentResources := rfl
  rw [available_buildView, hnominal, hcounted, hresources, amount_totalOf, amount_totalOf]
  simp

/-- As long as every accepted publication has at most its nominal capacity free, what is
available stays within what is nominal.  A worker that publishes any other resource to a
fresh model breaks the bound. -/
theorem available_within_nominal_iff (ops : List ModelOp) (r : ResourceInfo) :
    (Runs.Always step PublishesWithinNominal {} ops →
      ∀ before, before <+: ops → AvailableWithinNominal (Runs.run step {} before)) ∧
    (r.worker.valid = true → r.bootId.valid = true →
      (AvailableWithinNominal (publishedOnce r) ↔ r.FreeWithinNominal)) := by
  constructor
  · rintro hops before ⟨after, rfl⟩
    have hbefore : Runs.Always step PublishesWithinNominal {} before :=
      Runs.always_iff.mpr fun b op rest he =>
        Runs.always_iff.mp hops b op (rest ++ after) (by simp [he])
    have hfresh : EvidenceWithinNominal {} := fun _ _ hr => absurd hr (by simp)
    exact (hfresh.run hbefore).available
  · intro hworker hboot
    have hview := buildView_publishedOnce hworker hboot
    constructor
    · intro h d
      have hle := (h 0 d).2
      rwa [(hview 0 d).1, (hview 0 d).2] at hle
    · intro h now d
      rw [(hview now d).1, (hview now d).2]
      exact ⟨r.free.amount_nonneg d, h d⟩

def overreported : ResourceInfo :=
  { Reference.makeResource ⟨1⟩ ⟨1⟩ ⟨1⟩ ⟨1⟩ ⟨1⟩ ⟨1⟩ ⟨1⟩ {} 16 8 [8] with
    free := Capacity.setAccelerators ∅ 2 }

def halfFree : ResourceInfo := Reference.makeResource ⟨1⟩ ⟨1⟩ ⟨1⟩ ⟨1⟩ ⟨1⟩ ⟨1⟩ ⟨1⟩ {} 16 8 [8]

theorem freeWithinNominal_halfFree : halfFree.FreeWithinNominal := by
  intro d
  have hamount : ∀ b : ByteCount, ((Capacity.setVram ∅ b).setAccelerators 1).amount d =
      if d = .acceleratorCount then 1 else if d = .vramBytes then (b.toNat : ℚ) else 0 := by
    intro b
    rw [Capacity.amount_setAccelerators, Capacity.amount_setVram]
    rfl
  change ((Capacity.setVram ∅ 8).setAccelerators 1).amount d ≤
    ((Capacity.setVram ∅ 16).setAccelerators 1).amount d
  rw [hamount, hamount]
  split_ifs
  · exact le_rfl
  · decide +kernel
  · exact le_rfl

theorem available_within_nominal_iff_overreported :
    (∀ before, before <+: [.registerWorker ⟨1⟩ ⟨1⟩, .publishResource halfFree] →
      AvailableWithinNominal (Runs.run step {} before)) ∧
    (AvailableWithinNominal (publishedOnce overreported) ↔ overreported.FreeWithinNominal) :=
  ⟨(available_within_nominal_iff _ overreported).1
      ⟨trivial, fun _ => freeWithinNominal_halfFree, trivial⟩,
    (available_within_nominal_iff [] overreported).2 (by decide) (by decide)⟩

theorem available_exceeds_nominal :
    ¬ ∀ m : CapacityModel, Reachable m → ∀ now d,
      0 ≤ (m.buildView now).available.amount d ∧
        (m.buildView now).available.amount d ≤ (m.buildView now).nominal.amount d := by
  intro h
  have hreachable : Reachable (publishedOnce overreported) := Runs.Reachable.init.run _
  have hle := h _ hreachable 0 .acceleratorCount
  revert hle
  decide +kernel

end CapacityModel

end CapacityFabric
