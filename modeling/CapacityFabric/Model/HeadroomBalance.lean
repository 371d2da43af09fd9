import CapacityFabric.Model.NominalBound

/-!
# Headroom and what is in use

The headroom of the model is taken from what is available, which leaves out use and
commitments already, and they are subtracted from it once more.
-/

namespace CapacityFabric

/-- Subtracting use and commitments takes nothing away exactly where there is nothing to
take or neither of them. -/
theorem clamped_twice_eq_iff {f u c : ℚ} (hf : 0 ≤ f) (hu : 0 ≤ u) (hc : 0 ≤ c) :
    max (max (f - u) 0 - c) 0 = f ↔ f = 0 ∨ c = 0 ∧ u = 0 := by
  constructor
  · intro h
    rcases le_total (f - u) 0 with hle | hle
    · rw [max_eq_right hle, max_eq_right (by linarith)] at h
      exact Or.inl h.symm
    · rw [max_eq_left hle] at h
      rcases le_total (f - u - c) 0 with hle' | hle'
      · rw [max_eq_right hle'] at h
        exact Or.inl h.symm
      · rw [max_eq_left hle'] at h
        exact Or.inr ⟨by linarith, by linarith⟩
  · rintro (rfl | ⟨rfl, rfl⟩)
    · rw [max_eq_right (by linarith : (0 : ℚ) - u ≤ 0), max_eq_right (by linarith)]
    · rw [sub_zero, sub_zero, max_eq_left hf, max_eq_left hf]

theorem clamped_rest {n f c v u : ℚ} (hc : 0 ≤ c) (hv : 0 ≤ v) (hu : 0 ≤ u)
    (hn : n = f + c + v + u) : max (max (max (n - f) 0 - c) 0 - v) 0 = u := by
  have hfirst : n - f = c + (v + u) := by linarith
  have hrest : 0 ≤ v + u := add_nonneg hv hu
  rw [hfirst, max_eq_left (add_nonneg hc hrest), add_sub_cancel_left, max_eq_left hrest,
    add_sub_cancel_left, max_eq_left hu]

theorem sum_map_eq_zero_iff {α : Type*} {l : List α} {f : α → ℚ} (h : ∀ a ∈ l, 0 ≤ f a) :
    (l.map f).sum = 0 ↔ ∀ a ∈ l, f a = 0 := by
  constructor
  · intro hzero a ha
    refine List.all_zero_of_le_zero_le_of_sum_eq_zero (fun v hv => ?_) hzero
      (List.mem_map_of_mem ha)
    obtain ⟨a, ha, rfl⟩ := List.mem_map.mp hv
    exact h a ha
  · intro hzero
    apply List.sum_eq_zero
    intro v hv
    obtain ⟨a, ha, rfl⟩ := List.mem_map.mp hv
    exact hzero a ha

theorem amount_totalOf_eq_zero_iff (f : ResourceInfo → Capacity) (rs : List ResourceInfo)
    (d : Dimension) : (totalOf f rs).amount d = 0 ↔ ∀ r ∈ rs, (f r).amount d = 0 := by
  rw [amount_totalOf]
  exact sum_map_eq_zero_iff fun r _ => (f r).amount_nonneg d

/-- What is in use of the resource: the rest of its nominal capacity. -/
def ResourceInfo.inUse (r : ResourceInfo) (d : Dimension) : ℚ :=
  r.nominal.amount d - r.free.amount d - r.committed.amount d - r.unavailable.amount d

theorem sum_nominal (rs : List ResourceInfo) (d : Dimension) :
    (totalOf ResourceInfo.nominal rs).amount d =
      (totalOf ResourceInfo.free rs).amount d + (totalOf ResourceInfo.committed rs).amount d +
        (totalOf ResourceInfo.unavailable rs).amount d +
          (rs.map fun r => r.inUse d).sum := by
  simp only [amount_totalOf, ← List.sum_map_add]
  apply congrArg List.sum
  apply List.map_congr_left
  intro r _
  rw [ResourceInfo.inUse]
  ring

namespace CapacityModel

/-- All evidence is current, and no resource is used, committed and unavailable beyond its
nominal capacity. -/
structure Balanced (m : CapacityModel) : Prop where
  current : ∀ r ∈ m.currentResources, m.isCurrent r = true
  inUse : ∀ r ∈ m.currentResources, ∀ d, 0 ≤ r.inUse d

theorem Balanced.counted_eq {m : CapacityModel} (h : m.Balanced) :
    m.counted = m.currentResources :=
  List.filter_eq_self.mpr h.current

theorem Balanced.sum_inUse_nonneg {m : CapacityModel} (h : m.Balanced) (d : Dimension) :
    0 ≤ (m.currentResources.map fun r => r.inUse d).sum := by
  apply List.sum_nonneg
  intro v hv
  obtain ⟨r, hr, rfl⟩ := List.mem_map.mp hv
  exact h.inUse r hr d

theorem Balanced.available {m : CapacityModel} (h : m.Balanced) (now : TimePoint) :
    (m.buildView now).available = totalOf ResourceInfo.free m.currentResources := by
  rw [available_buildView, h.counted_eq]

theorem Balanced.currentUse {m : CapacityModel} (h : m.Balanced) (d : Dimension) :
    (m.buildView 0).currentUse.amount d = (m.currentResources.map fun r => r.inUse d).sum := by
  have huse : (m.buildView 0).currentUse = (((totalOf ResourceInfo.nominal
      m.currentResources).subtractClamp (m.buildView 0).available).subtractClamp
      (totalOf ResourceInfo.committed m.currentResources)).subtractClamp
      (totalOf ResourceInfo.unavailable m.currentResources) := rfl
  rw [huse, h.available, Capacity.amount_subtractClamp, Capacity.amount_subtractClamp,
    Capacity.amount_subtractClamp]
  exact clamped_rest (Capacity.amount_nonneg _ d) (Capacity.amount_nonneg _ d)
    (h.sum_inUse_nonneg d) (sum_nominal m.currentResources d)

theorem amount_conservative (m : CapacityModel) {d : WorkloadDemand}
    (hslo : d.sloHeadroomRequirement.value = 0) (dim : Dimension) :
    (m.queryHeadroom d).conservative.amount dim =
      max (max ((m.buildView 0).available.amount dim - (m.buildView 0).currentUse.amount dim) 0 -
        (m.buildView 0).committed.amount dim) 0 := by
  have hconservative : (m.queryHeadroom d).conservative = (((m.buildView 0).available.subtractClamp
      (m.buildView 0).currentUse).subtractClamp (m.buildView 0).committed).subtractClamp
      (if d.sloHeadroomRequirement.value > 0 then d.requirements else ∅) := rfl
  rw [hconservative, if_neg (by rw [hslo]; exact lt_irrefl 0), Capacity.amount_subtractClamp,
    Capacity.amount_subtractClamp, Capacity.amount_subtractClamp, Capacity.amount_empty, sub_zero,
    max_eq_left (le_max_right _ _)]

/-- In one dimension the figures add up to what is nominal exactly when nothing is free of
any resource, or nothing committed and in use of any. -/
theorem Balanced.adds_up_iff {m : CapacityModel} (h : m.Balanced) {d : WorkloadDemand}
    (hslo : d.sloHeadroomRequirement.value = 0) (dim : Dimension) :
    (m.queryHeadroom d).conservative.amount dim + (m.buildView 0).currentUse.amount dim +
        (m.buildView 0).committed.amount dim + (m.buildView 0).unavailable.amount dim =
      (m.buildView 0).nominal.amount dim ↔
    (∀ r ∈ m.currentResources, r.free.amount dim = 0) ∨
      ∀ r ∈ m.currentResources, r.committed.amount dim = 0 ∧ r.inUse dim = 0 := by
  have hnominal : (m.buildView 0).nominal = totalOf ResourceInfo.nominal m.currentResources := rfl
  have hcommitted : (m.buildView 0).committed = totalOf ResourceInfo.committed m.currentResources :=
    rfl
  have hunavailable : (m.buildView 0).unavailable =
      totalOf ResourceInfo.unavailable m.currentResources := rfl
  have hfree := (totalOf ResourceInfo.free m.currentResources).amount_nonneg dim
  have hsum := sum_nominal m.currentResources dim
  have hinUse := sum_map_eq_zero_iff fun r hr => h.inUse r hr dim
  have hclamped := clamped_twice_eq_iff hfree (h.sum_inUse_nonneg dim)
    ((totalOf ResourceInfo.committed m.currentResources).amount_nonneg dim)
  rw [amount_totalOf_eq_zero_iff, amount_totalOf_eq_zero_iff, hinUse, ← forall₂_and] at hclamped
  rw [← hclamped, amount_conservative m hslo, h.available, h.currentUse, hnominal, hcommitted,
    hunavailable, hsum]
  constructor
  · intro heq
    linarith
  · intro heq
    rw [heq]
    ring

def oneCommitted : ResourceInfo :=
  { Reference.makeResource ⟨1⟩ ⟨1⟩ ⟨1⟩ ⟨1⟩ ⟨1⟩ ⟨1⟩ ⟨1⟩ {} 0 0 [] with
    nominal := Capacity.setAccelerators ∅ 4
    free := Capacity.setAccelerators ∅ 3
    committed := Capacity.setAccelerators ∅ 1 }

theorem balanced_oneCommitted : (publishedOnce oneCommitted).Balanced := by
  obtain ⟨hresources, hcounted⟩ := @currentResources_publishedOnce oneCommitted (by decide)
    (by decide)
  constructor
  · rw [← List.filter_eq_self, ← counted, hcounted, hresources]
  · rw [hresources, List.forall_mem_singleton]
    intro d
    by_cases hd : d = .acceleratorCount
    · subst hd
      decide +kernel
    · have hnone : ∀ n : DeviceCount, (Capacity.setAccelerators ∅ n).amount d = 0 := fun n =>
        (Capacity.amount_setAccelerators ∅ n d).trans (if_neg hd)
      show 0 ≤ (Capacity.setAccelerators ∅ 4).amount d - (Capacity.setAccelerators ∅ 3).amount d -
        (Capacity.setAccelerators ∅ 1).amount d - (∅ : Capacity).amount d
      rw [hnone, hnone, hnone, Capacity.amount_empty, sub_zero, sub_zero, sub_zero]

end CapacityModel

end CapacityFabric
