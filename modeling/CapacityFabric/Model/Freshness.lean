import CapacityFabric.Foundation.OrderedMap
import CapacityFabric.Core.Identities

/-!
# Freshness and generation tracking
-/

namespace CapacityFabric

inductive Freshness
  | fresh
  | stale
  | revalidationRequired
  | insufficientEvidence
  | unknown
  deriving DecidableEq

/-- The current generation of each object of one authority domain. -/
structure GenerationTracker (idTag : IdTag) (genTag : GenerationTag) where
  gen : OrderedMap (StrongId idTag) (Generation genTag)

namespace GenerationTracker

variable {idTag : IdTag} {genTag : GenerationTag}

instance : EmptyCollection (GenerationTracker idTag genTag) := ⟨⟨∅⟩⟩
instance : Inhabited (GenerationTracker idTag genTag) := ⟨∅⟩

def current (t : GenerationTracker idTag genTag) (id : StrongId idTag) : Generation genTag :=
  (t.gen.find? id).getD default

/-- Records the next generation of `id` and whether it was accepted. -/
def advance (t : GenerationTracker idTag genTag) (id : StrongId idTag)
    (next : Generation genTag) : GenerationTracker idTag genTag × Bool :=
  let cur := t.current id
  if next.valid && cur.valid && next.value < cur.value then (t, false)
  else if next.valid && !next.valid then (t, false)
  else (⟨t.gen.insert id next⟩, true)

def isStale (t : GenerationTracker idTag genTag) (id : StrongId idTag)
    (observed : Generation genTag) : Bool :=
  let cur := t.current id
  cur.valid && observed.value < cur.value

@[simp] theorem current_empty (id : StrongId idTag) :
    (∅ : GenerationTracker idTag genTag).current id = default := rfl

theorem advance_eq (t : GenerationTracker idTag genTag) (id : StrongId idTag)
    (next : Generation genTag) :
    t.advance id next =
      if next.valid && t.isStale id next then (t, false) else (⟨t.gen.insert id next⟩, true) := by
  cases hn : next.valid <;> simp [advance, isStale, hn]

theorem current_insert (t : GenerationTracker idTag genTag) (id id' : StrongId idTag)
    (next : Generation genTag) :
    (⟨t.gen.insert id next⟩ : GenerationTracker idTag genTag).current id' =
      if id' = id then next else t.current id' := by
  unfold current
  rw [OrderedMap.find?_insert]
  split_ifs <;> rfl

theorem current_advance {t : GenerationTracker idTag genTag} {id : StrongId idTag}
    {next : Generation genTag} (h : t.isStale id next = false) (id' : StrongId idTag) :
    (t.advance id next).1.current id' = if id' = id then next else t.current id' := by
  rw [advance_eq, h, Bool.and_false]
  exact current_insert t id id' next

theorem find?_advance {t : GenerationTracker idTag genTag} {id : StrongId idTag}
    {next : Generation genTag} (h : t.isStale id next = false) (id' : StrongId idTag) :
    (t.advance id next).1.gen.find? id' = if id' = id then some next else t.gen.find? id' := by
  rw [advance_eq, h, Bool.and_false]
  exact OrderedMap.find?_insert _ _ _ _

theorem current_congr {t u : GenerationTracker idTag genTag} {id : StrongId idTag}
    (h : t.gen.find? id = u.gen.find? id) : t.current id = u.current id := by
  rw [current, h]
  rfl

theorem isStale_congr {t u : GenerationTracker idTag genTag} {id : StrongId idTag}
    (h : t.gen.find? id = u.gen.find? id) (observed : Generation genTag) :
    t.isStale id observed = u.isStale id observed := by
  rw [isStale, isStale, current_congr h]

theorem find?_advance_congr {t u : GenerationTracker idTag genTag} {id id' : StrongId idTag}
    (hid : t.gen.find? id = u.gen.find? id) (h : t.gen.find? id' = u.gen.find? id')
    (next : Generation genTag) :
    (t.advance id next).1.gen.find? id' = (u.advance id next).1.gen.find? id' := by
  rw [advance_eq, advance_eq, isStale_congr hid]
  split_ifs
  · exact h
  · exact OrderedMap.find?_insert_congr h _ _

theorem isStale_advance (t : GenerationTracker idTag genTag) (id : StrongId idTag) :
    t.isStale id (t.current id).advance = false := by
  have hnext := (t.current id).advance_toNat
  have hlt := (t.current id).value.toNat_lt
  have hle : (t.current id).value ≤ (t.current id).advance.value := by
    rw [UInt64.le_iff_toNat_le, hnext]
    omega
  simp [isStale, hle]

end GenerationTracker

end CapacityFabric
