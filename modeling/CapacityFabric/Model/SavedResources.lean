import CapacityFabric.Model.SavedState

/-!
# The resources after a restart

A fresh model that accepts a saved file holds the identity of every resource that was
saved, under the same id, and nothing that would make its evidence current.
-/

namespace CapacityFabric

/-- An amount that a count of units and a `double` hold alike. -/
def IsCount (v : ℚ) : Prop := ∃ n : ℕ, n < 2 ^ 53 ∧ v = n

theorem IsCount.toNat_toUInt64 {v : ℚ} (h : IsCount v) : ((toUInt64 v).toNat : ℚ) = v := by
  obtain ⟨n, hn, rfl⟩ := h
  have hmin : min n 18446744073709551615 = n := by omega
  rw [toUInt64, Nat.floor_natCast, hmin, UInt64.toNat_ofNat', Nat.mod_eq_of_lt (by omega)]

/-- What a restart keeps of a resource. -/
structure SameIdentity (r r' : ResourceInfo) : Prop where
  id : r'.id = r.id
  generation : r'.generation = r.generation
  fleetId : r'.fleetId = r.fleetId
  nodeId : r'.nodeId = r.nodeId
  deviceId : r'.deviceId = r.deviceId
  architecture : r'.capability.architecture = r.capability.architecture
  className : r'.capability.className = r.capability.className
  capability : r'.capability.capability = r.capability.capability
  kind : r'.kind = r.kind
  health : r'.health = r.health
  vram : IsCount (r.nominal.amount .vramBytes) →
    r'.nominal.amount .vramBytes = r.nominal.amount .vramBytes
  accelerators : IsCount (r.nominal.amount .acceleratorCount) →
    r'.nominal.amount .acceleratorCount = r.nominal.amount .acceleratorCount
  worker : r'.worker.valid = false
  bootId : r'.bootId.valid = false

namespace CapacityModel

open BinaryReader BinaryWriter Parsing

def StoredUnderId (m : CapacityModel) : Prop :=
  ∀ id r, m.resources.find? id = some r → r.id = id

theorem StoredUnderId.insert {m : CapacityModel} (h : m.StoredUnderId) {id : ResourceId}
    {r : ResourceInfo} (hid : r.id = id) :
    StoredUnderId { m with resources := m.resources.insert id r } := by
  intro id' r' hr'
  dsimp only at hr'
  rw [OrderedMap.find?_insert] at hr'
  split_ifs at hr' with heq
  · rw [heq, ← Option.some.inj hr', hid]
  · exact h id' r' hr'

theorem StoredUnderId.load {m : CapacityModel} (h : m.StoredUnderId) (bytes : List UInt8) :
    (m.load bytes).1.StoredUnderId :=
  load_table (P := fun id r => r.id = id) (Returns.of_forall fun _ _ _ => rfl) (fun _ ht => ht) h
    bytes

theorem StoredUnderId.step {m : CapacityModel} (h : m.StoredUnderId) (op : ModelOp) :
    (m.step op).StoredUnderId := by
  rcases step_cases m op with ⟨bytes, -, heq⟩ | heq | haccepted
  · rw [heq]
    exact h.load bytes
  · rwa [heq]
  · generalize m.step op = m' at haccepted ⊢
    cases haccepted with
    | publishResource => exact h.insert rfl
    | advanceResourceGeneration hr =>
      -- Only the generation of the resource changes.
      have hid := h _ _ hr
      exact h.insert hid
    | _ => exact h

theorem storedUnderId_of_reachable {m : CapacityModel} (h : Reachable m) : m.StoredUnderId :=
  h.invariant (fun id r hr => absurd hr (by simp)) fun _ op hm => hm.step op

/-- Whatever follows the table of the resources, it is read as it was saved. -/
theorem decodeBody_saveBody_resources {m : CapacityModel} (hsize : m.savedSize ≤ maxBytes)
    {snap : Snapshot} (h : decodeBody m.saveBody = some snap) :
    snap.epoch = m.epoch ∧ snap.resources = m.resources.entries.map savedResource := by
  obtain ⟨-, hlt, -, -, -, hstrings⟩ := counts_lt hsize
  obtain ⟨⟨snap, rest⟩, hrun, rfl⟩ := Option.map_eq_some_iff.mp h
  rw [saveBody_eq, readSnapshot, (parses_readU64 _).run_bind] at hrun
  by_cases hcount : m.resources.entries.length ≤ 1000000
  · rw [(parses_resources hcount hstrings).run_bind] at hrun
    -- The tables that follow are not needed, only that they are read.
    refine Returns.after (Q := fun snap => snap.epoch = m.epoch ∧
      snap.resources = m.resources.entries.map savedResource) (fun reservations => ?_) _ _ _ hrun
    refine Returns.after fun releases => Returns.after fun forecastHistory =>
      Returns.after fun data => ?_
    split_ifs
    · exact Returns.pure ⟨rfl, rfl⟩
    · exact fun _ _ _ hfail => absurd hfail (by simp)
  · rw [((refuses_readRecords hlt hcount).bind _) _] at hrun
    exact absurd hrun (by simp)

theorem restarted_eq {m : CapacityModel} (haccepted : (load {} m.save).2 = .accepted) :
    ∃ snap, m.restarted = restore {} snap ∧ snap.epoch = m.epoch ∧
      snap.resources = m.resources.entries.map savedResource := by
  obtain ⟨hsize, body, snap, hbody, hsnap⟩ := (load_accepted_iff _ _).mp haccepted
  have hrestored := congrArg Prod.fst (load_eq_restore (m := {}) hsize hbody hsnap)
  rw [length_save] at hsize
  rw [save_eq_framed, checkedBody_framed (counts_lt hsize).1, Option.some.injEq] at hbody
  rw [← hbody] at hsnap
  exact ⟨snap, hrestored, decodeBody_saveBody_resources hsize hsnap⟩

theorem find?_restarted {m : CapacityModel} (haccepted : (load {} m.save).2 = .accepted)
    (id : ResourceId) :
    m.restarted.resources.find? id = (m.resources.find? id).map fun r => savedResource (id, r) := by
  obtain ⟨snap, hrestarted, -, hresources⟩ := restarted_eq haccepted
  have hloop := OrderedMap.foldl_pointwise (fun s k => OrderedMap.find? s k)
    (fun s k r => s.insert k (savedResource (k, r))) (fun k r _ => some (savedResource (k, r)))
    (fun s k r k' => OrderedMap.find?_insert s k k' _) m.resources ∅ id
  rw [hrestarted, restore, hresources, List.foldl_map]
  refine hloop.trans ?_
  cases m.resources.find? id <;> rfl

theorem sameIdentity_savedResource (r : ResourceInfo) :
    SameIdentity r (savedResource (r.id, r)) where
  id := rfl
  generation := rfl
  fleetId := rfl
  nodeId := rfl
  deviceId := rfl
  architecture := rfl
  className := rfl
  capability := rfl
  kind := rfl
  health := rfl
  vram h := by
    rw [savedResource, Capacity.amount_setAccelerators, Capacity.amount_setVram]
    exact h.toNat_toUInt64
  accelerators h := by
    rw [savedResource, Capacity.amount_setAccelerators]
    exact h.toNat_toUInt64
  worker := rfl
  bootId := rfl

/-- A fresh model that accepts the file of a model has its epoch and its resources, each
with its identity and without a source. -/
theorem resources_survive_restart {m : CapacityModel} (hreachable : Reachable m)
    (haccepted : (load {} m.save).2 = .accepted) :
    m.restarted.epoch = m.epoch ∧
      ∀ id, Option.Rel SameIdentity (m.resources.find? id) (m.restarted.resources.find? id) := by
  constructor
  · obtain ⟨snap, hrestarted, hepoch, -⟩ := restarted_eq haccepted
    rw [hrestarted]
    exact hepoch
  · intro id
    rw [find?_restarted haccepted]
    cases hr : m.resources.find? id with
    | none => exact Option.Rel.none
    | some r =>
      have hid : r.id = id := storedUnderId_of_reachable hreachable id r hr
      rw [Option.map_some, ← hid]
      exact Option.Rel.some (sameIdentity_savedResource r)

def namedAccelerator : CapacityModel :=
  Runs.run step {} [.registerWorker ⟨1⟩ ⟨1⟩, .publishResource
    (Reference.makeResource ⟨1⟩ ⟨3⟩ ⟨1⟩ ⟨1⟩ ⟨1⟩ ⟨1⟩ ⟨1⟩ ⟨[104], [], [120], []⟩ 16 8 [8])]

theorem resources_survive_restart_namedAccelerator :
    namedAccelerator.restarted.epoch = namedAccelerator.epoch ∧
      ∀ id, Option.Rel SameIdentity (namedAccelerator.resources.find? id)
        (namedAccelerator.restarted.resources.find? id) :=
  resources_survive_restart (Runs.Reachable.init.run _) (by decide +kernel)

end CapacityModel

end CapacityFabric
