import CapacityFabric.Model.Operations

/-!
# Generations

Each publication writes a record and its tracker separately.  The two agree in every state
that operations other than a load reach, and neither goes back.
-/

namespace CapacityFabric

namespace GenerationTracker

variable {idTag : IdTag} {genTag : GenerationTag}

theorem current_le_advance {t : GenerationTracker idTag genTag} {id : StrongId idTag}
    {next : Generation genTag} (h : t.isStale id next = false) (id' : StrongId idTag) :
    (t.current id').value ≤ ((t.advance id next).1.current id').value := by
  rw [current_advance h]
  split_ifs with hid
  · subst hid
    cases hvalid : (t.current id').valid with
    | false =>
      have hzero : (t.current id').value = 0 := by simpa [Generation.valid] using hvalid
      rw [hzero]
      exact UInt64.zero_le
    | true => simpa [isStale, hvalid] using h
  · exact le_rfl

end GenerationTracker

namespace CapacityModel

structure GenerationsAgree (m : CapacityModel) : Prop where
  resources : ∀ id r, m.resources.find? id = some r → r.generation = m.resourceGen.current id
  reservations : ∀ r ∈ m.reservations, r.generation = m.reservationGen.current r.id
  topology : m.topoGen = m.topologyGen.current ⟨1⟩

/-- No generation of `m` is lower in `m'`, and no record is gone. -/
structure GenerationsLE (m m' : CapacityModel) : Prop where
  resourceGen : ∀ id, (m.resourceGen.current id).value ≤ (m'.resourceGen.current id).value
  reservationGen : ∀ id,
    (m.reservationGen.current id).value ≤ (m'.reservationGen.current id).value
  topologyGen : ∀ id, (m.topologyGen.current id).value ≤ (m'.topologyGen.current id).value
  healthGen : ∀ id, (m.healthGen.current id).value ≤ (m'.healthGen.current id).value
  resources : ∀ id r, m.resources.find? id = some r →
    ∃ r', m'.resources.find? id = some r' ∧ r.generation.value ≤ r'.generation.value
  reservations : ∀ r ∈ m.reservations,
    ∃ r' ∈ m'.reservations, r'.id = r.id ∧ r.generation.value ≤ r'.generation.value
  demands : ∀ id d, m.demands.find? id = some d →
    ∃ d', m'.demands.find? id = some d' ∧ d.generation.value ≤ d'.generation.value
  topoGen : m.topoGen.value ≤ m'.topoGen.value

theorem GenerationsLE.refl (m : CapacityModel) : GenerationsLE m m where
  resourceGen _ := le_rfl
  reservationGen _ := le_rfl
  topologyGen _ := le_rfl
  healthGen _ := le_rfl
  resources _ r hr := ⟨r, hr, le_rfl⟩
  reservations r hr := ⟨r, hr, rfl, le_rfl⟩
  demands _ d hd := ⟨d, hd, le_rfl⟩
  topoGen := le_rfl

theorem GenerationsLE.trans {a b c : CapacityModel} (hab : GenerationsLE a b)
    (hbc : GenerationsLE b c) : GenerationsLE a c where
  resourceGen id := (hab.resourceGen id).trans (hbc.resourceGen id)
  reservationGen id := (hab.reservationGen id).trans (hbc.reservationGen id)
  topologyGen id := (hab.topologyGen id).trans (hbc.topologyGen id)
  healthGen id := (hab.healthGen id).trans (hbc.healthGen id)
  resources id r hr := by
    obtain ⟨r', hr', hle⟩ := hab.resources id r hr
    obtain ⟨r'', hr'', hle'⟩ := hbc.resources id r' hr'
    exact ⟨r'', hr'', hle.trans hle'⟩
  reservations r hr := by
    obtain ⟨r', hr', hid, hle⟩ := hab.reservations r hr
    obtain ⟨r'', hr'', hid', hle'⟩ := hbc.reservations r' hr'
    exact ⟨r'', hr'', hid'.trans hid, hle.trans hle'⟩
  demands id d hd := by
    obtain ⟨d', hd', hle⟩ := hab.demands id d hd
    obtain ⟨d'', hd'', hle'⟩ := hbc.demands id d' hd'
    exact ⟨d'', hd'', hle.trans hle'⟩
  topoGen := hab.topoGen.trans hbc.topoGen

theorem GenerationsAgree.accepted {m m' : CapacityModel} {op : ModelOp} (h : m.GenerationsAgree)
    (hm' : Accepted m op m') : m'.GenerationsAgree := by
  cases hm' with
  | @publishResource r hboot hgen =>
    refine ⟨fun id r' hr' => ?_, h.reservations, h.topology⟩
    dsimp only at hr' ⊢
    rw [OrderedMap.find?_insert] at hr'
    rw [GenerationTracker.current_advance hgen]
    split_ifs at hr' ⊢
    · exact Option.some.inj hr' ▸ rfl
    · exact h.resources id r' hr'
  | @advanceResourceGeneration id r hr =>
    refine ⟨fun id' r' hr' => ?_, h.reservations, h.topology⟩
    dsimp only at hr' ⊢
    rw [OrderedMap.find?_insert] at hr'
    rw [GenerationTracker.current_advance (GenerationTracker.isStale_advance _ _)]
    split_ifs at hr' ⊢
    · exact Option.some.inj hr' ▸ rfl
    · exact h.resources id' r' hr'
  | @publishReservation res hgen =>
    refine ⟨h.resources, fun r hr => ?_, h.topology⟩
    dsimp only
    rw [GenerationTracker.current_advance hgen]
    rcases List.mem_append.mp hr with hr | hr
    · obtain ⟨hr, hid⟩ := List.mem_filter.mp hr
      rw [if_neg (of_decide_eq_true hid)]
      exact h.reservations r hr
    · rw [List.mem_singleton.mp hr, if_pos rfl]
  | @registerTopology links gen hgen =>
    refine ⟨h.resources, h.reservations, ?_⟩
    dsimp only
    rw [GenerationTracker.current_advance hgen, if_pos rfl]
  | _ => exact ⟨h.resources, h.reservations, h.topology⟩

theorem GenerationsAgree.le_accepted {m m' : CapacityModel} {op : ModelOp}
    (h : m.GenerationsAgree) (hm' : Accepted m op m') : GenerationsLE m m' := by
  have hrefl := GenerationsLE.refl m
  -- Only the published entry changes, to a generation that the tracker admits.
  cases hm' with
  | @publishResource r hboot hgen =>
    have hgrows := GenerationTracker.current_le_advance hgen
    refine { hrefl with resourceGen := hgrows, resources := fun id r' hr' => ?_ }
    by_cases hid : id = r.id
    · subst hid
      refine ⟨r, OrderedMap.find?_insert_self _ _ _, ?_⟩
      have hle := hgrows r.id
      rwa [GenerationTracker.current_advance hgen, if_pos rfl, ← h.resources _ r' hr'] at hle
    · exact ⟨r', (OrderedMap.find?_insert_of_ne _ _ hid).trans hr', le_rfl⟩
  | @advanceResourceGeneration id r hr =>
    have hnext := GenerationTracker.isStale_advance m.resourceGen id
    have hgrows := GenerationTracker.current_le_advance hnext
    refine { hrefl with resourceGen := hgrows, resources := fun id' r' hr' => ?_ }
    by_cases hid : id' = id
    · subst hid
      refine ⟨_, OrderedMap.find?_insert_self _ _ _, ?_⟩
      have hle := hgrows id'
      rw [GenerationTracker.current_advance hnext, if_pos rfl] at hle
      exact (h.resources _ r' hr') ▸ hle
    · exact ⟨r', (OrderedMap.find?_insert_of_ne _ _ hid).trans hr', le_rfl⟩
  | @publishReservation res hgen =>
    have hgrows := GenerationTracker.current_le_advance hgen
    refine { hrefl with reservationGen := hgrows, reservations := fun r hr => ?_ }
    by_cases hid : r.id = res.id
    · refine ⟨res, List.mem_append_right _ (List.mem_singleton.mpr rfl), hid.symm, ?_⟩
      have hle := hgrows res.id
      rwa [GenerationTracker.current_advance hgen, if_pos rfl, ← hid,
        ← h.reservations r hr] at hle
    · have hkept : r ∈ m.reservations.filter fun r => r.id ≠ res.id :=
        List.mem_filter.mpr ⟨hr, decide_eq_true hid⟩
      exact ⟨r, List.mem_append_left _ hkept, rfl, le_rfl⟩
  | @registerDemand d hgen =>
    refine { hrefl with demands := fun id d' hd' => ?_ }
    by_cases hid : id = d.id
    · subst hid
      exact ⟨d, OrderedMap.find?_insert_self _ _ _, hgen d' hd'⟩
    · exact ⟨d', (OrderedMap.find?_insert_of_ne _ _ hid).trans hd', le_rfl⟩
  | @registerTopology links gen hgen =>
    have hgrows := GenerationTracker.current_le_advance hgen
    refine { hrefl with topologyGen := hgrows, topoGen := ?_ }
    have hle := hgrows ⟨1⟩
    rwa [GenerationTracker.current_advance hgen, if_pos rfl, ← h.topology] at hle
  | @setHealth id health gen hgen =>
    exact { hrefl with healthGen := GenerationTracker.current_le_advance hgen }
  | _ => exact { hrefl with }

theorem GenerationsAgree.step {m : CapacityModel} (h : m.GenerationsAgree) {op : ModelOp}
    (hload : op.isLoad = false) : (m.step op).GenerationsAgree ∧ GenerationsLE m (m.step op) := by
  rcases apply_cases m hload with heq | ⟨m', heq, hm'⟩
  · rw [CapacityModel.step, heq]
    exact ⟨h, GenerationsLE.refl m⟩
  · rw [CapacityModel.step, heq]
    exact ⟨h.accepted hm', h.le_accepted hm'⟩

theorem generationsAgree_empty : GenerationsAgree {} :=
  ⟨fun _ _ hr => absurd hr (by simp), fun _ hr => absurd hr List.not_mem_nil, rfl⟩

theorem GenerationsAgree.run {m : CapacityModel} (h : m.GenerationsAgree) {ops : List ModelOp}
    (hloads : ∀ op ∈ ops, op.isLoad = false) :
    (Runs.run CapacityModel.step m ops).GenerationsAgree ∧
      GenerationsLE m (Runs.run CapacityModel.step m ops) := by
  induction ops generalizing m with
  | nil => exact ⟨h, GenerationsLE.refl m⟩
  | cons op ops ih =>
    obtain ⟨hagree, hle⟩ := h.step (hloads op List.mem_cons_self)
    obtain ⟨hagree', hle'⟩ := ih hagree fun o ho => hloads o (List.mem_cons_of_mem op ho)
    exact ⟨hagree', hle.trans hle'⟩

/-- Along a run without loads records and trackers agree and never go back, and what is
rejected changes nothing. -/
theorem generations_agree_and_grow {ops : List ModelOp}
    (hloads : ∀ op ∈ ops, op.isLoad = false) :
    (∀ before, before <+: ops → (Runs.run step {} before).GenerationsAgree) ∧
    (∀ before between, before ++ between <+: ops →
      GenerationsLE (Runs.run step {} before) (Runs.run step {} (before ++ between))) ∧
    ∀ before op, before ++ [op] <+: ops → ((Runs.run step {} before).apply op).2 = false →
      (Runs.run step {} before).step op = Runs.run step {} before := by
  have hagree : ∀ before, before <+: ops → (Runs.run step {} before).GenerationsAgree :=
    fun before hpre =>
      (generationsAgree_empty.run fun op hop => hloads op (hpre.subset hop)).1
  refine ⟨hagree, fun before between hpre => ?_, fun before op hpre hrejected => ?_⟩
  · rw [Runs.run_append]
    have hbefore := hagree before ((List.prefix_append _ _).trans hpre)
    exact (hbefore.run fun op hop =>
      hloads op (hpre.subset (List.mem_append_right before hop))).2
  · have hload := hloads op (hpre.subset (List.mem_append_right before List.mem_cons_self))
    rcases apply_cases (Runs.run step {} before) hload with heq | ⟨m', heq, -⟩
    · exact congrArg Prod.fst heq
    · exact absurd hrejected (by rw [heq]; exact Bool.true_eq_false.mp)

def publishThenRegress : List ModelOp :=
  [.registerWorker ⟨1⟩ ⟨1⟩,
    .publishResource (Reference.makeResource ⟨1⟩ ⟨5⟩ ⟨1⟩ ⟨1⟩ ⟨1⟩ ⟨1⟩ ⟨1⟩ {} 16 8 [8]),
    .publishResource (Reference.makeResource ⟨1⟩ ⟨3⟩ ⟨1⟩ ⟨1⟩ ⟨1⟩ ⟨1⟩ ⟨1⟩ {} 16 8 [8])]

theorem generations_agree_and_grow_publishThenRegress :
    (∀ before, before <+: publishThenRegress → (Runs.run step {} before).GenerationsAgree) ∧
    (∀ before between, before ++ between <+: publishThenRegress →
      GenerationsLE (Runs.run step {} before) (Runs.run step {} (before ++ between))) ∧
    ∀ before op, before ++ [op] <+: publishThenRegress →
      ((Runs.run step {} before).apply op).2 = false →
      (Runs.run step {} before).step op = Runs.run step {} before :=
  generations_agree_and_grow (by decide)

end CapacityModel

end CapacityFabric
