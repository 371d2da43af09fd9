import CapacityFabric.Model.Revalidation
import CapacityFabric.Model.UnusableEvidence
import CapacityFabric.Protocol.ResourceWire
import CapacityFabric.Scenario.CheckedScenarios

/-!
# Sums that stay finite

A publication is not compared with what the model already holds, so each resource alone
can be finite and their sum not.  From then on every query raises.
-/

namespace CapacityFabric

/-- The resource `r'` adds to the totals at most what `r` adds. -/
structure AddsNoMore (counts counts' : ResourceInfo → Bool) (r r' : ResourceInfo) : Prop where
  nominal : r'.nominal = r.nominal
  committed : r'.committed = r.committed
  unavailable : r'.unavailable = r.unavailable
  free : r'.free = r.free
  counted : counts' r' = true → counts r = true

section

variable {f : ResourceInfo → Capacity} {counts counts' : ResourceInfo → Bool}
  {rs rs' : List ResourceInfo}

theorem finiteSum_iff : FiniteSum f rs ↔ ∀ d, (rs.map fun r => (f r).amount d).sum ≤ dblMax := by
  simp only [FiniteSum, Capacity.IsFinite, Arithmetic.round_exact, amount_totalOf]

theorem FiniteSum.perm (h : FiniteSum f rs) (hperm : rs.Perm rs') : FiniteSum f rs' := by
  rw [finiteSum_iff] at h ⊢
  intro d
  rw [← (hperm.map _).sum_eq]
  exact h d

theorem FiniteTotals.perm (h : FiniteTotals counts rs) (hperm : rs.Perm rs') :
    FiniteTotals counts rs' where
  nominal := h.nominal.perm hperm
  committed := h.committed.perm hperm
  unavailable := h.unavailable.perm hperm
  free := h.free.perm (hperm.filter counts)

theorem sum_le_of_forall₂ {R : ResourceInfo → ResourceInfo → Prop} {w w' : ResourceInfo → ℚ}
    (hle : ∀ r r', R r r' → w' r' ≤ w r) (h : List.Forall₂ R rs rs') :
    (rs'.map w').sum ≤ (rs.map w).sum := by
  induction h with
  | nil => exact le_rfl
  | cons hr _ ih =>
    rw [List.map_cons, List.map_cons, List.sum_cons, List.sum_cons]
    exact add_le_add (hle _ _ hr) ih

theorem FiniteSum.mono {R : ResourceInfo → ResourceInfo → Prop} (h : FiniteSum f rs)
    (hle : ∀ r r', R r r' → f r' = f r) (hR : List.Forall₂ R rs rs') : FiniteSum f rs' := by
  rw [finiteSum_iff] at h ⊢
  intro d
  exact (sum_le_of_forall₂ (fun r r' hr => by rw [hle r r' hr]) hR).trans (h d)

theorem FiniteTotals.mono (h : FiniteTotals counts rs)
    (hle : List.Forall₂ (AddsNoMore counts counts') rs rs') : FiniteTotals counts' rs' where
  nominal := h.nominal.mono (fun _ _ hr => hr.nominal) hle
  committed := h.committed.mono (fun _ _ hr => hr.committed) hle
  unavailable := h.unavailable.mono (fun _ _ hr => hr.unavailable) hle
  free := by
    refine finiteSum_iff.mpr fun d => ?_
    have hfree := finiteSum_iff.mp h.free d
    rw [SortBy.sum_map_filter] at hfree ⊢
    refine (sum_le_of_forall₂ (fun r r' hr => ?_) hle).trans hfree
    -- What is not counted adds nothing.
    split_ifs with hcounts' hcounts
    · rw [hr.free]
    · exact absurd (hr.counted hcounts') hcounts
    · exact r.free.amount_nonneg d
    · exact le_rfl

theorem FiniteTotals.fewer (h : FiniteTotals counts rs)
    (hfewer : ∀ r, counts' r = true → counts r = true) : FiniteTotals counts' rs :=
  h.mono (List.forall₂_same.mpr fun r _ => ⟨rfl, rfl, rfl, rfl, hfewer r⟩)

end

def ScenarioAction.AddsResource (a : ScenarioAction) : Prop := ∃ added, a = .addResource added

theorem FiniteTotals.applyAction {v : FleetView} {a : ScenarioAction} (ha : ¬ a.AddsResource)
    (h : FiniteTotals overlayUsable v.resources) :
    FiniteTotals overlayUsable (applyAction v a).resources := by
  cases a with
  | removeResource => exact h.sublist List.filter_sublist
  | addResource added => exact absurd ⟨added, rfl⟩ ha
  | degradeDevice =>
    refine h.mono (List.forall₂_map_right_iff.mpr (List.forall₂_same.mpr fun r _ => ?_))
    split_ifs
    · exact ⟨rfl, rfl, rfl, rfl, fun hfailed => absurd hfailed (by simp [overlayUsable])⟩
    · exact ⟨rfl, rfl, rfl, rfl, id⟩
  | _ => exact h

theorem FiniteTotals.applyActions {v : FleetView} {actions : List ScenarioAction}
    (hactions : ∀ a ∈ actions, ¬ a.AddsResource) (h : FiniteTotals overlayUsable v.resources) :
    FiniteTotals overlayUsable (actions.foldl CapacityFabric.applyAction v).resources := by
  induction actions generalizing v with
  | nil => exact h
  | cons a actions ih =>
    exact ih (fun b hb => hactions b (List.mem_cons_of_mem a hb))
      (h.applyAction (hactions a List.mem_cons_self))

namespace CapacityModel

/-- The sums of the views are finite, and those of the scenarios that add no resource. -/
structure Fits (m : CapacityModel) : Prop where
  view : m.ViewFits
  scenario : FiniteTotals overlayUsable m.currentResources

/-- No view and no query raises, scenarios that add a resource apart. -/
structure QueriesComplete (m : CapacityModel) : Prop where
  view : ∀ now, m.buildView? now = some (m.buildView now)
  feasibility : ∀ σ d mode time,
    m.queryFeasibility? σ d mode time = some (m.queryFeasibility σ d mode time)
  earliestFit : ∀ σ d mode earliestStart duration horizon,
    m.queryEarliestFit? σ d mode earliestStart duration horizon =
      some (m.queryEarliestFit σ d mode earliestStart duration horizon)
  capacity : ∀ σ mode time, m.queryCapacity? σ mode time = some (m.queryCapacity σ mode time)
  headroom : ∀ d, m.queryHeadroom? d = some (m.queryHeadroom d)
  scenario : ∀ s d, (∀ a ∈ s.actions, ¬ a.AddsResource) →
    m.evaluateScenario? s d = some (m.evaluateScenario s d)

theorem queriesComplete_iff {m : CapacityModel} : m.QueriesComplete ↔ m.Fits := by
  constructor
  · intro h
    have hview := (buildView?_eq_some_iff.mp (h.view 0)).2
    -- The scenario without actions shows the resources as they are.
    have hempty := h.scenario (createScenario []) ⟨⟨0⟩, ⟨0⟩, ∅, false, 0, 1, none, [], [], default,
      none⟩ fun a ha => absurd ha List.not_mem_nil
    exact ⟨hview, (evaluateScenario?_eq_some_iff.mp hempty).2.2⟩
  · intro h
    exact {
      view := fun now => buildView?_eq_some_iff.mpr ⟨rfl, h.view⟩
      feasibility := fun σ d mode time => queryFeasibility?_eq_some_iff.mpr ⟨rfl, h.view⟩
      earliestFit := fun σ d mode earliestStart duration horizon =>
        queryEarliestFit?_eq_some_iff.mpr ⟨rfl, h.view⟩
      capacity := fun σ mode time => queryCapacity?_eq_some_iff.mpr ⟨rfl, h.view⟩
      headroom := fun d => queryHeadroom?_eq_some_iff.mpr ⟨rfl, h.view⟩
      scenario := fun s d hs =>
        evaluateScenario?_eq_some_iff.mpr ⟨rfl, h.view, h.scenario.applyActions hs⟩ }

/-- What loading makes of a resource: two nominal amounts that fit a word, and no others. -/
structure FromFile (r : ResourceInfo) : Prop where
  nominal : ∀ d, r.nominal.amount d ≤ 2 ^ 64
  committed : r.committed = ∅
  unavailable : r.unavailable = ∅
  free : r.free = ∅

def OnlyFromFile (m : CapacityModel) : Prop :=
  ∀ id r, m.resources.find? id = some r → FromFile r

theorem cast_toNat_le (n : UInt64) : (n.toNat : ℚ) ≤ 2 ^ 64 := by
  have hlt := n.toNat_lt
  exact_mod_cast hlt.le

theorem returns_fromFile :
    Parsing.Returns readSavedResource fun x => ∀ r, x = .ok r → FromFile r := by
  unfold readSavedResource
  iterate 12 refine Parsing.Returns.after fun _ => ?_
  refine Parsing.Returns.pure fun r hr => ?_
  rw [← Except.ok.inj hr]
  refine ⟨fun d => ?_, rfl, rfl, rfl⟩
  rw [Capacity.amount_setAccelerators, Capacity.amount_setVram, Capacity.amount_empty]
  split_ifs
  · exact cast_toNat_le _
  · exact cast_toNat_le _
  · positivity

/-- A load leaves the resources alone until it replaces them all. -/
theorem resources_load (m : CapacityModel) (bytes : List UInt8) :
    (m.load bytes).1.resources = m.resources ∨ (m.load bytes).1.OnlyFromFile :=
  load_table (Q := fun t => t = m.resources ∨ ∀ id r, t.find? id = some r → FromFile r)
    returns_fromFile (fun _ ht => Or.inr ht) (Or.inl rfl) bytes

theorem finiteSum_of_le {f : ResourceInfo → Capacity} {rs : List ResourceInfo} {bound : ℚ}
    (hle : ∀ r ∈ rs, ∀ d, (f r).amount d ≤ bound) (hbound : rs.length * bound ≤ dblMax) :
    FiniteSum f rs := by
  refine finiteSum_iff.mpr fun d => ?_
  calc (rs.map fun r => (f r).amount d).sum
      ≤ (rs.map fun r => (f r).amount d).length • bound :=
        List.sum_le_card_nsmul _ _ (List.forall_mem_map.mpr fun r hr => hle r hr d)
    _ = rs.length * bound := by rw [List.length_map, nsmul_eq_mul]
    _ ≤ dblMax := hbound

theorem length_currentResources_le (m : CapacityModel) : m.currentResources.length ≤ 2 ^ 64 := by
  have hcode : Function.Injective fun id : ResourceId => id.value.toNat := fun _ _ heq =>
    StrongId.value_injective (UInt64.toNat_inj.mp heq)
  rw [currentResources, List.length_map]
  exact OrderedMap.length_entries_le hcode (fun id => id.value.toNat_lt) m.resources

/-- There are not enough ids for the amounts of a file to exceed a `double`. -/
theorem OnlyFromFile.finiteTotals {m : CapacityModel} (h : m.OnlyFromFile)
    (counts : ResourceInfo → Bool) : FiniteTotals counts m.currentResources := by
  have hfile : ∀ r ∈ m.currentResources, FromFile r := by
    intro r hr
    obtain ⟨p, hp, rfl⟩ := List.mem_map.mp hr
    exact h p.1 p.2 (OrderedMap.find?_eq_some_iff.mpr hp)
  have hlength := m.length_currentResources_le
  -- Only nominal amounts are read; the other capacities add up to nothing.
  have hzero : ∀ n : ℕ, (n : ℚ) * 0 ≤ dblMax := fun n => by
    rw [mul_zero, dblMax]
    positivity
  have hnone : ∀ r ∈ m.currentResources, ∀ d, (∅ : Capacity).amount d ≤ 0 := fun _ _ d =>
    (Capacity.amount_empty d).le
  constructor
  · refine finiteSum_of_le (fun r hr => (hfile r hr).nominal) ?_
    calc (m.currentResources.length : ℚ) * 2 ^ 64
        ≤ 2 ^ 64 * 2 ^ 64 := by
          apply mul_le_mul_of_nonneg_right _ (by positivity)
          exact_mod_cast hlength
      _ = 2 ^ 128 := by norm_num
      _ ≤ 2 ^ 971 := pow_le_pow_right₀ one_le_two (by omega)
      _ ≤ dblMax := le_mul_of_one_le_left (by positivity) (by norm_num)
  · exact finiteSum_of_le (fun r hr d => (hfile r hr).committed ▸ hnone r hr d) (hzero _)
  · exact finiteSum_of_le (fun r hr d => (hfile r hr).unavailable ▸ hnone r hr d) (hzero _)
  · refine finiteSum_of_le (fun r hr d => ?_) (hzero _)
    have hmem := List.mem_of_mem_filter hr
    exact (hfile r hmem).free ▸ hnone r hmem d

/-- Totals are added up anew by two operations only: a publication brings in a resource
next to the others, and a registration makes earlier evidence of the incarnation count. -/
def StepFits (m : CapacityModel) : ModelOp → Prop
  | .publishResource r => (m.publishResource r).2 = true →
      FiniteTotals m.isCurrent (r :: (m.withoutResource r.id).currentResources) ∧
        FiniteTotals overlayUsable (r :: (m.withoutResource r.id).currentResources)
  | .registerWorker w b => (m.registerWorker w b).2 = true →
      FiniteSum ResourceInfo.free (m.currentResources.filter fun r =>
        if r.worker = w then r.bootId = b else m.isCurrent r)
  | _ => True

variable {m m' : CapacityModel}

theorem Fits.of_resources (h : m.Fits) (hresources : m'.resources = m.resources)
    (hcurrent : ∀ r, m'.isCurrent r = true → m.isCurrent r = true) : m'.Fits := by
  have hsame : m'.currentResources = m.currentResources := by
    rw [currentResources, hresources, currentResources]
  refine ⟨?_, ?_⟩
  · rw [ViewFits, hsame]
    exact h.view.fewer hcurrent
  · rw [hsame]
    exact h.scenario

theorem perm_insert (m : CapacityModel) (id : ResourceId) (r : ResourceInfo) :
    ((m.resources.insert id r).entries.map Prod.snd).Perm
      (r :: (m.withoutResource id).currentResources) := by
  have herase : (m.resources.insert id r).erase id = m.resources.erase id := by
    refine OrderedMap.ext_find? fun k => ?_
    rw [OrderedMap.find?_erase, OrderedMap.find?_erase]
    split_ifs with hk
    · rfl
    · exact OrderedMap.find?_insert_of_ne _ _ hk
  have hperm := (OrderedMap.perm_cons_erase (OrderedMap.find?_insert_self m.resources id r)).map
    Prod.snd
  rwa [herase] at hperm

theorem finiteTotals_advance {counts : ResourceInfo → Bool} {id : ResourceId} {r : ResourceInfo}
    (hr : m.resources.find? id = some r) {g : ResourceGeneration}
    (hcounts : counts { r with generation := g } = true → counts r = true)
    (h : FiniteTotals counts m.currentResources) :
    FiniteTotals counts
      ((m.resources.insert id { r with generation := g }).entries.map Prod.snd) := by
  let others := (m.withoutResource id).currentResources
  have hadvance : List.Forall₂ (AddsNoMore counts counts) (r :: others)
      ({ r with generation := g } :: others) :=
    List.Forall₂.cons ⟨rfl, rfl, rfl, rfl, hcounts⟩
      (List.forall₂_same.mpr fun _ _ => ⟨rfl, rfl, rfl, rfl, fun hc => hc⟩)
  have hbefore := h.perm (perm_currentResources hr)
  exact (hbefore.mono hadvance).perm (perm_insert m id { r with generation := g }).symm

theorem Fits.load (h : m.Fits) (bytes : List UInt8) : (m.load bytes).1.Fits := by
  rcases resources_load m bytes with heq | hfile
  · exact h.of_resources heq fun r => @isCurrent_step m (.load bytes) (fun _ _ => nofun) r
  · exact ⟨hfile.finiteTotals _, hfile.finiteTotals _⟩

/-- Apart from publications and registrations every operation leaves the sums finite. -/
theorem Fits.step (h : m.Fits) {op : ModelOp} (hpublish : ∀ r, op ≠ .publishResource r)
    (hregister : ∀ w b, op ≠ .registerWorker w b) : (m.step op).Fits := by
  have hcurrent := fun r => @isCurrent_step m op hregister r
  rcases step_cases m op with ⟨bytes, -, heq⟩ | heq | haccepted
  · rw [heq]
    exact h.load bytes
  · rwa [heq]
  · generalize m.step op = m' at haccepted hcurrent ⊢
    cases haccepted with
    | publishResource => exact absurd rfl (hpublish _)
    | registerWorker => exact absurd rfl (hregister _ _)
    | advanceResourceGeneration hr =>
      exact ⟨finiteTotals_advance hr (hcurrent _) h.view, finiteTotals_advance hr id h.scenario⟩
    | _ => exact h.of_resources rfl hcurrent

theorem fits_publish_iff (h : m.Fits) (r : ResourceInfo) :
    (m.step (.publishResource r)).Fits ↔ m.StepFits (.publishResource r) := by
  rw [step, apply, StepFits, publishResource_eq]
  split_ifs
  · have hperm := perm_insert m r.id r
    constructor
    · exact fun hfits _ => ⟨hfits.view.perm hperm, hfits.scenario.perm hperm⟩
    · intro hfits
      obtain ⟨hview, hscenario⟩ := hfits rfl
      exact ⟨hview.perm hperm.symm, hscenario.perm hperm.symm⟩
  · exact iff_of_true h False.elim

theorem isCurrent_insert_source {w : WorkerId} {b : WorkerBootId} (hb : b.valid = true) :
    isCurrent { m with sources := m.sources.insert w ⟨b, true⟩ } = fun r =>
      if r.worker = w then decide (r.bootId = b) else m.isCurrent r := by
  funext r
  rw [Bool.eq_iff_iff, isCurrent_iff]
  dsimp only
  rw [OrderedMap.find?_insert]
  split_ifs
  · rw [decide_eq_true_iff, Option.some.injEq, SourceState.mk.injEq]
    constructor
    · exact fun h => h.2.1.symm
    · rintro rfl
      exact ⟨hb, rfl, rfl⟩
  · exact isCurrent_iff.symm

theorem fits_register_iff (h : m.Fits) (w : WorkerId) (b : WorkerBootId) :
    (m.step (.registerWorker w b)).Fits ↔ m.StepFits (.registerWorker w b) := by
  rw [step, apply, StepFits]
  cases haccepted : (m.registerWorker w b).2 with
  | false =>
    rw [registerWorker_of_rejected haccepted]
    exact iff_of_true h fun hrejected => absurd hrejected Bool.false_ne_true
  | true =>
    have hb := (registerWorker_accepted_iff.mp haccepted).2.1
    have hcurrent := @isCurrent_insert_source m w b hb
    rw [registerWorker_of_accepted haccepted]
    constructor
    · intro hfits _
      exact hcurrent ▸ hfits.view.free
    · intro hfree
      have hcounted := hfree rfl
      rw [← hcurrent] at hcounted
      exact ⟨⟨h.view.nominal, h.view.committed, h.view.unavailable, hcounted⟩, h.scenario⟩

theorem fits_step_iff (h : m.Fits) (op : ModelOp) : (m.step op).Fits ↔ m.StepFits op := by
  cases op with
  | publishResource r => exact fits_publish_iff h r
  | registerWorker w b => exact fits_register_iff h w b
  | _ => exact iff_of_true (h.step (fun _ => nofun) fun _ _ => nofun) trivial

theorem fits_empty : Fits {} := by
  have hfile : OnlyFromFile {} := fun _ _ hr => absurd hr (by simp)
  exact ⟨hfile.finiteTotals _, hfile.finiteTotals _⟩

/-- Views and queries complete throughout a run exactly when every accepted publication and
registration leaves the sums finite.  A scenario has to leave them finite as well. -/
theorem queries_complete_iff (ops : List ModelOp) :
    ((∀ before, before <+: ops → QueriesComplete (Runs.run step {} before)) ↔
        Runs.Always step StepFits {} ops) ∧
      ∀ (m : CapacityModel) (s : Scenario) (d : WorkloadDemand),
        (m.evaluateScenario? s d).isSome = true ↔ m.ViewFits ∧
          FiniteTotals overlayUsable (s.actions.foldl applyAction (m.buildView 0)).resources := by
  constructor
  · simp only [queriesComplete_iff]
    exact Runs.forall_prefix_iff_always (φ := Fits) (fun _ op h _ => fits_step_iff h op)
      fits_empty (Runs.always_true _ ops)
  · intro m s d
    rw [Option.isSome_iff_exists]
    simp only [evaluateScenario?_eq_some_iff]
    exact ⟨fun ⟨_, _, h⟩ => h, fun h => ⟨_, rfl, h⟩⟩

def largestCompute (id : ResourceId) : ResourceInfo :=
  { Reference.makeResource id ⟨1⟩ ⟨1⟩ ⟨1⟩ ⟨1⟩ ⟨1⟩ ⟨1⟩ {} 0 0 [] with
    nominal := Capacity.setAmount ∅ .acceleratorCompute dblMax
    free := ∅ }

theorem dblMax_pos : 0 < dblMax := by
  rw [dblMax]
  norm_num

theorem isDouble_dblMax : IsDouble dblMax := ⟨0x7FEFFFFFFFFFFFFF, by decide +kernel⟩

theorem fitsWire_largestCompute (id : ResourceId) : Payload.FitsWire (largestCompute id) where
  nominal := Payload.carriedAmounts_empty.setAmount _ dblMax_pos.le isDouble_dblMax
  free := Payload.carriedAmounts_empty
  committed := Payload.carriedAmounts_empty
  unavailable := Payload.carriedAmounts_empty
  architecture := Nat.two_pow_pos 32
  className := Nat.two_pow_pos 32
  capability := Nat.two_pow_pos 32
  freeBlocks := Nat.zero_le _

/-- Every operation is accepted, and every resource comes from a message, with finite
amounts. -/
def AcceptsDecoded (m : CapacityModel) (op : ModelOp) : Prop :=
  (m.apply op).2 = true ∧ ∀ r, op = .publishResource r →
    (∃ data rest, Payload.readResource.run data = some (r, rest)) ∧
      r.nominal.IsFinite ∧ r.committed.IsFinite ∧ r.unavailable.IsFinite ∧ r.free.IsFinite

theorem acceptsDecoded_largestCompute {m : CapacityModel} {id : ResourceId}
    (h : (m.publishResource (largestCompute id)).2 = true) :
    m.AcceptsDecoded (.publishResource (largestCompute id)) := by
  refine ⟨h, ?_⟩
  rintro r ⟨⟩
  have hempty := Capacity.isFinite_empty
  have hread := Payload.readResource_writeResource (fitsWire_largestCompute id) []
  refine ⟨⟨_, _, hread⟩, fun d => ?_, hempty, hempty, hempty⟩
  rw [largestCompute, Capacity.amount_setAmount dblMax_pos.le]
  split_ifs
  · exact le_rfl
  · exact hempty d

/-- Two accepted resources, each finite, whose sum is not. -/
theorem accepted_resources_overflow :
    ¬ ∀ ops, Runs.Always step AcceptsDecoded {} ops →
      ∀ now, ((Runs.run step {} ops).buildView? now).isSome = true := by
  intro h
  have hregister : AcceptsDecoded {} (.registerWorker ⟨1⟩ ⟨1⟩) :=
    ⟨by decide, fun r hr => by cases hr⟩
  have hview := h [.registerWorker ⟨1⟩ ⟨1⟩, .publishResource (largestCompute ⟨1⟩),
    .publishResource (largestCompute ⟨2⟩)]
    ⟨hregister, acceptsDecoded_largestCompute (by decide +kernel),
      acceptsDecoded_largestCompute (by decide +kernel), trivial⟩ 0
  obtain ⟨v, hv⟩ := Option.isSome_iff_exists.mp hview
  have hsum := (buildView?_eq_some_iff.mp hv).2.nominal .acceleratorCompute
  revert hsum
  decide +kernel

end CapacityModel

end CapacityFabric
