import CapacityFabric.Model.Aggregates

/-!
# The explanation of a missing amount

The verdict is taken on what the active hard reservations leave, and the explanation
shows what there is without them.
-/

namespace CapacityFabric

theorem sorted_missingDimensions (c requirement : Capacity) :
    (c.missingDimensions requirement).Pairwise (· < ·) :=
  (requirement.amounts.sorted.filter _).map _ fun _ _ hlt => hlt

theorem missingDimensions_eq_cons {c requirement : Capacity} {lim : Dimension}
    {rest : List Dimension} (h : c.missingDimensions requirement = lim :: rest) :
    c.amount lim < requirement.amount lim ∧
      ∀ d, c.amount d < requirement.amount d → lim ≤ d := by
  have hmem : ∀ d, d ∈ lim :: rest ↔ c.amount d < requirement.amount d := fun d => by
    rw [← h, Capacity.mem_missingDimensions_iff]
  have hsorted := sorted_missingDimensions c requirement
  rw [h, List.pairwise_cons] at hsorted
  refine ⟨(hmem lim).mp List.mem_cons_self, fun d hd => ?_⟩
  rcases List.mem_cons.mp ((hmem d).mpr hd) with rfl | hrest
  · exact le_rfl
  · exact (hsorted.1 d hrest).le

/-- The gate rejects without giving reasons. -/
def Silent (gate : Option FeasibilityResult) : Prop := ∀ res, gate = some res → res.reasons = []

theorem silent_ite {c : Prop} [Decidable c] {res : FeasibilityResult} (h : res.reasons = []) :
    Silent (if c then none else some res) := by
  intro res' hres
  split_ifs at hres
  rwa [← Option.some.inj hres]

theorem silent_freshnessGate (view : FleetView) : Silent (freshnessGate view) := by
  intro res hres
  unfold freshnessGate at hres
  cases hfreshness : view.freshness <;> rw [hfreshness] at hres
  case fresh | unknown => exact absurd hres (by simp)
  all_goals
    rw [← Option.some.inj hres]
    rfl

theorem Silent.eq_none {gate later : Option FeasibilityResult} {fit : FeasibilityResult}
    (hgate : Silent gate) (h : ((gate.or later).getD fit).reasons ≠ []) : gate = none := by
  cases gate with
  | none => rfl
  | some res => exact absurd (hgate res rfl) h

theorem Silent.or {gate later : Option FeasibilityResult} (hgate : Silent gate)
    (hlater : Silent later) : Silent (gate.or later) := by
  intro res hres
  rcases Option.or_eq_some_iff.mp hres with hres | ⟨-, hres⟩
  · exact hgate res hres
  · exact hlater res hres

/-- Only the gate on the amounts gives reasons. -/
theorem aggregateGate_of_reasons {view : FleetView} {demand : WorkloadDemand}
    (h : (evaluateNow view demand).reasons ≠ []) :
    aggregateGate view demand = some (evaluateNow view demand) := by
  unfold evaluateNow at h ⊢
  dsimp only at h ⊢
  have hvalidity : validityGate view demand = none := Silent.eq_none (silent_ite rfl) h
  rw [hvalidity, Option.none_or] at h ⊢
  have hfreshness : freshnessGate view = none := (silent_freshnessGate view).eq_none h
  rw [hfreshness, Option.none_or] at h ⊢
  have htopology : topologyGate view demand = none := Silent.eq_none (silent_ite rfl) h
  rw [htopology, Option.none_or] at h ⊢
  have hcount : countGate view demand = none := Silent.eq_none (silent_ite rfl) h
  rw [hcount, Option.none_or] at h ⊢
  have hcontiguity : contiguityGate view demand = none := Silent.eq_none (silent_ite rfl) h
  rw [hcontiguity, Option.none_or] at h ⊢
  cases hgate : aggregateGate view demand with
  | some res => rfl
  | none =>
    rw [hgate, Option.none_or] at h
    have hlate : Silent ((fragmentationGate view demand).or (sloGate view demand)) :=
      Silent.or (silent_ite rfl) (silent_ite rfl)
    have hnone : (fragmentationGate view demand).or (sloGate view demand) = none :=
      @Silent.eq_none _ none _ hlate (by rwa [Option.or_none])
    rw [hnone] at h
    exact absurd rfl h

/-- The reported dimension is the first one that is missing, and the reported amounts are
those without the reservations. -/
theorem bottleneck_of_reasons {view : FleetView} {demand : WorkloadDemand}
    (h : (evaluateNow view demand).reasons ≠ []) :
    ∃ lim rest, (effectiveCapacity view).missingDimensions demand.requirements = lim :: rest ∧
      (evaluateNow view demand).bottleneck.dimension = lim ∧
        (evaluateNow view demand).bottleneck.usable = view.available := by
  have hgate := aggregateGate_of_reasons h
  unfold aggregateGate at hgate
  cases hmissing : (effectiveCapacity view).missingDimensions demand.requirements with
  | nil =>
    rw [hmissing] at hgate
    exact absurd hgate (by simp)
  | cons lim rest =>
    rw [hmissing] at hgate
    exact ⟨lim, rest, rfl, by rw [← Option.some.inj hgate], by rw [← Option.some.inj hgate]⟩

/-- Enough is available of the dimension, and the active hard reservations leave too
little of it. -/
def ShortOfHolds (view : FleetView) (requirements : Capacity) (d : Dimension) : Prop :=
  0 < requirements.amount d ∧ requirements.amount d ≤ view.available.amount d ∧
    view.available.amount d - heldNow view.reservations view.now d < requirements.amount d

theorem effective_lt_iff {view : FleetView} {requirements : Capacity} {d : Dimension} :
    (effectiveCapacity view).amount d < requirements.amount d ↔
      view.available.amount d < requirements.amount d ∨ ShortOfHolds view requirements d := by
  have hheld := heldNow_nonneg view.reservations view.now d
  have havailable := view.available.amount_nonneg d
  rw [amount_effectiveCapacity, max_lt_iff, ShortOfHolds]
  constructor
  · rintro ⟨hlt, hpos⟩
    rcases lt_or_ge (view.available.amount d) (requirements.amount d) with hshort | henough
    · exact Or.inl hshort
    · exact Or.inr ⟨hpos, henough, hlt⟩
  · rintro (hshort | ⟨hpos, -, hlt⟩)
    · exact ⟨by linarith, by linarith⟩
    · exact ⟨hlt, hpos⟩

def twoOfFourHeld : FleetView where
  devices := [{ id := ⟨1⟩, health := .healthy }]
  available := Capacity.setAccelerators ∅ 4
  reservations := [
    { id := ⟨1⟩
      generation := ⟨1⟩
      interval := firstTen
      strength := .hard
      hold := CapacityDelta.change ∅ .acceleratorCount 2 }]

def threeAccelerators : WorkloadDemand := Reference.makeDemand ⟨1⟩ ⟨1⟩ 3 1

end CapacityFabric
