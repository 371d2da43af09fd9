import CapacityFabric.Model.AddedSupply
import CapacityFabric.Scenario.CheckedScenarios

/-!
# What the actions of a scenario give and take

An action either takes supply away or gives some, wherever in the scenario it stands.  Taking
never makes a demand fit, giving never makes it fit no more, as long as the sums stay finite.
-/

namespace CapacityFabric

/-- The actions that add no supply. -/
def ScenarioAction.takes : ScenarioAction → Bool
  | .addResource _ | .cancelReservation _ => false
  | _ => true

/-- The actions that remove no supply. -/
def ScenarioAction.gives : ScenarioAction → Bool
  | .removeResource _ | .addReservation _ | .degradeDevice _ => false
  | _ => true

def ScenarioAction.degrades : ScenarioAction → Bool
  | .degradeDevice _ => true
  | _ => false

/-- A test that no failed resource passes. -/
def RejectsFailed (p : ResourceInfo → Bool) : Prop :=
  ∀ r : ResourceInfo, p { r with health := .failed } = false

/-- The second view has whatever serves in the first, and holds no more. -/
structure NoBetter (v w : FleetView) : Prop where
  resources : ∀ p, RejectsFailed p → (v.resources.filter p).Sublist (w.resources.filter p)
  reservations : w.reservations.Sublist v.reservations
  now : v.now = w.now
  freshness : v.freshness = w.freshness

variable {v w : FleetView}

theorem filter_degrade_sublist {p q : ResourceInfo → Bool} (hp : RejectsFailed p)
    (rs : List ResourceInfo) :
    ((rs.map fun r => if q r then { r with health := .failed } else r).filter p).Sublist
      (rs.filter p) := by
  induction rs with
  | nil => exact .refl _
  | cons r rs ih =>
    rw [List.map_cons]
    by_cases hq : q r = true
    · rw [if_pos hq, List.filter_cons_of_neg (by rw [hp r]; exact Bool.false_ne_true)]
      exact ih.trans ((List.sublist_cons_self r rs).filter p)
    · rw [if_neg hq]
      by_cases hpr : p r = true
      · rw [List.filter_cons_of_pos hpr, List.filter_cons_of_pos hpr]
        exact ih.cons_cons r
      · rw [List.filter_cons_of_neg hpr, List.filter_cons_of_neg hpr]
        exact ih

theorem applyAction_noBetter {a : ScenarioAction} (ha : a.takes = true) (v : FleetView) :
    NoBetter (applyAction v a) v := by
  cases a with
  | removeResource resource =>
    exact ⟨fun _ _ => List.filter_sublist.filter _, .refl _, rfl, rfl⟩
  | addReservation added => exact ⟨fun _ _ => .refl _, List.sublist_append_left _ _, rfl, rfl⟩
  | degradeDevice _ =>
    refine ⟨fun p hp => ?_, .refl _, rfl, rfl⟩
    have h := filter_degrade_sublist hp (q := fun r =>
      r.deviceId.valid ∧ v.devices.any (fun d => d.id = r.deviceId)) v.resources
    simp only [decide_eq_true_eq] at h
    exact h
  | delayRelease | setHeadroom | moveMaintenance => exact ⟨fun _ _ => .refl _, .refl _, rfl, rfl⟩
  | addResource | cancelReservation => cases ha

theorem noBetter_applyAction {a : ScenarioAction} (ha : a.gives = true) (v : FleetView) :
    NoBetter v (applyAction v a) := by
  cases a with
  | addResource added =>
    exact ⟨fun _ _ => (List.sublist_append_left _ _).filter _, .refl _, rfl, rfl⟩
  | cancelReservation reservation => exact ⟨fun _ _ => .refl _, List.filter_sublist, rfl, rfl⟩
  | delayRelease | setHeadroom | moveMaintenance => exact ⟨fun _ _ => .refl _, .refl _, rfl, rfl⟩
  | removeResource | addReservation | degradeDevice => cases ha

/-- The same action on both sides keeps the order, unless it looks at the devices. -/
theorem NoBetter.applyAction (h : NoBetter v w) {a : ScenarioAction} (ha : a.degrades = false) :
    NoBetter (applyAction v a) (applyAction w a) := by
  cases a with
  | removeResource resource =>
    refine ⟨fun p hp => ?_, h.reservations, h.now, h.freshness⟩
    have hsub := (h.resources p hp).filter fun r => decide (r.id ≠ resource)
    rw [List.filter_comm, List.filter_comm (l := w.resources)] at hsub
    exact hsub
  | addResource added =>
    refine ⟨fun p hp => ?_, h.reservations, h.now, h.freshness⟩
    change ((v.resources ++ [added]).filter p).Sublist ((w.resources ++ [added]).filter p)
    rw [List.filter_append, List.filter_append]
    exact (h.resources p hp).append_right _
  | cancelReservation reservation =>
    exact ⟨h.resources, h.reservations.filter _, h.now, h.freshness⟩
  | addReservation added =>
    exact ⟨h.resources, h.reservations.append_right _, h.now, h.freshness⟩
  | delayRelease | setHeadroom | moveMaintenance =>
    exact ⟨h.resources, h.reservations, h.now, h.freshness⟩
  | degradeDevice => cases ha

theorem NoBetter.actions (h : NoBetter v w) {actions : List ScenarioAction}
    (hactions : ∀ a ∈ actions, a.degrades = false) :
    NoBetter (actions.foldl CapacityFabric.applyAction v)
      (actions.foldl CapacityFabric.applyAction w) := by
  induction actions generalizing v w with
  | nil => exact h
  | cons a actions ih =>
    exact ih (h.applyAction (hactions a List.mem_cons_self)) fun a' ha' =>
      hactions a' (List.mem_cons_of_mem a ha')

theorem rejectsFailed_overlayUsable : RejectsFailed overlayUsable := fun _ => rfl

section Rounded

variable [A : Arithmetic]

theorem totalOf_pos_of_has {rs : List ResourceInfo} {f : ResourceInfo → Capacity}
    (hf : ∀ r ∈ rs, (f r).StoresNoZero ∧ (f r).IsRounded) {d : Dimension}
    (hd : (totalOf f rs).has d = true) : 0 < (totalOf f rs).amount d := by
  rw [has_totalOf, List.any_eq_true] at hd
  obtain ⟨r, hr, hhas⟩ := hd
  obtain ⟨hnozero, hrounded⟩ := hf r hr
  exact (hnozero d hhas).trans_le (amount_le_totalOf hr hrounded d)

theorem NoBetter.amount_effectiveCapacity_le (h : NoBetter v w) (d : Dimension) :
    (effectiveCapacity (reaggregate v)).amount d ≤
      (effectiveCapacity (reaggregate w)).amount d := by
  have hfree := totalOf_le_of_sublist (h.resources _ rejectsFailed_overlayUsable)
    ResourceInfo.free d
  calc (effectiveCapacity (reaggregate v)).amount d
      ≤ (subtractHolds v.now v.reservations
          (totalOf ResourceInfo.free (w.resources.filter overlayUsable))).amount d :=
        amount_subtractHolds_mono hfree
    _ ≤ (subtractHolds v.now w.reservations
          (totalOf ResourceInfo.free (w.resources.filter overlayUsable))).amount d :=
        amount_subtractHolds_le_of_sublist (isRounded_totalOf _ _) h.reservations
    _ = (effectiveCapacity (reaggregate w)).amount d := by
        rw [h.now]
        rfl

/-- A dimension that only the second view stores is neither held nor required there. -/
theorem NoBetter.stored (h : NoBetter v w)
    (hfree : ∀ r ∈ w.resources, r.free.StoresNoZero ∧ r.free.IsRounded)
    (requirements : Capacity) (d : Dimension)
    (hd : ((effectiveCapacity (reaggregate w)).subtractClamp requirements).has d = true) :
    ((effectiveCapacity (reaggregate v)).subtractClamp requirements).has d = true ∨
      0 < ((effectiveCapacity (reaggregate w)).subtractClamp requirements).amount d := by
  by_cases hbefore : ((effectiveCapacity (reaggregate v)).subtractClamp requirements).has d = true
  · exact Or.inl hbefore
  right
  change ¬((subtractHolds v.now v.reservations _).subtractClamp requirements).has d = true
    at hbefore
  change ((subtractHolds w.now w.reservations (totalOf ResourceInfo.free
    (w.resources.filter overlayUsable))).subtractClamp requirements).has d = true at hd
  rw [Capacity.has_subtractClamp, has_subtractHolds, Bool.not_eq_true, Bool.or_eq_false_iff,
    Bool.or_eq_false_iff] at hbefore
  obtain ⟨⟨-, hholds⟩, hrequired⟩ := hbefore
  have hholds' : (w.reservations.any fun rv =>
      holdsNow w.now rv && (holdCapacity rv.hold).has d) = false := by
    rw [List.any_eq_false] at hholds ⊢
    intro rv hrv
    rw [← h.now]
    exact hholds rv (h.reservations.subset hrv)
  rw [Capacity.has_subtractClamp, has_subtractHolds, hholds', hrequired, Bool.or_false,
    Bool.or_false] at hd
  have hpos := totalOf_pos_of_has (fun r hr => hfree r (List.mem_of_mem_filter hr)) hd
  rw [Capacity.amount_subtractClamp_eq, hrequired, if_neg Bool.false_ne_true]
  exact hpos.trans_eq (amount_subtractHolds_of_none hholds').symm

theorem NoBetter.usableDevices (h : NoBetter v w) (demand : WorkloadDemand) :
    (usableDevices (reaggregate v).devices demand).Subperm
      (usableDevices (reaggregate w).devices demand) := by
  have hrejects : RejectsFailed fun r => deviceCurrentlyUsable (overlayDevice r) demand :=
    fun r => deviceCurrentlyUsable_of_unusable rfl demand
  have hsub := (h.resources _ hrejects).map overlayDevice
  have hdevices : ∀ x : FleetView, CapacityFabric.usableDevices (reaggregate x).devices demand =
      (x.resources.filter fun r => deviceCurrentlyUsable (overlayDevice r) demand).map
        overlayDevice := fun x => List.filter_map
  rw [hdevices, hdevices]
  exact hsub.subperm

/-- What fits in a view fits in any that is no worse. -/
theorem NoBetter.fitNow (h : NoBetter v w)
    (hfree : ∀ r ∈ w.resources, r.free.StoresNoZero ∧ r.free.IsRounded)
    {demand : WorkloadDemand} (hfragmentation : demand.maxAcceptableFragmentation = none)
    (hfit : (evaluateNow (reaggregate v) demand).outcome = .fitNow) :
    (evaluateNow (reaggregate w) demand).outcome = .fitNow := by
  rw [outcome_eq_fitNow_iff] at hfit ⊢
  obtain ⟨hvalid, hgate, hgates⟩ := hfit
  rw [freshnessGate_eq_none_iff] at hgate ⊢
  have hfresh : (reaggregate w).freshness = (reaggregate v).freshness := h.freshness.symm
  refine ⟨hvalid, hfresh ▸ hgate, ?_⟩
  exact (Eases.ofSupply hfragmentation (h.usableDevices demand) h.amount_effectiveCapacity_le
    (h.stored hfree demand.requirements)).fitNow hgates

end Rounded

theorem free_applied {P : Capacity → Prop} {actions : List ScenarioAction}
    (hadded : ∀ r, .addResource r ∈ actions → P r.free) (hv : ∀ r ∈ v.resources, P r.free) :
    ∀ r ∈ (actions.foldl applyAction v).resources, P r.free := by
  induction actions generalizing v with
  | nil => exact hv
  | cons a actions ih =>
    refine ih (fun r hr => hadded r (List.mem_cons_of_mem a hr)) fun r hr => ?_
    cases a with
    | removeResource resource => exact hv r (List.mem_of_mem_filter hr)
    | addResource added =>
      rcases List.mem_append.mp hr with hr | hr
      · exact hv r hr
      · exact List.mem_singleton.mp hr ▸ hadded added List.mem_cons_self
    | degradeDevice resource =>
      obtain ⟨x, hx, rfl⟩ := List.mem_map.mp hr
      have hfree := hv x hx
      split_ifs
      · exact hfree
      · exact hfree
    | cancelReservation | addReservation | delayRelease | setHeadroom | moveMaintenance =>
      exact hv r hr

namespace CapacityModel

section Rounded

variable [A : Arithmetic] {m : CapacityModel} {before after : List ScenarioAction}
  {a : ScenarioAction} {demand : WorkloadDemand}

theorem outcome_evaluateScenario?_iff {s : Scenario} {o : Outcome} :
    (m.evaluateScenario? s demand).map FeasibilityResult.outcome = some o ↔
      (m.evaluateScenario s demand).outcome = o ∧ m.ViewFits ∧
        FiniteTotals overlayUsable (s.actions.foldl applyAction (m.buildView 0)).resources := by
  simp only [Option.map_eq_some_iff, evaluateScenario?_eq_some_iff]
  constructor
  · rintro ⟨res, ⟨rfl, hfinite⟩, ho⟩
    exact ⟨ho, hfinite⟩
  · rintro ⟨ho, hfinite⟩
    exact ⟨_, ⟨rfl, hfinite⟩, ho⟩

def scenarioResources (m : CapacityModel) (actions : List ScenarioAction) : List ResourceInfo :=
  (actions.foldl applyAction (m.buildView 0)).resources

theorem free_scenarioResources {P : Capacity → Prop} {actions : List ScenarioAction}
    (hfree : ∀ r ∈ m.currentResources, P r.free)
    (hadded : ∀ r, .addResource r ∈ actions → P r.free) :
    ∀ r ∈ m.scenarioResources actions, P r.free :=
  free_applied hadded hfree

/-- What fits in a scenario fits in one whose overlay is no worse, if its sums are finite. -/
theorem fitNow_evaluateScenario?_iff {actions actions' : List ScenarioAction}
    (h : NoBetter (actions.foldl applyAction (m.buildView 0))
      (actions'.foldl applyAction (m.buildView 0)))
    (hfree : ∀ r ∈ m.scenarioResources actions', r.free.StoresNoZero ∧ r.free.IsRounded)
    (hfragmentation : demand.maxAcceptableFragmentation = none)
    (hfit : (m.evaluateScenario? (createScenario actions) demand).map
      FeasibilityResult.outcome = some .fitNow) :
    (m.evaluateScenario? (createScenario actions') demand).map FeasibilityResult.outcome =
        some .fitNow ↔
      FiniteTotals overlayUsable (m.scenarioResources actions') := by
  obtain ⟨hbefore, hfits, -⟩ := outcome_evaluateScenario?_iff.mp hfit
  rw [outcome_evaluateScenario?_iff]
  constructor
  · exact fun h' => h'.2.2
  · exact fun hfinite => ⟨h.fitNow hfree hfragmentation hbefore, hfits, hfinite⟩

/-- Wherever it stands, an action that takes never makes a demand fit and one that gives
never makes it fit no more, unless the sums without it or with it overflow. -/
theorem scenario_monotone
    (hfree : ∀ r ∈ m.currentResources, r.free.StoresNoZero ∧ r.free.IsRounded)
    (hadded : ∀ r, .addResource r ∈ before ++ a :: after → r.free.StoresNoZero ∧ r.free.IsRounded)
    (hafter : ∀ a' ∈ after, a'.degrades = false)
    (hfragmentation : demand.maxAcceptableFragmentation = none) :
    (a.takes = true →
      (m.evaluateScenario? (createScenario (before ++ a :: after)) demand).map
        FeasibilityResult.outcome = some .fitNow →
      ((m.evaluateScenario? (createScenario (before ++ after)) demand).map
          FeasibilityResult.outcome = some .fitNow ↔
        FiniteTotals overlayUsable (m.scenarioResources (before ++ after)))) ∧
    (a.gives = true →
      (m.evaluateScenario? (createScenario (before ++ after)) demand).map
        FeasibilityResult.outcome = some .fitNow →
      ((m.evaluateScenario? (createScenario (before ++ a :: after)) demand).map
          FeasibilityResult.outcome = some .fitNow ↔
        FiniteTotals overlayUsable (m.scenarioResources (before ++ a :: after)))) := by
  have hwith : (before ++ a :: after).foldl applyAction (m.buildView 0) =
      after.foldl applyAction (applyAction (before.foldl applyAction (m.buildView 0)) a) := by
    rw [List.foldl_append, List.foldl_cons]
  have hwithout : (before ++ after).foldl applyAction (m.buildView 0) =
      after.foldl applyAction (before.foldl applyAction (m.buildView 0)) := List.foldl_append
  constructor
  · intro ha hfit
    have hno := (applyAction_noBetter ha (before.foldl applyAction (m.buildView 0))).actions hafter
    rw [← hwith, ← hwithout] at hno
    refine fitNow_evaluateScenario?_iff hno
      (free_scenarioResources (P := fun c => c.StoresNoZero ∧ c.IsRounded) hfree
        fun r hr => hadded r ?_) hfragmentation hfit
    rcases List.mem_append.mp hr with hr | hr
    · exact List.mem_append_left _ hr
    · exact List.mem_append_right _ (List.mem_cons_of_mem a hr)
  · intro ha hfit
    have hno := (noBetter_applyAction ha (before.foldl applyAction (m.buildView 0))).actions hafter
    rw [← hwith, ← hwithout] at hno
    exact fitNow_evaluateScenario?_iff hno
      (free_scenarioResources (P := fun c => c.StoresNoZero ∧ c.IsRounded) hfree hadded)
      hfragmentation hfit

end Rounded

theorem free_healthyResource :
    healthyResource.free.StoresNoZero ∧ healthyResource.free.IsRounded (A := .double) :=
  ⟨built_healthyResource.storesNoZero, rounded_healthyResource⟩

def addedAndHeld : List ScenarioAction :=
  [.addResource { healthyResource with id := ⟨3⟩, deviceId := ⟨3⟩ },
    .addReservation (hardHold 1 nextTen 1)]

theorem scenario_monotone_removedBetween :
    (ScenarioAction.takes (.removeResource ⟨1⟩) = true →
      (healthyAccelerator.evaluateScenario? (A := .double) (createScenario
        (addedAndHeld.take 1 ++ .removeResource ⟨1⟩ :: addedAndHeld.drop 1)) oneDevice).map
          FeasibilityResult.outcome = some .fitNow →
      ((healthyAccelerator.evaluateScenario? (A := .double) (createScenario
          (addedAndHeld.take 1 ++ addedAndHeld.drop 1)) oneDevice).map
            FeasibilityResult.outcome = some .fitNow ↔
        FiniteTotals (A := .double) overlayUsable (healthyAccelerator.scenarioResources
          (A := .double) (addedAndHeld.take 1 ++ addedAndHeld.drop 1)))) ∧
    (ScenarioAction.gives (.removeResource ⟨1⟩) = true →
      (healthyAccelerator.evaluateScenario? (A := .double) (createScenario
        (addedAndHeld.take 1 ++ addedAndHeld.drop 1)) oneDevice).map
          FeasibilityResult.outcome = some .fitNow →
      ((healthyAccelerator.evaluateScenario? (A := .double) (createScenario
          (addedAndHeld.take 1 ++ .removeResource ⟨1⟩ :: addedAndHeld.drop 1)) oneDevice).map
            FeasibilityResult.outcome = some .fitNow ↔
        FiniteTotals (A := .double) overlayUsable (healthyAccelerator.scenarioResources
          (A := .double)
          (addedAndHeld.take 1 ++ .removeResource ⟨1⟩ :: addedAndHeld.drop 1)))) := by
  have hfree : ∀ r ∈ healthyAccelerator.currentResources,
      r.free.StoresNoZero ∧ r.free.IsRounded (A := .double) := by
    intro r hr
    have hone : healthyAccelerator.currentResources = [healthyResource] := rfl
    rw [hone] at hr
    exact List.mem_singleton.mp hr ▸ free_healthyResource
  have hadded : ∀ r, .addResource r ∈
      addedAndHeld.take 1 ++ .removeResource ⟨1⟩ :: addedAndHeld.drop 1 →
      r.free.StoresNoZero ∧ r.free.IsRounded (A := .double) := by
    intro r hr
    simp only [addedAndHeld, List.take_succ_cons, List.take_zero, List.drop_succ_cons,
      List.drop_zero, List.cons_append, List.nil_append, List.mem_cons, List.not_mem_nil, or_false,
      ScenarioAction.addResource.injEq, reduceCtorEq] at hr
    exact hr ▸ free_healthyResource
  have hafter : ∀ a' ∈ addedAndHeld.drop 1, a'.degrades = false := by
    simp [addedAndHeld, ScenarioAction.degrades]
  have htolerance : oneDevice.maxAcceptableFragmentation = none := rfl
  have hboth := scenario_monotone (A := .double) (a := .removeResource ⟨1⟩) hfree hadded hafter
    htolerance
  exact hboth

end CapacityModel

end CapacityFabric
