import CapacityFabric.Model.Aggregates

/-!
# Evidence of dead workers

The death of a worker takes the evidence it has published out of the views.  The model
does not mark that evidence: whether it counts is read off the worker's latest
incarnation each time, so a registration can bring it back.
-/

namespace CapacityFabric

namespace CapacityModel

open Loader Parsing

/-- The resources that some worker had published when it died and that were not
published again since. -/
abbrev Outdated := ResourceId → Bool

/-- What an operation on `m` makes outdated or revalidates. -/
def outdatedAfter (outdated : Outdated) (m : CapacityModel) : ModelOp → Outdated
  | .unregisterWorker w | .markWorkerDead w => fun id =>
    outdated id || (m.resources.find? id).any fun r => r.worker = w
  | .publishResource r =>
    if (m.publishResource r).2 then fun id => outdated id && id ≠ r.id else outdated
  | _ => outdated

def deathStep (s : CapacityModel × Outdated) (op : ModelOp) : CapacityModel × Outdated :=
  (s.1.step op, outdatedAfter s.2 s.1 op)

def OutdatedUnseen (s : CapacityModel × Outdated) : Prop :=
  ∀ id r, s.2 id = true → s.1.resources.find? id = some r → r ∉ s.1.counted

/-- An accepted registration names no boot id that outdated evidence of the worker has. -/
def RegistersAnew (s : CapacityModel × Outdated) : ModelOp → Prop
  | .registerWorker w b => (s.1.registerWorker w b).2 = true →
    ∀ id r, s.2 id = true → s.1.resources.find? id = some r → r.worker = w → r.bootId ≠ b
  | _ => True

theorem isCurrent_iff {m : CapacityModel} {r : ResourceInfo} :
    m.isCurrent r = true ↔ r.bootId.valid = true ∧
      m.sources.find? r.worker = some ⟨r.bootId, true⟩ := by
  unfold isCurrent
  rw [Bool.and_eq_true, ResourceInfo.isCurrentDynamic]
  apply and_congr_right
  intro _
  cases m.sources.find? r.worker with
  | none => simp
  | some s =>
    obtain ⟨boot, alive⟩ := s
    simp [and_comm]

theorem returns_readSavedResource :
    Returns readSavedResource fun x => ∀ r, x = .ok r → r.bootId.valid = false := by
  unfold readSavedResource
  iterate 12 refine Returns.after fun _ => ?_
  refine Returns.pure fun r hr => ?_
  rw [← Except.ok.inj hr]
  rfl

/-- What a load leaves in the table was there before, or comes without an incarnation. -/
theorem load_resources {m : CapacityModel} {bytes : List UInt8} {id : ResourceId}
    {r : ResourceInfo} (hr : (m.load bytes).1.resources.find? id = some r) :
    r.bootId.valid = false ∨ m.resources.find? id = some r := by
  have htable := @load_table _ (fun t => ∀ id r, t.find? id = some r →
    r.bootId.valid = false ∨ m.resources.find? id = some r) (fun _ r => r.bootId.valid = false)
  refine htable returns_readSavedResource (fun t ht id r hr => Or.inl (ht id r hr)) ?_ bytes id r hr
  exact fun _ _ h => Or.inr h

/-- Nothing but a registration makes evidence count. -/
theorem isCurrent_step {m : CapacityModel} {op : ModelOp}
    (hop : ∀ w b, op ≠ .registerWorker w b) {r : ResourceInfo}
    (h : (m.step op).isCurrent r = true) : m.isCurrent r = true := by
  rw [isCurrent_iff] at h ⊢
  refine ⟨h.1, ?_⟩
  rcases sources_step hop with heq | ⟨w, s, -, -, heq⟩
  · rw [← heq]
    exact h.2
  · have hfind := h.2
    rw [heq, OrderedMap.find?_insert] at hfind
    split_ifs at hfind
    · simp at hfind
    · exact hfind

/-- The evidence on a resource after a step is that from before, save for its generation,
or has just been published, or has no incarnation. -/
theorem origin_step {m : CapacityModel} {op : ModelOp} {id : ResourceId} {r : ResourceInfo}
    (hr : (m.step op).resources.find? id = some r) :
    r.bootId.valid = false ∨
      (∃ r₀ g, m.resources.find? id = some r₀ ∧ r = { r₀ with generation := g }) ∨
      op = .publishResource r ∧ (m.publishResource r).2 = true ∧ r.id = id := by
  rcases step_cases m op with ⟨bytes, -, heq⟩ | heq | haccepted
  · rw [heq] at hr
    exact (load_resources hr).imp_right fun h => Or.inl ⟨r, _, h, rfl⟩
  · rw [heq] at hr
    exact Or.inr (Or.inl ⟨r, _, hr, rfl⟩)
  · generalize m.step op = m' at haccepted hr
    cases haccepted with
    | @publishResource r' hboot hgen =>
      dsimp only at hr
      rw [OrderedMap.find?_insert] at hr
      split_ifs at hr with hid
      · obtain rfl := Option.some.inj hr
        refine Or.inr (Or.inr ⟨rfl, ?_, hid.symm⟩)
        rw [publishResource_eq, hboot, hgen]
        rfl
      · exact Or.inr (Or.inl ⟨r, _, hr, rfl⟩)
    | @advanceResourceGeneration id' r' hr' =>
      dsimp only at hr
      rw [OrderedMap.find?_insert] at hr
      split_ifs at hr with hid
      · obtain rfl := Option.some.inj hr
        exact Or.inr (Or.inl ⟨r', _, hid ▸ hr', rfl⟩)
      · exact Or.inr (Or.inl ⟨r, _, hr, rfl⟩)
    | _ => exact Or.inr (Or.inl ⟨r, _, hr, rfl⟩)

theorem not_alive_step {m : CapacityModel} {op : ModelOp} {w : WorkerId}
    (hop : op = .unregisterWorker w ∨ op = .markWorkerDead w) (b : WorkerBootId) :
    (m.step op).sources.find? w ≠ some ⟨b, true⟩ := by
  rcases hop with rfl | rfl
  · simp only [step, apply, unregisterWorker]
    cases hs : m.sources.find? w with
    | none => simp [hs]
    | some s => simp
  · simp only [step, apply, markWorkerDead]
    cases hs : m.sources.find? w with
    | none => simp [hs]
    | some s => simp

/-- A registration leaves outdated evidence unseen exactly when it is a new incarnation. -/
theorem outdatedUnseen_register_iff {s : CapacityModel × Outdated} (h : OutdatedUnseen s)
    (w : WorkerId) (b : WorkerBootId) :
    OutdatedUnseen (deathStep s (.registerWorker w b)) ↔ RegistersAnew s (.registerWorker w b) := by
  cases haccepted : (s.1.registerWorker w b).2 with
  | false =>
    have hmodel : s.1.step (.registerWorker w b) = s.1 := by
      rcases @apply_cases s.1 (.registerWorker w b) rfl with heq | ⟨m', heq, -⟩
      · exact congrArg Prod.fst heq
      · exact absurd (congrArg Prod.snd heq) (by simp [apply, haccepted])
    refine iff_of_true ?_ fun hyes => absurd hyes (by simp [haccepted])
    rw [deathStep, hmodel]
    exact h
  | true =>
    have hmodel : s.1.step (.registerWorker w b) =
        { s.1 with sources := s.1.sources.insert w ⟨b, true⟩ } :=
      congrArg Prod.fst (registerWorker_of_accepted haccepted)
    obtain ⟨-, hb, -⟩ := registerWorker_accepted_iff.mp haccepted
    rw [deathStep, hmodel]
    constructor
    · rintro hafter - id r hout hr rfl rfl
      let m' := { s.1 with sources := s.1.sources.insert r.worker ⟨r.bootId, true⟩ }
      have hcurrent : m'.isCurrent r = true :=
        isCurrent_iff.mpr ⟨hb, OrderedMap.find?_insert_self _ _ _⟩
      have hr' : m'.resources.find? id = some r := hr
      exact hafter id r hout hr ((mem_counted_iff hr').mpr hcurrent)
    · intro hanew id r hout hr hcounted
      obtain ⟨hvalid, hlive⟩ := isCurrent_iff.mp ((mem_counted_iff hr).mp hcounted)
      dsimp only at hlive
      rw [OrderedMap.find?_insert] at hlive
      split_ifs at hlive with hworker
      · have hboot : b = r.bootId := congrArg SourceState.bootId (Option.some.inj hlive)
        exact hanew haccepted id r hout hr hworker hboot.symm
      · have hbefore : s.1.isCurrent r = true := isCurrent_iff.mpr ⟨hvalid, hlive⟩
        have hr₀ : s.1.resources.find? id = some r := hr
        exact h id r hout hr ((mem_counted_iff hr₀).mpr hbefore)

theorem OutdatedUnseen.keep {s : CapacityModel × Outdated} (h : OutdatedUnseen s) {op : ModelOp}
    (hregister : ∀ w b, op ≠ .registerWorker w b) : OutdatedUnseen (deathStep s op) := by
  intro id r hout hr hcounted
  have hcurrent := (mem_counted_iff hr).mp hcounted
  have hbefore := isCurrent_step hregister hcurrent
  rcases origin_step hr with hinvalid | ⟨r₀, g, hr₀, rfl⟩ | ⟨rfl, haccepted, rfl⟩
  · exact absurd (isCurrent_iff.mp hcurrent).1 (by simp [hinvalid])
  · have hcurrent₀ : s.1.isCurrent r₀ = true := hbefore
    have hnew : ¬s.2 id = true := fun hold =>
      h id r₀ hold hr₀ ((mem_counted_iff hr₀).mpr hcurrent₀)
    -- It is outdated because its worker has just died, or not at all.
    have hdead : ∀ w, op = .unregisterWorker w ∨ op = .markWorkerDead w →
        (s.2 id || (s.1.resources.find? id).any fun r => r.worker = w) = true → False := by
      intro w hop hany
      have hw : r₀.worker = w := by simpa [hnew, hr₀] using hany
      have hlive : (s.1.step op).sources.find? r₀.worker = _ := (isCurrent_iff.mp hcurrent).2
      rw [hw] at hlive
      exact not_alive_step hop _ hlive
    cases op with
    | unregisterWorker w => exact hdead w (Or.inl rfl) hout
    | markWorkerDead w => exact hdead w (Or.inr rfl) hout
    | publishResource r' =>
      change (if _ then _ else _ : Outdated) id = true at hout
      split_ifs at hout
      · exact hnew (Bool.and_eq_true_iff.mp hout).1
      · exact hnew hout
    | _ => exact hnew hout
  · simp [deathStep, outdatedAfter, haccepted] at hout

theorem outdatedUnseen_step_iff {s : CapacityModel × Outdated} (h : OutdatedUnseen s)
    (op : ModelOp) : OutdatedUnseen (deathStep s op) ↔ RegistersAnew s op := by
  cases op with
  | registerWorker w b => exact outdatedUnseen_register_iff h w b
  | _ => exact iff_of_true (h.keep fun _ _ => by simp) trivial

/-- After the death of a worker its evidence is unseen until it is published again,
along a whole run, precisely when every registration of a worker with outdated evidence is
a new incarnation. -/
theorem death_outdates_evidence_iff (ops : List ModelOp) :
    (∀ before, before <+: ops →
      OutdatedUnseen (Runs.run deathStep ({}, fun _ => false) before)) ↔
    Runs.Always deathStep RegistersAnew ({}, fun _ => false) ops := by
  have hstart : OutdatedUnseen ({}, fun _ => false) := fun _ _ h => absurd h Bool.false_ne_true
  exact Runs.forall_prefix_iff_always (φ := OutdatedUnseen)
    (fun _ op h _ => outdatedUnseen_step_iff h op) hstart (Runs.always_true _ ops)

def bootOneEvidence : ResourceInfo :=
  Reference.makeResource ⟨1⟩ ⟨1⟩ ⟨1⟩ ⟨1⟩ ⟨1⟩ ⟨1⟩ ⟨1⟩ {} 16 8 [8]

def sameBootAfterDeath : List ModelOp :=
  [.registerWorker ⟨1⟩ ⟨1⟩, .publishResource bootOneEvidence, .markWorkerDead ⟨1⟩,
    .registerWorker ⟨1⟩ ⟨1⟩]

/-- The evidence counts again, though nothing was published. -/
theorem evidence_returns_with_registration :
    ¬ ∀ ops : List ModelOp, ∀ before, before <+: ops →
      OutdatedUnseen (Runs.run deathStep ({}, fun _ => false) before) := by
  intro h
  have hr : (Runs.run deathStep ({}, fun _ => false) sameBootAfterDeath).1.resources.find? ⟨1⟩ =
      some bootOneEvidence := rfl
  have hunseen := h sameBootAfterDeath sameBootAfterDeath List.prefix_rfl ⟨1⟩ bootOneEvidence
    (by decide +kernel) hr
  exact hunseen ((mem_counted_iff hr).mpr (by decide +kernel))

end CapacityModel

end CapacityFabric
