import CapacityFabric.Model.Operations

/-!
# Superseded incarnations

A worker that registers under another boot id supersedes the incarnation it had.  The
model keeps the latest boot id only, which tells the older ones apart while the latest
is alive.
-/

namespace CapacityFabric

namespace CapacityModel

/-- The boot ids under which each worker has ever registered, and those among them that
another one came after. -/
structure Incarnations where
  registered : WorkerId → WorkerBootId → Bool := fun _ _ => false
  superseded : WorkerId → WorkerBootId → Bool := fun _ _ => false

/-- The history after an operation on `m`. -/
def Incarnations.record (h : Incarnations) (m : CapacityModel) : ModelOp → Incarnations
  | .registerWorker w b =>
    if (m.registerWorker w b).2 then
      { registered := fun w' b' => h.registered w' b' || (w' = w ∧ b' = b)
        superseded := fun w' b' =>
          h.superseded w' b' || (h.registered w' b' && (w' = w ∧ b' ≠ b)) }
    else h
  | _ => h

def historyStep (s : CapacityModel × Incarnations) (op : ModelOp) : CapacityModel × Incarnations :=
  (s.1.step op, s.2.record s.1 op)

/-- The operation does not act for a superseded incarnation, or is rejected. -/
def RespectsSuccession (s : CapacityModel × Incarnations) : ModelOp → Prop
  | .registerWorker w b => (s.1.registerWorker w b).2 = true → s.2.superseded w b = false
  | .publishResource r =>
    (s.1.publishResource r).2 = true → s.2.superseded r.worker r.bootId = false
  | _ => True

/-- A superseded incarnation registers, if at all, while its worker is alive. -/
def ReplaysWhileAlive (s : CapacityModel × Incarnations) : ModelOp → Prop
  | .registerWorker w b => s.2.superseded w b = true → s.1.workerAlive w = true
  | _ => True

/-- The registered boot ids are valid ones of known workers, and a superseded one is not
the boot id that the model has. -/
structure Succeeded (s : CapacityModel × Incarnations) : Prop where
  registered : ∀ w b, s.2.registered w b = true →
    w.valid = true ∧ b.valid = true ∧ ∃ latest, s.1.sources.find? w = some latest
  superseded : ∀ w b, s.2.superseded w b = true → s.2.registered w b = true ∧
    ∀ latest, s.1.sources.find? w = some latest → latest.bootId ≠ b

theorem bootId_step {m : CapacityModel} {op : ModelOp}
    (hop : ¬∃ w b, op = .registerWorker w b ∧ (m.registerWorker w b).2 = true) (w : WorkerId) :
    ((m.step op).sources.find? w).map SourceState.bootId =
      (m.sources.find? w).map SourceState.bootId := by
  by_cases hregister : ∃ w b, op = .registerWorker w b
  · obtain ⟨w', b', rfl⟩ := hregister
    rcases @apply_cases m (.registerWorker w' b') rfl with heq | ⟨m', heq, -⟩
    · rw [CapacityModel.step, heq]
    · exact absurd ⟨w', b', rfl, congrArg Prod.snd heq⟩ hop
  · rcases sources_step fun w b heq => hregister ⟨w, b, heq⟩ with heq | ⟨w', s, -, hs, heq⟩
    · rw [heq]
    · rw [heq, OrderedMap.find?_insert]
      split_ifs with hw
      · rw [hw, hs]
        rfl
      · rfl

theorem Succeeded.latest {s : CapacityModel × Incarnations} (h : Succeeded s) {w : WorkerId}
    {b : WorkerBootId} (hsuperseded : s.2.superseded w b = true) :
    w.valid = true ∧ b.valid = true ∧
      ∃ latest, s.1.sources.find? w = some latest ∧ latest.bootId ≠ b := by
  obtain ⟨hregistered, hother⟩ := h.superseded w b hsuperseded
  obtain ⟨hw, hb, latest, hlatest⟩ := h.registered w b hregistered
  exact ⟨hw, hb, latest, hlatest, hother latest hlatest⟩

/-- A superseded incarnation is rejected exactly when its worker is alive. -/
theorem Succeeded.respects_iff {s : CapacityModel × Incarnations} (h : Succeeded s)
    (op : ModelOp) : RespectsSuccession s op ↔ ReplaysWhileAlive s op := by
  cases op with
  | registerWorker w b =>
    rw [RespectsSuccession, ReplaysWhileAlive, registerWorker_accepted_iff]
    constructor
    · intro hrespects hsuperseded
      by_contra hdead
      obtain ⟨hw, hb, -⟩ := h.latest hsuperseded
      -- A worker that is not alive registers under any boot id.
      have haccepted := hrespects ⟨hw, hb, fun s' hs' halive => absurd (by
        rw [workerAlive, hs']
        exact halive) hdead⟩
      rw [hsuperseded] at haccepted
      exact Bool.noConfusion haccepted
    · rintro halive ⟨-, -, hboot⟩
      by_contra hsuperseded
      rw [Bool.not_eq_false] at hsuperseded
      obtain ⟨-, -, latest, hlatest, hother⟩ := h.latest hsuperseded
      have hlive : latest.alive = true := by
        simpa [workerAlive, hlatest] using halive hsuperseded
      exact hother (hboot latest hlatest hlive)
  | publishResource r =>
    refine iff_of_true (fun haccepted => ?_) trivial
    by_contra hsuperseded
    rw [Bool.not_eq_false] at hsuperseded
    obtain ⟨-, -, latest, hlatest, hother⟩ := h.latest hsuperseded
    rw [publishResource_eq] at haccepted
    split_ifs at haccepted with hfresh
    -- What is published comes from the boot id that the model has.
    have hcur := (Bool.and_eq_true_iff.mp hfresh).1
    rw [isFreshBoot_iff, hlatest] at hcur
    obtain rfl := Option.some.inj hcur
    exact hother rfl
  | _ => exact Iff.rfl

theorem Succeeded.register {s : CapacityModel × Incarnations} (h : Succeeded s) {w : WorkerId}
    {b : WorkerBootId} (haccepted : (s.1.registerWorker w b).2 = true)
    (hnew : s.2.superseded w b = false) : Succeeded (historyStep s (.registerWorker w b)) := by
  have hmodel : s.1.step (.registerWorker w b) =
      { s.1 with sources := s.1.sources.insert w ⟨b, true⟩ } :=
    congrArg Prod.fst (registerWorker_of_accepted haccepted)
  obtain ⟨hw, hb, -⟩ := registerWorker_accepted_iff.mp haccepted
  rw [historyStep, Incarnations.record, if_pos haccepted, hmodel]
  constructor
  · intro w' b' hregistered
    rcases Bool.or_eq_true_iff.mp hregistered with hold | hself
    · obtain ⟨hw', hb', hknown⟩ := h.registered w' b' hold
      refine ⟨hw', hb', ?_⟩
      dsimp only
      rw [OrderedMap.find?_insert]
      split_ifs
      · exact ⟨_, rfl⟩
      · exact hknown
    · obtain ⟨rfl, rfl⟩ := of_decide_eq_true hself
      exact ⟨hw, hb, _, OrderedMap.find?_insert_self _ _ _⟩
  · intro w' b' hsuperseded
    have hregistered : s.2.registered w' b' = true := by
      rcases Bool.or_eq_true_iff.mp hsuperseded with hold | hself
      · exact (h.superseded w' b' hold).1
      · exact (Bool.and_eq_true_iff.mp hself).1
    refine ⟨Bool.or_eq_true_iff.mpr (Or.inl hregistered), fun latest hlatest => ?_⟩
    dsimp only at hlatest
    rw [OrderedMap.find?_insert] at hlatest
    rcases Bool.or_eq_true_iff.mp hsuperseded with hold | hself
    · split_ifs at hlatest with hw'
      · obtain rfl := Option.some.inj hlatest
        rintro rfl
        rw [hw', hnew] at hold
        exact Bool.noConfusion hold
      · exact (h.superseded w' b' hold).2 latest hlatest
    · obtain ⟨rfl, hne⟩ := of_decide_eq_true (Bool.and_eq_true_iff.mp hself).2
      rw [if_pos rfl] at hlatest
      obtain rfl := Option.some.inj hlatest
      exact hne.symm

theorem Succeeded.keep {s : CapacityModel × Incarnations} (h : Succeeded s) {op : ModelOp}
    (hregister : ¬∃ w b, op = .registerWorker w b ∧ (s.1.registerWorker w b).2 = true) :
    Succeeded (historyStep s op) := by
  have hhistory : s.2.record s.1 op = s.2 := by
    cases op with
    | registerWorker w b => exact if_neg fun haccepted => hregister ⟨w, b, rfl, haccepted⟩
    | _ => rfl
  have hboot := fun w => bootId_step hregister w
  rw [historyStep, hhistory]
  constructor
  · intro w b hregistered
    obtain ⟨hw, hb, latest, hlatest⟩ := h.registered w b hregistered
    have hnow := hboot w
    rw [hlatest] at hnow
    obtain ⟨latest', hlatest', -⟩ := Option.map_eq_some_iff.mp hnow
    exact ⟨hw, hb, latest', hlatest'⟩
  · intro w b hsuperseded
    obtain ⟨hregistered, hother⟩ := h.superseded w b hsuperseded
    refine ⟨hregistered, fun latest hlatest => ?_⟩
    have hbefore := hboot w
    rw [hlatest] at hbefore
    obtain ⟨old, hold, heq⟩ := Option.map_eq_some_iff.mp hbefore.symm
    exact heq ▸ hother old hold

theorem Succeeded.step {s : CapacityModel × Incarnations} (h : Succeeded s) {op : ModelOp}
    (hop : RespectsSuccession s op) : Succeeded (historyStep s op) := by
  by_cases hregister : ∃ w b, op = .registerWorker w b ∧ (s.1.registerWorker w b).2 = true
  · obtain ⟨w, b, rfl, haccepted⟩ := hregister
    exact h.register haccepted (hop haccepted)
  · exact h.keep hregister

theorem succeeded_empty : Succeeded ({}, {}) :=
  ⟨fun _ _ h => absurd h Bool.false_ne_true, fun _ _ h => absurd h Bool.false_ne_true⟩

/-- No superseded incarnation acts again precisely when each of them registers again, if
at all, while its worker is alive. -/
theorem superseded_stays_rejected_iff (ops : List ModelOp) :
    Runs.Always historyStep RespectsSuccession ({}, {}) ops ↔
      Runs.Always historyStep ReplaysWhileAlive ({}, {}) ops :=
  Runs.always_congr Succeeded (fun _ op h _ => h.respects_iff op)
    (fun _ op h _ hop => h.step ((h.respects_iff op).mpr hop)) succeeded_empty
    (Runs.always_true _ ops)

def replayAfterDeath : List ModelOp :=
  [.registerWorker ⟨1⟩ ⟨1⟩, .unregisterWorker ⟨1⟩, .registerWorker ⟨1⟩ ⟨2⟩, .markWorkerDead ⟨1⟩,
    .registerWorker ⟨1⟩ ⟨1⟩]

/-- After the death of boot 2 the superseded boot 1 is accepted again. -/
theorem superseded_incarnation_returns :
    ¬ ∀ ops : List ModelOp, Runs.Always historyStep RespectsSuccession ({}, {}) ops := by
  intro h
  obtain ⟨-, -, -, -, hreplay, -⟩ := h replayAfterDeath
  have haccepted := hreplay (by decide +kernel)
  revert haccepted
  decide +kernel

end CapacityModel

end CapacityFabric
