import CapacityFabric.Foundation.Runs
import CapacityFabric.Model.Loading

/-!
# Runs of the capacity model
-/

namespace CapacityFabric

inductive ModelOp
  | setEpoch (e : CoordinatorEpoch)
  | registerWorker (w : WorkerId) (b : WorkerBootId)
  | unregisterWorker (w : WorkerId)
  | markWorkerDead (w : WorkerId)
  | publishResource (r : ResourceInfo)
  | advanceResourceGeneration (id : ResourceId)
  | publishReservation (res : Reservation)
  | publishRelease (rel : ReleaseEvent)
  | registerDemand (d : WorkloadDemand)
  | registerTopology (links : List LinkInfo) (gen : TopologyGeneration)
  | setHealth (id : DeviceId) (h : HealthState) (gen : HealthGeneration)
  | recordForecast (at_ : TimePoint) (expected : Capacity)
  | recordObserved (at_ : TimePoint) (observed : Capacity)
  | load (bytes : List UInt8)

def ModelOp.isLoad : ModelOp → Bool
  | .load _ => true
  | _ => false

namespace CapacityModel

/-- The state after an operation and whether it was accepted. -/
def apply (m : CapacityModel) : ModelOp → CapacityModel × Bool
  | .setEpoch e => (m.setEpoch e, true)
  | .registerWorker w b => m.registerWorker w b
  | .unregisterWorker w => m.unregisterWorker w
  | .markWorkerDead w => (m.markWorkerDead w, true)
  | .publishResource r => m.publishResource r
  | .advanceResourceGeneration id => m.advanceResourceGeneration id
  | .publishReservation res => m.publishReservation res
  | .publishRelease rel => m.publishRelease rel
  | .registerDemand d => m.registerDemand d
  | .registerTopology links gen => m.registerTopology links gen
  | .setHealth id h gen => m.setHealth id h gen
  | .recordForecast at_ expected => (m.recordForecast at_ expected, true)
  | .recordObserved at_ observed => (m.recordObserved at_ observed, true)
  | .load bytes => ((m.load bytes).1, (m.load bytes).2 = .accepted)

def step (m : CapacityModel) (op : ModelOp) : CapacityModel := (m.apply op).1

/-- The states that the operations reach from a fresh model. -/
abbrev Reachable (m : CapacityModel) : Prop := Runs.Reachable step {} m

/-- Publication takes effect from the live incarnation, unless the generation is behind. -/
theorem publishResource_eq (m : CapacityModel) (r : ResourceInfo) :
    m.publishResource r =
      if m.isFreshBoot r.worker r.bootId && !m.resourceGen.isStale r.id r.generation then
        ({ m with
          resourceGen := (m.resourceGen.advance r.id r.generation).1
          resources := m.resources.insert r.id r
          devices := m.devices.insert r.deviceId (publishedDevice r) }, true)
      else (m, false) := by
  unfold publishResource isFreshBoot
  cases m.sources.find? r.worker with
  | none => rfl
  | some s =>
    by_cases halive : s.alive = true
    · by_cases hboot : s.bootId = r.bootId
      · cases hstale : m.resourceGen.isStale r.id r.generation with
        | true =>
          have hreject : ((m.resourceGen.current r.id).valid && decide
              (r.generation.value < (m.resourceGen.current r.id).value)) = true := hstale
          simp [halive, hboot, hreject]
        | false =>
          have haccept : ((m.resourceGen.current r.id).valid && decide
              (r.generation.value < (m.resourceGen.current r.id).value)) = false := hstale
          simp [halive, hboot, haccept]
      · simp [hboot]
    · simp [halive]

theorem advanceResourceGeneration_eq (m : CapacityModel) (id : ResourceId) :
    m.advanceResourceGeneration id =
      match m.resources.find? id with
      | none => (m, false)
      | some r =>
        ({ m with
          resourceGen := (m.resourceGen.advance id (m.resourceGen.current id).advance).1
          resources :=
            m.resources.insert id { r with generation := (m.resourceGen.current id).advance }
          devices := m.devices.alter r.deviceId fun d =>
            d.map fun d =>
              { d with generation := ⟨(m.resourceGen.current id).advance.value⟩ } }, true) := by
  unfold advanceResourceGeneration
  cases m.resources.find? id with
  | none => rfl
  | some r =>
    have haccepted : (m.resourceGen.advance id (m.resourceGen.current id).advance).2 = true := by
      rw [GenerationTracker.advance_eq, GenerationTracker.isStale_advance, Bool.and_false]
      rfl
    simp [haccepted]

/-- What an accepted operation found and the state it leaves, a load apart. -/
inductive Accepted (m : CapacityModel) : ModelOp → CapacityModel → Prop
  | setEpoch (e : CoordinatorEpoch) : Accepted m (.setEpoch e) { m with epoch := e }
  | registerWorker {w : WorkerId} {b : WorkerBootId} (hw : w.valid = true) (hb : b.valid = true)
      (hboot : ∀ s, m.sources.find? w = some s → s.alive = true → s.bootId = b) :
      Accepted m (.registerWorker w b) { m with sources := m.sources.insert w ⟨b, true⟩ }
  | unregisterWorker {w : WorkerId} {s : SourceState} (hs : m.sources.find? w = some s) :
      Accepted m (.unregisterWorker w)
        { m with sources := m.sources.insert w { s with alive := false } }
  | markWorkerDead {w : WorkerId} {s : SourceState} (hs : m.sources.find? w = some s) :
      Accepted m (.markWorkerDead w)
        { m with sources := m.sources.insert w { s with alive := false } }
  | markUnknownWorkerDead {w : WorkerId} (hs : m.sources.find? w = none) :
      Accepted m (.markWorkerDead w) m
  | publishResource {r : ResourceInfo} (hboot : m.isFreshBoot r.worker r.bootId = true)
      (hgen : m.resourceGen.isStale r.id r.generation = false) :
      Accepted m (.publishResource r)
        { m with
          resourceGen := (m.resourceGen.advance r.id r.generation).1
          resources := m.resources.insert r.id r
          devices := m.devices.insert r.deviceId (publishedDevice r) }
  | advanceResourceGeneration {id : ResourceId} {r : ResourceInfo}
      (hr : m.resources.find? id = some r) :
      Accepted m (.advanceResourceGeneration id)
        { m with
          resourceGen := (m.resourceGen.advance id (m.resourceGen.current id).advance).1
          resources :=
            m.resources.insert id { r with generation := (m.resourceGen.current id).advance }
          devices := m.devices.alter r.deviceId fun d =>
            d.map fun d =>
              { d with generation := ⟨(m.resourceGen.current id).advance.value⟩ } }
  | publishReservation {res : Reservation}
      (hgen : m.reservationGen.isStale res.id res.generation = false) :
      Accepted m (.publishReservation res)
        { m with
          reservationGen := (m.reservationGen.advance res.id res.generation).1
          reservations := (m.reservations.filter fun r => r.id ≠ res.id) ++ [res] }
  | publishRelease (rel : ReleaseEvent) :
      Accepted m (.publishRelease rel)
        { m with releases := (m.releases.filter fun r => r.sourceId ≠ rel.sourceId) ++ [rel] }
  | registerDemand {d : WorkloadDemand}
      (hgen : ∀ d', m.demands.find? d.id = some d' → d'.generation.value ≤ d.generation.value) :
      Accepted m (.registerDemand d) { m with demands := m.demands.insert d.id d }
  | registerTopology {links : List LinkInfo} {gen : TopologyGeneration}
      (hgen : m.topologyGen.isStale ⟨1⟩ gen = false) :
      Accepted m (.registerTopology links gen)
        { m with
          topologyGen := (m.topologyGen.advance ⟨1⟩ gen).1
          topoGen := gen
          links := links.foldl (fun ls l => ls.insert l.id l) m.links }
  | setHealth {id : DeviceId} {h : HealthState} {gen : HealthGeneration}
      (hgen : m.healthGen.isStale id gen = false) :
      Accepted m (.setHealth id h gen)
        { m with
          healthGen := (m.healthGen.advance id gen).1
          devices := m.devices.alter id fun d => d.map fun d => { d with health := h } }
  | recordForecast (at_ : TimePoint) (expected : Capacity) :
      Accepted m (.recordForecast at_ expected)
        { m with forecastHistory := m.forecastHistory ++ [(at_, expected, ∅)] }
  | recordObserved (at_ : TimePoint) (observed : Capacity) :
      Accepted m (.recordObserved at_ observed)
        { m with forecastHistory := observeFirst at_ observed m.forecastHistory }

/-- An operation that is not a load is rejected without a trace, or accepted. -/
theorem apply_cases (m : CapacityModel) {op : ModelOp} (hload : op.isLoad = false) :
    m.apply op = (m, false) ∨ ∃ m', m.apply op = (m', true) ∧ Accepted m op m' := by
  cases op with
  | load bytes => exact absurd hload Bool.true_eq_false.mp
  | registerWorker w b =>
    simp only [apply, CapacityModel.registerWorker]
    split_ifs with hvalid hfree
    · exact Or.inl rfl
    · exact Or.inl rfl
    · simp only [Bool.or_eq_true, Bool.not_eq_true', not_or, Bool.not_eq_false] at hvalid
      refine Or.inr ⟨_, rfl, .registerWorker hvalid.1 hvalid.2 fun s hs halive => ?_⟩
      simpa [hs, halive] using hfree
  | unregisterWorker w =>
    simp only [apply, CapacityModel.unregisterWorker]
    cases hs : m.sources.find? w with
    | none => exact Or.inl rfl
    | some s => exact Or.inr ⟨_, rfl, .unregisterWorker hs⟩
  | markWorkerDead w =>
    simp only [apply, CapacityModel.markWorkerDead]
    cases hs : m.sources.find? w with
    | none => exact Or.inr ⟨_, rfl, .markUnknownWorkerDead hs⟩
    | some s => exact Or.inr ⟨_, rfl, .markWorkerDead hs⟩
  | publishResource r =>
    simp only [apply, publishResource_eq]
    split_ifs with h
    · simp only [Bool.and_eq_true, Bool.not_eq_true'] at h
      exact Or.inr ⟨_, rfl, .publishResource h.1 h.2⟩
    · exact Or.inl rfl
  | advanceResourceGeneration id =>
    simp only [apply, advanceResourceGeneration_eq]
    cases hr : m.resources.find? id with
    | none => exact Or.inl rfl
    | some r => exact Or.inr ⟨_, rfl, .advanceResourceGeneration hr⟩
  | publishReservation res =>
    cases hgen : m.reservationGen.isStale res.id res.generation with
    | true => exact Or.inl (if_pos hgen)
    | false => exact Or.inr ⟨_, if_neg (Bool.eq_false_iff.mp hgen), .publishReservation hgen⟩
  | registerDemand d =>
    simp only [apply, CapacityModel.registerDemand]
    split_ifs with h
    · exact Or.inl rfl
    · refine Or.inr ⟨_, rfl, .registerDemand fun d' hd' => ?_⟩
      simp only [hd', Option.map_some, Option.getD_some, Bool.and_eq_true, not_and,
        decide_eq_true_eq, not_lt, Generation.valid] at h
      by_cases hzero : d'.generation.value = 0
      · rw [hzero]
        exact UInt64.zero_le
      · exact h (by simpa using hzero)
  | registerTopology links gen =>
    cases hgen : m.topologyGen.isStale ⟨1⟩ gen with
    | true => exact Or.inl (if_pos hgen)
    | false => exact Or.inr ⟨_, if_neg (Bool.eq_false_iff.mp hgen), .registerTopology hgen⟩
  | setHealth id h gen =>
    cases hgen : m.healthGen.isStale id gen with
    | true => exact Or.inl (if_pos hgen)
    | false => exact Or.inr ⟨_, if_neg (Bool.eq_false_iff.mp hgen), .setHealth hgen⟩
  | setEpoch e => exact Or.inr ⟨_, rfl, .setEpoch e⟩
  | publishRelease rel => exact Or.inr ⟨_, rfl, .publishRelease rel⟩
  | recordForecast at_ expected => exact Or.inr ⟨_, rfl, .recordForecast at_ expected⟩
  | recordObserved at_ observed => exact Or.inr ⟨_, rfl, .recordObserved at_ observed⟩

theorem step_cases (m : CapacityModel) (op : ModelOp) :
    (∃ bytes, op = .load bytes ∧ m.step op = (m.load bytes).1) ∨ m.step op = m ∨
      Accepted m op (m.step op) := by
  cases hload : op.isLoad with
  | true =>
    cases op with
    | load bytes => exact Or.inl ⟨bytes, rfl, rfl⟩
    | _ => exact absurd hload Bool.false_ne_true
  | false =>
    rcases apply_cases m hload with heq | ⟨m', heq, hm'⟩
    · exact Or.inr (Or.inl (congrArg Prod.fst heq))
    · rw [step, heq]
      exact Or.inr (Or.inr hm')

theorem registerWorker_accepted_iff {m : CapacityModel} {w : WorkerId} {b : WorkerBootId} :
    (m.registerWorker w b).2 = true ↔ w.valid = true ∧ b.valid = true ∧
      ∀ s, m.sources.find? w = some s → s.alive = true → s.bootId = b := by
  unfold registerWorker
  cases hw : w.valid with
  | false => simp
  | true =>
    cases hb : b.valid with
    | false => simp
    | true =>
      cases hs : m.sources.find? w with
      | none => simp
      | some s =>
        cases halive : s.alive with
        | false => simp [halive]
        | true => by_cases hboot : s.bootId = b <;> simp [halive, hboot]

theorem registerWorker_of_accepted {m : CapacityModel} {w : WorkerId} {b : WorkerBootId}
    (h : (m.registerWorker w b).2 = true) :
    m.registerWorker w b = ({ m with sources := m.sources.insert w ⟨b, true⟩ }, true) := by
  unfold registerWorker at h ⊢
  split_ifs at h ⊢
  rfl

theorem registerWorker_of_rejected {m : CapacityModel} {w : WorkerId} {b : WorkerBootId}
    (h : (m.registerWorker w b).2 = false) : m.registerWorker w b = (m, false) := by
  unfold registerWorker at h ⊢
  split_ifs at h ⊢ <;> rfl

theorem isFreshBoot_iff {m : CapacityModel} {w : WorkerId} {b : WorkerBootId} :
    m.isFreshBoot w b = true ↔ m.sources.find? w = some ⟨b, true⟩ := by
  unfold isFreshBoot
  cases m.sources.find? w with
  | none => simp
  | some s =>
    obtain ⟨boot, alive⟩ := s
    simp [and_comm]

theorem exists_freshBoot (m : CapacityModel) :
    ∃ ops : List ModelOp, (∀ op ∈ ops, ∃ w b, op = .registerWorker w b) ∧ ∃ w b,
      (Runs.run step m ops).isFreshBoot w b = true ∧
        (Runs.run step m ops).resourceGen = m.resourceGen ∧
        (Runs.run step m ops).resources = m.resources := by
  by_cases hlive : ∃ s, m.sources.find? ⟨1⟩ = some s ∧ s.alive = true
  · obtain ⟨s, hs, halive⟩ := hlive
    exact ⟨[], by simp, ⟨1⟩, s.bootId, by simp [isFreshBoot, hs, halive], rfl, rfl⟩
  · have haccepted : (m.registerWorker ⟨1⟩ ⟨1⟩).2 = true := by
      rw [registerWorker_accepted_iff]
      exact ⟨by decide, by decide, fun s hs halive => absurd ⟨s, hs, halive⟩ hlive⟩
    have heq : Runs.run step m [.registerWorker ⟨1⟩ ⟨1⟩] =
        { m with sources := m.sources.insert ⟨1⟩ ⟨⟨1⟩, true⟩ } := by
      rw [Runs.run_cons, Runs.run_nil, step, apply, registerWorker_of_accepted haccepted]
    refine ⟨[.registerWorker ⟨1⟩ ⟨1⟩], by simp, ⟨1⟩, ⟨1⟩, ?_, ?_, ?_⟩
    · rw [heq]
      simp [isFreshBoot]
    · rw [heq]
    · rw [heq]

theorem sources_step {m : CapacityModel} {op : ModelOp}
    (hop : ∀ w b, op ≠ .registerWorker w b) :
    (m.step op).sources = m.sources ∨
      ∃ w s, (op = .unregisterWorker w ∨ op = .markWorkerDead w) ∧ m.sources.find? w = some s ∧
        (m.step op).sources = m.sources.insert w { s with alive := false } := by
  rcases step_cases m op with ⟨bytes, -, heq⟩ | heq | haccepted
  · exact Or.inl (heq ▸ load_sources m bytes)
  · exact Or.inl (congrArg CapacityModel.sources heq)
  · generalize m.step op = m' at haccepted ⊢
    cases haccepted with
    | registerWorker => exact absurd rfl (hop _ _)
    | unregisterWorker hs => exact Or.inr ⟨_, _, Or.inl rfl, hs, rfl⟩
    | markWorkerDead hs => exact Or.inr ⟨_, _, Or.inr rfl, hs, rfl⟩
    | _ => exact Or.inl rfl

/-- What neither registers nor ends a worker leaves the sources alone. -/
theorem sources_step_eq (m : CapacityModel) (op : ModelOp)
    (hregister : ∀ w b, op ≠ .registerWorker w b) (hunregister : ∀ w, op ≠ .unregisterWorker w)
    (hdead : ∀ w, op ≠ .markWorkerDead w) : (m.step op).sources = m.sources := by
  rcases sources_step hregister with heq | ⟨w, s, hop, -, -⟩
  · exact heq
  · exact absurd hop (not_or.mpr ⟨hunregister w, hdead w⟩)

end CapacityModel

end CapacityFabric
