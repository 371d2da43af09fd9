import CapacityFabric.Foundation.Commutation
import CapacityFabric.Model.Operations

/-!
# Workers that stay apart

The model is cut into cells, one for each worker, resource and device and for their
generations.  What a worker does to its own resources and devices is local to its cells,
so that the order in which two workers are served does not matter.
-/

namespace CapacityFabric

namespace CapacityModel

open Commutation

/-- The places of a model that an operation of a worker can touch, and the rest. -/
inductive Cell
  | source (w : WorkerId)
  | resource (id : ResourceId)
  | resourceGen (id : ResourceId)
  | device (id : DeviceId)
  | healthGen (id : DeviceId)
  | rest

abbrev Cell.Value : Cell → Type
  | source _ => Option SourceState
  | resource _ => Option ResourceInfo
  | resourceGen _ => Option ResourceGeneration
  | device _ => Option DeviceInfo
  | healthGen _ => Option HealthGeneration
  | rest => CapacityModel

def cell (m : CapacityModel) : (k : Cell) → k.Value
  | .source w => m.sources.find? w
  | .resource id => m.resources.find? id
  | .resourceGen id => m.resourceGen.gen.find? id
  | .device id => m.devices.find? id
  | .healthGen id => m.healthGen.gen.find? id
  | .rest => { m with sources := ∅, resources := ∅, resourceGen := ∅, devices := ∅, healthGen := ∅ }

theorem ext_cell {m m' : CapacityModel} (h : ∀ k, m.cell k = m'.cell k) : m = m' := by
  have hsources : m.sources = m'.sources := OrderedMap.ext_find? fun w => h (.source w)
  have hresources : m.resources = m'.resources := OrderedMap.ext_find? fun id => h (.resource id)
  have hdevices : m.devices = m'.devices := OrderedMap.ext_find? fun id => h (.device id)
  have hresourceGen : m.resourceGen = m'.resourceGen :=
    congrArg GenerationTracker.mk (OrderedMap.ext_find? fun id => h (.resourceGen id))
  have hhealthGen : m.healthGen = m'.healthGen :=
    congrArg GenerationTracker.mk (OrderedMap.ext_find? fun id => h (.healthGen id))
  have hrest := h .rest
  cases m
  cases m'
  simp only [cell, CapacityModel.mk.injEq] at *
  simp_all

/-- A worker with its resources and its devices. -/
structure Domain where
  worker : WorkerId
  resources : Set ResourceId
  devices : Set DeviceId

namespace Domain

variable (P : Domain)

def cells : Set Cell
  | .source w => w = P.worker
  | .resource id | .resourceGen id => id ∈ P.resources
  | .device id | .healthGen id => id ∈ P.devices
  | .rest => False

/-- The operations of the worker on its own worker id, resources and devices. -/
inductive Issues : ModelOp → Prop
  | registerWorker (b : WorkerBootId) : Issues (.registerWorker P.worker b)
  | markWorkerDead : Issues (.markWorkerDead P.worker)
  | publishResource {r : ResourceInfo} (hworker : r.worker = P.worker) (hid : r.id ∈ P.resources)
      (hdevice : r.deviceId ∈ P.devices) : Issues (.publishResource r)
  | advanceResourceGeneration {id : ResourceId} (hid : id ∈ P.resources) :
      Issues (.advanceResourceGeneration id)
  | setHealth {id : DeviceId} (hid : id ∈ P.devices) (h : HealthState) (gen : HealthGeneration) :
      Issues (.setHealth id h gen)

/-- What is stored of the worker's resources is on its devices. -/
def Owns (m : CapacityModel) : Prop :=
  ∀ id ∈ P.resources, ∀ r, m.resources.find? id = some r → r.deviceId ∈ P.devices

structure Apart (Q : Domain) : Prop where
  worker : P.worker ≠ Q.worker
  resources : Disjoint P.resources Q.resources
  devices : Disjoint P.devices Q.devices

variable {P} {Q : Domain}

theorem Apart.symm (h : P.Apart Q) : Q.Apart P :=
  ⟨h.worker.symm, h.resources.symm, h.devices.symm⟩

theorem Apart.cells (h : P.Apart Q) : Disjoint P.cells Q.cells := by
  rw [Set.disjoint_left]
  intro k hP hQ
  cases k with
  | source w => exact h.worker (hP.symm.trans hQ)
  | resource id => exact Set.disjoint_left.mp h.resources hP hQ
  | resourceGen id => exact Set.disjoint_left.mp h.resources hP hQ
  | device id => exact Set.disjoint_left.mp h.devices hP hQ
  | healthGen id => exact Set.disjoint_left.mp h.devices hP hQ
  | rest => exact hP

end Domain

variable {P Q : Domain} {m n : CapacityModel} {op : ModelOp}

/-- An operation of a worker writes none of the other cells. -/
theorem cell_step_of_not_mem (hop : P.Issues op) (hm : P.Owns m) {k : Cell} (hk : k ∉ P.cells) :
    (m.step op).cell k = m.cell k := by
  have hne : ∀ {α : Type} {s : Set α} {a b : α}, a ∈ s → b ∉ s → b ≠ a :=
    fun ha hb he => hb (he ▸ ha)
  rcases step_cases m op with ⟨bytes, rfl, -⟩ | heq | haccepted
  · cases hop
  · rw [heq]
  generalize m.step op = m' at haccepted
  cases hop with
  | registerWorker b =>
    cases haccepted with
    | registerWorker =>
      cases k with
      | source w => exact OrderedMap.find?_insert_of_ne _ _ hk
      | _ => rfl
  | markWorkerDead =>
    cases haccepted with
    | markWorkerDead =>
      cases k with
      | source w => exact OrderedMap.find?_insert_of_ne _ _ hk
      | _ => rfl
    | markUnknownWorkerDead => rfl
  | publishResource hworker hid hdevice =>
    cases haccepted with
    | publishResource hboot hgen =>
      cases k with
      | resource id => exact OrderedMap.find?_insert_of_ne _ _ (hne hid hk)
      | resourceGen id =>
        exact (GenerationTracker.find?_advance hgen id).trans (if_neg (hne hid hk))
      | device id => exact OrderedMap.find?_insert_of_ne _ _ (hne hdevice hk)
      | _ => rfl
  | advanceResourceGeneration hid =>
    cases haccepted with
    | advanceResourceGeneration hr =>
      have hnext := GenerationTracker.isStale_advance m.resourceGen
      cases k with
      | resource id => exact OrderedMap.find?_insert_of_ne _ _ (hne hid hk)
      | resourceGen id =>
        exact (GenerationTracker.find?_advance (hnext _) id).trans (if_neg (hne hid hk))
      | device id =>
        exact (OrderedMap.find?_alter _ _ _ _).trans (if_neg (hne (hm _ hid _ hr) hk))
      | _ => rfl
  | setHealth hid h gen =>
    cases haccepted with
    | setHealth hgen =>
      cases k with
      | device id => exact (OrderedMap.find?_alter _ _ _ _).trans (if_neg (hne hid hk))
      | healthGen id => exact (GenerationTracker.find?_advance hgen id).trans (if_neg (hne hid hk))
      | _ => rfl

theorem owns_step (hop : P.Issues op) (hm : P.Owns m) : P.Owns (m.step op) := by
  rcases step_cases m op with ⟨bytes, rfl, -⟩ | heq | haccepted
  · cases hop
  · rwa [heq]
  generalize m.step op = m' at haccepted
  intro id hid r hr
  cases hop with
  | publishResource hworker hid' hdevice =>
    cases haccepted
    dsimp only at hr
    rw [OrderedMap.find?_insert] at hr
    split_ifs at hr
    · exact Option.some.inj hr ▸ hdevice
    · exact hm id hid r hr
  | advanceResourceGeneration hid' =>
    cases haccepted with
    | advanceResourceGeneration hr' =>
      dsimp only at hr
      rw [OrderedMap.find?_insert] at hr
      split_ifs at hr
      · have hdevice := hm _ hid' _ hr'
        rw [← Option.some.inj hr]
        exact hdevice
      · exact hm id hid r hr
  | _ =>
    cases haccepted <;> exact hm id hid r hr

theorem owns_step_other (hapart : P.Apart Q) (hop : P.Issues op) (hm : P.Owns m)
    (hQ : Q.Owns m) : Q.Owns (m.step op) := by
  intro id hid r hr
  have hk : Cell.resource id ∉ P.cells := fun h => Set.disjoint_left.mp hapart.resources h hid
  have hsame : (m.step op).resources.find? id = m.resources.find? id :=
    cell_step_of_not_mem hop hm hk
  exact hQ id hid r (hsame ▸ hr)

/-- What an operation of a worker answers and writes is read off its own cells. -/
theorem apply_agrees (hop : P.Issues op) (hm : P.Owns m) (h : ∀ k ∈ P.cells, m.cell k = n.cell k) :
    (m.apply op).2 = (n.apply op).2 ∧
      ∀ k ∈ P.cells, (m.apply op).1.cell k = (n.apply op).1.cell k := by
  cases hop with
  | registerWorker b =>
    have hs : m.sources.find? P.worker = n.sources.find? P.worker := h (.source P.worker) rfl
    simp only [apply, CapacityModel.registerWorker, hs]
    split_ifs
    · exact ⟨rfl, h⟩
    · exact ⟨rfl, h⟩
    · refine ⟨rfl, fun k hk => ?_⟩
      cases k with
      | source w => exact OrderedMap.find?_insert_congr (h (.source w) hk) _ _
      | rest => exact hk.elim
      | _ => exact h _ hk
  | markWorkerDead =>
    have hs : m.sources.find? P.worker = n.sources.find? P.worker := h (.source P.worker) rfl
    simp only [apply, CapacityModel.markWorkerDead, hs]
    cases n.sources.find? P.worker with
    | none => exact ⟨trivial, h⟩
    | some s =>
      refine ⟨trivial, fun k hk => ?_⟩
      cases k with
      | source w => exact OrderedMap.find?_insert_congr (h (.source w) hk) _ _
      | rest => exact hk.elim
      | _ => exact h _ hk
  | @publishResource r hworker hid hdevice =>
    have hs : m.sources.find? r.worker = n.sources.find? r.worker := h (.source r.worker) hworker
    have hg : m.resourceGen.gen.find? r.id = n.resourceGen.gen.find? r.id :=
      h (.resourceGen r.id) hid
    have hguard : (m.isFreshBoot r.worker r.bootId && !m.resourceGen.isStale r.id r.generation) =
        (n.isFreshBoot r.worker r.bootId && !n.resourceGen.isStale r.id r.generation) := by
      rw [isFreshBoot, isFreshBoot, hs, GenerationTracker.isStale_congr hg]
    simp only [apply, publishResource_eq, hguard]
    split_ifs
    · refine ⟨rfl, fun k hk => ?_⟩
      cases k with
      | resource id => exact OrderedMap.find?_insert_congr (h (.resource id) hk) _ _
      | resourceGen id => exact GenerationTracker.find?_advance_congr hg (h (.resourceGen id) hk) _
      | device id => exact OrderedMap.find?_insert_congr (h (.device id) hk) _ _
      | rest => exact hk.elim
      | _ => exact h _ hk
    · exact ⟨rfl, h⟩
  | @advanceResourceGeneration id hid =>
    have hs : m.resources.find? id = n.resources.find? id := h (.resource id) hid
    have hg : m.resourceGen.gen.find? id = n.resourceGen.gen.find? id := h (.resourceGen id) hid
    have hcur := GenerationTracker.current_congr hg
    simp only [apply, advanceResourceGeneration_eq]
    cases hr : m.resources.find? id with
    | none =>
      rw [← hs, hr]
      exact ⟨rfl, h⟩
    | some r =>
      rw [← hs, hr, hcur]
      refine ⟨rfl, fun k hk => ?_⟩
      cases k with
      | resource id' => exact OrderedMap.find?_insert_congr (h (.resource id') hk) _ _
      | resourceGen id' =>
        exact GenerationTracker.find?_advance_congr hg (h (.resourceGen id') hk) _
      | device id' =>
        exact OrderedMap.find?_alter_congr (h (.device r.deviceId) (hm id hid r hr))
          (h (.device id') hk) _
      | rest => exact hk.elim
      | _ => exact h _ hk
  | @setHealth id hid health gen =>
    have hg : m.healthGen.gen.find? id = n.healthGen.gen.find? id := h (.healthGen id) hid
    have happly : ∀ m : CapacityModel, m.setHealth id health gen =
        if m.healthGen.isStale id gen then (m, false)
        else ({ m with
          healthGen := (m.healthGen.advance id gen).1
          devices := m.devices.alter id fun d => d.map fun d => { d with health := health } },
          true) := fun _ => rfl
    simp only [apply, happly, GenerationTracker.isStale_congr hg]
    split_ifs
    · exact ⟨rfl, h⟩
    · refine ⟨rfl, fun k hk => ?_⟩
      cases k with
      | device id' =>
        exact OrderedMap.find?_alter_congr (h (.device id) hid) (h (.device id') hk) _
      | healthGen id' => exact GenerationTracker.find?_advance_congr hg (h (.healthGen id') hk) _
      | rest => exact hk.elim
      | _ => exact h _ hk

theorem localTo (hop : P.Issues op) : LocalTo cell apply P.Owns P.cells op where
  keeps := owns_step hop
  frame hm _ hk := cell_step_of_not_mem hop hm hk
  answer hm _ h := (apply_agrees hop hm h).1
  effect hm _ h := (apply_agrees hop hm h).2

/-- Two workers that share nothing leave one state and get one list of answers each, in
whatever order their operations are served. -/
theorem independent_workers_commute (hapart : P.Apart Q) {zs zs' : List (ModelOp ⊕ ModelOp)}
    (hP : ∀ op ∈ lefts zs, P.Issues op) (hQ : ∀ op ∈ rights zs, Q.Issues op)
    (hlefts : lefts zs = lefts zs') (hrights : rights zs = rights zs')
    (hm : P.Owns m ∧ Q.Owns m) : serve apply m zs = serve apply m zs' := by
  have hleft : ∀ op ∈ lefts zs,
      LocalTo cell apply (fun m => P.Owns m ∧ Q.Owns m) P.cells op := by
    intro op hop
    apply (localTo (hP op hop)).strengthen And.left
    intro m hm
    exact ⟨owns_step (hP op hop) hm.1, owns_step_other hapart (hP op hop) hm.1 hm.2⟩
  have hright : ∀ op ∈ rights zs,
      LocalTo cell apply (fun m => P.Owns m ∧ Q.Owns m) Q.cells op := by
    intro op hop
    apply (localTo (hQ op hop)).strengthen And.right
    intro m hm
    exact ⟨owns_step_other hapart.symm (hQ op hop) hm.2 hm.1, owns_step (hQ op hop) hm.2⟩
  exact serve_interleaving (fun h => ext_cell h) hapart.cells hleft hright hlefts hrights hm

def domainOf (n : UInt64) : Domain := ⟨⟨n⟩, {⟨n⟩}, {⟨n⟩}⟩

/-- What worker `n` does: it registers, publishes its accelerator and reports it degraded. -/
def accelerator (n : UInt64) : List ModelOp :=
  [.registerWorker ⟨n⟩ ⟨n⟩,
    .publishResource (Reference.makeResource ⟨n⟩ ⟨1⟩ ⟨1⟩ ⟨1⟩ ⟨n⟩ ⟨n⟩ ⟨n⟩ {} 16 8 [8]),
    .setHealth ⟨n⟩ .degraded ⟨1⟩]

theorem issues_accelerator (n : UInt64) : ∀ op ∈ accelerator n, (domainOf n).Issues op := by
  intro op hop
  simp only [accelerator, List.mem_cons, List.not_mem_nil, or_false] at hop
  rcases hop with rfl | rfl | rfl
  · exact .registerWorker ⟨n⟩
  · exact .publishResource rfl rfl rfl
  · exact .setHealth rfl _ _

theorem independent_workers_commute_accelerators :
    serve apply {} ((accelerator 1).map .inl ++ (accelerator 2).map .inr) =
      serve apply {} ((accelerator 2).map .inr ++ (accelerator 1).map .inl) := by
  have hapart : (domainOf 1).Apart (domainOf 2) :=
    ⟨by decide, by simp [domainOf], by simp [domainOf]⟩
  have hnone : ∀ P : Domain, P.Owns {} := fun P id _ r hr => absurd hr (by simp)
  exact independent_workers_commute hapart (issues_accelerator 1) (issues_accelerator 2) rfl rfl
    ⟨hnone _, hnone _⟩

end CapacityModel

end CapacityFabric
