import CapacityFabric.Model.Snapshot
import CapacityFabric.Model.StoredDoubles

/-!
# What a saved file holds

Each record is read back as the part of it that was written.
-/

namespace CapacityFabric

namespace CapacityModel

open BinaryReader BinaryWriter Loader Parsing

def savedResource [A : Arithmetic] (p : ResourceId × ResourceInfo) : ResourceInfo where
  id := p.1
  generation := p.2.generation
  fleetId := p.2.fleetId
  nodeId := p.2.nodeId
  deviceId := p.2.deviceId
  capability := { p.2.capability with markers := [] }
  nominal := (Capacity.setVram ∅ p.2.nominal.vram).setAccelerators p.2.nominal.accelerators
  health := p.2.health
  kind := p.2.kind

def savedReservation (r : Reservation) : Reservation :=
  { r with hold := CapacityDelta.change ∅ .acceleratorCount (r.hold.at_ .acceleratorCount) }

def savedRelease (e : ReleaseEvent) : ReleaseEvent :=
  { e with release := CapacityDelta.change ∅ .acceleratorCount (e.release.at_ .acceleratorCount) }

def savedForecast [A : Arithmetic] (f : TimePoint × Capacity × Capacity) :
    TimePoint × Capacity × Capacity :=
  (f.1,
    Capacity.setAccelerators ∅
      (Double.ofBits (Double.toBits (f.2.1.amount .acceleratorCount))).toUInt64,
    Capacity.setAccelerators ∅
      (Double.ofBits (Double.toBits (f.2.2.amount .acceleratorCount))).toUInt64)

def FitsStrings (r : ResourceInfo) : Prop :=
  r.capability.architecture.length < 2 ^ 32 ∧ r.capability.className.length < 2 ^ 32 ∧
    r.capability.capability.length < 2 ^ 32

theorem parses_saveResource [A : Arithmetic] {p : ResourceId × ResourceInfo}
    (h : FitsStrings p.2) :
    Parses readSavedResource (saveResource p.1 p.2) (.ok (savedResource p)) := by
  obtain ⟨harchitecture, hclassName, hcapability⟩ := h
  simp only [saveResource, List.append_assoc]
  refine (parses_readU64 _).bind ((parses_readU64 _).bind ((parses_readU64 _).bind
    ((parses_readU64 _).bind ((parses_readU64 _).bind ?_))))
  refine (parses_readString harchitecture).bind ((parses_readString hclassName).bind
    ((parses_readString hcapability).bind ?_))
  refine (parses_readU64 _).bind ((parses_readU64 _).bind ((parses_readU8 _).bind ?_))
  refine (parses_readU8 _).map ?_
  rw [HealthState.ofCode_code, ResourceKind.ofCode_code]
  rfl

/-- A reservation whose interval is the empty default one is refused. -/
theorem parses_saveReservation {r : Reservation} (h : IsDouble (r.hold.at_ .acceleratorCount)) :
    Parses readSavedReservation (saveReservation r)
      (if r.interval.valid = true then .ok (savedReservation r) else .error .rejected) := by
  simp only [saveReservation, List.append_assoc]
  refine (parses_readU64 _).bind ((parses_readU64 _).bind ((parses_readI64 _).bind
    ((parses_readI64 _).bind ((parses_readU8 _).bind ?_))))
  have hhold := parses_readF64 (r.hold.at_ .acceleratorCount)
  rw [Double.ofBits_toBits h] at hhold
  refine hhold.map ?_
  rw [ReservationStrength.ofCode_code, Interval.make?_bounds]
  by_cases hvalid : r.interval.valid = true
  · rw [if_pos hvalid, if_pos hvalid]
    rfl
  · rw [if_neg hvalid, if_neg hvalid]

theorem parses_saveRelease {e : ReleaseEvent}
    (hrelease : IsDouble (e.release.at_ .acceleratorCount))
    (hconfidence : IsDouble e.confidence.value) :
    Parses readSavedRelease (saveRelease e) (.ok (savedRelease e)) := by
  simp only [saveRelease, List.append_assoc]
  refine (parses_readU64 _).bind ((parses_readI64 _).bind ((parses_readI64 _).bind
    ((parses_readI64 _).bind ((parses_readF64 _).bind ?_))))
  refine (parses_readF64 _).map ?_
  rw [Double.ofBits_toBits hrelease, Double.ofBits_toBits hconfidence, checkedConfidence,
    BoundedFraction.make?_value]
  rfl

theorem parses_saveForecast [A : Arithmetic] (f : TimePoint × Capacity × Capacity) :
    Parses readSavedForecast (saveForecast f) (.ok (savedForecast f)) := by
  simp only [saveForecast, List.append_assoc]
  exact (parses_readI64 _).bind ((parses_readF64 _).bind ((parses_readF64 _).map rfl))

section Tables

variable {α γ : Type} {reader : BinaryReader (Except LoadFailure α)} {write : γ → List UInt8}

theorem parses_readCount {n : ℕ} (h : n ≤ 1000000) : Parses readCount (writeU32 n) n := by
  intro rest
  have hu32 : Parses readU32 (writeU32 n) n := parses_readU32 (by omega)
  rw [readCount, ← List.append_nil (writeU32 n), List.append_assoc, hu32.run_bind,
    if_neg (by omega)]
  rfl

theorem refuses_readCount {n : ℕ} (hlt : n < 2 ^ 32) (h : 1000000 < n) :
    Refuses readCount (writeU32 n) := by
  intro rest
  rw [readCount, (parses_readU32 hlt).run_bind, if_pos h]
  rfl

theorem parses_readAccepted {ts : List UInt8} {a : α} (h : Parses reader ts (.ok a)) :
    Parses (readAccepted reader) ts a := by
  intro rest
  rw [readAccepted, h.run_bind]
  rfl

theorem refuses_readAccepted {ts : List UInt8} {e : LoadFailure}
    (h : Parses reader ts (.error e)) : Refuses (readAccepted reader) ts := by
  intro rest
  rw [readAccepted, h.run_bind]
  rfl

theorem parses_readRecords {value : γ → α} {cs : List γ} (hcount : cs.length ≤ 1000000)
    (h : ∀ c ∈ cs, Parses reader (write c) (.ok (value c))) :
    Parses (readRecords reader) (writeU32 cs.length ++ cs.flatMap write) (cs.map value) :=
  (parses_readCount hcount).bind (Parses.readMany fun c hc => parses_readAccepted (h c hc))

/-- A table of more than a million records is refused. -/
theorem refuses_readRecords {cs : List γ} (hlt : cs.length < 2 ^ 32)
    (hcount : ¬cs.length ≤ 1000000) :
    Refuses (readRecords reader) (writeU32 cs.length ++ cs.flatMap write) :=
  ((refuses_readCount hlt (not_le.mp hcount)).bind _).append _

end Tables

/-- What the file of a model says. -/
def savedSnapshot [A : Arithmetic] (m : CapacityModel) : Snapshot where
  epoch := m.epoch
  resources := m.resources.entries.map savedResource
  reservations := m.reservations.map savedReservation
  releases := m.releases.map savedRelease
  forecastHistory := m.forecastHistory.map savedForecast

def resourceSize (r : ResourceInfo) : ℕ :=
  70 + r.capability.architecture.length + r.capability.className.length +
    r.capability.capability.length

def savedSize (m : CapacityModel) : ℕ :=
  44 + (m.resources.entries.map fun p => resourceSize p.2).sum + 41 * m.reservations.length +
    48 * m.releases.length + 24 * m.forecastHistory.length

/-- The limits of the reader: the size of the file, the counts of its tables, and no
reservation with the empty default interval. -/
structure WithinLimits (m : CapacityModel) : Prop where
  size : m.savedSize ≤ maxBytes
  resources : m.resources.entries.length ≤ 1000000
  reservations : m.reservations.length ≤ 1000000
  releases : m.releases.length ≤ 1000000
  forecastHistory : m.forecastHistory.length ≤ 1000000
  intervals : ∀ r ∈ m.reservations, r.interval.valid = true

theorem length_saveResource (p : ResourceId × ResourceInfo) :
    (saveResource p.1 p.2).length = resourceSize p.2 := by
  simp only [saveResource, resourceSize, List.length_append, writeString, writeU64, writeU32,
    writeU8, length_littleEndian, List.length_singleton]
  omega

theorem length_saveReservation (r : Reservation) : (saveReservation r).length = 41 := by
  simp only [saveReservation, List.length_append, writeU64, writeI64, writeU8, writeF64,
    length_littleEndian, List.length_singleton]

theorem length_saveRelease (e : ReleaseEvent) : (saveRelease e).length = 48 := by
  simp only [saveRelease, List.length_append, writeU64, writeI64, writeF64, length_littleEndian]

theorem length_saveForecast (f : TimePoint × Capacity × Capacity) :
    (saveForecast f).length = 24 := by
  simp only [saveForecast, List.length_append, writeU64, writeI64, writeF64, length_littleEndian]

theorem length_flatMap_of_const {γ : Type} {write : γ → List UInt8} {n : ℕ}
    (h : ∀ c, (write c).length = n) (cs : List γ) : (cs.flatMap write).length = n * cs.length := by
  rw [List.length_flatMap, List.map_congr_left fun c _ => h c, List.map_const', List.sum_replicate,
    smul_eq_mul, mul_comm]

theorem length_save (m : CapacityModel) : m.save.length = m.savedSize := by
  rw [save_eq_framed, length_framed, saveBody]
  simp only [List.length_append, writeU64, writeU32, length_littleEndian,
    length_flatMap_of_const length_saveReservation, length_flatMap_of_const length_saveRelease,
    length_flatMap_of_const length_saveForecast]
  rw [List.length_flatMap, List.map_congr_left fun p _ => length_saveResource p, savedSize]
  omega

theorem length_saveBody (m : CapacityModel) : m.saveBody.length + 20 = m.savedSize := by
  rw [← length_save, save_eq_framed, length_framed]

theorem counts_lt {m : CapacityModel} (h : m.savedSize ≤ maxBytes) :
    m.saveBody.length + 8 < 2 ^ 32 ∧ m.resources.entries.length < 2 ^ 32 ∧
      m.reservations.length < 2 ^ 32 ∧ m.releases.length < 2 ^ 32 ∧
      m.forecastHistory.length < 2 ^ 32 ∧ ∀ p ∈ m.resources.entries, FitsStrings p.2 := by
  have hmax : maxBytes = 67108864 := rfl
  have hbody := length_saveBody m
  have hcount : m.resources.entries.length ≤
      (m.resources.entries.map fun p => resourceSize p.2).sum := by
    rw [← List.length_map (fun p : ResourceId × ResourceInfo => resourceSize p.2)]
    refine List.length_le_sum_of_one_le _ fun n hn => ?_
    obtain ⟨p, -, rfl⟩ := List.mem_map.mp hn
    rw [resourceSize]
    omega
  rw [savedSize, hmax] at h
  rw [savedSize] at hbody
  refine ⟨by omega, by omega, by omega, by omega, by omega, fun p hp => ?_⟩
  have hrecord : resourceSize p.2 ≤ (m.resources.entries.map fun p => resourceSize p.2).sum :=
    List.le_sum_of_mem (List.mem_map.mpr ⟨p, hp, rfl⟩)
  rw [resourceSize] at hrecord
  exact ⟨by omega, by omega, by omega⟩

theorem parses_resources [A : Arithmetic] {m : CapacityModel}
    (hcount : m.resources.entries.length ≤ 1000000)
    (hstrings : ∀ p ∈ m.resources.entries, FitsStrings p.2) :
    Parses (readRecords readSavedResource) (writeU32 m.resources.entries.length ++
      m.resources.entries.flatMap fun p => saveResource p.1 p.2)
      (m.resources.entries.map savedResource) :=
  parses_readRecords hcount fun p hp => parses_saveResource (hstrings p hp)

theorem parses_reservations {m : CapacityModel} (hdoubles : m.StoresDoubles)
    (hcount : m.reservations.length ≤ 1000000)
    (hintervals : ∀ r ∈ m.reservations, r.interval.valid = true) :
    Parses (readRecords readSavedReservation)
      (writeU32 m.reservations.length ++ m.reservations.flatMap saveReservation)
      (m.reservations.map savedReservation) := by
  apply parses_readRecords hcount
  intro r hr
  have h := parses_saveReservation (hdoubles.reservation r hr)
  rwa [if_pos (hintervals r hr)] at h

theorem refuses_reservations {m : CapacityModel} (hdoubles : m.StoresDoubles)
    (hcount : m.reservations.length ≤ 1000000)
    (hintervals : ¬∀ r ∈ m.reservations, r.interval.valid = true) :
    Refuses (readRecords readSavedReservation)
      (writeU32 m.reservations.length ++ m.reservations.flatMap saveReservation) := by
  obtain ⟨r, hr, hvalid⟩ : ∃ r ∈ m.reservations, ¬r.interval.valid = true := by
    simpa using hintervals
  refine (parses_readCount hcount).bind_refuses ?_
  refine Refuses.readMany (fun r => ¬r.interval.valid = true) (fun r hr hvalid => ?_)
    (fun r hr hvalid => ?_) hr hvalid
  · have h := parses_saveReservation (hdoubles.reservation r hr)
    rw [if_pos (not_not.mp hvalid)] at h
    exact ⟨_, parses_readAccepted h⟩
  · have h := parses_saveReservation (hdoubles.reservation r hr)
    rw [if_neg hvalid] at h
    exact refuses_readAccepted h

theorem parses_releases {m : CapacityModel} (hdoubles : m.StoresDoubles)
    (hcount : m.releases.length ≤ 1000000) :
    Parses (readRecords readSavedRelease)
      (writeU32 m.releases.length ++ m.releases.flatMap saveRelease)
      (m.releases.map savedRelease) :=
  parses_readRecords hcount fun e he =>
    parses_saveRelease (hdoubles.release e he).1 (hdoubles.release e he).2

theorem parses_forecasts [A : Arithmetic] {m : CapacityModel}
    (hcount : m.forecastHistory.length ≤ 1000000) :
    Parses (readRecords readSavedForecast)
      (writeU32 m.forecastHistory.length ++ m.forecastHistory.flatMap saveForecast)
      (m.forecastHistory.map savedForecast) :=
  parses_readRecords hcount fun f _ => parses_saveForecast f

theorem saveBody_eq (m : CapacityModel) :
    m.saveBody = writeU64 m.epoch.value ++
      ((writeU32 m.resources.entries.length ++
          m.resources.entries.flatMap fun p => saveResource p.1 p.2) ++
        ((writeU32 m.reservations.length ++ m.reservations.flatMap saveReservation) ++
          ((writeU32 m.releases.length ++ m.releases.flatMap saveRelease) ++
            (writeU32 m.forecastHistory.length ++
              m.forecastHistory.flatMap saveForecast)))) := by
  simp only [saveBody, List.append_assoc]

/-- Within the limits the body of a model is read back as what was saved. -/
theorem decodeBody_saveBody [A : Arithmetic] {m : CapacityModel} (hdoubles : m.StoresDoubles)
    (hlimits : m.WithinLimits) : decodeBody m.saveBody = some m.savedSnapshot := by
  obtain ⟨-, -, -, -, -, hstrings⟩ := counts_lt hlimits.size
  have hforecasts := (parses_forecasts hlimits.forecastHistory).run
  rw [decodeBody, saveBody_eq, readSnapshot, (parses_readU64 _).run_bind,
    (parses_resources hlimits.resources hstrings).run_bind,
    (parses_reservations hdoubles hlimits.reservations hlimits.intervals).run_bind,
    (parses_releases hdoubles hlimits.releases).run_bind, Parsing.run_bind, hforecasts]
  rfl

theorem refuses_saveBody [A : Arithmetic] {m : CapacityModel} (hdoubles : m.StoresDoubles)
    (hsize : m.savedSize ≤ maxBytes) (hlimits : ¬m.WithinLimits) :
    Refuses readSnapshot m.saveBody := by
  obtain ⟨-, hresources, hreservations, hreleases, hhistory, hstrings⟩ := counts_lt hsize
  rw [saveBody_eq, readSnapshot]
  refine (parses_readU64 _).bind_refuses ?_
  by_cases h₁ : m.resources.entries.length ≤ 1000000
  swap
  · exact ((refuses_readRecords hresources h₁).bind _).append _
  refine (parses_resources h₁ hstrings).bind_refuses ?_
  by_cases h₂ : m.reservations.length ≤ 1000000
  swap
  · exact ((refuses_readRecords hreservations h₂).bind _).append _
  by_cases hintervals : ∀ r ∈ m.reservations, r.interval.valid = true
  swap
  · exact ((refuses_reservations hdoubles h₂ hintervals).bind _).append _
  refine (parses_reservations hdoubles h₂ hintervals).bind_refuses ?_
  by_cases h₃ : m.releases.length ≤ 1000000
  swap
  · exact ((refuses_readRecords hreleases h₃).bind _).append _
  refine (parses_releases hdoubles h₃).bind_refuses ?_
  have h₄ : ¬m.forecastHistory.length ≤ 1000000 := fun h₄ =>
    hlimits ⟨hsize, h₁, h₂, h₃, h₄, hintervals⟩
  exact (refuses_readRecords hhistory h₄).bind _

theorem load_save [A : Arithmetic] {m : CapacityModel} (hdoubles : m.StoresDoubles)
    (hlimits : m.WithinLimits) :
    load {} m.save = (restore {} m.savedSnapshot, .accepted) :=
  load_eq_restore ((length_save m).trans_le hlimits.size)
    (checkedBody_framed (counts_lt hlimits.size).1) (decodeBody_saveBody hdoubles hlimits)

/-- What a fresh model accepts was within the limits when it was saved. -/
theorem withinLimits_of_accepted [A : Arithmetic] {m : CapacityModel} (hdoubles : m.StoresDoubles)
    (haccepted : (load {} m.save).2 = .accepted) : m.WithinLimits := by
  by_contra hlimits
  obtain ⟨hsize, body, snap, hbody, hsnap⟩ := (load_accepted_iff _ _).mp haccepted
  rw [length_save] at hsize
  rw [save_eq_framed, checkedBody_framed (counts_lt hsize).1, Option.some.injEq] at hbody
  have hrefused := refuses_saveBody hdoubles hsize hlimits []
  rw [List.append_nil] at hrefused
  rw [← hbody, decodeBody, hrefused] at hsnap
  exact absurd hsnap (by simp)

/-- A fresh model accepts the file that a model saved exactly when the model is within
the limits of the reader. -/
theorem save_loads_iff [A : Arithmetic] {m : CapacityModel} (hdoubles : m.StoresDoubles) :
    (load {} m.save).2 = .accepted ↔ m.WithinLimits := by
  constructor
  · exact withinLimits_of_accepted hdoubles
  · intro hlimits
    rw [load_save hdoubles hlimits]

def acceleratorsHeld : CapacityModel :=
  Runs.run step {} [.publishReservation (hardHold 1 fiveToTen 4)]

theorem acceleratorsHeld_storesDoubles : acceleratorsHeld.StoresDoubles :=
  storesDoubles_run storesDoubles_empty
    (List.forall_mem_singleton.mpr ⟨0x4010000000000000, by decide +kernel⟩)

theorem save_loads_iff_acceleratorsHeld :
    (load (A := .double) {} acceleratorsHeld.save).2 = .accepted ↔
      acceleratorsHeld.WithinLimits :=
  save_loads_iff (A := .double) acceleratorsHeld_storesDoubles

def emptyIntervalHeld : CapacityModel :=
  Runs.run step {} [.publishReservation (hardHold 1 default 4)]

theorem emptyIntervalHeld_storesDoubles : emptyIntervalHeld.StoresDoubles :=
  storesDoubles_run storesDoubles_empty
    (List.forall_mem_singleton.mpr ⟨0x4010000000000000, by decide +kernel⟩)

/-- The reservation is published and saved, and the file is rejected. -/
theorem saved_file_rejected :
    ¬ ∀ m : CapacityModel, Reachable m → m.StoresDoubles →
      (load (A := .double) {} m.save).2 = .accepted := by
  intro h
  have hreachable : Reachable emptyIntervalHeld := Runs.Reachable.init.run _
  have hlimits := withinLimits_of_accepted (A := .double) emptyIntervalHeld_storesDoubles
    (h _ hreachable emptyIntervalHeld_storesDoubles)
  have hvalid := hlimits.intervals _ List.mem_cons_self
  exact absurd hvalid (by decide)

end CapacityModel

end CapacityFabric
