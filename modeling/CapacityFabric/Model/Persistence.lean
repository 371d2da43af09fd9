import CapacityFabric.Model.CapacityModel
import CapacityFabric.Persistence.Binary

/-!
# Saving and loading the capacity model

`save` writes the durable part of the state.  `load` reads it back into whatever
state it is called on, field by field: a file that turns out to be malformed half
way leaves what was read up to there.
-/

namespace CapacityFabric

namespace ReservationStrength

def code : ReservationStrength → UInt8
  | hard => 0
  | soft => 1
  | unnamed offset => UInt8.ofNat (offset.val + 2)

def ofCode (c : UInt8) : ReservationStrength :=
  match c.toNat with
  | 0 => hard
  | 1 => soft
  | n + 2 => unnamed (Fin.ofNat 254 n)

theorem ofCode_code (x : ReservationStrength) : ofCode x.code = x := by
  cases x with
  | unnamed offset =>
    rw [code, ofCode, FixedWidth.toNat_offset offset (by decide)]
    exact congrArg unnamed (Fin.ofNat_val_eq_self offset)
  | _ => rfl

end ReservationStrength

def kPersistMagic : ℕ := 0x43464231

def kPersistVersion : ℕ := 1

def maxBytes : ℕ := 64 * 1024 * 1024

namespace CapacityModel

section Save

open BinaryWriter

def saveResource (rid : ResourceId) (r : ResourceInfo) : List UInt8 :=
  writeU64 rid.value ++ writeU64 r.generation.value ++ writeU64 r.fleetId.value ++
    writeU64 r.nodeId.value ++ writeU64 r.deviceId.value ++
    writeString r.capability.architecture ++ writeString r.capability.className ++
    writeString r.capability.capability ++ writeU64 r.nominal.vram ++
    writeU64 r.nominal.accelerators ++ writeU8 r.health.code ++ writeU8 r.kind.code

def saveReservation (r : Reservation) : List UInt8 :=
  writeU64 r.id.value ++ writeU64 r.generation.value ++ writeI64 r.interval.start ++
    writeI64 r.interval.end_ ++ writeU8 r.strength.code ++
    writeF64 (r.hold.at_ .acceleratorCount)

def saveRelease (e : ReleaseEvent) : List UInt8 :=
  writeU64 e.sourceId.value ++ writeI64 e.time ++ writeI64 e.earliest ++ writeI64 e.latest ++
    writeF64 e.confidence.value ++ writeF64 (e.release.at_ .acceleratorCount)

def saveForecast (f : TimePoint × Capacity × Capacity) : List UInt8 :=
  writeI64 f.1 ++ writeF64 (f.2.1.amount .acceleratorCount) ++
    writeF64 (f.2.2.amount .acceleratorCount)

def saveBody (m : CapacityModel) : List UInt8 :=
  writeU64 m.epoch.value ++
    writeU32 m.resources.entries.length ++
    m.resources.entries.flatMap (fun p => saveResource p.1 p.2) ++
    writeU32 m.reservations.length ++ m.reservations.flatMap saveReservation ++
    writeU32 m.releases.length ++ m.releases.flatMap saveRelease ++
    writeU32 m.forecastHistory.length ++ m.forecastHistory.flatMap saveForecast

def save (m : CapacityModel) : List UInt8 :=
  let body := m.saveBody
  writeU32 kPersistMagic ++ writeU32 kPersistVersion ++ writeU32 (body.length + 8) ++ body ++
    writeU64 (fnv1a body)

end Save

inductive LoadFailure
  | rejected
  | raised
  deriving DecidableEq

/-- What loading works on: the model so far and the bytes still to be read. -/
structure LoadState where
  model : CapacityModel
  data : List UInt8

abbrev Loader := ExceptT LoadFailure (StateM LoadState)

namespace Loader

def reject {α : Type} : Loader α := throw .rejected

/-- Reads with a bounds-checked reader; a failed read rejects the file. -/
def read {α : Type} (reader : BinaryReader α) : Loader α := do
  match reader.run (← get).data with
  | none => reject
  | some (a, rest) =>
    modify fun s => { s with data := rest }
    return a

def update (f : CapacityModel → CapacityModel) : Loader Unit :=
  modify fun s => { s with model := f s.model }

def repeatTimes : ℕ → Loader Unit → Loader Unit
  | 0, _ => pure ()
  | n + 1, body => do
    body
    repeatTimes n body

/-- Reads one record and stores it, unless a checked constructor refuses its values. -/
def loadRecord {α : Type} (reader : BinaryReader (Except LoadFailure α))
    (store : α → CapacityModel → CapacityModel) : Loader Unit := do
  match ← read reader with
  | .error e => throw e
  | .ok a => update (store a)

/-- A count of records, at most a million. -/
def readCount : BinaryReader ℕ := do
  let n ← BinaryReader.readU32
  if n > 1000000 then failure else return n

/-- The counted records of one kind, which replace those of the model. -/
def loadRecords {α : Type} (reader : BinaryReader (Except LoadFailure α))
    (clear : CapacityModel → CapacityModel) (store : α → CapacityModel → CapacityModel) :
    Loader Unit := do
  let n ← read readCount
  update clear
  repeatTimes n (loadRecord reader store)

/-- Trailing bytes reject the file. -/
def atEnd : Loader Unit := do
  if (← get).data.isEmpty then return () else reject

end Loader

section Records

open BinaryReader

def readSavedResource [A : Arithmetic] : BinaryReader (Except LoadFailure ResourceInfo) := do
  let id ← readU64
  let generation ← readU64
  let fleetId ← readU64
  let nodeId ← readU64
  let deviceId ← readU64
  let architecture ← readString
  let className ← readString
  let capability ← readString
  let vram ← readU64
  let accelerators ← readU64
  let health ← readU8
  let kind ← readU8
  -- The worker and the boot id stay invalid: the evidence is not current.
  return .ok {
    id := ⟨id⟩
    generation := ⟨generation⟩
    fleetId := ⟨fleetId⟩
    nodeId := ⟨nodeId⟩
    deviceId := ⟨deviceId⟩
    capability := { architecture, className, capability }
    nominal := (Capacity.setVram ∅ vram).setAccelerators accelerators
    health := HealthState.ofCode health
    kind := ResourceKind.ofCode kind }

/-- An interval that its constructor refuses is caught and rejects the file, a change
that is not finite raises. -/
def readSavedReservation : BinaryReader (Except LoadFailure Reservation) := do
  let id ← readU64
  let generation ← readU64
  let start ← readI64
  let end_ ← readI64
  let strength ← readU8
  let hold ← readF64
  return match Interval.make? start end_, hold with
    | none, _ => .error .rejected
    | some _, .nonFinite => .error .raised
    | some interval, .finite hold => .ok {
        id := ⟨id⟩
        generation := ⟨generation⟩
        interval
        strength := ReservationStrength.ofCode strength
        hold := CapacityDelta.change ∅ .acceleratorCount hold }

/-- The checked constructor of a confidence raises outside `[0, 1]`. -/
def checkedConfidence : Double → Option Confidence
  | .finite v => BoundedFraction.make? v
  | .nonFinite => none

def readSavedRelease : BinaryReader (Except LoadFailure ReleaseEvent) := do
  let sourceId ← readU64
  let time ← readI64
  let earliest ← readI64
  let latest ← readI64
  let conf ← readF64
  let amount ← readF64
  return match checkedConfidence conf, amount with
    | some confidence, .finite amount => .ok {
        sourceId := ⟨sourceId⟩
        time
        earliest
        latest
        confidence
        release := CapacityDelta.change ∅ .acceleratorCount amount }
    | _, _ => .error .raised

def readSavedForecast [A : Arithmetic] :
    BinaryReader (Except LoadFailure (TimePoint × Capacity × Capacity)) := do
  let at_ ← readI64
  let expected ← readF64
  let observed ← readF64
  return .ok (at_, Capacity.setAccelerators ∅ expected.toUInt64,
    Capacity.setAccelerators ∅ observed.toUInt64)

end Records

def storeResource (res : ResourceInfo) (m : CapacityModel) : CapacityModel :=
  { m with resources := m.resources.insert res.id res }

def storeReservation (res : Reservation) (m : CapacityModel) : CapacityModel :=
  { m with
    reservationGen := (m.reservationGen.advance res.id res.generation).1
    reservations := m.reservations ++ [res] }

def storeRelease (e : ReleaseEvent) (m : CapacityModel) : CapacityModel :=
  { m with releases := m.releases ++ [e] }

def storeForecast (f : TimePoint × Capacity × Capacity) (m : CapacityModel) : CapacityModel :=
  { m with forecastHistory := m.forecastHistory ++ [f] }

namespace Loader

def loadResources [A : Arithmetic] : Loader Unit :=
  loadRecords readSavedResource (fun m => { m with resources := ∅ }) storeResource

def loadReservations : Loader Unit :=
  loadRecords readSavedReservation (fun m => { m with reservations := [] }) storeReservation

def loadReleases : Loader Unit :=
  loadRecords readSavedRelease (fun m => { m with releases := [] }) storeRelease

def loadForecasts [A : Arithmetic] : Loader Unit :=
  loadRecords readSavedForecast (fun m => { m with forecastHistory := [] }) storeForecast

def loadTables [A : Arithmetic] : Loader Unit := do
  loadResources
  loadReservations
  loadReleases
  loadForecasts
  atEnd
  update fun m => { m with recovered := true }

def loadBody [A : Arithmetic] : Loader Unit := do
  let epoch ← read BinaryReader.readU64
  update fun m => m.setEpoch ⟨epoch⟩
  loadTables

end Loader

/-- The body of a file whose frame and checksum are in order. -/
def checkedBody (bytes : List UInt8) : Option (List UInt8) :=
  match BinaryReader.readU32.run bytes with
  | none => none
  | some (magic, r) =>
  if magic ≠ kPersistMagic then none else
  match BinaryReader.readU32.run r with
  | none => none
  | some (version, r) =>
  if version ≠ kPersistVersion then none else
  match BinaryReader.readU32.run r with
  | none => none
  | some (len, payload) =>
  if len > bytes.length ∨ len > bytes.length - 12 ∨ bytes.length ≠ 12 + len then none
  else if payload.length < 8 then none
  else
    let body := payload.take (payload.length - 8)
    let expected := Nat.ofDigits 256 ((payload.drop (payload.length - 8)).map UInt8.toNat)
    if (fnv1a body).toNat ≠ expected then none else some body

inductive LoadOutcome
  | accepted
  | rejected
  | raised
  deriving DecidableEq

def load [A : Arithmetic] (m : CapacityModel) (bytes : List UInt8) : CapacityModel × LoadOutcome :=
  if bytes.length > maxBytes then (m, .rejected)
  else
    match checkedBody bytes with
    | none => (m, .rejected)
    | some body =>
      match Loader.loadBody.run ⟨m, body⟩ with
      | (.ok _, s) => (s.model, .accepted)
      | (.error .rejected, s) => (s.model, .rejected)
      | (.error .raised, s) => (s.model, .raised)

/-- A fresh model after it has loaded the file that `m` saved. -/
def restarted [A : Arithmetic] (m : CapacityModel) : CapacityModel := (load {} m.save).1

end CapacityModel

end CapacityFabric
