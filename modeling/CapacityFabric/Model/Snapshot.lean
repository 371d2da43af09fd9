import CapacityFabric.Model.Loading

/-!
# The content of a file

A snapshot is what a complete body says.  Loading a file restores its snapshot, and a
model that is small enough is saved as a file whose snapshot is what it stores.
-/

namespace CapacityFabric

/-- What the body of a file says, its records in the order of the file. -/
structure Snapshot where
  epoch : CoordinatorEpoch
  resources : List ResourceInfo
  reservations : List Reservation
  releases : List ReleaseEvent
  forecastHistory : List (TimePoint × Capacity × Capacity)

namespace CapacityModel

open BinaryReader Loader Parsing

def readSnapshot [A : Arithmetic] : BinaryReader Snapshot := do
  let epoch ← readU64
  let resources ← readRecords readSavedResource
  let reservations ← readRecords readSavedReservation
  let releases ← readRecords readSavedRelease
  let forecastHistory ← readRecords readSavedForecast
  if (← get).isEmpty then
    return { epoch := ⟨epoch⟩, resources, reservations, releases, forecastHistory }
  else failure

def decodeBody [A : Arithmetic] (body : List UInt8) : Option Snapshot :=
  (readSnapshot.run body).map Prod.fst

def restore (m : CapacityModel) (snap : Snapshot) : CapacityModel :=
  { m with
    epoch := snap.epoch
    recovered := true
    resources := snap.resources.foldl (fun rs r => rs.insert r.id r) ∅
    reservationGen :=
      snap.reservations.foldl (fun gen r => (gen.advance r.id r.generation).1) m.reservationGen
    reservations := snap.reservations
    releases := snap.releases
    forecastHistory := snap.forecastHistory }

theorem foldl_storeResource (rs : List ResourceInfo) (m : CapacityModel) :
    rs.foldl (fun m r => storeResource r m) m =
      { m with resources := rs.foldl (fun rs r => rs.insert r.id r) m.resources } := by
  induction rs generalizing m with
  | nil => rfl
  | cons r rs ih => rw [List.foldl_cons, ih]; rfl

theorem foldl_storeReservation (rs : List Reservation) (m : CapacityModel) :
    rs.foldl (fun m r => storeReservation r m) m =
      { m with
        reservationGen :=
          rs.foldl (fun gen r => (gen.advance r.id r.generation).1) m.reservationGen
        reservations := m.reservations ++ rs } := by
  induction rs generalizing m with
  | nil => rw [List.append_nil]; rfl
  | cons r rs ih =>
    rw [List.foldl_cons, ih, storeReservation, List.append_assoc]
    rfl

theorem foldl_storeRelease (es : List ReleaseEvent) (m : CapacityModel) :
    es.foldl (fun m e => storeRelease e m) m = { m with releases := m.releases ++ es } := by
  induction es generalizing m with
  | nil => rw [List.append_nil]; rfl
  | cons e es ih =>
    rw [List.foldl_cons, ih, storeRelease, List.append_assoc]
    rfl

theorem foldl_storeForecast (fs : List (TimePoint × Capacity × Capacity)) (m : CapacityModel) :
    fs.foldl (fun m f => storeForecast f m) m =
      { m with forecastHistory := m.forecastHistory ++ fs } := by
  induction fs generalizing m with
  | nil => rw [List.append_nil]; rfl
  | cons f fs ih =>
    rw [List.foldl_cons, ih, storeForecast, List.append_assoc]
    rfl

theorem decodes_loadResources [A : Arithmetic] :
    Decodes id loadResources (readRecords readSavedResource)
    fun rs m => { m with resources := rs.foldl (fun rs r => rs.insert r.id r) ∅ } := by
  have h := decodes_loadRecords readSavedResource (fun m => { m with resources := ∅ })
    storeResource
  simp only [foldl_storeResource] at h
  exact h

theorem decodes_loadReservations : Decodes id loadReservations (readRecords readSavedReservation)
    fun rs m => { m with
      reservationGen :=
        rs.foldl (fun gen r => (gen.advance r.id r.generation).1) m.reservationGen
      reservations := rs } := by
  have h := decodes_loadRecords readSavedReservation (fun m => { m with reservations := [] })
    storeReservation
  simp only [foldl_storeReservation, List.nil_append] at h
  exact h

theorem decodes_loadReleases : Decodes id loadReleases (readRecords readSavedRelease)
    fun es m => { m with releases := es } := by
  have h := decodes_loadRecords readSavedRelease (fun m => { m with releases := [] }) storeRelease
  simp only [foldl_storeRelease, List.nil_append] at h
  exact h

theorem decodes_loadForecasts [A : Arithmetic] :
    Decodes id loadForecasts (readRecords readSavedForecast)
    fun fs m => { m with forecastHistory := fs } := by
  have h := decodes_loadRecords readSavedForecast (fun m => { m with forecastHistory := [] })
    storeForecast
  simp only [foldl_storeForecast, List.nil_append] at h
  exact h

theorem decodes_loadBody [A : Arithmetic] :
    Decodes id loadBody readSnapshot fun snap m => m.restore snap := by
  have hepoch : ∀ {β : Type} {l : Loader Unit} {k : UInt64 → BinaryReader β}
      {after : β → CapacityModel → CapacityModel},
      (∀ epoch, Decodes (fun m => m.setEpoch ⟨epoch⟩) l (k epoch) after) →
      Decodes id (do
        let epoch ← Loader.read readU64
        update fun m => m.setEpoch ⟨epoch⟩
        l) (readU64 >>= k) after := by
    intro β l k after hk m data
    rw [Loader.run_bind, run_read, Parsing.run_bind]
    cases readU64.run data with
    | none => exact ⟨_, rfl⟩
    | some p => exact hk p.1 m p.2
  refine hepoch fun epoch => ?_
  refine decodes_loadResources.bind fun resources => ?_
  refine decodes_loadReservations.bind fun reservations => ?_
  refine decodes_loadReleases.bind fun releases => ?_
  refine decodes_loadForecasts.bind fun forecastHistory => ?_
  intro m data
  cases data with
  | nil => rfl
  | cons b data => exact ⟨_, rfl⟩

/-- A file is accepted exactly when its frame is in order and its body holds a snapshot,
which is then restored. -/
theorem load_accepted_iff [A : Arithmetic] (m : CapacityModel) (bytes : List UInt8) :
    (m.load bytes).2 = .accepted ↔ bytes.length ≤ maxBytes ∧
      ∃ body snap, checkedBody bytes = some body ∧ decodeBody body = some snap := by
  unfold load
  split_ifs with hsize
  · exact iff_of_false (by simp) fun h => absurd h.1 (not_le.mpr hsize)
  cases hbody : checkedBody bytes with
  | none => exact iff_of_false (by simp) (by simp)
  | some body =>
    have hdecodes := decodes_loadBody m body
    cases hread : readSnapshot.run body with
    | none =>
      rw [hread] at hdecodes
      obtain ⟨e, he⟩ := hdecodes
      refine iff_of_false ?_ (by simp [decodeBody, hread])
      change (loadBody.run ⟨m, body⟩).1 = .error e at he
      rcases hrun : loadBody.run ⟨m, body⟩ with ⟨(_ | _) | _, s⟩
      · simp [hrun]
      · simp [hrun]
      · rw [hrun] at he
        exact absurd he (by simp)
    | some p =>
      rw [hread] at hdecodes
      have hrun : loadBody.run ⟨m, body⟩ = (.ok (), ⟨m.restore p.1, p.2⟩) := hdecodes
      refine iff_of_true (by simp only [hrun]) ⟨not_lt.mp hsize, body, p.1, rfl, ?_⟩
      rw [decodeBody, hread]
      rfl

theorem load_eq_restore [A : Arithmetic] {m : CapacityModel} {bytes body : List UInt8}
    {snap : Snapshot} (hsize : bytes.length ≤ maxBytes) (hbody : checkedBody bytes = some body)
    (hsnap : decodeBody body = some snap) : m.load bytes = (m.restore snap, .accepted) := by
  obtain ⟨p, hread, rfl⟩ := Option.map_eq_some_iff.mp hsnap
  have hdecodes := decodes_loadBody m body
  rw [hread] at hdecodes
  have hrun : loadBody.run ⟨m, body⟩ = (.ok (), ⟨m.restore p.1, p.2⟩) := hdecodes
  rw [load, if_neg hsize.not_gt, hbody]
  simp only [hrun]

section

open BinaryWriter

def framed (body : List UInt8) : List UInt8 :=
  writeU32 kPersistMagic ++ writeU32 kPersistVersion ++ writeU32 (body.length + 8) ++ body ++
    writeU64 (fnv1a body)

theorem save_eq_framed (m : CapacityModel) : m.save = framed m.saveBody := rfl

theorem length_framed (body : List UInt8) : (framed body).length = body.length + 20 := by
  simp only [framed, List.length_append, writeU32, writeU64, length_littleEndian]
  omega

theorem checkedBody_framed {body : List UInt8} (h : body.length + 8 < 2 ^ 32) :
    checkedBody (framed body) = some body := by
  have hlength := length_framed body
  have hframe : framed body = writeU32 kPersistMagic ++ (writeU32 kPersistVersion ++
      (writeU32 (body.length + 8) ++ (body ++ writeU64 (fnv1a body)))) := by
    simp only [framed, List.append_assoc]
  have hmagic : readU32.run (framed body) = some (kPersistMagic, _) :=
    hframe ▸ parses_readU32 (by decide) _
  have hpayload : (body ++ writeU64 (fnv1a body)).length = body.length + 8 := by
    rw [List.length_append, writeU64, length_littleEndian]
  have hsum : (fnv1a body).toNat % 256 ^ 8 = (fnv1a body).toNat :=
    Nat.mod_eq_of_lt ((fnv1a body).toNat_lt.trans_eq (by norm_num))
  rw [checkedBody, hmagic]
  simp only [ne_eq, not_true_eq_false, if_false]
  rw [parses_readU32 (by decide)]
  simp only [not_true_eq_false, if_false]
  rw [parses_readU32 h]
  have hcut : (body ++ writeU64 (fnv1a body)).length - 8 = body.length := by omega
  have hdigits : Nat.ofDigits 256 ((writeU64 (fnv1a body)).map UInt8.toNat) =
      (fnv1a body).toNat := by
    rw [writeU64, ofDigits_littleEndian, hsum]
  dsimp only
  rw [if_neg (by omega), if_neg (by omega), hcut, List.take_left, List.drop_left, hdigits,
    if_neg (not_not.mpr rfl)]

end

end CapacityModel

end CapacityFabric
