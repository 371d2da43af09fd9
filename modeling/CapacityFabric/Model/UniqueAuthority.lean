import CapacityFabric.Foundation.KeyedList
import CapacityFabric.Model.Operations
import CapacityFabric.Model.SavedState

/-!
# One authority for each id

Publications keep one reservation for each id and one release for each source.  Loading
takes the records of a file as they are, so that it keeps them apart only where the file
does.
-/

namespace CapacityFabric

/-- No two records of a kind carry the same id. -/
structure Snapshot.DistinctIds (snap : Snapshot) : Prop where
  resources : KeyedList.Unique ResourceInfo.id snap.resources
  reservations : KeyedList.Unique Reservation.id snap.reservations
  releases : KeyedList.Unique ReleaseEvent.sourceId snap.releases

namespace CapacityModel

/-- At most one reservation for each id and one release for each source. -/
structure UniqueAuthority (m : CapacityModel) : Prop where
  reservations : KeyedList.Unique Reservation.id m.reservations
  releases : KeyedList.Unique ReleaseEvent.sourceId m.releases

/-- What a file says whose size, frame, checksum and body are in order. -/
def fileSnapshot (bytes : List UInt8) : Option Snapshot :=
  if bytes.length > maxBytes then none else (checkedBody bytes).bind decodeBody

theorem load_of_fileSnapshot {bytes : List UInt8} {snap : Snapshot}
    (h : fileSnapshot bytes = some snap) (m : CapacityModel) :
    m.load bytes = (m.restore snap, .accepted) := by
  unfold fileSnapshot at h
  split_ifs at h with hsize
  obtain ⟨body, hbody, hsnap⟩ := Option.bind_eq_some_iff.mp h
  exact load_eq_restore (not_lt.mp hsize) hbody hsnap

theorem apply_load_of_fileSnapshot {bytes : List UInt8} {snap : Snapshot}
    (h : fileSnapshot bytes = some snap) (m : CapacityModel) :
    m.apply (.load bytes) = (m.restore snap, true) := by
  rw [apply, load_of_fileSnapshot h]
  rfl

theorem exists_fileSnapshot {m : CapacityModel} {bytes : List UInt8}
    (h : (m.load bytes).2 = .accepted) : ∃ snap, fileSnapshot bytes = some snap := by
  obtain ⟨hsize, body, snap, hbody, hsnap⟩ := (load_accepted_iff m bytes).mp h
  refine ⟨snap, ?_⟩
  rw [fileSnapshot, if_neg hsize.not_gt, hbody]
  exact hsnap

/-- No model accepts the file if two of its records of a kind carry the same id. -/
def RejectsDuplicates (bytes : List UInt8) : Prop :=
  ∀ (m : CapacityModel) snap, fileSnapshot bytes = some snap → ¬snap.DistinctIds →
    (m.load bytes).2 ≠ .accepted

theorem UniqueAuthority.accepted {m m' : CapacityModel} {op : ModelOp} (h : m.UniqueAuthority)
    (hm' : Accepted m op m') : m'.UniqueAuthority := by
  cases hm' with
  | @publishReservation res hgen => exact ⟨h.reservations.replace res, h.releases⟩
  | publishRelease rel => exact ⟨h.reservations, h.releases.replace rel⟩
  | _ => exact ⟨h.reservations, h.releases⟩

theorem UniqueAuthority.step {m : CapacityModel} {op : ModelOp} (h : m.UniqueAuthority)
    (haccepted : op.isLoad = true → (m.apply op).2 = true)
    (hdistinct : ∀ bytes snap, op = .load bytes → fileSnapshot bytes = some snap →
      snap.DistinctIds) : (m.step op).UniqueAuthority := by
  rcases step_cases m op with ⟨bytes, rfl, heq⟩ | heq | hm'
  · have hload : (m.load bytes).2 = .accepted := of_decide_eq_true (haccepted rfl)
    obtain ⟨snap, hsnap⟩ := exists_fileSnapshot hload
    have hids := hdistinct bytes snap rfl hsnap
    rw [heq, load_of_fileSnapshot hsnap]
    exact ⟨hids.reservations, hids.releases⟩
  · rw [heq]
    exact h
  · exact h.accepted hm'

def LoadsAccepted (m : CapacityModel) (ops : List ModelOp) : Prop :=
  Runs.Always step (fun m op => op.isLoad = true → (m.apply op).2 = true) m ops

theorem UniqueAuthority.run {m : CapacityModel} {ops : List ModelOp} (h : m.UniqueAuthority)
    (haccepted : LoadsAccepted m ops)
    (hdistinct : ∀ bytes snap, .load bytes ∈ ops → fileSnapshot bytes = some snap →
      snap.DistinctIds) :
    ∀ before, before <+: ops → (Runs.run CapacityModel.step m before).UniqueAuthority := by
  induction ops generalizing m with
  | nil =>
    intro before hpre
    rw [List.prefix_nil.mp hpre]
    exact h
  | cons op ops ih =>
    intro before hpre
    rcases List.prefix_cons_iff.mp hpre with rfl | ⟨rest, rfl, hrest⟩
    · exact h
    · have hstep := h.step haccepted.1 fun bytes snap hop hsnap =>
        hdistinct bytes snap (hop ▸ List.mem_cons_self) hsnap
      exact ih hstep haccepted.2
        (fun bytes snap hop => hdistinct bytes snap (List.mem_cons_of_mem op hop)) rest hrest

/-- Along a run whose files are accepted, the authority stays unique and files with
duplicates are rejected exactly when no file has duplicates. -/
theorem no_duplicate_authority_iff {ops : List ModelOp} (haccepted : LoadsAccepted {} ops) :
    ((∀ before, before <+: ops → (Runs.run step {} before).UniqueAuthority) ∧
      ∀ bytes, .load bytes ∈ ops → RejectsDuplicates bytes) ↔
    ∀ bytes snap, .load bytes ∈ ops → fileSnapshot bytes = some snap → snap.DistinctIds := by
  constructor
  · rintro ⟨-, hrejects⟩ bytes snap hop hsnap
    by_contra hduplicate
    exact hrejects bytes hop {} snap hsnap hduplicate
      (congrArg Prod.snd (load_of_fileSnapshot hsnap {}))
  · intro hdistinct
    have hempty : UniqueAuthority {} := ⟨List.nodup_nil, List.nodup_nil⟩
    exact ⟨hempty.run haccepted hdistinct, fun bytes hop m snap hsnap hduplicate =>
      absurd (hdistinct bytes snap hop hsnap) hduplicate⟩

theorem fileSnapshot_save {m : CapacityModel} (hdoubles : m.StoresDoubles)
    (hlimits : m.WithinLimits) : fileSnapshot m.save = some m.savedSnapshot := by
  have hsize : ¬m.save.length > maxBytes := by
    rw [length_save]
    exact hlimits.size.not_gt
  rw [fileSnapshot, if_neg hsize, save_eq_framed, checkedBody_framed (counts_lt hlimits.size).1,
    Option.bind_some, decodeBody_saveBody hdoubles hlimits]

/-- One reservation is published, and a file with another one of its id is loaded. -/
def publishedThenLoaded : List ModelOp :=
  [.publishReservation (hardHold 1 firstTen 2), .load acceleratorsHeld.save]

theorem acceleratorsHeld_withinLimits : acceleratorsHeld.WithinLimits := by
  constructor <;> decide +kernel

theorem publishedThenLoaded_accepted : LoadsAccepted {} publishedThenLoaded := by
  have hsnap := fileSnapshot_save acceleratorsHeld_storesDoubles acceleratorsHeld_withinLimits
  refine ⟨fun h => absurd h (by decide), fun _ => ?_, trivial⟩
  rw [apply_load_of_fileSnapshot hsnap]

theorem no_duplicate_authority_iff_publishedThenLoaded :
    ((∀ before, before <+: publishedThenLoaded →
        (Runs.run step {} before).UniqueAuthority) ∧
      ∀ bytes, .load bytes ∈ publishedThenLoaded → RejectsDuplicates bytes) ↔
    ∀ bytes snap, .load bytes ∈ publishedThenLoaded → fileSnapshot bytes = some snap →
      snap.DistinctIds :=
  no_duplicate_authority_iff publishedThenLoaded_accepted

def heldTwice : CapacityModel :=
  { reservations := acceleratorsHeld.reservations ++ acceleratorsHeld.reservations }

theorem heldTwice_storesDoubles : heldTwice.StoresDoubles where
  reservation r hr := acceleratorsHeld_storesDoubles.reservation r (by simpa [heldTwice] using hr)
  release e he := absurd he List.not_mem_nil

/-- A file with one reservation written twice is loaded as it is. -/
theorem duplicate_reservation_loaded :
    ¬ ∀ ops : List ModelOp, LoadsAccepted {} ops →
      (∀ before, before <+: ops → (Runs.run step {} before).UniqueAuthority) ∧
        ∀ bytes, .load bytes ∈ ops → RejectsDuplicates bytes := by
  intro h
  have hlimits : heldTwice.WithinLimits := by
    constructor <;> decide +kernel
  have hsnap := fileSnapshot_save heldTwice_storesDoubles hlimits
  have hload := apply_load_of_fileSnapshot hsnap {}
  have haccepted : LoadsAccepted {} [.load heldTwice.save] :=
    ⟨fun _ => congrArg Prod.snd hload, trivial⟩
  have hunique := (h _ haccepted).1 _ List.prefix_rfl
  have hstate : Runs.run step {} [.load heldTwice.save] = restore {} heldTwice.savedSnapshot :=
    congrArg Prod.fst hload
  rw [hstate] at hunique
  exact absurd hunique.reservations (by decide +kernel)

end CapacityModel

end CapacityFabric
