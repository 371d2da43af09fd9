import CapacityFabric.Model.Operations
import CapacityFabric.Model.Snapshot

/-!
# What a rejected file leaves behind

Loading overwrites the model while it parses.  A file that is found wrong after its
epoch has been read leaves that epoch, and whatever else was read, in the model.
-/

namespace CapacityFabric

namespace CapacityModel

open BinaryReader Loader Parsing

structure SameState (m m' : CapacityModel) : Prop where
  epoch : m'.epoch = m.epoch
  resources : m'.resources = m.resources
  reservations : m'.reservations = m.reservations
  releases : m'.releases = m.releases
  forecastHistory : m'.forecastHistory = m.forecastHistory
  resourceGen : m'.resourceGen = m.resourceGen
  reservationGen : m'.reservationGen = m.reservationGen
  topologyGen : m'.topologyGen = m.topologyGen
  healthGen : m'.healthGen = m.healthGen

theorem SameState.refl (m : CapacityModel) : SameState m m := by constructor <;> rfl

/-- The file is accepted, or rejected without a trace. -/
def LoadsAtomically (m : CapacityModel) (bytes : List UInt8) : Prop :=
  (m.load bytes).2 = .accepted ∨
    (m.load bytes).2 = .rejected ∧ SameState m (m.load bytes).1

/-- The file is too large, its frame is wrong, its body is too short for an epoch, or the
body is complete. -/
def WrongAtOnceOrComplete (bytes : List UInt8) : Prop :=
  maxBytes < bytes.length ∨ checkedBody bytes = none ∨
    ∃ body, checkedBody bytes = some body ∧ (body.length < 8 ∨ (decodeBody body).isSome = true)

theorem readU64_eq_none_iff {data : List UInt8} : readU64.run data = none ↔ data.length < 8 := by
  have hrun : readU64.run data = ((readLittleEndian 8).run data).bind fun p =>
    some (UInt64.ofNat p.1, p.2) := rfl
  have hread : (readLittleEndian 8).run data = if data.length < 8 then none else _ := rfl
  rw [hrun, hread]
  split_ifs with h <;> simp [h]

/-- What a body says first is in the model afterwards, however the file ends. -/
theorem epoch_load {m : CapacityModel} {bytes body rest : List UInt8} {epoch : UInt64}
    (hsize : bytes.length ≤ maxBytes) (hbody : checkedBody bytes = some body)
    (hepoch : readU64.run body = some (epoch, rest)) : (m.load bytes).1.epoch = ⟨epoch⟩ := by
  have htables : Preserves (fun m => m.epoch = ⟨epoch⟩) loadTables := by
    apply preserves_loadTables
    · exact preserves_loadResources fun _ _ h => h
    all_goals
      intros
      assumption
  have hrun : loadBody.run ⟨m, body⟩ = loadTables.run ⟨m.setEpoch ⟨epoch⟩, rest⟩ := by
    rw [loadBody, Loader.run_bind, run_read, hepoch]
    rfl
  have hkept := htables ⟨m.setEpoch ⟨epoch⟩, rest⟩ rfl
  rw [← hrun] at hkept
  rw [load, if_neg hsize.not_gt, hbody]
  rcases hresult : loadBody.run ⟨m, body⟩ with ⟨(_ | _) | _, s⟩ <;>
    simpa only [hresult] using hkept

/-- Every model takes the file whole or not at all exactly when the file is wrong at once
or complete. -/
theorem loads_atomically_iff (bytes : List UInt8) :
    (∀ m : CapacityModel, m.LoadsAtomically bytes) ↔ WrongAtOnceOrComplete bytes := by
  by_cases hsize : bytes.length ≤ maxBytes
  swap
  · have hrejected : ∀ m : CapacityModel, m.load bytes = (m, .rejected) := fun m =>
      if_pos (not_le.mp hsize)
    refine iff_of_true (fun m => Or.inr ?_) (Or.inl (not_le.mp hsize))
    rw [hrejected]
    exact ⟨rfl, SameState.refl m⟩
  cases hbody : checkedBody bytes with
  | none =>
    have hrejected : ∀ m : CapacityModel, m.load bytes = (m, .rejected) := fun m => by
      rw [load, if_neg hsize.not_gt, hbody]
    refine iff_of_true (fun m => Or.inr ?_) (Or.inr (Or.inl hbody))
    rw [hrejected]
    exact ⟨rfl, SameState.refl m⟩
  | some body =>
    constructor
    · intro h
      refine Or.inr (Or.inr ⟨body, hbody, ?_⟩)
      by_contra hcontra
      obtain ⟨hlong, hincomplete⟩ := not_or.mp hcontra
      -- A model whose epoch is another one is left with the epoch of the file.
      obtain ⟨⟨epoch, rest⟩, hepoch⟩ := Option.ne_none_iff_exists'.mp
        (mt readU64_eq_none_iff.mp hlong)
      rcases h { epoch := ⟨epoch + 1⟩ } with haccepted | ⟨-, hsame⟩
      · obtain ⟨-, body', snap, hbody', hsnap⟩ := (load_accepted_iff _ _).mp haccepted
        rw [hbody, Option.some.injEq] at hbody'
        rw [hbody', hsnap] at hincomplete
        exact hincomplete rfl
      · have hchanged := hsame.epoch
        rw [epoch_load hsize hbody hepoch] at hchanged
        have hvalue : epoch = epoch + 1 := congrArg Generation.value hchanged
        exact absurd hvalue (by simp)
    · rintro (hlarge | hframe | ⟨body', hbody', hwrong⟩) m
      · exact absurd hlarge hsize.not_gt
      · exact absurd hframe (by simp [hbody])
      rw [hbody, Option.some.injEq] at hbody'
      subst hbody'
      rcases hwrong with hshort | hcomplete
      · right
        have hrun : loadBody.run ⟨m, body⟩ = (.error .rejected, ⟨m, body⟩) := by
          rw [loadBody, Loader.run_bind, run_read, readU64_eq_none_iff.mpr hshort]
        have hrejected : m.load bytes = (m, .rejected) := by
          rw [load, if_neg hsize.not_gt, hbody]
          simp only [hrun]
        rw [hrejected]
        exact ⟨rfl, SameState.refl m⟩
      · obtain ⟨snap, hsnap⟩ := Option.isSome_iff_exists.mp hcomplete
        exact Or.inl ((load_accepted_iff m bytes).mpr ⟨hsize, body, snap, hbody, hsnap⟩)

def epochOnly : List UInt8 := framed (BinaryWriter.writeU64 7)

/-- The file is rejected, but its epoch stays. -/
theorem rejected_file_leaves_its_epoch :
    ¬ ∀ (m : CapacityModel) (bytes : List UInt8), m.LoadsAtomically bytes := by
  intro h
  have hbody : checkedBody epochOnly = some (BinaryWriter.writeU64 7) :=
    checkedBody_framed (by decide)
  have hread : readU64.run (BinaryWriter.writeU64 7) = some (7, []) := (parses_readU64 7).run
  have hepoch : ((load {} epochOnly).1).epoch = ⟨7⟩ := epoch_load (by decide) hbody hread
  rcases h {} epochOnly with haccepted | ⟨-, hsame⟩
  · obtain ⟨-, body, snap, hbody', hsnap⟩ := (load_accepted_iff _ _).mp haccepted
    rw [hbody, Option.some.injEq] at hbody'
    have hnone : decodeBody (BinaryWriter.writeU64 7) = none := rfl
    rw [← hbody', hnone] at hsnap
    exact absurd hsnap (by simp)
  · rw [hsame.epoch] at hepoch
    exact absurd hepoch (by decide)

end CapacityModel

end CapacityFabric
