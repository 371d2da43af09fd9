import CapacityFabric.Coordinator.Requests

/-!
# Decoding malformed payloads

On which bytes a payload reader ends in an exception.  The readers of capacities,
resources and demands call nothing that raises; a hold, a confidence and a released
amount are built by code that checks its argument and throws.
-/

namespace CapacityFabric

/-- The number in the bytes from an offset on, as the readers take it. -/
def numberAt (bytes : List UInt8) (offset size : ℕ) : ℕ :=
  Nat.ofDigits 256 (((bytes.drop offset).take size).map UInt8.toNat)

def u64At (bytes : List UInt8) (offset : ℕ) : UInt64 := UInt64.ofNat (numberAt bytes offset 8)

def i64At (bytes : List UInt8) (offset : ℕ) : Int64 := (u64At bytes offset).toInt64

def f64At (bytes : List UInt8) (offset : ℕ) : Double := Double.ofBits (u64At bytes offset)

namespace BinaryReader

open Parsing

variable {β : Type} (bytes : List UInt8) (offset : ℕ)

theorem run_readLittleEndian_bind {size : ℕ} (hsize : 0 < size) (k : ℕ → BinaryReader β) :
    (readLittleEndian size >>= k).run (bytes.drop offset) =
      if bytes.length < offset + size then none
      else (k (numberAt bytes offset size)).run (bytes.drop (offset + size)) := by
  rw [run_bind]
  change (if (bytes.drop offset).length < size then none else some (_, _)).bind _ = _
  rw [List.length_drop, List.drop_drop]
  by_cases h : bytes.length < offset + size
  · rw [if_pos h, if_pos (by omega)]
    rfl
  · rw [if_neg h, if_neg (by omega)]
    rfl

theorem run_readU8_bind (k : UInt8 → BinaryReader β) :
    (readU8 >>= k).run (bytes.drop offset) =
      if bytes.length < offset + 1 then none
      else (k (UInt8.ofNat (numberAt bytes offset 1))).run (bytes.drop (offset + 1)) := by
  rw [readU8, bind_assoc, run_readLittleEndian_bind bytes offset (by decide)]
  simp only [pure_bind]

theorem run_readU64_bind (k : UInt64 → BinaryReader β) :
    (readU64 >>= k).run (bytes.drop offset) =
      if bytes.length < offset + 8 then none
      else (k (u64At bytes offset)).run (bytes.drop (offset + 8)) := by
  rw [readU64, bind_assoc, run_readLittleEndian_bind bytes offset (by decide)]
  simp only [pure_bind]
  rfl

theorem run_readI64_bind (k : Int64 → BinaryReader β) :
    (readI64 >>= k).run (bytes.drop offset) =
      if bytes.length < offset + 8 then none
      else (k (i64At bytes offset)).run (bytes.drop (offset + 8)) := by
  rw [readI64, bind_assoc, run_readU64_bind]
  simp only [pure_bind]
  rfl

theorem run_readF64_bind (k : Double → BinaryReader β) :
    (readF64 >>= k).run (bytes.drop offset) =
      if bytes.length < offset + 8 then none
      else (k (f64At bytes offset)).run (bytes.drop (offset + 8)) := by
  rw [readF64, bind_assoc, run_readU64_bind]
  simp only [pure_bind]
  rfl

end BinaryReader

namespace Payload

open BinaryReader Parsing

/-- The bytes are those of a reservation whose interval is accepted and whose hold is an
infinity or a NaN. -/
def HoldRaises (bytes : List UInt8) : Prop :=
  41 ≤ bytes.length ∧ 0 ≤ i64At bytes 16 ∧ i64At bytes 16 < i64At bytes 24 ∧
    f64At bytes 33 = .nonFinite

/-- The bytes are those of a release whose confidence is no number in `[0, 1]`, or whose
amount is an infinity or a NaN. -/
def ReleaseRaises (bytes : List UInt8) : Prop :=
  48 ≤ bytes.length ∧
    ((∀ c, f64At bytes 32 = .finite c → c < 0 ∨ 1 < c) ∨ f64At bytes 40 = .nonFinite)

inductive Decoded (α : Type)
  | value (a : α)
  | nullopt
  | raised

/-- The end of a reader that returns nothing where its code raises. -/
def decode {α : Type} (read : BinaryReader (Option α)) (bytes : List UInt8) : Decoded α :=
  match read.run bytes with
  | none => .nullopt
  | some (none, _) => .raised
  | some (some a, _) => .value a

/-- A reader whose code raises nothing. -/
def unraised {α : Type} (read : BinaryReader α) : BinaryReader (Option α) := do
  let a ← read
  return some a

/-- The reader ends in a value or in `nullopt`, and leaves an end of the bytes. -/
structure ReadsCleanly {α : Type} (read : BinaryReader (Option α)) (bytes : List UInt8) :
    Prop where
  not_raised : decode read bytes ≠ .raised
  inside : ∀ a rest, read.run bytes = some (a, rest) → rest <:+ bytes

/-- Every payload reader reads the bytes cleanly, and no request that carries them is
refused by an exception, whatever the model. -/
structure DecodesCleanly (bytes : List UInt8) : Prop where
  capacity : ReadsCleanly (unraised readCapacity) bytes
  resource : ReadsCleanly (unraised readResource) bytes
  reservation : ReadsCleanly readReservation bytes
  release : ReadsCleanly readRelease bytes
  demand : ReadsCleanly (unraised readDemand) bytes
  requests : ∀ σ m type seq saved,
    (Coordinator.dispatch σ m ⟨type, seq, bytes⟩ saved).2 ≠ .raised .invalidArgument

theorem ite_lt_ite_lt {β : Type*} {x y : ℕ} (hxy : x ≤ y) (a b : β) (n : ℕ) :
    (if n < x then a else if n < y then a else b) = if n < y then a else b := by
  by_cases h : n < x
  · rw [if_pos h, if_pos (h.trans_le hxy)]
  · rw [if_neg h]

theorem run_readReservation (bytes : List UInt8) :
    readReservation.run bytes =
      if bytes.length < 41 then none
      else match Interval.make? (i64At bytes 16) (i64At bytes 24), f64At bytes 33 with
        | none, _ => none
        | some _, .nonFinite => some (none, bytes.drop 41)
        | some interval, .finite hold => some (some {
            id := ⟨u64At bytes 0⟩
            generation := ⟨u64At bytes 8⟩
            interval
            strength := ReservationStrength.ofCode (UInt8.ofNat (numberAt bytes 32 1))
            hold := CapacityDelta.change ∅ .acceleratorCount hold }, bytes.drop 41) := by
  have hrun : readReservation.run bytes = readReservation.run (bytes.drop 0) := rfl
  rw [hrun, readReservation, run_readU64_bind, run_readU64_bind, run_readI64_bind,
    run_readI64_bind, run_readU8_bind, run_readF64_bind]
  simp (disch := decide) only [Nat.zero_add, Nat.reduceAdd, ite_lt_ite_lt]
  rcases Interval.make? (i64At bytes 16) (i64At bytes 24) with _ | interval
  · rfl
  · cases f64At bytes 33 <;> rfl

theorem run_readRelease (bytes : List UInt8) :
    readRelease.run bytes =
      if bytes.length < 48 then none
      else some (match CapacityModel.checkedConfidence (f64At bytes 32), f64At bytes 40 with
        | some confidence, .finite amount => some {
            sourceId := ⟨u64At bytes 0⟩
            time := i64At bytes 8
            earliest := i64At bytes 16
            latest := i64At bytes 24
            confidence
            release := CapacityDelta.change ∅ .acceleratorCount amount }
        | _, _ => none, bytes.drop 48) := by
  have hrun : readRelease.run bytes = readRelease.run (bytes.drop 0) := rfl
  rw [hrun, readRelease, run_readU64_bind, run_readI64_bind, run_readI64_bind,
    run_readI64_bind, run_readF64_bind, run_readF64_bind]
  simp (disch := decide) only [Nat.zero_add, Nat.reduceAdd, ite_lt_ite_lt]
  rfl

theorem readReservation_raises_iff (bytes : List UInt8) :
    decode readReservation bytes = .raised ↔ HoldRaises bytes := by
  rw [decode, run_readReservation, HoldRaises]
  by_cases hlength : bytes.length < 41
  · rw [if_pos hlength]
    simp [hlength.not_ge]
  · rw [if_neg hlength]
    by_cases hinterval : 0 ≤ i64At bytes 16 ∧ i64At bytes 16 < i64At bytes 24
    · rw [Interval.make?, dif_pos hinterval]
      cases f64At bytes 33 <;> simp [hinterval, not_lt.mp hlength]
    · rw [Interval.make?, dif_neg hinterval]
      simp only [reduceCtorEq, false_iff]
      exact fun h => hinterval ⟨h.2.1, h.2.2.1⟩

theorem readRelease_raises_iff (bytes : List UInt8) :
    decode readRelease bytes = .raised ↔ ReleaseRaises bytes := by
  rw [decode, run_readRelease, ReleaseRaises]
  by_cases hlength : bytes.length < 48
  · rw [if_pos hlength]
    simp [hlength.not_ge]
  · rw [if_neg hlength]
    simp only [not_lt.mp hlength, true_and]
    cases hconfidence : f64At bytes 32 with
    | nonFinite => simp [CapacityModel.checkedConfidence]
    | finite c =>
      by_cases hc : 0 ≤ c ∧ c ≤ 1
      · rw [CapacityModel.checkedConfidence, BoundedFraction.make?, dif_pos hc]
        cases f64At bytes 40 <;> simp [hc]
      · have hout : c < 0 ∨ 1 < c := by
          rw [← not_le, ← not_le, ← not_and_or]
          exact hc
        rw [CapacityModel.checkedConfidence, BoundedFraction.make?, dif_neg hc]
        simp [hout]

theorem readsCleanly_unraised {α : Type} {read : BinaryReader α} (h : StaysInside read)
    (bytes : List UInt8) : ReadsCleanly (unraised read) bytes := by
  constructor
  · have hrun : (unraised read).run bytes = (read.run bytes).map fun p => (some p.1, p.2) := by
      rw [unraised, run_bind]
      cases read.run bytes <;> rfl
    rw [decode, hrun]
    cases read.run bytes <;> simp
  · exact (h.bind fun a => StaysInside.pure (some a)) bytes

theorem staysInside_readAmounts (n : ℕ) (c : Capacity) : StaysInside (readAmounts n c) := by
  induction n generalizing c with
  | zero => exact StaysInside.pure c
  | succ n ih =>
    refine staysInside_readU8.bind fun d => staysInside_readF64.bind fun v => ?_
    cases v with
    | nonFinite => exact StaysInside.failure
    | finite v =>
      dsimp only
      cases c.setAmount? (Dimension.ofCode d.toNat) v with
      | none => exact StaysInside.failure
      | some c => exact ih c

theorem staysInside_readCapacity : StaysInside readCapacity := by
  refine staysInside_readU32.bind fun n => ?_
  split_ifs
  · exact StaysInside.failure
  · exact staysInside_readAmounts n ∅

theorem staysInside_readDemand : StaysInside readDemand :=
  staysInside_readU64.bind fun _ => staysInside_readU64.bind fun _ =>
  staysInside_readCapacity.bind fun _ => staysInside_readU64.bind fun _ =>
  staysInside_readU8.bind fun _ => staysInside_readU64.bind fun _ => StaysInside.pure _

theorem staysInside_readResource : StaysInside readResource := by
  refine staysInside_readU64.bind fun _ => staysInside_readU64.bind fun _ =>
    staysInside_readU64.bind fun _ => staysInside_readU64.bind fun _ =>
    staysInside_readU64.bind fun _ => staysInside_readU64.bind fun _ =>
    staysInside_readU64.bind fun _ => staysInside_readU8.bind fun _ =>
    staysInside_readU8.bind fun _ => staysInside_readString.bind fun _ =>
    staysInside_readString.bind fun _ => staysInside_readString.bind fun _ =>
    staysInside_readCapacity.bind fun _ => staysInside_readCapacity.bind fun _ =>
    staysInside_readCapacity.bind fun _ => staysInside_readCapacity.bind fun _ =>
    staysInside_readU8.bind fun _ => staysInside_readU8.bind fun _ =>
    staysInside_readU8.bind fun _ => staysInside_readU32.bind fun nb => ?_
  split_ifs
  · exact StaysInside.failure
  · exact (staysInside_readU64.readMany nb).bind fun _ => StaysInside.pure _

theorem inside_readReservation (bytes : List UInt8) (res : Option Reservation)
    (rest : List UInt8) (h : readReservation.run bytes = some (res, rest)) : rest <:+ bytes := by
  rw [run_readReservation] at h
  split_ifs at h
  split at h
  · cases h
  · obtain ⟨-, rfl⟩ := Prod.mk.inj (Option.some.inj h)
    exact List.drop_suffix 41 bytes
  · obtain ⟨-, rfl⟩ := Prod.mk.inj (Option.some.inj h)
    exact List.drop_suffix 41 bytes

theorem inside_readRelease (bytes : List UInt8) (rel : Option ReleaseEvent)
    (rest : List UInt8) (h : readRelease.run bytes = some (rel, rest)) : rest <:+ bytes := by
  rw [run_readRelease] at h
  split_ifs at h
  obtain ⟨-, rfl⟩ := Prod.mk.inj (Option.some.inj h)
  exact List.drop_suffix 48 bytes

theorem raises_iff (type : MessageType) (seq : UInt32) (bytes : List UInt8) :
    Coordinator.raises ⟨type, seq, bytes⟩ = true ↔
      type = .publishReservation ∧ HoldRaises bytes ∨
        type = .publishRelease ∧ ReleaseRaises bytes := by
  rw [← readReservation_raises_iff, ← readRelease_raises_iff]
  unfold Coordinator.raises decode
  cases type with
  | publishReservation =>
    rcases readReservation.run bytes with _ | ⟨_ | res, rest⟩ <;> simp
  | publishRelease =>
    rcases readRelease.run bytes with _ | ⟨_ | rel, rest⟩ <;> simp
  | _ => simp

/-- The payload readers take any bytes without an exception, save those of a reservation
with a hold, or of a release with a confidence or an amount, that its constructor refuses. -/
theorem decodesCleanly_iff (bytes : List UInt8) :
    DecodesCleanly bytes ↔ ¬HoldRaises bytes ∧ ¬ReleaseRaises bytes := by
  rw [← readReservation_raises_iff, ← readRelease_raises_iff]
  constructor
  · intro h
    exact ⟨h.reservation.not_raised, h.release.not_raised⟩
  · rintro ⟨hreservation, hrelease⟩
    refine ⟨readsCleanly_unraised staysInside_readCapacity bytes,
      readsCleanly_unraised staysInside_readResource bytes,
      ⟨hreservation, inside_readReservation bytes⟩, ⟨hrelease, inside_readRelease bytes⟩,
      readsCleanly_unraised staysInside_readDemand bytes, ?_⟩
    intro σ m type seq saved
    rw [ne_eq, Coordinator.dispatch_eq_raised_iff, raises_iff, ← readReservation_raises_iff,
      ← readRelease_raises_iff]
    rintro (⟨-, ⟨-, h⟩ | ⟨-, h⟩⟩ | ⟨he, -⟩)
    · exact hreservation h
    · exact hrelease h
    · cases he

def nanHold : List UInt8 :=
  BinaryWriter.writeU64 1 ++ BinaryWriter.writeU64 1 ++ BinaryWriter.writeI64 0 ++
    BinaryWriter.writeI64 10 ++ BinaryWriter.writeU8 0 ++
    BinaryWriter.writeU64 0x7ff8000000000000

theorem nanHold_raises : HoldRaises nanHold := by
  unfold HoldRaises
  decide +kernel

theorem nan_hold_escapes : ¬ ∀ bytes, DecodesCleanly bytes := by
  intro h
  exact (h nanHold).reservation.not_raised ((readReservation_raises_iff nanHold).mpr nanHold_raises)

end Payload

end CapacityFabric
