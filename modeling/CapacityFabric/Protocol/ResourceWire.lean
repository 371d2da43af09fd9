import CapacityFabric.Persistence.Doubles
import CapacityFabric.Protocol.Payload

/-!
# Resources on the wire

A resource is read as it was written, and a capacity without the zeros that it stores.
-/

namespace CapacityFabric

namespace Capacity

def withoutZeros (c : Capacity) : Capacity :=
  c.amounts.entries.foldl (fun out p => out.setAmount p.1 p.2) ∅

theorem entry_withoutZeros (c : Capacity) (d : Dimension) :
    c.withoutZeros.entry d = (c.entry d).elim none fun v => if v = 0 then none else some v := by
  have h := OrderedMap.foldl_pointwise Capacity.entry (fun out k v => out.setAmount k v)
    (fun _ v o => if v < 0 then o else if v = 0 then none else some v) ?_ c.amounts ∅ d
  · refine h.trans ?_
    show (c.entry d).elim none _ = _
    cases hd : c.entry d with
    | none => rfl
    | some v =>
      have hv : ¬v < 0 := not_lt.mpr (c.nonneg d v hd)
      exact if_neg hv
  · intro s k v k'
    by_cases hv : v < 0
    · rw [setAmount, setAmount?, dif_pos hv, Option.getD_none, if_pos hv]
      split_ifs with hk
      · rw [hk]
      · rfl
    · rw [entry_setAmount (not_lt.mp hv), if_neg hv]

theorem withoutZeros_eq {c : Capacity} (h : c.StoresNoZero) : c.withoutZeros = c := by
  apply ext_entry
  intro d
  rw [entry_withoutZeros]
  cases hd : c.entry d with
  | none => rfl
  | some v =>
    have hpos : 0 < v := by
      have hhas : c.has d = true := by rw [has_eq, hd, Option.isSome_some]
      have hamount := h d hhas
      rwa [amount_of_entry hd] at hamount
    exact if_neg hpos.ne'

@[simp] theorem amount_withoutZeros (c : Capacity) (d : Dimension) :
    c.withoutZeros.amount d = c.amount d := by
  rw [amount_eq, amount_eq, entry_withoutZeros]
  cases c.entry d with
  | none => rfl
  | some v =>
    rw [Option.elim_some, Option.getD_some]
    split_ifs with h
    · exact h.symm
    · rfl

end Capacity

namespace Payload

open Parsing BinaryReader BinaryWriter

theorem parses_readAmounts {l : List (Dimension × ℚ)} (h : ∀ p ∈ l, 0 ≤ p.2 ∧ IsDouble p.2)
    (c : Capacity) :
    Parses (readAmounts l.length c)
      (l.flatMap fun p => writeU8 (UInt8.ofNat p.1.code) ++ writeF64 p.2)
      (l.foldl (fun out p => out.setAmount p.1 p.2) c) := by
  induction l generalizing c with
  | nil => exact Parses.pure c
  | cons p l ih =>
    obtain ⟨hnonneg, hdouble⟩ := h p List.mem_cons_self
    have hvalue := parses_readF64 p.2
    rw [Double.ofBits_toBits hdouble] at hvalue
    have hcode : Dimension.ofCode (UInt8.ofNat p.1.code).toNat = p.1 := by
      rw [UInt8.toNat_ofNat', Nat.mod_eq_of_lt p.1.code_lt, Dimension.ofCode_code]
    rw [List.flatMap_cons, List.append_assoc]
    refine (parses_readU8 _).bind (hvalue.bind ?_)
    dsimp only
    rw [hcode, Capacity.setAmount?_of_nonneg c p.1 hnonneg]
    exact ih (fun q hq => h q (List.mem_cons_of_mem p hq)) (c.setAmount p.1 p.2)

theorem length_entries_le (c : Capacity) : c.amounts.entries.length ≤ 256 :=
  OrderedMap.length_entries_le Dimension.code_injective Dimension.code_lt c.amounts

theorem parses_readCapacity {c : Capacity} (h : ∀ d, IsDouble (c.amount d)) :
    Parses readCapacity (writeCapacity c) c.withoutZeros := by
  have hlength := length_entries_le c
  have hentries : ∀ p ∈ c.amounts.entries, 0 ≤ p.2 ∧ IsDouble p.2 := by
    intro p hp
    have hv : c.entry p.1 = some p.2 := OrderedMap.find?_eq_some_iff.mpr hp
    exact ⟨c.nonneg p.1 p.2 hv, Capacity.amount_of_entry hv ▸ h p.1⟩
  refine (parses_readU32 (by omega)).bind ?_
  rw [if_neg (by omega)]
  exact parses_readAmounts hentries ∅

/-- A capacity that is read as it was written. -/
structure CarriedAmounts (c : Capacity) : Prop where
  nonzero : c.StoresNoZero
  doubles : ∀ d, IsDouble (c.amount d)

theorem CarriedAmounts.parses {c : Capacity} (h : CarriedAmounts c) :
    Parses readCapacity (writeCapacity c) c := by
  have hsent := parses_readCapacity h.doubles
  rwa [Capacity.withoutZeros_eq h.nonzero] at hsent

theorem carriedAmounts_empty : CarriedAmounts ∅ where
  nonzero := fun d hd => by simp [Capacity.has_eq] at hd
  doubles := fun _ => isDouble_zero

theorem CarriedAmounts.setAmount {c : Capacity} (h : CarriedAmounts c) (d : Dimension) {v : ℚ}
    (hnonneg : 0 ≤ v) (hdouble : IsDouble v) : CarriedAmounts (c.setAmount d v) where
  nonzero := h.nonzero.setAmount d v
  doubles := fun d' => by
    rw [Capacity.amount_setAmount hnonneg]
    split_ifs
    · exact hdouble
    · exact h.doubles d'

/-- What the counts of the format and the bound on free blocks admit. -/
structure FitsWire (r : ResourceInfo) : Prop where
  nominal : CarriedAmounts r.nominal
  free : CarriedAmounts r.free
  committed : CarriedAmounts r.committed
  unavailable : CarriedAmounts r.unavailable
  architecture : r.capability.architecture.length < 2 ^ 32
  className : r.capability.className.length < 2 ^ 32
  capability : r.capability.capability.length < 2 ^ 32
  freeBlocks : r.freeBlocks.length ≤ 1000000

theorem flag_ne_zero (b : Bool) : decide ((if b then (1 : UInt8) else 0) ≠ 0) = b := by
  cases b <;> rfl

/-- The reader goes through the fields in step with the writer. -/
theorem parses_readResource {r : ResourceInfo} (h : FitsWire r) :
    Parses readResource (writeResource r) r.withoutMarkers := by
  have hblocks : Parses (readMany readU64 r.freeBlocks.length) (r.freeBlocks.flatMap writeU64)
      (r.freeBlocks.map id) :=
    Parses.readMany fun block _ => parses_readU64 block
  have hcount := h.freeBlocks
  unfold writeResource
  simp only [List.append_assoc]
  refine (parses_readU64 _).bind ((parses_readU64 _).bind ((parses_readU64 _).bind ?_))
  refine (parses_readU64 _).bind ((parses_readU64 _).bind ((parses_readU64 _).bind ?_))
  refine (parses_readU64 _).bind ((parses_readU8 _).bind ((parses_readU8 _).bind ?_))
  refine (parses_readString h.architecture).bind ((parses_readString h.className).bind ?_)
  refine (parses_readString h.capability).bind (h.nominal.parses.bind (h.free.parses.bind ?_))
  refine h.committed.parses.bind (h.unavailable.parses.bind ?_)
  refine (parses_readU8 _).bind ((parses_readU8 _).bind ((parses_readU8 _).bind ?_))
  refine (parses_readU32 (by omega)).bind ?_
  rw [if_neg (by omega)]
  refine hblocks.map ?_
  rw [ResourceKind.ofCode_code, HealthState.ofCode_code, Provenance.ofCode_code, flag_ne_zero,
    flag_ne_zero, List.map_id]
  rfl

/-- A resource is read back as it was written, but for the markers, and what follows it is
left. -/
theorem readResource_writeResource {r : ResourceInfo} (h : FitsWire r) (tail : List UInt8) :
    readResource.run (writeResource r ++ tail) = some (r.withoutMarkers, tail) :=
  parses_readResource h tail

def busyResource : ResourceInfo :=
  { Reference.makeResource ⟨1⟩ ⟨2⟩ ⟨3⟩ ⟨4⟩ ⟨5⟩ ⟨6⟩ ⟨7⟩ ⟨[104], [], [120, 121], [[109]]⟩ 8 8
      [8, 1] with
    committed := Capacity.setVram ∅ 8 }

theorem isDouble_eight : IsDouble ((8 : ByteCount).toNat : ℚ) :=
  ⟨0x4020000000000000, by decide +kernel⟩

theorem isDouble_one : IsDouble ((1 : DeviceCount).toNat : ℚ) :=
  ⟨0x3FF0000000000000, by decide +kernel⟩

theorem fitsWire_busyResource : FitsWire busyResource where
  nominal := (carriedAmounts_empty.setAmount _ (Nat.cast_nonneg _) isDouble_eight).setAmount _
    (Nat.cast_nonneg _) isDouble_one
  free := (carriedAmounts_empty.setAmount _ (Nat.cast_nonneg _) isDouble_eight).setAmount _
    (Nat.cast_nonneg _) isDouble_one
  committed := carriedAmounts_empty.setAmount _ (Nat.cast_nonneg _) isDouble_eight
  unavailable := carriedAmounts_empty
  architecture := by decide
  className := by decide
  capability := by decide
  freeBlocks := by decide

theorem readResource_writeResource_busyResource :
    readResource.run (writeResource busyResource ++ [9, 9]) =
      some (busyResource.withoutMarkers, [9, 9]) :=
  readResource_writeResource fitsWire_busyResource [9, 9]

end Payload

end CapacityFabric
