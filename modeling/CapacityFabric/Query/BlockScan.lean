import CapacityFabric.Query.ShapeFit

/-!
# How far the blocks are scanned

The scan of the free blocks stops when their total overflows, and the blocks from there
on are never compared with the largest.
-/

namespace CapacityFabric

/-- After blocks that add up to `total`, one of the size follows that adds up, with all
that precede it, to a count of bytes. -/
def BlockReached (total : ℕ) (required : ByteCount) (blocks : List ByteCount) : Prop :=
  ∃ before b after, blocks = before ++ b :: after ∧ required ≤ b ∧
    total + (before.map UInt64.toNat).sum + b.toNat ≤ 18446744073709551615

theorem blockReached_nil (total : ℕ) (required : ByteCount) : ¬ BlockReached total required [] := by
  rintro ⟨before, b, after, hsplit, -⟩
  exact List.append_ne_nil_of_right_ne_nil before (List.cons_ne_nil b after) hsplit.symm

theorem blockReached_cons {total : ℕ} {required b : ByteCount} {blocks : List ByteCount} :
    BlockReached total required (b :: blocks) ↔
      (required ≤ b ∧ total + b.toNat ≤ 18446744073709551615) ∨
        BlockReached (total + b.toNat) required blocks := by
  constructor
  · rintro ⟨before, c, after, hsplit, hrequired, hsum⟩
    cases before with
    | nil =>
      obtain ⟨rfl, -⟩ := List.cons_eq_cons.mp hsplit
      exact Or.inl ⟨hrequired, hsum⟩
    | cons b' before =>
      obtain ⟨rfl, hblocks⟩ := List.cons_eq_cons.mp hsplit
      rw [List.map_cons, List.sum_cons, ← Nat.add_assoc total] at hsum
      exact Or.inr ⟨before, c, after, hblocks, hrequired, hsum⟩
  · rintro (⟨hrequired, hsum⟩ | ⟨before, c, after, hblocks, hrequired, hsum⟩)
    · exact ⟨[], b, blocks, rfl, hrequired, hsum⟩
    · refine ⟨b :: before, c, after, by rw [hblocks, List.cons_append], hrequired, ?_⟩
      rw [List.map_cons, List.sum_cons, ← Nat.add_assoc total]
      exact hsum

theorem not_blockReached {total : ℕ} (htotal : 18446744073709551615 < total)
    (required : ByteCount) (blocks : List ByteCount) : ¬ BlockReached total required blocks := by
  rintro ⟨before, b, after, -, -, hsum⟩
  omega

theorem BlockReached.exists_mem {total : ℕ} {required : ByteCount} {blocks : List ByteCount}
    (h : BlockReached total required blocks) : ∃ b ∈ blocks, required ≤ b := by
  obtain ⟨before, b, after, rfl, hrequired, -⟩ := h
  exact ⟨b, List.mem_append_right before List.mem_cons_self, hrequired⟩

theorem le_largest_scanBlocks (required : ByteCount) (blocks : List ByteCount)
    (total largest : ByteCount) :
    required ≤ (scanBlocks total largest blocks).2 ↔
      required ≤ largest ∨ BlockReached total.toNat required blocks := by
  induction blocks generalizing total largest with
  | nil => exact ⟨Or.inl, fun h => h.resolve_right (blockReached_nil _ _)⟩
  | cons b bs ih =>
    rw [scanBlocks, blockReached_cons]
    cases hadd : ByteCount.add total b with
    | none =>
      have hover := ByteCount.add_eq_none hadd
      have hrest := not_blockReached hover required bs
      constructor
      · exact Or.inl
      · rintro (h | ⟨-, hsum⟩ | h)
        · exact h
        · omega
        · exact absurd h hrest
    | some t =>
      obtain ⟨hsum, ht⟩ := ByteCount.add_eq_some hadd
      have hmax : required ≤ (if b > largest then b else largest) ↔
          required ≤ largest ∨ required ≤ b := by
        split_ifs with hb
        · exact ⟨Or.inr, fun h => h.elim (fun h => h.trans hb.le) id⟩
        · exact ⟨Or.inl, fun h => h.elim id fun h => h.trans (UInt64.not_lt.mp hb)⟩
      have hthis : (required ≤ b ∧ total.toNat + b.toNat ≤ 18446744073709551615) ↔ required ≤ b :=
        and_iff_left hsum
      show required ≤ (scanBlocks t (if b > largest then b else largest) bs).2 ↔ _
      rw [ih, hmax, ht, hthis, or_assoc]

theorem largest_le_total (blocks : List ByteCount) {total largest : ByteCount}
    (h : largest ≤ total) :
    (scanBlocks total largest blocks).2 ≤ (scanBlocks total largest blocks).1 := by
  induction blocks generalizing total largest with
  | nil => exact h
  | cons b bs ih =>
    rw [scanBlocks]
    cases hadd : ByteCount.add total b with
    | none =>
      have hlargest := largest.toNat_lt
      have htop : (18446744073709551615 : UInt64).toNat = 18446744073709551615 := rfl
      show largest ≤ 18446744073709551615
      rw [UInt64.le_iff_toNat_le, htop]
      omega
    | some t =>
      obtain ⟨-, ht⟩ := ByteCount.add_eq_some hadd
      apply ih
      rw [UInt64.le_iff_toNat_le] at h ⊢
      split_ifs <;> omega

/-- What is usable for the shape and what is stranded make up the total. -/
theorem usable_add_stranded (blocks : List ByteCount) (required : ByteCount) :
    (analyzeDeviceMemory blocks required).usableForShape.toNat +
        (analyzeDeviceMemory blocks required).stranded.toNat =
      (analyzeDeviceMemory blocks required).totalFreeMemory.toNat := by
  have hle := largest_le_total blocks (UInt64.le_refl 0)
  have hsubtract : ByteCount.subtract (scanBlocks 0 0 blocks).1 (scanBlocks 0 0 blocks).2 =
      some ((scanBlocks 0 0 blocks).1 - (scanBlocks 0 0 blocks).2) :=
    if_neg (UInt64.not_lt.mpr hle)
  unfold analyzeDeviceMemory
  simp only [apply_ite FragmentationReport.usableForShape, apply_ite FragmentationReport.stranded,
    apply_ite FragmentationReport.totalFreeMemory, ite_self]
  split_ifs with hzero hlargest
  · exact Nat.add_zero _
  · rw [hsubtract, Option.getD_some, UInt64.toNat_sub_of_le _ _ hle]
    exact Nat.add_sub_cancel' (UInt64.le_iff_toNat_le.mp hle)
  · exact Nat.zero_add _

/-- The blocks decide the shape exactly when a block of the size, if there is one, is
reached by the scan. -/
theorem shape_decided_by_blocks_iff (blocks : List ByteCount) (required : ByteCount) :
    (((analyzeDeviceMemory blocks required).shapeSatisfiable = true ↔
        required = 0 ∨ ∃ b ∈ blocks, required ≤ b) ∧
      (analyzeDeviceMemory blocks required).usableForShape.toNat +
          (analyzeDeviceMemory blocks required).stranded.toNat =
        (analyzeDeviceMemory blocks required).totalFreeMemory.toNat) ↔
    ((∃ b ∈ blocks, required ≤ b) → required = 0 ∨ BlockReached 0 required blocks) := by
  have hshape : (analyzeDeviceMemory blocks required).shapeSatisfiable = true ↔
      required = 0 ∨ BlockReached 0 required blocks := by
    rw [shapeSatisfiable_iff, le_largest_scanBlocks, UInt64.le_zero_iff]
    rfl
  rw [and_iff_left (usable_add_stranded blocks required), hshape]
  constructor
  · intro h hblock
    exact h.mpr (Or.inr hblock)
  · intro h
    constructor
    · exact fun hreached => hreached.imp_right BlockReached.exists_mem
    · exact fun hblock => hblock.elim Or.inl h

/-- A block as large as the count allows is not seen behind a block of one byte. -/
theorem unseen_block :
    ¬ ∀ (blocks : List ByteCount) (required : ByteCount),
      ((analyzeDeviceMemory blocks required).shapeSatisfiable = true ↔
          required = 0 ∨ ∃ b ∈ blocks, required ≤ b) ∧
        (analyzeDeviceMemory blocks required).usableForShape.toNat +
            (analyzeDeviceMemory blocks required).stranded.toNat =
          (analyzeDeviceMemory blocks required).totalFreeMemory.toNat := by
  intro h
  have hshape := (h [1, 18446744073709551615] 18446744073709551615).1.mpr
    (Or.inr ⟨18446744073709551615, List.mem_cons_of_mem 1 List.mem_cons_self,
      UInt64.le_refl _⟩)
  revert hshape
  decide +kernel

end CapacityFabric
