import CapacityFabric.Model.Snapshot
import CapacityFabric.Persistence.Checksum

/-!
# Corrupted files

A file whose frame is in order is its body framed again.  No such file is a short change
of another one.
-/

namespace CapacityFabric

namespace CapacityModel

open BinaryReader BinaryWriter Parsing

/-- A payload whose end is the checksum of what comes before it. -/
theorem eq_append_checksum {payload : List UInt8} (hlong : 8 ≤ payload.length)
    (hsum : (fnv1a (payload.take (payload.length - 8))).toNat =
      Nat.ofDigits 256 ((payload.drop (payload.length - 8)).map UInt8.toNat)) :
    payload = payload.take (payload.length - 8) ++
      writeU64 (fnv1a (payload.take (payload.length - 8))) := by
  have hlength : (payload.drop (payload.length - 8)).length = 8 := by
    rw [List.length_drop]
    omega
  have hbytes := littleEndian_ofDigits (payload.drop (payload.length - 8))
  rw [hlength] at hbytes
  rw [writeU64, hsum, hbytes, List.take_append_drop]

theorem eq_framed_of_checkedBody {bytes body : List UInt8} (h : checkedBody bytes = some body) :
    bytes = framed body := by
  unfold checkedBody at h
  cases hmagic : readU32.run bytes with
  | none => rw [hmagic] at h; cases h
  | some p =>
    obtain ⟨magic, r⟩ := p
    rw [hmagic] at h
    dsimp only at h
    split_ifs at h with hmagicIs
    cases hversion : readU32.run r with
    | none => rw [hversion] at h; cases h
    | some q =>
      obtain ⟨version, r'⟩ := q
      rw [hversion] at h
      dsimp only at h
      split_ifs at h with hversionIs
      cases hlen : readU32.run r' with
      | none => rw [hlen] at h; cases h
      | some t =>
        obtain ⟨len, payload⟩ := t
        rw [hlen] at h
        dsimp only at h
        split_ifs at h with hsize hshort hsum
        obtain rfl := Option.some.inj h
        -- The three fields that were read stand in front of the payload.
        have hpayload := eq_append_checksum (not_lt.mp hshort) (not_not.mp hsum)
        have hbytes := eq_of_readLittleEndian hmagic
        rw [eq_of_readLittleEndian hversion, eq_of_readLittleEndian hlen, not_not.mp hmagicIs,
          not_not.mp hversionIs] at hbytes
        have hbody : (payload.take (payload.length - 8)).length + 8 = len := by
          have hlength := congrArg List.length hbytes
          simp only [List.length_append, length_littleEndian] at hlength
          rw [List.length_take]
          omega
        rw [hbytes, framed, hbody, writeU32, writeU32, writeU32, List.append_assoc,
          List.append_assoc, List.append_assoc, ← hpayload]

theorem not_shortChange_framed (body body' : List UInt8) (off width : ℕ) :
    ¬ShortChange (framed body) (framed body') off width := by
  intro hchange
  have hlength : body'.length = body.length := by
    have hframes := hchange.length
    rw [length_framed, length_framed] at hframes
    omega
  have hframe : ∀ b, framed b = writeU32 kPersistMagic ++ writeU32 kPersistVersion ++
      writeU32 (b.length + 8) ++ (b ++ writeU64 (fnv1a b)) := fun b => List.append_assoc _ _ _
  rw [hframe, hframe, hlength] at hchange
  exact not_shortChange_checked hlength hchange.of_append.2

/-- Any short change of a saved file makes loading reject it, whatever model it is loaded
into, and leaves that model as it is. -/
theorem load_rejects_short_change (m : CapacityModel) {bytes : List UInt8} {off width : ℕ}
    (hchange : ShortChange m.save bytes off width) (n : CapacityModel) :
    n.load bytes = (n, .rejected) := by
  unfold load
  split_ifs with hsize
  · rfl
  cases hbody : checkedBody bytes with
  | none => rfl
  | some body =>
    rw [save_eq_framed, eq_framed_of_checkedBody hbody] at hchange
    exact absurd hchange (not_shortChange_framed _ _ _ _)

/-- The lowest byte of the epoch, `1` in the file of a fresh model, is changed. -/
theorem load_rejects_short_change_fresh :
    load {} ((save {}).set 12 7) = ({}, .rejected) :=
  load_rejects_short_change {} (ShortChange.set (by decide +kernel) (by decide +kernel)) {}

end CapacityModel

end CapacityFabric
