import CapacityFabric.Foundation.XorMultiply
import CapacityFabric.Persistence.Binary

/-!
# The integrity checksum

Bytes with their checksum behind them differ from any others of the same length in more
than one byte or two adjacent ones.
-/

namespace CapacityFabric

theorem littleEndian_ofDigits (l : List UInt8) :
    littleEndian l.length (Nat.ofDigits 256 (l.map UInt8.toNat)) = l := by
  induction l with
  | nil => rfl
  | cons b l ih =>
    have hb : b.toNat < 256 := b.toNat_lt
    rw [List.length_cons, littleEndian_succ, List.map_cons, Nat.ofDigits_cons]
    have hdiv : (b.toNat + 256 * Nat.ofDigits 256 (l.map UInt8.toNat)) / 256 =
        Nat.ofDigits 256 (l.map UInt8.toNat) := by omega
    have hmod : UInt8.ofNat (b.toNat + 256 * Nat.ofDigits 256 (l.map UInt8.toNat)) = b := by
      apply UInt8.toNat_inj.mp
      rw [UInt8.toNat_ofNat']
      omega
    rw [hdiv, hmod, ih]

theorem littleEndian_inj {k n n' : ℕ} (hn : n < 256 ^ k) (hn' : n' < 256 ^ k)
    (h : littleEndian k n = littleEndian k n') : n = n' := by
  have hdigits : Nat.ofDigits 256 ((littleEndian k n).map UInt8.toNat) =
      Nat.ofDigits 256 ((littleEndian k n').map UInt8.toNat) := by rw [h]
  rwa [ofDigits_littleEndian, ofDigits_littleEndian, Nat.mod_eq_of_lt hn,
    Nat.mod_eq_of_lt hn'] at hdigits

namespace BinaryReader

theorem eq_of_readLittleEndian {k n : ℕ} {data rest : List UInt8}
    (h : (readLittleEndian k).run data = some (n, rest)) : data = littleEndian k n ++ rest := by
  change (if data.length < k then none else _) = some (n, rest) at h
  split_ifs at h with hlength
  obtain ⟨rfl, rfl⟩ := Prod.mk.inj (Option.some.inj h)
  have htake : (data.take k).length = k := List.length_take_of_le (not_lt.mp hlength)
  have hbytes := littleEndian_ofDigits (data.take k)
  rw [htake] at hbytes
  rw [hbytes, List.take_append_drop]

end BinaryReader

theorem spreads_fnvPrime : XorMultiply.Spreads 0x100000001b3 := by
  constructor <;> decide

theorem fnv1a_eq_digest (data : List UInt8) :
    fnv1a data = XorMultiply.digest 0x100000001b3 0xcbf29ce484222325 data := rfl

open BinaryWriter in
/-- No data with its checksum behind it is a short change of other such data. -/
theorem not_shortChange_checked {body body' : List UInt8} {off width : ℕ}
    (hlength : body'.length = body.length) :
    ¬ShortChange (body ++ writeU64 (fnv1a body)) (body' ++ writeU64 (fnv1a body')) off width := by
  have hsmall : ∀ s : UInt64, s.toNat < 256 ^ 8 := fun s => s.toNat_lt.trans_eq (by norm_num)
  rw [fnv1a_eq_digest, fnv1a_eq_digest]
  refine XorMultiply.not_shortChange spreads_fnvPrime writeU64 ?_ ?_ hlength
  · intro s s' heq
    exact UInt64.toNat_inj.mp (littleEndian_inj (hsmall s) (hsmall s') heq)
  · intro s s' heq
    have hs := hsmall s
    have hs' := hsmall s'
    have htail : ∀ n, (littleEndian 8 n).tail = littleEndian 7 (n / 256) := fun n => by
      rw [littleEndian_succ, List.tail_cons]
    rw [writeU64, writeU64, htail, htail] at heq
    exact littleEndian_inj (k := 7) (by omega) (by omega) heq

end CapacityFabric
