import CapacityFabric.Core.Units
import CapacityFabric.Foundation.Parsing
import Mathlib.Data.Int.Log
import Mathlib.Data.Nat.Digits.Defs

/-!
# The binary format

Little-endian encodings, the IEEE 754 layout of a `double`, and the integrity
checksum.  What is left to read is a list of bytes; a read that would go past the
end returns nothing.
-/

namespace CapacityFabric

namespace Double

/-- The value of 64 bits: sign, eleven exponent bits, fifty-two fraction bits. -/
def ofBits (bits : UInt64) : Double :=
  let n := bits.toNat
  let exponent : ℕ := n / 2 ^ 52 % 2048
  let fraction : ℕ := n % 2 ^ 52
  if exponent = 2047 then .nonFinite
  else
    let magnitude : ℚ :=
      if exponent = 0 then (fraction : ℚ) / (2 ^ 1074 : ℕ)
      else if exponent < 1075 then ((2 ^ 52 + fraction : ℕ) : ℚ) / (2 ^ (1075 - exponent) : ℕ)
      else ((2 ^ 52 + fraction) * 2 ^ (exponent - 1075) : ℕ)
    .finite (if n / 2 ^ 63 = 0 then magnitude else -magnitude)

/-- The bits of an amount.  A rational that is no `double` is cut off towards zero. -/
def toBits (v : ℚ) : UInt64 :=
  let magnitude := |v|
  let exponent := Int.log 2 magnitude
  let bits : ℕ :=
    if magnitude = 0 then 0
    else if exponent < -1022 then ⌊magnitude * (2 ^ 1074 : ℕ)⌋₊
    else if 1023 < exponent then 9218868437227405311
    else
      let significand :=
        if exponent ≤ 52 then ⌊magnitude * (2 ^ (52 - exponent).toNat : ℕ)⌋₊
        else ⌊magnitude / (2 ^ (exponent - 52).toNat : ℕ)⌋₊
      (exponent + 1022).toNat * 2 ^ 52 + significand
  UInt64.ofNat (if v < 0 then 2 ^ 63 + bits else bits)

end Double

/-- The low `k` bytes of `n`, least significant first. -/
def littleEndian (k n : ℕ) : List UInt8 :=
  (List.range k).map fun i => UInt8.ofNat (n / 256 ^ i)

namespace BinaryWriter

def writeU8 (v : UInt8) : List UInt8 := [v]

/-- A count is written modulo `2 ^ 32`. -/
def writeU32 (n : ℕ) : List UInt8 := littleEndian 4 n

def writeU64 (v : UInt64) : List UInt8 := littleEndian 8 v.toNat

def writeI64 (v : Int64) : List UInt8 := writeU64 v.toUInt64

def writeF64 (v : ℚ) : List UInt8 := writeU64 (Double.toBits v)

def writeString (s : ByteString) : List UInt8 := writeU32 s.length ++ s

end BinaryWriter

/-- A reader of the bytes that are left, which fails at their end. -/
abbrev BinaryReader := Parsing.Reader UInt8

namespace BinaryReader

def readLittleEndian (k : ℕ) : BinaryReader ℕ := fun data =>
  if data.length < k then none
  else some (Nat.ofDigits 256 ((data.take k).map UInt8.toNat), data.drop k)

def readU8 : BinaryReader UInt8 := return UInt8.ofNat (← readLittleEndian 1)

def readU32 : BinaryReader ℕ := readLittleEndian 4

def readU64 : BinaryReader UInt64 := return UInt64.ofNat (← readLittleEndian 8)

def readI64 : BinaryReader Int64 := return (← readU64).toInt64

def readF64 : BinaryReader Double := return Double.ofBits (← readU64)

def readRaw (n : ℕ) : BinaryReader ByteString := fun data =>
  if data.length < n then none else some (data.take n, data.drop n)

def readString : BinaryReader ByteString := do readRaw (← readU32)

end BinaryReader

def fnv1a (data : List UInt8) : UInt64 :=
  data.foldl (fun h b => (h ^^^ b.toUInt64) * 0x100000001b3) 0xcbf29ce484222325

theorem length_littleEndian (k n : ℕ) : (littleEndian k n).length = k := by
  rw [littleEndian, List.length_map, List.length_range]

theorem littleEndian_succ (k n : ℕ) :
    littleEndian (k + 1) n = UInt8.ofNat n :: littleEndian k (n / 256) := by
  rw [littleEndian, List.range_succ_eq_map, List.map_cons, List.map_map, pow_zero, Nat.div_one]
  congr 1
  apply List.map_congr_left
  intro i _
  rw [Function.comp_apply, Nat.div_div_eq_div_mul, Nat.pow_succ']

theorem ofDigits_littleEndian (k n : ℕ) :
    Nat.ofDigits 256 ((littleEndian k n).map UInt8.toNat) = n % 256 ^ k := by
  induction k generalizing n with
  | zero => rw [pow_zero, Nat.mod_one]; rfl
  | succ k ih =>
    have hmod : n % 256 ^ (k + 1) = n % 256 + 256 * (n / 256 % 256 ^ k) := by
      rw [Nat.pow_succ', Nat.mod_mul]
    rw [littleEndian_succ, List.map_cons, Nat.ofDigits_cons, ih, UInt8.toNat_ofNat', hmod]

namespace BinaryReader

open Parsing BinaryWriter

theorem parses_readLittleEndian (k n : ℕ) :
    Parses (readLittleEndian k) (littleEndian k n) (n % 256 ^ k) := by
  intro rest
  have hlength := length_littleEndian k n
  have htake : (littleEndian k n ++ rest).take k = littleEndian k n := by
    rw [List.take_append_of_le_length hlength.ge, List.take_of_length_le hlength.le]
  have hdrop : (littleEndian k n ++ rest).drop k = rest := List.drop_left' hlength
  change (if (littleEndian k n ++ rest).length < k then none else _) = _
  rw [if_neg (by rw [List.length_append, hlength]; omega), htake, hdrop, ofDigits_littleEndian]

theorem parses_readU8 (v : UInt8) : Parses readU8 (writeU8 v) v := by
  have h := parses_readLittleEndian 1 v.toNat
  rw [littleEndian_succ, UInt8.ofNat_toNat, pow_one, Nat.mod_eq_of_lt v.toNat_lt] at h
  exact h.map UInt8.ofNat_toNat

theorem parses_readU32 {n : ℕ} (h : n < 2 ^ 32) : Parses readU32 (writeU32 n) n := by
  have hmod : n % 256 ^ 4 = n := Nat.mod_eq_of_lt (h.trans_eq (by norm_num))
  have hparses := parses_readLittleEndian 4 n
  rwa [hmod] at hparses

theorem parses_readU64 (v : UInt64) : Parses readU64 (writeU64 v) v := by
  have hmod : v.toNat % 256 ^ 8 = v.toNat := Nat.mod_eq_of_lt (v.toNat_lt.trans_eq (by norm_num))
  have h := parses_readLittleEndian 8 v.toNat
  rw [hmod] at h
  exact h.map UInt64.ofNat_toNat

theorem parses_readI64 (v : Int64) : Parses readI64 (writeI64 v) v :=
  (parses_readU64 v.toUInt64).map (Int64.toInt64_toUInt64 v)

theorem parses_readF64 (v : ℚ) : Parses readF64 (writeF64 v) (Double.ofBits (Double.toBits v)) :=
  (parses_readU64 (Double.toBits v)).map rfl

theorem parses_readRaw (s : ByteString) : Parses (readRaw s.length) s s := by
  intro rest
  change (if (s ++ rest).length < s.length then none else _) = _
  rw [if_neg (by rw [List.length_append]; omega), List.take_left, List.drop_left]

theorem parses_readString {s : ByteString} (h : s.length < 2 ^ 32) :
    Parses readString (writeString s) s :=
  (parses_readU32 h).bind (parses_readRaw s)

theorem staysInside_readLittleEndian (k : ℕ) : StaysInside (readLittleEndian k) := by
  intro data n rest hrun
  change (if data.length < k then none else _) = some (n, rest) at hrun
  split_ifs at hrun
  obtain ⟨-, rfl⟩ := Prod.mk.inj (Option.some.inj hrun)
  exact List.drop_suffix k data

theorem staysInside_readU8 : StaysInside readU8 :=
  (staysInside_readLittleEndian 1).bind fun _ => StaysInside.pure _

theorem staysInside_readU32 : StaysInside readU32 := staysInside_readLittleEndian 4

theorem staysInside_readU64 : StaysInside readU64 :=
  (staysInside_readLittleEndian 8).bind fun _ => StaysInside.pure _

theorem staysInside_readF64 : StaysInside readF64 :=
  staysInside_readU64.bind fun _ => StaysInside.pure _

theorem staysInside_readString : StaysInside readString := by
  refine staysInside_readU32.bind fun n data s rest hrun => ?_
  change (if data.length < n then none else _) = some (s, rest) at hrun
  split_ifs at hrun
  obtain ⟨-, rfl⟩ := Prod.mk.inj (Option.some.inj hrun)
  exact List.drop_suffix n data

theorem takes_readLittleEndian (k : ℕ) : Takes (readLittleEndian k) fun n _ => n = k := by
  intro data v rest hrun
  change (if data.length < k then none else _) = some (v, rest) at hrun
  split_ifs at hrun with hshort
  obtain ⟨-, rfl⟩ := Prod.mk.inj (Option.some.inj hrun)
  exact ⟨k, by rw [List.length_drop]; omega, rfl⟩

theorem takes_readU8 : Takes readU8 fun n _ => n = 1 :=
  (takes_readLittleEndian 1).map fun _ _ hn => hn

theorem takes_readU32 : Takes readU32 fun n _ => n = 4 := takes_readLittleEndian 4

theorem takes_readU64 : Takes readU64 fun n _ => n = 8 :=
  (takes_readLittleEndian 8).map fun _ _ hn => hn

theorem takes_readI64 : Takes readI64 fun n _ => n = 8 := takes_readU64.map fun _ _ hn => hn

theorem takes_readF64 : Takes readF64 fun n _ => n = 8 := takes_readU64.map fun _ _ hn => hn

theorem takes_readRaw (k : ℕ) : Takes (readRaw k) fun n s => n = s.length := by
  intro data s rest hrun
  change (if data.length < k then none else _) = some (s, rest) at hrun
  split_ifs at hrun
  obtain ⟨rfl, rfl⟩ := Prod.mk.inj (Option.some.inj hrun)
  exact ⟨_, by rw [← List.length_append, List.take_append_drop], rfl⟩

theorem takes_readString : Takes readString fun n s => n = 4 + s.length :=
  takes_readU32.after fun k data s rest hrun => by
    obtain ⟨n, hn, rfl⟩ := takes_readRaw k data s rest hrun
    exact ⟨_, hn, rfl⟩

end BinaryReader

end CapacityFabric
