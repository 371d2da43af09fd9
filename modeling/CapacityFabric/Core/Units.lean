import CapacityFabric.Foundation.FixedWidth

/-!
# Units

Byte and device counts are unsigned 64-bit values, instants are signed 64-bit
nanoseconds, and amounts that the program keeps in a `double` are rationals.
Sums and differences of instants are formed in the integers.
-/

namespace CapacityFabric

/-- Nanoseconds since the authority epoch. -/
abbrev TimePoint := Int64

abbrev DurationNs := Int64

abbrev ByteCount := UInt64

abbrev DeviceCount := UInt64

abbrev ByteString := List UInt8

namespace ByteCount

/-- Checked addition: nothing on overflow. -/
def add (a b : ByteCount) : Option ByteCount :=
  if a.toNat > 18446744073709551615 - b.toNat then none else some (a + b)

/-- Checked subtraction: nothing on underflow. -/
def subtract (a b : ByteCount) : Option ByteCount :=
  if b > a then none else some (a - b)

def addSaturating (a b : ByteCount) : ByteCount := (add a b).getD 18446744073709551615

theorem toNat_le_top (b : ByteCount) : b.toNat ≤ 18446744073709551615 := by
  have hb := b.toNat_lt
  omega

theorem add_eq_some {a b t : ByteCount} (h : add a b = some t) :
    a.toNat + b.toNat ≤ 18446744073709551615 ∧ t.toNat = a.toNat + b.toNat := by
  have hb := b.toNat_lt
  unfold add at h
  split_ifs at h with hover
  obtain rfl := Option.some.inj h
  rw [UInt64.toNat_add, Nat.mod_eq_of_lt (by omega)]
  exact ⟨by omega, rfl⟩

theorem add_eq_none {a b : ByteCount} (h : add a b = none) :
    18446744073709551615 < a.toNat + b.toNat := by
  have hb := b.toNat_lt
  unfold add at h
  split_ifs at h with hover
  omega

theorem toNat_addSaturating (a b : ByteCount) :
    (addSaturating a b).toNat = min (a.toNat + b.toNat) 18446744073709551615 := by
  unfold addSaturating
  cases hadd : add a b with
  | none =>
    rw [Option.getD_none, min_eq_right (add_eq_none hadd).le]
    rfl
  | some t =>
    obtain ⟨hle, ht⟩ := add_eq_some hadd
    rw [Option.getD_some, ht, min_eq_left hle]

end ByteCount

/-- The conversion of a non-negative amount to an unsigned 64-bit count drops the
fraction.  Amounts from `2 ^ 64` on, for which the conversion is undefined in the
source, saturate. -/
def toUInt64 (q : ℚ) : UInt64 := UInt64.ofNat (min ⌊q⌋₊ 18446744073709551615)

/-- A `double` parameter whose finiteness is checked: a rational, or an infinity or NaN. -/
inductive Double
  | finite (v : ℚ)
  | nonFinite
  deriving DecidableEq

def Double.toUInt64 : Double → UInt64
  | .finite q => CapacityFabric.toUInt64 q
  | .nonFinite => 18446744073709551615

/-- A half-open interval `[start, end_)`.  Only the default interval is empty. -/
structure Interval where
  start : TimePoint
  end_ : TimePoint
  bounds : start = 0 ∧ end_ = 0 ∨ 0 ≤ start ∧ start < end_

namespace Interval

instance : Inhabited Interval := ⟨⟨0, 0, Or.inl ⟨rfl, rfl⟩⟩⟩

/-- The checked constructor, which throws outside `0 ≤ start < end_`. -/
def make? (start end_ : TimePoint) : Option Interval :=
  if h : 0 ≤ start ∧ start < end_ then some ⟨start, end_, Or.inr h⟩ else none

def valid (i : Interval) : Bool := 0 ≤ i.start ∧ i.start < i.end_

def containsPoint (i : Interval) (t : TimePoint) : Bool := i.start ≤ t ∧ t < i.end_

theorem containsPoint_iff {i : Interval} {t : TimePoint} :
    i.containsPoint t = true ↔ i.start ≤ t ∧ t < i.end_ :=
  decide_eq_true_iff

/-- Only the default interval is refused when its bounds are read back. -/
theorem make?_bounds (i : Interval) :
    make? i.start i.end_ = if i.valid = true then some i else none := by
  have hvalid : i.valid = true ↔ 0 ≤ i.start ∧ i.start < i.end_ := decide_eq_true_iff
  by_cases h : 0 ≤ i.start ∧ i.start < i.end_
  · rw [make?, dif_pos h, if_pos (hvalid.mpr h)]
  · rw [make?, dif_neg h, if_neg (mt hvalid.mp h)]

theorem valid_of_make? {start end_ : TimePoint} {i : Interval}
    (h : make? start end_ = some i) : i.valid = true := by
  unfold make? at h
  split_ifs at h with hbounds
  obtain rfl := Option.some.inj h
  exact decide_eq_true hbounds

theorem start_le_end (i : Interval) : i.start ≤ i.end_ := by
  rcases i.bounds with ⟨hs, he⟩ | ⟨-, h⟩
  · rw [hs, he]
  · exact h.le

end Interval

/-- A fraction validated to lie in `[0, 1]`. -/
structure BoundedFraction where
  value : ℚ
  bounds : 0 ≤ value ∧ value ≤ 1

namespace BoundedFraction

instance : Inhabited BoundedFraction := ⟨⟨0, le_rfl, zero_le_one⟩⟩

def make? (v : ℚ) : Option BoundedFraction :=
  if h : 0 ≤ v ∧ v ≤ 1 then some ⟨v, h⟩ else none

theorem make?_value (f : BoundedFraction) : make? f.value = some f := dif_pos f.bounds

end BoundedFraction

abbrev CapacityFraction := BoundedFraction
abbrev Confidence := BoundedFraction

end CapacityFabric
