import CapacityFabric.Persistence.Checksum
import CapacityFabric.Protocol.Frame

/-!
# The integrity of frames

What the decoder has checked and read of a frame that it accepts.  The checksum tells
every short change, and of the header only the reserved byte is left open.
-/

namespace CapacityFabric

namespace Frame

/-- What the decoder says it has consumed: nothing of a frame that it does not accept. -/
def consumed : Except FrameError (FramedMessage × ℕ) → ℕ
  | .ok (_, n) => n
  | .error _ => 0

structure Decoded (data : List UInt8) (msg : FramedMessage) (n : ℕ) : Prop where
  bounded : msg.payload.length ≤ kMaxFramePayload
  total : n = kFrameHeaderLen + msg.payload.length + kChecksumLen
  complete : n ≤ data.length
  magic : readU32 data 0 = kFrameMagic
  version : data.getD 4 0 = kFrameVersion
  type : msg.type = MessageType.ofCode (data.getD 5 0)
  seq : msg.seq = UInt32.ofNat (readU32 data kFrameSeqOffset)
  len : readU32 data kFrameLenOffset = msg.payload.length
  payload : (data.drop kFrameHeaderLen).take msg.payload.length = msg.payload
  checksum : (fnv1a (data.take (kFrameHeaderLen + msg.payload.length))).toNat =
    readU64 data (kFrameHeaderLen + msg.payload.length)

theorem decoded_of_decodeFrame {data : List UInt8} {msg : FramedMessage} {n : ℕ}
    (h : decodeFrame data = .ok (msg, n)) : Decoded data msg n := by
  unfold decodeFrame at h
  dsimp only at h
  split_ifs at h with hheader hmagic hversion hover hpart hsum
  obtain ⟨rfl, rfl⟩ := Prod.mk.inj (Except.ok.inj h)
  have hpayload : ((data.drop kFrameHeaderLen).take (readU32 data kFrameLenOffset)).length =
      readU32 data kFrameLenOffset := by
    rw [List.length_take, List.length_drop]
    omega
  exact {
    bounded := by rw [hpayload]; exact not_lt.mp hover
    total := by rw [hpayload]
    complete := not_lt.mp hpart
    magic := not_not.mp hmagic
    version := not_not.mp hversion
    type := rfl
    seq := rfl
    len := hpayload.symm
    payload := by rw [hpayload]
    checksum := by rw [hpayload]; exact not_not.mp hsum }

theorem littleEndian_readBytes {k off : ℕ} {b : List UInt8} (h : off + k ≤ b.length) :
    littleEndian k (readBytes k b off) = (b.drop off).take k := by
  have hlength : ((b.drop off).take k).length = k := by
    rw [List.length_take, List.length_drop]
    omega
  have hbytes := littleEndian_ofDigits ((b.drop off).take k)
  rwa [hlength] at hbytes

theorem readBytes_congr {k off : ℕ} {b b' : List UInt8}
    (h : ∀ j, off ≤ j → j < off + k → b[j]? = b'[j]?) : readBytes k b off = readBytes k b' off := by
  have htake : (b.drop off).take k = (b'.drop off).take k := by
    apply List.ext_getElem?
    intro j
    rw [List.getElem?_take, List.getElem?_take, List.getElem?_drop, List.getElem?_drop]
    split_ifs with hj
    · exact h _ (by omega) (by omega)
    · rfl
  rw [readBytes, readBytes, htake]

section

open BinaryWriter

variable {data frame bytes : List UInt8} {msg : FramedMessage} {n off width : ℕ}

/-- An accepted frame is its header and payload with their checksum. -/
theorem Decoded.take_eq (h : Decoded data msg n) :
    data.take n = data.take (kFrameHeaderLen + msg.payload.length) ++
      writeU64 (fnv1a (data.take (kFrameHeaderLen + msg.payload.length))) := by
  have hcomplete := h.complete
  rw [h.total] at hcomplete
  rw [h.total, List.take_add, writeU64, h.checksum]
  exact congrArg _ (littleEndian_readBytes hcomplete).symm

theorem Decoded.len_of_shortChange (hframe : Decoded frame msg frame.length)
    (hchange : ShortChange frame bytes off width)
    (hoff : ∀ j, off ≤ j → j < off + width → j < kFrameLenOffset ∨ kFrameHeaderLen ≤ j) :
    readU32 bytes kFrameLenOffset = msg.payload.length := by
  refine Eq.trans (readBytes_congr fun j hj hj' => ?_) hframe.len
  by_contra hne
  obtain ⟨hin, hin'⟩ := (hchange.differs j).mp (Ne.symm hne)
  rcases hoff j hin hin' with hbefore | hbehind
  · omega
  · exact absurd hj' (not_lt.mpr hbehind)

theorem Decoded.not_shortChange {msg' : FramedMessage} (hframe : Decoded frame msg frame.length)
    (hbytes : Decoded bytes msg' n) (hpayload : msg'.payload.length = msg.payload.length) :
    ¬ShortChange frame bytes off width := by
  intro hchange
  have htotal := hframe.total
  have htotal' := hbytes.total
  have hlength := hchange.length
  -- Both are followed by their own checksums.
  have htake := hframe.take_eq
  have htake' := hbytes.take_eq
  rw [List.take_length] at htake
  rw [List.take_of_length_le (by omega)] at htake'
  rw [htake, htake'] at hchange
  refine absurd hchange (not_shortChange_checked ?_)
  rw [List.length_take, List.length_take, hlength, hpayload]

/-- A short change of a frame that leaves its length alone is rejected, for its magic, its
version or its checksum, and nothing is consumed. -/
theorem decodeFrame_rejects_short_change (hencode : encodeFrame msg = .ok frame)
    (hchange : ShortChange frame bytes off width)
    (hoff : ∀ j, off ≤ j → j < off + width → j < kFrameLenOffset ∨ kFrameHeaderLen ≤ j) :
    (decodeFrame bytes = .error .badMagic ∨ decodeFrame bytes = .error .unsupportedVersion ∨
      decodeFrame bytes = .error .checkMismatch) ∧ consumed (decodeFrame bytes) = 0 := by
  have hframe : Decoded frame msg frame.length := by
    have hdecode := decodeFrame_encodeFrame hencode []
    rw [List.append_nil] at hdecode
    exact decoded_of_decodeFrame hdecode
  have htotal := hframe.total
  have hlength := hchange.length
  have hlen := hframe.len_of_shortChange hchange hoff
  cases hdecode : decodeFrame bytes with
  | ok p =>
    have hbytes := decoded_of_decodeFrame hdecode
    exact absurd hchange (hframe.not_shortChange hbytes (hbytes.len.symm.trans hlen))
  | error err =>
    refine ⟨?_, rfl⟩
    unfold decodeFrame at hdecode
    rw [hlen] at hdecode
    dsimp only at hdecode
    have hbounded := hframe.bounded
    split_ifs at hdecode with hheader hmagic hversion hover hpart hsum
    · omega
    · exact Or.inl (by rw [← hdecode])
    · exact Or.inr (Or.inl (by rw [← hdecode]))
    · omega
    · omega
    · exact Or.inr (Or.inr (by rw [← hdecode]))

def greeting : FramedMessage := ⟨.hello, 1, [7]⟩

def greetingFrame : List UInt8 :=
  let out := frameHeader greeting ++ greeting.payload
  out ++ writeU64 (fnv1a out)

theorem decodeFrame_rejects_short_change_greeting :
    (decodeFrame (greetingFrame.set 15 8) = .error .badMagic ∨
      decodeFrame (greetingFrame.set 15 8) = .error .unsupportedVersion ∨
      decodeFrame (greetingFrame.set 15 8) = .error .checkMismatch) ∧
    consumed (decodeFrame (greetingFrame.set 15 8)) = 0 :=
  decodeFrame_rejects_short_change (show encodeFrame greeting = .ok greetingFrame from rfl)
    (ShortChange.set (by decide +kernel) (by decide +kernel)) fun _ hj _ => Or.inr hj

theorem readBytes_lt (k : ℕ) (b : List UInt8) (off : ℕ) : readBytes k b off < 256 ^ k := by
  have hdigits : ∀ d ∈ ((b.drop off).take k).map UInt8.toNat, d < 256 := by
    intro d hd
    obtain ⟨c, -, rfl⟩ := List.mem_map.mp hd
    exact c.toNat_lt
  refine (Nat.ofDigits_lt_base_pow_length (by decide) hdigits).trans_le ?_
  apply Nat.pow_le_pow_right (by decide)
  rw [List.length_map]
  exact List.length_take_le k _

theorem take_three {data : List UInt8} (h : kFrameHeaderLen ≤ data.length) :
    (data.drop 4).take 3 = [data.getD 4 0, data.getD 5 0, data.getD 6 0] := by
  have hheader : kFrameHeaderLen = 15 := rfl
  match data, h with
  | _ :: _ :: _ :: _ :: _ :: _ :: _ :: rest, _ => rfl

theorem Decoded.header_eq (h : Decoded data msg n) :
    data.take kFrameHeaderLen = littleEndian 4 kFrameMagic ++
      ([kFrameVersion, msg.type.code, data.getD 6 0] ++
        (littleEndian 4 msg.seq.toNat ++ littleEndian 4 msg.payload.length)) := by
  have hcomplete := h.complete
  rw [h.total] at hcomplete
  have hlong : kFrameHeaderLen ≤ data.length := by omega
  have hparts : kFrameHeaderLen = 4 + (3 + (4 + 4)) := rfl
  have hmagic : data.take 4 = littleEndian 4 kFrameMagic := by
    rw [← h.magic]
    exact (@littleEndian_readBytes 4 0 data (by omega)).symm
  have hbytes : (data.drop 4).take 3 = [kFrameVersion, msg.type.code, data.getD 6 0] := by
    rw [take_three hlong, h.version, h.type, MessageType.code_ofCode]
  have hseq : (data.drop kFrameSeqOffset).take 4 = littleEndian 4 msg.seq.toNat := by
    have hsmall : readU32 data kFrameSeqOffset < 2 ^ 32 := readBytes_lt 4 data kFrameSeqOffset
    rw [h.seq, UInt32.toNat_ofNat', Nat.mod_eq_of_lt hsmall]
    exact (littleEndian_readBytes (by change 7 + 4 ≤ _; omega)).symm
  have hlen : (data.drop kFrameLenOffset).take 4 = littleEndian 4 msg.payload.length := by
    rw [← h.len]
    exact (littleEndian_readBytes (by change 11 + 4 ≤ _; omega)).symm
  rw [hparts, List.take_add, List.take_add, List.take_add, List.drop_drop, List.drop_drop, hmagic,
    hbytes]
  exact congrArg₂ (fun a b => _ ++ (_ ++ (a ++ b))) hseq hlen

/-- What is accepted is what the encoder makes of the message, exactly where the reserved
byte is zero. -/
theorem decoded_was_encoded_iff (h : decodeFrame data = .ok (msg, n)) :
    encodeFrame msg = .ok (data.take n) ↔ data.getD 6 0 = 0 := by
  have hdecoded := decoded_of_decodeFrame h
  have hencode : encodeFrame msg = .ok (frameHeader msg ++ msg.payload ++
      writeU64 (fnv1a (frameHeader msg ++ msg.payload))) := if_neg (not_lt.mpr hdecoded.bounded)
  have htotal : 6 < n := by
    rw [hdecoded.total]
    exact Nat.lt_add_right _ (Nat.lt_add_right _ (by decide))
  constructor
  · intro hsame
    have hframe := Except.ok.inj (hsame.symm.trans hencode)
    calc data.getD 6 0 = (data.take n).getD 6 0 := by
          rw [List.getD_eq_getElem?_getD, List.getD_eq_getElem?_getD, List.getElem?_take,
            if_pos htotal]
      _ = 0 := by
          rw [hframe, frameHeader_eq]
          rfl
  · intro hreserved
    have hcontent : data.take (kFrameHeaderLen + msg.payload.length) =
        frameHeader msg ++ msg.payload := by
      rw [List.take_add, hdecoded.payload, hdecoded.header_eq, hreserved, frameHeader_eq]
    rw [hencode, hdecoded.take_eq, hcontent]

theorem decoded_was_encoded_iff_greeting :
    encodeFrame greeting = .ok (greetingFrame.take 24) ↔ greetingFrame.getD 6 0 = 0 :=
  decoded_was_encoded_iff rfl

def flaggedFrame : List UInt8 :=
  let out := (frameHeader greeting).set 6 1 ++ greeting.payload
  out ++ writeU64 (fnv1a out)

theorem flagged_frame_accepted :
    ¬ ∀ (data : List UInt8) (msg : FramedMessage) (n : ℕ), decodeFrame data = .ok (msg, n) →
      encodeFrame msg = .ok (data.take n) := by
  intro h
  have hsame : encodeFrame greeting = .ok (flaggedFrame.take 24) := h flaggedFrame greeting 24 rfl
  have hencode : encodeFrame greeting = .ok greetingFrame := rfl
  have hbytes := Except.ok.inj (hencode.symm.trans hsame)
  revert hbytes
  decide +kernel

end

end Frame

end CapacityFabric
