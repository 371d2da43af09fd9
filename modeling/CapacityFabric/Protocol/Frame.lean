import CapacityFabric.Foundation.Framing
import CapacityFabric.Protocol.Message
import Mathlib.Data.List.GetD

/-!
# Frames

The frame of a message, the buffer that collects what arrives of a stream of frames, and
the loop that takes one frame after the other from it.
-/

namespace CapacityFabric

def kFrameMagic : ℕ := 0x43524643

def kFrameVersion : UInt8 := 1

def kMaxFramePayload : ℕ := 4 * 1024 * 1024

def kFrameSeqOffset : ℕ := 7

def kFrameLenOffset : ℕ := 11

def kFrameHeaderLen : ℕ := 15

def kChecksumLen : ℕ := 8

inductive FrameError
  | badMagic
  | unsupportedVersion
  | oversized
  | truncated
  | checkMismatch
  deriving DecidableEq

section Encode

open BinaryWriter

def frameHeader (msg : FramedMessage) : List UInt8 :=
  writeU32 kFrameMagic ++ writeU8 kFrameVersion ++ writeU8 msg.type.code ++ writeU8 0 ++
    writeU32 msg.seq.toNat ++ writeU32 msg.payload.length

def encodeFrame (msg : FramedMessage) : Except FrameError (List UInt8) :=
  if msg.payload.length > kMaxFramePayload then .error .oversized
  else
    let out := frameHeader msg ++ msg.payload
    .ok (out ++ writeU64 (fnv1a out))

end Encode

namespace Frame

def readBytes (k : ℕ) (b : List UInt8) (off : ℕ) : ℕ :=
  Nat.ofDigits 256 (((b.drop off).take k).map UInt8.toNat)

def readU32 (b : List UInt8) (off : ℕ) : ℕ := readBytes 4 b off

def readU64 (b : List UInt8) (off : ℕ) : ℕ := readBytes 8 b off

end Frame

/-- Decodes the frame at the front of the data, with the number of bytes it takes. -/
def decodeFrame (data : List UInt8) : Except FrameError (FramedMessage × ℕ) :=
  if data.length < kFrameHeaderLen then .error .truncated
  else if Frame.readU32 data 0 ≠ kFrameMagic then .error .badMagic
  else if data.getD 4 0 ≠ kFrameVersion then .error .unsupportedVersion
  else
    let payloadLen := Frame.readU32 data kFrameLenOffset
    if payloadLen > kMaxFramePayload then .error .oversized
    else
      -- The byte after the type is reserved and not read.
      let total := kFrameHeaderLen + payloadLen + kChecksumLen
      if data.length < total then .error .truncated
      else
        let expected := Frame.readU64 data (kFrameHeaderLen + payloadLen)
        let actual := fnv1a (data.take (kFrameHeaderLen + payloadLen))
        if actual.toNat ≠ expected then .error .checkMismatch
        else
          .ok ({ type := MessageType.ofCode (data.getD 5 0)
                 seq := UInt32.ofNat (Frame.readU32 data kFrameSeqOffset)
                 payload := (data.drop kFrameHeaderLen).take payloadLen }, total)

structure FrameBuffer where
  buf : List UInt8 := []

namespace FrameBuffer

def append (b : FrameBuffer) (data : List UInt8) : FrameBuffer := ⟨b.buf ++ data⟩

/-- Takes the next complete frame.  A corrupt buffer is cleared. -/
def pop (b : FrameBuffer) : FrameBuffer × Except FrameError FramedMessage :=
  match decodeFrame b.buf with
  | .ok (msg, consumed) => (⟨b.buf.drop consumed⟩, .ok msg)
  | .error .truncated => (b, .error .truncated)
  | .error err => (⟨[]⟩, .error err)

end FrameBuffer

/-- How `recvFrame` returns, or that it waits for the next chunk. -/
inductive Received
  | delivered (msg : FramedMessage) (inbuf : FrameBuffer) (chunks : List (List UInt8))
  | corrupt (err : FrameError)
  | waiting (inbuf : FrameBuffer)

/-- Takes frames from the buffer, reading the next of the chunks that are still to
arrive whenever there is no complete one. -/
def recvFrame (inbuf : FrameBuffer) (chunks : List (List UInt8)) : Received :=
  match inbuf.pop, chunks with
  | (inbuf, .ok msg), chunks => .delivered msg inbuf chunks
  | (inbuf, .error .truncated), [] => .waiting inbuf
  | (inbuf, .error .truncated), chunk :: chunks => recvFrame (inbuf.append chunk) chunks
  | (_, .error err), _ => .corrupt err

namespace Frame

theorem readBytes_append {k off : ℕ} {b : List UInt8} (h : off + k ≤ b.length) (c : List UInt8) :
    readBytes k (b ++ c) off = readBytes k b off := by
  have hdrop : k ≤ (b.drop off).length := by
    rw [List.length_drop]
    omega
  rw [readBytes, readBytes, List.drop_append_of_le_length (by omega),
    List.take_append_of_le_length hdrop]

theorem readBytes_littleEndian {k n off : ℕ} {a : List UInt8} (h : n < 256 ^ k)
    (ha : a.length = off) (c : List UInt8) :
    readBytes k (a ++ (littleEndian k n ++ c)) off = n := by
  subst ha
  have htake : (littleEndian k n ++ c).take k = littleEndian k n := by
    rw [List.take_append_of_le_length (length_littleEndian k n).ge,
      List.take_of_length_le (length_littleEndian k n).le]
  rw [readBytes, List.drop_left, htake, ofDigits_littleEndian, Nat.mod_eq_of_lt h]

end Frame

/-- A verdict stands whatever follows. -/
theorem decodeFrame_append {data : List UInt8} (h : decodeFrame data ≠ .error .truncated)
    (c : List UInt8) : decodeFrame (data ++ c) = decodeFrame data := by
  have hheader : kFrameHeaderLen = 15 := rfl
  have hchecksum : kChecksumLen = 8 := rfl
  have hlong : ¬data.length < kFrameHeaderLen := fun hshort => h (if_pos hshort)
  have hlength : (data ++ c).length = data.length + c.length := List.length_append
  have hfixed : ∀ {off}, off + 4 ≤ kFrameHeaderLen →
      Frame.readU32 (data ++ c) off = Frame.readU32 data off :=
    fun hoff => Frame.readBytes_append (by omega) c
  have hbyte : ∀ {off}, off < kFrameHeaderLen → (data ++ c).getD off 0 = data.getD off 0 :=
    fun hoff => List.getD_append _ _ _ _ (by omega)
  have hmagic := @hfixed 0 (by decide)
  have hlen := @hfixed kFrameLenOffset (by decide)
  have hseq := @hfixed kFrameSeqOffset (by decide)
  unfold decodeFrame at h ⊢
  rw [if_neg hlong] at h
  rw [if_neg hlong, if_neg (by omega), hmagic, hbyte (by decide), hbyte (by decide), hlen, hseq]
  -- What the verdict depends on is read from the header, which is complete.
  split_ifs at h ⊢ with h₁ h₂
  · rfl
  · rfl
  by_cases hover : Frame.readU32 data kFrameLenOffset > kMaxFramePayload
  · rw [if_pos hover, if_pos hover]
  rw [if_neg hover] at h
  -- A frame that is not complete is truncated, which is excluded.
  by_cases hpart : data.length <
      kFrameHeaderLen + Frame.readU32 data kFrameLenOffset + kChecksumLen
  · exact absurd (if_pos hpart) h
  have hcontent : (data ++ c).take (kFrameHeaderLen + Frame.readU32 data kFrameLenOffset) =
      data.take (kFrameHeaderLen + Frame.readU32 data kFrameLenOffset) :=
    List.take_append_of_le_length (by omega)
  have hsum : Frame.readU64 (data ++ c) (kFrameHeaderLen + Frame.readU32 data kFrameLenOffset) =
      Frame.readU64 data (kFrameHeaderLen + Frame.readU32 data kFrameLenOffset) :=
    Frame.readBytes_append (by omega) c
  have hpayload : ((data ++ c).drop kFrameHeaderLen).take (Frame.readU32 data kFrameLenOffset) =
      (data.drop kFrameHeaderLen).take (Frame.readU32 data kFrameLenOffset) := by
    rw [List.drop_append_of_le_length (by omega),
      List.take_append_of_le_length (by rw [List.length_drop]; omega)]
  rw [if_neg hover, if_neg hover, if_neg hpart, if_neg (by omega), hcontent, hsum, hpayload]

theorem decodeFrame_consumed {data : List UInt8} {msg : FramedMessage} {consumed : ℕ}
    (h : decodeFrame data = .ok (msg, consumed)) : 0 < consumed ∧ consumed ≤ data.length := by
  have hheader : kFrameHeaderLen = 15 := rfl
  unfold decodeFrame at h
  dsimp only at h
  split_ifs at h with _ _ _ _ hpart
  obtain ⟨-, rfl⟩ := Prod.mk.inj (Except.ok.inj h)
  exact ⟨by omega, not_lt.mp hpart⟩

section RoundTrip

open BinaryWriter

variable (msg : FramedMessage)

theorem length_frameHeader : (frameHeader msg).length = kFrameHeaderLen := by
  simp only [frameHeader, List.length_append, writeU32, writeU8, length_littleEndian,
    List.length_singleton]
  rfl

theorem frameHeader_eq : frameHeader msg =
    littleEndian 4 kFrameMagic ++ ([kFrameVersion, msg.type.code, 0] ++
      (littleEndian 4 msg.seq.toNat ++ littleEndian 4 msg.payload.length)) := by
  simp only [frameHeader, writeU32, writeU8, List.append_assoc, List.cons_append, List.nil_append]

theorem readU32_frameHeader (c : List UInt8) (hpayload : msg.payload.length ≤ kMaxFramePayload) :
    Frame.readU32 (frameHeader msg ++ c) 0 = kFrameMagic ∧
      Frame.readU32 (frameHeader msg ++ c) kFrameSeqOffset = msg.seq.toNat ∧
      Frame.readU32 (frameHeader msg ++ c) kFrameLenOffset = msg.payload.length := by
  have hmax : kMaxFramePayload = 4194304 := rfl
  have hseq := msg.seq.toNat_lt
  rw [frameHeader_eq]
  refine ⟨?_, ?_, ?_⟩
  · rw [List.append_assoc]
    exact Frame.readBytes_littleEndian (a := []) (by decide) rfl _
  · have hat : (littleEndian 4 kFrameMagic ++ [kFrameVersion, msg.type.code, 0]).length =
        kFrameSeqOffset := rfl
    have h := Frame.readBytes_littleEndian (k := 4) (n := msg.seq.toNat) (by omega) hat
      (littleEndian 4 msg.payload.length ++ c)
    simpa only [Frame.readU32, List.append_assoc] using h
  · have hat : (littleEndian 4 kFrameMagic ++ ([kFrameVersion, msg.type.code, 0] ++
        littleEndian 4 msg.seq.toNat)).length = kFrameLenOffset := rfl
    have h := Frame.readBytes_littleEndian (k := 4) (n := msg.payload.length) (by omega) hat c
    simpa only [Frame.readU32, List.append_assoc] using h

theorem getD_frameHeader (c : List UInt8) :
    (frameHeader msg ++ c).getD 4 0 = kFrameVersion ∧
      (frameHeader msg ++ c).getD 5 0 = msg.type.code := by
  rw [frameHeader_eq]
  exact ⟨rfl, rfl⟩

variable {msg}

/-- What was encoded is decoded, whatever follows it. -/
theorem decodeFrame_encodeFrame {frame : List UInt8} (h : encodeFrame msg = .ok frame)
    (rest : List UInt8) : decodeFrame (frame ++ rest) = .ok (msg, frame.length) := by
  unfold encodeFrame at h
  split_ifs at h with hover
  obtain rfl := Except.ok.inj h
  let out := frameHeader msg ++ msg.payload
  let tail := msg.payload ++ (writeU64 (fnv1a out) ++ rest)
  have hdata : out ++ writeU64 (fnv1a out) ++ rest = frameHeader msg ++ tail := by
    simp only [out, tail, List.append_assoc]
  have hout : out.length = kFrameHeaderLen + msg.payload.length := by
    rw [List.length_append, length_frameHeader]
  have hframe : (out ++ writeU64 (fnv1a out)).length =
      kFrameHeaderLen + msg.payload.length + kChecksumLen := by
    rw [List.length_append, hout, writeU64, length_littleEndian]
    rfl
  have hlong : (frameHeader msg ++ tail).length =
      kFrameHeaderLen + msg.payload.length + kChecksumLen + rest.length := by
    rw [← hdata, List.length_append, hframe]
  -- Each field is read back from where it was written.
  obtain ⟨hmagic, hseq, hlen⟩ := readU32_frameHeader msg tail (not_lt.mp hover)
  obtain ⟨hversion, htype⟩ := getD_frameHeader msg tail
  have htake : (frameHeader msg ++ tail).take (kFrameHeaderLen + msg.payload.length) = out := by
    rw [← hdata, List.append_assoc]
    exact List.take_left' hout
  have hdrop : (frameHeader msg ++ tail).drop kFrameHeaderLen = tail :=
    List.drop_left' (length_frameHeader msg)
  have hpayload : tail.take msg.payload.length = msg.payload := List.take_left' rfl
  have hsum : Frame.readU64 (frameHeader msg ++ tail) (kFrameHeaderLen + msg.payload.length) =
      (fnv1a out).toNat := by
    rw [← hdata, List.append_assoc]
    exact Frame.readBytes_littleEndian ((fnv1a out).toNat_lt.trans_eq (by norm_num)) hout rest
  change decodeFrame (out ++ writeU64 (fnv1a out) ++ rest) = _
  rw [hdata, decodeFrame, if_neg (by omega), hmagic, if_neg (not_not.mpr rfl), hversion,
    if_neg (not_not.mpr rfl), hlen]
  dsimp only
  rw [if_neg hover, if_neg (by omega), htake, hsum, if_neg (not_not.mpr rfl), htype, hseq, hdrop,
    hpayload, MessageType.ofCode_code, UInt32.ofNat_toNat, hframe]

end RoundTrip

open Framing

/-- A truncated frame is one that is not complete yet. -/
def frameVerdict : Except FrameError (FramedMessage × ℕ) → Verdict FramedMessage FrameError
  | .ok (msg, consumed) => .frame msg consumed
  | .error .truncated => .incomplete
  | .error err => .corrupt err

theorem eq_ok_of_frameVerdict {r : Except FrameError (FramedMessage × ℕ)} {msg : FramedMessage}
    {consumed : ℕ} (h : frameVerdict r = .frame msg consumed) : r = .ok (msg, consumed) := by
  rcases r with err | ⟨msg', consumed'⟩
  · cases err <;> exact absurd h (by simp [frameVerdict])
  · obtain ⟨rfl, rfl⟩ := Verdict.frame.inj h
    rfl

def frameDecoder : Decoder UInt8 FramedMessage FrameError where
  decode data := frameVerdict (decodeFrame data)
  consumed_pos h := (decodeFrame_consumed (eq_ok_of_frameVerdict h)).1
  consumed_le h := (decodeFrame_consumed (eq_ok_of_frameVerdict h)).2
  decode_append h c :=
    congrArg frameVerdict (decodeFrame_append (fun htruncated => h (by rw [htruncated]; rfl)) c)

theorem FrameBuffer.pop_spec (b : FrameBuffer) :
    match b.pop with
    | (b', .ok msg) => ∃ consumed,
      frameDecoder.decode b.buf = .frame msg consumed ∧ b'.buf = b.buf.drop consumed
    | (b', .error .truncated) => frameDecoder.decode b.buf = .incomplete ∧ b' = b
    | (_, .error err) => frameDecoder.decode b.buf = .corrupt err := by
  have hdecode : frameDecoder.decode b.buf = frameVerdict (decodeFrame b.buf) := rfl
  unfold pop
  rw [hdecode]
  rcases decodeFrame b.buf with err | ⟨msg, consumed⟩
  · cases err with
    | truncated => exact ⟨rfl, rfl⟩
    | _ => rfl
  · exact ⟨consumed, rfl, rfl⟩

/-- What `recvFrame` returns is decided by the stream, the buffer and the chunks together. -/
theorem decode_of_recvFrame (inbuf : FrameBuffer) (chunks : List (List UInt8)) :
    match recvFrame inbuf chunks with
    | .delivered msg inbuf' chunks' => ∃ consumed,
      frameDecoder.decode (inbuf.buf ++ chunks.flatten) = .frame msg consumed ∧
        inbuf'.buf ++ chunks'.flatten = (inbuf.buf ++ chunks.flatten).drop consumed
    | .corrupt err => frameDecoder.decode (inbuf.buf ++ chunks.flatten) = .corrupt err
    | .waiting inbuf' => frameDecoder.decode (inbuf.buf ++ chunks.flatten) = .incomplete ∧
      inbuf'.buf = inbuf.buf ++ chunks.flatten := by
  fun_induction recvFrame inbuf chunks with
  | case1 inbuf inbuf' msg chunks hpop =>
    have hspec := inbuf.pop_spec
    rw [hpop] at hspec
    obtain ⟨consumed, hdecode, hbuf⟩ := hspec
    refine ⟨consumed, ?_, ?_⟩
    · rw [frameDecoder.decode_append (by simp [hdecode]), hdecode]
    · rw [hbuf, List.drop_append_of_le_length (frameDecoder.consumed_le hdecode)]
  | case2 inbuf inbuf' hpop =>
    have hspec := inbuf.pop_spec
    rw [hpop] at hspec
    obtain ⟨hdecode, rfl⟩ := hspec
    rw [List.flatten_nil, List.append_nil]
    exact ⟨hdecode, rfl⟩
  | case3 inbuf inbuf' chunk chunks hpop ih =>
    have hspec := inbuf.pop_spec
    rw [hpop] at hspec
    obtain ⟨-, rfl⟩ := hspec
    -- The chunk moves from the stream into the buffer; the whole stays the same.
    have hstream : inbuf'.buf ++ (chunk :: chunks).flatten =
        (inbuf'.append chunk).buf ++ chunks.flatten := (List.append_assoc _ _ _).symm
    rw [hstream]
    exact ih
  | case4 chunks inbuf inbuf' err hpop hnil hcons =>
    have hspec := inbuf.pop_spec
    rw [hpop] at hspec
    have hdecode : frameDecoder.decode inbuf.buf = .corrupt err := by
      cases err with
      | truncated => cases chunks with
        | nil => exact absurd rfl (hnil rfl)
        | cons chunk chunks => exact absurd rfl (hcons chunk chunks rfl)
      | _ => exact hspec
    change frameDecoder.decode _ = _
    rw [frameDecoder.decode_append (by simp [hdecode]), hdecode]

/-- Receives frames until no more can be had: the chunks are used up or the stream is corrupt. -/
def receiveFrames (inbuf : FrameBuffer) (chunks : List (List UInt8)) :
    List FramedMessage × Ending UInt8 FrameError :=
  match _h : recvFrame inbuf chunks with
  | .delivered msg inbuf' chunks' =>
    ((msg :: (receiveFrames inbuf' chunks').1), (receiveFrames inbuf' chunks').2)
  | .corrupt err => ([], .corrupt err)
  | .waiting inbuf' => ([], .waiting inbuf'.buf)
termination_by inbuf.buf.length + chunks.flatten.length
decreasing_by
  all_goals
    have hspec := decode_of_recvFrame inbuf chunks
    rw [_h] at hspec
    obtain ⟨consumed, hdecode, hrest⟩ := hspec
    have hpos := frameDecoder.consumed_pos hdecode
    have hle := frameDecoder.consumed_le hdecode
    have hlength := congrArg List.length hrest
    rw [List.length_append, List.length_drop] at hlength
    rw [List.length_append] at hle hlength
    omega

theorem receiveFrames_eq_drain (inbuf : FrameBuffer) (chunks : List (List UInt8)) :
    receiveFrames inbuf chunks = frameDecoder.drain (inbuf.buf ++ chunks.flatten) := by
  fun_induction receiveFrames inbuf chunks with
  | case1 inbuf chunks msg inbuf' chunks' h ih =>
    have hspec := decode_of_recvFrame inbuf chunks
    rw [h] at hspec
    obtain ⟨consumed, hdecode, hrest⟩ := hspec
    rw [Decoder.drain_frame hdecode, ← hrest, ih]
  | case2 inbuf chunks err h =>
    have hspec := decode_of_recvFrame inbuf chunks
    rw [h] at hspec
    rw [Decoder.drain_corrupt hspec]
  | case3 inbuf chunks inbuf' h =>
    have hspec := decode_of_recvFrame inbuf chunks
    rw [h] at hspec
    rw [Decoder.drain_incomplete hspec.1, hspec.2]

/-- What is received of a stream does not depend on how it is cut into chunks, and encoded
messages are received as they were sent. -/
theorem framing_ignores_chunks (stream : List UInt8) :
    (∀ chunks chunks' : List (List UInt8), chunks.flatten = stream → chunks'.flatten = stream →
      receiveFrames {} chunks = receiveFrames {} chunks') ∧
    ∀ (msgs : List FramedMessage) (frames : List (List UInt8)),
      List.Forall₂ (fun msg frame => encodeFrame msg = .ok frame) msgs frames →
      frames.flatten = stream → ∀ chunks : List (List UInt8), chunks.flatten = stream →
        receiveFrames {} chunks = (msgs, .waiting []) := by
  constructor
  · intro chunks chunks' h h'
    rw [receiveFrames_eq_drain, receiveFrames_eq_drain, h, h']
  · intro msgs frames hframes hstream chunks h
    have hencodes : List.Forall₂ (Decoder.Encodes frameDecoder) msgs frames :=
      hframes.imp fun _ _ hencode rest =>
        congrArg frameVerdict (decodeFrame_encodeFrame hencode rest)
    rw [receiveFrames_eq_drain, h, ← hstream]
    exact Decoder.drain_flatten rfl hencodes

end CapacityFabric
