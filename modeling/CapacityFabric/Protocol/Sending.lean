import CapacityFabric.Protocol.Frame

/-!
# Sending

The loop of `sendAll` against a socket that takes what it likes of what it is given, and
what the peer receives of the frames that were sent so.  A frame counts as sent only when
all of it was taken, and until a call fails in the middle of a frame the peer receives
nothing but sent frames.
-/

namespace CapacityFabric

open Framing

/-- The most that one call of `send` is given. -/
def kSendChunk : ℕ := 2 ^ 20

/-- What `send` answers: the number of bytes that the socket takes, or an error. -/
inductive SendAnswer
  | taken (n : ℕ)
  | failed

/-- How `sendAll` returns, or that it waits for the socket. -/
inductive SendReturn
  | sent
  | failed
  | blocked

/-- The bytes that the socket took, how the call returned and the answers not yet used. -/
structure SendResult where
  taken : List UInt8
  ret : SendReturn
  unused : List SendAnswer

def sendAll : List UInt8 → List SendAnswer → SendResult
  | [], answers => ⟨[], .sent, answers⟩
  | _ :: _, [] => ⟨[], .blocked, []⟩
  | _ :: _, .failed :: answers => ⟨[], .failed, answers⟩
  | b :: data, .taken n :: answers =>
    -- The socket takes no more than it is given.
    let k := min n (min (b :: data).length kSendChunk)
    if k = 0 then ⟨[], .failed, answers⟩
    else
      let r := sendAll ((b :: data).drop k) answers
      { r with taken := (b :: data).take k ++ r.taken }

def sendFrame (msg : FramedMessage) (answers : List SendAnswer) : SendResult :=
  match encodeFrame msg with
  | .error _ => ⟨[], .failed, answers⟩
  | .ok bytes => sendAll bytes answers

/-- The calls for one message after the other on a connection.  A call that fails does not
keep the caller from the next one. -/
def sendFrames : List FramedMessage → List SendAnswer → List (FramedMessage × SendResult)
  | [], _ => []
  | msg :: msgs, answers =>
    let r := sendFrame msg answers
    match r.ret with
    -- The call has not returned, so that none follows.
    | .blocked => [(msg, r)]
    | _ => (msg, r) :: sendFrames msgs r.unused

def streamOf (calls : List (FramedMessage × SendResult)) : List UInt8 :=
  calls.flatMap fun call => call.2.taken

/-- Whether the call failed after the socket had taken a part of the frame, so that the next
frame begins in the middle of this one. -/
def SendResult.tears (r : SendResult) : Bool :=
  match r.ret with
  | .failed => !r.taken.isEmpty
  | _ => false

def SendResult.succeeded (r : SendResult) : Bool :=
  match r.ret with
  | .sent => true
  | _ => false

/-- The messages whose call succeeded before any frame was torn. -/
def reported (calls : List (FramedMessage × SendResult)) : List FramedMessage :=
  ((calls.takeWhile fun call => !call.2.tears).filter fun call => call.2.succeeded).map Prod.fst

/-- What is taken is a first part of the data, and all of it only when the call succeeds. -/
theorem sendAll_spec (data : List UInt8) (answers : List SendAnswer) :
    ∃ rest, data = (sendAll data answers).taken ++ rest ∧
      ((sendAll data answers).ret = .sent ↔ rest = []) := by
  fun_induction sendAll data answers with
  | case1 answers => exact ⟨[], rfl, by simp⟩
  | case2 b data => exact ⟨b :: data, rfl, by simp⟩
  | case3 b data answers => exact ⟨b :: data, rfl, by simp⟩
  | case4 b data n answers k hk => exact ⟨b :: data, rfl, by simp⟩
  | case5 b data n answers k hk r ih =>
    obtain ⟨rest, hdata, hsent⟩ := ih
    refine ⟨rest, ?_, hsent⟩
    rw [List.append_assoc, ← hdata, List.take_append_drop]

/-- A frame is sent whole, or a part of one that the peer cannot take for it. -/
theorem sendFrame_spec (msg : FramedMessage) (answers : List SendAnswer) :
    ((sendFrame msg answers).ret = .sent ∧ frameDecoder.Encodes msg (sendFrame msg answers).taken) ∨
      ((sendFrame msg answers).ret ≠ .sent ∧ ∀ part, part <+: (sendFrame msg answers).taken →
        frameDecoder.decode part = .incomplete) := by
  unfold sendFrame
  cases hencode : encodeFrame msg with
  | error err =>
    refine Or.inr ⟨SendReturn.noConfusion, fun part hpart => ?_⟩
    rw [List.prefix_nil.mp hpart]
    rfl
  | ok bytes =>
    have hencodes : frameDecoder.Encodes msg bytes := fun rest =>
      congrArg frameVerdict (decodeFrame_encodeFrame hencode rest)
    obtain ⟨rest, hbytes, hsent⟩ := sendAll_spec bytes answers
    dsimp only
    by_cases hrest : rest = []
    · left
      rw [hrest, List.append_nil] at hbytes
      exact ⟨hsent.mpr hrest, hbytes ▸ hencodes⟩
    · refine Or.inr ⟨fun h => hrest (hsent.mp h), fun part hpart => ?_⟩
      refine hencodes.decode_part (hpart.trans ⟨rest, hbytes.symm⟩) fun heq => hrest ?_
      have hle := hpart.length_le
      have hlength := congrArg List.length hbytes
      rw [List.length_append] at hlength
      rw [heq] at hle
      exact List.eq_nil_of_length_eq_zero (by omega)

theorem reported_cons_torn {msg : FramedMessage} {r : SendResult} (h : r.tears = true)
    (calls : List (FramedMessage × SendResult)) : reported ((msg, r) :: calls) = [] := by
  simp [reported, h]

/-- What the receiver has made of the bytes that have arrived: the first of the reported
messages and then nothing, or all of them and then what it takes a torn frame for. -/
def Delivers (calls : List (FramedMessage × SendResult)) (arrived : List UInt8)
    (received : List FramedMessage × Ending UInt8 FrameError) : Prop :=
  ∃ k more ending, received = ((reported calls).take k ++ more, ending) ∧
    ((more = [] ∧ ∃ rest, ending = .waiting rest) ∨
      (k = (reported calls).length ∧ ∃ call ∈ calls, call.2.tears = true)) ∧
    (arrived = streamOf calls → k = (reported calls).length)

theorem delivers_of_incomplete {calls : List (FramedMessage × SendResult)} {arrived : List UInt8}
    (h : frameDecoder.decode arrived = .incomplete)
    (hall : arrived = streamOf calls → reported calls = []) :
    Delivers calls arrived (frameDecoder.drain arrived) := by
  refine ⟨0, [], .waiting arrived, Decoder.drain_incomplete h, Or.inl ⟨rfl, _, rfl⟩, fun heq => ?_⟩
  rw [hall heq]
  rfl

/-- A frame that has arrived whole comes out before what follows it. -/
theorem Delivers.cons_sent {msg : FramedMessage} {out : List UInt8} {answers : List SendAnswer}
    {calls : List (FramedMessage × SendResult)} {arrived : List UInt8}
    (hencodes : frameDecoder.Encodes msg out)
    (h : Delivers calls arrived (frameDecoder.drain arrived)) :
    Delivers ((msg, ⟨out, .sent, answers⟩) :: calls) (out ++ arrived)
      (frameDecoder.drain (out ++ arrived)) := by
  obtain ⟨k, more, ending, hdrain, hcase, hall⟩ := h
  refine ⟨k + 1, more, ending, ?_, hcase.imp_right ?_, fun heq => ?_⟩
  · rw [hencodes.drain_append, hdrain]
    rfl
  · rintro ⟨hk, call, hcall, htears⟩
    exact ⟨congrArg (· + 1) hk, call, List.mem_cons_of_mem _ hcall, htears⟩
  · exact congrArg (· + 1) (hall (List.append_cancel_left heq))

/-- A call of which the socket took nothing leaves no trace. -/
theorem Delivers.cons_failed {msg : FramedMessage} {answers : List SendAnswer}
    {calls : List (FramedMessage × SendResult)} {arrived : List UInt8}
    (h : Delivers calls arrived (frameDecoder.drain arrived)) :
    Delivers ((msg, ⟨[], .failed, answers⟩) :: calls) arrived (frameDecoder.drain arrived) := by
  obtain ⟨k, more, ending, hdrain, hcase, hall⟩ := h
  refine ⟨k, more, ending, hdrain, hcase.imp_right ?_, hall⟩
  rintro ⟨hk, call, hcall, htears⟩
  exact ⟨hk, call, List.mem_cons_of_mem _ hcall, htears⟩

theorem delivers_drain (msgs : List FramedMessage) (answers : List SendAnswer)
    {arrived : List UInt8} (h : arrived <+: streamOf (sendFrames msgs answers)) :
    Delivers (sendFrames msgs answers) arrived (frameDecoder.drain arrived) := by
  induction msgs generalizing answers arrived with
  | nil =>
    rw [List.prefix_nil.mp h]
    exact delivers_of_incomplete rfl fun _ => rfl
  | cons msg msgs ih =>
    have hspec := sendFrame_spec msg answers
    unfold sendFrames at h ⊢
    rcases hsend : sendFrame msg answers with ⟨out, ret, answers'⟩
    rw [hsend] at h hspec
    cases ret with
    | sent =>
      have hencodes := (hspec.resolve_right fun hno => hno.1 rfl).2
      dsimp only at h hencodes ⊢
      rw [streamOf, List.flatMap_cons] at h
      by_cases hwhole : out <+: arrived
      · obtain ⟨b, rfl⟩ := hwhole
        exact (ih answers' ((List.prefix_append_right_inj out).mp h)).cons_sent hencodes
      · have hpart : arrived <+: out :=
          (List.prefix_or_prefix_of_prefix h (List.prefix_append out _)).resolve_right hwhole
        have hne : arrived ≠ out := fun heq => hwhole (heq ▸ List.prefix_rfl)
        refine delivers_of_incomplete (hencodes.decode_part hpart hne) fun heq => ?_
        exact absurd ⟨_, heq.symm⟩ hwhole
    | failed =>
      have hincomplete := (hspec.resolve_left fun hsent => SendReturn.noConfusion hsent.1).2
      dsimp only at h hincomplete ⊢
      by_cases hout : out = []
      · subst hout
        exact (ih answers' h).cons_failed
      · -- The frame is torn, and nothing is promised of what follows.
        have htears : (⟨out, .failed, answers'⟩ : SendResult).tears = true := by
          simp [SendResult.tears, hout]
        refine ⟨0, (frameDecoder.drain arrived).1, (frameDecoder.drain arrived).2, rfl,
          Or.inr ⟨?_, _, List.mem_cons_self, htears⟩, fun _ => ?_⟩ <;>
        rw [reported_cons_torn htears] <;> rfl
    | blocked =>
      have hincomplete := (hspec.resolve_left fun hsent => SendReturn.noConfusion hsent.1).2
      dsimp only at h hincomplete ⊢
      have harrived : arrived <+: out := by
        rwa [streamOf, List.flatMap_cons, List.flatMap_nil, List.append_nil] at h
      exact delivers_of_incomplete (hincomplete arrived harrived) fun _ => rfl

/-- However much the socket takes at a time, whichever calls fail and however what has
arrived is cut into chunks: the peer receives the first of the reported messages, in their
order, and all of them once everything has arrived.  It receives nothing else unless a frame
was torn, and then only after all of them. -/
theorem delivers_sent_messages (msgs : List FramedMessage) (answers : List SendAnswer)
    (chunks : List (List UInt8)) (h : chunks.flatten <+: streamOf (sendFrames msgs answers)) :
    Delivers (sendFrames msgs answers) chunks.flatten (receiveFrames {} chunks) := by
  rw [receiveFrames_eq_drain]
  exact delivers_drain msgs answers h

/-- Three greetings, of which the socket takes the first and the third. -/
def greetings : List FramedMessage := [⟨.hello, 1, []⟩, ⟨.hello, 2, []⟩, ⟨.hello, 3, []⟩]

theorem delivers_sent_messages_greetings :
    Delivers (sendFrames greetings [.taken 23, .failed, .taken 23])
      [streamOf (sendFrames greetings [.taken 23, .failed, .taken 23])].flatten
      (receiveFrames {} [streamOf (sendFrames greetings [.taken 23, .failed, .taken 23])]) :=
  delivers_sent_messages greetings _ _ (by simp)

/-- The peer has both. -/
example : reported (sendFrames greetings [.taken 23, .failed, .taken 23]) =
    [⟨.hello, 1, []⟩, ⟨.hello, 3, []⟩] := rfl

end CapacityFabric
