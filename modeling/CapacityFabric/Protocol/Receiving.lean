import CapacityFabric.Foundation.Runs
import CapacityFabric.Protocol.Frame

/-!
# The receive buffer

The loop of `recvFrame` one step at a time, over any number of calls and against any
peer.  It reads only while the buffer holds less than one frame, so that what is
buffered stays bounded.
-/

namespace CapacityFabric

def kRecvBufLen : ℕ := 4096

def maxFrameLen : ℕ := kFrameHeaderLen + kMaxFramePayload + kChecksumLen

def FrameBuffer.buffered (b : FrameBuffer) : ℕ := b.buf.length

/-- The bytes of one read.  A read of none means that the peer has closed. -/
structure Chunk where
  bytes : List UInt8
  nonempty : bytes ≠ []
  bounded : bytes.length ≤ kRecvBufLen

/-- What `recvSome` answers. -/
inductive RecvAnswer
  | bytes (chunk : Chunk)
  | wouldBlock
  | closed
  | failed

/-- How a call of `recvFrame` returns. -/
inductive RecvReturn
  | delivered (msg : FramedMessage)
  | corrupt (err : FrameError)
  | peerClosed
  | failed

/-- Where the handler of a connection stands. -/
inductive RecvStage
  /-- Between two calls, of which the last returned so. -/
  | returned (last : Option RecvReturn)
  | looping
  /-- No frame is complete, and `recvSome` is called. -/
  | reading

structure Receiver where
  inbuf : FrameBuffer := {}
  stage : RecvStage := .returned none

theorem recvFrame_of_frame {b b' : FrameBuffer} {msg : FramedMessage} (h : b.pop = (b', .ok msg))
    (chunks : List (List UInt8)) : recvFrame b chunks = .delivered msg b' chunks := by
  unfold recvFrame
  rw [h]

theorem recvFrame_of_corrupt {b b' : FrameBuffer} {err : FrameError} (h : b.pop = (b', .error err))
    (herr : err ≠ .truncated) (chunks : List (List UInt8)) : recvFrame b chunks = .corrupt err := by
  unfold recvFrame
  rw [h]
  cases err with
  | truncated => exact absurd rfl herr
  | _ => rfl

theorem recvFrame_of_truncated {b b' : FrameBuffer} (h : b.pop = (b', .error .truncated))
    (chunk : List UInt8) (chunks : List (List UInt8)) :
    recvFrame b (chunk :: chunks) = recvFrame (b'.append chunk) chunks := by
  conv_lhs => unfold recvFrame
  rw [h]

theorem recvFrame_nil_of_truncated {b b' : FrameBuffer} (h : b.pop = (b', .error .truncated)) :
    recvFrame b [] = .waiting b' := by
  unfold recvFrame
  rw [h]

namespace Receiver

/-- The points of `recvFrame`: its call, its `pop` and the answer to its `recvSome`. -/
inductive Event
  | call
  | pop
  | answer (a : RecvAnswer)

/-- One step.  An event that is not the next one of the loop does not happen. -/
def step (r : Receiver) : Event → Receiver
  | .call =>
    match r.stage with
    | .returned _ => { r with stage := .looping }
    | _ => r
  | .pop =>
    match r.stage with
    | .looping =>
      match r.inbuf.pop with
      | (inbuf, .ok msg) => ⟨inbuf, .returned (some (.delivered msg))⟩
      -- Not enough bytes for a complete frame yet.
      | (inbuf, .error .truncated) => ⟨inbuf, .reading⟩
      | (inbuf, .error err) => ⟨inbuf, .returned (some (.corrupt err))⟩
    | _ => r
  | .answer a =>
    match r.stage with
    | .reading =>
      match a with
      | .bytes chunk => ⟨r.inbuf.append chunk.bytes, .looping⟩
      | .wouldBlock => { r with stage := .looping }
      | .closed => { r with stage := .returned (some .peerClosed) }
      | .failed => { r with stage := .returned (some .failed) }
    | _ => r

/-- The states of a connection, whatever the peer sends and however it is cut. -/
abbrev Reachable (r : Receiver) : Prop := Runs.Reachable step {} r

theorem length_lt_of_truncated {data : List UInt8} (h : decodeFrame data = .error .truncated) :
    data.length < maxFrameLen := by
  have hmax : maxFrameLen = kFrameHeaderLen + kMaxFramePayload + kChecksumLen := rfl
  unfold decodeFrame at h
  dsimp only at h
  split_ifs at h with hheader hmagic hversion hover hpart hsum
  · omega
  · exact absurd h (by simp)
  · exact absurd h (by simp)
  · exact absurd h (by simp)
  · omega
  · exact absurd h (by simp)

theorem buffered_pop_le (b : FrameBuffer) : b.pop.1.buffered ≤ b.buffered := by
  unfold FrameBuffer.pop FrameBuffer.buffered
  rcases decodeFrame b.buf with err | ⟨msg, consumed⟩
  · cases err with
    | truncated => exact le_rfl
    | _ => exact Nat.zero_le _
  · show (b.buf.drop consumed).length ≤ b.buf.length
    rw [List.length_drop]
    omega

theorem pop_truncated {b b' : FrameBuffer} (h : b.pop = (b', .error .truncated)) :
    b' = b ∧ b.buffered < maxFrameLen := by
  have hspec := b.pop_spec
  rw [h] at hspec
  refine ⟨hspec.2, ?_⟩
  have hdecode : decodeFrame b.buf = .error .truncated := by
    unfold FrameBuffer.pop at h
    rcases hdata : decodeFrame b.buf with err | ⟨msg, consumed⟩
    · cases err <;> simp_all
    · simp [hdata] at h
  exact length_lt_of_truncated hdecode

/-- The steps that read the chunks, each after a `pop` that has found no complete frame. -/
def reads (chunks : List Chunk) : List Event := chunks.flatMap fun c => [.pop, .answer (.bytes c)]

theorem reads_cons (c : Chunk) (chunks : List Chunk) :
    reads (c :: chunks) = .pop :: .answer (.bytes c) :: reads chunks := rfl

theorem corrupt_pop {b b' : FrameBuffer} {err : FrameError} (h : b.pop = (b', .error err))
    (herr : err ≠ .truncated) : b' = {} := by
  unfold FrameBuffer.pop at h
  rcases hdata : decodeFrame b.buf with err' | ⟨msg, consumed⟩
  · cases err' <;> simp_all
  · simp [hdata] at h

theorem run_reads_cons {inbuf inbuf' : FrameBuffer} (h : inbuf.pop = (inbuf', .error .truncated))
    (c : Chunk) (chunks : List Chunk) :
    Runs.run step ⟨inbuf, .looping⟩ (reads (c :: chunks) ++ [.pop]) =
      Runs.run step ⟨inbuf'.append c.bytes, .looping⟩ (reads chunks ++ [.pop]) := by
  rw [reads_cons, List.cons_append, List.cons_append, Runs.run_cons, Runs.run_cons]
  simp only [step, h]

/-- The steps take the call where `recvFrame` takes it. -/
theorem run_of_recvFrame (inbuf : FrameBuffer) (chunks : List Chunk) :
    match recvFrame inbuf (chunks.map Chunk.bytes) with
    | .delivered msg inbuf' rest => ∃ read unread, chunks = read ++ unread ∧
      rest = unread.map Chunk.bytes ∧
        Runs.run step ⟨inbuf, .looping⟩ (reads read ++ [.pop]) =
          ⟨inbuf', .returned (some (.delivered msg))⟩
    | .corrupt err => ∃ read unread, chunks = read ++ unread ∧
      Runs.run step ⟨inbuf, .looping⟩ (reads read ++ [.pop]) =
        ⟨{}, .returned (some (.corrupt err))⟩
    | .waiting inbuf' =>
      Runs.run step ⟨inbuf, .looping⟩ (reads chunks ++ [.pop]) = ⟨inbuf', .reading⟩ := by
  induction chunks generalizing inbuf with
  | nil =>
    rcases hpop : inbuf.pop with ⟨inbuf', err | msg⟩
    · by_cases herr : err = .truncated
      · subst herr
        rw [List.map_nil, recvFrame_nil_of_truncated hpop]
        simp [reads, step, hpop]
      · rw [recvFrame_of_corrupt hpop herr]
        exact ⟨[], [], rfl, by rw [← corrupt_pop hpop herr]; simp [reads, step, hpop]⟩
    · rw [recvFrame_of_frame hpop]
      exact ⟨[], [], rfl, rfl, by simp [reads, step, hpop]⟩
  | cons c chunks ih =>
    rcases hpop : inbuf.pop with ⟨inbuf', err | msg⟩
    · by_cases herr : err = .truncated
      · -- The chunk is appended, and the loop goes on.
        subst herr
        have hrest := ih (inbuf'.append c.bytes)
        rw [List.map_cons, recvFrame_of_truncated hpop]
        cases hrecv : recvFrame (inbuf'.append c.bytes) (chunks.map Chunk.bytes) with
        | delivered msg inbuf'' rest =>
          rw [hrecv] at hrest
          obtain ⟨read, unread, hchunks, hunread, hrun⟩ := hrest
          exact ⟨c :: read, unread, congrArg (c :: ·) hchunks, hunread,
            (run_reads_cons hpop c read).trans hrun⟩
        | corrupt err =>
          rw [hrecv] at hrest
          obtain ⟨read, unread, hchunks, hrun⟩ := hrest
          exact ⟨c :: read, unread, congrArg (c :: ·) hchunks,
            (run_reads_cons hpop c read).trans hrun⟩
        | waiting inbuf'' =>
          rw [hrecv] at hrest
          exact (run_reads_cons hpop c chunks).trans hrest
      · rw [recvFrame_of_corrupt hpop herr]
        exact ⟨[], c :: chunks, rfl,
          by rw [← corrupt_pop hpop herr]; simp [reads, step, hpop]⟩
    · rw [recvFrame_of_frame hpop]
      exact ⟨[], c :: chunks, rfl, rfl, by simp [reads, step, hpop]⟩

/-- A read finds less than a frame in the buffer, and adds less than its array holds. -/
structure Bounded (r : Receiver) : Prop where
  reading : r.stage = .reading → r.inbuf.buffered < maxFrameLen
  always : r.inbuf.buffered < maxFrameLen + kRecvBufLen

theorem bounded_step {r : Receiver} (h : r.Bounded) (e : Event) : (r.step e).Bounded := by
  obtain ⟨inbuf, stage⟩ := r
  obtain ⟨hreading, halways⟩ := h
  cases e with
  | call =>
    cases stage with
    | returned last => exact ⟨(nomatch ·), halways⟩
    | _ => exact ⟨hreading, halways⟩
  | pop =>
    cases stage with
    | looping =>
      have hle := buffered_pop_le inbuf
      unfold step
      rcases hpop : inbuf.pop with ⟨inbuf', err | msg⟩
      · rw [hpop] at hle
        cases err with
        | truncated =>
          -- The only way to another read, with less than a frame left over.
          obtain ⟨rfl, hlt⟩ := pop_truncated hpop
          exact ⟨fun _ => hlt, halways⟩
        | _ => exact ⟨(nomatch ·), lt_of_le_of_lt hle halways⟩
      · rw [hpop] at hle
        exact ⟨(nomatch ·), lt_of_le_of_lt hle halways⟩
    | _ => exact ⟨hreading, halways⟩
  | answer a =>
    cases stage with
    | reading =>
      cases a with
      | bytes chunk =>
        refine ⟨(nomatch ·), ?_⟩
        have hlt : inbuf.buffered < maxFrameLen := hreading rfl
        have hchunk := chunk.bounded
        show (inbuf.buf ++ chunk.bytes).length < maxFrameLen + kRecvBufLen
        rw [List.length_append]
        exact Nat.add_lt_add_of_lt_of_le hlt hchunk
      | _ => exact ⟨(nomatch ·), halways⟩
    | _ => exact ⟨hreading, halways⟩

/-- Whatever the peer sends, less than a frame and one read is buffered. -/
theorem receive_buffer_bounded {r : Receiver} (h : Reachable r) :
    r.inbuf.buffered < kFrameHeaderLen + kMaxFramePayload + 8 + 4096 := by
  have hinit : Bounded {} := ⟨(nomatch ·), by decide⟩
  have hstep : ∀ (s : Receiver) (e : Event), s.Bounded → (s.step e).Bounded :=
    fun _ e hs => bounded_step hs e
  exact (h.invariant hinit hstep).always

def startedFrame : Receiver :=
  Runs.run step {} [.call, .pop, .answer (.bytes ⟨[67, 70], by decide, by decide⟩), .pop]

theorem receive_buffer_bounded_startedFrame :
    startedFrame.inbuf.buffered < kFrameHeaderLen + kMaxFramePayload + 8 + 4096 :=
  receive_buffer_bounded (Runs.Reachable.init.run _)

end Receiver

end CapacityFabric
