-- SUMMARY: The representation invariant of the BIO, and what each of its functions does to a state that satisfies it.
import Tcnative.Base.RingBuffer
import Tcnative.Bio.ByteBuffer

/-!
# Layout of the internal buffer

The invariant that the functions of the BIO keep, and one specification for
each function: the result it returns and every field it changes. A queueing
write is specified only where the queue does not already reach over the end of
the internal buffer; `writeToInternalBuffer_wrapped` says what it does there.
-/

namespace Bio
open CMem RingBuffer

/-- The representation invariant of `struct TCN_bio_bytebuffer`. -/
structure Layout (b : TcnBioBytebuffer) : Prop where
  size_pos : 0 < b.nonApplicationBufferSize
  size_jint : b.nonApplicationBufferSize < 0x80000000
  ring : (b.nonApplicationBuffer.length : Int) = b.nonApplicationBufferSize
  offset_nonneg : 0 ≤ b.nonApplicationBufferOffset
  offset_le : b.nonApplicationBufferOffset ≤ b.nonApplicationBufferSize
  length_nonneg : 0 ≤ b.nonApplicationBufferLength
  length_le : b.nonApplicationBufferLength ≤ b.nonApplicationBufferSize
  room_nonneg : 0 ≤ b.bufferLength
  room_jint : b.bufferLength < 0x80000000
  window : ∀ p, b.buffer = some p → 0 ≤ p.pos ∧ p.pos + b.bufferLength = p.block.length
  no_window : b.buffer = none → b.bufferLength = 0 ∧ b.bufferIsSSLWriteSink = false

/-- The bytes queued in the internal buffer, oldest first. -/
def TcnBioBytebuffer.queue (b : TcnBioBytebuffer) : List Byte :=
  contents b.nonApplicationBuffer b.nonApplicationBufferOffset.toNat
    b.nonApplicationBufferLength.toNat

theorem Layout.queue_length {b : TcnBioBytebuffer} (h : Layout b) :
    b.queue.length = b.nonApplicationBufferLength.toNat := by
  have := h.ring
  have := h.length_le
  exact contents_length (by omega)

theorem Layout.queue_eq_nil {b : TcnBioBytebuffer} (h : Layout b) :
    b.queue = [] ↔ b.nonApplicationBufferLength = 0 := by
  have := h.queue_length
  have := h.length_nonneg
  rw [← List.length_eq_zero_iff]
  omega

/-- A fresh BIO satisfies the invariant. -/
theorem layout_bioNewByteBuffer {size : Int} {mem : List Byte} {bio : JavaBio}
    (hsize : size < 0x80000000) (hmem : (mem.length : Int) = size)
    (h : bioNewByteBuffer size true (some mem) = .ok bio) : Layout bio.data := by
  simp only [bioNewByteBuffer, Jni.checkPositive] at h
  split at h
  · cases h
  rename_i hpos
  simp only [Bool.not_true, Bool.false_eq_true, if_false] at h
  cases h
  constructor <;> simp [bioJavaBytebufferCreate] <;> omega

/-! ## Draining -/

/-- The copies of a drain store the first `n` queued bytes behind the position
of the window. -/
theorem drainChunks_ok {b : TcnBioBytebuffer} (h : Layout b) {p : CharPtr}
    (hp : b.buffer = some p) {n : Int} (hn : 0 ≤ n) (hroom : n ≤ b.bufferLength)
    (hlen : n ≤ b.nonApplicationBufferLength) :
    drainChunks b p n (b.nonApplicationBufferSize - b.nonApplicationBufferOffset) =
      .ok (splice p.block p.pos.toNat
          (contents b.nonApplicationBuffer b.nonApplicationBufferOffset.toNat n.toNat),
        if n > b.nonApplicationBufferSize - b.nonApplicationBufferOffset then
          n - (b.nonApplicationBufferSize - b.nonApplicationBufferOffset)
        else b.nonApplicationBufferOffset + n) := by
  obtain ⟨hpos, hblock⟩ := h.window p hp
  have hring := h.ring
  have hoff := h.offset_nonneg
  have hoff' := h.offset_le
  have hlen' := h.length_le
  have hsize := h.size_jint
  unfold drainChunks
  split
  · rename_i hwrap
    -- Two copies: up to the end of the internal buffer, and on from its front.
    generalize hc : b.nonApplicationBufferSize - b.nonApplicationBufferOffset = c at *
    have hslice : (slice b.nonApplicationBuffer b.nonApplicationBufferOffset.toNat
        c.toNat).length = c.toNat := by
      simp only [slice_length]
      omega
    have hfirst : (splice p.block p.pos.toNat (slice b.nonApplicationBuffer
        b.nonApplicationBufferOffset.toNat c.toNat)).length = p.block.length :=
      splice_length (by omega)
    rw [jint_ok (by unfold IsJint; omega), contents_eq_slices (by omega)]
    simp only [bind, Except.bind]
    rw [memcpy_ok (by omega) hpos (by omega) hoff (by omega)]
    simp only
    rw [memcpy_ok (by omega) (by omega) (by omega) (by omega) (by omega)]
    have hjoin : (p.pos + c).toNat = p.pos.toNat + (slice b.nonApplicationBuffer
        b.nonApplicationBufferOffset.toNat c.toNat).length := by omega
    have hend : b.nonApplicationBuffer.length - b.nonApplicationBufferOffset.toNat = c.toNat := by
      omega
    rw [hjoin, splice_splice (by simp only [slice_length] at *; omega), hend]
    simp only [pure, Except.pure, Int.toNat_zero]
    congr 5
    omega
  · rw [memcpy_ok hn hpos (by omega) hoff (by omega), contents_eq_slice (by omega)]
    simp only [bind, Except.bind]
    rw [jint_ok (by unfold IsJint; omega)]
    rfl

/-- The state behind a drain of `n` bytes into the window at `p`. -/
def TcnBioBytebuffer.drained (b : TcnBioBytebuffer) (p : CharPtr) (n : Int) : TcnBioBytebuffer :=
  { b with
    buffer := some ⟨splice p.block p.pos.toNat (b.queue.take n.toNat), p.pos + n⟩
    nonApplicationBufferOffset :=
      if b.nonApplicationBufferLength - n = 0 then 0
      else if n > b.nonApplicationBufferSize - b.nonApplicationBufferOffset then
        n - (b.nonApplicationBufferSize - b.nonApplicationBufferOffset)
      else b.nonApplicationBufferOffset + n
    nonApplicationBufferLength := b.nonApplicationBufferLength - n
    bufferLength := b.bufferLength - n }

theorem Layout.queue_take {b : TcnBioBytebuffer} {n : Int}
    (hlen : n ≤ b.nonApplicationBufferLength) :
    b.queue.take n.toNat =
      contents b.nonApplicationBuffer b.nonApplicationBufferOffset.toNat n.toNat :=
  contents_take (by omega)

theorem Layout.queue_take_length {b : TcnBioBytebuffer} (h : Layout b) {n : Int}
    (hlen : n ≤ b.nonApplicationBufferLength) : (b.queue.take n.toNat).length = n.toNat := by
  have := h.queue_length
  rw [List.length_take]
  omega

theorem tcnFlushSslbufferToBytebuffer_ok {b : TcnBioBytebuffer} (h : Layout b) {p : CharPtr}
    (hp : b.buffer = some p) {n : Int} (hn : min b.bufferLength b.nonApplicationBufferLength = n) :
    tcnFlushSslbufferToBytebuffer b = .ok (n, b.drained p n) := by
  have hoff := h.offset_nonneg
  have hoff' := h.offset_le
  have hlen := h.length_nonneg
  have hlen' := h.length_le
  have hroom := h.room_nonneg
  have hsize := h.size_jint
  have hroom' := h.room_jint
  have hchunks := drainChunks_ok h hp (n := n) (by omega) (by omega) (by omega)
  simp only [tcnFlushSslbufferToBytebuffer, hp, hn, bind, Except.bind]
  rw [jint_ok (by unfold IsJint; omega)]
  simp only [hchunks]
  rw [jint_ok (by unfold IsJint; omega), jint_ok (by unfold IsJint; omega)]
  simp only [pure, Except.pure, TcnBioBytebuffer.drained,
    Layout.queue_take (b := b) (n := n) (by omega)]

/-- A drain moves the first bytes of the queue into the window and leaves the
others queued. -/
theorem Layout.drained_queue {b : TcnBioBytebuffer} (h : Layout b) (p : CharPtr) {n : Int}
    (hn : 0 ≤ n) (hlen : n ≤ b.nonApplicationBufferLength) :
    (b.drained p n).queue = b.queue.drop n.toNat := by
  have hring := h.ring
  have hoff := h.offset_nonneg
  have hoff' := h.offset_le
  have hlen' := h.length_le
  simp only [TcnBioBytebuffer.queue, TcnBioBytebuffer.drained]
  -- An empty queue has its offset reset, so its contents do not depend on it.
  by_cases hempty : b.nonApplicationBufferLength - n = 0
  · simp only [hempty, if_true, Int.toNat_zero, contents_zero]
    rw [List.drop_eq_nil_of_le]
    rw [contents_length (by omega)]
    omega
  · simp only [hempty, if_false]
    split
    · rw [contents_drop_wrap (by omega) (by omega) (by omega)]
      congr 1 <;> omega
    · rw [contents_drop (by omega)]
      congr 1 <;> omega

theorem Layout.drained {b : TcnBioBytebuffer} (h : Layout b) {p : CharPtr}
    (hp : b.buffer = some p) {n : Int} (hn : 0 ≤ n) (hroom : n ≤ b.bufferLength)
    (hlen : n ≤ b.nonApplicationBufferLength) : Layout (b.drained p n) := by
  obtain ⟨hpos, hblock⟩ := h.window p hp
  have hoff := h.offset_nonneg
  have hoff' := h.offset_le
  have hlen' := h.length_le
  have hroom' := h.room_jint
  have htaken := h.queue_take_length hlen
  constructor <;> simp only [TcnBioBytebuffer.drained]
  case size_pos => exact h.size_pos
  case size_jint => exact h.size_jint
  case ring => exact h.ring
  case offset_nonneg => split <;> [omega; split <;> omega]
  case offset_le => split <;> [omega; split <;> omega]
  case length_nonneg => omega
  case length_le => omega
  case room_nonneg => omega
  case room_jint => omega
  case window =>
    rintro q ⟨⟩
    simp only
    rw [splice_length (by omega)]
    omega
  case no_window => simp

/-! ## Queueing -/

/-- The copies of a queueing write append `n` bytes to the queue, provided the
queue does not already reach over the end of the internal buffer. -/
theorem queueChunks_ok {b : TcnBioBytebuffer} (h : Layout b)
    (hstart : b.nonApplicationBufferOffset + b.nonApplicationBufferLength ≤
      b.nonApplicationBufferSize)
    (inp : List Byte) (n : Int) (hn : 0 ≤ n) (hinp : n ≤ inp.length)
    (hfree : n ≤ b.nonApplicationBufferSize - b.nonApplicationBufferLength) :
    ∃ ring, queueChunks b inp (b.nonApplicationBufferOffset + b.nonApplicationBufferLength) n
        (b.nonApplicationBufferSize -
          (b.nonApplicationBufferOffset + b.nonApplicationBufferLength)) = .ok ring ∧
      ring.length = b.nonApplicationBuffer.length ∧
      contents ring b.nonApplicationBufferOffset.toNat
          (b.nonApplicationBufferLength + n).toNat = b.queue ++ inp.take n.toNat := by
  have hring := h.ring
  have hoff := h.offset_nonneg
  have hlen := h.length_nonneg
  have hsize := h.size_jint
  have hbs : (inp.take n.toNat).length = n.toNat := List.length_take_of_le (by omega)
  have hidx : (b.nonApplicationBufferOffset + b.nonApplicationBufferLength).toNat =
      b.nonApplicationBufferOffset.toNat + b.nonApplicationBufferLength.toNat := by omega
  have htotal : (b.nonApplicationBufferLength + n).toNat =
      b.nonApplicationBufferLength.toNat + (inp.take n.toNat).length := by omega
  unfold queueChunks
  split
  · rename_i hwrap
    -- The data is split where the internal buffer ends.
    generalize hc : b.nonApplicationBufferSize -
      (b.nonApplicationBufferOffset + b.nonApplicationBufferLength) = c at *
    have hfirst : slice inp 0 c.toNat = (inp.take n.toNat).take c.toNat := by
      rw [slice, List.drop_zero, List.take_take, Nat.min_eq_left (by omega)]
    have hsecond : slice inp c.toNat (n - c).toNat = (inp.take n.toNat).drop c.toNat := by
      rw [slice, List.drop_take]
      congr 1
      omega
    have hsplit : b.nonApplicationBuffer.length -
        (b.nonApplicationBufferOffset.toNat + b.nonApplicationBufferLength.toNat) = c.toNat := by
      omega
    have hfirst_length : ((inp.take n.toNat).take c.toNat).length = c.toNat := by
      simp only [List.length_take] at *
      omega
    have hring₁ : (splice b.nonApplicationBuffer
        (b.nonApplicationBufferOffset + b.nonApplicationBufferLength).toNat
        ((inp.take n.toNat).take c.toNat)).length = b.nonApplicationBuffer.length :=
      splice_length (by omega)
    rw [memcpy_ok (by omega) (by omega) (by omega) (by omega) (by omega), Int.toNat_zero, hfirst]
    simp only [bind, Except.bind]
    rw [jint_ok (by unfold IsJint; omega)]
    simp only
    rw [memcpy_ok (by omega) (by omega) (by omega) (by omega) (by omega), hsecond]
    refine ⟨_, rfl, ?_, ?_⟩
    · rw [splice_length (by simp only [List.length_drop, Int.toNat_zero]; omega), hring₁]
    · have := contents_splice_wrap b.nonApplicationBuffer (inp.take n.toNat)
        b.nonApplicationBufferOffset.toNat b.nonApplicationBufferLength.toNat
        (by omega) (by omega) (by omega)
      rw [hsplit] at this
      rw [Int.toNat_zero, hidx, htotal, this, TcnBioBytebuffer.queue]
  · rw [memcpy_ok hn (by omega) (by omega) (by omega) (by omega), Int.toNat_zero]
    have htake : slice inp 0 n.toNat = inp.take n.toNat := by rw [slice, List.drop_zero]
    refine ⟨_, rfl, ?_, ?_⟩
    · rw [htake, splice_length (by omega)]
    · rw [htake, hidx, htotal, contents_splice (by omega), TcnBioBytebuffer.queue]

/-- A queueing write into a full internal buffer asks to be repeated. -/
theorem writeToInternalBuffer_full {bio : JavaBio} (inp : List Byte) (inl : Int)
    (hfull : bio.data.nonApplicationBufferLength = bio.data.nonApplicationBufferSize) :
    writeToInternalBuffer bio inp inl = .ok (-1, bio.setRetryWrite) := by
  have hjint : jint (bio.data.nonApplicationBufferSize - bio.data.nonApplicationBufferLength) =
      .ok 0 := by
    rw [hfull, Int.sub_self]
    rfl
  simp only [writeToInternalBuffer, hjint, bind, Except.bind, if_true]
  rfl

/-- A queueing write accepts as many bytes as the internal buffer has room for. -/
theorem writeToInternalBuffer_ok {bio : JavaBio} (h : Layout bio.data)
    (hroom : bio.data.nonApplicationBufferLength ≠ bio.data.nonApplicationBufferSize)
    (hstart : bio.data.nonApplicationBufferOffset + bio.data.nonApplicationBufferLength ≤
      bio.data.nonApplicationBufferSize)
    {inp : List Byte} {inl n : Int} (hinl : 0 < inl) (hinp : inl ≤ inp.length)
    (hn : min (bio.data.nonApplicationBufferSize - bio.data.nonApplicationBufferLength) inl = n) :
    ∃ ring, writeToInternalBuffer bio inp inl = .ok (n,
        { bio with data :=
          { bio.data with
            nonApplicationBuffer := ring
            nonApplicationBufferLength := bio.data.nonApplicationBufferLength + n } }) ∧
      ring.length = bio.data.nonApplicationBuffer.length ∧
      contents ring bio.data.nonApplicationBufferOffset.toNat
          (bio.data.nonApplicationBufferLength + n).toNat =
        bio.data.queue ++ inp.take n.toNat := by
  have hoff := h.offset_nonneg
  have hlen := h.length_nonneg
  have hlen' := h.length_le
  have hsize := h.size_jint
  obtain ⟨ring, hchunks, hring⟩ := queueChunks_ok h hstart inp n
    (by omega) (by omega) (by omega)
  refine ⟨ring, ?_, hring⟩
  simp only [writeToInternalBuffer, bind, Except.bind]
  rw [jint_ok (by unfold IsJint; omega)]
  simp only
  rw [if_neg (by omega), jint_ok (by unfold IsJint; omega)]
  simp only [hn]
  rw [jint_ok (by unfold IsJint; omega)]
  simp only [hchunks]
  rw [jint_ok (by unfold IsJint; omega)]
  rfl

/-- A queueing write behind a queue that reaches over the end of the internal
buffer starts outside of it: the first chunk has a negative length. -/
theorem writeToInternalBuffer_wrapped {bio : JavaBio} (h : Layout bio.data)
    (hroom : bio.data.nonApplicationBufferLength ≠ bio.data.nonApplicationBufferSize)
    (hstart : bio.data.nonApplicationBufferSize <
      bio.data.nonApplicationBufferOffset + bio.data.nonApplicationBufferLength)
    (inp : List Byte) {inl : Int} (hinl : 0 < inl) :
    writeToInternalBuffer bio inp inl = .error .overflow ∨
      writeToInternalBuffer bio inp inl = .error .negativeLength := by
  have hoff := h.offset_nonneg
  have hoff' := h.offset_le
  have hlen := h.length_nonneg
  have hlen' := h.length_le
  have hsize := h.size_jint
  have hfree : jint (bio.data.nonApplicationBufferSize - bio.data.nonApplicationBufferLength) =
      .ok (bio.data.nonApplicationBufferSize - bio.data.nonApplicationBufferLength) :=
    jint_ok (by unfold IsJint; omega)
  simp only [writeToInternalBuffer, hfree, bind, Except.bind]
  rw [if_neg (by omega)]
  -- The start index overflows a jint, or it lies behind the end of the buffer.
  by_cases hjint : IsJint (bio.data.nonApplicationBufferOffset +
      bio.data.nonApplicationBufferLength)
  · right
    rw [jint_ok hjint]
    simp only
    rw [jint_ok (by unfold IsJint at *; omega)]
    simp only [queueChunks]
    rw [if_pos (by omega), memcpy_negative (by omega)]
    rfl
  · left
    rw [jint_overflow hjint]

theorem Layout.queued {b : TcnBioBytebuffer} (h : Layout b) {ring : List Byte} {n : Int}
    (hring : ring.length = b.nonApplicationBuffer.length) (hn : 0 ≤ n)
    (hfree : n ≤ b.nonApplicationBufferSize - b.nonApplicationBufferLength) :
    Layout { b with
      nonApplicationBuffer := ring
      nonApplicationBufferLength := b.nonApplicationBufferLength + n } := by
  have hring' := h.ring
  have hlen := h.length_nonneg
  constructor <;> simp only
  case size_pos => exact h.size_pos
  case size_jint => exact h.size_jint
  case ring => omega
  case offset_nonneg => exact h.offset_nonneg
  case offset_le => exact h.offset_le
  case length_nonneg => omega
  case length_le => omega
  case room_nonneg => exact h.room_nonneg
  case room_jint => exact h.room_jint
  case window => exact h.window
  case no_window => exact h.no_window

/-! ## The window -/

/-- Another window does not concern the internal buffer. -/
theorem Layout.withWindow {b : TcnBioBytebuffer} (h : Layout b) {buffer : Option CharPtr}
    {room : Int} {sink : Bool} (hroom : 0 ≤ room) (hroom' : room < 0x80000000)
    (hwindow : ∀ p, buffer = some p → 0 ≤ p.pos ∧ p.pos + room = p.block.length)
    (hnone : buffer = none → room = 0 ∧ sink = false) :
    Layout { b with buffer := buffer, bufferLength := room, bufferIsSSLWriteSink := sink } where
  size_pos := h.size_pos
  size_jint := h.size_jint
  ring := h.ring
  offset_nonneg := h.offset_nonneg
  offset_le := h.offset_le
  length_nonneg := h.length_nonneg
  length_le := h.length_le
  room_nonneg := hroom
  room_jint := hroom'
  window := hwindow
  no_window := hnone

/-- The state behind a copy of `bs` into the window at `p`. -/
def TcnBioBytebuffer.stored (b : TcnBioBytebuffer) (p : CharPtr) (bs : List Byte) :
    TcnBioBytebuffer :=
  { b with
    buffer := some ⟨splice p.block p.pos.toNat bs, p.pos + bs.length⟩
    bufferLength := b.bufferLength - bs.length }

@[simp] theorem TcnBioBytebuffer.stored_queue (b : TcnBioBytebuffer) (p : CharPtr)
    (bs : List Byte) : (b.stored p bs).queue = b.queue := rfl

theorem Layout.stored {b : TcnBioBytebuffer} (h : Layout b) {p : CharPtr}
    (hp : b.buffer = some p) {bs : List Byte} (hbs : (bs.length : Int) ≤ b.bufferLength) :
    Layout (b.stored p bs) := by
  obtain ⟨hpos, hblock⟩ := h.window p hp
  have hroom := h.room_jint
  refine h.withWindow (by omega) (by omega) ?_ (by simp)
  rintro q ⟨⟩
  simp only
  rw [splice_length (by omega)]
  omega

/-- Taking bytes from the window moves its position. -/
theorem Layout.consumed {b : TcnBioBytebuffer} (h : Layout b) {p : CharPtr}
    (hp : b.buffer = some p) {n : Int} (hn : 0 ≤ n) (hroom : n ≤ b.bufferLength) :
    Layout { b with
      buffer := some { p with pos := p.pos + n }
      bufferLength := b.bufferLength - n } := by
  obtain ⟨hpos, hblock⟩ := h.window p hp
  have hroom' := h.room_jint
  refine h.withWindow (by omega) (by omega) ?_ (by simp)
  rintro q ⟨⟩
  simp only
  omega

theorem writeToWindow_ok {b : TcnBioBytebuffer} (h : Layout b) {p : CharPtr}
    (hp : b.buffer = some p) {inp : List Byte} {inl n : Int} (hinl : 0 < inl)
    (hinp : inl ≤ inp.length) (hn : min b.bufferLength inl = n) :
    writeToWindow b inp inl = .ok (n, b.stored p (inp.take n.toNat)) := by
  obtain ⟨hpos, hblock⟩ := h.window p hp
  have hroom := h.room_nonneg
  have hroom' := h.room_jint
  have hbs : ((inp.take n.toNat).length : Int) = n := by
    rw [List.length_take]
    omega
  simp only [writeToWindow, hp, hn, bind, Except.bind]
  rw [memcpy_ok (by omega) hpos (by omega) (by omega) (by omega)]
  simp only
  rw [jint_ok (by unfold IsJint; omega)]
  simp only [pure, Except.pure, TcnBioBytebuffer.stored, slice, Int.toNat_zero, List.drop_zero, hbs]

/-- A write into a sink: the queue is drained first, then the data takes the
room that is left. The return value counts both. -/
theorem writeToSink_ok {bio : JavaBio} (h : Layout bio.data) {p : CharPtr}
    (hp : bio.data.buffer = some p) (hroom : bio.data.bufferLength ≠ 0)
    {inp : List Byte} {inl d n : Int} (hinl : 0 < inl) (hinp : inl ≤ inp.length)
    (hd : min bio.data.bufferLength bio.data.nonApplicationBufferLength = d)
    (hn : min (bio.data.bufferLength - d) inl = n) :
    ∃ b q, writeToSink bio inp inl =
        .ok (d + n, { bio with data := b.stored q (inp.take n.toNat) }) ∧
      Layout b ∧ b.buffer = some q ∧
      (d = 0 ∧ b = bio.data ∨ d ≠ 0 ∧ b = bio.data.drained p d) := by
  have hlen := h.length_nonneg
  have hroom' := h.room_nonneg
  have hroom'' := h.room_jint
  simp only [writeToSink]
  rw [if_neg (by simp [hp, hroom])]
  -- Without queued bytes nothing is drained and the state is the one before.
  by_cases hqueue : bio.data.nonApplicationBufferLength = 0
  · refine ⟨bio.data, p, ?_, h, hp, .inl ⟨by omega, rfl⟩⟩
    rw [if_neg (by simpa using hqueue)]
    simp only [bind, Except.bind]
    rw [writeToWindow_ok h hp hinl hinp (n := n) (by omega)]
    simp only
    rw [jint_ok (by unfold IsJint; omega)]
    simp only [pure, Except.pure]
    congr 2
    omega
  · have hdrain : Layout (bio.data.drained p d) :=
      h.drained hp (by omega) (by omega) (by omega)
    refine ⟨bio.data.drained p d, _, ?_, hdrain, rfl, .inr ⟨by omega, rfl⟩⟩
    rw [if_pos hqueue]
    simp only [bind, Except.bind]
    rw [tcnFlushSslbufferToBytebuffer_ok h hp hd]
    simp only
    rw [writeToWindow_ok hdrain rfl hinl hinp (n := n) hn]
    simp only
    rw [jint_ok (by unfold IsJint; omega)]
    rfl

end Bio
