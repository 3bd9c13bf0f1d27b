-- SUMMARY: Draining the internal buffer of the BIO into any sequence of windows.
import Mathlib.Algebra.GroupWithZero.Nat
import Tcnative.Base.Machine
import Tcnative.Bio.Layout

/-!
# Draining into windows

Java drains the queue by `SSL.bioFlushByteBuffer` into one window after the
other. A drain can stop anywhere in the circular buffer, and the next one goes
on from what it left. How the output is cut into windows makes no difference.
-/

namespace Bio
open CMem

/-! ## Pieces of a queue -/

/-- Cut a queue into pieces of at most the given sizes. -/
def pieces {α : Type} (queue : List α) : List Nat → List (List α)
  | [] => []
  | n :: ns => queue.take n :: pieces (queue.drop n) ns

/-- The pieces are the front of the queue. -/
theorem pieces_flatten {α : Type} (queue : List α) (ns : List Nat) :
    (pieces queue ns).flatten = queue.take ns.sum := by
  induction ns generalizing queue with
  | nil => simp [pieces]
  | cons n ns ih => rw [pieces, List.flatten_cons, ih, List.sum_cons, List.take_add]

/-! ## One window -/

/-- The internal buffer holds a queue: its fields are within its size, whatever
the window is. -/
structure ValidRing (b : TcnBioBytebuffer) : Prop where
  size_pos : 0 < b.nonApplicationBufferSize
  size_jint : b.nonApplicationBufferSize < 0x80000000
  ring : (b.nonApplicationBuffer.length : Int) = b.nonApplicationBufferSize
  offset_nonneg : 0 ≤ b.nonApplicationBufferOffset
  offset_le : b.nonApplicationBufferOffset ≤ b.nonApplicationBufferSize
  length_nonneg : 0 ≤ b.nonApplicationBufferLength
  length_le : b.nonApplicationBufferLength ≤ b.nonApplicationBufferSize

theorem Layout.validRing {b : TcnBioBytebuffer} (h : Layout b) : ValidRing b :=
  ⟨h.size_pos, h.size_jint, h.ring, h.offset_nonneg, h.offset_le, h.length_nonneg, h.length_le⟩

/-- A BIO with a window that was just set to be a sink. -/
def TcnBioBytebuffer.withSink (b : TcnBioBytebuffer) (mem : List Byte) : TcnBioBytebuffer :=
  { b with buffer := some ⟨mem, 0⟩, bufferLength := mem.length, bufferIsSSLWriteSink := true }

theorem ValidRing.withSink {b : TcnBioBytebuffer} (h : ValidRing b) {mem : List Byte}
    (hmem : Jni.IsArrayLength mem.length) : Layout (b.withSink mem) where
  size_pos := h.size_pos
  size_jint := h.size_jint
  ring := h.ring
  offset_nonneg := h.offset_nonneg
  offset_le := h.offset_le
  length_nonneg := h.length_nonneg
  length_le := h.length_le
  room_nonneg := by simp [TcnBioBytebuffer.withSink]
  room_jint := by
    unfold Jni.IsArrayLength at hmem
    simp only [TcnBioBytebuffer.withSink]
    omega
  window := by
    rintro p ⟨⟩
    simp [TcnBioBytebuffer.withSink]
  no_window h := by cases h

theorem ValidRing.queue_length {b : TcnBioBytebuffer} (h : ValidRing b) :
    b.queue.length = b.nonApplicationBufferLength.toNat := by
  have hempty : Jni.IsArrayLength ([] : List Byte).length := by decide
  exact (h.withSink hempty).queue_length

/-- What a flush into the window returned, and the memory of the window behind it. -/
def flushed (x : Machine.Entry BioWorld BioOp BioResult) : Option (Int × List Byte) :=
  match x.event, x.ret, x.post.bio.data.buffer with
  | .flushByteBuffer, .returned ret _, some p => some (ret, p.block)
  | _, _, _ => none

/-- Set each window in turn and flush into it. -/
def drainOps : List (List Byte) → List BioOp
  | [] => []
  | mem :: windows =>
    .setByteBuffer (some mem) mem.length true :: .flushByteBuffer :: drainOps windows

/-- What a flush into a window with memory `mem` does to a ring. -/
structure FlushSpec (b : TcnBioBytebuffer) (mem : List Byte) (ret : Int) (b' : TcnBioBytebuffer) :
    Prop where
  returned : ret = (b.queue.take mem.length).length
  buffer : ∃ pos, b'.buffer =
    some ⟨b.queue.take mem.length ++ mem.drop (b.queue.take mem.length).length, pos⟩
  queue : b'.queue = b.queue.drop mem.length
  ring : ValidRing b'
  rests : b.nonApplicationBufferLength = 0 →
    b'.nonApplicationBufferOffset = b.nonApplicationBufferOffset
  restarts : b.nonApplicationBufferLength ≠ 0 → b'.nonApplicationBufferLength = 0 →
    b'.nonApplicationBufferOffset = 0

theorem bioFlushByteBuffer_spec {bio : JavaBio} (h : ValidRing bio.data) {mem : List Byte}
    (hmem : Jni.IsArrayLength mem.length) :
    ∃ ret b', bioFlushByteBuffer ⟨bio.flags, bio.data.withSink mem⟩ =
        .ok (ret, ⟨bio.flags, b'⟩) ∧ FlushSpec bio.data mem ret b' := by
  have hlayout := h.withSink hmem
  have hlen := h.length_nonneg
  have hqueue := h.queue_length
  by_cases hempty : bio.data.nonApplicationBufferLength = 0
  · -- Nothing is queued, and nothing is done.
    have hnil : bio.data.queue = [] := by
      rw [← List.length_eq_zero_iff]
      omega
    refine ⟨0, bio.data.withSink mem, if_pos (.inl hempty), ?_⟩
    refine ⟨by simp [hnil], ⟨0, by simp [hnil, TcnBioBytebuffer.withSink]⟩, ?_,
      hlayout.validRing, fun _ => rfl, fun hne => absurd hempty hne⟩
    rw [hnil, List.drop_nil]
    exact hnil
  · generalize hn : min (mem.length : Int) bio.data.nonApplicationBufferLength = n
    have htaken : bio.data.queue.take mem.length = bio.data.queue.take n.toNat := by
      rcases Nat.lt_or_ge bio.data.queue.length mem.length with hlt | hge
      · rw [List.take_of_length_le (by omega), List.take_of_length_le (by omega)]
      · congr 1
        omega
    have hcount : (bio.data.queue.take mem.length).length = n.toNat := by
      rw [List.length_take]
      omega
    have hflush := tcnFlushSslbufferToBytebuffer_ok hlayout (p := ⟨mem, 0⟩) rfl (n := n) hn
    have hdrained := hlayout.drained (p := ⟨mem, 0⟩) rfl (n := n) (by omega)
      (by simp only [TcnBioBytebuffer.withSink]; omega)
      (by simp only [TcnBioBytebuffer.withSink]; omega)
    refine ⟨n, (bio.data.withSink mem).drained ⟨mem, 0⟩ n, ?_, ?_⟩
    · simp only [bioFlushByteBuffer, hflush, bind, Except.bind]
      rw [if_neg (by simp [TcnBioBytebuffer.withSink, hempty])]
      rfl
    · refine ⟨by omega, ⟨0 + n, ?_⟩, ?_, hdrained.validRing, fun hzero => absurd hzero hempty, ?_⟩
      · rw [htaken]
        simp [TcnBioBytebuffer.drained, splice, TcnBioBytebuffer.queue, TcnBioBytebuffer.withSink]
      · rw [hlayout.drained_queue ⟨mem, 0⟩ (n := n) (by omega)
          (by simp only [TcnBioBytebuffer.withSink]; omega)]
        change bio.data.queue.drop n.toNat = _
        rcases Nat.lt_or_ge bio.data.queue.length mem.length with hlt | hge
        · rw [List.drop_of_length_le (by omega), List.drop_of_length_le (by omega)]
        · congr 1
          omega
      · intro _ hzero
        exact if_pos hzero

/-- Setting a window and flushing into it are two steps that do not fault. -/
theorem run_window {w : BioWorld} (h : ValidRing w.bio.data) {mem : List Byte}
    (hmem : Jni.IsArrayLength mem.length) :
    ∃ t w₁ ret,
      Machine.run bioStep w [.setByteBuffer (some mem) mem.length true, .flushByteBuffer] =
        .ok (t, w₁) ∧ FlushSpec w.bio.data mem ret w₁.bio.data ∧
      t.filterMap flushed = [(ret, w.bio.data.queue.take mem.length ++
        mem.drop (w.bio.data.queue.take mem.length).length)] := by
  obtain ⟨ret, b, hflush, hspec⟩ := bioFlushByteBuffer_spec h hmem
  obtain ⟨pos, hbuffer⟩ := hspec.buffer
  let w₀ : BioWorld := ⟨⟨w.bio.flags, w.bio.data.withSink mem⟩, w.retired ++ w.current⟩
  have hset : bioStep w (.setByteBuffer (some mem) mem.length true) =
      .ok (.returned 0 none, w₀) := by
    simp only [bioStep, bioSetByteBuffer, Jni.checkNull, Jni.checkPositiveOrZero]
    rw [if_neg (by omega)]
    rfl
  let w₁ : BioWorld := { w₀ with bio := ⟨w.bio.flags, b⟩ }
  have hstep : bioStep w₀ .flushByteBuffer = .ok (.returned ret none, w₁) := by
    simp only [bioStep, w₀, hflush]
    rfl
  refine ⟨[⟨w, .setByteBuffer (some mem) mem.length true, .returned 0 none, w₀⟩,
    ⟨w₀, .flushByteBuffer, .returned ret none, w₁⟩], w₁, ret, ?_, hspec, ?_⟩
  · rw [Machine.run_cons_ok hset, Machine.run_cons_ok hstep]
    rfl
  · have hflushed : flushed ⟨w₀, .flushByteBuffer, .returned ret none, w₁⟩ =
        some (ret, w.bio.data.queue.take mem.length ++
          mem.drop (w.bio.data.queue.take mem.length).length) := by
      simp only [flushed, w₁, hbuffer]
    rw [List.filterMap_cons_none rfl, List.filterMap_cons_some hflushed, List.filterMap_nil]

/-! ## Any number of windows -/

/-- What flushes into the windows return and store, and what they leave. -/
structure Drains (w : BioWorld) (windows : List (List Byte))
    (t : List (Machine.Entry BioWorld BioOp BioResult)) (w' : BioWorld) : Prop where
  /-- Each window holds its piece of the queue in front of what it held, and the
  flush has returned the length of the piece. -/
  pieces : t.filterMap flushed =
    List.zipWith (fun piece mem => ((piece.length : Int), piece ++ mem.drop piece.length))
      (pieces w.bio.data.queue (windows.map List.length)) windows
  queue : w'.bio.data.queue = w.bio.data.queue.drop (windows.map List.length).sum
  ring : ValidRing w'.bio.data
  rests : w.bio.data.nonApplicationBufferLength = 0 →
    w'.bio.data.nonApplicationBufferOffset = w.bio.data.nonApplicationBufferOffset
  restarts : w.bio.data.nonApplicationBufferLength ≠ 0 →
    w'.bio.data.nonApplicationBufferLength = 0 → w'.bio.data.nonApplicationBufferOffset = 0

theorem run_windows {w : BioWorld} (h : ValidRing w.bio.data) {windows : List (List Byte)}
    (hwindows : ∀ mem ∈ windows, Jni.IsArrayLength mem.length) :
    Machine.Ends bioStep (Drains w windows) w (drainOps windows) := by
  induction windows generalizing w with
  | nil => exact ⟨[], w, rfl, rfl, rfl, h, fun _ => rfl, fun hne hzero => absurd hzero hne⟩
  | cons mem windows ih =>
    obtain ⟨t₁, w₁, ret, hrun, hspec, hflushed⟩ := run_window h (hwindows mem List.mem_cons_self)
    obtain ⟨t, w', hrun', hrest⟩ :=
      ih hspec.ring fun mem' hmem' => hwindows mem' (List.mem_cons_of_mem _ hmem')
    refine ⟨t₁ ++ t, w', ?_, ?_, ?_, hrest.ring, ?_, ?_⟩
    · change Machine.run bioStep w ([_, _] ++ drainOps windows) = _
      rw [Machine.run_append hrun, hrun']
    · rw [List.filterMap_append, hflushed, hrest.pieces, hspec.returned, hspec.queue]
      rfl
    · rw [hrest.queue, hspec.queue, List.drop_drop, List.map_cons, List.sum_cons]
    · intro hzero
      -- An empty queue stays empty.
      have hempty : w₁.bio.data.nonApplicationBufferLength = 0 := by
        have hlength := hspec.ring.queue_length
        have hlength₀ := h.queue_length
        have hnonneg := hspec.ring.length_nonneg
        rw [hspec.queue, List.length_drop] at hlength
        omega
      exact (hrest.rests hempty).trans (hspec.rests hzero)
    · intro hne hzero
      by_cases hempty : w₁.bio.data.nonApplicationBufferLength = 0
      · exact (hrest.rests hempty).trans (hspec.restarts hne hempty)
      · exact hrest.restarts hempty hzero

/-- The bytes that the flushes have stored, in order: of each window as many as
the flush into it has returned. -/
def output (t : List (Machine.Entry BioWorld BioOp BioResult)) : List Byte :=
  (t.filterMap flushed).flatMap fun window => window.2.take window.1.toNat

/-- The windows together hold the pieces of the queue. -/
theorem zipWith_pieces_flatMap (queue : List Byte) (windows : List (List Byte)) :
    (List.zipWith (fun piece mem => ((piece.length : Int), piece ++ mem.drop piece.length))
        (pieces queue (windows.map List.length)) windows).flatMap
      (fun window => window.2.take window.1.toNat) =
    (pieces queue (windows.map List.length)).flatten := by
  induction windows generalizing queue with
  | nil => rfl
  | cons mem windows ih =>
    simp only [List.map_cons, pieces, List.zipWith_cons_cons, List.flatMap_cons, List.flatten_cons,
      Int.toNat_natCast, List.take_left', ih]

/-- Whatever the windows are, flushes into them put out the front of the queue,
as much of it as all windows together have room for. An empty queue starts at the
front of the buffer, unless it was empty from the start. -/
theorem drain_windows {w : BioWorld} (h : ValidRing w.bio.data) {windows : List (List Byte)}
    (hwindows : ∀ mem ∈ windows, Jni.IsArrayLength mem.length) :
    Machine.Ends bioStep
      (fun t w' => Drains w windows t w' ∧
        output t = w.bio.data.queue.take
          (min w.bio.data.nonApplicationBufferLength.toNat (windows.map List.length).sum))
      w (drainOps windows) := by
  obtain ⟨t, w', hrun, hdrains⟩ := run_windows h hwindows
  refine ⟨t, w', hrun, hdrains, ?_⟩
  rw [output, hdrains.pieces, zipWith_pieces_flatMap, pieces_flatten, ← h.queue_length,
    Nat.min_comm, ← List.take_eq_take_min]

/-- A queue of three bytes that wraps, and windows for one, none, one and two. -/
theorem drain_windows_wrapped :
    ∃ w' t, Machine.run bioStep
        ⟨⟨⟨false, false, false⟩, ⟨none, [2, 3, 1], 3, 2, 3, 0, false⟩⟩, []⟩
        (drainOps [[0], [], [0], [0, 0]]) = .ok (t, w') ∧
      output t = [1, 2, 3] ∧ w'.bio.data.nonApplicationBufferOffset = 0 := by
  have hwindows : ∀ mem ∈ [[0], [], [0], [0, 0]], Jni.IsArrayLength (mem : List Byte).length := by
    decide
  obtain ⟨t, w', hrun, hdrains, houtput⟩ := drain_windows
    (w := ⟨⟨⟨false, false, false⟩, ⟨none, [2, 3, 1], 3, 2, 3, 0, false⟩⟩, []⟩)
    ⟨by decide, by decide, by decide, by decide, by decide, by decide, by decide⟩ hwindows
  refine ⟨w', t, hrun, houtput, hdrains.restarts (by decide) ?_⟩
  cases hrun
  rfl

/-- An empty queue with another offset, which drains leave where it is. -/
def restingRing : BioWorld :=
  ⟨⟨⟨false, false, false⟩, ⟨none, [0, 0], 2, 1, 0, 0, false⟩⟩, []⟩

theorem drain_windows_resting :
    ValidRing restingRing.bio.data ∧
    ¬ Machine.Ends bioStep
      (fun _ w' => w'.bio.data.nonApplicationBufferLength = 0 →
        w'.bio.data.nonApplicationBufferOffset = 0)
      restingRing (drainOps [[0]]) := by
  refine ⟨⟨by decide, by decide, by decide, by decide, by decide, by decide, by decide⟩, ?_⟩
  rintro ⟨t, w', hrun, hoffset⟩
  cases hrun
  exact absurd (hoffset rfl) (by decide)

end Bio
