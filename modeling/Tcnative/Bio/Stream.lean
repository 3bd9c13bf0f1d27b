-- SUMMARY: Runs of the ByteBuffer BIO: memory bounds, and the FIFO law of its output stream.
import Tcnative.Bio.Refinement

/-!
# Runs of the BIO

A run starts with a fresh BIO and performs any sequence of operations. It stays
inside its memory exactly as long as no operation overruns the internal buffer,
and its output stream obeys the contract of `BIO_write` exactly as long as,
besides, no write meets a sink while bytes are queued: such a write reports the
drained bytes as if they were bytes of its own data.
-/

namespace Bio
open CMem

/-- A BIO as `SSL.bioNewByteBuffer` returns it, and no window used yet. -/
def BioWorld.fresh (mem : List Byte) : BioWorld where
  bio := { bioJavaBytebufferCreate with data :=
    { bioJavaBytebufferCreate.data with
      nonApplicationBuffer := mem
      nonApplicationBufferSize := mem.length } }
  retired := []

/-- `BioWorld.fresh` is what `SSL.bioNewByteBuffer` makes of the allocated memory. -/
theorem bioNewByteBuffer_fresh {mem : List Byte} (hmem : mem ≠ []) :
    bioNewByteBuffer mem.length true (some mem) = .ok (BioWorld.fresh mem).bio := by
  have := List.length_pos_iff.mpr hmem
  simp [bioNewByteBuffer, Jni.checkPositive, hmem, BioWorld.fresh]

/-- Memory that can be the internal buffer: its size is a positive `jint`. -/
structure IsRing (mem : List Byte) : Prop where
  ne_nil : mem ≠ []
  length_lt : mem.length < 0x80000000

theorem IsRing.layout {mem : List Byte} (h : IsRing mem) : Layout (BioWorld.fresh mem).bio.data :=
  layout_bioNewByteBuffer (by have := h.length_lt; omega) rfl (bioNewByteBuffer_fresh h.ne_nil)

abbrev BioEntry := Machine.Entry BioWorld BioOp BioResult

/-- Perform a sequence of operations on a fresh BIO. -/
def bioRun (mem : List Byte) (ops : List BioOp) : Except Fault (List BioEntry × BioWorld) :=
  Machine.run bioStep (.fresh mem) ops

/-! ## Memory bounds -/

/-- The bounds on the fields of `struct TCN_bio_bytebuffer`. -/
structure InBounds (b : TcnBioBytebuffer) : Prop where
  offset_nonneg : 0 ≤ b.nonApplicationBufferOffset
  offset_le : b.nonApplicationBufferOffset ≤ b.nonApplicationBufferSize
  length_nonneg : 0 ≤ b.nonApplicationBufferLength
  length_le : b.nonApplicationBufferLength ≤ b.nonApplicationBufferSize
  room_nonneg : 0 ≤ b.bufferLength

instance (b : TcnBioBytebuffer) : Decidable (InBounds b) :=
  decidable_of_iff (0 ≤ b.nonApplicationBufferOffset ∧
      b.nonApplicationBufferOffset ≤ b.nonApplicationBufferSize ∧
      0 ≤ b.nonApplicationBufferLength ∧
      b.nonApplicationBufferLength ≤ b.nonApplicationBufferSize ∧ 0 ≤ b.bufferLength)
    ⟨fun ⟨h₁, h₂, h₃, h₄, h₅⟩ => ⟨h₁, h₂, h₃, h₄, h₅⟩,
      fun ⟨h₁, h₂, h₃, h₄, h₅⟩ => ⟨h₁, h₂, h₃, h₄, h₅⟩⟩

theorem Layout.inBounds {b : TcnBioBytebuffer} (h : Layout b) : InBounds b :=
  ⟨h.offset_nonneg, h.offset_le, h.length_nonneg, h.length_le, h.room_nonneg⟩

/-- No copy of the run leaves its blocks or has a negative length, no index
overflows, and the fields are in bounds at its end. -/
def StaysInBounds (mem : List Byte) (ops : List BioOp) : Prop :=
  Machine.Ends bioStep (fun _ w => InBounds w.bio.data) (.fresh mem) ops

instance (mem : List Byte) (ops : List BioOp) : Decidable (StaysInBounds mem ops) :=
  inferInstanceAs (Decidable (Machine.Ends ..))

/-- The condition on the steps of a run: well-formed arguments are a matter of
the caller, and the operation does not overrun the internal buffer. -/
def Fits (w : BioWorld) (op : BioOp) : Prop := ¬ Overruns w op

instance (w : BioWorld) (op : BioOp) : Decidable (Fits w op) :=
  inferInstanceAs (Decidable (¬ _))

private theorem run_fits {mem : List Byte} (hmem : IsRing mem) {ops : List BioOp}
    (hwf : ∀ op ∈ ops, op.Wf) (hfit : Machine.Meets bioStep Fits (.fresh mem) ops) :
    ∃ t w, bioRun mem ops = .ok (t, w) ∧ Layout w.bio.data ∧
      ∀ x ∈ t, Refines x.pre x.event x.ret x.post := by
  have hall : Machine.Meets bioStep (fun w op => op.Wf ∧ Fits w op) (.fresh mem) ops :=
    Machine.meets_and.mpr ⟨Machine.meets_of_forall hwf, hfit⟩
  refine Machine.run_of_meets (P := fun w op => op.Wf ∧ Fits w op)
    (I := fun w => Layout w.bio.data) (Q := fun x => Refines x.pre x.event x.ret x.post)
    ?_ hmem.layout hall
  rintro w op hw ⟨hop, hover⟩
  obtain ⟨r, w', hok, href⟩ := bioStep_refines hw hop hover
  exact ⟨r, w', hok, href.layout, href⟩

/-- A run stays inside its memory in every state it reaches if and only if none
of its operations overruns the internal buffer. -/
theorem bioRun_staysInBounds_iff {mem : List Byte} (hmem : IsRing mem) {ops : List BioOp}
    (hwf : ∀ op ∈ ops, op.Wf) :
    (∀ ops₁, ops₁ <+: ops → StaysInBounds mem ops₁) ↔
      Machine.Meets bioStep Fits (.fresh mem) ops := by
  refine Machine.forall_prefix_iff_meets hwf ?_ ?_
  · -- A run that fits keeps the layout, which implies the bounds.
    intro ops hwf hfit
    obtain ⟨t, w, hrun, hw, -⟩ := run_fits hmem hwf hfit
    exact ⟨t, w, hrun, hw.inBounds⟩
  · -- The first operation that overruns ends the run with a fault.
    rintro ops op hwf - hfit t w hrun hover ⟨t', w', hrun', -⟩
    obtain ⟨t₁, w₁, hrun₁, hw₁, -⟩ := run_fits hmem hwf hfit
    obtain ⟨-, rfl⟩ : t₁ = t ∧ w₁ = w := by
      simpa [bioRun, hrun] using hrun₁.symm
    obtain ⟨f, hf⟩ := bioStep_overruns hw₁ (not_not.mp hover)
    simp [Machine.run_snoc_error hrun hf] at hrun'

/-- A queue that is drained in part and then written to up to the end of the
buffer. -/
theorem bioRun_staysInBounds_partial_drain :
    StaysInBounds [0, 0, 0, 0]
      [.write (some [1, 2, 3, 4]) 4, .setByteBuffer (some [0, 0, 0]) 3 true, .flushByteBuffer,
        .clearByteBuffer, .write (some [5, 6]) 2] :=
  (bioRun_staysInBounds_iff ⟨by decide, by decide⟩ (by simp [BioOp.Wf, IsJint])).mpr (by decide)
    _ List.prefix_rfl

/-- Operations that fill the buffer, drain three of its four bytes, and queue
two and then one more. -/
def wrappedQueueOps : List BioOp :=
  [.write (some [1, 2, 3, 4]) 4, .setByteBuffer (some [0, 0, 0]) 3 true, .flushByteBuffer,
    .clearByteBuffer, .write (some [5, 6]) 2, .write (some [7]) 1]

/-- The last write meets a queue that wraps, and copies a negative number of bytes. -/
theorem bioRun_wrapped_queue :
    IsRing [0, 0, 0, 0] ∧ (∀ op ∈ wrappedQueueOps, op.Wf) ∧
      bioRun [0, 0, 0, 0] wrappedQueueOps = .error .negativeLength ∧
      ¬ StaysInBounds [0, 0, 0, 0] wrappedQueueOps :=
  ⟨⟨by decide, by decide⟩, by simp [wrappedQueueOps, BioOp.Wf, IsJint], rfl, by decide⟩

/-! ## The output stream -/

/-- The bytes that a call of write or puts reports as accepted: the first
`ret` bytes of what it was given. -/
def accepted (x : BioEntry) : List Byte :=
  match x.event.input, x.ret with
  | some (some inp, _), .returned ret _ => inp.take ret.toNat
  | _, _ => []

/-- The contract of `BIO_write` on its return value: a positive one is a number
of bytes of the caller's data. -/
def Honest (x : BioEntry) : Prop :=
  match x.event.input, x.ret with
  | some (_, inl), .returned ret _ => 0 < ret → ret ≤ inl
  | _, _ => True

instance (x : BioEntry) : Decidable (Honest x) :=
  match hinput : x.event.input, hret : x.ret with
  | some (_, inl), .returned ret _ =>
    decidable_of_iff (0 < ret → ret ≤ inl) (by simp [Honest, hinput, hret])
  | none, _ => isTrue (by simp [Honest, hinput])
  | some _, .thrown _ => isTrue (by simp [Honest, hinput, hret])

/-- What the run placed in the sink windows and what it left in the queue is,
in order, what its writes report as accepted. -/
def Fifo (mem : List Byte) (ops : List BioOp) : Prop :=
  Machine.Ends bioStep
    (fun t w => (∀ x ∈ t, Honest x) ∧ w.placed ++ w.bio.data.queue = t.flatMap accepted)
    (.fresh mem) ops

instance (mem : List Byte) (ops : List BioOp) : Decidable (Fifo mem ops) :=
  inferInstanceAs (Decidable (Machine.Ends ..))

/-- A write that meets a sink with room while bytes are queued. -/
def DrainsFirst (w : BioWorld) (op : BioOp) : Prop :=
  op.data.isSome ∧ w.bio.data.bufferIsSSLWriteSink = true ∧ w.bio.data.bufferLength ≠ 0 ∧
    w.bio.data.nonApplicationBufferLength ≠ 0

instance (w : BioWorld) (op : BioOp) : Decidable (DrainsFirst w op) :=
  inferInstanceAs (Decidable (_ ∧ _))

/-- The condition on the steps of a run: the operation does not overrun the
internal buffer and does not drain it on behalf of a write. -/
def Separates (w : BioWorld) (op : BioOp) : Prop := Fits w op ∧ ¬ DrainsFirst w op

instance (w : BioWorld) (op : BioOp) : Decidable (Separates w op) :=
  inferInstanceAs (Decidable (_ ∧ _))

theorem BioOp.input_of_data {op : BioOp} {bs : List Byte} (h : op.data = some bs) :
    ∃ inp inl, op.input = some (some inp, inl) ∧ 0 < inl ∧ bs = inp.take inl.toNat := by
  simp only [BioOp.data] at h
  split at h
  · rename_i inp inl hinput
    split at h
    · rename_i hinl
      cases h
      exact ⟨inp, inl, hinput, hinl, rfl⟩
    · cases h
  · cases h

theorem BioOp.Wf.input_le {op : BioOp} (h : op.Wf) {inp : List Byte} {inl : Int}
    (hinput : op.input = some (some inp, inl)) (hinl : 0 < inl) : inl ≤ inp.length := by
  cases op with
  | write inp' inl' =>
    cases hinput
    exact Int.le_of_eq (h.2 inp rfl hinl).symm
  | puts inp' =>
    cases hinput
    exact toJint_le _
  | read out outl => cases hinput
  | setByteBuffer mem max sink => cases hinput
  | clearByteBuffer => cases hinput
  | flushByteBuffer => cases hinput

/-- The offers are the operations with data. -/
theorem BioOp.action_eq_offer {op : BioOp} {bs : List Byte} :
    op.action = some (.offer bs) ↔ op.data = some bs := by
  cases op with
  | write inp inl => simp [action]
  | puts inp => simp [action]
  | read out outl => simp [action, data, input]
  | setByteBuffer mem max sink =>
    cases mem with
    | none => simp [action, data, input]
    | some mem =>
      simp only [action, data, input, Option.bind_some, reduceCtorEq, iff_false]
      split <;> simp
  | clearByteBuffer => simp [action, data, input]
  | flushByteBuffer => simp [action, data, input]

/-- A write without data is no action. -/
theorem BioOp.action_of_input {op : BioOp} {call : Option (List Byte) × Int}
    (hinput : op.input = some call) (hdata : op.data = none) : op.action = none := by
  cases op with
  | write inp inl | puts inp => simp [action, hdata]
  | read out outl => cases hinput
  | setByteBuffer mem max sink => cases hinput
  | clearByteBuffer => cases hinput
  | flushByteBuffer => cases hinput

/-- An operation without data reports no accepted bytes and leaves the stream
alone. -/
theorem Refines.idle_stream {x : BioEntry} (h : Refines x.pre x.event x.ret x.post)
    (hdata : x.event.data = none) :
    x.post.view.stream = x.pre.view.stream ∧ Honest x ∧ accepted x = [] := by
  obtain ⟨pre, op, r, post⟩ := x
  simp only at h hdata ⊢
  refine ⟨?_, ?_⟩
  · cases haction : op.action with
    | none => rw [(h.idle haction).1]
    | some a =>
      rw [(h.acts a haction).1, Pipe.step_conserves]
      cases a with
      | offer bs =>
        rw [BioOp.action_eq_offer, hdata] at haction
        cases haction
      | take n => simp [Pipe.accepted]
      | «open» window => simp [Pipe.accepted]
      | flush => simp [Pipe.accepted]
  · cases hinput : op.input with
    | none => simp [Honest, accepted, hinput]
    | some call =>
      obtain ⟨inp, inl⟩ := call
      rcases (h.idle (BioOp.action_of_input hinput hdata)).2 with ⟨out, rfl⟩ | ⟨cause, rfl⟩
      · cases inp <;> simp [Honest, accepted, hinput]
      · simp [Honest, accepted, hinput]

theorem Layout.view_room {w : BioWorld} (h : Layout w.bio.data) :
    w.view.window.room =
      if w.bio.data.bufferIsSSLWriteSink then w.bio.data.bufferLength.toNat else 0 := by
  cases hsink : w.bio.data.bufferIsSSLWriteSink with
  | false =>
    rw [w.view_of_not_sink hsink]
    cases w.bio.data.buffer <;> rfl
  | true =>
    cases hbuf : w.bio.data.buffer with
    | none => simp [(h.no_window hbuf).2] at hsink
    | some p => rw [w.view_of_sink hbuf hsink]; rfl

/-- An operation with data is refused, or returns the bytes it drained and the
bytes it added to the stream in one sum. -/
theorem Refines.offer_stream {x : BioEntry} (h : Refines x.pre x.event x.ret x.post)
    (hpre : Layout x.pre.bio.data) {bs : List Byte} (hdata : x.event.data = some bs) :
    (∃ out, x.ret = .returned (-1) out ∧ x.post.view.stream = x.pre.view.stream ∧
      ¬ DrainsFirst x.pre x.event) ∨
    ∃ d n : Nat, x.ret = .returned (d + n) none ∧ n ≤ bs.length ∧
      x.post.view.stream = x.pre.view.stream ++ bs.take n ∧
      (d ≠ 0 ↔ DrainsFirst x.pre x.event) := by
  obtain ⟨pre, op, r, post⟩ := x
  simp only at h hpre hdata ⊢
  obtain ⟨hview, hreports⟩ := h.acts _ (BioOp.action_eq_offer.mpr hdata)
  have hstream := Pipe.step_conserves pre.view (.offer bs)
  have hlen := hpre.length_nonneg
  have hroom := hpre.room_nonneg
  have hqueue : pre.view.queue.length = pre.bio.data.nonApplicationBufferLength.toNat :=
    hpre.queue_length
  have hdrains : min pre.view.window.room pre.view.queue.length ≠ 0 ↔ DrainsFirst pre op := by
    rw [hpre.view_room, hqueue]
    simp only [DrainsFirst, hdata, Option.isSome_some, true_and]
    cases pre.bio.data.bufferIsSSLWriteSink with
    | false => simp
    | true =>
      simp only [if_true, true_and]
      omega
  rcases Pipe.step_offer_cases pre.view bs with ⟨hstep, hfull⟩ | ⟨n, hstep, hn⟩
  · rw [hstep] at hreports hstream
    obtain ⟨out, rfl⟩ := hreports
    refine .inl ⟨out, rfl, ?_, ?_⟩
    · rw [hview, hstream]
      simp [Pipe.accepted]
    · rw [← hdrains, hfull]
      simp
  · rw [hstep] at hreports hstream
    simp only [Reports] at hreports
    refine .inr ⟨_, n, hreports, hn, ?_, hdrains⟩
    rw [hview, hstream]
    rfl

/-- A step that separates reports exactly the bytes it adds to the stream. -/
theorem Refines.separate_stream {x : BioEntry} (h : Refines x.pre x.event x.ret x.post)
    (hpre : Layout x.pre.bio.data) (hsep : ¬ DrainsFirst x.pre x.event) :
    x.post.view.stream = x.pre.view.stream ++ accepted x ∧ Honest x := by
  cases hdata : x.event.data with
  | none =>
    obtain ⟨hstream, hhonest, hnone⟩ := h.idle_stream hdata
    exact ⟨by rw [hnone, List.append_nil, hstream], hhonest⟩
  | some bs =>
    obtain ⟨inp, inl, hinput, hinl, rfl⟩ := BioOp.input_of_data hdata
    rcases h.offer_stream hpre hdata with ⟨out, hret, hstream, -⟩ | ⟨d, n, hret, hn, hstream, hd⟩
    · exact ⟨by simp [accepted, hinput, hret, hstream], by simp [Honest, hinput, hret]⟩
    · -- Nothing was drained, so the sum it returns is what it accepted.
      obtain rfl : d = 0 := by
        by_contra hne
        exact hsep (hd.mp hne)
      have hle : n ≤ inl.toNat := by
        rw [List.length_take] at hn
        omega
      refine ⟨?_, ?_⟩
      · simp [accepted, hinput, hret, hstream, List.take_take, Nat.min_eq_left hle]
      · simp only [Honest, hinput, hret]
        omega

/-- A step that drains first reports more bytes than it adds to the stream. -/
theorem Refines.drainsFirst_stream {x : BioEntry} (h : Refines x.pre x.event x.ret x.post)
    (hpre : Layout x.pre.bio.data) (hwf : x.event.Wf) (hdrains : DrainsFirst x.pre x.event) :
    ¬ (x.post.view.stream = x.pre.view.stream ++ accepted x ∧ Honest x) := by
  rintro ⟨hconserved, hhonest⟩
  obtain ⟨bs, hdata⟩ := Option.isSome_iff_exists.mp hdrains.1
  obtain ⟨inp, inl, hinput, hinl, rfl⟩ := BioOp.input_of_data hdata
  rcases h.offer_stream hpre hdata with ⟨-, -, -, hnot⟩ | ⟨d, n, hret, hn, hstream, hd⟩
  · exact hnot hdrains
  · -- The stream grew by n bytes, but d + n are reported.
    have hpos : d ≠ 0 := hd.mpr hdrains
    have hle : ((d + n : Nat) : Int) ≤ inl := by
      simp only [Honest, hinput, hret] at hhonest
      omega
    have hinp := hwf.input_le hinput hinl
    have hlen : (accepted x).length = d + n := by
      simp only [accepted, hinput, hret, List.length_take]
      omega
    have hsame : accepted x = (inp.take inl.toNat).take n := by
      rw [hstream] at hconserved
      exact (List.append_cancel_left hconserved).symm
    rw [hsame, List.length_take] at hlen
    omega

private theorem run_separates {mem : List Byte} (hmem : IsRing mem) {ops : List BioOp}
    (hwf : ∀ op ∈ ops, op.Wf) (hsep : Machine.Meets bioStep Separates (.fresh mem) ops) :
    ∃ t w, bioRun mem ops = .ok (t, w) ∧ Layout w.bio.data ∧ (∀ x ∈ t, Honest x) ∧
      w.view.stream = t.flatMap accepted := by
  have hall : Machine.Meets bioStep (fun w op => op.Wf ∧ Separates w op) (.fresh mem) ops :=
    Machine.meets_and.mpr ⟨Machine.meets_of_forall hwf, hsep⟩
  obtain ⟨t, w, hrun, hw, ht⟩ := Machine.run_of_meets
    (P := fun w op => op.Wf ∧ Separates w op) (I := fun w => Layout w.bio.data)
    (Q := fun x => x.post.view.stream = x.pre.view.stream ++ accepted x ∧ Honest x)
    (by
      rintro w op hw ⟨hop, hover, hdrains⟩
      obtain ⟨r, w', hok, href⟩ := bioStep_refines hw hop hover
      exact ⟨r, w', hok, href.layout,
        Refines.separate_stream (x := ⟨w, op, r, w'⟩) href hw hdrains⟩)
    hmem.layout hall
  refine ⟨t, w, hrun, hw, fun x hx => (ht x hx).2, ?_⟩
  have hfresh : (BioWorld.fresh mem).view.stream = [] := by
    simp [Pipe.stream, BioWorld.view, BioWorld.placed, BioWorld.current, BioWorld.fresh,
      bioJavaBytebufferCreate, TcnBioBytebuffer.queue]
  rw [Machine.run_conserves (fun w => w.view.stream) hrun fun x hx => (ht x hx).1, hfresh,
    List.nil_append]

/-- The output stream of a run is first-in first-out in every state it reaches
if and only if none of its operations overruns the internal buffer or drains it
on behalf of a write. -/
theorem bioRun_fifo_iff {mem : List Byte} (hmem : IsRing mem) {ops : List BioOp}
    (hwf : ∀ op ∈ ops, op.Wf) :
    (∀ ops₁, ops₁ <+: ops → Fifo mem ops₁) ↔
      Machine.Meets bioStep Separates (.fresh mem) ops := by
  refine Machine.forall_prefix_iff_meets hwf ?_ ?_
  · intro ops hwf hsep
    obtain ⟨t, w, hrun, -, hhonest, hstream⟩ := run_separates hmem hwf hsep
    exact ⟨t, w, hrun, hhonest, hstream⟩
  · rintro ops op hwf hop hsep t w hrun hnot ⟨t', w', hrun', hhonest, hstream'⟩
    obtain ⟨t₁, w₁, hrun₁, hw, -, hstream⟩ := run_separates hmem hwf hsep
    obtain ⟨rfl, rfl⟩ : t₁ = t ∧ w₁ = w := by
      simpa [bioRun, hrun] using hrun₁.symm
    -- The first step that does not separate faults, or reports drained bytes.
    by_cases hover : Overruns w₁ op
    · obtain ⟨f, hf⟩ := bioStep_overruns hw hover
      simp [Machine.run_snoc_error hrun hf] at hrun'
    · have hdrains : DrainsFirst w₁ op := by
        by_contra hdrains
        exact hnot ⟨hover, hdrains⟩
      obtain ⟨r, w₂, hok, href⟩ := bioStep_refines hw hop hover
      let x : BioEntry := ⟨w₁, op, r, w₂⟩
      obtain ⟨rfl, rfl⟩ : t₁ ++ [x] = t' ∧ w₂ = w' := by
        simpa [bioRun, Machine.run_snoc hrun hok] using hrun'
      refine Refines.drainsFirst_stream (x := x) href hw hop hdrains ⟨?_, hhonest x (by simp)⟩
      change w₂.placed ++ w₂.bio.data.queue = w₁.view.stream ++ accepted x
      rw [hstream', hstream, List.flatMap_append, List.flatMap_singleton]

/-- A queued write that is flushed before the next write. -/
theorem bioRun_fifo_flushed :
    Fifo [0, 0, 0, 0]
      [.write (some [1]) 1, .setByteBuffer (some [0, 0, 0, 0]) 4 true, .flushByteBuffer,
        .write (some [2]) 1] :=
  (bioRun_fifo_iff ⟨by decide, by decide⟩ (by simp [BioOp.Wf, IsJint])).mpr (by decide)
    _ List.prefix_rfl

/-- Operations that queue a byte and then write one byte to a sink, without a
flush in between. -/
def unflushedOps : List BioOp :=
  [.write (some [1]) 1, .setByteBuffer (some [0, 0, 0, 0]) 4 true, .write (some [2]) 1]

/-- The second write of one byte returns two. -/
theorem bioRun_unflushed :
    IsRing [0, 0, 0, 0] ∧ (∀ op ∈ unflushedOps, op.Wf) ∧
      (bioRun [0, 0, 0, 0] unflushedOps).toOption.map (fun run => run.1.map Machine.Entry.ret) =
        some [.returned 1 none, .returned 0 none, .returned 2 none] ∧
      ¬ Fifo [0, 0, 0, 0] unflushedOps :=
  ⟨⟨by decide, by decide⟩, by simp [unflushedOps, BioOp.Wf, IsJint], by decide, by decide⟩

end Bio
