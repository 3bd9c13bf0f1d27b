-- SUMMARY: The ByteBuffer BIO refines the pipe, as long as no queueing write meets a queue that wraps.
import Tcnative.Base.Machine
import Tcnative.Bio.Layout
import Tcnative.Bio.Pipe

/-!
# The BIO refines the pipe

`BioWorld.view` reads a BIO as a pipe. Every operation keeps the layout and
acts on the view as the corresponding action of the pipe, except for a queueing
write that meets a queue reaching over the end of the internal buffer, which
leaves defined behaviour.
-/

namespace Bio
open CMem RingBuffer

/-! ## Reading a BIO as a pipe -/

/-- The bytes placed in a window, if it was handed out as a sink. -/
def placedIn (window : CharPtr × Bool) : List Byte :=
  if window.2 then window.1.block.take window.1.pos.toNat else []

/-- The bytes placed so far in all sink windows, in order. -/
def BioWorld.placed (w : BioWorld) : List Byte := (w.retired ++ w.current).flatMap placedIn

/-- The window of the BIO. -/
def TcnBioBytebuffer.window (b : TcnBioBytebuffer) : Window Byte :=
  match b.buffer with
  | none => .closed
  | some p =>
    if b.bufferIsSSLWriteSink then .sink b.bufferLength.toNat
    else .source (p.block.drop p.pos.toNat)

/-- The BIO as a pipe. -/
def BioWorld.view (w : BioWorld) : Pipe Byte where
  capacity := w.bio.data.nonApplicationBufferSize.toNat
  queue := w.bio.data.queue
  delivered := w.placed
  window := w.bio.data.window

/-- The operation passes data on: it is a write with a non-NULL pointer and a
positive length. -/
def BioOp.data (op : BioOp) : Option (List Byte) :=
  match op.input with
  | some (some inp, inl) => if 0 < inl then some (inp.take inl.toNat) else none
  | _ => none

/-- The action of the pipe that an operation stands for. Calls with a NULL
pointer or a length that is not positive do nothing. -/
def BioOp.action (op : BioOp) : Option (Pipe.Action Byte) :=
  match op with
  | .write _ _ | .puts _ => op.data.map .offer
  | .read out outl => if out.isSome ∧ 0 < outl then some (.take outl.toNat) else none
  | .setByteBuffer mem max sink =>
    mem.bind fun bs =>
      if 0 ≤ max then some (.open (if sink then .sink max.toNat else .source bs)) else none
  | .clearByteBuffer => some (.open .closed)
  | .flushByteBuffer => some .flush

/-- How the BIO reports an outcome of the pipe. An offer reports the drained
and the accepted bytes in one sum. -/
def Reports : Pipe.Outcome Byte → BioResult → Prop
  | .offered drained accepted, r => r = .returned (drained + accepted) none
  | .taken bs, r => ∃ rest, r = .returned bs.length (some (bs ++ rest))
  | .flushed drained, r => r = .returned drained none
  | .opened, r => r = .returned 0 none
  | .again, r => ∃ out, r = .returned (-1) out

/-- An operation that stands for no action changes nothing the view shows. -/
def Idles (r : BioResult) : Prop := (∃ out, r = .returned 0 out) ∨ ∃ cause, r = .thrown cause

/-- The step acts on the view as the operation's action. -/
structure Refines (w : BioWorld) (op : BioOp) (r : BioResult) (w' : BioWorld) : Prop where
  layout : Layout w'.bio.data
  idle : op.action = none → w'.view = w.view ∧ Idles r
  acts : ∀ a, op.action = some a →
    w'.view = (w.view.step a).2 ∧ Reports (w.view.step a).1 r

/-- A queueing write that finds room, behind a queue that reaches over the end
of the internal buffer. -/
def Overruns (w : BioWorld) (op : BioOp) : Prop :=
  op.data.isSome ∧ w.bio.data.bufferIsSSLWriteSink = false ∧
    w.bio.data.nonApplicationBufferLength ≠ w.bio.data.nonApplicationBufferSize ∧
    w.bio.data.nonApplicationBufferSize <
      w.bio.data.nonApplicationBufferOffset + w.bio.data.nonApplicationBufferLength

instance (w : BioWorld) (op : BioOp) : Decidable (Overruns w op) :=
  inferInstanceAs (Decidable (_ ∧ _))

/-! ## Lemmas about the view -/

/-- The view of a BIO whose window is a sink. -/
theorem BioWorld.view_of_sink (w : BioWorld) {p : CharPtr} (hp : w.bio.data.buffer = some p)
    (hsink : w.bio.data.bufferIsSSLWriteSink = true) :
    w.view =
      { capacity := w.bio.data.nonApplicationBufferSize.toNat
        queue := w.bio.data.queue
        delivered := w.retired.flatMap placedIn ++ p.block.take p.pos.toNat
        window := .sink w.bio.data.bufferLength.toNat } := by
  simp [view, placed, current, placedIn, TcnBioBytebuffer.window, hp, hsink]

/-- The view of a BIO whose window is not a sink. -/
theorem BioWorld.view_of_not_sink (w : BioWorld)
    (hsink : w.bio.data.bufferIsSSLWriteSink = false) :
    w.view =
      { capacity := w.bio.data.nonApplicationBufferSize.toNat
        queue := w.bio.data.queue
        delivered := w.retired.flatMap placedIn
        window :=
          match w.bio.data.buffer with
          | none => .closed
          | some p => .source (p.block.drop p.pos.toNat) } := by
  cases hp : w.bio.data.buffer <;>
    simp [view, placed, current, placedIn, TcnBioBytebuffer.window, hp, hsink]

/-- A copy into a sink delivers the bytes and takes up their room. -/
theorem view_stored {w : BioWorld} (h : Layout w.bio.data) {p : CharPtr}
    (hp : w.bio.data.buffer = some p) (hsink : w.bio.data.bufferIsSSLWriteSink = true)
    (bs : List Byte) (hbs : (bs.length : Int) ≤ w.bio.data.bufferLength) (flags : RetryFlags) :
    BioWorld.view { w with bio := ⟨flags, w.bio.data.stored p bs⟩ } =
      { w.view with
        delivered := w.view.delivered ++ bs
        window := .sink (w.bio.data.bufferLength.toNat - bs.length) } := by
  obtain ⟨hpos, hblock⟩ := h.window p hp
  have hend : (p.pos + bs.length).toNat = p.pos.toNat + bs.length := by omega
  have hroom : (w.bio.data.bufferLength - bs.length).toNat =
      w.bio.data.bufferLength.toNat - bs.length := by omega
  rw [BioWorld.view_of_sink { w with bio := ⟨flags, w.bio.data.stored p bs⟩ } rfl hsink,
    BioWorld.view_of_sink w hp hsink]
  have htake : (splice p.block p.pos.toNat bs).take (p.pos.toNat + bs.length) =
      p.block.take p.pos.toNat ++ bs := splice_take (by omega)
  simp only [TcnBioBytebuffer.stored_queue]
  simp only [TcnBioBytebuffer.stored, hend, hroom, htake, List.append_assoc]

/-- A drain of the BIO is a drain of the pipe. -/
theorem view_drained {w : BioWorld} (h : Layout w.bio.data) {p : CharPtr}
    (hp : w.bio.data.buffer = some p) (hsink : w.bio.data.bufferIsSSLWriteSink = true)
    {n : Int} (hn : min w.bio.data.bufferLength w.bio.data.nonApplicationBufferLength = n)
    (flags : RetryFlags) :
    w.view.drain w.bio.data.bufferLength.toNat =
      (n.toNat, BioWorld.view { w with bio := ⟨flags, w.bio.data.drained p n⟩ }) := by
  have hlen := h.length_nonneg
  have hroom := h.room_nonneg
  obtain ⟨hpos, hblock⟩ := h.window p hp
  have hcount : min w.bio.data.bufferLength.toNat w.bio.data.queue.length = n.toNat := by
    rw [h.queue_length]
    omega
  have htaken := h.queue_take_length (n := n) (by omega)
  have hend : (p.pos + n).toNat =
      p.pos.toNat + (w.bio.data.queue.take n.toNat).length := by omega
  have hleft : (w.bio.data.bufferLength - n).toNat =
      w.bio.data.bufferLength.toNat - n.toNat := by omega
  rw [BioWorld.view_of_sink { w with bio := ⟨flags, w.bio.data.drained p n⟩ } rfl hsink,
    BioWorld.view_of_sink w hp hsink]
  simp only [Pipe.drain, hcount, h.drained_queue p (n := n) (by omega) (by omega)]
  have htake : (splice p.block p.pos.toNat (w.bio.data.queue.take n.toNat)).take
      (p.pos.toNat + (w.bio.data.queue.take n.toNat).length) =
      p.block.take p.pos.toNat ++ w.bio.data.queue.take n.toNat := splice_take (by omega)
  simp only [TcnBioBytebuffer.drained, hend, hleft, htake, List.append_assoc]

/-! ## Writes -/

/-- What a call leaves behind, read as the action `a` of the pipe. -/
structure Performs (w : BioWorld) (a : Pipe.Action Byte) (r : BioResult) (bio : JavaBio) :
    Prop where
  layout : Layout bio.data
  view : BioWorld.view { w with bio } = (w.view.step a).2
  reports : Reports (w.view.step a).1 r

/-- A call that asks to be repeated changes nothing but the retry flags. -/
theorem Performs.refused {w : BioWorld} {a : Pipe.Action Byte} (h : Layout w.bio.data)
    (hstep : w.view.step a = (.again, w.view)) (flags : RetryFlags) (out : Option (List Byte)) :
    Performs w a (.returned (-1) out) ⟨flags, w.bio.data⟩ where
  layout := h
  view := by
    rw [hstep]
    rfl
  reports := by
    rw [hstep]
    exact ⟨out, rfl⟩

/-- A queueing write is an offer to a pipe without a sink. -/
theorem writeToInternalBuffer_performs {w : BioWorld} (h : Layout w.bio.data)
    (hsink : w.bio.data.bufferIsSSLWriteSink = false) {inp : List Byte} {inl : Int}
    (hinl : 0 < inl) (hinp : inl ≤ inp.length)
    (hfit : w.bio.data.nonApplicationBufferLength ≠ w.bio.data.nonApplicationBufferSize →
      w.bio.data.nonApplicationBufferOffset + w.bio.data.nonApplicationBufferLength ≤
        w.bio.data.nonApplicationBufferSize) :
    ∃ ret bio, writeToInternalBuffer w.bio inp inl = .ok (ret, bio) ∧
      Performs w (.offer (inp.take inl.toNat)) (.returned ret none) bio := by
  have hlen := h.length_nonneg
  have hlen' := h.length_le
  have hqueue := h.queue_length
  have hview := w.view_of_not_sink hsink
  have hwindow : ∀ room, w.view.window ≠ .sink room := by
    rw [hview]
    cases w.bio.data.buffer <;> simp
  -- A full buffer refuses the offer, and otherwise a prefix of it is queued.
  by_cases hfull : w.bio.data.nonApplicationBufferLength = w.bio.data.nonApplicationBufferSize
  · have hstep : w.view.step (.offer (inp.take inl.toNat)) = (.again, w.view) :=
      Pipe.step_offer_full hwindow (by simp only [BioWorld.view]; omega) _
    exact ⟨-1, _, writeToInternalBuffer_full inp inl hfull, .refused h hstep _ none⟩
  · obtain ⟨ring, hok, hring, hcontents⟩ :=
      writeToInternalBuffer_ok h hfull (hfit hfull) hinl hinp rfl
    generalize hn : min (w.bio.data.nonApplicationBufferSize -
      w.bio.data.nonApplicationBufferLength) inl = n at *
    have hcount : min (w.view.capacity - w.view.queue.length) (inp.take inl.toNat).length =
        n.toNat := by
      simp only [BioWorld.view, List.length_take]
      omega
    have htake : (inp.take inl.toNat).take n.toNat = inp.take n.toNat := by
      rw [List.take_take, Nat.min_eq_left (by omega)]
    have hstep : w.view.step (.offer (inp.take inl.toNat)) =
        (.offered 0 n.toNat, { w.view with queue := w.view.queue ++ inp.take n.toNat }) := by
      rw [Pipe.step_offer_queue hwindow (by simp only [BioWorld.view]; omega) hcount, htake]
    refine ⟨n, _, hok, h.queued hring (by omega) (by omega), ?_, ?_⟩
    · rw [hstep, BioWorld.view_of_not_sink _ (by exact hsink), hview]
      simp only [TcnBioBytebuffer.queue] at hcontents ⊢
      rw [hcontents]
    · rw [hstep]
      simp only [Reports]
      congr 1
      omega

/-- A write into a window that is a sink is an offer to a pipe with a sink. -/
theorem writeToSink_performs {w : BioWorld} (h : Layout w.bio.data)
    (hsink : w.bio.data.bufferIsSSLWriteSink = true) {inp : List Byte} {inl : Int}
    (hinl : 0 < inl) (hinp : inl ≤ inp.length) :
    ∃ ret bio, writeToSink w.bio inp inl = .ok (ret, bio) ∧
      Performs w (.offer (inp.take inl.toNat)) (.returned ret none) bio := by
  have hlen := h.length_nonneg
  have hroom := h.room_nonneg
  obtain ⟨p, hp⟩ : ∃ p, w.bio.data.buffer = some p := by
    cases hbuf : w.bio.data.buffer with
    | none => simp [(h.no_window hbuf).2] at hsink
    | some p => exact ⟨p, rfl⟩
  have hwindow : w.view.window = .sink w.bio.data.bufferLength.toNat := by
    rw [w.view_of_sink hp hsink]
  by_cases hfull : w.bio.data.bufferLength = 0
  · have hstep : w.view.step (.offer (inp.take inl.toNat)) = (.again, w.view) := by
      simp [Pipe.step, hwindow, hfull]
    refine ⟨-1, w.bio.setRetryWrite, ?_, .refused h hstep _ none⟩
    rw [writeToSink, if_pos (.inr hfull)]
  · obtain ⟨b, q, hok, hb, hq, hbd⟩ := writeToSink_ok h hp hfull hinl hinp rfl rfl
    generalize hd : min w.bio.data.bufferLength w.bio.data.nonApplicationBufferLength = d at *
    generalize hn : min (w.bio.data.bufferLength - d) inl = n at *
    have hbs : (inp.take n.toNat).length = n.toNat := by
      rw [List.length_take]
      omega
    have htake : (inp.take inl.toNat).take n.toNat = inp.take n.toNat := by
      rw [List.take_take, Nat.min_eq_left (by omega)]
    -- With nothing queued the drain of the pipe is the identity.
    have hdrain : w.view.drain w.bio.data.bufferLength.toNat =
        (d.toNat, BioWorld.view { w with bio := ⟨w.bio.flags, b⟩ }) ∧
        b.bufferLength = w.bio.data.bufferLength - d ∧ b.bufferIsSSLWriteSink = true := by
      rcases hbd with ⟨rfl, rfl⟩ | ⟨-, rfl⟩
      · have hnil : w.bio.data.queue = [] := h.queue_eq_nil.mpr (by omega)
        refine ⟨?_, by omega, hsink⟩
        simp [Pipe.drain, w.view_of_sink hp hsink, hnil]
      · exact ⟨view_drained h hp hsink hd w.bio.flags, rfl, hsink⟩
    obtain ⟨hdrain, hleft, hsink'⟩ := hdrain
    -- The copy of the data goes behind what the drain has placed.
    have hstored := view_stored (w := { w with bio := ⟨w.bio.flags, b⟩ }) hb hq hsink'
      (inp.take n.toNat) (by simp only; omega) w.bio.flags
    have hstep : w.view.step (.offer (inp.take inl.toNat)) =
        (.offered d.toNat n.toNat,
          BioWorld.view { w with bio := ⟨w.bio.flags, b.stored q (inp.take n.toNat)⟩ }) := by
      have hcount : min (w.bio.data.bufferLength.toNat - d.toNat)
          (inp.take inl.toNat).length = n.toNat := by
        rw [List.length_take]
        omega
      rw [hstored, Pipe.step_offer_sink hwindow (by omega) hdrain hcount]
      simp only [htake, hbs, hleft]
      congr 3
      omega
    refine ⟨d + n, _, hok, hb.stored hq (by omega), ?_, ?_⟩
    · rw [hstep]
    · rw [hstep]
      simp only [Reports]
      congr 1
      omega

theorem tcnWriteToBytebuffer_performs {w : BioWorld} (h : Layout w.bio.data) {inp : List Byte}
    {inl : Int} (hinl : 0 < inl) (hinp : inl ≤ inp.length)
    (hfit : w.bio.data.bufferIsSSLWriteSink = false →
      w.bio.data.nonApplicationBufferLength ≠ w.bio.data.nonApplicationBufferSize →
      w.bio.data.nonApplicationBufferOffset + w.bio.data.nonApplicationBufferLength ≤
        w.bio.data.nonApplicationBufferSize) :
    ∃ ret bio, tcnWriteToBytebuffer w.bio (some inp) inl = .ok (ret, bio) ∧
      Performs w (.offer (inp.take inl.toNat)) (.returned ret none) bio := by
  simp only [tcnWriteToBytebuffer]
  rw [if_neg (by omega)]
  cases hsink : w.bio.data.bufferIsSSLWriteSink with
  | false => exact writeToInternalBuffer_performs h hsink hinl hinp (hfit hsink)
  | true => exact writeToSink_performs h hsink hinl hinp

/-! ## Reads and flushes -/

/-- A read takes from a source window, and asks to be repeated without one. -/
theorem tcnReadFromBytebuffer_performs {w : BioWorld} (h : Layout w.bio.data) {out : List Byte}
    {outl : Int} (houtl : 0 < outl) (hout : (out.length : Int) = outl) :
    ∃ ret out' bio, tcnReadFromBytebuffer w.bio (some out) outl = .ok (ret, out', bio) ∧
      Performs w (.take outl.toNat) (.returned ret out') bio := by
  have hroom := h.room_nonneg
  have hroom' := h.room_jint
  simp only [tcnReadFromBytebuffer]
  rw [if_neg (by omega)]
  split
  · rename_i p hsink hp
    obtain ⟨hpos, hblock⟩ := h.window p hp
    have hview := w.view_of_not_sink hsink
    have hwindow : w.view.window = .source (p.block.drop p.pos.toNat) := by rw [hview, hp]
    by_cases hempty : w.bio.data.bufferLength = 0
    · have hleft : w.view.window.left = [] := by
        rw [hwindow]
        exact List.drop_eq_nil_of_le (by omega)
      rw [if_pos hempty]
      exact ⟨-1, some out, _, rfl, .refused h (Pipe.step_take_again hleft _) _ (some out)⟩
    · rw [if_neg hempty]
      -- The bytes left in the window are those behind its position.
      generalize hn : min w.bio.data.bufferLength outl = n
      have hslice : slice p.block p.pos.toNat n.toNat =
          (p.block.drop p.pos.toNat).take outl.toNat := by
        rw [slice, List.take_eq_take_iff, List.length_drop]
        omega
      have hrest : (p.block.drop p.pos.toNat).drop outl.toNat =
          p.block.drop (p.pos + n).toNat := by
        rw [List.drop_drop, List.drop_eq_drop_iff]
        omega
      have hlength : (slice p.block p.pos.toNat n.toNat).length = n.toNat := by
        rw [slice_length]
        omega
      have hstep : w.view.step (.take outl.toNat) =
          (.taken (slice p.block p.pos.toNat n.toNat),
            { w.view with window := .source (p.block.drop (p.pos + n).toNat) }) := by
        have hleft : p.block.drop p.pos.toNat ≠ [] := by
          rw [ne_eq, List.drop_eq_nil_iff]
          omega
        rw [Pipe.step_take_source hwindow hleft, hslice, hrest]
      simp only [bind, Except.bind]
      rw [memcpy_ok (by omega) (by omega) (by omega) hpos (by omega)]
      simp only
      rw [jint_ok (by unfold IsJint; omega)]
      refine ⟨n, _, _, rfl, ?_, ?_, ?_⟩
      · exact h.consumed hp (by omega) (by omega)
      · rw [hstep, BioWorld.view_of_not_sink _ (by exact hsink), hview]
        simp only
        rfl
      · rw [hstep]
        refine ⟨out.drop n.toNat, ?_⟩
        simp only [splice, Int.toNat_zero, List.take_zero, List.nil_append, Nat.zero_add, hlength]
        congr 1
        omega
  · rename_i hnot
    have hleft : w.view.window.left = [] := by
      simp only [BioWorld.view, TcnBioBytebuffer.window]
      cases hbuf : w.bio.data.buffer with
      | none => rfl
      | some p =>
        cases hsink : w.bio.data.bufferIsSSLWriteSink with
        | true => rfl
        | false => exact absurd hbuf (hnot p hsink)
    exact ⟨-1, some out, _, rfl, .refused h (Pipe.step_take_again hleft _) _ (some out)⟩

/-- A flush drains the queue into a sink, and does nothing without one. -/
theorem bioFlushByteBuffer_performs {w : BioWorld} (h : Layout w.bio.data) :
    ∃ ret bio, bioFlushByteBuffer w.bio = .ok (ret, bio) ∧
      Performs w .flush (.returned ret none) bio := by
  have hlen := h.length_nonneg
  have hroom := h.room_nonneg
  simp only [bioFlushByteBuffer]
  by_cases hidle : w.bio.data.nonApplicationBufferLength = 0 ∨ w.bio.data.buffer = none ∨
      w.bio.data.bufferIsSSLWriteSink = false
  · rw [if_pos hidle]
    have hstep : w.view.step .flush = (.flushed 0, w.view) := by
      cases hw : w.view.window with
      | closed => simp [Pipe.step, hw]
      | source left => simp [Pipe.step, hw]
      | sink room =>
        -- A sink is in use, so the queue is what is empty.
        have hnil : w.view.queue = [] := by
          rcases hidle with hidle | hidle | hidle
          · exact h.queue_eq_nil.mpr hidle
          · simp [BioWorld.view, TcnBioBytebuffer.window, hidle] at hw
          · rw [w.view_of_not_sink hidle] at hw
            cases hbuf : w.bio.data.buffer <;> simp [hbuf] at hw
        simp [Pipe.step, Pipe.drain, hw, hnil]
        rw [← hw, ← hnil]
    exact ⟨0, _, rfl, h, by rw [hstep], by rw [hstep]; rfl⟩
  · rw [if_neg hidle]
    simp only [not_or, Bool.not_eq_false] at hidle
    obtain ⟨hqueue, hbuf, hsink⟩ := hidle
    obtain ⟨p, hp⟩ := Option.ne_none_iff_exists'.mp hbuf
    generalize hn : min w.bio.data.bufferLength w.bio.data.nonApplicationBufferLength = n
    have hstep : w.view.step .flush = (.flushed n.toNat,
        BioWorld.view { w with bio := ⟨w.bio.flags, w.bio.data.drained p n⟩ }) := by
      have hwindow : w.view.window = .sink w.bio.data.bufferLength.toNat := by
        rw [w.view_of_sink hp hsink]
      simp [Pipe.step, hwindow, view_drained h hp hsink hn w.bio.flags]
    simp only [tcnFlushSslbufferToBytebuffer_ok h hp hn, bind, Except.bind]
    refine ⟨n, _, rfl, h.drained hp (by omega) (by omega) (by omega), ?_, ?_⟩
    · rw [hstep]
    · rw [hstep]
      simp only [Reports]
      congr 1
      omega

/-! ## Every operation -/

theorem BioOp.data_of_input {op : BioOp} {inp : List Byte} {inl : Int}
    (hinput : op.input = some (some inp, inl)) (hinl : 0 < inl) :
    op.data = some (inp.take inl.toNat) := by
  simp [data, hinput, hinl]

theorem BioOp.data_eq_none {op : BioOp} {inp : Option (List Byte)} {inl : Int}
    (hinput : op.input = some (inp, inl)) (h : inp = none ∨ inl ≤ 0) : op.data = none := by
  rcases h with rfl | h
  · simp [data, hinput]
  · cases inp with
    | none => simp [data, hinput]
    | some inp => simp [data, hinput, show ¬ 0 < inl by omega]

/-- The two operations that write share their steps. -/
private theorem write_refines {w : BioWorld} (h : Layout w.bio.data) {op : BioOp}
    (inp : Option (List Byte)) (inl : Int) (hinput : op.input = some (inp, inl))
    (haction : op.action = op.data.map .offer)
    (hinp : ∀ bs, inp = some bs → 0 < inl → inl ≤ bs.length) (hfit : ¬ Overruns w op) :
    ∃ ret bio, tcnWriteToBytebuffer w.bio.clearRetryFlags inp inl = .ok (ret, bio) ∧
      Refines w op (.returned ret none) { w with bio } := by
  -- A call without data returns 0 and is no action of the pipe.
  by_cases hskip : inp = none ∨ inl ≤ 0
  · have hnone : op.action = none := by rw [haction, BioOp.data_eq_none hinput hskip]; rfl
    refine ⟨0, w.bio.clearRetryFlags, ?_, h, fun _ => ⟨rfl, .inl ⟨none, rfl⟩⟩, ?_⟩
    · rcases hskip with rfl | hinl
      · rfl
      · cases inp with
        | none => rfl
        | some bs => simp only [tcnWriteToBytebuffer, if_pos hinl]
    · intro a ha
      rw [hnone] at ha
      cases ha
  · simp only [not_or, Int.not_le] at hskip
    obtain ⟨hsome, hinl⟩ := hskip
    obtain ⟨bs, rfl⟩ := Option.ne_none_iff_exists'.mp hsome
    have hdata := BioOp.data_of_input hinput hinl
    obtain ⟨ret, bio, hok, hdone⟩ := tcnWriteToBytebuffer_performs
      (w := { w with bio := w.bio.clearRetryFlags }) h hinl (hinp bs rfl hinl) (by
        intro hsink hroom
        simp only [Overruns, hdata, not_and, Int.not_lt] at hfit
        exact hfit rfl hsink hroom)
    refine ⟨ret, bio, hok, hdone.layout, ?_, ?_⟩
    · intro hnone
      rw [haction, hdata] at hnone
      cases hnone
    · intro a ha
      rw [haction, hdata] at ha
      cases ha
      exact ⟨hdone.view, hdone.reports⟩

private theorem read_refines {w : BioWorld} (h : Layout w.bio.data) {out : Option (List Byte)}
    {outl : Int} (hout : ∀ bs, out = some bs → 0 < outl → (bs.length : Int) = outl) :
    ∃ ret out' bio, tcnReadFromBytebuffer w.bio.clearRetryFlags out outl = .ok (ret, out', bio) ∧
      Refines w (.read out outl) (.returned ret out') { w with bio } := by
  by_cases hskip : out = none ∨ outl ≤ 0
  · have hnone : (BioOp.read out outl).action = none := by
      simp only [BioOp.action]
      rw [if_neg]
      rintro ⟨hsome, houtl⟩
      rcases hskip with rfl | hskip
      · cases hsome
      · omega
    refine ⟨0, out, w.bio.clearRetryFlags, ?_, h, fun _ => ⟨rfl, .inl ⟨out, rfl⟩⟩, ?_⟩
    · rcases hskip with rfl | houtl
      · rfl
      · cases out with
        | none => rfl
        | some bs => simp only [tcnReadFromBytebuffer, if_pos houtl]
    · intro a ha
      rw [hnone] at ha
      cases ha
  · simp only [not_or, Int.not_le] at hskip
    obtain ⟨hsome, houtl⟩ := hskip
    obtain ⟨bs, rfl⟩ := Option.ne_none_iff_exists'.mp hsome
    have haction : (BioOp.read (some bs) outl).action = some (.take outl.toNat) := by
      simp [BioOp.action, houtl]
    obtain ⟨ret, out', bio, hok, hdone⟩ := tcnReadFromBytebuffer_performs
      (w := { w with bio := w.bio.clearRetryFlags }) h houtl (hout bs rfl houtl)
    refine ⟨ret, out', bio, hok, hdone.layout, ?_, ?_⟩
    · intro hnone
      rw [haction] at hnone
      cases hnone
    · intro a ha
      rw [haction] at ha
      cases ha
      exact ⟨hdone.view, hdone.reports⟩

/-- A fresh window has nothing placed in it yet. -/
private theorem placed_retire (w : BioWorld) {bio : JavaBio}
    (hfresh : ∀ p, bio.data.buffer = some p → p.pos = 0) :
    BioWorld.placed ⟨bio, w.retired ++ w.current⟩ = w.placed := by
  cases hbuf : bio.data.buffer with
  | none => simp [BioWorld.placed, BioWorld.current, hbuf]
  | some p => simp [BioWorld.placed, BioWorld.current, placedIn, hbuf, hfresh p hbuf]

private theorem set_refines {w : BioWorld} (h : Layout w.bio.data) {mem : Option (List Byte)}
    {max : Int} {sink : Bool} (hmax : IsJint max)
    (hmem : ∀ bs, mem = some bs → 0 ≤ max → (bs.length : Int) = max) :
    ∃ r w', bioStep w (.setByteBuffer mem max sink) = .ok (r, w') ∧
      Refines w (.setByteBuffer mem max sink) r w' := by
  cases mem with
  | none => exact ⟨_, w, rfl, h, fun _ => ⟨rfl, .inr ⟨_, rfl⟩⟩, by simp [BioOp.action]⟩
  | some bs =>
    by_cases hneg : max < 0
    · refine ⟨.thrown (.illegalArgumentException "maxUsableBytes must be >= 0"), w, ?_, h,
        fun _ => ⟨rfl, .inr ⟨_, rfl⟩⟩, ?_⟩
      · simp [bioStep, bioSetByteBuffer, Jni.checkNull, Jni.checkPositiveOrZero, hneg]
      · simp [BioOp.action, show ¬ 0 ≤ max by omega]
    · have hlen := hmem bs rfl (by omega)
      refine ⟨.returned 0 none, ⟨{ w.bio with data :=
        { w.bio.data with
          buffer := some ⟨bs, 0⟩
          bufferLength := max
          bufferIsSSLWriteSink := sink } }, w.retired ++ w.current⟩, ?_, ?_, ?_, ?_⟩
      · simp [bioStep, bioSetByteBuffer, Jni.checkNull, Jni.checkPositiveOrZero, hneg]
      · refine h.withWindow (by omega) hmax.2 ?_ (by simp)
        rintro p ⟨⟩
        simp only
        omega
      · simp [BioOp.action, show 0 ≤ max by omega]
      · intro a ha
        simp only [BioOp.action, Option.bind_some, if_pos (show 0 ≤ max by omega),
          Option.some.injEq] at ha
        subst ha
        refine ⟨?_, rfl⟩
        simp only [BioWorld.view, Pipe.step]
        rw [placed_retire w (by rintro p ⟨⟩; rfl)]
        cases sink <;> simp [TcnBioBytebuffer.window, TcnBioBytebuffer.queue]

private theorem clear_refines {w : BioWorld} (h : Layout w.bio.data) :
    Refines w .clearByteBuffer (.returned 0 none)
      ⟨bioClearByteBuffer w.bio, w.retired ++ w.current⟩ := by
  refine ⟨?_, by simp [BioOp.action], ?_⟩
  · exact h.withWindow (Int.le_refl 0) (by decide) (by simp) (by simp)
  · rintro a ⟨⟩
    refine ⟨?_, rfl⟩
    simp only [BioWorld.view, Pipe.step]
    rw [placed_retire w (by rintro p ⟨⟩)]
    simp [bioClearByteBuffer, TcnBioBytebuffer.window, TcnBioBytebuffer.queue]

/-- Every operation that does not overrun the internal buffer keeps the layout
and acts as the pipe does. -/
theorem bioStep_refines {w : BioWorld} {op : BioOp} (h : Layout w.bio.data) (hwf : op.Wf)
    (hfit : ¬ Overruns w op) : ∃ r w', bioStep w op = .ok (r, w') ∧ Refines w op r w' := by
  cases op with
  | write inp inl =>
    obtain ⟨ret, bio, hok, href⟩ := write_refines h inp inl rfl rfl
      (fun bs hbs hinl => Int.le_of_eq (hwf.2 bs hbs hinl).symm) hfit
    refine ⟨_, _, ?_, href⟩
    simp only [bioStep, bioJavaBytebufferWrite, hok]
    rfl
  | puts inp =>
    obtain ⟨ret, bio, hok, href⟩ := write_refines h (some inp) (toJint inp.length)
      rfl rfl (by rintro bs ⟨⟩ _; exact toJint_le _) hfit
    refine ⟨_, _, ?_, href⟩
    simp only [bioStep, bioJavaBytebufferPuts, hok]
    rfl
  | read out outl =>
    obtain ⟨ret, out', bio, hok, href⟩ := read_refines h hwf.2
    refine ⟨_, _, ?_, href⟩
    simp only [bioStep, bioJavaBytebufferRead, hok]
    rfl
  | setByteBuffer mem max sink => exact set_refines h hwf.1 hwf.2
  | clearByteBuffer => exact ⟨_, _, rfl, clear_refines h⟩
  | flushByteBuffer =>
    obtain ⟨ret, bio, hok, hdone⟩ := bioFlushByteBuffer_performs h
    refine ⟨.returned ret none, { w with bio }, ?_, hdone.layout, by simp [BioOp.action], ?_⟩
    · simp only [bioStep, hok]
      rfl
    · rintro a ⟨⟩
      exact ⟨hdone.view, hdone.reports⟩

/-- An operation that overruns the internal buffer leaves defined behaviour. -/
theorem bioStep_overruns {w : BioWorld} {op : BioOp} (h : Layout w.bio.data)
    (hover : Overruns w op) : ∃ f, bioStep w op = .error f := by
  obtain ⟨hdata, hsink, hroom, hstart⟩ := hover
  have hwrite : ∀ inp inl, 0 < inl → ∃ f,
      tcnWriteToBytebuffer w.bio.clearRetryFlags (some inp) inl = .error f := by
    intro inp inl hinl
    have hroute : tcnWriteToBytebuffer w.bio.clearRetryFlags (some inp) inl =
        writeToInternalBuffer w.bio.clearRetryFlags inp inl := by
      simp only [tcnWriteToBytebuffer, JavaBio.clearRetryFlags, hsink]
      rw [if_neg (by omega)]
      rfl
    rw [hroute]
    have hlayout : Layout w.bio.clearRetryFlags.data := h
    rcases writeToInternalBuffer_wrapped hlayout hroom hstart inp hinl with hf | hf
    · exact ⟨_, hf⟩
    · exact ⟨_, hf⟩
  cases op with
  | write inp inl =>
    cases inp with
    | none => simp [BioOp.data, BioOp.input] at hdata
    | some inp =>
      obtain ⟨f, hf⟩ := hwrite inp inl (by
        by_contra hinl
        simp [BioOp.data, BioOp.input, hinl] at hdata)
      refine ⟨f, ?_⟩
      simp only [bioStep, bioJavaBytebufferWrite, hf]
      rfl
  | puts inp =>
    obtain ⟨f, hf⟩ := hwrite inp (toJint inp.length) (by
      by_contra hinl
      simp [BioOp.data, BioOp.input, hinl] at hdata)
    refine ⟨f, ?_⟩
    simp only [bioStep, bioJavaBytebufferPuts, hf]
    rfl
  | read out outl => simp [BioOp.data, BioOp.input] at hdata
  | setByteBuffer mem max sink => simp [BioOp.data, BioOp.input] at hdata
  | clearByteBuffer => simp [BioOp.data, BioOp.input] at hdata
  | flushByteBuffer => simp [BioOp.data, BioOp.input] at hdata

end Bio
