-- SUMMARY: What the remaining length of a window says about the bytes that went into it or came out of it.
import Mathlib.Algebra.GroupWithZero.Nat
import Tcnative.Bio.Stream

/-!
# Window accounting

Java finds out how much TLS data an operation has produced or consumed from
`SSL.bioLengthByteBuffer` alone. While a window is in place, what is missing
from its length is what the positive return values add up to, and what was
stored in it or taken from it.
-/

namespace Bio
open CMem

/-! ## Transfers -/

/-- The operations that leave the window in place. -/
def BioOp.Transfers : BioOp → Prop
  | .write _ _ | .puts _ | .read _ _ | .flushByteBuffer => True
  | .setByteBuffer .. | .clearByteBuffer => False

def BioOp.isRead : BioOp → Bool
  | .read _ _ => true
  | _ => false

/-- The return value of a call, where it is positive. -/
def gain (x : BioEntry) : Nat :=
  match x.ret with
  | .returned ret _ => ret.toNat
  | .thrown _ => 0

/-- What a write or a flush stores in a sink: the first bytes of the queue and of
its own data. -/
def stored (x : BioEntry) : List Byte :=
  if x.event.isRead then [] else (x.pre.bio.data.queue ++ x.event.data.getD []).take (gain x)

/-- The output of a read: the first bytes of the memory at `out`. -/
def taken (x : BioEntry) : List Byte :=
  match x.event, x.ret with
  | .read _ _, .returned ret (some out) => out.take ret.toNat
  | _, _ => []

/-- The positive return values of the operations of one kind, added up. -/
def gains (isRead : Bool) (t : List BioEntry) : Nat :=
  ((t.filter (·.event.isRead = isRead)).map gain).sum

theorem gains_snoc (isRead : Bool) (t : List BioEntry) (x : BioEntry) :
    gains isRead (t ++ [x]) = gains isRead t + if x.event.isRead = isRead then gain x else 0 := by
  unfold gains
  rw [List.filter_append]
  by_cases h : x.event.isRead = isRead <;> simp [h]

/-! ## One step -/

theorem BioOp.stays_of_action {op : BioOp} (hop : op.Transfers) {a : Pipe.Action Byte}
    (ha : op.action = some a) : a.Stays := by
  cases op with
  | write inp inl | puts inp =>
    simp only [action, Option.map_eq_some_iff] at ha
    obtain ⟨bs, -, rfl⟩ := ha
    trivial
  | read out outl =>
    simp only [action] at ha
    split at ha
    · cases ha
      trivial
    · cases ha
  | flushByteBuffer =>
    cases ha
    trivial
  | setByteBuffer mem max sink => exact hop.elim
  | clearByteBuffer => exact hop.elim

theorem BioOp.offered_of_action {op : BioOp} {a : Pipe.Action Byte} (ha : op.action = some a) :
    op.data.getD [] = a.offered := by
  cases hdata : op.data with
  | some bs =>
    rw [BioOp.action_eq_offer.mpr hdata] at ha
    cases ha
    rfl
  | none =>
    cases a with
    | offer xs =>
      rw [BioOp.action_eq_offer.mp ha] at hdata
      cases hdata
    | take n => rfl
    | «open» window => rfl
    | flush => rfl

/-- The reads are the operations that take. -/
theorem BioOp.isRead_of_action {op : BioOp} {a : Pipe.Action Byte} (ha : op.action = some a) :
    op.isRead = true ↔ ∃ n, a = .take n := by
  cases op with
  | write inp inl | puts inp =>
    simp only [action, Option.map_eq_some_iff] at ha
    obtain ⟨bs, -, rfl⟩ := ha
    simp [isRead]
  | read out outl =>
    simp only [action] at ha
    split at ha
    · cases ha
      simp [isRead]
    · cases ha
  | flushByteBuffer =>
    cases ha
    simp [isRead]
  | setByteBuffer mem max sink =>
    obtain ⟨bs, -, hbs⟩ := Option.bind_eq_some_iff.mp ha
    split at hbs
    · cases hbs
      simp [isRead]
    · cases hbs
  | clearByteBuffer =>
    cases ha
    simp [isRead]

/-- A return value counts what was moved and what was taken. -/
theorem gain_of_reports {x : BioEntry} {o : Pipe.Outcome Byte} (h : Reports o x.ret) :
    gain x = o.moved + o.took.length := by
  unfold gain
  cases o with
  | offered drained accepted =>
    simp only [Reports] at h
    simp only [h, Pipe.Outcome.moved, Pipe.Outcome.took, List.length_nil]
    omega
  | taken bs =>
    obtain ⟨rest, hret⟩ := h
    simp [hret, Pipe.Outcome.moved, Pipe.Outcome.took]
  | flushed drained =>
    simp only [Reports] at h
    simp [h, Pipe.Outcome.moved, Pipe.Outcome.took]
  | opened =>
    simp only [Reports] at h
    simp [h, Pipe.Outcome.moved, Pipe.Outcome.took]
  | again =>
    obtain ⟨out, hret⟩ := h
    simp [hret, Pipe.Outcome.moved, Pipe.Outcome.took]

theorem gain_of_idles {x : BioEntry} (h : Idles x.ret) : gain x = 0 := by
  unfold gain
  rcases h with ⟨out, hret⟩ | ⟨cause, hret⟩ <;> simp [hret]

/-- The output of a read is what it took from the pipe. -/
theorem taken_of_reports {x : BioEntry} (hread : x.event.isRead = true) {o : Pipe.Outcome Byte}
    (h : Reports o x.ret) (hmoved : o.moved = 0) : taken x = o.took := by
  have hgain := gain_of_reports h
  rw [hmoved, Nat.zero_add] at hgain
  obtain ⟨pre, op, r, post⟩ := x
  cases op with
  | read out outl =>
    cases r with
    | thrown cause =>
      cases o <;> simp [Reports] at h
    | returned ret out' =>
      simp only [gain] at hgain
      cases out' with
      | none =>
        cases o <;> simp [Reports] at h <;> rfl
      | some bs =>
        simp only [taken, hgain]
        cases o with
        | taken bs' =>
          obtain ⟨rest, hret⟩ := h
          simp only [BioResult.returned.injEq, Option.some.injEq] at hret
          simp [Pipe.Outcome.took, hret.2]
        | offered drained accepted => rfl
        | flushed drained => rfl
        | opened => rfl
        | again => rfl
  | write inp inl => cases hread
  | puts inp => cases hread
  | setByteBuffer mem max sink => cases hread
  | clearByteBuffer => cases hread
  | flushByteBuffer => cases hread

/-- In a sink an operation stores what it returns, behind what is there, and
reads store nothing. -/
theorem Refines.sink_step {x : BioEntry} (h : Refines x.pre x.event x.ret x.post)
    (hop : x.event.Transfers) {room : Nat} (hwindow : x.pre.view.window = .sink room) :
    x.post.view.delivered = x.pre.view.delivered ++ stored x ∧ (stored x).length ≤ room ∧
      x.post.view.window = .sink (room - (stored x).length) ∧
      (stored x).length = if x.event.isRead = false then gain x else 0 := by
  cases haction : x.event.action with
  | none =>
    obtain ⟨hview, hidles⟩ := h.idle haction
    have hgain := gain_of_idles hidles
    have hnone : stored x = [] := by simp [stored, hgain]
    rw [hview, hnone, hgain]
    simp [hwindow]
  | some a =>
    obtain ⟨hview, hreports⟩ := h.acts a haction
    have hgain := gain_of_reports hreports
    obtain ⟨bs, hdelivered, hbs, hlength, hroom, hsink⟩ :=
      Pipe.step_sink hwindow (BioOp.stays_of_action hop haction)
    have hread := BioOp.isRead_of_action haction
    have hstored : stored x = bs ∧ bs.length = if x.event.isRead = false then gain x else 0 := by
      cases hkind : x.event.isRead with
      | true =>
        obtain ⟨n, rfl⟩ := hread.mp hkind
        rw [Pipe.step_take_moved] at hlength
        simp [stored, hkind, List.length_eq_zero_iff.mp hlength]
      | false =>
        have htook := Pipe.step_took (p := x.pre.view) (a := a) fun n ha => by
          rw [hread.mpr ⟨n, ha⟩] at hkind
          cases hkind
        rw [htook, List.length_nil, Nat.add_zero] at hgain
        rw [← hgain, ← BioOp.offered_of_action haction] at hbs
        refine ⟨?_, by rw [if_pos rfl, hlength, hgain]⟩
        simp only [stored, hkind, Bool.false_eq_true, if_false]
        exact hbs.symm
    rw [hview, hstored.1]
    exact ⟨hdelivered, hroom, hsink, hstored.2⟩

/-- From a source a read takes what it returns, and nothing else takes from it. -/
theorem Refines.source_step {x : BioEntry} (h : Refines x.pre x.event x.ret x.post)
    (hop : x.event.Transfers) {left : List Byte} (hwindow : x.pre.view.window = .source left) :
    ∃ left', x.post.view.window = .source left' ∧ left = taken x ++ left' ∧
      (taken x).length = if x.event.isRead = true then gain x else 0 := by
  have hother : x.event.isRead = false → taken x = [] := by
    obtain ⟨pre, op, r, post⟩ := x
    intro hkind
    cases op with
    | read out outl => cases hkind
    | write inp inl => rfl
    | puts inp => rfl
    | setByteBuffer mem max sink => rfl
    | clearByteBuffer => rfl
    | flushByteBuffer => rfl
  cases haction : x.event.action with
  | none =>
    obtain ⟨hview, hidles⟩ := h.idle haction
    have hgain := gain_of_idles hidles
    have hnone : taken x = [] := by
      unfold gain at hgain
      unfold taken
      split
      · rename_i hret
        rw [hret] at hgain
        simp only at hgain
        rw [hgain, List.take_zero]
      · rfl
    exact ⟨left, by rw [hview, hwindow], by rw [hnone]; rfl, by simp [hnone, hgain]⟩
  | some a =>
    obtain ⟨hview, hreports⟩ := h.acts a haction
    have hgain := gain_of_reports hreports
    obtain ⟨left', hsource, hleft⟩ :=
      Pipe.step_source hwindow (BioOp.stays_of_action hop haction)
    have hread := BioOp.isRead_of_action haction
    refine ⟨left', by rw [hview, hsource], ?_⟩
    cases hkind : x.event.isRead with
    | true =>
      obtain ⟨n, rfl⟩ := hread.mp hkind
      have hmoved := Pipe.step_take_moved x.pre.view n
      rw [taken_of_reports hkind hreports hmoved]
      rw [hmoved, Nat.zero_add] at hgain
      exact ⟨hleft, by rw [if_pos rfl, hgain]⟩
    | false =>
      rw [Pipe.step_took (p := x.pre.view) (a := a) fun n ha => by
        rw [hread.mpr ⟨n, ha⟩] at hkind
        cases hkind] at hleft
      rw [hother hkind]
      exact ⟨hleft, rfl⟩

/-! ## Frames -/

/-- A read leaves the queue, and all of a BIO whose window is a sink. Whatever
else is done leaves a window that is no sink. -/
structure Frames (x : BioEntry) : Prop where
  queue : x.event.isRead = true →
    x.post.bio.data.nonApplicationBuffer = x.pre.bio.data.nonApplicationBuffer ∧
    x.post.bio.data.nonApplicationBufferOffset = x.pre.bio.data.nonApplicationBufferOffset ∧
    x.post.bio.data.nonApplicationBufferLength = x.pre.bio.data.nonApplicationBufferLength
  sink : x.event.isRead = true → x.pre.bio.data.bufferIsSSLWriteSink = true →
    x.post.bio.data = x.pre.bio.data
  source : x.event.isRead = false → x.pre.bio.data.bufferIsSSLWriteSink = false →
    x.post.bio.data.buffer = x.pre.bio.data.buffer ∧
    x.post.bio.data.bufferLength = x.pre.bio.data.bufferLength
  retired : x.post.retired = x.pre.retired

theorem tcnReadFromBytebuffer_frame {bio bio' : JavaBio} {out out' : Option (List Byte)}
    {outl ret : Int} (h : tcnReadFromBytebuffer bio out outl = .ok (ret, out', bio')) :
    (bio'.data.nonApplicationBuffer = bio.data.nonApplicationBuffer ∧
      bio'.data.nonApplicationBufferOffset = bio.data.nonApplicationBufferOffset ∧
      bio'.data.nonApplicationBufferLength = bio.data.nonApplicationBufferLength) ∧
    (bio.data.bufferIsSSLWriteSink = true → bio'.data = bio.data) := by
  cases out with
  | none =>
    cases h
    exact ⟨⟨rfl, rfl, rfl⟩, fun _ => rfl⟩
  | some out =>
    simp only [tcnReadFromBytebuffer] at h
    split at h
    · cases h
      exact ⟨⟨rfl, rfl, rfl⟩, fun _ => rfl⟩
    split at h
    · rename_i hsink _
      split at h
      · cases h
        exact ⟨⟨rfl, rfl, rfl⟩, fun _ => rfl⟩
      · obtain ⟨bs, -, h⟩ := bind_ok h
        obtain ⟨bufferLength, -, h⟩ := bind_ok h
        cases h
        refine ⟨⟨rfl, rfl, rfl⟩, fun htrue => ?_⟩
        rw [hsink] at htrue
        cases htrue
    · cases h
      exact ⟨⟨rfl, rfl, rfl⟩, fun _ => rfl⟩

theorem writeToInternalBuffer_frame {bio bio' : JavaBio} {inp : List Byte} {inl ret : Int}
    (h : writeToInternalBuffer bio inp inl = .ok (ret, bio')) :
    bio'.data.buffer = bio.data.buffer ∧ bio'.data.bufferLength = bio.data.bufferLength := by
  obtain ⟨free, -, h⟩ := bind_ok h
  split at h
  · cases h
    exact ⟨rfl, rfl⟩
  · obtain ⟨startIndex, -, h⟩ := bind_ok h
    obtain ⟨writeChunk, -, h⟩ := bind_ok h
    obtain ⟨ring, -, h⟩ := bind_ok h
    obtain ⟨length, -, h⟩ := bind_ok h
    cases h
    exact ⟨rfl, rfl⟩

theorem tcnWriteToBytebuffer_frame {bio bio' : JavaBio} {inp : Option (List Byte)} {inl ret : Int}
    (h : tcnWriteToBytebuffer bio inp inl = .ok (ret, bio'))
    (hsink : bio.data.bufferIsSSLWriteSink = false) :
    bio'.data.buffer = bio.data.buffer ∧ bio'.data.bufferLength = bio.data.bufferLength := by
  cases inp with
  | none =>
    cases h
    exact ⟨rfl, rfl⟩
  | some inp =>
    simp only [tcnWriteToBytebuffer, hsink] at h
    split at h
    · cases h
      exact ⟨rfl, rfl⟩
    · exact writeToInternalBuffer_frame h

/-- No operation but a set or a clear leaves its frame. -/
theorem bioStep_frames {w w' : BioWorld} {op : BioOp} {r : BioResult} (hop : op.Transfers)
    (h : bioStep w op = .ok (r, w')) : Frames ⟨w, op, r, w'⟩ := by
  cases op with
  | write inp inl =>
    obtain ⟨⟨ret, bio⟩, hwrite, h⟩ := bind_ok h
    cases h
    unfold bioJavaBytebufferWrite at hwrite
    have hframe := tcnWriteToBytebuffer_frame hwrite
    exact ⟨by simp [BioOp.isRead], by simp [BioOp.isRead], fun _ => hframe, rfl⟩
  | puts inp =>
    obtain ⟨⟨ret, bio⟩, hwrite, h⟩ := bind_ok h
    cases h
    unfold bioJavaBytebufferPuts at hwrite
    have hframe := tcnWriteToBytebuffer_frame hwrite
    exact ⟨by simp [BioOp.isRead], by simp [BioOp.isRead], fun _ => hframe, rfl⟩
  | read out outl =>
    obtain ⟨⟨ret, out', bio⟩, hread, h⟩ := bind_ok h
    cases h
    obtain ⟨hqueue, hsink⟩ := tcnReadFromBytebuffer_frame hread
    exact ⟨fun _ => hqueue, fun _ => hsink, by simp [BioOp.isRead], rfl⟩
  | flushByteBuffer =>
    obtain ⟨⟨ret, bio⟩, hflush, h⟩ := bind_ok h
    cases h
    refine ⟨by simp [BioOp.isRead], by simp [BioOp.isRead], fun _ hsink => ?_, rfl⟩
    simp only [bioFlushByteBuffer] at hflush hsink
    rw [if_pos (.inr (.inr hsink))] at hflush
    cases hflush
    exact ⟨rfl, rfl⟩
  | setByteBuffer mem max sink => exact hop.elim
  | clearByteBuffer => exact hop.elim

/-! ## Runs -/

/-- An operation that does not fault acts as the pipe does. -/
theorem bioStep_ok {w w' : BioWorld} {op : BioOp} {r : BioResult} (h : Layout w.bio.data)
    (hwf : op.Wf) (hok : bioStep w op = .ok (r, w')) : Refines w op r w' := by
  by_cases hover : Overruns w op
  · obtain ⟨f, hf⟩ := bioStep_overruns h hover
    rw [hf] at hok
    cases hok
  · obtain ⟨r', w'', hok', hrefines⟩ := bioStep_refines h hwf hover
    cases hok.symm.trans hok'
    exact hrefines

/-- A run that does not fault keeps the layout. -/
theorem run_layout {w w' : BioWorld} {ops : List BioOp} {t : List BioEntry} (h : Layout w.bio.data)
    (hwf : ∀ op ∈ ops, op.Wf) (hrun : Machine.run bioStep w ops = .ok (t, w')) :
    Layout w'.bio.data := by
  have hstep : ∀ (t : List BioEntry) w op r w', Layout w.bio.data → op.Wf →
      bioStep w op = .ok (r, w') → Layout w'.bio.data :=
    fun _ _ _ _ _ h hop hok => (bioStep_ok h hop hok).layout
  exact Machine.run_traced (I := fun _ w => Layout w.bio.data) hstep h hwf hrun

/-- The steps of a run that only transfers leave their frames. -/
theorem run_frames {w w' : BioWorld} {ops : List BioOp} {t : List BioEntry}
    (hops : ∀ op ∈ ops, op.Transfers) (hrun : Machine.run bioStep w ops = .ok (t, w')) :
    ∀ x ∈ t, Frames x := by
  have hstep : ∀ (t : List BioEntry) w op r w', (∀ x ∈ t, Frames x) → op.Transfers →
      bioStep w op = .ok (r, w') → ∀ x ∈ t ++ [⟨w, op, r, w'⟩], Frames x := by
    intro t w op r w' ht hop hok
    rw [List.forall_mem_append, List.forall_mem_singleton]
    exact ⟨ht, bioStep_frames hop hok⟩
  exact Machine.run_traced (I := fun t _ => ∀ x ∈ t, Frames x) hstep (by simp) hops hrun

/-- What operations on a sink store, and the room they leave. -/
structure SinkRun (w w' : BioWorld) (room : Nat) (t : List BioEntry) : Prop where
  delivered : w'.view.delivered = w.view.delivered ++ t.flatMap stored
  fits : (t.flatMap stored).length ≤ room
  window : w'.view.window = .sink (room - (t.flatMap stored).length)
  returned : (t.flatMap stored).length = gains false t
  retired : w'.retired = w.retired

theorem SinkRun.snoc {w₀ w w' : BioWorld} {room : Nat} {t : List BioEntry} {op : BioOp}
    {r : BioResult} (h : SinkRun w₀ w room t) (hop : op.Transfers) (hrefines : Refines w op r w')
    (hframes : Frames ⟨w, op, r, w'⟩) : SinkRun w₀ w' room (t ++ [⟨w, op, r, w'⟩]) := by
  obtain ⟨hdelivered, hfits, hroom, hreturned⟩ :=
    Refines.sink_step (x := ⟨w, op, r, w'⟩) hrefines hop h.window
  have hbound := h.fits
  refine ⟨?_, ?_, ?_, ?_, hframes.retired.trans h.retired⟩
  all_goals rw [List.flatMap_append, List.flatMap_singleton]
  · rw [hdelivered, h.delivered, List.append_assoc]
  · rw [List.length_append]
    omega
  · rw [hroom, List.length_append, Nat.sub_sub]
  · rw [List.length_append, gains_snoc, hreturned, h.returned]

theorem sinkRun {w w' : BioWorld} {ops : List BioOp} {t : List BioEntry} {room : Nat}
    (h : Layout w.bio.data) (hwindow : w.view.window = .sink room) (hwf : ∀ op ∈ ops, op.Wf)
    (hops : ∀ op ∈ ops, op.Transfers) (hrun : Machine.run bioStep w ops = .ok (t, w')) :
    SinkRun w w' room t := by
  have hstart : SinkRun w w room [] := ⟨by simp, by simp, by simpa using hwindow, rfl, rfl⟩
  have hstep : ∀ t w₁ op r w₂, Layout w₁.bio.data ∧ SinkRun w w₁ room t → op.Wf ∧ op.Transfers →
      bioStep w₁ op = .ok (r, w₂) →
      Layout w₂.bio.data ∧ SinkRun w w₂ room (t ++ [⟨w₁, op, r, w₂⟩]) := by
    rintro t w₁ op r w₂ ⟨hlayout, hsink⟩ ⟨hwf, hop⟩ hok
    have hrefines := bioStep_ok hlayout hwf hok
    exact ⟨hrefines.layout, hsink.snoc hop hrefines (bioStep_frames hop hok)⟩
  exact (Machine.run_traced (I := fun t w' => Layout w'.bio.data ∧ SinkRun w w' room t) hstep
    ⟨h, hstart⟩ (fun op hop => ⟨hwf op hop, hops op hop⟩) hrun).2

/-- What operations on a source take, and what they leave. -/
structure SourceRun (w' : BioWorld) (left : List Byte) (t : List BioEntry) : Prop where
  outputs : ∃ left', w'.view.window = .source left' ∧ left = t.flatMap taken ++ left'
  returned : (t.flatMap taken).length = gains true t

theorem SourceRun.snoc {w w' : BioWorld} {left : List Byte} {t : List BioEntry} {op : BioOp}
    {r : BioResult} (h : SourceRun w left t) (hop : op.Transfers) (hrefines : Refines w op r w') :
    SourceRun w' left (t ++ [⟨w, op, r, w'⟩]) := by
  obtain ⟨left₁, hwindow, hleft⟩ := h.outputs
  obtain ⟨left₂, hsource, hleft₁, hreturned⟩ :=
    Refines.source_step (x := ⟨w, op, r, w'⟩) hrefines hop hwindow
  refine ⟨⟨left₂, hsource, ?_⟩, ?_⟩
  all_goals rw [List.flatMap_append, List.flatMap_singleton]
  · rw [hleft, hleft₁, List.append_assoc]
  · rw [List.length_append, gains_snoc, hreturned, h.returned]

theorem sourceRun {w w' : BioWorld} {ops : List BioOp} {t : List BioEntry} {left : List Byte}
    (h : Layout w.bio.data) (hwindow : w.view.window = .source left) (hwf : ∀ op ∈ ops, op.Wf)
    (hops : ∀ op ∈ ops, op.Transfers) (hrun : Machine.run bioStep w ops = .ok (t, w')) :
    SourceRun w' left t := by
  have hstart : SourceRun w left [] := ⟨⟨left, hwindow, rfl⟩, rfl⟩
  have hstep : ∀ t w₁ op r w₂, Layout w₁.bio.data ∧ SourceRun w₁ left t →
      op.Wf ∧ op.Transfers → bioStep w₁ op = .ok (r, w₂) →
      Layout w₂.bio.data ∧ SourceRun w₂ left (t ++ [⟨w₁, op, r, w₂⟩]) := by
    rintro t w₁ op r w₂ ⟨hlayout, hsource⟩ ⟨hwf, hop⟩ hok
    have hrefines := bioStep_ok hlayout hwf hok
    exact ⟨hrefines.layout, hsource.snoc hop hrefines⟩
  exact (Machine.run_traced (I := fun t w' => Layout w'.bio.data ∧ SourceRun w' left t) hstep
    ⟨h, hstart⟩ (fun op hop => ⟨hwf op hop, hops op hop⟩) hrun).2

/-! ## Windows -/

/-- The state with a window that was just set. -/
theorem bioStep_set {w w₀ : BioWorld} {mem : List Byte} {max : Int} {sink : Bool} {r : BioResult}
    (hmax : 0 ≤ max) (h : bioStep w (.setByteBuffer (some mem) max sink) = .ok (r, w₀)) :
    w₀.bio.data.buffer = some ⟨mem, 0⟩ ∧ w₀.bio.data.bufferLength = max ∧
      w₀.bio.data.bufferIsSSLWriteSink = sink := by
  simp only [bioStep, bioSetByteBuffer, Jni.checkNull, Jni.checkPositiveOrZero] at h
  rw [if_neg (by omega)] at h
  cases h
  exact ⟨rfl, rfl, rfl⟩

/-- The window of a view that is a sink. -/
theorem BioWorld.of_sink {w : BioWorld} {room : Nat} (h : w.view.window = .sink room) :
    ∃ p, w.bio.data.buffer = some p ∧ w.bio.data.bufferIsSSLWriteSink = true ∧
      w.bio.data.bufferLength.toNat = room := by
  simp only [BioWorld.view, TcnBioBytebuffer.window] at h
  split at h
  · cases h
  · rename_i p hp
    split at h
    · rename_i hsink
      cases h
      exact ⟨p, hp, hsink, rfl⟩
    · cases h

/-- The window of a view that is a source. -/
theorem BioWorld.of_source {w : BioWorld} {left : List Byte} (h : w.view.window = .source left) :
    ∃ p, w.bio.data.buffer = some p ∧ w.bio.data.bufferIsSSLWriteSink = false ∧
      p.block.drop p.pos.toNat = left := by
  simp only [BioWorld.view, TcnBioBytebuffer.window] at h
  split at h
  · cases h
  · rename_i p hp
    split at h
    · cases h
    · rename_i hsink
      cases h
      exact ⟨p, hp, by simpa using hsink, rfl⟩

/-- What is missing from the length of a sink is what its operations returned,
and that many bytes are stored from its address on. -/
structure SinkAccounts (max : Int) (t : List BioEntry) (w : BioWorld) : Prop where
  returned : max - bioLengthByteBuffer w.bio = gains false t
  memory : ∃ block, w.bio.data.buffer = some ⟨block, max - bioLengthByteBuffer w.bio⟩ ∧
    block.take (max - bioLengthByteBuffer w.bio).toNat = t.flatMap stored
  count : max - bioLengthByteBuffer w.bio = (t.flatMap stored).length

/-- What is missing from the length of a source is what its reads returned, and
they have put out that many bytes of its front. -/
structure SourceAccounts (mem : List Byte) (max : Int) (t : List BioEntry) (w : BioWorld) :
    Prop where
  returned : max - bioLengthByteBuffer w.bio = gains true t
  outputs : t.flatMap taken = mem.take (max - bioLengthByteBuffer w.bio).toNat

section
variable {w₀ w : BioWorld} {mem : List Byte} {max : Int} {ops : List BioOp} {t : List BioEntry}

theorem sinkAccounts (h : Layout w₀.bio.data) (hbuffer : w₀.bio.data.buffer = some ⟨mem, 0⟩)
    (hlength : w₀.bio.data.bufferLength = max) (hsink : w₀.bio.data.bufferIsSSLWriteSink = true)
    (hwf : ∀ op ∈ ops, op.Wf) (hops : ∀ op ∈ ops, op.Transfers)
    (hrun : Machine.run bioStep w₀ ops = .ok (t, w)) : SinkAccounts max t w := by
  have hview := w₀.view_of_sink hbuffer hsink
  have hwindow : w₀.view.window = .sink w₀.bio.data.bufferLength.toNat := by rw [hview]
  have hall := sinkRun h hwindow hwf hops hrun
  have hend : Layout w.bio.data := run_layout h hwf hrun
  obtain ⟨p, hp, hsink', hroom⟩ := BioWorld.of_sink hall.window
  obtain ⟨hpos, hblock⟩ := hend.window p hp
  have hleft := hend.room_nonneg
  have hmax := h.room_nonneg
  have hfits := hall.fits
  -- All that was delivered since the window was set is in this window.
  have hmemory : p.block.take p.pos.toNat = t.flatMap stored := by
    have hdelivered := hall.delivered
    rw [w.view_of_sink hp hsink', hview, hall.retired] at hdelivered
    simpa using hdelivered
  have hcount : (p.block.take p.pos.toNat).length = p.pos.toNat :=
    List.length_take_of_le (by omega)
  have hmissing : max - w.bio.data.bufferLength = (t.flatMap stored).length := by omega
  have hposition : max - w.bio.data.bufferLength = p.pos := by
    rw [hmissing, ← hmemory, hcount]
    omega
  refine ⟨?_, ⟨p.block, ?_, ?_⟩, hmissing⟩
  · rw [bioLengthByteBuffer, hmissing, hall.returned]
  · rw [bioLengthByteBuffer, hposition, hp]
  · rw [bioLengthByteBuffer, hposition, hmemory]

theorem sourceAccounts (h : Layout w₀.bio.data) (hbuffer : w₀.bio.data.buffer = some ⟨mem, 0⟩)
    (hlength : w₀.bio.data.bufferLength = max) (hsink : w₀.bio.data.bufferIsSSLWriteSink = false)
    (hwf : ∀ op ∈ ops, op.Wf) (hops : ∀ op ∈ ops, op.Transfers)
    (hrun : Machine.run bioStep w₀ ops = .ok (t, w)) : SourceAccounts mem max t w := by
  have hview := w₀.view_of_not_sink hsink
  have hwindow : w₀.view.window = .source mem := by
    rw [hview, hbuffer]
    rfl
  have hall := sourceRun h hwindow hwf hops hrun
  have hend : Layout w.bio.data := run_layout h hwf hrun
  obtain ⟨left, hsource, hleft⟩ := hall.outputs
  obtain ⟨p, hp, -, hdrop⟩ := BioWorld.of_source hsource
  obtain ⟨hpos, hblock⟩ := hend.window p hp
  have hroom := hend.room_nonneg
  have hstart := (h.window _ hbuffer).2
  have hremaining : w.bio.data.bufferLength = left.length := by
    rw [← hdrop, List.length_drop]
    omega
  have hmissing : max - w.bio.data.bufferLength = (t.flatMap taken).length := by
    have htotal := congrArg List.length hleft
    rw [List.length_append] at htotal
    simp only at hstart
    omega
  refine ⟨?_, ?_⟩
  · rw [bioLengthByteBuffer, hmissing, hall.returned]
  · rw [bioLengthByteBuffer, hmissing, hleft, Int.toNat_natCast, List.take_left]

end

/-- While a window is in place, what is missing from its length accounts for what
its operations returned, stored and put out, and no operation leaves its frame. -/
theorem window_accounting {ring : List Byte} (hring : IsRing ring) {ops₀ ops : List BioOp}
    {mem : List Byte} {max : Int} {sink : Bool} (hwf₀ : ∀ op ∈ ops₀, op.Wf)
    (hset : (BioOp.setByteBuffer (some mem) max sink).Wf) (hmax : 0 ≤ max)
    (hwf : ∀ op ∈ ops, op.Wf) (hops : ∀ op ∈ ops, op.Transfers) {t₀ t : List BioEntry}
    {w₀ w₁ w : BioWorld} {r : BioResult} (hrun₀ : bioRun ring ops₀ = .ok (t₀, w₀))
    (hok : bioStep w₀ (.setByteBuffer (some mem) max sink) = .ok (r, w₁))
    (hrun : Machine.run bioStep w₁ ops = .ok (t, w)) :
    (sink = true → SinkAccounts max t w) ∧ (sink = false → SourceAccounts mem max t w) ∧
      ∀ x ∈ t, Frames x := by
  have hlayout : Layout w₁.bio.data :=
    (bioStep_ok (run_layout hring.layout hwf₀ hrun₀) hset hok).layout
  obtain ⟨hbuffer, hlength, hsink⟩ := bioStep_set hmax hok
  refine ⟨?_, ?_, run_frames hops hrun⟩
  · rintro rfl
    exact sinkAccounts hlayout hbuffer hlength hsink hwf hops hrun
  · rintro rfl
    exact sourceAccounts hlayout hbuffer hlength hsink hwf hops hrun

/-- A sink of two bytes: a flush stores the queued byte, a read gets nothing, and
a write finds room for one of its bytes. -/
theorem window_accounting_drain :
    ∃ t w, SinkAccounts 2 t w ∧ t.map gain = [1, 0, 1] ∧ ∀ x ∈ t, Frames x := by
  have hring : IsRing [0, 0] := ⟨by decide, by decide⟩
  have hwf₀ : ∀ op ∈ [BioOp.write (some [1]) 1], op.Wf := by simp [BioOp.Wf, IsJint]
  have hset : (BioOp.setByteBuffer (some [0, 0]) 2 true).Wf := by simp [BioOp.Wf, IsJint]
  have hwf : ∀ op ∈ [BioOp.flushByteBuffer, .read (some [0]) 1, .write (some [2, 3]) 2], op.Wf := by
    simp [BioOp.Wf, IsJint]
  have hops : ∀ op ∈ [BioOp.flushByteBuffer, .read (some [0]) 1, .write (some [2, 3]) 2],
      op.Transfers := by simp [BioOp.Transfers]
  have h := window_accounting hring hwf₀ hset (by decide) hwf hops rfl rfl rfl
  exact ⟨_, _, h.1 rfl, rfl, h.2.2⟩

end Bio
