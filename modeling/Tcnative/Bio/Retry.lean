-- SUMMARY: A read or write of the BIO makes progress, or asks to be repeated and changes nothing.
import Tcnative.Bio.ByteBuffer

/-!
# Progress or retry

The TLS engine takes a return value of 0 for the end of the stream, and repeats
a call only where the retry flag of its direction is set. A call that leaves its
memory alone returns a positive count without a flag, or -1 with the one flag it
needs. No layout is asked of the BIO beyond the bounds of its counters.
-/

namespace Bio
open CMem

/-- The bounds on the counters of `struct TCN_bio_bytebuffer`. -/
structure Counters (b : TcnBioBytebuffer) : Prop where
  size_pos : 0 < b.nonApplicationBufferSize
  length_nonneg : 0 ≤ b.nonApplicationBufferLength
  length_le : b.nonApplicationBufferLength ≤ b.nonApplicationBufferSize
  room_nonneg : 0 ≤ b.bufferLength

/-- A call has made progress, or it asks to be repeated with the given flags and
has changed nothing else. -/
def ProgressOrRetry (retry : RetryFlags) (bio : JavaBio) (ret : Int) (bio' : JavaBio) : Prop :=
  (1 ≤ ret ∧ bio'.flags = ⟨false, false, false⟩) ∨
    (ret = -1 ∧ bio'.flags = retry ∧ bio'.data = bio.data)

/-- The target of a write has no room: the window if it is a sink, and the
internal buffer otherwise. -/
def NoRoom (b : TcnBioBytebuffer) : Prop :=
  if b.bufferIsSSLWriteSink then b.buffer = none ∨ b.bufferLength = 0
  else b.nonApplicationBufferLength = b.nonApplicationBufferSize

/-! ## Amounts -/

theorem tcnFlushSslbufferToBytebuffer_amount {b b' : TcnBioBytebuffer} {n : Int}
    (h : tcnFlushSslbufferToBytebuffer b = .ok (n, b')) :
    n = min b.bufferLength b.nonApplicationBufferLength ∧
      b'.bufferLength = b.bufferLength - n := by
  unfold tcnFlushSslbufferToBytebuffer at h
  cases hp : b.buffer with
  | none => simp [hp] at h
  | some p =>
    simp only [hp] at h
    obtain ⟨writeChunk, -, h⟩ := bind_ok h
    obtain ⟨⟨block, offset⟩, -, h⟩ := bind_ok h
    obtain ⟨length, -, h⟩ := bind_ok h
    obtain ⟨bufferLength, hlength, h⟩ := bind_ok h
    cases h
    exact ⟨rfl, jint_inv hlength⟩

theorem writeToWindow_amount {b b' : TcnBioBytebuffer} {inp : List Byte} {inl n : Int}
    (h : writeToWindow b inp inl = .ok (n, b')) : n = min b.bufferLength inl := by
  unfold writeToWindow at h
  cases hp : b.buffer with
  | none => simp [hp] at h
  | some p =>
    simp only [hp] at h
    obtain ⟨block, -, h⟩ := bind_ok h
    obtain ⟨bufferLength, -, h⟩ := bind_ok h
    cases h
    rfl

/-! ## Calls -/

section
variable {bio bio' : JavaBio} {ret : Int}

/-- What a write with data returns: -1 only where its target has no room. -/
def WriteContract (bio : JavaBio) (ret : Int) (bio' : JavaBio) : Prop :=
  ProgressOrRetry ⟨false, true, true⟩ bio ret bio' ∧ (ret = -1 → NoRoom bio.data)

theorem WriteContract.progress (hret : 1 ≤ ret) (hflags : bio'.flags = ⟨false, false, false⟩) :
    WriteContract bio ret bio' :=
  ⟨.inl ⟨hret, hflags⟩, fun h => by omega⟩

theorem WriteContract.retry (hroom : NoRoom bio.data) :
    WriteContract bio (-1) bio.clearRetryFlags.setRetryWrite :=
  ⟨.inr ⟨rfl, rfl, rfl⟩, fun _ => hroom⟩

theorem writeToInternalBuffer_contract (h : Counters bio.data)
    (hsink : bio.data.bufferIsSSLWriteSink = false) {inp : List Byte} {inl : Int} (hinl : 0 < inl)
    (hok : writeToInternalBuffer bio.clearRetryFlags inp inl = .ok (ret, bio')) :
    WriteContract bio ret bio' := by
  have hlen := h.length_le
  obtain ⟨free, hfree, hok⟩ := bind_ok hok
  have hfree := jint_inv hfree
  rw [JavaBio.clearRetryFlags_data] at hfree
  split at hok
  · cases hok
    refine .retry ?_
    simp only [NoRoom, hsink, Bool.false_eq_true, if_false]
    omega
  · obtain ⟨startIndex, -, hok⟩ := bind_ok hok
    obtain ⟨writeChunk, -, hok⟩ := bind_ok hok
    obtain ⟨ring, -, hok⟩ := bind_ok hok
    obtain ⟨length, -, hok⟩ := bind_ok hok
    cases hok
    exact .progress (by omega) rfl

theorem writeToSink_contract (h : Counters bio.data)
    (hsink : bio.data.bufferIsSSLWriteSink = true) {inp : List Byte} {inl : Int} (hinl : 0 < inl)
    (hok : writeToSink bio.clearRetryFlags inp inl = .ok (ret, bio')) :
    WriteContract bio ret bio' := by
  have hlen := h.length_nonneg
  have hroom := h.room_nonneg
  unfold writeToSink at hok
  split at hok
  · rename_i hfull
    cases hok
    exact .retry (by rwa [NoRoom, if_pos hsink])
  · rename_i hspace
    have hspace : bio.data.bufferLength ≠ 0 := fun h => hspace (.inr h)
    -- Queued bytes are drained into the room, or else the data finds all of it.
    simp only at hok
    split at hok
    · rename_i hqueue
      obtain ⟨⟨d, b⟩, hdrain, hok⟩ := bind_ok hok
      obtain ⟨⟨n, b'⟩, hwindow, hok⟩ := bind_ok hok
      obtain ⟨sum, hsum, hok⟩ := bind_ok hok
      cases hok
      obtain ⟨hd, hleft⟩ := tcnFlushSslbufferToBytebuffer_amount hdrain
      have hn := writeToWindow_amount hwindow
      have hret := jint_inv hsum
      simp only [JavaBio.clearRetryFlags_data] at hd hleft hqueue hn
      exact .progress (by omega) rfl
    · obtain ⟨⟨d, b⟩, hnone, hok⟩ := bind_ok hok
      cases hnone
      obtain ⟨⟨n, b'⟩, hwindow, hok⟩ := bind_ok hok
      obtain ⟨sum, hsum, hok⟩ := bind_ok hok
      cases hok
      have hn := writeToWindow_amount hwindow
      have hret := jint_inv hsum
      simp only [JavaBio.clearRetryFlags_data] at hn
      exact .progress (by omega) rfl

theorem bioJavaBytebufferWrite_contract (h : Counters bio.data) {inp : List Byte} {inl : Int}
    (hinl : 0 < inl) (hok : bioJavaBytebufferWrite bio (some inp) inl = .ok (ret, bio')) :
    WriteContract bio ret bio' := by
  simp only [bioJavaBytebufferWrite, tcnWriteToBytebuffer] at hok
  rw [if_neg (by omega)] at hok
  cases hsink : bio.data.bufferIsSSLWriteSink with
  | false =>
    simp only [JavaBio.clearRetryFlags_data, hsink, Bool.not_false, if_true] at hok
    exact writeToInternalBuffer_contract h hsink hinl hok
  | true =>
    simp only [JavaBio.clearRetryFlags_data, hsink, Bool.not_true, Bool.false_eq_true,
      if_false] at hok
    exact writeToSink_contract h hsink hinl hok

theorem bioJavaBytebufferRead_contract (h : Counters bio.data) {out : List Byte}
    {out' : Option (List Byte)} {outl : Int} (houtl : 0 < outl)
    (hok : bioJavaBytebufferRead bio (some out) outl = .ok (ret, out', bio')) :
    ProgressOrRetry ⟨true, false, true⟩ bio ret bio' := by
  have hroom := h.room_nonneg
  simp only [bioJavaBytebufferRead, tcnReadFromBytebuffer] at hok
  rw [if_neg (by omega)] at hok
  split at hok
  · split at hok
    · cases hok
      exact .inr ⟨rfl, rfl, rfl⟩
    · rename_i hleft
      obtain ⟨bs, -, hok⟩ := bind_ok hok
      obtain ⟨bufferLength, -, hok⟩ := bind_ok hok
      cases hok
      simp only [JavaBio.clearRetryFlags_data] at hleft ⊢
      exact .inl ⟨by omega, rfl⟩
  · cases hok
    exact .inr ⟨rfl, rfl, rfl⟩

end

/-- A write or read with data that leaves its memory alone makes progress or asks
to be repeated. -/
theorem progress_or_retry {bio : JavaBio} (h : Counters bio.data) :
    (∀ inp inl ret bio', 0 < inl →
      bioJavaBytebufferWrite bio (some inp) inl = .ok (ret, bio') → WriteContract bio ret bio') ∧
    (∀ out outl ret out' bio', 0 < outl →
      bioJavaBytebufferRead bio (some out) outl = .ok (ret, out', bio') →
        ProgressOrRetry ⟨true, false, true⟩ bio ret bio') :=
  ⟨fun _ _ _ _ hinl hok => bioJavaBytebufferWrite_contract h hinl hok,
    fun _ _ _ _ _ houtl hok => bioJavaBytebufferRead_contract h houtl hok⟩

/-- A sink with room for one byte while two are queued. -/
def queuedSink : JavaBio where
  flags := ⟨true, true, true⟩
  data := ⟨some ⟨[0, 0], 1⟩, [1, 2], 2, 1, 2, 1, true⟩

/-- The write drains one of them and returns 1, although none of its own bytes is
taken. -/
theorem progress_or_retry_sink :
    (bioJavaBytebufferWrite queuedSink (some [3]) 1).toOption.map Prod.fst = some 1 ∧
    ∀ ret bio', bioJavaBytebufferWrite queuedSink (some [3]) 1 = .ok (ret, bio') →
      WriteContract queuedSink ret bio' := by
  refine ⟨rfl, fun ret bio' hok => ?_⟩
  exact (progress_or_retry ⟨by decide, by decide, by decide, by decide⟩).1 [3] 1 ret bio'
    (by decide) hok

end Bio
