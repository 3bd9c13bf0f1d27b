-- SUMMARY: The Java ByteBuffer BIO: its state, its read, write and flush functions, and the Java calls that swap its window.
import Tcnative.Base.Jni

/-!
# The Java ByteBuffer BIO

The custom BIO of `ssl.c`. Java hands it a window of direct memory, either to
read encrypted bytes from or to write encrypted bytes to. Bytes written while
there is no window to write to are queued in an internal circular buffer, the
non-application buffer, and drained into a later window.
-/

namespace Bio
open CMem Jni

/-- A `char*` into the memory of a direct `ByteBuffer`: the usable bytes that
Java handed out and the position of the pointer in them. -/
structure CharPtr where
  block : List Byte
  pos : Int
  deriving DecidableEq, Repr

/-- `struct TCN_bio_bytebuffer`. -/
structure TcnBioBytebuffer where
  buffer : Option CharPtr
  nonApplicationBuffer : List Byte
  nonApplicationBufferSize : Int
  nonApplicationBufferOffset : Int
  nonApplicationBufferLength : Int
  bufferLength : Int
  bufferIsSSLWriteSink : Bool
  deriving DecidableEq, Repr

/-- The retry flags of a `BIO`. -/
structure RetryFlags where
  read : Bool
  write : Bool
  shouldRetry : Bool
  deriving DecidableEq, Repr

/-- A `BIO` of this type, with the user data that `BIO_get_data` returns. -/
structure JavaBio where
  flags : RetryFlags
  data : TcnBioBytebuffer
  deriving DecidableEq, Repr

/-- `BIO_clear_retry_flags`. -/
def JavaBio.clearRetryFlags (bio : JavaBio) : JavaBio :=
  { bio with flags := ⟨false, false, false⟩ }

@[simp] theorem JavaBio.clearRetryFlags_data (bio : JavaBio) :
    bio.clearRetryFlags.data = bio.data := rfl

/-- `BIO_set_retry_read`. -/
def JavaBio.setRetryRead (bio : JavaBio) : JavaBio :=
  { bio with flags := { bio.flags with read := true, shouldRetry := true } }

/-- `BIO_set_retry_write`. -/
def JavaBio.setRetryWrite (bio : JavaBio) : JavaBio :=
  { bio with flags := { bio.flags with write := true, shouldRetry := true } }

/-! ## Draining the internal buffer -/

/-- The one or two copies of `tcn_flush_sslbuffer_to_bytebuffer`: the memory of
the window behind them and the new `nonApplicationBufferOffset`. -/
def drainChunks (b : TcnBioBytebuffer) (buffer : CharPtr) (writeAmount writeChunk : Int) :
    Except Fault (List Byte × Int) :=
  if writeAmount > writeChunk then do
    -- The queued bytes wrap around the end of the internal buffer.
    let newnonApplicationBufferOffset ← jint (writeAmount - writeChunk)
    let block ← memcpy buffer.block buffer.pos b.nonApplicationBuffer
      b.nonApplicationBufferOffset writeChunk
    let block ← memcpy block (buffer.pos + writeChunk) b.nonApplicationBuffer 0
      newnonApplicationBufferOffset
    return (block, newnonApplicationBufferOffset)
  else do
    let block ← memcpy buffer.block buffer.pos b.nonApplicationBuffer
      b.nonApplicationBufferOffset writeAmount
    let offset ← jint (b.nonApplicationBufferOffset + writeAmount)
    return (block, offset)

/-- `tcn_flush_sslbuffer_to_bytebuffer`. -/
def tcnFlushSslbufferToBytebuffer (b : TcnBioBytebuffer) :
    Except Fault (Int × TcnBioBytebuffer) :=
  match b.buffer with
  | none => .error .nullPointer
  | some buffer => do
    let writeAmount := min b.bufferLength b.nonApplicationBufferLength
    let writeChunk ← jint (b.nonApplicationBufferSize - b.nonApplicationBufferOffset)
    let (block, offset) ← drainChunks b buffer writeAmount writeChunk
    -- An empty queue starts over at the front of the buffer.
    let length ← jint (b.nonApplicationBufferLength - writeAmount)
    let bufferLength ← jint (b.bufferLength - writeAmount)
    return (writeAmount,
      { b with
        buffer := some ⟨block, buffer.pos + writeAmount⟩
        nonApplicationBufferOffset := if length = 0 then 0 else offset
        nonApplicationBufferLength := length
        bufferLength := bufferLength })

/-! ## Writing -/

/-- The one or two copies with which `tcn_write_to_bytebuffer` queues `inp`. -/
def queueChunks (b : TcnBioBytebuffer) (inp : List Byte) (startIndex writeAmount writeChunk : Int) :
    Except Fault (List Byte) :=
  if writeAmount > writeChunk then do
    -- The write wraps around the end of the internal buffer.
    let ring ← memcpy b.nonApplicationBuffer startIndex inp 0 writeChunk
    let rest ← jint (writeAmount - writeChunk)
    memcpy ring 0 inp writeChunk rest
  else
    memcpy b.nonApplicationBuffer startIndex inp 0 writeAmount

/-- The route of `tcn_write_to_bytebuffer` that queues the data because the
window is in use for reading. -/
def writeToInternalBuffer (bio : JavaBio) (inp : List Byte) (inl : Int) :
    Except Fault (Int × JavaBio) := do
  let b := bio.data
  let nonApplicationBufferFreeSpace ←
    jint (b.nonApplicationBufferSize - b.nonApplicationBufferLength)
  if nonApplicationBufferFreeSpace = 0 then
    return (-1, bio.setRetryWrite) -- buffer is full
  else
    let writeAmount := min nonApplicationBufferFreeSpace inl
    -- The index is not reduced where the queue already wraps.
    let startIndex ← jint (b.nonApplicationBufferOffset + b.nonApplicationBufferLength)
    let writeChunk ← jint (b.nonApplicationBufferSize - startIndex)
    let ring ← queueChunks b inp startIndex writeAmount writeChunk
    let length ← jint (b.nonApplicationBufferLength + writeAmount)
    return (writeAmount,
      { bio with data :=
        { b with nonApplicationBuffer := ring, nonApplicationBufferLength := length } })

/-- The last part of `tcn_write_to_bytebuffer`: copy `inp` into whatever space
the window has left. -/
def writeToWindow (b : TcnBioBytebuffer) (inp : List Byte) (inl : Int) :
    Except Fault (Int × TcnBioBytebuffer) :=
  match b.buffer with
  | none => .error .nullPointer
  | some buffer => do
    let writeChunk := min b.bufferLength inl
    let block ← memcpy buffer.block buffer.pos inp 0 writeChunk
    let bufferLength ← jint (b.bufferLength - writeChunk)
    return (writeChunk,
      { b with
        buffer := some ⟨block, buffer.pos + writeChunk⟩
        bufferLength := bufferLength })

/-- The route of `tcn_write_to_bytebuffer` for a window that is a write sink:
first drain what is queued, then write the data itself. -/
def writeToSink (bio : JavaBio) (inp : List Byte) (inl : Int) : Except Fault (Int × JavaBio) :=
  if bio.data.buffer = none ∨ bio.data.bufferLength = 0 then
    .ok (-1, bio.setRetryWrite) -- no buffer to write into
  else do
    let (writeAmount, b) ←
      if bio.data.nonApplicationBufferLength ≠ 0 then tcnFlushSslbufferToBytebuffer bio.data
      else .ok (0, bio.data)
    let (writeChunk, b) ← writeToWindow b inp inl
    -- The drained bytes count as written.
    let ret ← jint (writeAmount + writeChunk)
    return (ret, { bio with data := b })

/-- `tcn_write_to_bytebuffer`. -/
def tcnWriteToBytebuffer (bio : JavaBio) (inp : Option (List Byte)) (inl : Int) :
    Except Fault (Int × JavaBio) :=
  match inp with
  | none => .ok (0, bio)
  | some inp =>
    if inl ≤ 0 then .ok (0, bio)
    else if !bio.data.bufferIsSSLWriteSink then writeToInternalBuffer bio inp inl
    else writeToSink bio inp inl

/-! ## Reading -/

/-- `tcn_read_from_bytebuffer`: the return value, the memory at `out` behind
the call, and the BIO. -/
def tcnReadFromBytebuffer (bio : JavaBio) (out : Option (List Byte)) (outl : Int) :
    Except Fault (Int × Option (List Byte) × JavaBio) :=
  match out with
  | none => .ok (0, none, bio)
  | some out =>
    if outl ≤ 0 then .ok (0, some out, bio)
    else
      let b := bio.data
      -- Only a source window with bytes left can be read.
      match b.bufferIsSSLWriteSink, b.buffer with
      | false, some buffer =>
        if b.bufferLength = 0 then .ok (-1, some out, bio.setRetryRead)
        else do
          let readAmount := min b.bufferLength outl
          let out ← memcpy out 0 buffer.block buffer.pos readAmount
          let bufferLength ← jint (b.bufferLength - readAmount)
          return (readAmount, some out,
            { bio with data :=
              { b with
                buffer := some { buffer with pos := buffer.pos + readAmount }
                bufferLength := bufferLength } })
      | _, _ => .ok (-1, some out, bio.setRetryRead) -- not set up to read yet

/-! ## The method table and the Java calls -/

/-- `bio_java_bytebuffer_write`. -/
def bioJavaBytebufferWrite (bio : JavaBio) (inp : Option (List Byte)) (inl : Int) :
    Except Fault (Int × JavaBio) :=
  tcnWriteToBytebuffer bio.clearRetryFlags inp inl

/-- `bio_java_bytebuffer_read`. -/
def bioJavaBytebufferRead (bio : JavaBio) (out : Option (List Byte)) (outl : Int) :
    Except Fault (Int × Option (List Byte) × JavaBio) :=
  tcnReadFromBytebuffer bio.clearRetryFlags out outl

/-- `bio_java_bytebuffer_puts`. The string is given by its bytes in front of
the terminating NUL. -/
def bioJavaBytebufferPuts (bio : JavaBio) (inp : List Byte) : Except Fault (Int × JavaBio) :=
  tcnWriteToBytebuffer bio.clearRetryFlags (some inp) (toJint inp.length)

/-- The user data as `bio_java_bytebuffer_create` leaves it. -/
def bioJavaBytebufferCreate : JavaBio where
  flags := ⟨false, false, false⟩
  data :=
    { buffer := none
      nonApplicationBuffer := []
      nonApplicationBufferSize := 0
      nonApplicationBufferOffset := 0
      nonApplicationBufferLength := 0
      bufferLength := 0
      bufferIsSSLWriteSink := false }

/-- `SSL.bioNewByteBuffer`. The two allocations are given by their outcome:
whether `BIO_new` succeeds, and the uninitialised memory that `OPENSSL_malloc`
returns for the internal buffer. -/
def bioNewByteBuffer (nonApplicationBufferSize : Int) (bioNew : Bool)
    (malloc : Option (List Byte)) : Except Throwable JavaBio :=
  checkPositive nonApplicationBufferSize "nonApplicationBufferSize must be > 0" <|
    if !bioNew then .error (.exception "BIO_new failed")
    else
      match malloc with
      | none => .error (.exception
          s!"Failed to allocate internal buffer of size {nonApplicationBufferSize}")
      | some mem =>
        .ok { bioJavaBytebufferCreate with data :=
          { bioJavaBytebufferCreate.data with
            nonApplicationBuffer := mem
            nonApplicationBufferSize := nonApplicationBufferSize } }

/-- `SSL.bioSetByteBuffer`, given the memory at `bufferAddress`. -/
def bioSetByteBuffer (bio : JavaBio) (bufferAddress : Option (List Byte)) (maxUsableBytes : Int)
    (isSSLWriteSink : Bool) : Except Throwable JavaBio :=
  checkNull bufferAddress "bufferAddress" fun mem =>
    checkPositiveOrZero maxUsableBytes "maxUsableBytes must be >= 0" <|
      .ok { bio with data :=
        { bio.data with
          buffer := some ⟨mem, 0⟩
          bufferLength := maxUsableBytes
          bufferIsSSLWriteSink := isSSLWriteSink } }

/-- `SSL.bioClearByteBuffer`. -/
def bioClearByteBuffer (bio : JavaBio) : JavaBio :=
  { bio with data :=
    { bio.data with buffer := none, bufferLength := 0, bufferIsSSLWriteSink := false } }

/-- `SSL.bioFlushByteBuffer`. -/
def bioFlushByteBuffer (bio : JavaBio) : Except Fault (Int × JavaBio) :=
  let b := bio.data
  if b.nonApplicationBufferLength = 0 ∨ b.buffer = none ∨ b.bufferIsSSLWriteSink = false then
    .ok (0, bio)
  else do
    let (ret, b) ← tcnFlushSslbufferToBytebuffer b
    return (ret, { bio with data := b })

/-- `SSL.bioLengthByteBuffer`. -/
def bioLengthByteBuffer (bio : JavaBio) : Int := bio.data.bufferLength

/-- `SSL.bioLengthNonApplication`. -/
def bioLengthNonApplication (bio : JavaBio) : Int := bio.data.nonApplicationBufferLength

/-! ## Sequences of operations -/

/-- What OpenSSL and Java do to the BIO. -/
inductive BioOp where
  | write (inp : Option (List Byte)) (inl : Int)
  | puts (inp : List Byte)
  | read (out : Option (List Byte)) (outl : Int)
  | setByteBuffer (bufferAddress : Option (List Byte)) (maxUsableBytes : Int)
      (isSSLWriteSink : Bool)
  | clearByteBuffer
  | flushByteBuffer
  deriving DecidableEq, Repr

/-- The memory that an operation is given is as long as it says. -/
def BioOp.Wf : BioOp → Prop
  | .write inp inl => IsJint inl ∧ ∀ bs, inp = some bs → 0 < inl → bs.length = inl
  | .puts _ => True
  | .read out outl => IsJint outl ∧ ∀ bs, out = some bs → 0 < outl → bs.length = outl
  | .setByteBuffer mem max _ => IsJint max ∧ ∀ bs, mem = some bs → 0 ≤ max → bs.length = max
  | .clearByteBuffer => True
  | .flushByteBuffer => True

/-- The pointer and the length that a write or puts passes on. -/
def BioOp.input : BioOp → Option (Option (List Byte) × Int)
  | .write inp inl => some (inp, inl)
  | .puts inp => some (some inp, toJint inp.length)
  | _ => none

/-- What an operation returns to its caller. -/
inductive BioResult where
  /-- A return value, and for a read the memory at `out`. -/
  | returned (ret : Int) (out : Option (List Byte))
  | thrown (cause : Throwable)
  deriving DecidableEq, Repr

/-- The BIO and the windows that Java took back, each as it was left. -/
structure BioWorld where
  bio : JavaBio
  retired : List (CharPtr × Bool)
  deriving DecidableEq, Repr

/-- The window that is in use now, with the role it was set for. -/
def BioWorld.current (w : BioWorld) : List (CharPtr × Bool) :=
  w.bio.data.buffer.toList.map (·, w.bio.data.bufferIsSSLWriteSink)

/-- One operation on the BIO. A successful set or clear retires the window. -/
def bioStep (w : BioWorld) : BioOp → Except Fault (BioResult × BioWorld)
  | .write inp inl => do
    let (ret, bio) ← bioJavaBytebufferWrite w.bio inp inl
    return (.returned ret none, { w with bio })
  | .puts inp => do
    let (ret, bio) ← bioJavaBytebufferPuts w.bio inp
    return (.returned ret none, { w with bio })
  | .read out outl => do
    let (ret, out, bio) ← bioJavaBytebufferRead w.bio out outl
    return (.returned ret out, { w with bio })
  | .setByteBuffer mem max sink =>
    match bioSetByteBuffer w.bio mem max sink with
    | .error cause => .ok (.thrown cause, w)
    | .ok bio => .ok (.returned 0 none, ⟨bio, w.retired ++ w.current⟩)
  | .clearByteBuffer =>
    .ok (.returned 0 none, ⟨bioClearByteBuffer w.bio, w.retired ++ w.current⟩)
  | .flushByteBuffer => do
    let (ret, bio) ← bioFlushByteBuffer w.bio
    return (.returned ret none, { w with bio })

end Bio
