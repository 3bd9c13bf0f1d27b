-- SUMMARY: Certificate compression: the callbacks that cross into Java, and which object a registered algorithm calls.
import Tcnative.Context.PrivateKeyModes

/-!
# Certificate compression

The library knows an algorithm by its ID, with a callback for each direction.
The callbacks find the Java object in the slot of their algorithm, copy the
certificate into an array, and copy the array that Java returns into a buffer of
the library.
-/

namespace Context
open CMem Jni Tls
open Tasks (JniCalls Thrown)

/-! ## Calls of Java -/

/-- Which calls of a compression callback succeed, to JNI and to the library. -/
structure CompressionCalls where
  getEnv : Bool
  newByteArray : Bool
  getByteArrayElements : Bool
  cbbReserve : Bool
  cbbDidWrite : Bool
  cryptoBufferAlloc : Bool

/-- No call fails. -/
def CompressionCalls.succeed : CompressionCalls := ⟨true, true, true, true, true, true⟩

/-- What the methods of Java objects do that return a `byte[]`. -/
abbrev ByteArrayMethods := JObject → JMethod → List JValue → Except Thrown (Option JByteArray)

/-- A call of a Java method, with what became of it. -/
structure JavaCall where
  object : JObject
  method : JMethod
  args : List JValue
  outcome : Except Thrown (Option JByteArray)

/-- The array that a call returned. An exception is cleared, and NULL is no array. -/
def JavaCall.result (call : JavaCall) : Option JByteArray :=
  match call.outcome with
  | .ok result => result
  | .error _ => none

/-- `NewByteArray` and `SetByteArrayRegion`, for the length of the input as a
`jsize`. There is no array with a negative length. -/
def inputArray (e : CompressionCalls) (inp : List Byte) : Option JByteArray :=
  if 0 ≤ toJint inp.length ∧ e.newByteArray then
    some ⟨inp.take (toJint inp.length).toNat, by
      have hmax := (toJint_isJint inp.length).2
      rw [IsArrayLength, List.length_take]
      omega⟩
  else none

/-- The first part of `compress` and of `decompress`, up to the return from Java.
Nothing is called where they return before that. -/
def callAlgorithm (e : CompressionCalls) (java : ByteArrayMethods) (refs : Arena JObject)
    (compressionAlgorithm : Option Nat) (method : Option JMethod)
    (args : JByteArray → List JValue) (inp : List Byte) : Except Fault (Option JavaCall) :=
  match compressionAlgorithm, method with
  | some r, some m =>
    if !e.getEnv then .ok none
    else
      match inputArray e inp with
      | none => .ok none
      | some array =>
        match refs.get r with
        | .error f => .error f
        | .ok o => .ok (some ⟨o, m, args array, java o m (args array)⟩)
  | _, _ => .ok none

/-! ## `compress` and `decompress` -/

/-- What `compress` returns, with the bytes of the `CBB`. -/
structure Compressed where
  ret : Int
  out : List Byte
  called : Option JavaCall

/-- What `decompress` returns, with the buffer that `*out` points to. -/
structure Decompressed where
  ret : Int
  out : Option (List Byte)
  called : Option JavaCall

section
variable (e : CompressionCalls) (java : ByteArrayMethods)

def compress (refs : Arena JObject) (compressionAlgorithm : Option Nat)
    (compressMethod : Option JMethod) (ssl : Int) (out inp : List Byte) :
    Except Fault Compressed := do
  let called ← callAlgorithm e java refs compressionAlgorithm compressMethod
    (fun inputArray => [.long ssl, .byteArray inputArray]) inp
  match called.bind JavaCall.result with
  | none => return ⟨0, out, called⟩
  | some result =>
    if !e.cbbReserve then return ⟨0, out, called⟩
    else if !e.getByteArrayElements then return ⟨0, out, called⟩
    else
      -- What is reserved counts as written behind CBB_did_write only.
      let outData ← memcpy (List.replicate result.bytes.length 0) 0 result.bytes 0
        result.bytes.length
      if !e.cbbDidWrite then return ⟨0, out, called⟩
      else return ⟨1, out ++ outData, called⟩

/-- The method reads the low 32 bits of `uncompressed_len`, which is passed as a
`size_t`. -/
def decompress (refs : Arena JObject) (compressionAlgorithm : Option Nat)
    (decompressMethod : Option JMethod) (ssl : Int) (out : Option (List Byte))
    (uncompressedLen : Nat) (inp : List Byte) : Except Fault Decompressed := do
  let called ← callAlgorithm e java refs compressionAlgorithm decompressMethod
    (fun inputArray => [.long ssl, .int (toJint uncompressedLen), .byteArray inputArray]) inp
  match called.bind JavaCall.result with
  | none => return ⟨0, out, called⟩
  | some result =>
    if uncompressedLen ≠ result.bytes.length then return ⟨0, out, called⟩
    else if !e.getByteArrayElements then return ⟨0, out, called⟩
    -- CRYPTO_BUFFER_alloc has returned NULL into *out.
    else if !e.cryptoBufferAlloc then return ⟨0, none, called⟩
    else
      let outData ← memcpy (List.replicate uncompressedLen 0) 0 result.bytes 0 uncompressedLen
      return ⟨1, some outData, called⟩

end

/-! ## Callbacks -/

/-- `ssl_cert_compression_func_t`, called for an `SSL` of the context. -/
abbrev SslCertCompressionFunc :=
  CompressionCalls → ByteArrayMethods → TcnSslCtxt → Int → List Byte → List Byte →
    Except Fault Compressed

/-- `ssl_cert_decompression_func_t`, called for an `SSL` of the context. -/
abbrev SslCertDecompressionFunc :=
  CompressionCalls → ByteArrayMethods → TcnSslCtxt → Int → Option (List Byte) → Nat → List Byte →
    Except Fault Decompressed

/-- The callback that compresses with the object of a slot. -/
def compressJava (k : SlotName) : SslCertCompressionFunc := fun e java c =>
  compress e java c.refs (c.slots k).object (c.slots k).methods[0]?

/-- The callback that decompresses with the object of a slot. -/
def decompressJava (k : SlotName) : SslCertDecompressionFunc := fun e java c =>
  decompress e java c.refs (c.slots k).object (c.slots k).methods[1]?

/-- `zlib_compress_java`. -/
def zlibCompressJava : SslCertCompressionFunc := compressJava .sslCertCompressionZlibAlgorithm

/-- `zlib_decompress_java`. -/
def zlibDecompressJava : SslCertDecompressionFunc :=
  decompressJava .sslCertCompressionZlibAlgorithm

/-- `brotli_compress_java`. -/
def brotliCompressJava : SslCertCompressionFunc := compressJava .sslCertCompressionBrotliAlgorithm

/-- `brotli_decompress_java`. -/
def brotliDecompressJava : SslCertDecompressionFunc :=
  decompressJava .sslCertCompressionBrotliAlgorithm

/-- `zstd_compress_java`. -/
def zstdCompressJava : SslCertCompressionFunc := compressJava .sslCertCompressionZstdAlgorithm

/-- `zstd_decompress_java`. -/
def zstdDecompressJava : SslCertDecompressionFunc :=
  decompressJava .sslCertCompressionZstdAlgorithm

/-! ## Registrations -/

/-- An algorithm as the library knows it. A callback may be NULL. -/
structure CertCompressionAlg where
  algId : Int
  compress : Option SslCertCompressionFunc
  decompress : Option SslCertDecompressionFunc

/-- A context with the algorithms that are registered on its `SSL_CTX`. -/
structure CompressionCtxt where
  ctxt : TcnSslCtxt
  algs : List CertCompressionAlg

def CompressionCtxt.make : CompressionCtxt := ⟨.make, []⟩

/-- The algorithm that is registered for an ID. -/
def CompressionCtxt.alg? (s : CompressionCtxt) (algId : Int) : Option CertCompressionAlg :=
  s.algs.find? (·.algId = algId)

/-- `SSL_CTX_add_cert_compression_alg`. It refuses an ID that is registered, and
fails without memory. -/
def sslCtxAddCertCompressionAlg (memory : Bool) (s : CompressionCtxt) (alg : CertCompressionAlg) :
    Option (List CertCompressionAlg) :=
  if (s.alg? alg.algId).isSome || !memory then none else some (s.algs ++ [alg])

/-- `direction & SSL_CERT_COMPRESSION_DIRECTION_COMPRESS`. -/
def compresses (direction : Int) : Bool := direction % 2 = 1

/-- `direction & SSL_CERT_COMPRESSION_DIRECTION_DECOMPRESS`. -/
def decompresses (direction : Int) : Bool := 2 ≤ direction % 4

/-- What `SSLContext.addCertificateCompressionAlgorithm0` registers, for the IDs
of its `switch`. -/
def certCompressionAlg (direction algorithmId : Int) : Option CertCompressionAlg :=
  let alg (compress : SslCertCompressionFunc) (decompress : SslCertDecompressionFunc) :
      CertCompressionAlg :=
    { algId := algorithmId
      compress := if compresses direction then some compress else none
      decompress := if decompresses direction then some decompress else none }
  if algorithmId = 1 then some (alg zlibCompressJava zlibDecompressJava)
  else if algorithmId = 2 then some (alg brotliCompressJava brotliDecompressJava)
  else if algorithmId = 3 then some (alg zstdCompressJava zstdDecompressJava)
  else none

/-- `SSLContext.addCertificateCompressionAlgorithm0`, with what it registers. The
registration is made on the way to the end of a call that succeeds. -/
def addCertificateCompressionAlgorithm (b : Build) (calls : SetterCalls) (memory : Bool)
    (direction algorithmId : Int) (algorithm : Option JObject) (s : CompressionCtxt) :
    Except Fault (Outcome × CompressionCtxt) :=
  let added := (certCompressionAlg direction algorithmId).bind
    (sslCtxAddCertCompressionAlg memory s)
  match Context.addCertificateCompressionAlgorithm0 b calls added.isSome direction algorithmId
    algorithm s.ctxt with
  | .error f => .error f
  | .ok (.done, ctxt) => .ok (.done, ⟨ctxt, added.getD s.algs⟩)
  | .ok (.failed cause, ctxt) => .ok (.failed cause, ⟨ctxt, s.algs⟩)

/-- A call of a setter. The flag of a registration is about the memory of the
library here, which decides with the IDs what it returns. -/
def compressionStep (b : Build) : Machine.Step Fault CompressionCtxt Call Outcome :=
  fun s call =>
    match call with
    | .addCertificateCompressionAlgorithm0 direction algorithmId algorithm calls memory =>
      addCertificateCompressionAlgorithm b calls memory direction algorithmId algorithm s
    | call =>
      match callStep b s.ctxt call with
      | .error f => .error f
      | .ok (out, ctxt) => .ok (out, ⟨ctxt, s.algs⟩)

/-! ## What is expected -/

/-- The methods of `CertificateCompressionAlgo`, as a registration looks them up. -/
def compressMethod : JMethod := ⟨"compress", "(J[B)[B"⟩

def decompressMethod : JMethod := ⟨"decompress", "(JI[B)[B"⟩

/-- The arguments of `compress`, behind the array of the input. -/
def compressArgs (ssl : Int) (inputArray : JByteArray) : List JValue :=
  [.long ssl, .byteArray inputArray]

/-- The arguments of `decompress`. -/
def decompressArgs (ssl : Int) (uncompressedLen : Nat) (inputArray : JByteArray) : List JValue :=
  [.long ssl, .int (toJint uncompressedLen), .byteArray inputArray]

/-- The record of a call: it was made on the object, for the input, and its
outcome is what Java does there. -/
structure JavaCall.Made (java : ByteArrayMethods) (o : JObject) (m : JMethod)
    (args : JByteArray → List JValue) (inp : List Byte) (call : JavaCall) : Prop where
  object : call.object = o
  method : call.method = m
  args : ∃ array, call.args = args array ∧ (IsArrayLength inp.length → array.bytes = inp)
  outcome : call.outcome = java o m call.args

/-- What `decompress` may do: return 1 with the bytes that Java returned, as many
as there should be, or return 0 without a new buffer. -/
inductive Delivers (java : ByteArrayMethods) (o : JObject) (ssl : Int)
    (out : Option (List Byte)) (uncompressedLen : Nat) (inp : List Byte) : Decompressed → Prop where
  | delivered (call : JavaCall) (result : JByteArray)
    (hmade : call.Made java o decompressMethod (decompressArgs ssl uncompressedLen) inp)
    (hresult : java o decompressMethod call.args = .ok (some result))
    (hlen : result.bytes.length = uncompressedLen) :
    Delivers java o ssl out uncompressedLen inp ⟨1, some result.bytes, some call⟩
  | refused (called : Option JavaCall) (out' : Option (List Byte))
    (hmade : ∀ call, called = some call →
      call.Made java o decompressMethod (decompressArgs ssl uncompressedLen) inp)
    (hout : out' = out ∨ out' = none) :
    Delivers java o ssl out uncompressedLen inp ⟨0, out', called⟩

/-- What `compress` may do: return 1 behind appending what Java returned, or
return 0 and append nothing. -/
inductive Appends (java : ByteArrayMethods) (o : JObject) (ssl : Int) (out inp : List Byte) :
    Compressed → Prop where
  | appended (call : JavaCall) (result : JByteArray)
    (hmade : call.Made java o compressMethod (compressArgs ssl) inp)
    (hresult : java o compressMethod call.args = .ok (some result)) :
    Appends java o ssl out inp ⟨1, out ++ result.bytes, some call⟩
  | refused (called : Option JavaCall)
    (hmade : ∀ call, called = some call → call.Made java o compressMethod (compressArgs ssl) inp) :
    Appends java o ssl out inp ⟨0, out, called⟩

/-- The callbacks of an algorithm cross into Java with one object. -/
structure CallsObject (s : CompressionCtxt) (alg : CertCompressionAlg) (o : JObject) : Prop where
  compress : ∀ compressFunc, alg.compress = some compressFunc → ∀ e java ssl out inp, ∃ c,
    compressFunc e java s.ctxt ssl out inp = .ok c ∧ Appends java o ssl out inp c
  decompress : ∀ decompressFunc, alg.decompress = some decompressFunc →
    ∀ e java ssl out uncompressedLen inp, ∃ d,
      decompressFunc e java s.ctxt ssl out uncompressedLen inp = .ok d ∧
        Delivers java o ssl out uncompressedLen inp d

/-- An object compresses a certificate, and undoes it. -/
structure Undoes (java : ByteArrayMethods) (o : JObject) (ssl ssl' : Int) (x y : JByteArray) :
    Prop where
  compress : java o compressMethod [.long ssl, .byteArray x] = .ok (some y)
  decompress : java o decompressMethod [.long ssl', .int x.bytes.length, .byteArray y] =
    .ok (some x)

/-- The callbacks of an algorithm call one object, and what it undoes they undo:
with one call of Java each. -/
def RoundTrip (s : CompressionCtxt) (algId : Int) (o : JObject) : Prop :=
  ∃ alg compressFunc decompressFunc,
    s.alg? algId = some alg ∧ alg.compress = some compressFunc ∧
    alg.decompress = some decompressFunc ∧
    ∀ java ssl ssl' x y, Undoes java o ssl ssl' x y → ∀ cbb out,
      compressFunc .succeed java s.ctxt ssl cbb x.bytes = .ok ⟨1, cbb ++ y.bytes,
        some ⟨o, compressMethod, [.long ssl, .byteArray x], .ok (some y)⟩⟩ ∧
      decompressFunc .succeed java s.ctxt ssl' out x.bytes.length y.bytes = .ok ⟨1, some x.bytes,
        some ⟨o, decompressMethod, [.long ssl', .int x.bytes.length, .byteArray y],
          .ok (some x)⟩⟩

/-- A registration of an object that succeeds. -/
def Registers (x : Machine.Entry CompressionCtxt Call Outcome) (direction algId : Int)
    (o : JObject) : Prop :=
  x.ret = .done ∧ ∃ calls memory,
    x.event = .addCertificateCompressionAlgorithm0 direction algId (some o) calls memory

/-- A registration of an object for both directions that succeeds. -/
def RegistersBoth (x : Machine.Entry CompressionCtxt Call Outcome) (algId : Int) (o : JObject) :
    Prop :=
  ∃ direction, Registers x direction algId o ∧ compresses direction = true ∧
    decompresses direction = true

/-! ## One callback -/

theorem inputArray_succeed (x : JByteArray) : inputArray .succeed x.bytes = some x := by
  have hlen : toJint x.bytes.length = x.bytes.length := toJint_of_lt x.length_lt
  simp [inputArray, hlen, CompressionCalls.succeed]

theorem inputArray_eq {e : CompressionCalls} {inp : List Byte} {array : JByteArray}
    (h : inputArray e inp = some array) (hlen : IsArrayLength inp.length) : array.bytes = inp := by
  unfold inputArray at h
  split at h
  · rw [← Option.some.inj h]
    dsimp only
    rw [toJint_of_lt hlen, Int.toNat_natCast, List.take_length]
  · cases h

theorem inputArray_isSome {inp : List Byte} (h : IsArrayLength inp.length) (e : CompressionCalls) :
    (inputArray e inp).isSome = e.newByteArray := by
  have hlen : 0 ≤ toJint inp.length := by
    rw [toJint_of_lt h]
    exact Int.natCast_nonneg _
  unfold inputArray
  split
  · rename_i hok
    exact hok.2.symm
  · rename_i hfails
    exact ((Bool.not_eq_true _).mp fun hnew => hfails ⟨hlen, hnew⟩).symm

theorem JavaCall.result_eq_some {call : JavaCall} {result : JByteArray}
    (h : call.result = some result) : call.outcome = .ok (some result) := by
  unfold JavaCall.result at h
  split at h
  · rename_i houtcome
    rw [houtcome, h]
  · cases h

section
variable {e : CompressionCalls} {java : ByteArrayMethods} {refs : Arena JObject} {r : Nat}
  {o : JObject} {m : JMethod} {args : JByteArray → List JValue} {inp : List Byte}

theorem callAlgorithm_succeed (hlive : refs.Live r o) (x : JByteArray) :
    callAlgorithm .succeed java refs (some r) (some m) args x.bytes =
      .ok (some ⟨o, m, args x, java o m (args x)⟩) := by
  have henv : (!CompressionCalls.succeed.getEnv) = false := rfl
  simp only [callAlgorithm, henv, inputArray_succeed, hlive.get_eq, Bool.false_eq_true, if_false]

/-- A reference that is not deleted does not fault, whatever fails, and what is
called is its object. -/
theorem callAlgorithm_made (hlive : refs.Live r o) (e : CompressionCalls)
    (java : ByteArrayMethods) (m : JMethod) (args : JByteArray → List JValue) (inp : List Byte) :
    ∃ called, callAlgorithm e java refs (some r) (some m) args inp = .ok called ∧
      ∀ call, called = some call → call.Made java o m args inp := by
  unfold callAlgorithm
  dsimp only
  split
  · exact ⟨none, rfl, fun call h => by cases h⟩
  · cases harray : inputArray e inp with
    | none => exact ⟨none, rfl, fun call h => by cases h⟩
    | some array =>
      rw [hlive.get_eq]
      refine ⟨_, rfl, ?_⟩
      rintro _ ⟨⟩
      exact ⟨rfl, rfl, ⟨array, rfl, inputArray_eq harray⟩, rfl⟩

/-- The callbacks of a connection call Java under the same condition. -/
theorem callAlgorithm_iff {b : Build} {c : TcnSslCtxt} (hc : Owned b c) {e' : JniCalls}
    (henv : e'.getEnv = e.getEnv) (harray : e'.newByteArray 0 = e.newByteArray)
    (hlen : IsArrayLength inp.length) (k : SlotName) (i : Nat) :
    (∃ call, callAlgorithm e java c.refs (c.slots k).object (c.slots k).methods[i]? args inp =
      .ok (some call)) ↔
      compression k i e' c = .call (c.slots k).object (c.slots k).methods[i]? := by
  have harray' := inputArray_isSome hlen e
  unfold callAlgorithm compression
  cases hobject : (c.slots k).object with
  | none => simp
  | some r =>
    obtain ⟨o, hlive⟩ := hc.refs.live k r hobject
    cases (c.slots k).methods[i]? with
    | none => simp
    | some m =>
      rw [henv, harray, ← harray']
      cases e.getEnv <;> cases inputArray e inp <;> simp [hlive.get_eq]

theorem compress_succeed (hlive : refs.Live r o) {ssl : Int} {x y : JByteArray}
    (hy : java o m [.long ssl, .byteArray x] = .ok (some y)) (out : List Byte) :
    compress .succeed java refs (some r) (some m) ssl out x.bytes =
      .ok ⟨1, out ++ y.bytes, some ⟨o, m, [.long ssl, .byteArray x], .ok (some y)⟩⟩ := by
  have hcopy := memcpy_fill y.bytes rfl 0
  rw [compress, callAlgorithm_succeed hlive]
  simp [hy, bind, Except.bind, JavaCall.result, hcopy, CompressionCalls.succeed, pure, Except.pure]

theorem decompress_succeed (hlive : refs.Live r o) {ssl : Int} {x y : JByteArray}
    (hx : java o m [.long ssl, .int x.bytes.length, .byteArray y] = .ok (some x))
    (out : Option (List Byte)) :
    decompress .succeed java refs (some r) (some m) ssl out x.bytes.length y.bytes =
      .ok ⟨1, some x.bytes,
        some ⟨o, m, [.long ssl, .int x.bytes.length, .byteArray y], .ok (some x)⟩⟩ := by
  have hlen : toJint x.bytes.length = x.bytes.length := toJint_of_lt x.length_lt
  have hcopy := memcpy_fill x.bytes rfl 0
  rw [decompress, callAlgorithm_succeed hlive]
  simp [hlen, hx, bind, Except.bind, JavaCall.result, hcopy, CompressionCalls.succeed, pure,
    Except.pure]

theorem JavaCall.Made.outcome_eq {call : JavaCall} {result : JByteArray}
    (h : call.Made java o m args inp) (hresult : call.result = some result) :
    java o m call.args = .ok (some result) :=
  h.outcome.symm.trans (JavaCall.result_eq_some hresult)

theorem compress_appends (hlive : refs.Live r o) (ssl : Int) (out : List Byte) :
    ∃ c, compress e java refs (some r) (some compressMethod) ssl out inp = .ok c ∧
      Appends java o ssl out inp c := by
  obtain ⟨called, hcalled, hmade⟩ :=
    callAlgorithm_made hlive e java compressMethod (compressArgs ssl) inp
  unfold compressArgs at hcalled
  simp only [compress, hcalled, bind, Except.bind]
  cases hresult : called.bind JavaCall.result with
  | none => exact ⟨_, rfl, .refused called hmade⟩
  | some result =>
    obtain ⟨call, rfl, hcall⟩ := Option.bind_eq_some_iff.mp hresult
    dsimp only
    split
    · exact ⟨_, rfl, .refused _ hmade⟩
    split
    · exact ⟨_, rfl, .refused _ hmade⟩
    rw [memcpy_fill _ rfl]
    dsimp only
    split
    · exact ⟨_, rfl, .refused _ hmade⟩
    · have hcall' := hmade call rfl
      exact ⟨_, rfl, .appended call result hcall' (hcall'.outcome_eq hcall)⟩

theorem decompress_delivers (hlive : refs.Live r o) (ssl : Int) (out : Option (List Byte))
    (uncompressedLen : Nat) :
    ∃ d, decompress e java refs (some r) (some decompressMethod) ssl out uncompressedLen inp =
        .ok d ∧
      Delivers java o ssl out uncompressedLen inp d := by
  obtain ⟨called, hcalled, hmade⟩ := callAlgorithm_made hlive e java decompressMethod
    (decompressArgs ssl uncompressedLen) inp
  unfold decompressArgs at hcalled
  simp only [decompress, hcalled, bind, Except.bind]
  cases hresult : called.bind JavaCall.result with
  | none => exact ⟨_, rfl, .refused called out hmade (.inl rfl)⟩
  | some result =>
    obtain ⟨call, rfl, hcall⟩ := Option.bind_eq_some_iff.mp hresult
    dsimp only
    split
    · exact ⟨_, rfl, .refused _ out hmade (.inl rfl)⟩
    rename_i hlen
    rw [not_not] at hlen
    split
    · exact ⟨_, rfl, .refused _ out hmade (.inl rfl)⟩
    split
    · exact ⟨_, rfl, .refused _ none hmade (.inr rfl)⟩
    · rw [memcpy_fill _ hlen.symm]
      have hcall' := hmade call rfl
      exact ⟨_, rfl, .delivered call result hcall' (hcall'.outcome_eq hcall) hlen.symm⟩

end

/-! ## One registration -/

/-- Each ID has a slot of its own. -/
theorem compressionSlot_injective {algId algId' : Int} {k : SlotName}
    (h : compressionSlot algId = some k) (h' : compressionSlot algId' = some k) :
    algId' = algId := by
  unfold compressionSlot at h h'
  grind

/-- The callbacks that are registered for an ID use the slot of that ID. -/
theorem certCompressionAlg_eq (direction algorithmId : Int) :
    certCompressionAlg direction algorithmId =
      (compressionSlot algorithmId).map fun k =>
        { algId := algorithmId
          compress := if compresses direction then some (compressJava k) else none
          decompress := if decompresses direction then some (decompressJava k) else none } := by
  unfold certCompressionAlg compressionSlot
  repeat' split
  all_goals rfl

theorem certCompressionAlg_inv {direction algorithmId : Int} {alg : CertCompressionAlg}
    (h : certCompressionAlg direction algorithmId = some alg) :
    ∃ k, compressionSlot algorithmId = some k ∧ alg =
      { algId := algorithmId
        compress := if compresses direction then some (compressJava k) else none
        decompress := if decompresses direction then some (decompressJava k) else none } := by
  rw [certCompressionAlg_eq] at h
  obtain ⟨k, hk, halg⟩ := Option.map_eq_some_iff.mp h
  exact ⟨k, hk, halg.symm⟩

/-- A registration that succeeds puts the object into the slot, with both methods. -/
theorem addCertificateCompressionAlgorithm0_done {b : Build} {calls : SetterCalls} {added : Bool}
    {direction algorithmId : Int} {algorithm : Option JObject} {c c' : TcnSslCtxt}
    (hc : Owned b c)
    (h : Context.addCertificateCompressionAlgorithm0 b calls added direction algorithmId algorithm
      c = .ok (.done, c')) :
    added = true ∧ ∃ o k r, algorithm = some o ∧ compressionSlot algorithmId = some k ∧
      c'.slots k = ⟨some r, [compressMethod, decompressMethod]⟩ ∧ c'.refs.Live r o := by
  rcases addCertificateCompressionAlgorithm0_cases b calls added direction algorithmId algorithm c
    with ⟨cause, heq⟩ | ⟨o, text, heq⟩ | ⟨o, k, ho, hadded, hk, -, heq⟩
  · cases h.symm.trans heq
  · -- A reference that is deleted again belongs to a call that fails.
    have hnew : deleteNew c o text = .ok (.done, c') := heq.symm.trans h
    unfold deleteNew at hnew
    split at hnew
    · cases hnew
    · cases hnew
  · obtain ⟨refs', hrelease, -, hlive⟩ := hc.refs.replace k o
    rw [heq, deleteOld_put hrelease] at h
    cases h
    refine ⟨hadded, o, k, c.refs.length, ho, hk, ?_, ?_⟩
    · rw [put_slots, Function.update_self]
      rfl
    · rw [put_refs]
      exact hlive

/-- What a step does: it leaves the algorithms and their slots as they are, or it
registers an algorithm whose ID is new. -/
inductive CompressionStepped (b : Build) (s : CompressionCtxt) :
    Call → Outcome → CompressionCtxt → Prop where
  | kept {call call' : Call} {out : Outcome} {ctxt : TcnSslCtxt} (hslot : call'.slot = call.slot)
    (hstep : callStep b s.ctxt call' = .ok (out, ctxt))
    (hother : out = .done → ∀ algId, compressionSlot algId ≠ some call.slot) :
    CompressionStepped b s call out ⟨ctxt, s.algs⟩
  | added {direction algId : Int} {algorithm : Option JObject} {calls : SetterCalls}
    {memory : Bool} {ctxt : TcnSslCtxt} {alg : CertCompressionAlg}
    (halg : certCompressionAlg direction algId = some alg) (hnew : s.alg? algId = none)
    (hstep : callStep b s.ctxt
      (.addCertificateCompressionAlgorithm0 direction algId algorithm calls true) =
        .ok (.done, ctxt)) :
    CompressionStepped b s
      (.addCertificateCompressionAlgorithm0 direction algId algorithm calls memory) .done
      ⟨ctxt, s.algs ++ [alg]⟩

/-- Only registrations are about the slots of algorithms. -/
theorem Call.slot_compression {call : Call} {algId : Int}
    (h : compressionSlot algId = some call.slot) :
    ∃ direction algorithmId algorithm calls added,
      call = .addCertificateCompressionAlgorithm0 direction algorithmId algorithm calls added := by
  cases call with
  | addCertificateCompressionAlgorithm0 direction algorithmId algorithm calls added =>
    exact ⟨direction, algorithmId, algorithm, calls, added, rfl⟩
  | _ =>
    simp only [Call.slot, compressionSlot] at h
    repeat' split at h
    all_goals cases h

section
variable {b : Build} {s s' : CompressionCtxt} {call : Call} {out : Outcome}

theorem sslCtxAddCertCompressionAlg_inv {memory : Bool} {alg : CertCompressionAlg}
    {algs : List CertCompressionAlg} (h : sslCtxAddCertCompressionAlg memory s alg = some algs) :
    s.alg? alg.algId = none ∧ algs = s.algs ++ [alg] := by
  unfold sslCtxAddCertCompressionAlg at h
  split at h
  · cases h
  · rename_i hok
    cases h
    simp only [Bool.or_eq_true, not_or, Bool.not_eq_true, Option.isSome_eq_false_iff,
      Option.isNone_iff_eq_none] at hok
    exact ⟨hok.1, rfl⟩

theorem compressionStep_stepped (hs : Owned b s.ctxt)
    (h : compressionStep b s call = .ok (out, s')) : CompressionStepped b s call out s' := by
  unfold compressionStep at h
  split at h
  · rename_i direction algorithmId algorithm calls memory
    unfold addCertificateCompressionAlgorithm at h
    dsimp only at h
    split at h
    · cases h
    · rename_i ctxt hcall
      cases h
      obtain ⟨hadded, -⟩ := addCertificateCompressionAlgorithm0_done hs hcall
      rw [hadded] at hcall
      obtain ⟨algs, halgs⟩ := Option.isSome_iff_exists.mp hadded
      obtain ⟨alg, halg, hadd⟩ := Option.bind_eq_some_iff.mp halgs
      obtain ⟨hnew, rfl⟩ := sslCtxAddCertCompressionAlg_inv hadd
      have hid : alg.algId = algorithmId := by
        obtain ⟨k, -, rfl⟩ := certCompressionAlg_inv halg
        rfl
      rw [hid] at hnew
      rw [halgs]
      exact .added halg hnew hcall
    · rename_i cause ctxt hcall
      cases h
      have hslot : ∀ added, Call.slot
          (.addCertificateCompressionAlgorithm0 direction algorithmId algorithm calls added) =
            Call.slot
              (.addCertificateCompressionAlgorithm0 direction algorithmId algorithm calls memory) :=
        fun _ => rfl
      exact .kept (hslot _) hcall nofun
  · rename_i hother
    split at h
    · cases h
    · rename_i hcall
      cases h
      refine .kept rfl hcall fun _ algId hslot => ?_
      obtain ⟨direction, algorithmId, algorithm, calls, added, rfl⟩ := Call.slot_compression hslot
      exact hother direction algorithmId algorithm calls added rfl

theorem CompressionStepped.callStep (h : CompressionStepped b s call out s') :
    ∃ call', call'.slot = call.slot ∧ Context.callStep b s.ctxt call' = .ok (out, s'.ctxt) := by
  cases h with
  | kept hslot hstep hother => exact ⟨_, hslot, hstep⟩
  | added halg hnew hstep =>
    exact ⟨.addCertificateCompressionAlgorithm0 _ _ _ _ true, rfl, hstep⟩

/-- A step does not fault. -/
theorem compressionStep_ok (hs : Owned b s.ctxt) (call : Call) :
    ∃ out s', compressionStep b s call = .ok (out, s') ∧ Owned b s'.ctxt := by
  unfold compressionStep
  split
  · rename_i direction algorithmId algorithm calls memory
    obtain ⟨out, c', hok, -, howned⟩ := addCertificateCompressionAlgorithm0_ends hs calls
      ((certCompressionAlg direction algorithmId).bind
        (sslCtxAddCertCompressionAlg memory s)).isSome direction algorithmId algorithm
    simp only [addCertificateCompressionAlgorithm, hok]
    cases out with
    | done => exact ⟨_, _, rfl, howned⟩
    | failed cause => exact ⟨_, _, rfl, howned⟩
  · obtain ⟨out, c', hok, -, howned⟩ := callStep_ends hs call
    rw [hok]
    exact ⟨_, _, rfl, howned⟩

end

/-! ## Registered algorithms -/

/-- An algorithm is registered, and its slot holds the object that it was
registered for. -/
structure Registered (s : CompressionCtxt) (alg : CertCompressionAlg) (k : SlotName)
    (o : JObject) : Prop where
  found : s.alg? alg.algId = some alg
  slot : compressionSlot alg.algId = some k
  filled : ∃ r, s.ctxt.slots k = ⟨some r, [compressMethod, decompressMethod]⟩ ∧
    s.ctxt.refs.Live r o

section
variable {b : Build} {s s' : CompressionCtxt} {call : Call} {out : Outcome}
  {alg : CertCompressionAlg} {k : SlotName} {o : JObject}

theorem CompressionStepped.alg? (h : CompressionStepped b s call out s') {algId : Int}
    (hfound : s.alg? algId = some alg) : s'.alg? algId = some alg := by
  cases h with
  | kept hslot hstep hother => exact hfound
  | added halg hnew hstep =>
    rw [CompressionCtxt.alg?, List.find?_append]
    rw [CompressionCtxt.alg?] at hfound
    rw [hfound]
    rfl

/-- The slot of a registered algorithm stays as it is: another registration for
its ID is refused. -/
theorem CompressionStepped.slot (h : CompressionStepped b s call out s') (hs : Owned b s.ctxt)
    (hregistered : Registered s alg k o) : s'.ctxt.slots k = s.ctxt.slots k := by
  cases h with
  | kept hslot hstep hother =>
    have happlied := (callStep_applied hs hstep).1
    cases out with
    | failed cause => exact congrFun happlied.failed_unchanged.1 k
    | done =>
      refine happlied.other_slot fun heq => hother rfl alg.algId ?_
      rw [hregistered.slot, heq, hslot]
  | added halg hnew hstep =>
    refine (callStep_applied hs hstep).1.other_slot ?_
    rintro rfl
    obtain ⟨k, hk, -⟩ := certCompressionAlg_inv halg
    have hslot := hregistered.slot
    rw [Call.slot, hk, Option.getD_some] at hslot
    cases compressionSlot_injective hslot hk
    cases hnew.symm.trans hregistered.found

theorem Registered.step (h : Registered s alg k o) (hs : Owned b s.ctxt)
    (hstepped : CompressionStepped b s call out s') : Registered s' alg k o := by
  obtain ⟨call', -, hstep⟩ := hstepped.callStep
  obtain ⟨r, hr, hlive⟩ := h.filled
  have hkept := hstepped.slot hs h
  have howned := (callStep_applied hs hstep).2
  obtain ⟨o', hlive'⟩ := howned.refs.live k r (by rw [hkept, hr])
  obtain rfl := (callStep_extends hstep).live_eq hlive hlive'
  exact ⟨hstepped.alg? h.found, h.slot, r, hkept.trans hr, hlive'⟩

/-- The callbacks of an algorithm for both directions find its object. -/
theorem Registered.roundTrip (h : Registered s alg k o) {direction algId : Int}
    (halg : certCompressionAlg direction algId = some alg) (hcompress : compresses direction = true)
    (hdecompress : decompresses direction = true) : RoundTrip s algId o := by
  obtain ⟨k', hk', rfl⟩ := certCompressionAlg_inv halg
  obtain rfl : k' = k := Option.some.inj (hk'.symm.trans h.slot)
  obtain ⟨r, hr, hlive⟩ := h.filled
  refine ⟨_, compressJava k', decompressJava k', h.found, if_pos hcompress, if_pos hdecompress, ?_⟩
  rintro java ssl ssl' x y ⟨hy, hx⟩ cbb out
  simp only [compressJava, decompressJava, hr]
  exact ⟨compress_succeed hlive hy cbb, decompress_succeed hlive hx out⟩

/-- Whatever fails, the callbacks of an algorithm call its object. -/
theorem Registered.callsObject (h : Registered s alg k o) {direction algId : Int}
    (halg : certCompressionAlg direction algId = some alg) : CallsObject s alg o := by
  obtain ⟨k', hk', rfl⟩ := certCompressionAlg_inv halg
  obtain rfl : k' = k := Option.some.inj (hk'.symm.trans h.slot)
  obtain ⟨r, hr, hlive⟩ := h.filled
  constructor
  · intro compressFunc hfunc e java ssl out inp
    obtain ⟨-, hsome⟩ := Option.ite_none_right_eq_some.mp hfunc
    cases hsome
    simp only [compressJava, hr]
    exact compress_appends hlive ssl out
  · intro decompressFunc hfunc e java ssl out uncompressedLen inp
    obtain ⟨-, hsome⟩ := Option.ite_none_right_eq_some.mp hfunc
    cases hsome
    simp only [decompressJava, hr]
    exact decompress_delivers hlive ssl out uncompressedLen

/-- A registration that succeeds is about the slot of its ID. -/
theorem exists_compressionSlot (direction algId : Int) (algorithm : Option JObject)
    (calls : SetterCalls) (memory : Bool) :
    ∃ algId', compressionSlot algId' =
      some (Call.slot
        (.addCertificateCompressionAlgorithm0 direction algId algorithm calls memory)) := by
  cases hslot : compressionSlot algId with
  | none => exact ⟨1, by rw [Call.slot, hslot]; rfl⟩
  | some k => exact ⟨algId, by rw [Call.slot, hslot]; rfl⟩

theorem CompressionStepped.registered (hs : Owned b s.ctxt) {direction algId : Int}
    {calls : SetterCalls} {memory : Bool}
    (h : CompressionStepped b s
      (.addCertificateCompressionAlgorithm0 direction algId (some o) calls memory) .done s') :
    ∃ alg k, certCompressionAlg direction algId = some alg ∧ Registered s' alg k o := by
  cases h with
  | kept hslot hstep hother =>
    obtain ⟨algId', hslot'⟩ := exists_compressionSlot direction algId (some o) calls memory
    exact absurd hslot' (hother rfl algId')
  | added halg hnew hstep =>
    rename_i ctxt alg
    have hcall : Context.addCertificateCompressionAlgorithm0 b calls true direction algId (some o)
        s.ctxt = .ok (.done, ctxt) := hstep
    obtain ⟨-, o', k, r, ho, hk, hr, hlive⟩ := addCertificateCompressionAlgorithm0_done hs hcall
    obtain rfl : o = o' := Option.some.inj ho
    obtain ⟨k', -, hdef⟩ := certCompressionAlg_inv halg
    have hid : alg.algId = algId := by rw [hdef]
    refine ⟨alg, k, halg, ?_, by rw [hid, hk], r, hr, hlive⟩
    rw [CompressionCtxt.alg?] at hnew
    simp [CompressionCtxt.alg?, List.find?_append, hid, hnew]

end

/-! ## Whole runs -/

/-- What calls of the setters have led to: every registration that succeeded is
still there, and nothing else was registered. -/
structure Registrations (b : Build) (t : List (Machine.Entry CompressionCtxt Call Outcome))
    (s : CompressionCtxt) : Prop where
  owned : Owned b s.ctxt
  known : ∀ alg ∈ s.algs, ∃ x ∈ t, ∃ direction algId o, Registers x direction algId o ∧
    certCompressionAlg direction algId = some alg
  registered : ∀ x ∈ t, ∀ direction algId o, Registers x direction algId o →
    ∃ alg k, certCompressionAlg direction algId = some alg ∧ Registered s alg k o

theorem registrations_make (b : Build) : Registrations b [] .make where
  owned := make_owned b
  known _ h := by cases h
  registered _ h := by cases h

theorem Registrations.snoc {b : Build} {t : List (Machine.Entry CompressionCtxt Call Outcome)}
    {s s' : CompressionCtxt} {call : Call} {out : Outcome} (h : Registrations b t s)
    (hstep : compressionStep b s call = .ok (out, s')) :
    Registrations b (t ++ [⟨s, call, out, s'⟩]) s' := by
  have hstepped := compressionStep_stepped h.owned hstep
  refine ⟨?_, ?_, ?_⟩
  · obtain ⟨call', -, hcall⟩ := hstepped.callStep
    exact (callStep_applied h.owned hcall).2
  · cases hstepped with
    | kept hslot hcall hother =>
      intro alg halg
      obtain ⟨x, hx, hregisters⟩ := h.known alg halg
      exact ⟨x, List.mem_append_left _ hx, hregisters⟩
    | added halg hnew hcall =>
      rw [List.forall_mem_append, List.forall_mem_singleton]
      constructor
      · intro alg' halg'
        obtain ⟨x, hx, hregisters⟩ := h.known alg' halg'
        exact ⟨x, List.mem_append_left _ hx, hregisters⟩
      · obtain ⟨-, o, -, -, rfl, -⟩ := addCertificateCompressionAlgorithm0_done h.owned hcall
        exact ⟨_, List.mem_append_right _ List.mem_cons_self, _, _, o, ⟨rfl, _, _, rfl⟩, halg⟩
  · rw [List.forall_mem_append, List.forall_mem_singleton]
    constructor
    · intro x hx direction algId o hregisters
      obtain ⟨alg, k, halg, hregistered⟩ := h.registered x hx direction algId o hregisters
      exact ⟨alg, k, halg, hregistered.step h.owned hstepped⟩
    · rintro direction algId o ⟨rfl, calls, memory, rfl⟩
      exact hstepped.registered h.owned

theorem compressionRun_registrations (b : Build) (es : List Call) :
    Machine.Ends (compressionStep b) (Registrations b) .make es := by
  have hok : ∀ (s : CompressionCtxt) call, Owned b s.ctxt →
      ∃ out s', compressionStep b s call = .ok (out, s') ∧ Owned b s'.ctxt ∧ True := by
    intro s call hs
    obtain ⟨out, s', hstep, hs'⟩ := compressionStep_ok hs call
    exact ⟨out, s', hstep, hs', trivial⟩
  have hstart : Owned b CompressionCtxt.make.ctxt := make_owned b
  obtain ⟨t, s, hrun, -, -⟩ := Machine.run_invariant
    (I := fun s : CompressionCtxt => Owned b s.ctxt) (Q := fun _ => True) hok hstart es
  have hsnoc : ∀ t s call out s', Registrations b t s → True →
      compressionStep b s call = .ok (out, s') → Registrations b (t ++ [⟨s, call, out, s'⟩]) s' :=
    fun t s call out s' h _ hstep => h.snoc hstep
  exact ⟨t, s, hrun,
    Machine.run_traced hsnoc (registrations_make b) (fun _ _ => trivial) hrun⟩

/-- Behind any calls of the setters, the callbacks of an algorithm that was
registered for both directions undo each other where its object does, and every
registered callback calls the object of its registration and delivers what that
has returned, or nothing. -/
theorem compressionRun_roundTrip (b : Build) (es : List Call) :
    Machine.Ends (compressionStep b)
      (fun t s =>
        (∀ x ∈ t, ∀ algId o, RegistersBoth x algId o → RoundTrip s algId o) ∧
        ∀ alg ∈ s.algs, ∃ x ∈ t, ∃ direction o, Registers x direction alg.algId o ∧
          CallsObject s alg o)
      .make es := by
  obtain ⟨t, s, hrun, h⟩ := compressionRun_registrations b es
  refine ⟨t, s, hrun, ?_, ?_⟩
  · rintro x hx algId o ⟨direction, hregisters, hcompress, hdecompress⟩
    obtain ⟨alg, k, halg, hregistered⟩ := h.registered x hx direction algId o hregisters
    exact hregistered.roundTrip halg hcompress hdecompress
  · intro alg hknown
    obtain ⟨x, hx, direction, algId, o, hregisters, halg⟩ := h.known alg hknown
    obtain ⟨alg', k, halg', hregistered⟩ := h.registered x hx direction algId o hregisters
    obtain rfl : alg = alg' := Option.some.inj (halg.symm.trans halg')
    have hid : alg.algId = algId := by
      obtain ⟨k', -, rfl⟩ := certCompressionAlg_inv halg
      rfl
    rw [hid]
    exact ⟨x, hx, direction, o, hregisters, hregistered.callsObject halg⟩

/-- A second registration for an ID is refused. -/
example : (Machine.run (compressionStep ⟨.boringssl, true, false, ""⟩) .make
    [.addCertificateCompressionAlgorithm0 3 1 (some 7) .succeed true,
      .addCertificateCompressionAlgorithm0 3 1 (some 8) .succeed true]).map
        (fun a => a.1.map (·.ret)) =
    .ok [.done,
      .failed (some (.exception "Failed trying to add certificate compression algorithm"))] := rfl

end Context
