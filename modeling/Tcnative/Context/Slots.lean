-- SUMMARY: The callback slots of an `SSLContext`: what its setters store, install and delete.
import Tcnative.Base.Arena
import Tcnative.Base.Library
import Tcnative.Tasks.Java

/-!
# Callback slots

A context keeps a global reference to every Java object that its native
callbacks call, with the methods that they call on it. Each slot has a setter of
its own. The setters for one object differ in what they look up and in what they
tell the `SSL_CTX`, and share the rest.
-/

namespace Context
open CMem Jni Tls

abbrev JObject := Tasks.JObject

/-- What the native code depends on besides its input. `certCbLinked` is whether
the library that is linked has `SSL_CTX_set_cert_cb`, and `copiesCertVerify`
whether `SSL_new` copies what `SSL_CTX_set_cert_verify_callback` has set. -/
structure Build where
  library : Library
  certCbLinked : Bool
  copiesCertVerify : Bool
  packagePrefix : String

/-! ## Verify settings -/

/-- `SSL_CVERIFY_IGNORED`. -/
def sslCverifyIgnored : Int := -1

/-- `SSL_CVERIFY_NONE`. -/
def sslCverifyNone : Int := 0

/-- `SSL_CVERIFY_OPTIONAL`. -/
def sslCverifyOptional : Int := 1

/-- `SSL_CVERIFY_REQUIRED`. -/
def sslCverifyRequired : Int := 2

/-- The modes of the library: `SSL_VERIFY_NONE`, `SSL_VERIFY_PEER`, and
`SSL_VERIFY_PEER | SSL_VERIFY_FAIL_IF_NO_PEER_CERT`. -/
inductive VerifyMode where
  | none
  | peer
  | peerFailIfNoPeerCert
  deriving DecidableEq, Repr

/-- `tcn_ssl_verify_config_t`. -/
structure VerifyConfig where
  verifyDepth : Int
  verifyMode : Int
  deriving DecidableEq, Repr

/-- `tcn_set_verify_config`. -/
def tcnSetVerifyConfig (c : VerifyConfig) (tcnMode depth : Int) : VerifyMode × VerifyConfig :=
  let c := if 0 ≤ depth then { c with verifyDepth := depth } else c
  if tcnMode = sslCverifyIgnored then
    if c.verifyMode = sslCverifyNone then (.none, c)
    else if c.verifyMode = sslCverifyOptional then (.peer, c)
    else (.peerFailIfNoPeerCert, c)
  else if tcnMode = sslCverifyNone then (.none, { c with verifyMode := sslCverifyNone })
  else if tcnMode = sslCverifyOptional then (.peer, { c with verifyMode := sslCverifyOptional })
  else (.peerFailIfNoPeerCert, { c with verifyMode := sslCverifyRequired })

/-! ## Data -/

/-- The slots of `tcn_ssl_ctxt_t`. -/
inductive SlotName where
  | verifier
  | certRequestedCallback
  | certificateCallback
  | sniHostnameMatcher
  | sslSessionCache
  | sslPrivateKeyMethod
  | keylogCallback
  | sslCertCompressionZlibAlgorithm
  | sslCertCompressionBrotliAlgorithm
  | sslCertCompressionZstdAlgorithm
  deriving DecidableEq, Repr

/-- A method, as `GetMethodID` looks it up. -/
structure JMethod where
  name : String
  signature : String
  deriving DecidableEq, Repr

/-- A slot: its global reference and its method IDs. -/
structure Slot where
  object : Option Nat
  methods : List JMethod

/-- What the setters tell the `SSL_CTX`: the callbacks that belong to a slot, and
the verify settings. `none` is the depth that the library starts with. -/
structure SslCtx where
  installed : SlotName → Bool
  verifyMode : VerifyMode
  verifyDepth : Option Int

/-- The part of `tcn_ssl_ctxt_t` that is about callbacks, with every global
reference that its setters ever created. -/
structure TcnSslCtxt where
  slots : SlotName → Slot
  verifyConfig : VerifyConfig
  useTasks : Bool
  ctx : SslCtx
  refs : Arena JObject

/-- A context as `SSLContext.make` returns it. -/
def TcnSslCtxt.make : TcnSslCtxt where
  slots := fun _ => ⟨none, []⟩
  verifyConfig := ⟨100, sslCverifyNone⟩
  useTasks := false
  ctx := ⟨fun _ => false, .none, none⟩
  refs := []

/-- Which of the JNI calls of a setter succeed. `prepend` is about the signature
of a method that has the package prefix in it. -/
structure SetterCalls where
  getObjectClass : Bool
  prepend : JMethod → Bool
  getMethodID : JMethod → Bool
  newGlobalRef : Bool

/-- No JNI call fails. -/
def SetterCalls.succeed : SetterCalls := ⟨true, fun _ => true, fun _ => true, true⟩

/-- How a call ends. One that fails may have thrown nothing. -/
inductive Outcome where
  | done
  | failed (cause : Option Throwable)
  deriving DecidableEq, Repr

/-! ## Parts that the setters share -/

/-- `SSL_CTX_set_custom_verify`. -/
def SslCtx.setCustomVerify (ctx : SslCtx) (mode : VerifyMode) (callback : Bool) : SslCtx :=
  { ctx with installed := Function.update ctx.installed .verifier callback, verifyMode := mode }

/-- Tell the `SSL_CTX` to use the callback of a slot, or none. For BoringSSL and
AWS-LC the verify callback and the verify mode are set together. -/
def TcnSslCtxt.install (b : Build) (k : SlotName) (on : Bool) (c : TcnSslCtxt) : TcnSslCtxt :=
  if k = .verifier ∧ b.library.isBoringSSL then
    if on then
      let set := tcnSetVerifyConfig c.verifyConfig c.verifyConfig.verifyMode
        c.verifyConfig.verifyDepth
      { c with verifyConfig := set.2, ctx := c.ctx.setCustomVerify set.1 true }
    else { c with ctx := c.ctx.setCustomVerify .none false }
  else { c with ctx := { c.ctx with installed := Function.update c.ctx.installed k on } }

/-- Fill a slot and install its callback, or clear both. -/
def TcnSslCtxt.put (b : Build) (c : TcnSslCtxt) (k : SlotName) (slot : Slot)
    (refs : Arena JObject) : TcnSslCtxt :=
  { c with slots := Function.update c.slots k slot, refs }.install b k slot.object.isSome

/-- What a setter looks up. `classError` is what it throws where the class is
NULL, if it checks that, and `prefixed` is whether its signatures have the package
prefix in them. -/
structure Lookup where
  classError : Option String
  methods : List JMethod
  prefixed : Bool
  memoryError : String

/-- Look up the methods in order. A prefix that cannot be prepended ends the
setter without an exception. -/
def lookupMethods (prefixed : Bool) (calls : SetterCalls) :
    List JMethod → Except (Option Throwable) (List JMethod)
  | [] => .ok []
  | m :: ms =>
    if prefixed && !calls.prepend m then .error none
    else if !calls.getMethodID m then
      .error (some (.illegalArgumentException s!"Unable to retrieve {m.name} method"))
    else (lookupMethods prefixed calls ms).map (m :: ·)

/-- Everything that a setter does before it changes anything: the class, the
methods, and the reference. Where the class is not checked, `GetMethodID` answers
for it. -/
def Lookup.resolve (l : Lookup) (calls : SetterCalls) :
    Except (Option Throwable) (List JMethod) :=
  match l.classError, calls.getObjectClass with
  | some text, false => .error (some (.exception text))
  | _, _ =>
    match lookupMethods l.prefixed calls l.methods with
    | .error cause => .error cause
    | .ok methods =>
      if !calls.newGlobalRef then .error (some (.outOfMemoryError l.memoryError)) else .ok methods

/-- `DeleteGlobalRef` of the old reference, behind everything else. -/
def deleteOld (c : TcnSslCtxt) (old : Option Nat) : Except Fault (Outcome × TcnSslCtxt) :=
  match c.refs.releaseOpt old with
  | .error f => .error f
  | .ok refs => .ok (.done, { c with refs })

/-- The setter of a slot, for an object or for null. -/
def setSlot (k : SlotName) (l : Lookup) (b : Build) (calls : SetterCalls)
    (object : Option JObject) (c : TcnSslCtxt) : Except Fault (Outcome × TcnSslCtxt) :=
  match object with
  | none => deleteOld (c.put b k ⟨none, []⟩ c.refs) (c.slots k).object
  | some o =>
    match l.resolve calls with
    | .error cause => .ok (.failed cause, c)
    | .ok methods =>
      deleteOld (c.put b k ⟨some c.refs.length, methods⟩ (c.refs.alloc o)) (c.slots k).object

/-! ## The setters -/

/-- `Unable to allocate memory for global reference`. -/
def globalRefError : String := "Unable to allocate memory for global reference"

/-- `SSLContext.setCertVerifyCallback`. -/
def setCertVerifyCallback (b : Build) (calls : SetterCalls) (verifier : Option JObject)
    (c : TcnSslCtxt) : Except Fault (Outcome × TcnSslCtxt) :=
  setSlot .verifier
    { classError := none
      methods := [⟨"verify", "(J[[BLjava/lang/String;)I"⟩]
      prefixed := false
      memoryError := globalRefError } b calls verifier c

/-- `SSLContext.setCertRequestedCallback`. -/
def setCertRequestedCallback (b : Build) (calls : SetterCalls) (callback : Option JObject)
    (c : TcnSslCtxt) : Except Fault (Outcome × TcnSslCtxt) :=
  match b.library.notSupported with
  | some cause => .ok (.failed (some cause), c)
  | none =>
    setSlot .certRequestedCallback
      { classError := none
        methods := [⟨"requested", "(JJJ[B[[B)V"⟩]
        prefixed := false
        memoryError := globalRefError } b calls callback c

/-- `SSLContext.setCertificateCallback`. -/
def setCertificateCallback (b : Build) (calls : SetterCalls) (callback : Option JObject)
    (c : TcnSslCtxt) : Except Fault (Outcome × TcnSslCtxt) :=
  if b.library = .libressl then
    .ok (.failed (some (.exception "Not supported with LibreSSL")), c)
  else if b.library = .openssl ∧ !b.certCbLinked then
    .ok (.failed (some (.exception "Requires OpenSSL 1.0.2+")), c)
  else
    setSlot .certificateCallback
      { classError := some "Unable to retrieve callback class"
        methods := [⟨"handle", "(J[B[[B)V"⟩]
        prefixed := false
        memoryError := globalRefError } b calls callback c

/-- `SSLContext.setSniHostnameMatcher`. -/
def setSniHostnameMatcher (b : Build) (calls : SetterCalls) (matcher : Option JObject)
    (c : TcnSslCtxt) : Except Fault (Outcome × TcnSslCtxt) :=
  setSlot .sniHostnameMatcher
    { classError := none
      methods := [⟨"match", "(JLjava/lang/String;)Z"⟩]
      prefixed := false
      memoryError := globalRefError } b calls matcher c

/-- `SSLContext.setSSLSessionCache`. -/
def setSSLSessionCache (b : Build) (calls : SetterCalls) (cache : Option JObject)
    (c : TcnSslCtxt) : Except Fault (Outcome × TcnSslCtxt) :=
  setSlot .sslSessionCache
    { classError := some "Unable to retrieve cache class"
      methods := [⟨"sessionCreated", "(JJ)Z"⟩, ⟨"getSession", "(J[B)J"⟩]
      prefixed := false
      memoryError := globalRefError } b calls cache c

/-- `SSLContext.setPrivateKeyMethod0`. -/
def setPrivateKeyMethod0 (b : Build) (calls : SetterCalls) (method : Option JObject)
    (c : TcnSslCtxt) : Except Fault (Outcome × TcnSslCtxt) :=
  let callback := b.packagePrefix ++ "io/netty/internal/tcnative/ResultCallback;)V"
  if !b.library.isBoringSSL then .ok (.failed (some (.exception "Requires BoringSSL")), c)
  else
    setSlot .sslPrivateKeyMethod
      { classError := some "Unable to retrieve method class"
        methods := [⟨"sign", "(JI[BL" ++ callback⟩, ⟨"decrypt", "(J[BL" ++ callback⟩]
        prefixed := true
        memoryError := globalRefError } b calls method c

/-- `SSLContext.setKeyLogCallback`. It returns `JNI_FALSE` where it fails. -/
def setKeyLogCallback (b : Build) (calls : SetterCalls) (callback : Option JObject)
    (c : TcnSslCtxt) : Except Fault (Outcome × TcnSslCtxt) :=
  if !b.library.isBoringSSL then .ok (.failed none, c)
  else
    setSlot .keylogCallback
      { classError := none
        methods := [⟨"handle", "(J[B)V"⟩]
        prefixed := false
        memoryError := globalRefError } b calls callback c

/-! ## Certificate compression -/

/-- `SSL_CERT_COMPRESSION_DIRECTION_COMPRESS` is bit 0 of a direction, and
`SSL_CERT_COMPRESSION_DIRECTION_DECOMPRESS` is bit 1. -/
def validDirection (direction : Int) : Bool := direction % 4 ≠ 0

/-- The slot of an algorithm: `TLSEXT_cert_compression_zlib`, `_brotli` or `_zstd`. -/
def compressionSlot (algorithmId : Int) : Option SlotName :=
  if algorithmId = 1 then some .sslCertCompressionZlibAlgorithm
  else if algorithmId = 2 then some .sslCertCompressionBrotliAlgorithm
  else if algorithmId = 3 then some .sslCertCompressionZstdAlgorithm
  else none

/-- `DeleteGlobalRef` of the reference that was just created, and an exception. -/
def deleteNew (c : TcnSslCtxt) (o : JObject) (text : String) :
    Except Fault (Outcome × TcnSslCtxt) :=
  match (c.refs.alloc o).release c.refs.length with
  | .error f => .error f
  | .ok refs => .ok (.failed (some (.exception text)), { c with refs })

/-- `SSLContext.addCertificateCompressionAlgorithm0`. `added` is what
`SSL_CTX_add_cert_compression_alg` returns. -/
def addCertificateCompressionAlgorithm0 (b : Build) (calls : SetterCalls) (added : Bool)
    (direction algorithmId : Int) (algorithm : Option JObject) (c : TcnSslCtxt) :
    Except Fault (Outcome × TcnSslCtxt) :=
  match algorithm with
  | none =>
    .ok (.failed (some (.illegalArgumentException "Compression algorithm may not be null")), c)
  | some o =>
    if !validDirection direction then
      .ok (.failed (some (.illegalArgumentException "Invalid direction specified")), c)
    else if !b.library.isBoringSSL then
      .ok (.failed (some (.exception "TLS Cert Compression only supported by BoringSSL")), c)
    else
      let lookup : Lookup :=
        { classError := some "Unable to retrieve cert compression algorithm class"
          methods := [⟨"compress", "(J[B)[B"⟩, ⟨"decompress", "(JI[B)[B"⟩]
          prefixed := false
          memoryError :=
            "Unable to allocate memory for global cert compression algorithm reference" }
      match lookup.resolve calls with
      | .error cause => .ok (.failed cause, c)
      | .ok methods =>
        match compressionSlot algorithmId with
        | none => deleteNew c o "Unrecognized certificate compression algorithm"
        | some k =>
          if added then
            deleteOld (c.put b k ⟨some c.refs.length, methods⟩ (c.refs.alloc o)) (c.slots k).object
          else deleteNew c o "Failed trying to add certificate compression algorithm"

/-! ## Clean-up -/

/-- The slots that `ssl_context_cleanup` clears, in order. -/
def cleanupOrder (b : Build) : List SlotName :=
  (if b.library.isBoringSSL then
    [.sslPrivateKeyMethod, .sslCertCompressionZlibAlgorithm, .sslCertCompressionBrotliAlgorithm,
      .sslCertCompressionZstdAlgorithm, .keylogCallback]
  else []) ++
  [.sslSessionCache, .verifier, .certRequestedCallback, .certificateCallback, .sniHostnameMatcher]

/-- Whether the clean-up resets the method IDs of a slot, too. -/
def SlotName.resetsMethods : SlotName → Bool
  | .sslPrivateKeyMethod | .sslCertCompressionZlibAlgorithm | .sslCertCompressionBrotliAlgorithm
  | .sslCertCompressionZstdAlgorithm => false
  | _ => true

/-- One slot of the clean-up. Without a `JNIEnv` the reference is not deleted. -/
def clearSlot (env : Bool) (k : SlotName) (c : TcnSslCtxt) : Except Fault TcnSslCtxt :=
  match if env then c.refs.releaseOpt (c.slots k).object else .ok c.refs with
  | .error f => .error f
  | .ok refs =>
    let methods := if k.resetsMethods then [] else (c.slots k).methods
    .ok { c with slots := Function.update c.slots k ⟨none, methods⟩, refs }

def clearSlots (env : Bool) : List SlotName → TcnSslCtxt → Except Fault TcnSslCtxt
  | [], c => .ok c
  | k :: ks, c =>
    match clearSlot env k c with
    | .error f => .error f
    | .ok c => clearSlots env ks c

/-- The part of `ssl_context_cleanup` that is about callbacks. The `SSL_CTX` is
freed first, and with it all that was installed. -/
def sslContextCleanup (b : Build) (env : Bool) (c : TcnSslCtxt) : Except Fault TcnSslCtxt :=
  clearSlots env (cleanupOrder b) { c with ctx := TcnSslCtxt.make.ctx }

end Context
