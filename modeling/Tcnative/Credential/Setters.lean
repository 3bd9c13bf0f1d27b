-- SUMMARY: `SSLCredential`: keys, chains, buffers and settings that Java gives a credential.
import Mathlib.Logic.Function.Basic
import Tcnative.Base.Library
import Tcnative.Base.Machine
import Tcnative.Base.RefGraph

/-!
# Credentials

An `SSL_CREDENTIAL` of BoringSSL holds references to a key, to certificates and to
other buffers. The setters hand their arguments over through temporary memory, array
elements and buffers, and free these before they return. What else the library makes
of an argument is its own: it reads a trust anchor from certificate properties, and
the signature algorithm from a delegated credential.
-/

namespace Credential
open CMem Jni Tls

/-! ## Data -/

inductive Kind where
  | x509
  | delegated
  deriving DecidableEq

/-- What a credential is given in a buffer. -/
inductive BufferField where
  | ocspResponse
  | certificateProperties
  | signedCertTimestampList
  | delegatedCredential
  deriving DecidableEq

/-- A credential has references to these buffers. It only reads certificate properties. -/
def BufferField.kept : List BufferField :=
  [.ocspResponse, .signedCertTimestampList, .delegatedCredential]

/-- What a credential was told besides its key and its chain. -/
inductive Setting where
  | buffer (field : BufferField) (bytes : List Byte)
  | signingAlgorithmPrefs (prefs : List (BitVec 16))
  | trustAnchorId (id : List Byte)
  | mustMatchIssuer (mustMatch : Bool)

/-- An `SSL_CREDENTIAL`: what it has references to, and all settings that it was told and
has accepted, the last one at the end. -/
structure SslCredential where
  kind : Kind
  privateKey : Option Nat
  certChain : List Nat
  buffers : BufferField → Option Nat
  settings : List Setting

/-- A new credential. -/
def SslCredential.new (kind : Kind) : SslCredential := ⟨kind, none, [], fun _ => none, []⟩

/-- The credential is told something. -/
def SslCredential.tell (c : SslCredential) (setting : Setting) : SslCredential :=
  { c with settings := c.settings ++ [setting] }

/-- The credential is given a buffer. -/
def SslCredential.give (c : SslCredential) (field : BufferField) (b : Nat) (bytes : List Byte) :
    SslCredential :=
  let c := c.tell (.buffer field bytes)
  if field ∈ BufferField.kept then { c with buffers := Function.update c.buffers field (some b) }
  else c

/-- What the credential takes a reference to with a buffer, and what it gives up. -/
def BufferField.taken (field : BufferField) (b : Nat) : List Nat :=
  if field ∈ kept then [b] else []

def SslCredential.replaced (c : SslCredential) (field : BufferField) : List Nat :=
  if field ∈ BufferField.kept then (c.buffers field).toList else []

/-- Everything that has an address: memory of `OPENSSL_malloc`, the elements of a
Java array, keys, buffers, stacks of buffers, and credentials. -/
inductive Object where
  | memory
  | elements
  | privateKey
  | buffer (bytes : List Byte)
  | chain (certs : List Nat)
  | credential (c : SslCredential)

/-- What kind of object an address is for. -/
inductive Shape where
  | memory
  | elements
  | privateKey
  | buffer
  | chain
  | credential
  deriving DecidableEq

def Object.shape : Object → Shape
  | .memory => .memory
  | .elements => .elements
  | .privateKey => .privateKey
  | .buffer _ => .buffer
  | .chain _ => .chain
  | .credential _ => .credential

/-- The references of a credential. -/
def SslCredential.refs (c : SslCredential) : List Nat :=
  c.privateKey.toList ++ c.certChain ++
    BufferField.kept.flatMap fun field => (c.buffers field).toList

def Object.refs : Object → List Nat
  | .memory | .elements | .privateKey | .buffer _ => []
  | .chain certs => certs
  | .credential c => c.refs

abbrev Heap := RefHeap Object

/-! ## The library -/

/-- A pointer to a live object of one kind. Any other use of it is undefined. -/
def objectAt (h : Heap) (i : Nat) (shape : Shape) : Except Fault Object :=
  match RefHeap.get h i with
  | .error fault => .error fault
  | .ok o => if o.shape = shape then .ok o else .error .useAfterFree

/-- The fields of a credential. -/
def credentialAt (h : Heap) (i : Nat) : Except Fault SslCredential :=
  match RefHeap.get h i with
  | .ok (.credential c) => .ok c
  | _ => .error .useAfterFree

/-- The certificates of a stack. -/
def chainAt (h : Heap) (i : Nat) : Except Fault (List Nat) :=
  match RefHeap.get h i with
  | .ok (.chain certs) => .ok certs
  | _ => .error .useAfterFree

/-- Free a pointer, whatever it is for. -/
def release (h : Heap) (i : Nat) : Except Fault Heap := RefHeap.drop Object.refs [i] h

/-- An object gets another value. It takes references to what is new in it, and
gives up what is gone. -/
def assign (h : Heap) (i : Nat) (o : Object) (new gone : List Nat) : Except Fault Heap :=
  match h.upRefs new with
  | .error fault => .error fault
  | .ok h => (h.update i fun _ => o).drop Object.refs gone

/-- `SSL_CREDENTIAL_set1_*`. A function that refuses its argument returns 0 and leaves the
references of the credential as they are. -/
def set1 (h : Heap) (refused : Option String) (i : Nat) (c : SslCredential) (new gone : List Nat) :
    Except Fault Heap :=
  if refused.isSome then .ok h else assign h i (.credential c) new gone

/-! ## Replies -/

/-- What native code throws here. -/
inductive Raised where
  | jni (t : Throwable)
  | unsupportedOperationException (msg : String)
  deriving DecidableEq

inductive JavaValue where
  | void
  | pointer (p : Option Nat)
  deriving DecidableEq

abbrev Reply := Except Raised JavaValue

/-- `TCN_CHECK_NULL`. -/
def nullPointer (name : String) : Reply := .error (.jni (.nullPointerException name))

/-- `throw_openssl_error`, with the text of the oldest error. -/
def throwOpensslError (msg err : String) : Reply := .error (.jni (.exception (msg ++ ": " ++ err)))

/-- What a setter replies: the library returned 1, or 0 and left an error. -/
def setReply (msg : String) : Option String → Reply
  | none => .ok .void
  | some err => throwOpensslError msg err

/-! ## `SSLCredential` -/

/-- `SSLCredential.setPrivateKey`. If the library refuses the key, it leaves the text of
an error. -/
def setPrivateKey (cred key : Option Nat) (refused : Option String) (h : Heap) :
    Except Fault (Reply × Heap) :=
  match cred with
  | none => .ok (nullPointer "credential", h)
  | some i =>
    match key with
    | none => .ok (nullPointer "privateKey", h)
    | some k => do
      let c ← credentialAt h i
      let _ ← objectAt h k .privateKey
      let h ← set1 h refused i { c with privateKey := some k } [k] c.privateKey.toList
      pure (setReply "Failed to set private key" refused, h)

/-- How the library refuses a chain: with an error, and with what it has left in place
of the old chain, if it got that far. -/
structure ChainRefused where
  err : String
  left : Option Nat

/-- What becomes of the chain of a credential. -/
def newChain {α : Type} (old certs : List α) : Option ChainRefused → List α
  | none => certs
  | some refused => refused.left.elim old fun n => certs.take n

/-- What a credential takes references to, and what it gives up. -/
def chainTaken (certs : List Nat) : Option ChainRefused → List Nat
  | none => certs
  | some refused => refused.left.elim [] fun n => certs.take n

def chainGone (old : List Nat) : Option ChainRefused → List Nat
  | none => old
  | some refused => refused.left.elim [] fun _ => old

/-- `SSLCredential.setCertChain`. -/
def setCertChain (cred certChainStack : Option Nat) (malloc : Bool) (refused : Option ChainRefused)
    (h : Heap) : Except Fault (Reply × Heap) :=
  match cred with
  | none => .ok (nullPointer "credential", h)
  | some i =>
    match certChainStack with
    | none => .ok (nullPointer "certificateChainStack", h)
    | some stack => do
      let certs ← chainAt h stack
      if certs.length = 0 then
        pure (.error (.jni (.exception "Certificate chain stack is empty")), h)
      else if !malloc then pure (nullPointer "certificateBuffers", h)
      else
        let certBuffers := h.length
        let h := RefHeap.new h .memory
        let c ← credentialAt h i
        let h ← assign h i (.credential { c with certChain := newChain c.certChain certs refused })
          (chainTaken certs refused) (chainGone c.certChain refused)
        let h ← release h certBuffers
        pure (setReply "Failed to set certificate chain" (refused.map (·.err)), h)

/-- What succeeds in a setter that hands a buffer over: `GetByteArrayElements`,
`CRYPTO_BUFFER_new`, and the library, which else leaves an error. -/
structure BufferCalls where
  getElements : Bool
  bufferNew : Bool
  refused : Option String

/-- A setter that hands a copy of a Java array over. It lacks the array or the buffer
under different names. -/
def setBuffer (field : BufferField) (array buffer failure : String) (cred : Option Nat)
    (data : Option JByteArray) (calls : BufferCalls) (h : Heap) : Except Fault (Reply × Heap) :=
  match cred with
  | none => .ok (nullPointer "credential", h)
  | some i =>
    match data with
    | none => .ok (nullPointer array, h)
    | some a =>
      if a.bytes.length = 0 then .ok (.ok .void, h)
      else if !calls.getElements then .ok (.ok .void, h)
      else
        let elements := h.length
        let h := RefHeap.new h .elements
        if !calls.bufferNew then do
          let h ← release h elements
          pure (nullPointer buffer, h)
        else
          let b := h.length
          let h := RefHeap.new h (.buffer a.bytes)
          do
            let h ← release h elements
            let c ← credentialAt h i
            let h ← set1 h calls.refused i (c.give field b a.bytes) (field.taken b)
              (c.replaced field)
            let h ← release h b
            pure (setReply failure calls.refused, h)

/-- `SSLCredential.setOcspResponse`. -/
def setOcspResponse := setBuffer .ocspResponse "ocspData" "ocspBuffer" "Failed to set OCSP response"

/-- `SSLCredential.setCertificateProperties`. -/
def setCertificateProperties := setBuffer .certificateProperties "certificateProperties"
  "certificatePropertiesBuffer" "Failed to set certificate properties"

/-- `SSLCredential.setSignedCertTimestampList`. -/
def setSignedCertTimestampList := setBuffer .signedCertTimestampList "sctList" "sctBuffer"
  "Failed to set signed certificate timestamp list"

/-- `SSLCredential.setDelegatedCredential`. -/
def setDelegatedCredential := setBuffer .delegatedCredential "delegatedCredential"
  "delegatedCredentialBuffer" "Failed to set delegated credential"

/-- `SSLCredential.setSigningAlgorithmPrefs`. An element is converted to `uint16_t`. -/
def setSigningAlgorithmPrefs (cred : Option Nat) (prefs : Option (List (BitVec 32)))
    (malloc getElements : Bool) (refused : Option String) (h : Heap) :
    Except Fault (Reply × Heap) :=
  match cred with
  | none => .ok (nullPointer "credential", h)
  | some i =>
    match prefs with
    | none => .ok (nullPointer "preferencesArray", h)
    | some prefs =>
      if prefs.length = 0 then .ok (.ok .void, h)
      else if !malloc then .ok (nullPointer "signingAlgorithmPrefs", h)
      else
        let nativePrefs := h.length
        let h := RefHeap.new h .memory
        if !getElements then do
          let h ← release h nativePrefs
          pure (.ok .void, h)
        else
          let prefsData := h.length
          let h := RefHeap.new h .elements
          do
            let c ← credentialAt h i
            let h ← set1 h refused i
              (c.tell (.signingAlgorithmPrefs (prefs.map fun p => p.setWidth 16))) [] []
            let h ← release h prefsData
            let h ← release h nativePrefs
            pure (setReply "Failed to set signing algorithm preferences" refused, h)

/-- `SSLCredential.setMustMatchIssuer`. -/
def setMustMatchIssuer (cred : Option Nat) (mustMatch : Bool) (h : Heap) :
    Except Fault (Reply × Heap) :=
  match cred with
  | none => .ok (nullPointer "credential", h)
  | some i => do
    let c ← credentialAt h i
    let h ← assign h i (.credential (c.tell (.mustMatchIssuer mustMatch))) [] []
    pure (.ok .void, h)

/-- `SSLCredential.setTrustAnchorId`. -/
def setTrustAnchorId (cred : Option Nat) (id : Option JByteArray) (getElements : Bool)
    (refused : Option String) (h : Heap) : Except Fault (Reply × Heap) :=
  match cred with
  | none => .ok (nullPointer "credential", h)
  | some i =>
    match id with
    | none => .ok (nullPointer "trustAnchorId", h)
    | some a =>
      if a.bytes.length = 0 then .ok (.ok .void, h)
      else if !getElements then .ok (.ok .void, h)
      else
        let elements := h.length
        let h := RefHeap.new h .elements
        do
          let c ← credentialAt h i
          let h ← set1 h refused i (c.tell (.trustAnchorId a.bytes)) [] []
          let h ← release h elements
          pure (setReply "Failed to set trust anchor ID" refused, h)

end Credential
