-- SUMMARY: Credentials of contexts and connections, and the steps and the rules of the credential API.
import Tcnative.Credential.Setters
import Tcnative.Lifetime.Connections

/-!
# Credentials of contexts and connections

An `SSL_CTX` and an `SSL` have references to the credentials that were added to them.
They are those of `Lifetime`: connections keep an `SSL_CTX` and its credentials alive
when `SSLContext.free` has destroyed the `tcn_ssl_ctxt_t`, but nothing leads to it then
any more.
-/

namespace Credential
open CMem Jni Tls
open Lifetime (Build)

/-! ## Data -/

/-- All objects, and the addresses that Java has got and has to free. Contexts and
connections have a memory of their own. The credentials of an `SSL_CTX` or an `SSL` are
at its position, and so is the one that the handshake of an `SSL` has selected, if any.
What is freed has none. -/
structure State where
  heap : Heap
  java : List Nat
  connections : Lifetime.State
  ctxCredentials : List (List Nat)
  sslCredentials : List (List Nat)
  selected : List (List Nat)

def State.start : State := ⟨[], [], .start, [], [], []⟩

/-- The credentials that `SSL_CTX`s, `SSL`s and handshakes have. -/
def State.credentials (s : State) : List Nat :=
  s.ctxCredentials.flatten ++ (s.sslCredentials.flatten ++ s.selected.flatten)

/-- Who holds a reference to an object, apart from other objects. -/
def State.holders (s : State) : List Nat := s.java ++ s.credentials

/-- The references that exist. -/
def State.count (s : State) : Lifetime.Ref ⊕ Nat → Nat := Sum.elim s.connections.count s.heap.count

/-- The references that somebody holds. -/
def State.held (s : State) : List (Lifetime.Ref ⊕ Nat) :=
  Custody.bothHeld s.connections.held (s.holders ++ s.heap.edges Object.refs)

/-! ## The library -/

/-- One more credential at a position. The library takes a reference. -/
def addCredential (h : Heap) (credentials : List (List Nat)) (i cred : Nat) :
    Except Fault (Heap × List (List Nat)) :=
  match credentials[i]?, RefHeap.upRef h cred with
  | some old, .ok h => .ok (h, credentials.set i (old ++ [cred]))
  | _, _ => .error .useAfterFree

/-- The credentials that stay when some of their owners are freed. -/
def kept (lives : Nat → Bool) (credentials : List (List Nat)) : List (List Nat) :=
  credentials.mapIdx fun i cs => if lives i then cs else []

/-- The credentials that these give up. -/
def lost (lives : Nat → Bool) (credentials : List (List Nat)) : List Nat :=
  (credentials.mapIdx fun i cs => if lives i then [] else cs).flatten

/-- The credentials of new `SSL`s are those of the `SSL_CTX`. -/
def State.inherited (s : State) (connections : Lifetime.State) : List (List Nat) :=
  (connections.ssls.drop s.connections.ssls.length).map fun ssl =>
    if ssl.released then [] else (s.ctxCredentials[ssl.value.ctx]?).getD []

/-- The credentials that `SSL_CTX`s and `SSL`s have no more. -/
def State.givenUp (s : State) (connections : Lifetime.State) : List Nat :=
  lost (0 < connections.sslCtxs.count ·) s.ctxCredentials ++
    (lost (0 < connections.ssls.count ·) s.sslCredentials ++
      lost (0 < connections.ssls.count ·) s.selected)

/-- The `SSL_CTX` of a context. -/
def State.ctxOf (s : State) (ctx : Nat) : Except Fault Nat :=
  match s.connections.ctxts.get ctx with
  | .error fault => .error fault
  | .ok c =>
    match s.connections.sslCtxs.get c.ctx with
    | .error fault => .error fault
    | .ok _ => .ok c.ctx

/-! ## Contexts and connections -/

/-- `SSL.addCredential`. -/
def addToSsl (ssl cred : Option Nat) (added : Bool) (s : State) : Except Fault (Reply × State) :=
  match ssl with
  | none => .ok (nullPointer "ssl", s)
  | some i =>
    match cred with
    | none => .ok (nullPointer "credential", s)
    | some k => do
      let _ ← s.connections.ssls.get i
      let _ ← credentialAt s.heap k
      if added then
        let (heap, sslCredentials) ← addCredential s.heap s.sslCredentials i k
        pure (.ok .void, { s with heap, sslCredentials })
      else pure (.error (.jni (.exception "Failed to add credential to SSL")), s)

/-- `SSLContext.addCredential`. -/
def addToCtx (ctx cred : Option Nat) (added : Bool) (s : State) : Except Fault (Reply × State) :=
  match ctx with
  | none => .ok (nullPointer "ctx", s)
  | some c =>
    match cred with
    | none => .ok (nullPointer "credential", s)
    | some k => do
      let i ← s.ctxOf c
      let _ ← credentialAt s.heap k
      if added then
        let (heap, ctxCredentials) ← addCredential s.heap s.ctxCredentials i k
        pure (.ok .void, { s with heap, ctxCredentials })
      else pure (.error (.jni (.exception "Failed to add credential to SSL_CTX")), s)

/-- The handshake of a connection selects one of the credentials, or has none selected any
more. It has a reference to the one that it has selected. -/
def handshake (ssl : Nat) (selection : Option Nat) (s : State) : Except Fault (Reply × State) :=
  match s.connections.ssls.get ssl with
  | .error fault => .error fault
  | .ok _ =>
    match s.sslCredentials[ssl]?, s.selected[ssl]? with
    | some credentials, some old =>
      let new := (selection.bind fun k => credentials[k]?).toList
      match RefHeap.upRefs new s.heap with
      | .error fault => .error fault
      | .ok heap =>
        match RefHeap.drop Object.refs old heap with
        | .error fault => .error fault
        | .ok heap => .ok (.ok .void, { s with heap, selected := s.selected.set ssl new })
    | _, _ => .error .useAfterFree

/-- `SSL.getSelectedCredential`. Java gets no reference with the pointer. -/
def getSelectedCredential (ssl : Option Nat) (s : State) : Except Fault (Reply × State) :=
  match ssl with
  | none => .ok (nullPointer "ssl", s)
  | some i => do
    let _ ← s.connections.ssls.get i
    pure (.ok (.pointer ((s.selected[i]?).getD []).head?), s)

/-- What a function of contexts and connections replies. -/
def replyOf : Lifetime.Reply → Reply
  | .ok p => .ok (.pointer p)
  | .error t => .error (.jni t)

/-- A step of contexts, connections and BIOs. A new `SSL` takes references to the credentials
of its `SSL_CTX`, and what is freed gives up its own. -/
def connect (b : Build) (event : Lifetime.Event) (s : State) : Except Fault (Reply × State) :=
  match Lifetime.lifetimeStep b s.connections event with
  | .error fault => .error fault
  | .ok (r, connections) =>
    match RefHeap.upRefs (s.inherited connections).flatten s.heap with
    | .error fault => .error fault
    | .ok heap =>
      match RefHeap.drop Object.refs (s.givenUp connections) heap with
      | .error fault => .error fault
      | .ok heap =>
        .ok (replyOf r, { s with
          heap
          connections
          ctxCredentials := kept (0 < connections.sslCtxs.count ·) s.ctxCredentials ++
            List.replicate (connections.sslCtxs.length - s.connections.sslCtxs.length) []
          sslCredentials :=
            kept (0 < connections.ssls.count ·) s.sslCredentials ++ s.inherited connections
          selected := kept (0 < connections.ssls.count ·) s.selected ++
            List.replicate (connections.ssls.length - s.connections.ssls.length) [] })

/-! ## Pointers that Java owns -/

/-- Java gets a new object. -/
def State.handOut (s : State) (o : Object) : Reply × State :=
  (.ok (.pointer (some s.heap.length)),
    { s with heap := s.heap.new o, java := s.heap.length :: s.java })

/-- Java frees a pointer of a kind. -/
def State.takeBack (s : State) (i : Nat) (shape : Shape) : Except Fault (Reply × State) := do
  let _ ← objectAt s.heap i shape
  let heap ← release s.heap i
  pure (.ok .void, { s with heap, java := s.java.erase i })

/-- `SSLCredential.newX509`. -/
def newX509 (created : Bool) (s : State) : Reply × State :=
  if created then s.handOut (.credential (.new .x509)) else (nullPointer "credential", s)

/-- `SSLCredential.newDelegated`. -/
def newDelegated (err : Option String) (s : State) : Reply × State :=
  match err with
  | none => s.handOut (.credential (.new .delegated))
  | some err => (throwOpensslError "Failed to create delegated SSL_CREDENTIAL" err, s)

/-- `SSLCredential.upRef`. -/
def upRef (cred : Option Nat) (s : State) : Except Fault (Reply × State) :=
  match cred with
  | none => .ok (nullPointer "credential", s)
  | some i => do
    let _ ← credentialAt s.heap i
    let heap ← RefHeap.upRef s.heap i
    pure (.ok .void, { s with heap, java := i :: s.java })

/-- `SSLCredential.free`. -/
def free (cred : Option Nat) (s : State) : Except Fault (Reply × State) :=
  match cred with
  | none => .ok (.ok .void, s)
  | some i => s.takeBack i .credential

/-- New buffers, and where they are. -/
def newBuffers : List (List Byte) → Heap → List Nat × Heap
  | [], h => ([], h)
  | bytes :: certs, h =>
    let (buffers, h') := newBuffers certs (h.new (.buffer bytes))
    (h.length :: buffers, h')

/-- `SSL.parseX509Chain`, as far as it hands out a stack of new buffers. -/
def parseX509Chain (certs : List (List Byte)) (s : State) : Reply × State :=
  let (buffers, heap) := newBuffers certs s.heap
  State.handOut { s with heap } (.chain buffers)

/-! ## Steps -/

/-- A call of the credential API, with what the library and the JVM answer. -/
inductive Call where
  | newX509 (created : Bool)
  | newDelegated (err : Option String)
  | upRef (cred : Option Nat)
  | free (cred : Option Nat)
  | setPrivateKey (cred key : Option Nat) (refused : Option String)
  | setCertChain (cred certChainStack : Option Nat) (malloc : Bool) (refused : Option ChainRefused)
  | setOcspResponse (cred : Option Nat) (data : Option JByteArray) (calls : BufferCalls)
  | setCertificateProperties (cred : Option Nat) (data : Option JByteArray) (calls : BufferCalls)
  | setSignedCertTimestampList (cred : Option Nat) (data : Option JByteArray) (calls : BufferCalls)
  | setDelegatedCredential (cred : Option Nat) (data : Option JByteArray) (calls : BufferCalls)
  | setSigningAlgorithmPrefs (cred : Option Nat) (prefs : Option (List (BitVec 32)))
      (malloc getElements : Bool) (refused : Option String)
  | setMustMatchIssuer (cred : Option Nat) (mustMatch : Bool)
  | setTrustAnchorId (cred : Option Nat) (id : Option JByteArray) (getElements : Bool)
      (refused : Option String)
  | addToSsl (ssl cred : Option Nat) (added : Bool)
  | addToCtx (ctx cred : Option Nat) (added : Bool)
  | getSelectedCredential (ssl : Option Nat)

/-- A call that only changes objects. -/
def State.within (s : State) (f : Heap → Except Fault (Reply × Heap)) :
    Except Fault (Reply × State) :=
  match f s.heap with
  | .error fault => .error fault
  | .ok (r, heap) => .ok (r, { s with heap })

/-- The calls of a build with BoringSSL. -/
def callStep (s : State) : Call → Except Fault (Reply × State)
  | .newX509 created => .ok (newX509 created s)
  | .newDelegated err => .ok (newDelegated err s)
  | .upRef cred => upRef cred s
  | .free cred => free cred s
  | .setPrivateKey cred key refused => s.within (setPrivateKey cred key refused)
  | .setCertChain cred stack malloc refused => s.within (setCertChain cred stack malloc refused)
  | .setOcspResponse cred data calls => s.within (setOcspResponse cred data calls)
  | .setCertificateProperties cred data calls => s.within (setCertificateProperties cred data calls)
  | .setSignedCertTimestampList cred data calls =>
    s.within (setSignedCertTimestampList cred data calls)
  | .setDelegatedCredential cred data calls => s.within (setDelegatedCredential cred data calls)
  | .setSigningAlgorithmPrefs cred prefs malloc getElements refused =>
    s.within (setSigningAlgorithmPrefs cred prefs malloc getElements refused)
  | .setMustMatchIssuer cred mustMatch => s.within (setMustMatchIssuer cred mustMatch)
  | .setTrustAnchorId cred id getElements refused =>
    s.within (setTrustAnchorId cred id getElements refused)
  | .addToSsl ssl cred added => addToSsl ssl cred added s
  | .addToCtx ctx cred added => addToCtx ctx cred added s
  | .getSelectedCredential ssl => getSelectedCredential ssl s

inductive Event where
  | call (c : Call)
  | parsePrivateKey
  | freePrivateKey (key : Nat)
  | parseX509Chain (certs : List (List Byte))
  | freeX509Chain (chain : Nat)
  | handshake (ssl : Nat) (selection : Option Nat)
  | connect (event : Lifetime.Event)

/-- The other libraries have no credentials. -/
def credentialStep (b : Build) : Machine.Step Fault State Event Reply := fun s event =>
  match event with
  | .call c =>
    if b.library = .boringssl then callStep s c
    else .ok (.error (.unsupportedOperationException "SSL_CREDENTIAL API not available."), s)
  | .parsePrivateKey => .ok (s.handOut .privateKey)
  | .freePrivateKey key => s.takeBack key .privateKey
  | .parseX509Chain certs => .ok (parseX509Chain certs s)
  | .freeX509Chain chain => s.takeBack chain .chain
  | .handshake ssl selection => handshake ssl selection s
  | .connect event => connect b event s

/-! ## The rules for Java -/

/-- An object of the kind is there and not freed. -/
def Alive (h : Heap) (p : Nat × Shape) : Prop := ∃ o, h.Live p.1 o ∧ o.shape = p.2

instance (h : Heap) (p : Nat × Shape) : Decidable (Alive h p) :=
  decidable_of_iff (∃ o ∈ h[p.1]?, 0 < o.refs ∧ o.value.shape = p.2) (by
    constructor
    · rintro ⟨⟨o, n⟩, hget, hpos, hshape⟩
      obtain ⟨m, rfl⟩ := Nat.exists_eq_succ_of_ne_zero (Nat.ne_of_gt hpos)
      exact ⟨o, ⟨m, hget⟩, hshape⟩
    · rintro ⟨o, ⟨n, hget⟩, hshape⟩
      exact ⟨⟨o, n + 1⟩, hget, n.succ_pos, hshape⟩)

/-- The objects that a call of the API uses. A setter that returns early does not look at
the credential. -/
def Call.uses (h : Heap) : Call → List (Nat × Shape)
  | .newX509 _ | .newDelegated _ | .getSelectedCredential _ => []
  | .upRef cred | .free cred | .setMustMatchIssuer cred _ => cred.toList.map (·, .credential)
  | .setPrivateKey cred key _ =>
    match cred, key with
    | some i, some k => [(i, .credential), (k, .privateKey)]
    | _, _ => []
  | .setCertChain cred certChainStack malloc _ =>
    match cred, certChainStack with
    | some i, some stack =>
      (stack, .chain) ::
        if malloc = true ∧ chainAt h stack ≠ .ok [] then [(i, .credential)] else []
    | _, _ => []
  | .setOcspResponse cred data calls | .setCertificateProperties cred data calls
  | .setSignedCertTimestampList cred data calls | .setDelegatedCredential cred data calls =>
    match cred, data with
    | some i, some a =>
      if a.bytes.length ≠ 0 ∧ calls.getElements = true ∧ calls.bufferNew = true then
        [(i, .credential)]
      else []
    | _, _ => []
  | .setSigningAlgorithmPrefs cred prefs malloc getElements _ =>
    match cred, prefs with
    | some i, some prefs =>
      if prefs.length ≠ 0 ∧ malloc = true ∧ getElements = true then [(i, .credential)] else []
    | _, _ => []
  | .setTrustAnchorId cred id getElements _ =>
    match cred, id with
    | some i, some a =>
      if a.bytes.length ≠ 0 ∧ getElements = true then [(i, .credential)] else []
    | _, _ => []
  | .addToSsl owner cred _ | .addToCtx owner cred _ =>
    match owner, cred with
    | some _, some k => [(k, .credential)]
    | _, _ => []

/-- The context or connection that a call of the API uses. -/
def Call.connects : Call → Option Lifetime.Event
  | .addToSsl (some i) (some _) _ | .getSelectedCredential (some i) => some (.useSsl i)
  | .addToCtx (some c) (some _) _ => some (.useContext c)
  | _ => none

/-- The objects that a step uses. -/
def Event.uses (b : Build) (h : Heap) : Event → List (Nat × Shape)
  | .call c => if b.library = .boringssl then c.uses h else []
  | .freePrivateKey key => [(key, .privateKey)]
  | .freeX509Chain chain => [(chain, .chain)]
  | .parsePrivateKey | .parseX509Chain _ | .handshake _ _ | .connect _ => []

/-- What a step frees for Java. -/
def Event.frees (b : Build) : Event → Option Nat
  | .call (.free cred) => if b.library = .boringssl then cred else none
  | .freePrivateKey i | .freeX509Chain i => some i
  | .call _ | .parsePrivateKey | .parseX509Chain _ | .handshake _ _ | .connect _ => none

/-- What a step does with contexts and connections. -/
def Event.connects (b : Build) : Event → Option Lifetime.Event
  | .call c => if b.library = .boringssl then c.connects else none
  | .handshake ssl _ => some (.useSsl ssl)
  | .connect event => some event
  | .parsePrivateKey | .freePrivateKey _ | .parseX509Chain _ | .freeX509Chain _ => none

/-- Java uses objects that are not freed, and frees what it owns. With contexts and
connections it keeps to the rules that they have. -/
structure Obeys (b : Build) (s : State) (event : Event) : Prop where
  alive : ∀ p ∈ event.uses b s.heap, Alive s.heap p
  owned : ∀ i ∈ event.frees b, i ∈ s.java
  connects : ∀ e ∈ event.connects b, Lifetime.Obeys b s.connections e

instance (b : Build) (s : State) (event : Event) : Decidable (Obeys b s event) :=
  decidable_of_iff ((∀ p ∈ event.uses b s.heap, Alive s.heap p) ∧
    (∀ i ∈ event.frees b, i ∈ s.java) ∧ ∀ e ∈ event.connects b, Lifetime.Obeys b s.connections e)
    ⟨fun h => ⟨h.1, h.2.1, h.2.2⟩, fun h => ⟨h.alive, h.owned, h.connects⟩⟩

end Credential
