-- SUMMARY: The session cache callbacks, the functions of `SSLSession`, and what the library does with references.
import Tcnative.Base.Library
import Tcnative.Base.Machine
import Tcnative.Base.RefCount

/-!
# Sessions

An `SSL_SESSION` is reference counted. The library with its internal cache, the
connections and the Java session cache pass references to each other through two
callbacks, and Java takes and gives up references itself with `SSLSession.upRef`
and `SSLSession.free`.
-/

namespace Sessions
open CMem Jni Tls

/-! ## Data -/

/-- What native code reads of an `SSL_SESSION`. -/
structure SslSession where
  id : List Byte
  time : Int
  timeout : Int
  singleUse : Bool
  deriving DecidableEq

/-- `SSL_SESSION_set_timeout`. -/
def SslSession.withTimeout (seconds : Int) (v : SslSession) : SslSession :=
  { v with timeout := seconds }

/-- A build. `SSL_SESSION_up_ref` is linked weakly unless it is BoringSSL or
AWS-LC. -/
structure Build where
  library : Library
  upRefLinked : Bool

/-- `SSL_SESSION_up_ref` can be called. -/
def Build.hasUpRef (b : Build) : Bool := b.library.isBoringSSL || b.upRefLinked

/-- `SSL_SESS_CACHE_CLIENT`. -/
def sslSessCacheClient : BitVec 32 := 0x0001

/-- `SSL_SESS_CACHE_SERVER`. -/
def sslSessCacheServer : BitVec 32 := 0x0002

/-- `SSL_SESS_CACHE_NO_INTERNAL_LOOKUP`. -/
def sslSessCacheNoInternalLookup : BitVec 32 := 0x0100

/-- `SSL_SESS_CACHE_NO_INTERNAL_STORE`. -/
def sslSessCacheNoInternalStore : BitVec 32 := 0x0200

/-- `SSL_SESS_CACHE_OFF`, which `SSLContext.make` sets. -/
def sslSessCacheOff : BitVec 32 := 0x0000

/-- What an `SSL` has references to: the session that it presents, and others, as
the one that was offered to the server besides the one that was established. -/
structure SslSessions where
  session : Option Nat
  others : List Nat

/-- Every session ever created, and every `SSL` with its sessions. An `SSL` that
was freed leaves a gap. The `SSL_CTX` has the mode of its session cache and the
sessions that it has stored itself. Of Java there are the references it owns, and
whether the context has a session cache. -/
structure State where
  heap : RefHeap SslSession
  ssls : List (Option SslSessions)
  sessionCacheMode : BitVec 32
  stored : List Nat
  java : List Nat
  cache : Bool

def State.start : State := ⟨[], [], sslSessCacheOff, [], [], false⟩

/-- The references of a connection. -/
def SslSessions.refs (sessions : SslSessions) : List Nat :=
  sessions.session.toList ++ sessions.others

/-- The references that an `SSL` holds. -/
def sslRefs (ssl : Option SslSessions) : List Nat := ssl.elim [] SslSessions.refs

/-- Who holds a reference: the connections, the `SSL_CTX`, and Java. -/
def State.held (s : State) : List Nat := s.ssls.flatMap sslRefs ++ (s.stored ++ s.java)

/-- A bit of the mode of the session cache. -/
def State.cacheMode (s : State) (bit : BitVec 32) : Bool := s.sessionCacheMode &&& bit != 0

/-- A reference of Java passes to somebody else. -/
def State.give (s : State) (i : Nat) : State := { s with java := s.java.erase i }

/-- The `SSL` was created and not freed. -/
def State.LiveSsl (s : State) (ssl : Nat) : Prop := ∃ old, s.ssls[ssl]? = some (some old)

instance (s : State) (ssl : Nat) : Decidable (s.LiveSsl ssl) :=
  decidable_of_iff (s.ssls[ssl]?.join.isSome = true) (by
    simp [State.LiveSsl, Option.isSome_iff_exists, Option.join_eq_some_iff])

/-! ## `SSLContext` -/

/-- `SSLContext.setSessionCacheMode`. The library keeps the low 32 bits. -/
def setSessionCacheMode (mode : Int) (s : State) : State :=
  { s with sessionCacheMode := .ofInt 32 mode }

/-- `SSLContext.setSessionCacheSize`, which also sets the mode. -/
def setSessionCacheSize (size : Int) (s : State) : State :=
  if 0 ≤ size then { s with sessionCacheMode := sslSessCacheServer } else s

/-! ## `SSLSession` -/

/-- A call from Java, with the session it passes and what the library and the
JVM answer. NULL is `none`. -/
inductive JavaCall where
  | upRef (session : Option Nat) (succeeds : Bool)
  | free (session : Option Nat)
  | getTime (session : Option Nat)
  | getTimeout (session : Option Nat)
  | setTimeout (session : Option Nat) (seconds rv : Int)
  | getSessionId (session : Option Nat) (newByteArray : Bool)
  | shouldBeSingleUse (session : Option Nat)

inductive JavaValue where
  | void
  | boolean (b : Bool)
  | long (n : Int)
  | bytes (a : Option (List Byte))
  deriving DecidableEq

/-- What a call returns or throws. -/
abbrev JavaReply := Except Throwable JavaValue

/-- A function that checks for NULL and reads the session. -/
def readSession (f : SslSession → JavaValue) (session : Option Nat) (s : State) :
    Except Fault (JavaReply × State) :=
  match session with
  | none => .ok (.error (.nullPointerException "session"), s)
  | some i =>
    match s.heap.get i with
    | .error fault => .error fault
    | .ok v => .ok (.ok (f v), s)

/-- `SSLSession.getTime`. -/
def getTime : Option Nat → State → Except Fault (JavaReply × State) :=
  readSession fun v => .long v.time

/-- `SSLSession.getTimeout`. -/
def getTimeout : Option Nat → State → Except Fault (JavaReply × State) :=
  readSession fun v => .long v.timeout

/-- `SSLSession.getSessionId`. -/
def getSessionId (newByteArray : Bool) : Option Nat → State → Except Fault (JavaReply × State) :=
  readSession fun v =>
    if v.id.length = 0 then .bytes none else .bytes (if newByteArray then some v.id else none)

/-- `SSLSession.shouldBeSingleUse`. The other libraries do not look at the
session. -/
def shouldBeSingleUse (b : Build) (session : Option Nat) (s : State) :
    Except Fault (JavaReply × State) :=
  if b.library.isBoringSSL then readSession (fun v => .boolean v.singleUse) session s
  else .ok (.ok (.boolean false), s)

/-- `SSLSession.setTimeout`, which returns what the library returns. -/
def setTimeout (session : Option Nat) (seconds rv : Int) (s : State) :
    Except Fault (JavaReply × State) :=
  match session with
  | none => .ok (.error (.nullPointerException "session"), s)
  | some i =>
    match s.heap.get i with
    | .error fault => .error fault
    | .ok _ => .ok (.ok (.long rv),
        { s with heap := s.heap.update i (SslSession.withTimeout seconds) })

/-- `SSLSession.upRef`. Java owns one reference more if it returns `true`. -/
def upRef (b : Build) (session : Option Nat) (succeeds : Bool) (s : State) :
    Except Fault (JavaReply × State) :=
  match session with
  | none => .ok (.error (.nullPointerException "session"), s)
  | some i =>
    if !b.hasUpRef then .ok (.ok (.boolean false), s)
    else
      match s.heap.upRef i with
      | .error fault => .error fault
      | .ok heap =>
        if succeeds then .ok (.ok (.boolean true), { s with heap, java := i :: s.java })
        else .ok (.ok (.boolean false), s)

/-- `SSLSession.free`. -/
def free (session : Option Nat) (s : State) : Except Fault (JavaReply × State) :=
  match session with
  | none => .ok (.error (.nullPointerException "session"), s)
  | some i =>
    match s.heap.free i with
    | .error fault => .error fault
    | .ok heap => .ok (.ok .void, { s.give i with heap })

def javaStep (b : Build) : Machine.Step Fault State JavaCall JavaReply := fun s call =>
  match call with
  | .upRef session succeeds => upRef b session succeeds s
  | .free session => free session s
  | .getTime session => getTime session s
  | .getTimeout session => getTimeout session s
  | .setTimeout session seconds rv => setTimeout session seconds rv s
  | .getSessionId session newByteArray => getSessionId newByteArray session s
  | .shouldBeSingleUse session => shouldBeSingleUse b session s

/-! ## The callbacks -/

/-- What happens during `tcn_new_session_cb`: whether there is a `JNIEnv`, the
calls that `sessionCreated` makes, and what it returns. It throws on `none`. -/
structure NewCallback where
  getEnv : Bool
  calls : List JavaCall
  result : Option Bool

/-- What `SSLSessionCache.getSession` ends with. -/
inductive Found where
  | threw
  | notFound
  | null
  | session (i : Nat)
  deriving DecidableEq

structure GetCallback where
  getEnv : Bool
  newByteArray : Bool
  calls : List JavaCall
  result : Found

/-- `tcn_new_session_cb`. -/
def tcnNewSessionCb (b : Build) (cb : NewCallback) (s : State) : Except Fault (Bool × State) :=
  if !cb.getEnv || !s.cache then .ok (false, s)
  else
    match Machine.run (javaStep b) s cb.calls with
    | .error fault => .error fault
    | .ok (_, s) => .ok (cb.result.getD false, s)

/-- `tcn_get_session_cb`. It returns NULL for `-1`, and also for a Java `0`. -/
def tcnGetSessionCb (b : Build) (cb : GetCallback) (s : State) :
    Except Fault (Option Nat × State) :=
  if !cb.getEnv || !s.cache || !cb.newByteArray then .ok (none, s)
  else
    match Machine.run (javaStep b) s cb.calls with
    | .error fault => .error fault
    | .ok (_, s) =>
      match cb.result with
      | .threw | .notFound | .null => .ok (none, s)
      | .session i => .ok (some i, s)

/-! ## The library -/

/-- The library gives up a reference that it has in hand. -/
def State.drop (s : State) (i : Nat) : Except Fault State :=
  match s.heap.free i with
  | .error fault => .error fault
  | .ok heap => .ok { s with heap }

/-- Another session becomes that of an `SSL`. The library lets go of the one before,
or `keeps` it for the connection. -/
def State.replaceSession (s : State) (keeps : Bool) (ssl : Nat) (old : SslSessions)
    (session : Option Nat) : Except Fault State :=
  if keeps then .ok { s with ssls := s.ssls.set ssl (some ⟨session, old.refs⟩) }
  else
    match s.heap.freeOpt old.session with
    | .error fault => .error fault
    | .ok heap => .ok { s with heap, ssls := s.ssls.set ssl (some ⟨session, old.others⟩) }

/-- `SSL_new`. -/
def State.newSsl (s : State) : State := { s with ssls := s.ssls ++ [some ⟨none, []⟩] }

/-- `SSL_free`. -/
def State.freeSsl (s : State) (ssl : Nat) : Except Fault State :=
  match s.ssls[ssl]? with
  | some (some old) =>
    match s.heap.freeAll old.refs with
    | .error fault => .error fault
    | .ok heap => .ok { s with heap, ssls := s.ssls.set ssl none }
  | _ => .error .useAfterFree

/-- During a handshake an `SSL` takes one more reference to its session. -/
def State.refer (s : State) (ssl : Nat) : Except Fault State :=
  match s.ssls[ssl]? with
  | some (some ⟨none, _⟩) => .ok s
  | some (some ⟨some i, others⟩) =>
    match s.heap.upRef i with
    | .error fault => .error fault
    | .ok heap => .ok { s with heap, ssls := s.ssls.set ssl (some ⟨some i, i :: others⟩) }
  | _ => .error .useAfterFree

/-- An `SSL` lets go of a session that it has besides its own. -/
def State.letGo (s : State) (ssl i : Nat) : Except Fault State :=
  match s.ssls[ssl]? with
  | some (some ⟨session, others⟩) =>
    if i ∉ others then .ok s
    else
      match s.heap.free i with
      | .error fault => .error fault
      | .ok heap => .ok { s with heap, ssls := s.ssls.set ssl (some ⟨session, others.erase i⟩) }
  | _ => .error .useAfterFree

/-- `SSL_CTX_add_session`. A session that is stored already stays as it is. -/
def State.sslCtxAddSession (s : State) (i : Nat) : Except Fault State :=
  match s.heap.upRef i with
  | .error fault => .error fault
  | .ok heap => .ok (if i ∈ s.stored then s else { s with heap, stored := i :: s.stored })

/-- The `SSL_CTX` stores a session unless its mode says otherwise. `adds` is whether the
library is able to, and whether it is a session that it stores. -/
def State.store (s : State) (adds : Bool) (i : Nat) : Except Fault State :=
  if s.cacheMode sslSessCacheNoInternalStore || !adds then .ok s else s.sslCtxAddSession i

/-- `SSL_CTX_remove_session`, also where a session has expired, where the connection
failed, where the cache is full or has another session with its ID, and where the
`SSL_CTX` ends. -/
def State.removeSession (s : State) (i : Nat) : Except Fault State :=
  if i ∉ s.stored then .ok s
  else
    match s.heap.free i with
    | .error fault => .error fault
    | .ok heap => .ok { s with heap, stored := s.stored.erase i }

/-- A session that a handshake makes, and what the library does with it: whether it
becomes the session of the `SSL`, and whether the one before is kept for the
connection, whether it can be resumed, and whether the `SSL_CTX` can store it. -/
structure NewSession where
  session : SslSession
  server : Bool
  installed : Bool
  keeps : Bool
  resumable : Bool
  adds : Bool

/-- The mode of the cache covers the session. -/
def State.caches (s : State) (n : NewSession) : Bool :=
  n.resumable && s.cacheMode (if n.server then sslSessCacheServer else sslSessCacheClient)

/-- The new session becomes that of the `SSL`, besides the reference in hand. -/
def State.install (s : State) (ssl : Nat) (old : SslSessions) (n : NewSession) (i : Nat) :
    Except Fault State :=
  if !n.installed then .ok s
  else
    match s.heap.upRef i with
    | .error fault => .error fault
    | .ok heap => State.replaceSession { s with heap } n.keeps ssl old (some i)

/-- A handshake makes a new session, with a reference in hand. The `SSL` and the
`SSL_CTX` take their own. -/
def State.establish (s : State) (ssl : Nat) (n : NewSession) : Except Fault State :=
  match s.ssls[ssl]? with
  | some (some old) =>
    match State.install { s with heap := s.heap.new n.session } ssl old n s.heap.length with
    | .error fault => .error fault
    | .ok s' => if s.caches n then s'.store n.adds s.heap.length else .ok s'
  | _ => .error .useAfterFree

/-- A new session that the mode covers is offered to the callback. If this returns 1
the reference in hand is Java's, else the library gives it up. -/
def established (b : Build) (ssl : Nat) (n : NewSession) (cb : NewCallback) (s : State) :
    Except Fault State :=
  match s.establish ssl n with
  | .error fault => .error fault
  | .ok s' =>
    if !s.caches n then s'.drop s.heap.length
    else
      match tcnNewSessionCb b cb s' with
      | .error fault => .error fault
      | .ok (true, s') => .ok { s' with java := s.heap.length :: s'.java }
      | .ok (false, s') => s'.drop s.heap.length

/-- What the library does with the session that it has found: whether the `SSL_CTX` can
store it, whether it is resumed, and whether the session before is kept for the
connection. -/
structure Resumption where
  adds : Bool
  accepted : Bool
  keeps : Bool

/-- The session in hand becomes that of the `SSL`, or the library gives it up. -/
def State.resume (s : State) (ssl : Nat) (old : SslSessions) (res : Resumption) (i : Nat) :
    Except Fault State :=
  if res.accepted then s.replaceSession res.keeps ssl old (some i) else s.drop i

/-- The `SSL_CTX` finds a session that it has stored. -/
def State.stores (s : State) (i : Nat) : Bool :=
  !s.cacheMode sslSessCacheNoInternalLookup && s.stored.contains i

/-- The library asks for a session to resume, itself for `hit` and then the callback.
`*copy` is 0, so that the reference is the library's from then on. -/
def lookup (b : Build) (ssl : Nat) (hit : Option Nat) (cb : GetCallback) (res : Resumption)
    (s : State) : Except Fault State :=
  match s.ssls[ssl]? with
  | some (some old) =>
    match hit.filter s.stores with
    | some i =>
      match s.heap.upRef i with
      | .error fault => .error fault
      | .ok heap => State.resume { s with heap } ssl old res i
    | none =>
      match tcnGetSessionCb b cb s with
      | .error fault => .error fault
      | .ok (none, s) => .ok s
      | .ok (some i, s) =>
        match s.heap.get i with
        | .error fault => .error fault
        | .ok _ =>
          match (s.give i).store res.adds i with
          | .error fault => .error fault
          | .ok s => s.resume ssl old res i
  | _ => .error .useAfterFree

/-- `SSL.setSession`. The library takes a reference of its own. -/
def setSession (ssl : Nat) (session : Option Nat) (succeeds keeps : Bool) (s : State) :
    Except Fault (JavaReply × State) :=
  match s.ssls[ssl]? with
  | some (some old) =>
    match session with
    | none => .ok (.error (.nullPointerException "session"), s)
    | some i =>
      if !succeeds then
        match s.heap.get i with
        | .error fault => .error fault
        | .ok _ => .ok (.ok (.boolean false), s)
      else
        match s.heap.upRef i with
        | .error fault => .error fault
        | .ok heap =>
          match State.replaceSession { s with heap } keeps ssl old (some i) with
          | .error fault => .error fault
          | .ok s => .ok (.ok (.boolean true), s)
  | _ => .error .useAfterFree

/-- `SSL.getSession`. Java gets no reference with the pointer. -/
def getSession (ssl : Nat) (s : State) : Except Fault (JavaReply × State) :=
  match s.ssls[ssl]? with
  | some (some sessions) => .ok (.ok (.long (sessions.session.elim (-1) fun i => i)), s)
  | _ => .error .useAfterFree

/-! ## Runs -/

inductive Event where
  | setSSLSessionCache (cache : Bool)
  | setSessionCacheMode (mode : Int)
  | setSessionCacheSize (size : Int)
  | newSSL
  | freeSSL (ssl : Nat)
  | established (ssl : Nat) (n : NewSession) (cb : NewCallback)
  | lookup (ssl : Nat) (hit : Option Nat) (cb : GetCallback) (res : Resumption)
  | refer (ssl : Nat)
  | letGo (ssl i : Nat)
  | removeSession (i : Nat)
  | setSession (ssl : Nat) (session : Option Nat) (succeeds keeps : Bool)
  | getSession (ssl : Nat)
  | java (call : JavaCall)

/-- A step of the library replies nothing to Java. -/
def internal (x : Except Fault State) : Except Fault (JavaReply × State) :=
  match x with
  | .error fault => .error fault
  | .ok s => .ok (.ok .void, s)

def sessionStep (b : Build) : Machine.Step Fault State Event JavaReply := fun s event =>
  match event with
  | .setSSLSessionCache cache => .ok (.ok .void, { s with cache })
  | .setSessionCacheMode mode => .ok (.ok .void, setSessionCacheMode mode s)
  | .setSessionCacheSize size => .ok (.ok .void, setSessionCacheSize size s)
  | .newSSL => .ok (.ok .void, s.newSsl)
  | .freeSSL ssl => internal (s.freeSsl ssl)
  | .established ssl n cb => internal (established b ssl n cb s)
  | .lookup ssl hit cb res => internal (lookup b ssl hit cb res s)
  | .refer ssl => internal (s.refer ssl)
  | .letGo ssl i => internal (s.letGo ssl i)
  | .removeSession i => internal (s.removeSession i)
  | .setSession ssl session succeeds keeps => setSession ssl session succeeds keeps s
  | .getSession ssl => getSession ssl s
  | .java call => javaStep b s call

/-! ## The rules for Java -/

/-- Java uses sessions that are not freed, and frees references of its own. -/
def ObeysCall (b : Build) (s : State) : JavaCall → Prop
  | .upRef (some i) _ => b.hasUpRef = true → 0 < s.heap.count i
  | .free (some i) => i ∈ s.java
  | .getTime (some i) | .getTimeout (some i) | .setTimeout (some i) _ _ | .getSessionId (some i) _ =>
    0 < s.heap.count i
  | .shouldBeSingleUse (some i) => b.library.isBoringSSL = true → 0 < s.heap.count i
  | .upRef none _ | .free none | .getTime none | .getTimeout none | .setTimeout none _ _
  | .getSessionId none _ | .shouldBeSingleUse none => True

instance (b : Build) (s : State) : (call : JavaCall) → Decidable (ObeysCall b s call)
  | .upRef (some _) _ | .shouldBeSingleUse (some _) => inferInstanceAs (Decidable (_ → _))
  | .free (some _) => inferInstanceAs (Decidable (_ ∈ _))
  | .getTime (some _) | .getTimeout (some _) | .setTimeout (some _) _ _
  | .getSessionId (some _) _ => inferInstanceAs (Decidable (_ < _))
  | .upRef none _ | .free none | .getTime none | .getTimeout none | .setTimeout none _ _
  | .getSessionId none _ | .shouldBeSingleUse none => isTrue trivial

/-- So do the calls that Java makes in `sessionCreated`. -/
def NewCallback.Obeys (b : Build) (cb : NewCallback) (s : State) : Prop :=
  cb.getEnv = true → s.cache = true → Machine.Meets (javaStep b) (ObeysCall b) s cb.calls

instance (b : Build) (cb : NewCallback) (s : State) : Decidable (cb.Obeys b s) :=
  inferInstanceAs (Decidable (_ → _ → _))

/-- Java owns a reference to what `getSession` returns. -/
def Found.Owned (s : State) : Found → Prop
  | .session i => i ∈ s.java
  | .threw | .notFound | .null => True

instance (s : State) : (found : Found) → Decidable (found.Owned s)
  | .session _ => inferInstanceAs (Decidable (_ ∈ _))
  | .threw | .notFound | .null => isTrue trivial

/-- The calls that Java makes in `getSession` keep to the rules, and it returns a
session of its own. -/
def GetCallback.Obeys (b : Build) (cb : GetCallback) (s : State) : Prop :=
  cb.getEnv = true → s.cache = true → cb.newByteArray = true →
    Machine.Meets (javaStep b) (ObeysCall b) s cb.calls ∧
    Machine.Sat (fun _ => True) (fun x => cb.result.Owned x.2) (Machine.run (javaStep b) s cb.calls)

instance (b : Build) (cb : GetCallback) (s : State) : Decidable (cb.Obeys b s) :=
  inferInstanceAs (Decidable (_ → _ → _ → _ ∧ _))

/-- No `SSL` is used after it was freed, and Java keeps to the rules. -/
def Obeys (b : Build) (s : State) : Event → Prop
  | .setSSLSessionCache _ | .setSessionCacheMode _ | .setSessionCacheSize _ | .newSSL
  | .removeSession _ => True
  | .freeSSL ssl | .getSession ssl | .refer ssl | .letGo ssl _ => s.LiveSsl ssl
  | .established ssl n cb =>
    s.LiveSsl ssl ∧
      (s.caches n = true → Machine.Sat (fun _ => True) (cb.Obeys b) (s.establish ssl n))
  | .lookup ssl hit cb _ => s.LiveSsl ssl ∧ (hit.filter s.stores = none → cb.Obeys b s)
  | .setSession ssl session _ _ => s.LiveSsl ssl ∧ ∀ i ∈ session, 0 < s.heap.count i
  | .java call => ObeysCall b s call

instance (b : Build) (s : State) : (event : Event) → Decidable (Obeys b s event)
  | .setSSLSessionCache _ | .setSessionCacheMode _ | .setSessionCacheSize _ | .newSSL
  | .removeSession _ => isTrue trivial
  | .freeSSL ssl | .getSession ssl | .refer ssl | .letGo ssl _ =>
    inferInstanceAs (Decidable (s.LiveSsl ssl))
  | .established _ _ _ => inferInstanceAs (Decidable (_ ∧ (_ → _)))
  | .lookup _ _ _ _ => inferInstanceAs (Decidable (_ ∧ (_ → _)))
  | .setSession _ _ _ _ => inferInstanceAs (Decidable (_ ∧ _))
  | .java _ => inferInstanceAs (Decidable (ObeysCall b s _))

end Sessions
