-- SUMMARY: A context with the connections created from it: verify settings, and the callbacks of a handshake.
import Tcnative.Context.Ownership
import Tcnative.Tasks.Callbacks

/-!
# Connections of a context

A new connection copies some of what is installed on its context, and the
library looks up the rest on the context whenever it needs it. The Java objects
are always looked up in the slots of the context.
-/

namespace Context
open CMem Jni Tls
open Tasks (JniCalls Handshake getCerts)

/-! ## Data -/

/-- An `SSL` with its `tcn_ssl_state_t`. `sslTask` is whether a task is stored. -/
structure Ssl where
  installed : SlotName → Bool
  verifyConfig : VerifyConfig
  verifyMode : VerifyMode
  verifyDepth : Option Int
  sslTask : Bool

/-- A context and every `SSL` that was created from it, in order. One that was
freed leaves a gap. -/
structure Session where
  ctxt : TcnSslCtxt
  ssls : List (Option Ssl)

def Session.start : Session := ⟨.make, []⟩

/-- Whether `SSL_new` copies the callback of a slot. The library looks up the
others on the `SSL_CTX`. -/
def Build.copies (b : Build) : SlotName → Bool
  | .certificateCallback | .sslPrivateKeyMethod => true
  | .verifier => b.library.isBoringSSL || b.copiesCertVerify
  | _ => false

/-- Whether a handshake on an `SSL` runs the callback of a slot. -/
def Build.runs (b : Build) (c : TcnSslCtxt) (s : Ssl) (k : SlotName) : Bool :=
  if b.copies k then s.installed k else c.ctx.installed k

/-! ## Verify settings -/

/-- `SSLContext.setVerify`. BoringSSL and AWS-LC get the mode together with the
verify callback, which is for a context with a verifier only. -/
def setVerify (b : Build) (level depth : Int) (c : TcnSslCtxt) : TcnSslCtxt :=
  let set := tcnSetVerifyConfig c.verifyConfig level depth
  let c := { c with verifyConfig := set.2 }
  if b.library.isBoringSSL then
    if (c.slots .verifier).object.isSome then { c with ctx := c.ctx.setCustomVerify set.1 true }
    else c
  else
    { c with ctx := { c.ctx with verifyMode := set.1, verifyDepth := some set.2.verifyDepth } }

/-- `SSLContext.setUseTasks`. -/
def setUseTasks (useTasks : Bool) (c : TcnSslCtxt) : TcnSslCtxt := { c with useTasks }

/-- `SSL.newSSL` where nothing fails: `SSL_new` and `new_ssl_state`. -/
def Ssl.new (c : TcnSslCtxt) : Ssl where
  installed := c.ctx.installed
  verifyConfig := c.verifyConfig
  verifyMode := c.ctx.verifyMode
  verifyDepth := c.ctx.verifyDepth
  sslTask := false

/-- `SSL.setVerify`. -/
def Ssl.setVerify (b : Build) (level depth : Int) (s : Ssl) : Ssl :=
  let set := tcnSetVerifyConfig s.verifyConfig level depth
  let s := { s with verifyConfig := set.2, verifyMode := set.1 }
  if b.library.isBoringSSL then
    { s with installed := Function.update s.installed .verifier true }
  else { s with verifyDepth := some set.2.verifyDepth }

/-! ## Callbacks -/

/-- What a callback does with Java: nothing, a call of a method, or a new task
object. The target may be NULL. -/
inductive Invocation where
  | none
  | call (target : Option Nat) (method : Option JMethod)
  | task (target : Option Nat)
  deriving DecidableEq

/-- The callbacks of a handshake, with what the library passes to them. -/
inductive Callback where
  | verify (hs : Handshake)
  | certRequested
  | certificate
  | privateKeySign
  | privateKeyDecrypt
  | privateKeyComplete
  | newSession
  | getSession
  | servername (serverName : Option String)
  | keylog (line : Option (List Byte))
  | zlibCompress
  | zlibDecompress
  | brotliCompress
  | brotliDecompress
  | zstdCompress
  | zstdDecompress

/-- The slot that a callback belongs to. -/
def Callback.slot : Callback → SlotName
  | .verify _ => .verifier
  | .certRequested => .certRequestedCallback
  | .certificate => .certificateCallback
  | .privateKeySign | .privateKeyDecrypt | .privateKeyComplete => .sslPrivateKeyMethod
  | .newSession | .getSession => .sslSessionCache
  | .servername _ => .sniHostnameMatcher
  | .keylog _ => .keylogCallback
  | .zlibCompress | .zlibDecompress => .sslCertCompressionZlibAlgorithm
  | .brotliCompress | .brotliDecompress => .sslCertCompressionBrotliAlgorithm
  | .zstdCompress | .zstdDecompress => .sslCertCompressionZstdAlgorithm

/-- Look at a stored task. One that is complete is freed. -/
def Ssl.poll (complete : Bool) (s : Ssl) : Invocation × Ssl :=
  (.none, if complete then { s with sslTask := false } else s)

/-- Create a task for a Java object, and store it. -/
def Ssl.suspend (e : JniCalls) (target : Option Nat) (s : Ssl) : Invocation × Ssl :=
  if !e.newLocalFromWeak then (.none, s)
  else
    (if e.newObject then .task target else .none,
      { s with sslTask := e.newObject && e.malloc && e.newGlobalRef })

/-- Call a method of the object in a slot, or create a task for it. -/
def Ssl.invoke (e : JniCalls) (c : TcnSslCtxt) (k : SlotName) (i : Nat) (s : Ssl) :
    Invocation × Ssl :=
  if c.useTasks then s.suspend e (c.slots k).object
  else (.call (c.slots k).object (c.slots k).methods[i]?, s)

/-- `tcn_SSL_cert_custom_verify`. -/
def tcnSSLCertCustomVerify (hs : Handshake) (e : JniCalls) (complete : Bool) (c : TcnSslCtxt)
    (s : Ssl) : Invocation × Ssl :=
  if !e.getEnv then (.none, s)
  else if s.sslTask then s.poll complete
  else
    match hs.peerCertificates with
    | none => (.none, s)
    | some chain =>
      if (getCerts e s.verifyConfig.verifyDepth chain).isNone || !e.newStringUTF then (.none, s)
      else if (c.slots .verifier).object.isNone then (.none, s)
      else s.invoke e c .verifier 0

/-- `SSL_cert_verify`. -/
def sslCertVerify (hs : Handshake) (e : JniCalls) (c : TcnSslCtxt) (s : Ssl) : Invocation :=
  if !e.getEnv then .none
  else
    match hs.peerCertificates with
    | none => .none
    | some chain =>
      if (getCerts e s.verifyConfig.verifyDepth chain).isNone || !e.newStringUTF then .none
      else .call (c.slots .verifier).object (c.slots .verifier).methods[0]?

/-- `cert_requested`. -/
def certRequested (b : Build) (e : JniCalls) (c : TcnSslCtxt) : Invocation :=
  if b.library = .libressl || !e.getEnv then .none
  else .call (c.slots .certRequestedCallback).object (c.slots .certRequestedCallback).methods[0]?

/-- `certificate_cb`. -/
def certificateCb (e : JniCalls) (complete : Bool) (c : TcnSslCtxt) (s : Ssl) : Invocation × Ssl :=
  if !e.getEnv then (.none, s)
  else if s.sslTask then s.poll complete
  else s.invoke e c .certificateCallback 0

/-- `tcn_private_key_sign_java` and `tcn_private_key_decrypt_java`, which call
the method at position `i`. -/
def tcnPrivateKeyJava (i : Nat) (e : JniCalls) (c : TcnSslCtxt) (s : Ssl) : Invocation × Ssl :=
  if (c.slots .sslPrivateKeyMethod).object.isNone then (.none, s)
  else if !e.getEnv || !e.newByteArray 0 then (.none, s)
  else s.invoke e c .sslPrivateKeyMethod i

/-- `tcn_private_key_complete_java`. -/
def tcnPrivateKeyCompleteJava (e : JniCalls) (complete : Bool) (c : TcnSslCtxt) (s : Ssl) :
    Invocation × Ssl :=
  if !c.useTasks || !s.sslTask || !e.getEnv then (.none, s) else s.poll complete

/-- `tcn_new_session_cb`. -/
def tcnNewSessionCb (e : JniCalls) (c : TcnSslCtxt) : Invocation :=
  if !e.getEnv || (c.slots .sslSessionCache).object.isNone then .none
  else .call (c.slots .sslSessionCache).object (c.slots .sslSessionCache).methods[0]?

/-- `tcn_get_session_cb`. -/
def tcnGetSessionCb (e : JniCalls) (c : TcnSslCtxt) : Invocation :=
  if !e.getEnv || (c.slots .sslSessionCache).object.isNone || !e.newByteArray 0 then .none
  else .call (c.slots .sslSessionCache).object (c.slots .sslSessionCache).methods[1]?

/-- `ssl_servername_cb`. -/
def sslServernameCb (serverName : Option String) (e : JniCalls) (c : TcnSslCtxt) : Invocation :=
  if serverName.isNone || !e.getEnv || !e.newStringUTF then .none
  else .call (c.slots .sniHostnameMatcher).object (c.slots .sniHostnameMatcher).methods[0]?

/-- `keylog_cb`. It gives up on a line of 1 MiB. -/
def keylogCb (line : Option (List Byte)) (e : JniCalls) (c : TcnSslCtxt) : Invocation :=
  match line with
  | none => .none
  | some line =>
    if !e.getEnv || 1048576 ≤ line.length || !e.newByteArray 0 then .none
    else .call (c.slots .keylogCallback).object (c.slots .keylogCallback).methods[0]?

/-- `compress` and `decompress` of the certificate compression, which call the
method at position `i`. -/
def compression (k : SlotName) (i : Nat) (e : JniCalls) (c : TcnSslCtxt) : Invocation :=
  if (c.slots k).object.isNone || (c.slots k).methods[i]?.isNone then .none
  else if !e.getEnv || !e.newByteArray 0 then .none
  else .call (c.slots k).object (c.slots k).methods[i]?

/-- Run a callback. -/
def Callback.run (b : Build) (e : JniCalls) (complete : Bool) (c : TcnSslCtxt) (s : Ssl)
    (k : Callback) : Invocation × Ssl :=
  match k with
  | .verify hs =>
    if b.library.isBoringSSL then tcnSSLCertCustomVerify hs e complete c s
    else (sslCertVerify hs e c s, s)
  | .certRequested => (Context.certRequested b e c, s)
  | .certificate => certificateCb e complete c s
  | .privateKeySign => tcnPrivateKeyJava 0 e c s
  | .privateKeyDecrypt => tcnPrivateKeyJava 1 e c s
  | .privateKeyComplete => tcnPrivateKeyCompleteJava e complete c s
  | .newSession => (tcnNewSessionCb e c, s)
  | .getSession => (tcnGetSessionCb e c, s)
  | .servername serverName => (sslServernameCb serverName e c, s)
  | .keylog line => (keylogCb line e c, s)
  | .zlibCompress => (compression .sslCertCompressionZlibAlgorithm 0 e c, s)
  | .zlibDecompress => (compression .sslCertCompressionZlibAlgorithm 1 e c, s)
  | .brotliCompress => (compression .sslCertCompressionBrotliAlgorithm 0 e c, s)
  | .brotliDecompress => (compression .sslCertCompressionBrotliAlgorithm 1 e c, s)
  | .zstdCompress => (compression .sslCertCompressionZstdAlgorithm 0 e c, s)
  | .zstdDecompress => (compression .sslCertCompressionZstdAlgorithm 1 e c, s)

/-! ## Steps -/

/-- What happens to a context and its connections. The context outlives them. -/
inductive Event where
  | call (call : Call)
  | setVerify (level depth : Int)
  | setUseTasks (useTasks : Bool)
  | newSSL (sslNew malloc : Bool)
  | sslSetVerify (ssl : Nat) (level depth : Int)
  | freeSSL (ssl : Nat)
  | callback (ssl : Nat) (callback : Callback) (e : JniCalls) (complete : Bool)

inductive Reply where
  | outcome (out : Outcome)
  | invocation (i : Invocation)
  deriving DecidableEq

/-- The `SSL` at a position, unless it was freed or never created. -/
def Session.ssl? (s : Session) (i : Nat) : Option Ssl := s.ssls[i]?.join

/-- Change an `SSL`. -/
def Session.setSsl (s : Session) (i : Nat) (ssl : Option Ssl) : Session :=
  { s with ssls := s.ssls.set i ssl }

/-- `SSL.newSSL`. -/
def newSSL (sslNew malloc : Bool) (s : Session) : Reply × Session :=
  if !sslNew then (.outcome (.failed (some (.exception "cannot create new ssl"))), s)
  else if !malloc then
    (.outcome (.failed (some (.exception "cannot create new ssl state struct"))), s)
  else (.outcome .done, { s with ssls := s.ssls ++ [some (.new s.ctxt)] })

/-- One event. Nothing happens on an `SSL` that does not exist, and no callback
runs that is not installed. -/
def contextStep (b : Build) : Machine.Step Fault Session Event Reply :=
  fun s event =>
    match event with
    | .call call =>
      match callStep b s.ctxt call with
      | .error f => .error f
      | .ok (out, ctxt) => .ok (.outcome out, { s with ctxt })
    | .setVerify level depth =>
      .ok (.outcome .done, { s with ctxt := Context.setVerify b level depth s.ctxt })
    | .setUseTasks useTasks =>
      .ok (.outcome .done, { s with ctxt := Context.setUseTasks useTasks s.ctxt })
    | .newSSL sslNew malloc => .ok (Context.newSSL sslNew malloc s)
    | .sslSetVerify i level depth =>
      match s.ssl? i with
      | none => .ok (.outcome .done, s)
      | some ssl => .ok (.outcome .done, s.setSsl i (some (ssl.setVerify b level depth)))
    | .freeSSL i => .ok (.outcome .done, s.setSsl i none)
    | .callback i k e complete =>
      match s.ssl? i with
      | none => .ok (.invocation .none, s)
      | some ssl =>
        if b.runs s.ctxt ssl k.slot then
          let ran := k.run b e complete s.ctxt ssl
          .ok (.invocation ran.1, s.setSsl i (some ran.2))
        else .ok (.invocation .none, s)

/-! ## What a callback does -/

/-- An invocation that is about the object of a slot, or about none. -/
inductive Invocation.On (c : TcnSslCtxt) (k : SlotName) : Invocation → Prop where
  | none : On c k .none
  | call (method : Option JMethod) : On c k (.call (c.slots k).object method)
  | task : On c k (.task (c.slots k).object)

/-- A callback is about its own slot, and changes at most the task of its `SSL`. -/
structure Ran (c : TcnSslCtxt) (k : SlotName) (s : Ssl) (result : Invocation × Ssl) : Prop where
  on : result.1.On c k
  kept : ∃ sslTask, result.2 = { s with sslTask }

section
variable {c : TcnSslCtxt} {k : SlotName} {s : Ssl}

theorem Ran.none : Ran c k s (.none, s) := ⟨.none, s.sslTask, rfl⟩

theorem Ran.call (method : Option JMethod) : Ran c k s (.call (c.slots k).object method, s) :=
  ⟨.call method, s.sslTask, rfl⟩

theorem Ran.poll (complete : Bool) : Ran c k s (s.poll complete) := by
  unfold Ssl.poll
  split
  · exact ⟨.none, false, rfl⟩
  · exact .none

theorem Ran.invoke (e : JniCalls) (i : Nat) : Ran c k s (s.invoke e c k i) := by
  unfold Ssl.invoke Ssl.suspend
  split
  · split
    · exact .none
    · refine ⟨?_, _, rfl⟩
      dsimp only
      split
      · exact .task
      · exact .none
  · exact .call _

end

theorem Callback.run_ran (b : Build) (e : JniCalls) (complete : Bool) (c : TcnSslCtxt) (s : Ssl)
    (k : Callback) : Ran c k.slot s (k.run b e complete c s) := by
  cases k with
  | verify hs =>
    simp only [Callback.run, tcnSSLCertCustomVerify, sslCertVerify]
    repeat' split
    all_goals first | exact .none | exact .poll complete | exact .invoke e _ | exact .call _
  | certRequested =>
    simp only [Callback.run, Context.certRequested]
    split
    · exact .none
    · exact .call _
  | certificate =>
    simp only [Callback.run, certificateCb]
    split
    · exact .none
    split
    · exact .poll complete
    · exact .invoke e _
  | privateKeySign | privateKeyDecrypt =>
    simp only [Callback.run, tcnPrivateKeyJava]
    split
    · exact .none
    split
    · exact .none
    · exact .invoke e _
  | privateKeyComplete =>
    simp only [Callback.run, tcnPrivateKeyCompleteJava]
    split
    · exact .none
    · exact .poll complete
  | newSession =>
    simp only [Callback.run, tcnNewSessionCb]
    split
    · exact .none
    · exact .call _
  | getSession =>
    simp only [Callback.run, tcnGetSessionCb]
    split
    · exact .none
    · exact .call _
  | servername serverName =>
    simp only [Callback.run, sslServernameCb]
    split
    · exact .none
    · exact .call _
  | keylog line =>
    simp only [Callback.run, keylogCb]
    split
    · exact .none
    split
    · exact .none
    · exact .call _
  | zlibCompress | zlibDecompress | brotliCompress | brotliDecompress | zstdCompress
  | zstdDecompress =>
    simp only [Callback.run, compression]
    split
    · exact .none
    split
    · exact .none
    · exact .call _

/-! ## What a step does -/

/-- The steps, one constructor for each kind. -/
inductive Stepped (b : Build) (s : Session) : Event → Reply → Session → Prop where
  | call {call : Call} {out : Outcome} {ctxt : TcnSslCtxt}
    (h : callStep b s.ctxt call = .ok (out, ctxt)) :
    Stepped b s (.call call) (.outcome out) { s with ctxt }
  | setVerify {level depth : Int} :
    Stepped b s (.setVerify level depth) (.outcome .done)
      { s with ctxt := setVerify b level depth s.ctxt }
  | setUseTasks {useTasks : Bool} :
    Stepped b s (.setUseTasks useTasks) (.outcome .done)
      { s with ctxt := setUseTasks useTasks s.ctxt }
  | notCreated {sslNew malloc : Bool} {out : Outcome} (h : ¬ (sslNew = true ∧ malloc = true)) :
    Stepped b s (.newSSL sslNew malloc) (.outcome out) s
  | newSSL :
    Stepped b s (.newSSL true true) (.outcome .done)
      { s with ssls := s.ssls ++ [some (.new s.ctxt)] }
  | sslSetVerify {i : Nat} {level depth : Int} {ssl : Ssl} (h : s.ssl? i = some ssl) :
    Stepped b s (.sslSetVerify i level depth) (.outcome .done)
      (s.setSsl i (some (ssl.setVerify b level depth)))
  | noSsl {i : Nat} {level depth : Int} (h : s.ssl? i = none) :
    Stepped b s (.sslSetVerify i level depth) (.outcome .done) s
  | freeSSL {i : Nat} : Stepped b s (.freeSSL i) (.outcome .done) (s.setSsl i none)
  | ran {i : Nat} {k : Callback} {e : JniCalls} {complete : Bool} {ssl : Ssl}
    (h : s.ssl? i = some ssl) (hruns : b.runs s.ctxt ssl k.slot = true) :
    Stepped b s (.callback i k e complete) (.invocation (k.run b e complete s.ctxt ssl).1)
      (s.setSsl i (some (k.run b e complete s.ctxt ssl).2))
  | notInstalled {i : Nat} {k : Callback} {e : JniCalls} {complete : Bool}
    (h : ∀ ssl, s.ssl? i = some ssl → b.runs s.ctxt ssl k.slot = false) :
    Stepped b s (.callback i k e complete) (.invocation .none) s

theorem contextStep_stepped {b : Build} {s s' : Session} {event : Event} {r : Reply}
    (h : contextStep b s event = .ok (r, s')) : Stepped b s event r s' := by
  cases event with
  | call call =>
    simp only [contextStep] at h
    split at h
    · cases h
    · rename_i hcall
      cases h
      exact .call hcall
  | setVerify level depth =>
    cases h
    exact .setVerify
  | setUseTasks useTasks =>
    cases h
    exact .setUseTasks
  | newSSL sslNew malloc =>
    cases sslNew with
    | false =>
      cases h
      exact .notCreated (by simp)
    | true =>
      cases malloc with
      | false =>
        cases h
        exact .notCreated (by simp)
      | true =>
        cases h
        exact .newSSL
  | sslSetVerify i level depth =>
    simp only [contextStep] at h
    split at h
    · rename_i hi
      cases h
      exact .noSsl hi
    · rename_i ssl hi
      cases h
      exact .sslSetVerify hi
  | freeSSL i =>
    cases h
    exact .freeSSL
  | callback i k e complete =>
    simp only [contextStep] at h
    split at h
    · rename_i hi
      cases h
      exact .notInstalled fun ssl hssl => by cases hi.symm.trans hssl
    · rename_i ssl hi
      split at h
      · rename_i hruns
        cases h
        exact .ran hi hruns
      · rename_i hruns
        cases h
        refine .notInstalled fun ssl' hssl => ?_
        cases hi.symm.trans hssl
        simpa using hruns

theorem Owned.setVerify {b : Build} {c : TcnSslCtxt} (h : Owned b c) (level depth : Int) :
    Owned b (setVerify b level depth c) := by
  unfold Context.setVerify
  split
  · dsimp only
    split
    · rename_i hverifier
      -- The callback was installed before, as the slot is filled.
      have hinstalled : Function.update c.ctx.installed .verifier true = c.ctx.installed := by
        rw [← hverifier, ← h.installed, Function.update_eq_self]
      refine ⟨h.refs, ?_, h.unsupported⟩
      simp only [SslCtx.setCustomVerify, hinstalled]
      exact h.installed
    · exact ⟨h.refs, h.installed, h.unsupported⟩
  · exact ⟨h.refs, h.installed, h.unsupported⟩

/-- No step faults on a context that owns its references. -/
theorem contextStep_ok {b : Build} {s : Session} (h : Owned b s.ctxt) (event : Event) :
    ∃ r s', contextStep b s event = .ok (r, s') := by
  cases event with
  | call call =>
    obtain ⟨out, c', hok, -⟩ := callStep_ends h call
    exact ⟨.outcome out, { s with ctxt := c' }, by simp only [contextStep, hok]⟩
  | setVerify level depth => exact ⟨_, _, rfl⟩
  | setUseTasks useTasks => exact ⟨_, _, rfl⟩
  | newSSL sslNew malloc => exact ⟨_, _, rfl⟩
  | sslSetVerify i level depth =>
    simp only [contextStep]
    split
    · exact ⟨_, _, rfl⟩
    · exact ⟨_, _, rfl⟩
  | freeSSL i => exact ⟨_, _, rfl⟩
  | callback i k e complete =>
    simp only [contextStep]
    split
    · exact ⟨_, _, rfl⟩
    split
    · exact ⟨_, _, rfl⟩
    · exact ⟨_, _, rfl⟩

/-- What a call does to a context that owns its references. -/
theorem callStep_applied {b : Build} {c c' : TcnSslCtxt} {call : Call} {out : Outcome}
    (hc : Owned b c) (h : callStep b c call = .ok (out, c')) :
    Applied b c call.slot call.object out c' ∧ Owned b c' := by
  obtain ⟨out', c'', hok, happlied, howned⟩ := callStep_ends hc call
  cases h.symm.trans hok
  exact ⟨happlied, howned⟩

/-- Every step keeps what the context owns, whatever the connections do. -/
theorem Stepped.owned {b : Build} {s s' : Session} {event : Event} {r : Reply}
    (h : Stepped b s event r s') (hs : Owned b s.ctxt) : Owned b s'.ctxt := by
  cases h with
  | call hcall => exact (callStep_applied hs hcall).2
  | setVerify => exact hs.setVerify _ _
  | setUseTasks => exact ⟨hs.refs, hs.installed, hs.unsupported⟩
  | notCreated _ => exact hs
  | newSSL => exact hs
  | sslSetVerify _ => exact hs
  | noSsl _ => exact hs
  | freeSSL => exact hs
  | ran _ _ => exact hs
  | notInstalled _ => exact hs

end Context
