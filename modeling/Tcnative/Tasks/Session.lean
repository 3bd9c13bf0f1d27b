-- SUMMARY: Runs of one connection: the callbacks of the library, the calls of Java, and how a step starts or resumes an operation.
import Tcnative.Base.Machine
import Tcnative.Tasks.Callbacks

/-!
# Sessions

A session is a connection together with what the TLS library and Java remember
of it. The library invokes the native callbacks. Java takes tasks, runs them and
delivers the results of private key operations.
-/

namespace Tasks
open CMem

/-! ## Events -/

inductive Event where
  | certCustomVerify (e : JniCalls) (java : Java)
  | certificateCb (e : JniCalls) (java : Java)
  | sign (e : JniCalls) (maxOut : Nat) (signatureAlgorithm : UInt16) (input : List Byte)
      (direct : Except Thrown (Option (List Byte)))
  | decrypt (e : JniCalls) (maxOut : Nat) (input : List Byte)
      (direct : Except Thrown (Option (List Byte)))
  | complete (e : JniCalls) (maxOut : Nat)
  | getTask
  /-- Java runs the task behind a global reference. -/
  | runTask (r : Nat) (completeCallback : Runnable) (java : Java)
  /-- A private key method notifies the callback that the task passed to it. -/
  | notify (r : Nat) (n : Notification)
  | setUseTasks (useTasks : Bool)

/-- The operation that a callback starts if none is suspended. -/
def Event.kind : Event → Option Kind
  | .certCustomVerify _ _ => some .verify
  | .certificateCb _ _ => some .certificate
  | .sign _ _ _ _ _ => some .sign
  | .decrypt _ _ _ _ => some .decrypt
  | _ => none

/-- Change a Java task. -/
def TaskStore.edit (r : Nat) (f : TaskObject → TaskObject) (st : TaskStore) : TaskStore :=
  { st with refs := st.refs.update r f }

/-- The slot holds the same task, whatever Java changes about it. -/
theorem TaskStore.Holds.edit {st : TaskStore} {p r : Nat} {consumed : Bool} {o : TaskObject}
    (h : st.Holds p r consumed o) (r' : Nat) {f : TaskObject → TaskObject}
    (hf : ∀ o, (f o).task.body = o.task.body) :
    ∃ o', (st.edit r' f).Holds p r consumed o' ∧ o'.task.body = o.task.body := by
  by_cases hr : r' = r
  · subst hr
    exact ⟨f o, ⟨h.slot, h.block, h.ref.update f⟩, hf o⟩
  · exact ⟨o, ⟨h.slot, h.block, h.ref.update_other hr f⟩, rfl⟩

/-- What an event does to the connection. -/
def perform (hs : Handshake) (alert : Int → UInt8) (s : Conn) : Event → Except Fault (Result × Conn)
  | .certCustomVerify e java => tcnSSLCertCustomVerify hs alert e java s
  | .certificateCb e java => Tasks.certificateCb hs e java s
  | .sign e maxOut signatureAlgorithm input direct =>
    .ok (tcnPrivateKeySignJava e maxOut signatureAlgorithm input direct s)
  | .decrypt e maxOut input direct => .ok (tcnPrivateKeyDecryptJava e maxOut input direct s)
  | .complete e maxOut => tcnPrivateKeyCompleteJava e maxOut s
  | .getTask => do
    let (t, store) ← Tasks.getTask s.store
    return (.of (.task t), { s with store })
  | .runTask r completeCallback java =>
    .ok (.of .void, { s with store := s.store.edit r (·.run java completeCallback) })
  | .notify r n => .ok (.of .void, { s with store := s.store.edit r (·.notify n) })
  | .setUseTasks useTasks => .ok (.of .void, { s with ctx := { s.ctx with useTasks } })

/-! ## What the library sees -/

/-- Whether a callback asks the library to retry. `none` for other calls. -/
def Reply.asksRetry : Reply → Option Bool
  | .verify ret _ => some (ret == .retry)
  | .certificate ret => some (ret < 0)
  | .privateKey ret _ => some (ret == .retry)
  | .task _ | .void => none

/-- A callback that fails makes the library fail the handshake. What it does
about a certificate that is not valid is up to its configuration. -/
def Reply.failsHandshake : Reply → Bool
  | .certificate ret => ret == 0
  | .privateKey ret _ => ret == .failure
  | _ => false

/-- The task that a call of `SSL.getTask` handed out. -/
def Reply.handed : Reply → List Nat
  | .task (some r) => [r]
  | _ => []

/-- A connection, with the operation that the library has suspended and the task
that its first callback created, whether the handshake has failed, and the tasks
that `SSL.getTask` has returned. -/
structure Session where
  conn : Conn
  awaiting : Option (Kind × Option Nat)
  failed : Bool
  handed : List Nat

def Session.start (conn : Conn) : Session := ⟨conn, none, false, []⟩

/-- The kind of the suspended operation. -/
def Session.suspended (s : Session) : Option Kind := s.awaiting.map Prod.fst

/-- The task that a step creates. -/
def created (before after : Conn) : Option Nat :=
  if before.store.refs.length < after.store.refs.length then some before.store.refs.length
  else none

/-- What the library has suspended after a step. -/
def Session.awaitingAfter (s : Session) (ev : Event) (reply : Reply) (conn : Conn) :
    Option (Kind × Option Nat) :=
  match reply.asksRetry with
  | none => s.awaiting
  | some false => none
  | some true => s.awaiting.or (ev.kind.map fun k => (k, created s.conn conn))

/-- A session after a step. -/
def Session.after (s : Session) (ev : Event) (reply : Reply) (conn : Conn) : Session where
  conn := conn
  awaiting := s.awaitingAfter ev reply conn
  failed := s.failed || reply.failsHandshake
  handed := s.handed ++ reply.handed

/-- A call that is no callback changes the connection, and perhaps hands out a task. -/
theorem Session.after_call {s : Session} {ev : Event} {reply : Reply} {conn : Conn}
    (h : reply.asksRetry = none) :
    s.after ev reply conn = { s with conn, handed := s.handed ++ reply.handed } := by
  cases reply with
  | task _ => simp [Session.after, awaitingAfter, Reply.asksRetry, Reply.failsHandshake]
  | void => simp [Session.after, awaitingAfter, Reply.asksRetry, Reply.failsHandshake]
  | verify _ _ => cases h
  | certificate _ => cases h
  | privateKey _ _ => cases h

/-- One step of a session. -/
def sessionStep (hs : Handshake) (alert : Int → UInt8) :
    Machine.Step Fault Session Event Result
  | s, ev => do
    let (res, conn) ← perform hs alert s.conn ev
    return (res, s.after ev res.reply conn)

/-- The library resumes a suspended callback before it invokes another one, and
resumes a private key operation with `complete` only. -/
def Session.Allows (s : Session) : Event → Prop
  | .certCustomVerify _ _ => s.suspended = none ∨ s.suspended = some .verify
  | .certificateCb _ _ => s.suspended = none ∨ s.suspended = some .certificate
  | .sign _ _ _ _ _ | .decrypt _ _ _ _ => s.suspended = none
  | .complete _ _ => s.suspended = some .sign ∨ s.suspended = some .decrypt
  | .getTask | .runTask _ _ _ | .notify _ _ | .setUseTasks _ => True

instance (s : Session) : (ev : Event) → Decidable (s.Allows ev)
  | .certCustomVerify _ _ | .certificateCb _ _ | .complete _ _ =>
    inferInstanceAs (Decidable (_ ∨ _))
  | .sign _ _ _ _ _ | .decrypt _ _ _ _ => inferInstanceAs (Decidable (_ = _))
  | .getTask | .runTask _ _ _ | .notify _ _ | .setUseTasks _ => inferInstanceAs (Decidable True)

/-! ## How a callback starts an operation -/

/-- A callback that starts an operation either suspends it in a new task, whose
body satisfies `B`, or decides on the spot, and then it leaves no new task. -/
inductive Started (B : TaskBody → Prop) (s : Conn) (res : Result) (s' : Conn) : Prop where
  | suspended (body : TaskBody) (hbody : B body) (htasks : s.ctx.useTasks = true)
      (hretry : res.reply.asksRetry = some true) (hstore : s'.store = s.store.put body)
  | decided (hretry : res.reply.asksRetry = some false) (hstore : s.store.Failed s'.store)

/-- A task for the verifier, with the certificates of the peer up to the verify
depth. -/
def VerifierBody (hs : Handshake) (verifyDepth : Int) (verifier : Option JObject)
    (body : TaskBody) : Prop :=
  ∃ chain object, hs.peerCertificates = some chain ∧ verifier = some object ∧
    body = .certificateVerifierTask (chain.take verifyDepth.toNat) hs.authenticationMethod object

theorem VerifierBody.kind {hs : Handshake} {verifyDepth : Int} {verifier : Option JObject}
    {body : TaskBody} (h : VerifierBody hs verifyDepth verifier body) : body.kind = .verify := by
  obtain ⟨_, _, -, -, rfl⟩ := h
  rfl

/-- The verification accepts the peer. -/
def Reply.Accepts : Reply → Prop
  | .verify .ok _ => True
  | _ => False

/-- The verifier returns `X509_V_OK` for the certificates of the peer up to the
verify depth. -/
def JavaAccepts (hs : Handshake) (verifyDepth : Int) (verifier : Option JObject) (java : Java) :
    Prop :=
  ∃ chain object, hs.peerCertificates = some chain ∧ verifier = some object ∧
    java.verify object (chain.take verifyDepth.toNat) hs.authenticationMethod = .ok x509VOk

/-- The callback itself called the verifier on the certificates of the peer up
to the verify depth, and that call returned `X509_V_OK`. -/
def CalledOk (hs : Handshake) (verifyDepth : Int) (verifier : Option JObject) (java : Java)
    (called : Option (List (List Byte) × Except Thrown Int)) : Prop :=
  ∃ chain object, hs.peerCertificates = some chain ∧ verifier = some object ∧
    java.verify object (chain.take verifyDepth.toNat) hs.authenticationMethod = .ok x509VOk ∧
    called = some (chain.take verifyDepth.toNat, .ok x509VOk)

/-- The certificates of the peer can be copied: `NewObjectArray` gets no negative
length, and no certificate is empty. -/
def Handshake.Copies (hs : Handshake) (verifyDepth : Int) : Prop :=
  0 ≤ verifyDepth ∧ ∀ chain, hs.peerCertificates = some chain → ∀ cert ∈ chain, cert ≠ []

@[simp] theorem accepts_result (alert : Int → UInt8) (res : Int) :
    ((AtComplete.result res).reply alert).Accepts ↔ res = x509VOk := by
  simp only [AtComplete.reply]
  split
  · rename_i h
    simp [Reply.Accepts, h]
  · rename_i h
    simp [Reply.Accepts, h]

@[simp] theorem not_calledOk_none (hs : Handshake) (verifyDepth : Int)
    (verifier : Option JObject) (java : Java) : ¬ CalledOk hs verifyDepth verifier java none := by
  rintro ⟨_, _, -, -, -, h⟩
  cases h

theorem Started.mono {B B' : TaskBody → Prop} {s s' : Conn} {res : Result}
    (h : Started B s res s') (hB : ∀ body, B body → B' body) : Started B' s res s' := by
  cases h with
  | suspended body hbody htasks hretry hstore =>
    exact .suspended body (hB body hbody) htasks hretry hstore
  | decided hretry hstore => exact .decided hretry hstore

theorem TaskStore.Failed.refl (st : TaskStore) : st.Failed st := ⟨.inl rfl, .inl rfl, rfl⟩

@[simp] theorem asksRetry_verify (alert : Int → UInt8) (res : Int) :
    ((AtComplete.result res).reply alert).asksRetry = some false := by
  simp only [AtComplete.reply]
  split <;> rfl

@[simp] theorem asksRetry_copyOut (e : JniCalls) (maxOut : Nat) (resultBytes : Option (List Byte)) :
    (copyOut e maxOut resultBytes).asksRetry = some false := by
  unfold copyOut
  split
  · rfl
  · split <;> rfl

theorem privateKeyJava_started {B : TaskBody → Prop} (body : JObject → TaskBody)
    (hbody : ∀ method, B (body method)) (e : JniCalls) (maxOut : Nat)
    (direct : Except Thrown (Option (List Byte))) (s : Conn) :
    (privateKeyJava e maxOut body direct s).1.took = none ∧
      (privateKeyJava e maxOut body direct s).2.ctx = s.ctx ∧
      (privateKeyJava e maxOut body direct s).2.verifyDepth = s.verifyDepth ∧
      Started B s (privateKeyJava e maxOut body direct s).1
        (privateKeyJava e maxOut body direct s).2 := by
  unfold privateKeyJava
  cases s.ctx.sslPrivateKeyMethod with
  | none => exact ⟨rfl, rfl, rfl, .decided rfl (.refl _)⟩
  | some method =>
    dsimp only
    split
    · exact ⟨rfl, rfl, rfl, .decided rfl (.refl _)⟩
    · -- With tasks the operation suspends, or it fails where the task cannot be stored.
      split
      · rename_i htasks
        rcases s.store.suspend_cases e (body method) with h | ⟨st', h, hfailed⟩
        · rw [h]
          exact ⟨rfl, rfl, rfl, .suspended (body method) (hbody method) htasks rfl rfl⟩
        · rw [h]
          exact ⟨rfl, rfl, rfl, .decided rfl hfailed⟩
      · split
        · exact ⟨rfl, rfl, rfl, .decided rfl (.refl _)⟩
        · exact ⟨rfl, rfl, rfl, .decided (by simp) (.refl _)⟩

section
variable {hs : Handshake} {alert : Int → UInt8} {s : Conn}

theorem calledOk_iff {verifyDepth : Int} {chain array : List (List Byte)}
    {verifier : Option JObject} {object : JObject} (hchain : hs.peerCertificates = some chain)
    (harray : array = chain.take verifyDepth.toNat) (hverifier : verifier = some object)
    (java : Java) :
    CalledOk hs verifyDepth verifier java
        (some (array, java.verify object array hs.authenticationMethod)) ↔
      java.verify object array hs.authenticationMethod = .ok x509VOk := by
  constructor
  · rintro ⟨_, _, -, -, -, hcalled⟩
    exact congrArg Prod.snd (Option.some.inj hcalled)
  · intro hok
    rw [hok]
    rw [harray] at hok
    exact ⟨chain, object, hchain, hverifier, hok, by rw [harray]⟩

/-- What a verification does that finds no task. It accepts only what its own
call of the verifier returned. -/
structure VerifyStarted (hs : Handshake) (java : Java) (s : Conn) (res : Result) (s' : Conn) :
    Prop where
  took : res.took = none
  accepts : res.reply.Accepts ↔ CalledOk hs s.verifyDepth s.ctx.verifier java res.called
  ctx : s'.ctx = s.ctx
  verifyDepth : s'.verifyDepth = s.verifyDepth
  started : Started (VerifierBody hs s.verifyDepth s.ctx.verifier) s res s'

/-- A verdict without a call of the verifier. -/
theorem VerifyStarted.reject {java : Java} {result : Int} (hresult : result ≠ x509VOk)
    {store : TaskStore} (hfailed : s.store.Failed store) :
    VerifyStarted hs java s (.of ((AtComplete.result result).reply alert))
      { s with store } where
  took := rfl
  accepts := iff_of_false (mt (accepts_result alert result).mp hresult) (not_calledOk_none _ _ _ _)
  ctx := rfl
  verifyDepth := rfl
  started := .decided (asksRetry_verify alert result) hfailed

variable (hs alert)

theorem tcnSSLCertCustomVerify_started (hslot : s.store.sslTask = none) (e : JniCalls)
    (java : Java) :
    ∃ res s', tcnSSLCertCustomVerify hs alert e java s = .ok (res, s') ∧
      VerifyStarted hs java s res s' := by
  have hunspecified : x509VErrUnspecified ≠ x509VOk := by decide
  unfold tcnSSLCertCustomVerify
  simp only [hslot]
  split
  · exact ⟨_, _, rfl, .reject hunspecified (.refl s.store)⟩
  · cases hchain : hs.peerCertificates with
    | none => exact ⟨_, _, rfl, .reject hunspecified (.refl s.store)⟩
    | some chain =>
      dsimp only
      cases harray : getCerts e s.verifyDepth chain with
      | none => exact ⟨_, _, rfl, .reject hunspecified (.refl s.store)⟩
      | some array =>
        have hprefix : array = chain.take s.verifyDepth.toNat := getCerts_eq harray
        dsimp only
        split
        · exact ⟨_, _, rfl, .reject hunspecified (.refl s.store)⟩
        · cases hverifier : s.ctx.verifier with
          | none =>
            exact ⟨_, _, rfl, .reject (by simp [missingIssuer_eq_ok, hunspecified]) (.refl s.store)⟩
          | some verifier =>
            dsimp only
            split
            · -- With tasks nothing is accepted yet.
              rename_i htasks
              let body := TaskBody.certificateVerifierTask array hs.authenticationMethod verifier
              have hbody : VerifierBody hs s.verifyDepth s.ctx.verifier body :=
                ⟨chain, verifier, hchain, hverifier, by rw [← hprefix]⟩
              rcases s.store.suspend_cases e body with h | ⟨st', h, hfailed⟩
              · rw [h]
                exact ⟨_, _, rfl, rfl, iff_of_false id (not_calledOk_none _ _ _ _), rfl, rfl,
                  .suspended body hbody htasks rfl rfl⟩
              · rw [h]
                exact ⟨_, _, rfl, .reject hunspecified hfailed⟩
            · -- Without tasks the outcome of the call decides, and no other value is zero.
              have hcalled := calledOk_iff hchain hprefix hverifier java
              cases houtcome : java.verify verifier array hs.authenticationMethod with
              | error thrown =>
                rw [houtcome] at hcalled
                refine ⟨_, _, rfl, rfl, ?_, rfl, rfl, .decided (by simp) (.refl _)⟩
                simp [hcalled, hunspecified]
              | ok result =>
                rw [houtcome] at hcalled
                refine ⟨_, _, rfl, rfl, ?_, rfl, rfl, .decided (by simp) (.refl _)⟩
                simp [hcalled, missingIssuer_eq_ok]

/-- Without tasks and JNI failures the verifier is asked. -/
theorem tcnSSLCertCustomVerify_asks (hslot : s.store.sslTask = none)
    (huse : s.ctx.useTasks = false) (hcopies : hs.Copies s.verifyDepth) {java : Java}
    (hjava : JavaAccepts hs s.verifyDepth s.ctx.verifier java) {res : Result} {s' : Conn}
    (hok : tcnSSLCertCustomVerify hs alert .succeed java s = .ok (res, s')) :
    res.reply.Accepts := by
  obtain ⟨chain, object, hchain, hverifier, hverify⟩ := hjava
  have harray := getCerts_succeed hcopies.1 (hcopies.2 chain hchain)
  simp only [tcnSSLCertCustomVerify, JniCalls.succeed_getEnv, JniCalls.succeed_newStringUTF, hslot,
    hchain, harray, hverifier, huse, hverify, Bool.not_true, Bool.false_eq_true, if_false] at hok
  cases hok
  have hzero : missingIssuer x509VOk (chain.take s.verifyDepth.toNat).length chain.length =
    x509VOk := missingIssuer_eq_ok.mpr rfl
  exact (accepts_result alert _).mpr hzero

/-- Only a direct call of a callback that was cleared makes `certificate_cb` fault. -/
theorem certificateCb_started (hslot : s.store.sslTask = none) (e : JniCalls) (java : Java) :
    (∃ res s', certificateCb hs e java s = .ok (res, s') ∧
      res.took = none ∧ s'.ctx = s.ctx ∧ s'.verifyDepth = s.verifyDepth ∧
      Started (·.kind = .certificate) s res s') ∨
    ∃ f, certificateCb hs e java s = .error f ∧ s.ctx.useTasks = false ∧
      NullCall s.ctx.certificateCallback f := by
  unfold certificateCb
  simp only [hslot]
  split
  · exact .inl ⟨_, _, rfl, rfl, rfl, rfl, .decided rfl (.refl _)⟩
  · split
    · rename_i htasks
      generalize hbody : TaskBody.certificateCallbackTask _ _ _ = body
      have hkind : body.kind = .certificate := by rw [← hbody]; rfl
      rcases s.store.suspend_cases e body with h | ⟨st', h, hfailed⟩
      · rw [h]
        exact .inl ⟨_, _, rfl, rfl, rfl, rfl, .suspended body hkind htasks rfl rfl⟩
      · rw [h]
        exact .inl ⟨_, _, rfl, rfl, rfl, rfl, .decided rfl hfailed⟩
    · rename_i hdirect
      cases hcallback : s.ctx.certificateCallback with
      | none => exact .inr ⟨_, rfl, by simpa using hdirect, rfl, rfl⟩
      | some callback =>
        dsimp only
        split
        · exact .inl ⟨_, _, rfl, rfl, rfl, rfl, .decided rfl (.refl _)⟩
        · exact .inl ⟨_, _, rfl, rfl, rfl, rfl, .decided rfl (.refl _)⟩

end

/-! ## How a callback resumes an operation -/

/-- A callback that finds a task in the slot waits for it or takes its outcome. -/
inductive Resumed (p r : Nat) (o : TaskObject) (s : Conn) (res : Result) (s' : Conn) : Prop where
  | pending (hcomplete : o.task.complete = false) (htook : res.took = none) (hconn : s' = s)
  | done (hcomplete : o.task.complete = true) (htook : res.took = some r)
      (hempty : s.store.Emptied p r s'.store) (hctx : s'.ctx = s.ctx)
      (hdepth : s'.verifyDepth = s.verifyDepth)

theorem Resumed.ctx_eq {p r : Nat} {o : TaskObject} {s s' : Conn} {res : Result}
    (h : Resumed p r o s res s') : s'.ctx = s.ctx := by
  cases h with
  | pending _ _ hconn => rw [hconn]
  | done _ _ _ hctx _ => exact hctx

section
variable (hs : Handshake) (alert : Int → UInt8) {s : Conn} {p r : Nat} {consumed : Bool}
  {o : TaskObject} {e : JniCalls}

/-- The part that the callbacks share: they ask again while the task is pending,
and read the reply from it when it is complete. -/
theorem TaskStore.Holds.resume (h : s.store.Holds p r consumed o) (pending : Reply)
    (done : TaskObject → Reply) :
    ∃ res s', (do
        match ← s.store.poll p with
        | (none, store) => return (Result.of pending, { s with store })
        | (some (r, o), store) =>
          return ({ Result.of (done o) with took := some r }, { s with store })) =
        (.ok (res, s') : Except Fault (Result × Conn)) ∧
      Resumed p r o s res s' ∧ res.called = none ∧
      res.reply = if o.task.complete then done o else pending := by
  cases hcomplete : o.task.complete with
  | false =>
    rw [h.poll_pending hcomplete]
    exact ⟨_, _, rfl, .pending hcomplete rfl rfl, rfl, rfl⟩
  | true =>
    obtain ⟨st', hpoll, hempty⟩ := h.poll_complete hcomplete
    rw [hpoll]
    exact ⟨_, _, rfl, .done hcomplete rfl hempty rfl rfl, rfl, rfl⟩

theorem tcnSSLCertCustomVerify_resumed (h : s.store.Holds p r consumed o) (he : e.getEnv = true)
    (java : Java) :
    ∃ res s', tcnSSLCertCustomVerify hs alert e java s = .ok (res, s') ∧
      Resumed p r o s res s' ∧ res.called = none ∧
      res.reply = (if o.task.complete then
        AtComplete.result (missingIssuer o.task.returnValue s.taskArrayLen s.taskChainNum)
        else .retry).reply alert := by
  unfold tcnSSLCertCustomVerify
  simp only [he, h.slot]
  obtain ⟨res, s', hok, hresumed, hcalled, hreply⟩ :=
    h.resume (AtComplete.retry.reply alert) fun o =>
      (AtComplete.result (missingIssuer o.task.returnValue s.taskArrayLen s.taskChainNum)).reply
        alert
  refine ⟨res, s', hok, hresumed, hcalled, hreply.trans ?_⟩
  split <;> rfl

theorem certificateCb_resumed (h : s.store.Holds p r consumed o) (he : e.getEnv = true)
    (java : Java) :
    ∃ res s', certificateCb hs e java s = .ok (res, s') ∧ Resumed p r o s res s' ∧
      res.reply = .certificate (if o.task.complete then o.task.returnValue else -1) := by
  unfold certificateCb
  simp only [he, h.slot]
  obtain ⟨res, s', hok, hresumed, -, hreply⟩ :=
    h.resume (.certificate (-1)) fun o => .certificate o.task.returnValue
  refine ⟨res, s', hok, hresumed, hreply.trans ?_⟩
  split <;> rfl

theorem tcnPrivateKeyCompleteJava_resumed (h : s.store.Holds p r consumed o)
    (he : e.getEnv = true) (htasks : s.ctx.useTasks = true) (maxOut : Nat) :
    ∃ res s', tcnPrivateKeyCompleteJava e maxOut s = .ok (res, s') ∧ Resumed p r o s res s' ∧
      res.reply = (if o.task.complete then copyOut e maxOut o.task.resultBytes
        else .privateKey .retry none) := by
  unfold tcnPrivateKeyCompleteJava
  simp only [he, h.slot, htasks]
  obtain ⟨res, s', hok, hresumed, -, hreply⟩ :=
    h.resume (.privateKey .retry none) fun o => copyOut e maxOut o.task.resultBytes
  exact ⟨res, s', hok, hresumed, hreply⟩

/-- Without a `JNIEnv` nothing happens, and no verdict but failure is reached. -/
theorem tcnSSLCertCustomVerify_noEnv (he : e.getEnv = false) (java : Java) (s : Conn) :
    tcnSSLCertCustomVerify hs alert e java s =
      .ok (.of ((AtComplete.result x509VErrUnspecified).reply alert), s) := by
  simp only [tcnSSLCertCustomVerify, he, Bool.not_false, if_true]

theorem certificateCb_noEnv (he : e.getEnv = false) (java : Java) (s : Conn) :
    certificateCb hs e java s = .ok (.of (.certificate 0), s) := by
  simp only [certificateCb, he, Bool.not_false, if_true]

/-- Without a task in the slot there is nothing to complete. -/
theorem tcnPrivateKeyCompleteJava_empty (e : JniCalls) {s : Conn}
    (hslot : s.store.sslTask = none) (maxOut : Nat) :
    ∃ reply, tcnPrivateKeyCompleteJava e maxOut s = .ok (.of reply, s) := by
  unfold tcnPrivateKeyCompleteJava
  simp only [hslot]
  split
  · exact ⟨_, rfl⟩
  · exact ⟨_, rfl⟩

theorem tcnPrivateKeyCompleteJava_noEnv (he : e.getEnv = false) (htasks : s.ctx.useTasks = true)
    (maxOut : Nat) :
    tcnPrivateKeyCompleteJava e maxOut s = .ok (.of (.privateKey .failure none), s) := by
  simp only [tcnPrivateKeyCompleteJava, htasks, he, Bool.not_true, Bool.not_false,
    Bool.false_eq_true, if_false, if_true]
  split <;> rfl

end

/-! ## The parties of the sample runs -/

/-- A context that uses tasks, with all three Java objects. -/
def taskCtx : TcnSslCtxt := ⟨Protocol.sslModeServer, true, some 0, some 1, some 2⟩

/-- A peer with a chain of two certificates. -/
def twoCerts : Handshake := ⟨some [[48], [49]], "RSA", [], none⟩

/-- A private key method whose every call has one outcome. -/
def SSLPrivateKeyMethod.always (outcome : Except Thrown (Option (List Byte))) :
    SSLPrivateKeyMethod := ⟨fun _ _ => outcome, fun _ => outcome⟩

/-- User objects that succeed. -/
def succeedJava : Java where
  verify _ _ _ := .ok x509VOk
  handle _ _ _ := .ok ()
  sign _ := (SSLPrivateKeyMethod.always (.ok (some [7]))).adapterSign
  decrypt _ := (SSLPrivateKeyMethod.always (.ok (some [7]))).adapterDecrypt

/-- User objects that throw. -/
def throwJava (thrown : Thrown) : Java where
  verify _ _ _ := .error thrown
  handle _ _ _ := .error thrown
  sign _ := (SSLPrivateKeyMethod.always (.error thrown)).adapterSign
  decrypt _ := (SSLPrivateKeyMethod.always (.error thrown)).adapterDecrypt

end Tasks
