-- SUMMARY: Certificate verification fails closed, in direct calls and in every run of suspended and resumed ones.
import Tcnative.Tasks.History
import Tcnative.Tasks.Slot

/-!
# Certificate verification

The verdict of a verification is a zero that comes from the verifier or it is no
acceptance. In a run this needs that the task in the slot is the verifier's: a
zero in the task of another callback means something else.
-/

namespace Tasks
open CMem

/-! ## What failing closed means -/

/-- `setUseTasks` is not called while a task is pending. -/
def Session.KeepsUseTasks (s : Session) : Event → Prop
  | .setUseTasks _ => s.conn.store.sslTask = none
  | _ => True

/-- The library verifies no peer of a handshake that another callback has failed. -/
def Session.Continues (s : Session) : Event → Prop
  | .certCustomVerify _ _ => s.failed = false
  | _ => True

/-- What the library and the caller of `setUseTasks` guarantee. -/
def Session.Orderly (s : Session) (ev : Event) : Prop :=
  s.Allows ev ∧ s.KeepsUseTasks ev ∧ s.Continues ev

instance (s : Session) : (ev : Event) → Decidable (s.KeepsUseTasks ev)
  | .setUseTasks _ => inferInstanceAs (Decidable (_ = _))
  | .certCustomVerify _ _ | .certificateCb _ _ | .sign _ _ _ _ _ | .decrypt _ _ _ _
  | .complete _ _ | .getTask | .runTask _ _ _ | .notify _ _ => inferInstanceAs (Decidable True)

instance (s : Session) : (ev : Event) → Decidable (s.Continues ev)
  | .certCustomVerify _ _ => inferInstanceAs (Decidable (_ = _))
  | .certificateCb _ _ | .sign _ _ _ _ _ | .decrypt _ _ _ _ | .complete _ _ | .getTask
  | .runTask _ _ _ | .notify _ _ | .setUseTasks _ => inferInstanceAs (Decidable True)

instance (s : Session) (ev : Event) : Decidable (s.Orderly ev) :=
  inferInstanceAs (Decidable (_ ∧ _))

/-- The verifier was called on the certificates of the peer up to the verify
depth and returned `X509_V_OK`: by this callback, or when Java ran the task that
the callback finds in the slot. -/
def VerifierAccepts (hs : Handshake) (verifyDepth : Int) (verifier : Option JObject) (java : Java)
    (before : List (Machine.Entry Session Event Result)) (x : Machine.Entry Session Event Result) :
    Prop :=
  CalledOk hs verifyDepth verifier java x.ret.called ∨
    ∃ p r consumed o, x.pre.conn.store.Holds p r consumed o ∧
      RanOk hs verifyDepth verifier before r

/-- A verification fails closed behind the steps of a run. -/
structure FailsClosed (hs : Handshake) (verifyDepth : Int) (verifier : Option JObject)
    (before : List (Machine.Entry Session Event Result)) (x : Machine.Entry Session Event Result) :
    Prop where
  /-- It accepts only what the verifier accepted. -/
  sound : ∀ e java, x.event = .certCustomVerify e java → x.ret.reply.Accepts →
    VerifierAccepts hs verifyDepth verifier java before x
  /-- Without JNI failures it accepts that. -/
  complete : ∀ java, x.event = .certCustomVerify .succeed java →
    VerifierAccepts hs verifyDepth verifier java before x → x.ret.reply.Accepts
  /-- Without JNI failures and tasks the verifier decides. -/
  direct : ∀ java, x.event = .certCustomVerify .succeed java →
    x.pre.conn.store.sslTask = none → x.pre.conn.ctx.useTasks = false → hs.Copies verifyDepth →
    JavaAccepts hs verifyDepth verifier java → x.ret.reply.Accepts

/-- `SSL_cert_verify` returns 1 exactly when it called the verifier and that call
returned `X509_V_OK`, and without JNI failures the verifier decides. -/
structure ReturnsVerdict (hs : Handshake) (verifyDepth : Int) (verifier : Option JObject)
    (e : JniCalls) (java : Java)
    (a : Int × Int × Option (List (List Byte) × Except Thrown Int)) : Prop where
  accepts_iff : a.1 = 1 ↔ CalledOk hs verifyDepth verifier java a.2.2
  direct : e = .succeed → hs.Copies verifyDepth → JavaAccepts hs verifyDepth verifier java →
    a.1 = 1

/-! ## The invariant -/

/-- While the handshake goes on, the slot is empty, or it holds the task of the
suspended operation or one of the verification. -/
structure VerifyInv (hs : Handshake) (verifyDepth : Int) (verifier : Option JObject)
    (s : Session) : Prop where
  depth : s.conn.verifyDepth = verifyDepth
  object : s.conn.ctx.verifier = verifier
  tasks : s.conn.store.refs.Forall fun o =>
    o.task.body.kind = .verify → VerifierBody hs verifyDepth verifier o.task.body
  slot : s.conn.store.sslTask = none ∨
    ∃ p r consumed o, s.conn.store.Holds p r consumed o ∧ s.conn.ctx.useTasks = true ∧
      (s.failed = false → o.task.body.kind = .verify ∨ s.suspended = some o.task.body.kind)

theorem verifyInv_start (hs : Handshake) (ctx : TcnSslCtxt) (verifyDepth : Int) :
    VerifyInv hs verifyDepth ctx.verifier (.start (.new ctx verifyDepth)) where
  depth := rfl
  object := rfl
  tasks := Arena.forall_nil
  slot := .inl rfl

theorem TaskStore.Failed.holds {st st' : TaskStore} {p r : Nat} {consumed : Bool}
    {o : TaskObject} (h : st.Failed st') (holds : st.Holds p r consumed o) :
    st'.sslTask = none ∨ st'.Holds p r consumed o := by
  rcases h.slot with hslot | hslot
  · right
    refine ⟨hslot.trans holds.slot, ?_, ?_⟩
    · rcases h.blocks with heq | heq
      · rw [heq]
        exact holds.block
      · rw [heq, Arena.Live, List.getElem?_append_left holds.block.lt]
        exact holds.block
    · rw [h.refs]
      exact holds.ref
  · exact .inl hslot

section
variable {hs : Handshake} {verifyDepth : Int} {verifier : Option JObject} {s : Session}

theorem Session.suspended_after_retry {ev : Event} {reply : Reply} {conn : Conn} {k : Kind}
    (hev : ev.kind = some k) (hretry : reply.asksRetry = some true)
    (hidle : s.suspended = none ∨ s.suspended = some k) :
    (s.after ev reply conn).suspended = some k := by
  simp only [Session.suspended, Session.after, Session.awaitingAfter, hretry, hev]
  cases hawaiting : s.awaiting with
  | none => rfl
  | some a =>
    simpa [Session.suspended, hawaiting] using hidle

/-- Starting an operation. -/
theorem VerifyInv.started {B : TaskBody → Prop} {k : Kind} {res : Result} {conn : Conn}
    {ev : Event} (h : VerifyInv hs verifyDepth verifier s) (hev : ev.kind = some k)
    (hslot : s.conn.store.sslTask = none ∧ (s.suspended = none ∨ s.suspended = some k) ∨
      s.suspended = none)
    (hB : ∀ body, B body →
      body.kind = k ∧ (k = .verify → VerifierBody hs verifyDepth verifier body))
    (hctx : conn.ctx = s.conn.ctx) (hdepth : conn.verifyDepth = s.conn.verifyDepth)
    (hstarted : Started B s.conn res conn) :
    VerifyInv hs verifyDepth verifier (s.after ev res.reply conn) := by
  have hverifier : conn.ctx.verifier = verifier := by rw [hctx, h.object]
  rcases hstarted with ⟨body, hbody, htasks, hretry, hstore⟩ | ⟨hretry, hfailed⟩
  · obtain ⟨hkind, hverify⟩ := hB body hbody
    refine ⟨hdepth.trans h.depth, hverifier, ?_, .inr ?_⟩
    · simp only [Session.after, hstore]
      refine h.tasks.alloc fun hk => ?_
      exact hverify (hkind.symm.trans hk)
    · have hholds : conn.store.Holds s.conn.store.blocks.length s.conn.store.refs.length false
          (.new body) := by
        rw [hstore]
        exact s.conn.store.put_holds body
      refine ⟨_, _, _, _, hholds, ?_, fun _ => .inr ?_⟩
      · simp only [Session.after, hctx, htasks]
      · have hidle : s.suspended = none ∨ s.suspended = some k := by
          rcases hslot with ⟨-, hidle⟩ | hnone
          · exact hidle
          · exact .inl hnone
        rw [Session.suspended_after_retry hev hretry hidle, ← hkind]
        rfl
  · refine ⟨hdepth.trans h.depth, hverifier, ?_, ?_⟩
    · simp only [Session.after, hfailed.refs]
      exact h.tasks
    · rcases hslot with ⟨hnone, -⟩ | hsuspended
      · left
        rcases hfailed.slot with heq | heq
        · exact heq.trans hnone
        · exact heq
      · -- A private key operation does not look at the slot, which may hold a verifier's task.
        rcases h.slot with hnone | ⟨p, r, consumed, o, holds, huse, hkind⟩
        · left
          rcases hfailed.slot with heq | heq
          · exact heq.trans hnone
          · exact heq
        · rcases hfailed.holds holds with hnone | holds'
          · exact .inl hnone
          · refine .inr ⟨p, r, consumed, o, holds', ?_, fun hcontinues => .inl ?_⟩
            · simp only [Session.after, hctx, huse]
            · simpa [hsuspended] using hkind (Bool.or_eq_false_iff.mp hcontinues).1

/-- Resuming an operation. -/
theorem VerifyInv.resumed {p r : Nat} {consumed : Bool} {o : TaskObject} {res : Result}
    {conn : Conn} {ev : Event} (h : VerifyInv hs verifyDepth verifier s)
    (holds : s.conn.store.Holds p r consumed o) (huse : s.conn.ctx.useTasks = true)
    (hkind : s.failed = false →
      o.task.body.kind = .verify ∨ s.suspended = some o.task.body.kind)
    (hresumed : Resumed p r o s.conn res conn)
    (hretry : o.task.complete = false → res.reply.asksRetry = some true) :
    VerifyInv hs verifyDepth verifier (s.after ev res.reply conn) := by
  rcases hresumed with ⟨hcomplete, -, rfl⟩ | ⟨-, -, hempty, hctx, hdepth⟩
  · refine ⟨h.depth, h.object, h.tasks,
      .inr ⟨p, r, consumed, o, holds, huse, fun hcontinues => ?_⟩⟩
    rcases hkind (Bool.or_eq_false_iff.mp hcontinues).1 with hverify | hsuspended
    · exact .inl hverify
    · right
      obtain ⟨a, ha, hk⟩ := Option.map_eq_some_iff.mp hsuspended
      simp only [Session.suspended, Session.after, Session.awaitingAfter, hretry hcomplete, ha,
        Option.some_or, Option.map_some, hk]
  · exact ⟨hdepth.trans h.depth, (congrArg TcnSslCtxt.verifier hctx).trans h.object,
      hempty.values _ h.tasks, .inl hempty.slot⟩

/-- A callback that leaves the connection alone, with a task of the verification
in the slot or at the end of the handshake. -/
theorem VerifyInv.kept {ev : Event} {reply : Reply} (h : VerifyInv hs verifyDepth verifier s)
    (hkept : ∀ p r consumed o, s.conn.store.Holds p r consumed o →
      o.task.body.kind = .verify ∨ reply.failsHandshake = true) :
    VerifyInv hs verifyDepth verifier (s.after ev reply s.conn) := by
  refine ⟨h.depth, h.object, h.tasks, ?_⟩
  rcases h.slot with hnone | ⟨p, r, consumed, o, holds, huse, -⟩
  · exact .inl hnone
  · refine .inr ⟨p, r, consumed, o, holds, huse, fun hfailed => .inl ?_⟩
    rcases hkept p r consumed o holds with hverify | hfails
    · exact hverify
    · simp [Session.after, hfails] at hfailed

/-- A call of Java that changes tasks without changing their subclass. -/
theorem VerifyInv.edit (h : VerifyInv hs verifyDepth verifier s) (r : Nat) {f : TaskObject → TaskObject}
    (hf : ∀ o, (f o).task.body = o.task.body) :
    VerifyInv hs verifyDepth verifier { s with conn := { s.conn with store := s.conn.store.edit r f } } := by
  refine ⟨h.depth, h.object, ?_, ?_⟩
  · refine h.tasks.update (fun o ho => ?_) r
    rw [hf]
    exact ho
  · rcases h.slot with hnone | ⟨p, r', consumed, o, holds, huse, hkind⟩
    · exact .inl hnone
    · obtain ⟨o', hholds, hbody⟩ := holds.edit r hf
      rw [← hbody] at hkind
      exact .inr ⟨p, r', consumed, o', hholds, huse, hkind⟩

/-- A step that is no callback changes only the connection. -/
theorem VerifyInv.after_java {ev : Event} {reply : Reply} {conn : Conn}
    (h : VerifyInv hs verifyDepth verifier { s with conn }) (hretry : reply.asksRetry = none) :
    VerifyInv hs verifyDepth verifier (s.after ev reply conn) := by
  rw [Session.after_call hretry]
  exact ⟨h.depth, h.object, h.tasks, h.slot⟩

theorem VerifyInv.getTask (h : VerifyInv hs verifyDepth verifier s) :
    ∃ t store, Tasks.getTask s.conn.store = .ok (t, store) ∧ store.refs = s.conn.store.refs ∧
      VerifyInv hs verifyDepth verifier { s with conn := { s.conn with store } } := by
  rcases h.slot with hslot | ⟨p, r, consumed, o, holds, huse, hkind⟩
  · exact ⟨none, s.conn.store, getTask_none hslot, rfl, h⟩
  · cases consumed with
    | true => exact ⟨none, s.conn.store, holds.getTask_eq, rfl, h⟩
    | false =>
      exact ⟨some r, _, holds.getTask_eq, rfl,
        ⟨h.depth, h.object, h.tasks, .inr ⟨p, r, true, o, holds.consume, huse, hkind⟩⟩⟩

/-! ## One step -/

variable {before : List (Machine.Entry Session Event Result)}

/-- What an orderly step has to yield. -/
structure StepsVerified (hs : Handshake) (verifyDepth : Int) (verifier : Option JObject)
    (before : List (Machine.Entry Session Event Result)) (s : Session) (ev : Event)
    (a : Result × Session) : Prop where
  inv : VerifyInv hs verifyDepth verifier a.2
  callback : a.2.conn.ctx.certificateCallback = s.conn.ctx.certificateCallback
  acts : ev.ActsOn s.conn.store.refs a.2.conn.store.refs
  closed : FailsClosed hs verifyDepth verifier before ⟨s, ev, a.1, a.2⟩

theorem failsClosed_other {x : Machine.Entry Session Event Result}
    (h : ∀ e java, x.event ≠ .certCustomVerify e java) :
    FailsClosed hs verifyDepth verifier before x where
  sound e java hev := absurd hev (h e java)
  complete java hev := absurd hev (h _ java)
  direct java hev := absurd hev (h _ java)

/-- A verification that starts. -/
theorem failsClosed_started {alert : Int → UInt8} {e : JniCalls} {java : Java} {res : Result}
    {conn : Conn} (h : VerifyInv hs verifyDepth verifier s) (hslot : s.conn.store.sslTask = none)
    (hok : tcnSSLCertCustomVerify hs alert e java s.conn = .ok (res, conn))
    (hstarted : VerifyStarted hs java s.conn res conn) (s' : Session) :
    FailsClosed hs verifyDepth verifier before ⟨s, .certCustomVerify e java, res, s'⟩ := by
  have haccepts := hstarted.accepts
  rw [h.depth, h.object] at haccepts
  refine ⟨?_, ?_, ?_⟩
  · rintro _ _ ⟨⟩ hacc
    exact .inl (haccepts.mp hacc)
  · rintro _ ⟨⟩ (hcalled | ⟨p, r, consumed, o, holds, -⟩)
    · exact haccepts.mpr hcalled
    · cases hslot.symm.trans holds.slot
  · rintro _ ⟨⟩ - huse hcopies hjava
    rw [← h.depth, ← h.object] at hjava
    rw [← h.depth] at hcopies
    exact tcnSSLCertCustomVerify_asks hs alert hslot huse hcopies hjava hok

/-- A verification that resumes, with the task of a verifier in the slot. -/
theorem failsClosed_resumed {ev : Event} {alert : Int → UInt8} {p r : Nat} {consumed : Bool}
    {o : TaskObject} {res : Result} (hhistory : TaskHistory before s.conn.store.refs)
    (holds : s.conn.store.Holds p r consumed o)
    (hbody : VerifierBody hs verifyDepth verifier o.task.body) (hcalled : res.called = none)
    (hreply : res.reply = (if o.task.complete then
      AtComplete.result (missingIssuer o.task.returnValue s.conn.taskArrayLen s.conn.taskChainNum)
      else .retry).reply alert) (s' : Session) :
    FailsClosed hs verifyDepth verifier before ⟨s, ev, res, s'⟩ := by
  obtain ⟨hverified, hcomplete⟩ := o.consistent.verify hbody.kind
  have hran := hhistory.ranOk_iff holds.ref hbody
  refine ⟨?_, ?_, ?_⟩
  · intro e java _ hacc
    refine .inr ⟨p, r, consumed, o, holds, hran.mpr ?_⟩
    cases hc : o.task.complete with
    | false =>
      rw [hreply, hc] at hacc
      cases hacc
    | true =>
      obtain ⟨result, hresult⟩ := hcomplete hc
      rw [hreply, hc, if_pos rfl, accepts_result, missingIssuer_eq_ok,
        (hverified result hresult).2] at hacc
      rw [hresult, hacc]
  · rintro java - (hcall | ⟨p', r', consumed', o', holds', hok⟩)
    · rw [hcalled] at hcall
      exact absurd hcall (not_calledOk_none _ _ _ _)
    · obtain rfl : r' = r := holds'.ref_unique holds
      obtain ⟨hc, hvalue⟩ := hverified x509VOk (hran.mp hok)
      rw [hreply, hc, if_pos rfl, accepts_result, missingIssuer_eq_ok]
      exact hvalue
  · intro java _ hslot
    cases hslot.symm.trans holds.slot

variable (alert : Int → UInt8)

theorem VerifyInv.step_verify {e : JniCalls} {java : Java}
    (h : VerifyInv hs verifyDepth verifier s)
    (hhistory : TaskHistory before s.conn.store.refs)
    (hallows : s.Allows (.certCustomVerify e java)) (hcontinues : s.failed = false) :
    ∃ res conn, perform hs alert s.conn (.certCustomVerify e java) = .ok (res, conn) ∧
      StepsVerified hs verifyDepth verifier before s (.certCustomVerify e java)
        (res, s.after (.certCustomVerify e java) res.reply conn) := by
  have hinert : (Event.certCustomVerify e java).Inert := fun _ _ => rfl
  rcases h.slot with hslot | ⟨p, r, consumed, o, holds, huse, hkind⟩
  · obtain ⟨res, conn, hok, hstarted⟩ := tcnSSLCertCustomVerify_started hs alert hslot e java
    have hB : ∀ body, VerifierBody hs s.conn.verifyDepth s.conn.ctx.verifier body →
        body.kind = .verify ∧
          (Kind.verify = .verify → VerifierBody hs verifyDepth verifier body) := by
      rw [h.depth, h.object]
      exact fun body hbody => ⟨hbody.kind, fun _ => hbody⟩
    refine ⟨res, conn, hok, ?_, ?_, hinert.started hstarted.started,
      failsClosed_started h hslot hok hstarted _⟩
    · exact h.started rfl (.inl ⟨hslot, hallows⟩) hB hstarted.ctx hstarted.verifyDepth
        hstarted.started
    · simp only [Session.after, hstarted.ctx]
  · have hverify : o.task.body.kind = .verify := by
      -- The task of another callback would belong to the suspended operation.
      rcases hkind hcontinues with hverify | hsuspended
      · exact hverify
      · rcases hallows with hnone | hsame
        · cases hnone.symm.trans hsuspended
        · exact Option.some.inj (hsuspended.symm.trans hsame)
    cases he : e.getEnv with
    | true =>
      obtain ⟨res, conn, hok, hresumed, hcalled, hreply⟩ :=
        tcnSSLCertCustomVerify_resumed hs alert holds he java
      refine ⟨res, conn, hok, ?_, ?_, hinert.resumed hresumed, ?_⟩
      · refine h.resumed holds huse (fun _ => .inl hverify) hresumed fun hc => ?_
        rw [hreply, hc]
        rfl
      · simp only [Session.after, hresumed.ctx_eq]
      · exact failsClosed_resumed hhistory holds (h.tasks.live holds.ref hverify) hcalled hreply _
    | false =>
      refine ⟨_, _, tcnSSLCertCustomVerify_noEnv hs alert he java s.conn, ?_, rfl,
        hinert.same _, ?_⟩
      · refine h.kept fun p' r' consumed' o' holds' => .inl ?_
        rw [holds'.unique holds]
        exact hverify
      · -- Without a JNIEnv the verdict is a rejection.
        have hjni : e ≠ .succeed := by
          rintro rfl
          cases he
        refine ⟨?_, ?_, ?_⟩
        · intro _ _ _ hacc
          have hzero : x509VErrUnspecified = x509VOk := (accepts_result alert _).mp hacc
          exact absurd hzero (by decide)
        · intro _ hev
          exact absurd (Event.certCustomVerify.inj hev).1 hjni
        · intro _ hev
          exact absurd (Event.certCustomVerify.inj hev).1 hjni

theorem VerifyInv.step_certificate {e : JniCalls} {java : Java}
    (h : VerifyInv hs verifyDepth verifier s) (hallows : s.Allows (.certificateCb e java)) :
    (∃ res conn, perform hs alert s.conn (.certificateCb e java) = .ok (res, conn) ∧
      StepsVerified hs verifyDepth verifier before s (.certificateCb e java)
        (res, s.after (.certificateCb e java) res.reply conn)) ∨
    ∃ f, perform hs alert s.conn (.certificateCb e java) = .error f ∧
      NullCall s.conn.ctx.certificateCallback f := by
  have hinert : (Event.certificateCb e java).Inert := fun _ _ => rfl
  rcases h.slot with hslot | ⟨p, r, consumed, o, holds, huse, hkind⟩
  · rcases certificateCb_started hs hslot e java with
      ⟨res, conn, hok, -, hctx, hdepth, hstarted⟩ | herror
    · have hB : ∀ body : TaskBody, body.kind = .certificate →
          body.kind = .certificate ∧
            (Kind.certificate = .verify → VerifierBody hs verifyDepth verifier body) :=
        fun body hbody => ⟨hbody, fun hk => by cases hk⟩
      exact .inl ⟨res, conn, hok, h.started rfl (.inl ⟨hslot, hallows⟩) hB hctx hdepth hstarted,
        by simp only [Session.after, hctx], hinert.started hstarted, failsClosed_other (by simp)⟩
    · obtain ⟨f, hf, -, hnull⟩ := herror
      exact .inr ⟨f, hf, hnull⟩
  · left
    cases he : e.getEnv with
    | true =>
      obtain ⟨res, conn, hok, hresumed, hreply⟩ := certificateCb_resumed hs holds he java
      refine ⟨res, conn, hok, ?_, by simp only [Session.after, hresumed.ctx_eq],
        hinert.resumed hresumed, failsClosed_other (by simp)⟩
      refine h.resumed holds huse hkind hresumed fun hc => ?_
      rw [hreply, hc]
      rfl
    | false =>
      exact ⟨_, _, certificateCb_noEnv hs he java s.conn, h.kept fun _ _ _ _ _ => .inr rfl, rfl,
        hinert.same _, failsClosed_other (by simp)⟩

theorem VerifyInv.step_complete {e : JniCalls} {maxOut : Nat}
    (h : VerifyInv hs verifyDepth verifier s) :
    ∃ res conn, perform hs alert s.conn (.complete e maxOut) = .ok (res, conn) ∧
      StepsVerified hs verifyDepth verifier before s (.complete e maxOut)
        (res, s.after (.complete e maxOut) res.reply conn) := by
  have hinert : (Event.complete e maxOut).Inert := fun _ _ => rfl
  rcases h.slot with hslot | ⟨p, r, consumed, o, holds, huse, hkind⟩
  · obtain ⟨reply, hok⟩ := tcnPrivateKeyCompleteJava_empty e hslot maxOut
    exact ⟨.of reply, s.conn, hok,
      h.kept fun _ _ _ _ holds => (by cases hslot.symm.trans holds.slot), rfl, hinert.same _,
      failsClosed_other (by simp)⟩
  · cases he : e.getEnv with
    | true =>
      obtain ⟨res, conn, hok, hresumed, hreply⟩ :=
        tcnPrivateKeyCompleteJava_resumed holds he huse maxOut
      refine ⟨res, conn, hok, ?_, by simp only [Session.after, hresumed.ctx_eq],
        hinert.resumed hresumed, failsClosed_other (by simp)⟩
      refine h.resumed holds huse hkind hresumed fun hc => ?_
      rw [hreply, hc]
      rfl
    | false =>
      exact ⟨_, _, tcnPrivateKeyCompleteJava_noEnv he huse maxOut,
        h.kept fun _ _ _ _ _ => .inr rfl, rfl, hinert.same _, failsClosed_other (by simp)⟩

theorem VerifyInv.step_privateKey {k : Kind} {res : Result} {conn : Conn}
    (h : VerifyInv hs verifyDepth verifier s) (ev : Event) (hev : ev.kind = some k)
    (hkind : k.IsPrivateKey) (hinert : ev.Inert) (hsuspended : s.suspended = none)
    (hctx : conn.ctx = s.conn.ctx) (hdepth : conn.verifyDepth = s.conn.verifyDepth)
    (hstarted : Started (·.kind = k) s.conn res conn) :
    StepsVerified hs verifyDepth verifier before s ev (res, s.after ev res.reply conn) := by
  refine ⟨?_, congrArg TcnSslCtxt.certificateCallback hctx, hinert.started hstarted,
    failsClosed_other ?_⟩
  · refine h.started hev (.inr hsuspended) (fun body hbody => ⟨hbody, ?_⟩) hctx hdepth hstarted
    rintro rfl
    exact absurd hkind (by decide)
  · rintro e java rfl
    cases hev
    exact absurd hkind (by decide)

/-- An orderly step keeps the invariant and fails closed. -/
theorem VerifyInv.step {ev : Event} (h : VerifyInv hs verifyDepth verifier s)
    (hhistory : TaskHistory before s.conn.store.refs) (horderly : s.Orderly ev) :
    Machine.Sat (NullCall s.conn.ctx.certificateCallback)
      (StepsVerified hs verifyDepth verifier before s ev) (sessionStep hs alert s ev) := by
  obtain ⟨hallows, hkeeps, hcontinues⟩ := horderly
  cases ev with
  | certCustomVerify e java =>
    obtain ⟨res, conn, hok, hstep⟩ := h.step_verify alert hhistory hallows hcontinues
    rw [sessionStep_ok hok]
    exact hstep
  | certificateCb e java =>
    rcases h.step_certificate alert hallows with ⟨res, conn, hok, hstep⟩ | ⟨f, herror, hnull⟩
    · rw [sessionStep_ok hok]
      exact hstep
    · rw [sessionStep_error herror]
      exact hnull
  | sign e maxOut signatureAlgorithm input direct =>
    obtain ⟨-, hctx, hdepth, hstarted⟩ := privateKeyJava_started (B := (·.kind = .sign))
      (.sslPrivateKeyMethodSignTask signatureAlgorithm input) (fun _ => rfl) e maxOut direct s.conn
    exact h.step_privateKey (.sign e maxOut signatureAlgorithm input direct) rfl
      (by decide) (fun _ _ => rfl) hallows hctx hdepth hstarted
  | decrypt e maxOut input direct =>
    obtain ⟨-, hctx, hdepth, hstarted⟩ := privateKeyJava_started (B := (·.kind = .decrypt))
      (.sslPrivateKeyMethodDecryptTask input) (fun _ => rfl) e maxOut direct s.conn
    exact h.step_privateKey (.decrypt e maxOut input direct) rfl
      (by decide) (fun _ _ => rfl) hallows hctx hdepth hstarted
  | complete e maxOut =>
    obtain ⟨res, conn, hok, hstep⟩ := h.step_complete alert
    rw [sessionStep_ok hok]
    exact hstep
  | getTask =>
    obtain ⟨t, store, hok, hrefs, hinv⟩ := h.getTask
    have hinert : Event.getTask.Inert := fun _ _ => rfl
    rw [sessionStep_ok (perform_getTask hok)]
    exact ⟨hinv.after_java rfl, rfl, hrefs ▸ hinert.same _, failsClosed_other (by simp)⟩
  | runTask r completeCallback java =>
    have hinv := h.edit r fun o => o.run_body java completeCallback
    exact ⟨hinv.after_java rfl, rfl, Event.actsOn_update fun _ _ => rfl,
      failsClosed_other (by simp)⟩
  | notify r n =>
    have hinv := h.edit r fun o => o.notify_body n
    exact ⟨hinv.after_java rfl, rfl, Event.actsOn_update fun _ _ => rfl,
      failsClosed_other (by simp)⟩
  | setUseTasks useTasks =>
    have hinv : VerifyInv hs verifyDepth verifier
        { s with conn := { s.conn with ctx := { s.conn.ctx with useTasks } } } :=
      ⟨h.depth, h.object, h.tasks, .inl hkeeps⟩
    have hinert : (Event.setUseTasks useTasks).Inert := fun _ _ => rfl
    exact ⟨hinv.after_java rfl, rfl, hinert.same _, failsClosed_other (by simp)⟩

end

/-! ## Whole runs, and the direct verification of OpenSSL -/

/-- The error that `SSL_cert_verify` sets is `X509_V_OK` exactly when the
verifier returned it. -/
theorem verifierResult_eq_ok (hasUnspecified : Bool) (result : Int) (len num : Nat) :
    (if hasUnspecified then missingIssuer result len num
      else if result = tcnX509VErrUnspecified then
        if (len : Int) < num then x509VErrUnableToGetIssuerCertLocally else x509VErrCertRejected
      else result) = x509VOk ↔ result = x509VOk := by
  cases hasUnspecified with
  | true => exact missingIssuer_eq_ok
  | false =>
    simp only [Bool.false_eq_true, if_false]
    split
    · rename_i h
      rw [h]
      split
      · decide
      · decide
    · rfl

theorem ret_eq_one_iff {result : Int} : (if result = x509VOk then (1 : Int) else 0) = 1 ↔
    result = x509VOk := by
  split
  · rename_i hok
    exact iff_of_true rfl hok
  · rename_i hnot
    exact iff_of_false (by decide) hnot

/-- `SSL_cert_verify` returns 1 exactly when it called the verifier and the
verifier returned `X509_V_OK`. -/
theorem sslCertVerify_accepts_iff (hasUnspecified : Bool) (hs : Handshake) (e : JniCalls)
    (java : Java) (s : Conn) :
    Machine.Sat (NullCall s.ctx.verifier)
      (fun a => a.1 = 1 ↔ CalledOk hs s.verifyDepth s.ctx.verifier java a.2.2)
      (sslCertVerify hasUnspecified hs e java s) := by
  obtain ⟨initial, hdef⟩ :
      ∃ initial, initial = if hasUnspecified then x509VErrUnspecified else x509VErrCertRejected :=
    ⟨_, rfl⟩
  have hinitial : initial ≠ x509VOk := by
    rw [hdef]
    cases hasUnspecified <;> decide
  -- Every early exit leaves the initial value of result, which is not zero.
  have hexit := ret_eq_one_iff.trans
    (iff_of_false hinitial (not_calledOk_none hs s.verifyDepth s.ctx.verifier java))
  simp only [sslCertVerify, ← hdef]
  cases e.getEnv with
  | false => exact hexit
  | true =>
    cases hchain : hs.peerCertificates with
    | none => exact hexit
    | some chain =>
      cases harray : getCerts e s.verifyDepth chain with
      | none =>
        simp only [harray]
        exact hexit
      | some array =>
        have hprefix : array = chain.take s.verifyDepth.toNat := getCerts_eq harray
        simp only [harray]
        cases e.newStringUTF with
        | false => exact hexit
        | true =>
          cases hverifier : s.ctx.verifier with
          | none => exact ⟨rfl, rfl⟩
          | some verifier =>
            rw [hverifier] at hexit
            refine ret_eq_one_iff.trans (Iff.trans ?_ (calledOk_iff hchain hprefix rfl java).symm)
            cases java.verify verifier array hs.authenticationMethod with
            | error thrown => exact iff_of_false hinitial (by simp)
            | ok result => simpa using verifierResult_eq_ok hasUnspecified result _ _

/-- Without JNI failures the verifier decides. -/
theorem sslCertVerify_asks (hasUnspecified : Bool) {hs : Handshake} {java : Java} {s : Conn}
    (hcopies : hs.Copies s.verifyDepth)
    (hjava : JavaAccepts hs s.verifyDepth s.ctx.verifier java)
    {a : Int × Int × Option (List (List Byte) × Except Thrown Int)}
    (hok : sslCertVerify hasUnspecified hs .succeed java s = .ok a) : a.1 = 1 := by
  obtain ⟨chain, object, hchain, hverifier, hverify⟩ := hjava
  have harray := getCerts_succeed hcopies.1 (hcopies.2 chain hchain)
  simp only [sslCertVerify, JniCalls.succeed_getEnv, JniCalls.succeed_newStringUTF, hchain, harray,
    hverifier, hverify, Bool.not_true, Bool.false_eq_true, if_false] at hok
  cases hok
  exact ret_eq_one_iff.mpr ((verifierResult_eq_ok hasUnspecified x509VOk _ _).mpr rfl)

theorem sslCertVerify_returnsVerdict (hasUnspecified : Bool) (hs : Handshake) (e : JniCalls)
    (java : Java) (s : Conn) :
    Machine.Sat (NullCall s.ctx.verifier)
      (ReturnsVerdict hs s.verifyDepth s.ctx.verifier e java)
      (sslCertVerify hasUnspecified hs e java s) := by
  refine (sslCertVerify_accepts_iff hasUnspecified hs e java s).imp (fun _ hf => hf) ?_
  rintro a hok hiff
  refine ⟨hiff, ?_⟩
  rintro rfl hcopies hjava
  exact sslCertVerify_asks hasUnspecified hcopies hjava hok

end Tasks
