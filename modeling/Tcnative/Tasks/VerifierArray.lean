-- SUMMARY: The array of certificates that a verifier gets, and the error that is reported where certificates are left out of it.
import Tcnative.Tasks.Verify

/-!
# What the verifier sees

`get_certs` cuts the chain of the peer at the verify depth. Both verification
callbacks compare the length of the array with that of the chain behind the call
of the verifier. The one for BoringSSL and AWS-LC does it in three places, and in
one of them with lengths that it has stored when it suspended.
-/

namespace Tasks
open CMem

/-! ## What is expected -/

/-- The array shows the verifier the leaf and what follows it, everything up to
the verify depth, and no more than one certificate beyond it. -/
structure SeesLeaf (verifyDepth : Int) (chain array : List (List Byte)) : Prop where
  nonempty : array ≠ []
  leaf : array.head? = chain.head?
  isPrefix : array <+: chain
  complete : (chain.length : Int) ≤ verifyDepth → array = chain
  bounded : (array.length : Int) ≤ verifyDepth + 1

/-- The value that a verifier returns for an unspecified error:
`CertificateVerifier.X509_V_ERR_UNSPECIFIED`. -/
def unspecifiedValue (hasUnspecified : Bool) : Int :=
  if hasUnspecified then x509VErrUnspecified else tcnX509VErrUnspecified

/-- The error of a verification that does not get to the verifier. -/
def defaultError (hasUnspecified : Bool) : Int :=
  if hasUnspecified then x509VErrUnspecified else x509VErrCertRejected

/-- The error that is reported for the outcome of a verifier where no certificate
was left out. -/
def plainError (hasUnspecified : Bool) : Except Thrown Int → Int
  | .ok result =>
    if result = unspecifiedValue hasUnspecified then defaultError hasUnspecified else result
  | .error _ => defaultError hasUnspecified

/-- The missing issuer is reported in place of an unspecified error exactly if the
verifier returned that, without throwing, for an array shorter than the chain. -/
structure ReportsIssuer (hasUnspecified : Bool) (outcome : Except Thrown Int)
    (array chain : List (List Byte)) (reported : Int) : Prop where
  replaced_iff : reported ≠ plainError hasUnspecified outcome ↔
    outcome = .ok (unspecifiedValue hasUnspecified) ∧ array.length < chain.length
  issuer : reported ≠ plainError hasUnspecified outcome →
    reported = x509VErrUnableToGetIssuerCertLocally

/-- The verdict that is sent to the library stands for such an error. -/
def VerdictReports (alert : Int → UInt8) (outcome : Except Thrown Int)
    (array chain : List (List Byte)) (reply : Reply) : Prop :=
  ∃ reported, reply = (AtComplete.result reported).reply alert ∧
    ReportsIssuer true outcome array chain reported

/-- What a step of a connection shows to verifiers, and what it reports. -/
structure Shows (hs : Handshake) (alert : Int → UInt8) (verifyDepth : Int)
    (chain : List (List Byte)) (x : Machine.Entry Session Event Result) : Prop where
  /-- Every task for a verifier holds such an array. -/
  tasks : x.post.conn.store.refs.Forall fun o => ∀ x509 authAlgorithm verifier,
    o.task.body = .certificateVerifierTask x509 authAlgorithm verifier →
      SeesLeaf verifyDepth chain x509
  /-- The direct path. -/
  direct : ∀ java verifier, x.event = .certCustomVerify .succeed java →
    x.pre.conn.store.sslTask = none → x.pre.conn.ctx.verifier = some verifier →
    x.pre.conn.ctx.useTasks = false →
      ∃ array, x.ret.called = some (array, java.verify verifier array hs.authenticationMethod) ∧
        SeesLeaf verifyDepth chain array ∧
        VerdictReports alert (java.verify verifier array hs.authenticationMethod) array chain
          x.ret.reply
  /-- The path without a verifier, where the default stands for its outcome. -/
  noVerifier : ∀ java, x.event = .certCustomVerify .succeed java →
    x.pre.conn.store.sslTask = none → x.pre.conn.ctx.verifier = none →
      ∃ array, getCerts .succeed verifyDepth chain = some array ∧
        VerdictReports alert (.ok x509VErrUnspecified) array chain x.ret.reply
  /-- The path that is resumed with a complete task of a verifier. -/
  resumed : ∀ java p r consumed o x509 authAlgorithm verifier,
    x.event = .certCustomVerify .succeed java → x.pre.conn.store.Holds p r consumed o →
    o.task.body = .certificateVerifierTask x509 authAlgorithm verifier → o.task.complete = true →
      ∃ outcome, o.verified = some outcome ∧ VerdictReports alert outcome x509 chain x.ret.reply

/-- The callback of BoringSSL and AWS-LC shows and reports what is expected in
every step of every run, and that of OpenSSL in every call of a verifier. -/
def VerifierSees (hs : Handshake) (verifyDepth : Int) (chain : List (List Byte)) : Prop :=
  (∀ alert ctx es,
    Machine.Sat (NullCall ctx.certificateCallback)
      (fun a => ∀ x ∈ a.1, Shows hs alert verifyDepth chain x)
      (Machine.run (sessionStep hs alert) (.start (.new ctx verifyDepth)) es)) ∧
  ∀ hasUnspecified java verifier s, s.verifyDepth = verifyDepth → s.ctx.verifier = some verifier →
    ∃ ret reported array,
      sslCertVerify hasUnspecified hs .succeed java s = .ok (ret, reported,
        some (array, java.verify verifier array hs.authenticationMethod)) ∧
      SeesLeaf verifyDepth chain array ∧
      ReportsIssuer hasUnspecified (java.verify verifier array hs.authenticationMethod) array chain
        reported

/-! ## The array -/

/-- The array has the leaf exactly if the verify depth is not zero. -/
theorem seesLeaf_iff {verifyDepth : Int} {chain : List (List Byte)} (hdepth : 0 ≤ verifyDepth)
    (hne : chain ≠ []) : SeesLeaf verifyDepth chain (chain.take verifyDepth.toNat) ↔
      0 < verifyDepth := by
  constructor
  · intro h
    by_contra hzero
    have hnone : verifyDepth.toNat = 0 := by omega
    exact h.nonempty (by rw [hnone, List.take_zero])
  · intro hpos
    obtain ⟨n, hn⟩ : ∃ n, verifyDepth.toNat = n + 1 := ⟨verifyDepth.toNat - 1, by omega⟩
    refine ⟨?_, ?_, List.take_prefix _ _, fun hle => ?_, ?_⟩
    · rw [hn]
      simpa using hne
    · rw [hn, List.head?_take, if_neg (by omega)]
    · exact List.take_of_length_le (by omega)
    · rw [List.length_take]
      omega

/-! ## The error -/

section
variable {hasUnspecified : Bool} {array chain : List (List Byte)}

theorem ReportsIssuer.plain {outcome : Except Thrown Int}
    (h : ¬ (outcome = .ok (unspecifiedValue hasUnspecified) ∧ array.length < chain.length)) :
    ReportsIssuer hasUnspecified outcome array chain (plainError hasUnspecified outcome) :=
  ⟨iff_of_false (fun hne => hne rfl) h, fun hne => absurd rfl hne⟩

theorem ReportsIssuer.missing (h : array.length < chain.length) :
    ReportsIssuer hasUnspecified (.ok (unspecifiedValue hasUnspecified)) array chain
      x509VErrUnableToGetIssuerCertLocally := by
  have hne : x509VErrUnableToGetIssuerCertLocally ≠
      plainError hasUnspecified (.ok (unspecifiedValue hasUnspecified)) := by
    cases hasUnspecified <;> decide
  exact ⟨iff_of_true hne ⟨rfl, h⟩, fun _ => rfl⟩

/-- A verifier that throws leaves the error as it was. -/
theorem ReportsIssuer.thrown (thrown : Thrown) :
    ReportsIssuer hasUnspecified (.error thrown) array chain (defaultError hasUnspecified) :=
  .plain (by rintro ⟨houtcome, -⟩; cases houtcome)

/-- The comparison that the paths of the callback for BoringSSL and AWS-LC share. -/
theorem missingIssuer_reports (result : Int) (array chain : List (List Byte)) :
    ReportsIssuer true (.ok result) array chain
      (missingIssuer result array.length chain.length) := by
  unfold missingIssuer
  by_cases h : result = x509VErrUnspecified ∧ (array.length : Int) < chain.length
  · obtain ⟨rfl, hlen⟩ := h
    rw [if_pos ⟨rfl, hlen⟩]
    exact .missing (Int.ofNat_lt.mp hlen)
  · have hplain : plainError true (.ok result) = result := by
      by_cases hresult : result = x509VErrUnspecified
      · rw [hresult]
        rfl
      · exact if_neg hresult
    rw [if_neg h]
    nth_rewrite 2 [← hplain]
    apply ReportsIssuer.plain
    rintro ⟨hresult, hlen⟩
    exact h ⟨Except.ok.inj hresult, Int.ofNat_lt.mpr hlen⟩

/-- The comparison of OpenSSL where the library has no value for the error. -/
theorem rejected_reports (result : Int) (array chain : List (List Byte)) :
    ReportsIssuer false (.ok result) array chain
      (if result = tcnX509VErrUnspecified then
        if (array.length : Int) < chain.length then x509VErrUnableToGetIssuerCertLocally
        else x509VErrCertRejected
      else result) := by
  by_cases hresult : result = tcnX509VErrUnspecified
  · obtain rfl := hresult
    rw [if_pos rfl]
    by_cases hlen : (array.length : Int) < chain.length
    · rw [if_pos hlen]
      exact .missing (Int.ofNat_lt.mp hlen)
    · rw [if_neg hlen]
      apply ReportsIssuer.plain
      rintro ⟨-, hshort⟩
      exact hlen (Int.ofNat_lt.mpr hshort)
  · have hplain : plainError false (.ok result) = result := if_neg hresult
    rw [if_neg hresult]
    nth_rewrite 2 [← hplain]
    apply ReportsIssuer.plain
    rintro ⟨hsame, -⟩
    exact hresult (Except.ok.inj hsame)

end

/-! ## The paths of one call -/

section
variable {hs : Handshake} {chain array : List (List Byte)} {s : Conn} {verifier : JObject}

theorem sslCertVerify_reports (hasUnspecified : Bool) (java : Java)
    (hchain : hs.peerCertificates = some chain)
    (harray : getCerts .succeed s.verifyDepth chain = some array)
    (hverifier : s.ctx.verifier = some verifier) :
    ∃ ret reported,
      sslCertVerify hasUnspecified hs .succeed java s = .ok (ret, reported,
        some (array, java.verify verifier array hs.authenticationMethod)) ∧
      ReportsIssuer hasUnspecified (java.verify verifier array hs.authenticationMethod) array chain
        reported := by
  simp only [sslCertVerify, JniCalls.succeed_getEnv, JniCalls.succeed_newStringUTF, hchain, harray,
    hverifier, Bool.not_true, Bool.false_eq_true, if_false]
  refine ⟨_, _, rfl, ?_⟩
  cases java.verify verifier array hs.authenticationMethod with
  | error thrown => exact .thrown thrown
  | ok result =>
    cases hasUnspecified with
    | true => exact missingIssuer_reports result array chain
    | false => exact rejected_reports result array chain

variable (alert : Int → UInt8) (java : Java)

theorem tcnSSLCertCustomVerify_direct (hslot : s.store.sslTask = none)
    (hchain : hs.peerCertificates = some chain)
    (harray : getCerts .succeed s.verifyDepth chain = some array)
    (hverifier : s.ctx.verifier = some verifier) (huse : s.ctx.useTasks = false) :
    ∃ res, tcnSSLCertCustomVerify hs alert .succeed java s = .ok (res, s) ∧
      res.called = some (array, java.verify verifier array hs.authenticationMethod) ∧
      VerdictReports alert (java.verify verifier array hs.authenticationMethod) array chain
        res.reply := by
  simp only [tcnSSLCertCustomVerify, JniCalls.succeed_getEnv, JniCalls.succeed_newStringUTF, hslot,
    hchain, harray, hverifier, huse, Bool.not_true, Bool.false_eq_true, if_false]
  refine ⟨_, rfl, rfl, _, rfl, ?_⟩
  cases java.verify verifier array hs.authenticationMethod with
  | error thrown => exact .thrown thrown
  | ok result => exact missingIssuer_reports result array chain

theorem tcnSSLCertCustomVerify_noVerifier (hslot : s.store.sslTask = none)
    (hchain : hs.peerCertificates = some chain)
    (harray : getCerts .succeed s.verifyDepth chain = some array)
    (hverifier : s.ctx.verifier = none) :
    ∃ res, tcnSSLCertCustomVerify hs alert .succeed java s = .ok (res, s) ∧
      VerdictReports alert (.ok x509VErrUnspecified) array chain res.reply := by
  simp only [tcnSSLCertCustomVerify, JniCalls.succeed_getEnv, JniCalls.succeed_newStringUTF, hslot,
    hchain, harray, hverifier, Bool.not_true, Bool.false_eq_true, if_false]
  exact ⟨_, rfl, _, rfl, missingIssuer_reports _ array chain⟩

/-- The lengths that were stored when the verification suspended. -/
def Saved (hs : Handshake) (verifyDepth taskArrayLen taskChainNum : Int) : Prop :=
  ∀ chain, hs.peerCertificates = some chain →
    taskArrayLen = (chain.take verifyDepth.toNat).length ∧ taskChainNum = chain.length

/-- A step leaves the stored lengths alone. -/
def KeepsLengths (s s' : Conn) : Prop :=
  s'.taskArrayLen = s.taskArrayLen ∧ s'.taskChainNum = s.taskChainNum

/-- A verification that suspends stores the lengths, and any other leaves them alone. -/
def StoresLengths (hs : Handshake) (s : Conn) (res : Result) (s' : Conn) : Prop :=
  (res.reply.asksRetry = some true → Saved hs s.verifyDepth s'.taskArrayLen s'.taskChainNum) ∧
    (res.reply.asksRetry = some false → KeepsLengths s s')

/-- A verdict leaves them alone. -/
theorem storesLengths_decided {result : Int} {took : Option Nat}
    {called : Option (List (List Byte) × Except Thrown Int)} {store : TaskStore} {res : Result}
    {s' : Conn}
    (h : (⟨(AtComplete.result result).reply alert, took, called⟩, { s with store }) = (res, s')) :
    StoresLengths hs s res s' := by
  cases h
  refine ⟨fun hretry => ?_, fun _ => ⟨rfl, rfl⟩⟩
  rw [asksRetry_verify] at hretry
  cases hretry

theorem tcnSSLCertCustomVerify_saves (hslot : s.store.sslTask = none) {e : JniCalls}
    {res : Result} {s' : Conn}
    (h : tcnSSLCertCustomVerify hs alert e java s = .ok (res, s')) :
    StoresLengths hs s res s' := by
  simp only [tcnSSLCertCustomVerify, hslot] at h
  split at h
  · exact storesLengths_decided alert (Except.ok.inj h)
  cases hchain : hs.peerCertificates with
  | none =>
    rw [hchain] at h
    exact storesLengths_decided alert (Except.ok.inj h)
  | some chain =>
    simp only [hchain] at h
    cases harray : getCerts e s.verifyDepth chain with
    | none =>
      simp only [harray] at h
      exact storesLengths_decided alert (Except.ok.inj h)
    | some array =>
      simp only [harray] at h
      split at h
      · exact storesLengths_decided alert (Except.ok.inj h)
      cases hverifier : s.ctx.verifier with
      | none =>
        simp only [hverifier] at h
        exact storesLengths_decided alert (Except.ok.inj h)
      | some verifier =>
        simp only [hverifier] at h
        split at h
        · split at h
          · exact storesLengths_decided alert (Except.ok.inj h)
          · cases h
            refine ⟨fun _ chain' hchain' => ?_, fun hretry => by cases hretry⟩
            obtain rfl : chain = chain' := Option.some.inj (hchain.symm.trans hchain')
            rw [← getCerts_eq harray]
            exact ⟨rfl, rfl⟩
        · exact storesLengths_decided alert (Except.ok.inj h)

end

/-! ## The stored lengths -/

section
variable {hs : Handshake} {alert : Int → UInt8} {e : JniCalls} {java : Java} {maxOut : Nat}
  {s s' : Conn} {res : Result}

theorem tcnSSLCertCustomVerify_keeps {p : Nat} (hslot : s.store.sslTask = some p)
    (h : tcnSSLCertCustomVerify hs alert e java s = .ok (res, s')) : KeepsLengths s s' := by
  simp only [tcnSSLCertCustomVerify, hslot] at h
  split at h
  · cases h
    exact ⟨rfl, rfl⟩
  · obtain ⟨⟨found, store⟩, -, h⟩ := bind_ok h
    cases found <;> cases h <;> exact ⟨rfl, rfl⟩

theorem certificateCb_keeps (h : certificateCb hs e java s = .ok (res, s')) :
    KeepsLengths s s' := by
  unfold certificateCb at h
  split at h
  · cases h
    exact ⟨rfl, rfl⟩
  split at h
  · obtain ⟨⟨found, store⟩, -, h⟩ := bind_ok h
    cases found <;> cases h <;> exact ⟨rfl, rfl⟩
  split at h
  · split at h <;> cases h <;> exact ⟨rfl, rfl⟩
  split at h
  · cases h
  split at h <;> cases h <;> exact ⟨rfl, rfl⟩

theorem privateKeyJava_keeps (body : JObject → TaskBody)
    (direct : Except Thrown (Option (List Byte))) (s : Conn) :
    KeepsLengths s (privateKeyJava e maxOut body direct s).2 := by
  unfold privateKeyJava
  split
  · exact ⟨rfl, rfl⟩
  split
  · exact ⟨rfl, rfl⟩
  split
  · split <;> exact ⟨rfl, rfl⟩
  split <;> exact ⟨rfl, rfl⟩

theorem tcnPrivateKeyCompleteJava_keeps
    (h : tcnPrivateKeyCompleteJava e maxOut s = .ok (res, s')) : KeepsLengths s s' := by
  unfold tcnPrivateKeyCompleteJava at h
  split at h
  · cases h
    exact ⟨rfl, rfl⟩
  split at h
  · cases h
    exact ⟨rfl, rfl⟩
  split at h
  · cases h
    exact ⟨rfl, rfl⟩
  · obtain ⟨⟨found, store⟩, -, h⟩ := bind_ok h
    cases found <;> cases h <;> exact ⟨rfl, rfl⟩

end

/-! ## The invariant -/

/-- The slot is empty or holds a live task. -/
def TaskStore.SlotLive (st : TaskStore) : Prop :=
  st.sslTask = none ∨ ∃ p r consumed o, st.Holds p r consumed o

/-- Every task of a verifier holds the array for the chain of the peer, and its
length and that of the chain are stored. -/
structure VerifierTasks (hs : Handshake) (verifyDepth : Int) (s : Conn) : Prop where
  depth : s.verifyDepth = verifyDepth
  slot : s.store.SlotLive
  tasks : s.store.refs.Forall fun o => o.task.body.kind = .verify →
    (∃ verifier, VerifierBody hs verifyDepth verifier o.task.body) ∧
      Saved hs verifyDepth s.taskArrayLen s.taskChainNum

section
variable {hs : Handshake} {verifyDepth : Int} {s s' : Conn} {res : Result}

theorem verifierTasks_new (hs : Handshake) (ctx : TcnSslCtxt) (verifyDepth : Int) :
    VerifierTasks hs verifyDepth (.new ctx verifyDepth) where
  depth := rfl
  slot := .inl rfl
  tasks := Arena.forall_nil

/-- The tasks that are there already, behind a step that stores nothing wrong. -/
theorem VerifierTasks.tasks_of_saved (h : VerifierTasks hs verifyDepth s)
    (hsaved : Saved hs verifyDepth s.taskArrayLen s.taskChainNum →
      Saved hs verifyDepth s'.taskArrayLen s'.taskChainNum) :
    s.store.refs.Forall fun o => o.task.body.kind = .verify →
      (∃ verifier, VerifierBody hs verifyDepth verifier o.task.body) ∧
        Saved hs verifyDepth s'.taskArrayLen s'.taskChainNum := by
  intro i c hc hkind
  obtain ⟨hbody, hold⟩ := h.tasks i c hc hkind
  exact ⟨hbody, hsaved hold⟩

theorem KeepsLengths.saved (h : KeepsLengths s s') :
    Saved hs verifyDepth s.taskArrayLen s.taskChainNum →
      Saved hs verifyDepth s'.taskArrayLen s'.taskChainNum := by
  rw [h.1, h.2]
  exact id

/-- Starting an operation. A verification stores the lengths if it suspends. -/
theorem VerifierTasks.started {B : TaskBody → Prop} (h : VerifierTasks hs verifyDepth s)
    (hstarted : Started B s res s') (hdepth : s'.verifyDepth = s.verifyDepth)
    (hsaved : Saved hs verifyDepth s.taskArrayLen s.taskChainNum →
      Saved hs verifyDepth s'.taskArrayLen s'.taskChainNum)
    (hnew : ∀ body, B body → res.reply.asksRetry = some true → body.kind = .verify →
      (∃ verifier, VerifierBody hs verifyDepth verifier body) ∧
        Saved hs verifyDepth s'.taskArrayLen s'.taskChainNum) :
    VerifierTasks hs verifyDepth s' := by
  have htasks := h.tasks_of_saved hsaved
  cases hstarted with
  | suspended body hbody huse hretry hstore =>
    refine ⟨hdepth.trans h.depth, ?_, ?_⟩
    · rw [hstore]
      exact .inr ⟨_, _, _, _, s.store.put_holds body⟩
    · rw [hstore]
      exact htasks.alloc (hnew body hbody hretry)
  | decided hretry hstore =>
    refine ⟨hdepth.trans h.depth, ?_, ?_⟩
    · rcases h.slot with hnone | ⟨p, r, consumed, o, holds⟩
      · rcases hstore.slot with hsame | hcleared
        · exact .inl (hsame.trans hnone)
        · exact .inl hcleared
      · exact (hstore.holds holds).imp_right fun holds' => ⟨p, r, consumed, o, holds'⟩
    · rw [hstore.refs]
      exact htasks

/-- Resuming an operation. -/
theorem VerifierTasks.resumed {p r : Nat} {o : TaskObject} (h : VerifierTasks hs verifyDepth s)
    (hresumed : Resumed p r o s res s') (hkeeps : KeepsLengths s s') :
    VerifierTasks hs verifyDepth s' := by
  cases hresumed with
  | pending hcomplete htook hconn => rwa [hconn]
  | done hcomplete htook hempty hctx hdepth =>
    exact ⟨hdepth.trans h.depth, .inl hempty.slot,
      hempty.values _ (h.tasks_of_saved hkeeps.saved)⟩

/-- Java changes a task without changing its subclass. -/
theorem VerifierTasks.edit (h : VerifierTasks hs verifyDepth s) (r : Nat)
    {f : TaskObject → TaskObject} (hf : ∀ o, (f o).task.body = o.task.body) :
    VerifierTasks hs verifyDepth { s with store := s.store.edit r f } := by
  refine ⟨h.depth, ?_, ?_⟩
  · rcases h.slot with hnone | ⟨p, r', consumed, o, holds⟩
    · exact .inl hnone
    · obtain ⟨o', holds', -⟩ := holds.edit r hf
      exact .inr ⟨p, r', consumed, o', holds'⟩
  · refine h.tasks.update (fun o ho => ?_) r
    rw [hf]
    exact ho

theorem VerifierTasks.getTask (h : VerifierTasks hs verifyDepth s) :
    ∃ t store, Tasks.getTask s.store = .ok (t, store) ∧
      VerifierTasks hs verifyDepth { s with store } := by
  rcases h.slot with hnone | ⟨p, r, consumed, o, holds⟩
  · exact ⟨none, s.store, getTask_none hnone, h⟩
  · refine ⟨_, _, holds.getTask_eq, ?_⟩
    cases consumed with
    | true => exact h
    | false => exact ⟨h.depth, .inr ⟨p, r, true, o, holds.consume⟩, h.tasks⟩

end

/-! ## One step -/

section
variable {hs : Handshake} {alert : Int → UInt8} {verifyDepth : Int} {s : Conn}

theorem VerifierTasks.certCustomVerify (h : VerifierTasks hs verifyDepth s)
    (alert : Int → UInt8) (e : JniCalls) (java : Java) :
    ∃ res s', tcnSSLCertCustomVerify hs alert e java s = .ok (res, s') ∧ s'.ctx = s.ctx ∧
      VerifierTasks hs verifyDepth s' := by
  rcases h.slot with hslot | ⟨p, r, consumed, o, holds⟩
  · obtain ⟨res, s', hok, hstarted⟩ := tcnSSLCertCustomVerify_started hs alert hslot e java
    obtain ⟨hsuspended, hdecided⟩ := tcnSSLCertCustomVerify_saves alert java hslot hok
    rw [h.depth] at hsuspended
    refine ⟨res, s', hok, hstarted.ctx, ?_⟩
    refine h.started hstarted.started hstarted.verifyDepth (fun hold => ?_)
      fun body hbody hretry _ => ⟨⟨_, h.depth ▸ hbody⟩, hsuspended hretry⟩
    cases hstarted.started with
    | suspended body hbody huse hretry hstore => exact hsuspended hretry
    | decided hretry hstore => exact (hdecided hretry).saved hold
  · cases he : e.getEnv with
    | true =>
      obtain ⟨res, s', hok, hresumed, -, -⟩ :=
        tcnSSLCertCustomVerify_resumed hs alert holds he java
      exact ⟨res, s', hok, hresumed.ctx_eq,
        h.resumed hresumed (tcnSSLCertCustomVerify_keeps holds.slot hok)⟩
    | false => exact ⟨_, _, tcnSSLCertCustomVerify_noEnv hs alert he java s, rfl, h⟩

theorem VerifierTasks.certificateCb (h : VerifierTasks hs verifyDepth s) (e : JniCalls)
    (java : Java) :
    (∃ res s', Tasks.certificateCb hs e java s = .ok (res, s') ∧ s'.ctx = s.ctx ∧
      VerifierTasks hs verifyDepth s') ∨
    ∃ f, Tasks.certificateCb hs e java s = .error f ∧ NullCall s.ctx.certificateCallback f := by
  rcases h.slot with hslot | ⟨p, r, consumed, o, holds⟩
  · rcases certificateCb_started hs hslot e java with
      ⟨res, s', hok, -, hctx, hdepth, hstarted⟩ | ⟨f, hf, -, hnull⟩
    · refine .inl ⟨res, s', hok, hctx,
        h.started hstarted hdepth (certificateCb_keeps hok).saved fun body hbody _ hverify => ?_⟩
      cases hbody.symm.trans hverify
    · exact .inr ⟨f, hf, hnull⟩
  · left
    cases he : e.getEnv with
    | true =>
      obtain ⟨res, s', hok, hresumed, -⟩ := certificateCb_resumed hs holds he java
      exact ⟨res, s', hok, hresumed.ctx_eq, h.resumed hresumed (certificateCb_keeps hok)⟩
    | false => exact ⟨_, _, certificateCb_noEnv hs he java s, rfl, h⟩

theorem VerifierTasks.privateKeyJava (h : VerifierTasks hs verifyDepth s) {k : Kind}
    (hk : k ≠ .verify) (body : JObject → TaskBody) (hbody : ∀ method, (body method).kind = k)
    (e : JniCalls) (maxOut : Nat) (direct : Except Thrown (Option (List Byte))) :
    (Tasks.privateKeyJava e maxOut body direct s).2.ctx = s.ctx ∧
      VerifierTasks hs verifyDepth (Tasks.privateKeyJava e maxOut body direct s).2 := by
  obtain ⟨-, hctx, hdepth, hstarted⟩ :=
    privateKeyJava_started (B := (·.kind = k)) body hbody e maxOut direct s
  refine ⟨hctx, h.started hstarted hdepth (privateKeyJava_keeps body direct s).saved ?_⟩
  intro body' hbody' _ hverify
  exact absurd (hbody'.symm.trans hverify) hk

theorem VerifierTasks.complete (h : VerifierTasks hs verifyDepth s) (e : JniCalls) (maxOut : Nat) :
    ∃ res s', tcnPrivateKeyCompleteJava e maxOut s = .ok (res, s') ∧ s'.ctx = s.ctx ∧
      VerifierTasks hs verifyDepth s' := by
  rcases h.slot with hslot | ⟨p, r, consumed, o, holds⟩
  · obtain ⟨reply, hok⟩ := tcnPrivateKeyCompleteJava_empty e hslot maxOut
    exact ⟨_, _, hok, rfl, h⟩
  · cases huse : s.ctx.useTasks with
    | false =>
      refine ⟨.of (.privateKey .success none), s, ?_, rfl, h⟩
      rw [tcnPrivateKeyCompleteJava, huse]
      rfl
    | true =>
      cases he : e.getEnv with
      | true =>
        obtain ⟨res, s', hok, hresumed, -⟩ :=
          tcnPrivateKeyCompleteJava_resumed holds he huse maxOut
        exact ⟨res, s', hok, hresumed.ctx_eq,
          h.resumed hresumed (tcnPrivateKeyCompleteJava_keeps hok)⟩
      | false => exact ⟨_, _, tcnPrivateKeyCompleteJava_noEnv he huse maxOut, rfl, h⟩

/-- No event but a call of a cleared certificate callback faults, and every other
keeps the invariant. -/
theorem VerifierTasks.perform (h : VerifierTasks hs verifyDepth s) (alert : Int → UInt8)
    (ev : Event) :
    Machine.Sat (NullCall s.ctx.certificateCallback)
      (fun a => VerifierTasks hs verifyDepth a.2 ∧
        a.2.ctx.certificateCallback = s.ctx.certificateCallback)
      (Tasks.perform hs alert s ev) := by
  cases ev with
  | certCustomVerify e java =>
    obtain ⟨res, s', hok, hctx, hinv⟩ := h.certCustomVerify alert e java
    simp only [Tasks.perform, hok]
    exact ⟨hinv, by rw [hctx]⟩
  | certificateCb e java =>
    rcases h.certificateCb e java with ⟨res, s', hok, hctx, hinv⟩ | ⟨f, hf, hnull⟩
    · simp only [Tasks.perform, hok]
      exact ⟨hinv, by rw [hctx]⟩
    · simp only [Tasks.perform, hf]
      exact hnull
  | sign e maxOut signatureAlgorithm input direct =>
    obtain ⟨hctx, hinv⟩ := h.privateKeyJava (k := .sign) (by decide)
      (.sslPrivateKeyMethodSignTask signatureAlgorithm input) (fun _ => rfl) e maxOut direct
    exact ⟨hinv, congrArg TcnSslCtxt.certificateCallback hctx⟩
  | decrypt e maxOut input direct =>
    obtain ⟨hctx, hinv⟩ := h.privateKeyJava (k := .decrypt) (by decide)
      (.sslPrivateKeyMethodDecryptTask input) (fun _ => rfl) e maxOut direct
    exact ⟨hinv, congrArg TcnSslCtxt.certificateCallback hctx⟩
  | complete e maxOut =>
    obtain ⟨res, s', hok, hctx, hinv⟩ := h.complete e maxOut
    simp only [Tasks.perform, hok]
    exact ⟨hinv, by rw [hctx]⟩
  | getTask =>
    obtain ⟨t, store, hok, hinv⟩ := h.getTask
    rw [perform_getTask hok]
    exact ⟨hinv, rfl⟩
  | runTask r completeCallback java =>
    exact ⟨h.edit r fun o => o.run_body java completeCallback, rfl⟩
  | notify r n => exact ⟨h.edit r fun o => o.notify_body n, rfl⟩
  | setUseTasks useTasks => exact ⟨⟨h.depth, h.slot, h.tasks⟩, rfl⟩

variable {chain : List (List Byte)}

/-- What a step shows and reports, for an array that shows the leaf. -/
theorem VerifierTasks.shows {s s' : Session} {ev : Event} {res : Result}
    (h : VerifierTasks hs verifyDepth s.conn) (h' : VerifierTasks hs verifyDepth s'.conn)
    (hperform : Tasks.perform hs alert s.conn ev = .ok (res, s'.conn))
    (hchain : hs.peerCertificates = some chain)
    (harray : getCerts .succeed verifyDepth chain = some (chain.take verifyDepth.toNat))
    (hsees : SeesLeaf verifyDepth chain (chain.take verifyDepth.toNat)) :
    Shows hs alert verifyDepth chain ⟨s, ev, res, s'⟩ := by
  -- The array of a task is the one that get_certs yields.
  have hx509 : ∀ {x509 authAlgorithm verifier},
      (∃ object, VerifierBody hs verifyDepth object
        (.certificateVerifierTask x509 authAlgorithm verifier)) →
      x509 = chain.take verifyDepth.toNat := by
    rintro x509 authAlgorithm verifier ⟨_, chain', _, hchain', -, hbody⟩
    obtain rfl : chain = chain' := Option.some.inj (hchain.symm.trans hchain')
    cases hbody
    rfl
  rw [← h.depth] at harray
  refine ⟨?_, ?_, ?_, ?_⟩
  · intro i c hc x509 authAlgorithm verifier hbody
    obtain ⟨hverifier, -⟩ := h'.tasks i c hc (by rw [hbody]; rfl)
    rw [hbody] at hverifier
    rw [hx509 hverifier]
    exact hsees
  · rintro java verifier rfl hslot hverifier huse
    obtain ⟨res', hok, hcalled, hreports⟩ :=
      tcnSSLCertCustomVerify_direct alert java hslot hchain harray hverifier huse
    obtain ⟨rfl, -⟩ := Prod.mk.inj (Except.ok.inj (hperform.symm.trans hok))
    rw [h.depth] at hcalled hreports
    exact ⟨_, hcalled, hsees, hreports⟩
  · rintro java rfl hslot hverifier
    obtain ⟨res', hok, hreports⟩ :=
      tcnSSLCertCustomVerify_noVerifier alert java hslot hchain harray hverifier
    obtain ⟨rfl, -⟩ := Prod.mk.inj (Except.ok.inj (hperform.symm.trans hok))
    rw [h.depth] at harray hreports
    exact ⟨_, harray, hreports⟩
  · rintro java p r consumed o x509 authAlgorithm verifier rfl holds hbody hcomplete
    have hkind : o.task.body.kind = .verify := by rw [hbody]; rfl
    obtain ⟨hverifier, hsaved⟩ := h.tasks.live holds.ref hkind
    rw [hbody] at hverifier
    obtain ⟨hlen, hnum⟩ := hsaved chain hchain
    obtain ⟨hvalue, hreturned⟩ := o.consistent.verify hkind
    obtain ⟨result, hresult⟩ := hreturned hcomplete
    obtain ⟨res', s'', hok, -, -, hreply⟩ :=
      tcnSSLCertCustomVerify_resumed hs alert (e := .succeed) holds rfl java
    obtain ⟨rfl, -⟩ := Prod.mk.inj (Except.ok.inj (hperform.symm.trans hok))
    refine ⟨.ok result, hresult, _, hreply.trans (by rw [if_pos hcomplete]), ?_⟩
    rw [(hvalue result hresult).2, hlen, hnum, hx509 hverifier]
    exact missingIssuer_reports result _ chain

end

/-! ## Whole runs -/

/-- Every verification shows the verifier the leaf, and reports a missing issuer
where it should, exactly if the verify depth is not zero. -/
theorem verifierSees_iff {hs : Handshake} {verifyDepth : Int} {chain : List (List Byte)}
    (hdepth : 0 ≤ verifyDepth) (hchain : hs.peerCertificates = some chain) (hne : chain ≠ [])
    (hcerts : ∀ cert ∈ chain, cert ≠ []) : VerifierSees hs verifyDepth chain ↔ 0 < verifyDepth := by
  have harray := getCerts_succeed hdepth hcerts
  have hiff := seesLeaf_iff hdepth hne
  constructor
  · rintro ⟨-, hopenssl⟩
    -- A direct call already shows the array.
    let s : Conn := .new ⟨Protocol.sslModeServer, false, some 0, none, none⟩ verifyDepth
    obtain ⟨ret, reported, array, hok, hsees, -⟩ := hopenssl true succeedJava 0 s rfl rfl
    obtain ⟨ret', reported', hok', -⟩ :=
      sslCertVerify_reports (s := s) true succeedJava hchain harray rfl
    have hcalled := hok.symm.trans hok'
    simp only [Except.ok.injEq, Prod.mk.injEq, Option.some.injEq] at hcalled
    rw [hcalled.2.2.1] at hsees
    exact hiff.mp hsees
  · intro hpos
    have hsees := hiff.mpr hpos
    constructor
    · intro alert ctx es
      have hes : Machine.Meets (sessionStep hs alert) (fun _ _ => True)
          (.start (.new ctx verifyDepth)) es := Machine.meets_of_forall fun _ _ => trivial
      have hrun := Machine.run_sat (F := NullCall ctx.certificateCallback)
        (Q := Shows hs alert verifyDepth chain)
        (I := fun s => VerifierTasks hs verifyDepth s.conn ∧
          s.conn.ctx.certificateCallback = ctx.certificateCallback)
        ?_ ⟨verifierTasks_new hs ctx verifyDepth, rfl⟩ hes
      · exact hrun.imp (fun _ hf => hf) fun _ _ ha => ha.2
      · rintro s ev ⟨hinv, hcallback⟩ -
        have hstep := hinv.perform alert ev
        rw [hcallback] at hstep
        cases hperform : perform hs alert s.conn ev with
        | error f =>
          rw [hperform] at hstep
          rw [sessionStep_error hperform]
          exact hstep
        | ok a =>
          obtain ⟨res, conn⟩ := a
          rw [hperform] at hstep
          rw [sessionStep_ok hperform]
          exact ⟨hstep, hinv.shows hstep.1 hperform hchain harray hsees⟩
    · rintro hasUnspecified java verifier s rfl hverifier
      obtain ⟨ret, reported, hok, hreports⟩ :=
        sslCertVerify_reports hasUnspecified java hchain harray hverifier
      exact ⟨ret, reported, _, hok, hsees, hreports⟩

/-- A chain of two certificates under a verify depth of one. -/
theorem verifierSees_one : VerifierSees twoCerts 1 [[48], [49]] :=
  (verifierSees_iff (by decide) rfl (by decide) (by decide)).mpr (by decide)

/-- A verify depth of zero hides the leaf from the verifier. -/
theorem verifierSees_zero : ¬ VerifierSees twoCerts 0 [[48], [49]] := by
  rintro ⟨-, hopenssl⟩
  obtain ⟨ret, reported, array, hok, hsees, -⟩ :=
    hopenssl true succeedJava 0 (.new ⟨Protocol.sslModeServer, false, some 0, none, none⟩ 0) rfl rfl
  cases hok
  exact hsees.nonempty rfl

end Tasks
