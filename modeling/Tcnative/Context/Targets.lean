-- SUMMARY: Which Java objects the native callbacks of a handshake call, over any sequence of events on a context.
import Tcnative.Context.Connections

/-!
# Targets of native callbacks

A callback that the library looks up on the context is installed exactly while
its slot is filled. One that was copied into a connection stays there when the
slot is cleared, so it has to look at the slot before it calls Java.
-/

namespace Context
open CMem Jni Tls
open Tasks (JniCalls Handshake getCerts)

/-! ## Safe invocations -/

/-- The target of an invocation is a reference that is not deleted. -/
def Invocation.Safe (c : TcnSslCtxt) : Invocation → Prop
  | .none => True
  | .call target _ | .task target => ∃ r v, target = some r ∧ c.refs.Live r v

/-- A step whose callback, if it runs one, calls no missing object. -/
def Safe (x : Machine.Entry Session Event Reply) : Prop :=
  match x.ret with
  | .outcome _ => True
  | .invocation i => i.Safe x.pre.ctxt

/-- A filled slot is a safe target, and an empty one is not. -/
theorem Invocation.On.safe_iff {b : Build} {c : TcnSslCtxt} (h : Owned b c) {k : SlotName}
    {i : Invocation} (hon : i.On c k) :
    i.Safe c ↔ (i ≠ .none → (c.slots k).object.isSome = true) := by
  have hslot : (∃ r v, (c.slots k).object = some r ∧ c.refs.Live r v) ↔
      (c.slots k).object.isSome = true := by
    constructor
    · rintro ⟨r, v, hr, -⟩
      rw [hr]
      rfl
    · intro hsome
      obtain ⟨r, hr⟩ := Option.isSome_iff_exists.mp hsome
      obtain ⟨v, hlive⟩ := h.refs.live k r hr
      exact ⟨r, v, hr, hlive⟩
  cases hon with
  | none => simp [Invocation.Safe]
  | call method =>
    rw [Invocation.Safe, hslot]
    simp
  | task =>
    rw [Invocation.Safe, hslot]
    simp

/-! ## The callbacks -/

/-- The callbacks that are copied into an `SSL` and do not look at their slot:
`certificate_cb`, and `SSL_cert_verify` where it is copied. -/
def Build.unguarded (b : Build) : Callback → Bool
  | .certificate => true
  | .verify _ => !b.library.isBoringSSL && b.copiesCertVerify
  | _ => false

/-- Whether one of these gets to the point where it calls Java, or creates a task
for it. -/
def Callback.reaches (e : JniCalls) (c : TcnSslCtxt) (s : Ssl) : Callback → Bool
  | .certificate =>
    e.getEnv && !s.sslTask && (!c.useTasks || (e.newLocalFromWeak && e.newObject))
  | .verify hs =>
    e.getEnv && (hs.peerCertificates.bind (getCerts e s.verifyConfig.verifyDepth)).isSome &&
      e.newStringUTF
  | _ => false

section
variable (b : Build) (e : JniCalls) (complete : Bool) (c : TcnSslCtxt) (s : Ssl)

/-- `tcn_SSL_cert_custom_verify` checks that there is a verifier. -/
theorem tcnSSLCertCustomVerify_none (hs : Handshake) (h : (c.slots .verifier).object = none) :
    (tcnSSLCertCustomVerify hs e complete c s).1 = .none := by
  unfold tcnSSLCertCustomVerify
  split
  · rfl
  split
  · rfl
  split
  · rfl
  split
  · rfl
  · rw [h]
    rfl

/-- So do the private key functions, for their method. -/
theorem tcnPrivateKeyJava_none (i : Nat) (h : (c.slots .sslPrivateKeyMethod).object = none) :
    (tcnPrivateKeyJava i e c s).1 = .none := by
  rw [tcnPrivateKeyJava, h]
  rfl

theorem tcnPrivateKeyCompleteJava_none : (tcnPrivateKeyCompleteJava e complete c s).1 = .none := by
  unfold tcnPrivateKeyCompleteJava
  split
  · rfl
  · rfl

/-- Every other callback finds its slot filled, or looks before it calls Java. -/
theorem Callback.run_filled (h : Owned b c) (k : Callback) (hk : b.unguarded k = false)
    (hruns : b.runs c s k.slot = true) (hran : (k.run b e complete c s).1 ≠ .none) :
    (c.slots k.slot).object.isSome = true := by
  -- What is looked up on the context is there for a filled slot only.
  have hlive : b.copies k.slot = false → (c.slots k.slot).object.isSome = true := by
    intro hcopies
    rw [Build.runs, hcopies, if_neg Bool.false_ne_true, h.installed] at hruns
    exact hruns
  cases k with
  | certificate => cases hk
  | verify hs =>
    cases hlib : b.library.isBoringSSL with
    | false =>
      simp only [Build.unguarded, hlib, Bool.not_false, Bool.true_and] at hk
      exact hlive (by simp [Callback.slot, Build.copies, hlib, hk])
    | true =>
      rw [Callback.run, if_pos hlib] at hran
      exact Option.isSome_iff_ne_none.mpr fun hslot =>
        hran (tcnSSLCertCustomVerify_none e complete c s hs hslot)
  | privateKeySign =>
    exact Option.isSome_iff_ne_none.mpr fun hslot => hran (tcnPrivateKeyJava_none e c s 0 hslot)
  | privateKeyDecrypt =>
    exact Option.isSome_iff_ne_none.mpr fun hslot => hran (tcnPrivateKeyJava_none e c s 1 hslot)
  | privateKeyComplete => exact absurd (tcnPrivateKeyCompleteJava_none e complete c s) hran
  | certRequested => exact hlive rfl
  | newSession => exact hlive rfl
  | getSession => exact hlive rfl
  | servername serverName => exact hlive rfl
  | keylog line => exact hlive rfl
  | zlibCompress => exact hlive rfl
  | zlibDecompress => exact hlive rfl
  | brotliCompress => exact hlive rfl
  | brotliDecompress => exact hlive rfl
  | zstdCompress => exact hlive rfl
  | zstdDecompress => exact hlive rfl

/-- The callbacks without a guard use their slot whenever they get that far. -/
theorem Callback.run_reaches (k : Callback) (hk : b.unguarded k = true) :
    (k.run b e complete c s).1 ≠ .none ↔ k.reaches e c s = true := by
  cases k with
  | certificate =>
    simp only [Callback.run, certificateCb, Callback.reaches, Ssl.invoke, Ssl.suspend, Ssl.poll]
    cases e.getEnv <;> cases s.sslTask <;> cases c.useTasks <;> cases e.newLocalFromWeak <;>
      cases e.newObject <;> simp
  | verify hs =>
    simp only [Build.unguarded, Bool.and_eq_true, Bool.not_eq_true'] at hk
    simp only [Callback.run, hk.1, Bool.false_eq_true, if_false, sslCertVerify, Callback.reaches]
    cases e.getEnv with
    | false => simp
    | true =>
      cases hs.peerCertificates with
      | none => simp
      | some chain =>
        cases hcerts : getCerts e s.verifyConfig.verifyDepth chain with
        | none => simp [hcerts]
        | some array => cases e.newStringUTF <;> simp [hcerts]
  | _ => cases hk

end

/-! ## The callbacks in detail -/

/-- A connection of the detailed callbacks that sees the same context, and has no
task stored. -/
structure Sees (conn : Tasks.Conn) (c : TcnSslCtxt) (s : Ssl) : Prop where
  useTasks : conn.ctx.useTasks = c.useTasks
  verifier : conn.ctx.verifier = none ↔ (c.slots .verifier).object = none
  certificateCallback :
    conn.ctx.certificateCallback = none ↔ (c.slots .certificateCallback).object = none
  verifyDepth : conn.verifyDepth = s.verifyConfig.verifyDepth
  stored : conn.store.sslTask = none
  sslTask : s.sslTask = false

section
variable {conn : Tasks.Conn} {c : TcnSslCtxt} {s : Ssl}

/-- `certificate_cb` faults on NULL exactly where it calls a method of NULL here. -/
theorem Sees.certificateCb_iff (h : Sees conn c s) (hs : Handshake) (e : JniCalls)
    (java : Tasks.Java) (complete : Bool) :
    Tasks.certificateCb hs e java conn = .error .nullPointer ↔
      ∃ method, (certificateCb e complete c s).1 = .call none method := by
  simp only [Tasks.certificateCb, h.stored, h.useTasks, certificateCb, h.sslTask, Ssl.invoke]
  cases e.getEnv with
  | false => simp
  | true =>
    cases c.useTasks with
    | true =>
      simp only [Ssl.suspend]
      repeat' split
      all_goals simp_all
    | false =>
      cases hconn : conn.ctx.certificateCallback with
      | none =>
        simp [h.certificateCallback.mp hconn]
      | some callback =>
        have hslot : (c.slots .certificateCallback).object ≠ none := by
          intro hnone
          cases hconn.symm.trans (h.certificateCallback.mpr hnone)
        simp only [Bool.not_true, Bool.false_eq_true, if_false, Invocation.call.injEq]
        split
        all_goals simp [hslot]

/-- So does `SSL_cert_verify`. -/
theorem Sees.sslCertVerify_iff (h : Sees conn c s) (hasUnspecified : Bool) (hs : Handshake)
    (e : JniCalls) (java : Tasks.Java) :
    Tasks.sslCertVerify hasUnspecified hs e java conn = .error .nullPointer ↔
      ∃ method, sslCertVerify hs e c s = .call none method := by
  simp only [Tasks.sslCertVerify, sslCertVerify, h.verifyDepth]
  cases e.getEnv with
  | false => simp
  | true =>
    cases hs.peerCertificates with
    | none => simp
    | some chain =>
      cases hcerts : getCerts e s.verifyConfig.verifyDepth chain with
      | none => simp [hcerts]
      | some array =>
        cases e.newStringUTF with
        | false => simp [hcerts]
        | true =>
          cases hconn : conn.ctx.verifier with
          | none =>
            simp [hcerts, h.verifier.mp hconn]
          | some verifier =>
            have hslot : (c.slots .verifier).object ≠ none := by
              intro hnone
              cases hconn.symm.trans (h.verifier.mpr hnone)
            simp [hcerts, hslot]

end

/-! ## Runs -/

/-- The callback of a slot is in use on an `SSL`, and the slot was cleared. -/
def Ssl.Stale (c : TcnSslCtxt) (s : Ssl) (k : SlotName) : Prop :=
  s.installed k = true ∧ (c.slots k).object = none

/-- No callback without a guard that the `SSL` still has gets to its Java call
behind the time when its slot was cleared. -/
def NotStale (b : Build) (s : Session) (event : Event) : Prop :=
  ∀ i k e complete ssl, event = .callback i k e complete → s.ssl? i = some ssl →
    b.unguarded k = true → k.reaches e s.ctxt ssl = true → ¬ ssl.Stale s.ctxt k.slot

/-- A callback without a guard belongs to the `SSL`. -/
theorem Build.unguarded_runs {b : Build} {k : Callback} (hk : b.unguarded k = true)
    (c : TcnSslCtxt) (s : Ssl) : b.runs c s k.slot = s.installed k.slot := by
  have hcopies : b.copies k.slot = true := by
    cases k with
    | certificate => rfl
    | verify hs =>
      simp only [Build.unguarded, Bool.and_eq_true] at hk
      simp [Callback.slot, Build.copies, hk.2]
    | _ => cases hk
  rw [Build.runs, if_pos hcopies]

theorem Callback.run_safe_iff {b : Build} {c : TcnSslCtxt} (h : Owned b c) (e : JniCalls)
    (complete : Bool) (s : Ssl) (k : Callback) (hruns : b.runs c s k.slot = true) :
    (k.run b e complete c s).1.Safe c ↔
      (b.unguarded k = true → k.reaches e c s = true → ¬ s.Stale c k.slot) := by
  rw [(k.run_ran b e complete c s).on.safe_iff h]
  cases hk : b.unguarded k with
  | false =>
    have hfilled := k.run_filled b e complete c s h hk hruns
    exact ⟨fun _ hcontra => absurd hcontra Bool.false_ne_true, fun _ => hfilled⟩
  | true =>
    have hinstalled : s.installed k.slot = true := by
      rw [← Build.unguarded_runs hk c s]
      exact hruns
    rw [k.run_reaches b e complete c s hk]
    simp [Ssl.Stale, hinstalled, Option.isSome_iff_ne_none]

/-- Only a callback has to find its slot filled. -/
theorem notStale_of_other {b : Build} {s : Session} {event : Event}
    (h : ∀ i k e complete, event ≠ .callback i k e complete) : NotStale b s event :=
  fun i k e complete _ heq => absurd heq (h i k e complete)

theorem Stepped.safe_iff {b : Build} {s s' : Session} {event : Event} {r : Reply}
    (h : Stepped b s event r s') (hs : Owned b s.ctxt) :
    Safe ⟨s, event, r, s'⟩ ↔ NotStale b s event := by
  cases h with
  | call _ => exact iff_of_true True.intro (notStale_of_other (by simp))
  | setVerify => exact iff_of_true True.intro (notStale_of_other (by simp))
  | setUseTasks => exact iff_of_true True.intro (notStale_of_other (by simp))
  | notCreated _ => exact iff_of_true True.intro (notStale_of_other (by simp))
  | newSSL => exact iff_of_true True.intro (notStale_of_other (by simp))
  | sslSetVerify _ => exact iff_of_true True.intro (notStale_of_other (by simp))
  | noSsl _ => exact iff_of_true True.intro (notStale_of_other (by simp))
  | freeSSL => exact iff_of_true True.intro (notStale_of_other (by simp))
  | ran hi hruns =>
    rename_i i k e complete ssl
    have hcondition : NotStale b s (.callback i k e complete) ↔
        (b.unguarded k = true → k.reaches e s.ctxt ssl = true → ¬ ssl.Stale s.ctxt k.slot) := by
      refine ⟨fun hall => hall i k e complete ssl rfl hi, ?_⟩
      rintro hone j k' e' complete' ssl' heq hj
      cases heq
      cases hi.symm.trans hj
      exact hone
    rw [hcondition]
    exact k.run_safe_iff hs e complete ssl hruns
  | notInstalled hidle =>
    refine iff_of_true True.intro ?_
    rintro j k' e' complete' ssl heq hj hk _ hstale
    cases heq
    have hruns := Build.unguarded_runs hk s.ctxt ssl
    rw [hidle ssl hj, hstale.1] at hruns
    cases hruns

/-- Every Java call of a native callback, and every task that it creates, has a
live target exactly if no handshake gets to the Java call of a `certificate_cb`,
or of a copied `SSL_cert_verify`, that its `SSL` still has behind the time when
the object was taken from the context. -/
theorem contextRun_safe_iff (b : Build) (es : List Event) :
    Machine.Ends (contextStep b) (fun t _ => ∀ x ∈ t, Safe x) .start es ↔
      Machine.Meets (contextStep b) (NotStale b) .start es := by
  refine Machine.ends_iff_meets (I := fun s => Owned b s.ctxt) ?_ (make_owned b) es
  intro s event hs
  obtain ⟨r, s', hok⟩ := contextStep_ok hs event
  have hstepped := contextStep_stepped hok
  exact ⟨r, s', hok, hstepped.owned hs, hstepped.safe_iff hs⟩

/-- A handshake on an `SSL` whose certificate callback was taken from the
context: `certificate_cb` calls a method of NULL. -/
theorem contextRun_nullCall :
    ¬ Machine.Ends (contextStep ⟨.boringssl, true, false, ""⟩) (fun t _ => ∀ x ∈ t, Safe x) .start
      [.call (.setCertificateCallback (some 7) .succeed), .newSSL true true,
        .call (.setCertificateCallback none .succeed),
        .callback 0 .certificate .succeed false] := by
  rw [Machine.ends_of_run rfl]
  intro hsafe
  obtain ⟨r, v, htarget, -⟩ := hsafe _ (List.mem_of_getElem? (i := 3) rfl)
  cases htarget

end Context
