-- SUMMARY: Task mode and direct mode of certificate verification and selection, and when they agree.
import Tcnative.Tasks.Session

/-!
# Task mode and direct mode

With `use_tasks` a callback runs in three parts: it suspends, Java runs the task,
and it resumes. Without, it calls Java itself. The two agree unless the call ends
in a way that leaves the task incomplete.
-/

namespace Tasks
open CMem

/-! ## The two modes -/

def Conn.withTasks (useTasks : Bool) (s : Conn) : Conn := { s with ctx := { s.ctx with useTasks } }

/-- One invocation of a callback with `use_tasks` disabled. -/
def directly (callback : Conn → Except Fault (Result × Conn)) (s : Conn) : Except Fault Reply := do
  let (res, _) ← callback (s.withTasks false)
  return res.reply

/-- A callback with `use_tasks` enabled. If it suspends, the task that
`SSL.getTask` returns is run to its end and the callback is invoked again. -/
def throughTask (callback : Conn → Except Fault (Result × Conn)) (java : Java) (s : Conn) :
    Except Fault Reply := do
  let (res, s) ← callback (s.withTasks true)
  if res.reply.asksRetry = some true then
    match ← getTask s.store with
    | (none, _) => return res.reply
    | (some r, store) =>
      let (res, _) ← callback { s with store := store.edit r (·.run java .noop) }
      return res.reply
  else return res.reply

/-- The call of the verifier that a verification comes to, if it comes to one. -/
def verifierCall (hs : Handshake) (java : Java) (s : Conn) : Option (Except Thrown Int) := do
  let chain ← hs.peerCertificates
  let array ← getCerts .succeed s.verifyDepth chain
  let verifier ← s.ctx.verifier
  return java.verify verifier array hs.authenticationMethod

/-- The call of the certificate callback, unless it was cleared. -/
def callbackCall (hs : Handshake) (java : Java) (s : Conn) : Option (Except Thrown Unit) := do
  let callback ← s.ctx.certificateCallback
  return java.handle callback (s.types hs .succeed) (s.issuers hs .succeed)

/-! ## A suspension, the run of its task, and its resumption -/

/-- A new task is handed out, and run while it is in the slot. -/
theorem getTask_put (body : TaskBody) (java : Java) (st : TaskStore) :
    ∃ r store, getTask (st.put body) = .ok (some r, store) ∧
      ∃ p, (store.edit r (·.run java .noop)).Holds p r true
        ((TaskObject.new body).run java .noop) := by
  have holds := st.put_holds body
  have hconsumed := holds.consume
  exact ⟨_, _, holds.getTask_eq, st.blocks.length,
    ⟨hconsumed.slot, hconsumed.block, hconsumed.ref.update _⟩⟩

/-- A callback that decides without calling Java does so in both modes. -/
theorem throughTask_eq_directly {callback : Conn → Except Fault (Result × Conn)} {s : Conn}
    {reply : Reply} (hretry : reply.asksRetry = some false)
    (h : ∀ useTasks, callback (s.withTasks useTasks) = .ok (.of reply, s.withTasks useTasks))
    (java : Java) : throughTask callback java s = directly callback s := by
  simp [throughTask, directly, h, hretry, bind, Except.bind, pure, Except.pure]

/-- A callback that suspends in a new task replies what it replies on resuming. -/
theorem throughTask_suspended {callback : Conn → Except Fault (Result × Conn)} {s s' : Conn}
    {st : TaskStore} {res : Result} {body : TaskBody}
    (hfirst : callback (s.withTasks true) = .ok (res, s'))
    (hretry : res.reply.asksRetry = some true) (hstore : s'.store = st.put body) (java : Java) :
    ∃ p r store, store.Holds p r true ((TaskObject.new body).run java .noop) ∧
      ∀ res' s'', callback { s' with store } = .ok (res', s'') →
        throughTask callback java s = .ok res'.reply := by
  obtain ⟨r, store, hget, p, holds⟩ := getTask_put body java st
  refine ⟨p, r, _, holds, fun res' s'' hsecond => ?_⟩
  simp only [throughTask, hfirst, hretry, hstore, hget, hsecond, if_true, bind, Except.bind, pure,
    Except.pure]

/-! ## Certificate verification -/

section
variable {hs : Handshake} {java : Java} {s : Conn}

/-- A verification that comes to no call of the verifier. -/
theorem verify_noCall (alert : Int → UInt8) (hslot : s.store.sslTask = none)
    (hcall : verifierCall hs java s = none) :
    ∃ reply, reply.asksRetry = some false ∧
      ∀ useTasks, tcnSSLCertCustomVerify hs alert .succeed java (s.withTasks useTasks) =
        .ok (.of reply, s.withTasks useTasks) := by
  have hexit (result : Int) := asksRetry_verify alert result
  cases hchain : hs.peerCertificates with
  | none =>
    refine ⟨_, hexit x509VErrUnspecified, fun useTasks => ?_⟩
    simp only [tcnSSLCertCustomVerify, Conn.withTasks, hslot, hchain]
    rfl
  | some chain =>
    cases harray : getCerts .succeed s.verifyDepth chain with
    | none =>
      refine ⟨_, hexit x509VErrUnspecified, fun useTasks => ?_⟩
      simp only [tcnSSLCertCustomVerify, Conn.withTasks, hslot, hchain, harray]
      rfl
    | some array =>
      cases hverifier : s.ctx.verifier with
      | none =>
        refine ⟨_, hexit (missingIssuer x509VErrUnspecified array.length chain.length),
          fun useTasks => ?_⟩
        simp only [tcnSSLCertCustomVerify, Conn.withTasks, hslot, hchain, harray, hverifier]
        rfl
      | some verifier =>
        simp [verifierCall, hchain, harray, hverifier] at hcall

/-- The result that a verification makes of a direct call of the verifier. -/
def calledResult (len num : Int) : Except Thrown Int → Int
  | .error _ => x509VErrUnspecified
  | .ok result => missingIssuer result len num

/-- A verification that comes to a call of the verifier. -/
theorem verify_call (alert : Int → UInt8) (hslot : s.store.sslTask = none)
    {outcome : Except Thrown Int}
    (hcall : verifierCall hs java s = some outcome) :
    ∃ (chain array : List (List Byte)) (verifier : JObject),
      outcome = java.verify verifier array hs.authenticationMethod ∧
      tcnSSLCertCustomVerify hs alert .succeed java (s.withTasks true) =
        .ok (.of (AtComplete.retry.reply alert),
          { s.withTasks true with
            store := s.store.put
              (.certificateVerifierTask array hs.authenticationMethod verifier)
            taskArrayLen := array.length
            taskChainNum := chain.length }) ∧
      directly (tcnSSLCertCustomVerify hs alert .succeed java) s =
        .ok ((AtComplete.result (calledResult array.length chain.length outcome)).reply alert) := by
  simp only [verifierCall, Option.bind_eq_bind, Option.bind_eq_some_iff, Option.pure_def,
    Option.some.injEq] at hcall
  obtain ⟨chain, hchain, array, harray, verifier, hverifier, rfl⟩ := hcall
  refine ⟨chain, array, verifier, rfl, ?_, ?_⟩
  · simp only [tcnSSLCertCustomVerify, Conn.withTasks, hslot, hchain, harray, hverifier]
    rfl
  · simp only [directly, tcnSSLCertCustomVerify, Conn.withTasks, hslot, hchain, harray, hverifier]
    rfl

/-- The verifier task after its run. -/
theorem run_verifierTask (java : Java) (x509 : List (List Byte)) (authAlgorithm : String)
    (verifier : JObject) :
    let t := ((TaskObject.new (.certificateVerifierTask x509 authAlgorithm verifier)).run
      java .noop).task
    match java.verify verifier x509 authAlgorithm with
    | .ok result => t.complete = true ∧ t.returnValue = result
    | .error _ => t.complete = false := by
  intro t
  have ht : t = _ := TaskObject.run_task java .noop _
  rw [ht]
  simp only [TaskObject.new, SSLTask.new, SSLTask.run, SSLTask.runTask]
  cases java.verify verifier x509 authAlgorithm with
  | ok result => exact ⟨rfl, rfl⟩
  | error thrown => rfl

/-- The two modes of a verification agree if and only if the verifier does not
throw. A verifier that throws leaves its task incomplete. -/
theorem verify_agrees_iff (alert : Int → UInt8) (hslot : s.store.sslTask = none) :
    throughTask (tcnSSLCertCustomVerify hs alert .succeed java) java s =
        directly (tcnSSLCertCustomVerify hs alert .succeed java) s ↔
      ∀ thrown, verifierCall hs java s ≠ some (.error thrown) := by
  cases hcall : verifierCall hs java s with
  | none =>
    obtain ⟨reply, hretry, hdecided⟩ := verify_noCall alert hslot hcall
    exact iff_of_true (throughTask_eq_directly hretry hdecided java) (by simp)
  | some outcome =>
    obtain ⟨chain, array, verifier, houtcome, hsuspended, hdirect⟩ :=
      verify_call alert hslot hcall
    have hrun := run_verifierTask java array hs.authenticationMethod verifier
    rw [← houtcome] at hrun
    obtain ⟨p, r, store, holds, hthrough⟩ := throughTask_suspended hsuspended rfl rfl java
    obtain ⟨res, s', hok, -, -, hreply⟩ := tcnSSLCertCustomVerify_resumed hs alert
      (s := ⟨(s.withTasks true).ctx, s.verifyDepth, array.length, chain.length, store⟩)
      (e := .succeed) holds rfl java
    rw [hthrough res s' hok, hdirect, hreply, Except.ok.injEq]
    cases outcome with
    | ok result =>
      obtain ⟨hcomplete, hvalue⟩ := hrun
      refine iff_of_true ?_ (by simp)
      rw [hcomplete, if_pos rfl, hvalue]
      rfl
    -- The direct verdict never asks to retry, and an incomplete task always does.
    | error thrown =>
      refine iff_of_false ?_ (by simp)
      rw [hrun]
      intro heq
      have hretry := congrArg Reply.asksRetry heq
      rw [asksRetry_verify] at hretry
      cases hretry

/-! ## Certificate selection -/

/-- A certificate selection with `use_tasks` suspends. -/
theorem certificateCb_suspends (java : Java) (hslot : s.store.sslTask = none) :
    certificateCb hs .succeed java (s.withTasks true) =
      .ok (.of (.certificate (-1)),
        { s.withTasks true with
          store := s.store.put
            (.certificateCallbackTask (s.types hs .succeed) (s.issuers hs .succeed)
              s.ctx.certificateCallback) }) := by
  simp only [certificateCb, Conn.withTasks, hslot]
  rfl

/-- A certificate selection without `use_tasks` calls the callback. -/
theorem certificateCb_directly (hslot : s.store.sslTask = none) :
    directly (certificateCb hs .succeed java) s =
      match callbackCall hs java s with
      | none => .error .nullPointer
      | some (.ok ()) => .ok (.certificate 1)
      | some (.error _) => .ok (.certificate 0) := by
  have htypes : (s.withTasks false).types hs .succeed = s.types hs .succeed := rfl
  have hissuers : (s.withTasks false).issuers hs .succeed = s.issuers hs .succeed := rfl
  have hslot' : (s.withTasks false).store.sslTask = none := hslot
  have hcallback : (s.withTasks false).ctx.certificateCallback = s.ctx.certificateCallback := rfl
  simp only [directly, certificateCb, hslot', hcallback, htypes, hissuers, callbackCall]
  cases s.ctx.certificateCallback with
  | none => rfl
  | some callback =>
    simp only [Option.bind_eq_bind, Option.bind_some, Option.pure_def]
    generalize java.handle callback _ _ = outcome
    cases outcome with
    | ok _ => rfl
    | error _ => rfl

/-- The certificate task after its run. -/
theorem run_callbackTask (hs : Handshake) (java : Java) (s : Conn) :
    let body := TaskBody.certificateCallbackTask (s.types hs .succeed) (s.issuers hs .succeed)
      s.ctx.certificateCallback
    let t := ((TaskObject.new body).run java .noop).task
    match callbackCall hs java s with
    | some (.ok ()) => t.complete = true ∧ t.returnValue = 1
    | some (.error .error) => t.complete = false
    | some (.error .exception) | none => t.complete = true ∧ t.returnValue = 0 := by
  intro body t
  have ht : t = _ := TaskObject.run_task java .noop _
  rw [ht]
  simp only [body, TaskObject.new, SSLTask.new, SSLTask.run, SSLTask.runTask, callbackCall]
  cases s.ctx.certificateCallback with
  | none => exact ⟨rfl, rfl⟩
  | some callback =>
    simp only [Option.bind_eq_bind, Option.bind_some, Option.pure_def]
    generalize java.handle callback _ _ = outcome
    cases outcome with
    | ok _ => exact ⟨rfl, rfl⟩
    | error thrown =>
      cases thrown with
      | exception => exact ⟨rfl, rfl⟩
      | error => rfl

/-- The two modes of a certificate selection agree if and only if there is a
callback and it throws nothing but exceptions. -/
theorem select_agrees_iff (hslot : s.store.sslTask = none) :
    throughTask (certificateCb hs .succeed java) java s =
        directly (certificateCb hs .succeed java) s ↔
      ∃ outcome, callbackCall hs java s = some outcome ∧ outcome ≠ .error .error := by
  have hrun := run_callbackTask hs java s
  obtain ⟨p, r, store, holds, hthrough⟩ :=
    throughTask_suspended (certificateCb_suspends java hslot) rfl rfl java
  obtain ⟨res, s', hok, -, hreply⟩ := certificateCb_resumed hs
    (s := ⟨(s.withTasks true).ctx, s.verifyDepth, s.taskArrayLen, s.taskChainNum, store⟩)
    (e := .succeed) holds rfl java
  rw [hthrough res s' hok, certificateCb_directly hslot, hreply]
  cases hcall : callbackCall hs java s with
  -- The task reports a cleared callback as a failure, the direct call is made on NULL.
  | none => exact iff_of_false (by simp) (by simp)
  | some outcome =>
    rw [hcall] at hrun
    cases outcome with
    | ok _ =>
      obtain ⟨hcomplete, hvalue⟩ := hrun
      refine iff_of_true ?_ ⟨_, rfl, by simp⟩
      rw [hcomplete, if_pos rfl, hvalue]
    | error thrown =>
      cases thrown with
      | exception =>
        obtain ⟨hcomplete, hvalue⟩ := hrun
        refine iff_of_true ?_ ⟨_, rfl, by simp⟩
        rw [hcomplete, if_pos rfl, hvalue]
      | error =>
        refine iff_of_false ?_ (by simp)
        rw [hrun]
        simp

end

/-! ## Both callbacks -/

/-- Where no task is pending, the two modes of both callbacks agree unless the
verifier throws, or the certificate callback throws what is no exception. -/
theorem modes_agree_iff (hs : Handshake) (alert : Int → UInt8) (java : Java) {s : Conn}
    (hslot : s.store.sslTask = none) :
    (throughTask (tcnSSLCertCustomVerify hs alert .succeed java) java s =
          directly (tcnSSLCertCustomVerify hs alert .succeed java) s ↔
        ∀ thrown, verifierCall hs java s ≠ some (.error thrown)) ∧
      (throughTask (certificateCb hs .succeed java) java s =
          directly (certificateCb hs .succeed java) s ↔
        ∃ outcome, callbackCall hs java s = some outcome ∧ outcome ≠ .error .error) :=
  ⟨verify_agrees_iff alert hslot, select_agrees_iff hslot⟩

/-- The verification of a peer with two certificates. -/
def verifySample (java : Java) : Conn → Except Fault (Result × Conn) :=
  tcnSSLCertCustomVerify twoCerts (fun _ => 80) .succeed java

theorem modes_agree_succeeding :
    throughTask (verifySample succeedJava) succeedJava (.new taskCtx 1) =
        directly (verifySample succeedJava) (.new taskCtx 1) ∧
      throughTask (certificateCb twoCerts .succeed succeedJava) succeedJava (.new taskCtx 1) =
        directly (certificateCb twoCerts .succeed succeedJava) (.new taskCtx 1) :=
  have hagree := modes_agree_iff twoCerts (fun _ => 80) succeedJava (s := .new taskCtx 1) rfl
  ⟨hagree.1.mpr (fun _ h => by cases h), hagree.2.mpr ⟨.ok (), rfl, by simp⟩⟩

/-- A verifier that throws is rejected without tasks. With them the verification
asks to retry again, since its task stays incomplete. -/
theorem modes_disagree_throwing :
    directly (verifySample (throwJava .exception)) (.new taskCtx 1) =
        .ok (.verify .invalid (some 80)) ∧
      throughTask (verifySample (throwJava .exception)) (throwJava .exception) (.new taskCtx 1) =
        .ok (.verify .retry none) ∧
      throughTask (verifySample (throwJava .exception)) (throwJava .exception) (.new taskCtx 1) ≠
        directly (verifySample (throwJava .exception)) (.new taskCtx 1) := by
  refine ⟨rfl, rfl, fun heq => ?_⟩
  have hverdicts : (.ok (.verify .retry none) : Except Fault Reply) =
      .ok (.verify .invalid (some 80)) := heq
  cases hverdicts

end Tasks
