-- SUMMARY: The Java task objects: what running one does, and which fields carry its outcome to native code.
import Tcnative.Base.Memory

/-!
# Java tasks

`SSLTask` and its subclasses. Native code creates a task, Java runs it, and
native code reads its fields later. What the user's verifier, callback and
private key method do is a parameter.
-/

namespace Tasks

/-- A reference to a Java object. -/
abbrev JObject := Nat

/-- A `Throwable`: an `Exception` or not. The catch clauses tell them apart. -/
inductive Thrown where
  | exception
  | error
  deriving DecidableEq

/-- A call of a `ResultCallback<byte[]>`. The result may be `null`. -/
inductive Notification where
  | onSuccess (result : Option (List Byte))
  | onError
  deriving DecidableEq

/-- What the user's objects do when they are called. A private key method
notifies its callback any number of times before it returns or throws. -/
structure Java where
  verify : JObject → List (List Byte) → String → Except Thrown Int
  handle : JObject → Option (List Byte) → Option (List (List Byte)) → Except Thrown Unit
  sign : JObject → UInt16 → List Byte → List Notification
  decrypt : JObject → List Byte → List Notification

/-! ## `AsyncSSLPrivateKeyMethodAdapter` -/

/-- `SSLPrivateKeyMethod`. -/
structure SSLPrivateKeyMethod where
  sign : UInt16 → List Byte → Except Thrown (Option (List Byte))
  decrypt : List Byte → Except Thrown (Option (List Byte))

/-- The part that both methods of `AsyncSSLPrivateKeyMethodAdapter` share. -/
def notifyResult : Except Thrown (Option (List Byte)) → List Notification
  -- A null result counts as a success here.
  | .ok result => [.onSuccess result]
  | .error _ => [.onError]

/-- `AsyncSSLPrivateKeyMethodAdapter.sign`. -/
def SSLPrivateKeyMethod.adapterSign (method : SSLPrivateKeyMethod) (signatureAlgorithm : UInt16)
    (input : List Byte) : List Notification :=
  notifyResult (method.sign signatureAlgorithm input)

/-- `AsyncSSLPrivateKeyMethodAdapter.decrypt`. -/
def SSLPrivateKeyMethod.adapterDecrypt (method : SSLPrivateKeyMethod) (input : List Byte) :
    List Notification :=
  notifyResult (method.decrypt input)

/-! ## `SSLTask` -/

/-- The native callback that a task belongs to. -/
inductive Kind where
  | verify
  | certificate
  | sign
  | decrypt
  deriving DecidableEq

/-- The subclass of a task with its final fields. -/
inductive TaskBody where
  | certificateVerifierTask (x509 : List (List Byte)) (authAlgorithm : String) (verifier : JObject)
  | certificateCallbackTask (keyTypeBytes : Option (List Byte))
      (asn1DerEncodedPrincipals : Option (List (List Byte))) (callback : Option JObject)
  | sslPrivateKeyMethodSignTask (signatureAlgorithm : UInt16) (digest : List Byte)
      (method : JObject)
  | sslPrivateKeyMethodDecryptTask (input : List Byte) (method : JObject)
  deriving DecidableEq

def TaskBody.kind : TaskBody → Kind
  | .certificateVerifierTask _ _ _ => .verify
  | .certificateCallbackTask _ _ _ => .certificate
  | .sslPrivateKeyMethodSignTask _ _ _ => .sign
  | .sslPrivateKeyMethodDecryptTask _ _ => .decrypt

/-- The subclasses of `SSLPrivateKeyMethodTask`. -/
def Kind.IsPrivateKey (k : Kind) : Prop := k = .sign ∨ k = .decrypt

instance (k : Kind) : Decidable k.IsPrivateKey := inferInstanceAs (Decidable (_ ∨ _))

/-- The argument of `SSLTask.run(Runnable)`. -/
inductive Runnable where
  | noop
  | completeCallback (id : Nat)
  deriving DecidableEq

/-- The fields of an `SSLTask`, with `resultBytes` of `SSLPrivateKeyMethodTask`
and the `completeCallback` that the `TaskCallback` of the first `run` holds. -/
structure SSLTask where
  body : TaskBody
  returnValue : Int
  complete : Bool
  didRun : Bool
  resultBytes : Option (List Byte)
  completeCallback : Option Runnable
  deriving DecidableEq

/-- A task as its constructor leaves it. -/
def SSLTask.new (body : TaskBody) : SSLTask := ⟨body, 0, false, false, none, none⟩

/-- `TaskCallback.onResult`. Returns the task and the `completeCallback`s that
run. -/
def SSLTask.onResult (t : SSLTask) (result : Int) : SSLTask × List Runnable :=
  ({ t with returnValue := result, complete := true }, t.completeCallback.toList)

/-- `SSLPrivateKeyMethodTask.EMPTY`. -/
def EMPTY : List Byte := []

/-- The `ResultCallback` that `SSLPrivateKeyMethodTask.runTask` passes on. -/
def SSLTask.notify (t : SSLTask) : Notification → SSLTask × List Runnable
  | .onSuccess result => { t with resultBytes := result }.onResult 1
  | .onError => { t with resultBytes := some EMPTY }.onResult 0

def SSLTask.notifyAll (t : SSLTask) : List Notification → SSLTask × List Runnable
  | [] => (t, [])
  | n :: ns =>
    let (t', ran) := t.notify n
    let (t'', ran') := t'.notifyAll ns
    (t'', ran ++ ran')

/-- `runTask` of the subclasses. -/
def SSLTask.runTask (java : Java) (t : SSLTask) : SSLTask × List Runnable :=
  match t.body with
  | .certificateVerifierTask x509 authAlgorithm verifier =>
    match java.verify verifier x509 authAlgorithm with
    -- There is no catch clause: a verifier that throws leaves the task incomplete.
    | .ok result => t.onResult result
    | .error _ => (t, [])
  | .certificateCallbackTask keyTypeBytes asn1DerEncodedPrincipals callback =>
    match callback with
    -- A NullPointerException, which the catch clause covers.
    | none => t.onResult 0
    | some callback =>
      match java.handle callback keyTypeBytes asn1DerEncodedPrincipals with
      | .ok () => t.onResult 1
      -- The catch clause covers exceptions only.
      | .error .exception => t.onResult 0
      | .error .error => (t, [])
  | .sslPrivateKeyMethodSignTask signatureAlgorithm digest method =>
    t.notifyAll (java.sign method signatureAlgorithm digest)
  | .sslPrivateKeyMethodDecryptTask input method => t.notifyAll (java.decrypt method input)

/-- `SSLTask.run(Runnable)`. -/
def SSLTask.run (java : Java) (completeCallback : Runnable) (t : SSLTask) :
    SSLTask × List Runnable :=
  if !t.didRun then
    { t with didRun := true, completeCallback := some completeCallback }.runTask java
  else (t, [completeCallback])

/-! ## What the steps of a task do to its fields -/

/-- What the `ResultCallback` stores for a notification. -/
def Notification.resultBytes : Notification → Option (List Byte)
  | .onSuccess result => result
  | .onError => some EMPTY

theorem SSLTask.notify_fields (t : SSLTask) (n : Notification) :
    (t.notify n).1.body = t.body ∧ (t.notify n).1.didRun = t.didRun ∧
      (t.notify n).1.complete = true ∧ (t.notify n).1.resultBytes = n.resultBytes := by
  cases n <;> exact ⟨rfl, rfl, rfl, rfl⟩

theorem SSLTask.notifyAll_frame (t : SSLTask) (ns : List Notification) :
    (t.notifyAll ns).1.body = t.body ∧ (t.notifyAll ns).1.didRun = t.didRun := by
  induction ns generalizing t with
  | nil => exact ⟨rfl, rfl⟩
  | cons n ns ih =>
    obtain ⟨hbody, hdidRun, -, -⟩ := t.notify_fields n
    obtain ⟨hbody', hdidRun'⟩ := ih (t.notify n).1
    exact ⟨hbody'.trans hbody, hdidRun'.trans hdidRun⟩

/-- The last of several notifications decides the fields. -/
theorem SSLTask.notifyAll_last (t : SSLTask) (ns : List Notification) :
    (ns.getLast? = none → t.notifyAll ns = (t, [])) ∧
      ∀ n, ns.getLast? = some n →
        (t.notifyAll ns).1.complete = true ∧ (t.notifyAll ns).1.resultBytes = n.resultBytes := by
  induction ns generalizing t with
  | nil => exact ⟨fun _ => rfl, fun n hn => by cases hn⟩
  -- A notification overwrites what the ones before it stored.
  | cons m ns ih =>
    refine ⟨fun h => by simp at h, fun n hn => ?_⟩
    obtain ⟨hnone, hsome⟩ := ih (t.notify m).1
    cases hlast : ns.getLast? with
    | none =>
      obtain rfl : m = n := by simpa [List.getLast?_cons, hlast] using hn
      obtain ⟨-, -, hcomplete, hbytes⟩ := t.notify_fields m
      simp only [notifyAll, hnone hlast]
      exact ⟨hcomplete, hbytes⟩
    | some n' =>
      obtain rfl : n' = n := by simpa [List.getLast?_cons, hlast] using hn
      exact hsome n' hlast

theorem SSLTask.runTask_frame (java : Java) (t : SSLTask) :
    (t.runTask java).1.body = t.body ∧ (t.runTask java).1.didRun = t.didRun := by
  unfold runTask
  split
  · split <;> exact ⟨rfl, rfl⟩
  · split
    · exact ⟨rfl, rfl⟩
    · split <;> exact ⟨rfl, rfl⟩
  · exact t.notifyAll_frame _
  · exact t.notifyAll_frame _

theorem SSLTask.run_body (java : Java) (completeCallback : Runnable) (t : SSLTask) :
    (t.run java completeCallback).1.body = t.body := by
  unfold run
  split
  · exact (runTask_frame java _).1
  · rfl

theorem SSLTask.run_didRun (java : Java) (completeCallback : Runnable) (t : SSLTask) :
    (t.run java completeCallback).1.didRun = true := by
  unfold run
  split
  · exact (runTask_frame java _).2
  · rename_i h
    simpa using h

/-! ## Task objects with their history -/

/-- The notifications that the private key method of a task issues while it runs. -/
def TaskBody.reports (java : Java) : TaskBody → List Notification
  | .sslPrivateKeyMethodSignTask signatureAlgorithm digest method =>
    java.sign method signatureAlgorithm digest
  | .sslPrivateKeyMethodDecryptTask input method => java.decrypt method input
  | _ => []

/-- The outcome of the verifier call of a task. -/
def TaskBody.verifies (java : Java) : TaskBody → Option (Except Thrown Int)
  | .certificateVerifierTask x509 authAlgorithm verifier =>
    some (java.verify verifier x509 authAlgorithm)
  | _ => none

/-- The fields of a task agree with what the user's objects did for it. -/
structure Consistent (t : SSLTask) (reported : List Notification)
    (verified : Option (Except Thrown Int)) : Prop where
  notRun : t.didRun = false → reported = [] ∧ verified = none ∧ t.complete = false
  verify : t.body.kind = .verify →
    (∀ r, verified = some (.ok r) → t.complete = true ∧ t.returnValue = r) ∧
      (t.complete = true → ∃ r, verified = some (.ok r))
  certificate : t.body.kind = .certificate → t.complete = true →
    t.returnValue = 0 ∨ t.returnValue = 1
  privateKey : t.body.kind.IsPrivateKey →
    (reported.getLast? = none → t.complete = false) ∧
      ∀ n, reported.getLast? = some n → t.complete = true ∧ t.resultBytes = n.resultBytes

/-- A task object. Its history, which is no field of the class, records what the
private key method reported and what the verifier did. -/
structure TaskObject where
  task : SSLTask
  reported : List Notification
  verified : Option (Except Thrown Int)
  consistent : Consistent task reported verified

theorem consistent_new (body : TaskBody) : Consistent (.new body) [] none where
  notRun _ := ⟨rfl, rfl, rfl⟩
  verify _ := by
    constructor
    · intro r h
      cases h
    · intro h
      cases h
  certificate _ h := by cases h
  privateKey _ := by
    constructor
    · intro _
      rfl
    · intro n h
      cases h

/-- A verifier task is complete exactly if the verifier returned. -/
theorem SSLTask.runTask_verify {t : SSLTask} (hcomplete : t.complete = false)
    (hkind : t.body.kind = .verify) (java : Java) :
    (∀ r, t.body.verifies java = some (.ok r) →
      (t.runTask java).1.complete = true ∧ (t.runTask java).1.returnValue = r) ∧
      ((t.runTask java).1.complete = true → ∃ r, t.body.verifies java = some (.ok r)) := by
  cases hb : t.body with
  | certificateVerifierTask x509 authAlgorithm verifier =>
    simp only [runTask, hb, TaskBody.verifies]
    cases java.verify verifier x509 authAlgorithm with
    | ok r =>
      refine ⟨?_, fun _ => ⟨r, rfl⟩⟩
      rintro r' ⟨⟩
      exact ⟨rfl, rfl⟩
    | error thrown =>
      refine ⟨fun r hr => (by cases hr), fun hc => ?_⟩
      exact absurd (hcomplete.symm.trans hc) (by decide)
  | certificateCallbackTask _ _ _ => rw [hb] at hkind; cases hkind
  | sslPrivateKeyMethodSignTask _ _ _ => rw [hb] at hkind; cases hkind
  | sslPrivateKeyMethodDecryptTask _ _ => rw [hb] at hkind; cases hkind

/-- A certificate task is only completed with 0 or 1. -/
theorem SSLTask.runTask_certificate {t : SSLTask} (hcomplete : t.complete = false)
    (hkind : t.body.kind = .certificate) (java : Java) :
    (t.runTask java).1.complete = true →
      (t.runTask java).1.returnValue = 0 ∨ (t.runTask java).1.returnValue = 1 := by
  cases hb : t.body with
  | certificateCallbackTask keyTypeBytes asn1DerEncodedPrincipals callback =>
    simp only [runTask, hb]
    cases callback with
    | none => exact fun _ => .inl rfl
    | some callback =>
      simp only
      split
      · exact fun _ => .inr rfl
      · exact fun _ => .inl rfl
      · intro hc
        exact absurd (hcomplete.symm.trans hc) (by decide)
  | certificateVerifierTask _ _ _ => rw [hb] at hkind; cases hkind
  | sslPrivateKeyMethodSignTask _ _ _ => rw [hb] at hkind; cases hkind
  | sslPrivateKeyMethodDecryptTask _ _ => rw [hb] at hkind; cases hkind

/-- A private key task stores what its method reports while it runs. -/
theorem SSLTask.runTask_privateKey {t : SSLTask} (hkind : t.body.kind.IsPrivateKey) (java : Java) :
    t.runTask java = t.notifyAll (t.body.reports java) := by
  cases hb : t.body with
  | certificateVerifierTask _ _ _ => simp [hb, TaskBody.kind, Kind.IsPrivateKey] at hkind
  | certificateCallbackTask _ _ _ => simp [hb, TaskBody.kind, Kind.IsPrivateKey] at hkind
  | sslPrivateKeyMethodSignTask _ _ _ => simp only [runTask, hb, TaskBody.reports]
  | sslPrivateKeyMethodDecryptTask _ _ => simp only [runTask, hb, TaskBody.reports]

/-- The first run of a task calls `runTask`. -/
theorem SSLTask.run_first {t : SSLTask} (h : t.didRun = false) (java : Java)
    (completeCallback : Runnable) :
    ∃ u : SSLTask, t.run java completeCallback = u.runTask java ∧ u.body = t.body ∧
      u.complete = t.complete := by
  refine ⟨{ t with didRun := true, completeCallback := some completeCallback }, ?_, rfl, rfl⟩
  simp only [run, h, Bool.not_false, if_true]

/-- The first run of a task. -/
theorem Consistent.runTask {t : SSLTask} {reported : List Notification}
    {verified : Option (Except Thrown Int)} (h : Consistent t reported verified)
    (hdidRun : t.didRun = false) (java : Java) (completeCallback : Runnable) :
    Consistent (t.run java completeCallback).1 (reported ++ t.body.reports java)
      (t.body.verifies java) := by
  obtain ⟨rfl, -, hcomplete⟩ := h.notRun hdidRun
  have hran := t.run_didRun java completeCallback
  have hbody := t.run_body java completeCallback
  obtain ⟨u, hrun, hu, hucomplete⟩ := SSLTask.run_first hdidRun java completeCallback
  rw [hcomplete] at hucomplete
  rw [hrun, ← hu] at hbody
  rw [hrun] at hran
  rw [hrun, ← hu]
  refine ⟨?_, ?_, ?_, ?_⟩
  · intro hnot
    rw [hran] at hnot
    cases hnot
  · rw [hbody]
    exact fun hkind => SSLTask.runTask_verify hucomplete hkind java
  · rw [hbody]
    exact fun hkind => SSLTask.runTask_certificate hucomplete hkind java
  · rw [hbody]
    intro hkind
    obtain ⟨hnone, hsome⟩ := u.notifyAll_last (u.body.reports java)
    rw [SSLTask.runTask_privateKey hkind java, List.nil_append]
    refine ⟨fun hlast => ?_, hsome⟩
    rw [hnone hlast]
    exact hucomplete

/-- A later run of a task only runs the `completeCallback`. -/
theorem SSLTask.run_again {t : SSLTask} (h : t.didRun = true) (java : Java)
    (completeCallback : Runnable) : t.run java completeCallback = (t, [completeCallback]) := by
  simp only [run, h, Bool.not_true, Bool.false_eq_true, if_false]

/-- A notification of the method of a private key task that was called. -/
theorem consistent_notify {t : SSLTask} (hdidRun : t.didRun = true)
    (hkind : t.body.kind.IsPrivateKey) (n : Notification) (reported : List Notification)
    (verified : Option (Except Thrown Int)) :
    Consistent (t.notify n).1 (reported ++ [n]) verified := by
  obtain ⟨hbody, hdidRun', hcomplete, hbytes⟩ := t.notify_fields n
  refine ⟨?_, ?_, ?_, ?_⟩
  · intro hnot
    exact absurd (hdidRun'.symm.trans hnot) (by rw [hdidRun]; decide)
  · rw [hbody]
    intro hverify
    exact absurd hkind (by rw [hverify]; decide)
  · rw [hbody]
    intro hcertificate
    exact absurd hkind (by rw [hcertificate]; decide)
  · intro _
    rw [List.getLast?_concat]
    refine ⟨fun hnone => (by cases hnone), ?_⟩
    rintro n' ⟨⟩
    exact ⟨hcomplete, hbytes⟩

def TaskObject.new (body : TaskBody) : TaskObject := ⟨.new body, [], none, consistent_new body⟩

/-- `run(Runnable)` on a task object. -/
def TaskObject.run (java : Java) (completeCallback : Runnable) (o : TaskObject) : TaskObject :=
  if h : o.task.didRun = true then o
  else
    { task := (o.task.run java completeCallback).1
      reported := o.reported ++ o.task.body.reports java
      verified := o.task.body.verifies java
      consistent := o.consistent.runTask (by simpa using h) java completeCallback }

/-- The private key method of a task notifies the `ResultCallback` it was given.
Before the task has run there is none. -/
def TaskObject.notify (n : Notification) (o : TaskObject) : TaskObject :=
  if h : o.task.didRun = true ∧ o.task.body.kind.IsPrivateKey then
    { task := (o.task.notify n).1
      reported := o.reported ++ [n]
      verified := o.verified
      consistent := consistent_notify h.1 h.2 n o.reported o.verified }
  else o

theorem TaskObject.run_task (java : Java) (completeCallback : Runnable) (o : TaskObject) :
    (o.run java completeCallback).task = (o.task.run java completeCallback).1 := by
  unfold TaskObject.run
  split
  · rename_i h
    rw [SSLTask.run_again h]
  · rfl

@[simp] theorem TaskObject.run_body (java : Java) (completeCallback : Runnable) (o : TaskObject) :
    (o.run java completeCallback).task.body = o.task.body := by
  rw [run_task, SSLTask.run_body]

@[simp] theorem TaskObject.notify_body (n : Notification) (o : TaskObject) :
    (o.notify n).task.body = o.task.body := by
  unfold TaskObject.notify
  split
  · exact (o.task.notify_fields n).1
  · rfl

end Tasks
