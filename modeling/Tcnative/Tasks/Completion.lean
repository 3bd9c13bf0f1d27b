-- SUMMARY: When the `completeCallback`s of a private key task run, over any order of runs and of the notification.
import Mathlib.Algebra.GroupWithZero.Nat
import Tcnative.Base.Machine
import Tcnative.Tasks.Java

/-!
# Completion of a task

`AsyncTask.runAsync` promises to run its `completeCallback` once the task was run
and completed. The private key method may notify its callback long after the
first run has returned, and another caller can come in between: it finds a task
that did run, and its `completeCallback` runs at once.
-/

namespace Tasks

/-! ## The life of a task -/

/-- What happens to a private key task: Java runs it, or the private key method
notifies the `ResultCallback` that it was given. -/
inductive TaskEvent where
  | run
  | runAsync (completeCallback : Nat)
  | notify (n : Notification)
  deriving DecidableEq

/-- The argument of `SSLTask.run(Runnable)`. -/
def TaskEvent.callback : TaskEvent → Option Runnable
  | .run => some .noop
  | .runAsync id => some (.completeCallback id)
  | .notify _ => none

def TaskEvent.isNotify : TaskEvent → Bool
  | .notify _ => true
  | _ => false

def Runnable.id? : Runnable → Option Nat
  | .noop => none
  | .completeCallback id => some id

/-- The `completeCallback` that an event passes to the task. -/
def TaskEvent.id? (e : TaskEvent) : Option Nat := e.callback.bind Runnable.id?

/-- One event. The result is what runs because of it. -/
def taskStep (java : Java) : Machine.Step Empty SSLTask TaskEvent (List Runnable) := fun t e =>
  let r : SSLTask × List Runnable :=
    match e with
    | .run => t.run java .noop
    | .runAsync id => t.run java (.completeCallback id)
    | .notify n => t.notify n
  .ok (r.2, r.1)

abbrev TaskEntry := Machine.Entry SSLTask TaskEvent (List Runnable)

/-- How often an event gets to `runTask`, which invokes the private key method. -/
def invocations (t : SSLTask) : TaskEvent → Nat
  | .run | .runAsync _ => if !t.didRun then 1 else 0
  | .notify _ => 0

/-- The private key method notifies its callback exactly once: while it is invoked
by the first run, or at any time later. -/
def NotifiesOnce (java : Java) (body : TaskBody) (events : List TaskEvent) : Prop :=
  (∀ pre n post, events = pre ++ .notify n :: post → ∃ e ∈ pre, e.isNotify = false) ∧
    (events ≠ [] → (body.reports java).length + (events.filter TaskEvent.isNotify).length = 1)

/-- The method is invoked at most once, each `completeCallback` runs once, and
when it runs the task is complete with its last result. -/
structure Completes (events : List TaskEvent) (t : List TaskEntry) (last : SSLTask) : Prop where
  invoked : (t.map fun x => invocations x.pre x.event).sum ≤ 1
  once : (t.flatMap fun x => x.ret.filterMap Runnable.id?).Perm (events.filterMap TaskEvent.id?)
  settled : ∀ x ∈ t, ∀ id, .completeCallback id ∈ x.ret →
    x.post.complete = true ∧ x.post.returnValue = last.returnValue ∧
      x.post.resultBytes = last.resultBytes

/-- No `runAsync` comes in between the first run and the notification. -/
def Settles (t : SSLTask) (e : TaskEvent) : Prop :=
  ∀ id, e = .runAsync id → t.didRun = true → t.complete = true

/-! ## Later runs -/

/-- A run of a task that did run. -/
def again (t : SSLTask) (e : TaskEvent) : TaskEntry := ⟨t, e, e.callback.toList, t⟩

theorem taskStep_again {t : SSLTask} (h : t.didRun = true) (java : Java) {e : TaskEvent}
    (he : e.isNotify = false) : taskStep java t e = .ok (e.callback.toList, t) := by
  cases e with
  | run => simp only [taskStep, SSLTask.run_again h]; rfl
  | runAsync id => simp only [taskStep, SSLTask.run_again h]; rfl
  | notify n => cases he

theorem run_again {t : SSLTask} (h : t.didRun = true) (java : Java) {es : List TaskEvent}
    (hes : ∀ e ∈ es, e.isNotify = false) :
    Machine.run (taskStep java) t es = .ok (es.map (again t), t) := by
  induction es with
  | nil => rfl
  | cons e es ih =>
    rw [Machine.run_cons_ok (taskStep_again h java (hes e List.mem_cons_self)),
      ih fun e' he' => hes e' (List.mem_cons_of_mem _ he')]
    rfl

theorem meets_again {t : SSLTask} (h : t.didRun = true) (java : Java) {es : List TaskEvent}
    (hes : ∀ e ∈ es, e.isNotify = false) :
    Machine.Meets (taskStep java) Settles t es ↔ ∀ e ∈ es, Settles t e := by
  induction es with
  | nil => simp [Machine.Meets]
  | cons e es ih =>
    rw [Machine.meets_cons_ok (taskStep_again h java (hes e List.mem_cons_self)),
      ih fun e' he' => hes e' (List.mem_cons_of_mem _ he'), List.forall_mem_cons]

theorem invocations_again {t : SSLTask} (h : t.didRun = true) (es : List TaskEvent) :
    ((es.map (again t)).map fun x => invocations x.pre x.event).sum = 0 := by
  induction es with
  | nil => rfl
  | cons e es ih =>
    rw [List.map_cons, List.map_cons, List.sum_cons, ih]
    cases e <;> simp [again, invocations, h]

theorem ids_callback (e : TaskEvent) : e.callback.toList.filterMap Runnable.id? = e.id?.toList := by
  cases e <;> rfl

theorem ids_again (t : SSLTask) (es : List TaskEvent) :
    (es.map (again t)).flatMap (fun x => x.ret.filterMap Runnable.id?) =
      es.filterMap TaskEvent.id? := by
  induction es with
  | nil => rfl
  | cons e es ih =>
    rw [List.map_cons, List.flatMap_cons, ih]
    simp only [again, ids_callback]
    cases hid : e.id? with
    | none => rw [List.filterMap_cons_none hid]; rfl
    | some id => rw [List.filterMap_cons_some hid]; rfl

/-- Later runs are settled exactly if the task is complete or none of them is a
`runAsync`. -/
theorem settled_again {t last : SSLTask} (h : t.didRun = true)
    (hlast : t.complete = true →
      t.returnValue = last.returnValue ∧ t.resultBytes = last.resultBytes)
    (es : List TaskEvent) :
    (∀ x ∈ es.map (again t), ∀ id, .completeCallback id ∈ x.ret →
      x.post.complete = true ∧ x.post.returnValue = last.returnValue ∧
        x.post.resultBytes = last.resultBytes) ↔ ∀ e ∈ es, Settles t e := by
  rw [List.forall_mem_map]
  refine forall_congr' fun e => imp_congr_right fun _ => ?_
  cases e with
  | run => simp [again, TaskEvent.callback, Settles]
  | notify n => simp [again, TaskEvent.callback, Settles]
  | runAsync id =>
    simp only [again, TaskEvent.callback, Option.toList_some, List.mem_singleton,
      Runnable.completeCallback.injEq, forall_eq, Settles, TaskEvent.runAsync.injEq, forall_eq',
      h, forall_const]
    exact ⟨fun hall => hall.1, fun hcomplete => ⟨hcomplete, hlast hcomplete⟩⟩

/-! ## The first run and the notification -/

/-- A task whose method is invoked by its first run. -/
def started (body : TaskBody) (completeCallback : Runnable) : SSLTask :=
  { SSLTask.new body with didRun := true, completeCallback := some completeCallback }

section
variable {java : Java} {body : TaskBody} {cb : Runnable}

theorem run_new (hkind : body.kind.IsPrivateKey) (java : Java) (cb : Runnable) :
    (SSLTask.new body).run java cb = (started body cb).notifyAll (body.reports java) :=
  SSLTask.runTask_privateKey (t := started body cb) hkind java

theorem taskStep_first (hkind : body.kind.IsPrivateKey) {e : TaskEvent}
    (he : e.callback = some cb) :
    taskStep java (.new body) e = .ok (((started body cb).notifyAll (body.reports java)).2,
      ((started body cb).notifyAll (body.reports java)).1) := by
  cases e with
  | run =>
    cases he
    simp only [taskStep, run_new hkind]
  | runAsync id =>
    cases he
    simp only [taskStep, run_new hkind]
  | notify n => cases he

theorem invocations_first {e : TaskEvent} (he : e.callback = some cb) :
    invocations (.new body) e = 1 := by
  cases e with
  | run | runAsync id => rfl
  | notify n => cases he

theorem settles_first (e : TaskEvent) : Settles (.new body) e := by
  rintro id - hdidRun
  cases hdidRun

/-- The state behind the notification. -/
def notified (body : TaskBody) (cb : Runnable) (n : Notification) : SSLTask :=
  ((started body cb).notify n).1

theorem notify_started (n : Notification) :
    (started body cb).notify n = (notified body cb n, [cb]) := by
  cases n <;> rfl

theorem notified_didRun (n : Notification) : (notified body cb n).didRun = true :=
  ((started body cb).notify_fields n).2.1

theorem notified_complete (n : Notification) : (notified body cb n).complete = true :=
  ((started body cb).notify_fields n).2.2.1

theorem settles_notified (n : Notification) (e : TaskEvent) : Settles (notified body cb n) e :=
  fun _ _ _ => notified_complete n

theorem isNotify_of_callback {e : TaskEvent} (he : e.callback = some cb) : e.isNotify = false := by
  cases e with
  | run | runAsync id => rfl
  | notify n => cases he

theorem ids_cons {e : TaskEvent} (he : e.callback = some cb) (es : List TaskEvent) :
    (e :: es).filterMap TaskEvent.id? =
      [cb].filterMap Runnable.id? ++ es.filterMap TaskEvent.id? := by
  have hid : e.id? = cb.id? := by simp [TaskEvent.id?, he]
  rw [List.filterMap_cons, hid, List.filterMap_cons]
  cases cb.id? <;> rfl

/-- The method notifies while it is invoked. -/
theorem completes_sync (hkind : body.kind.IsPrivateKey) {n : Notification}
    (hreports : body.reports java = [n]) {e : TaskEvent} (he : e.callback = some cb)
    {es : List TaskEvent} (hes : ∀ e ∈ es, e.isNotify = false) :
    Machine.Ends (taskStep java) (Completes (e :: es)) (.new body) (e :: es) ∧
      Machine.Meets (taskStep java) Settles (.new body) (e :: es) := by
  have hfirst : taskStep java (.new body) e = .ok ([cb], notified body cb n) := by
    rw [taskStep_first hkind he, hreports]
    simp [SSLTask.notifyAll, notify_started]
  have hdidRun : (notified body cb n).didRun = true := notified_didRun n
  refine ⟨⟨⟨.new body, e, [cb], notified body cb n⟩ :: es.map (again (notified body cb n)),
    notified body cb n, ?_, ?_, ?_, ?_⟩, ?_⟩
  · rw [Machine.run_cons_ok hfirst, run_again hdidRun java hes]
  · rw [List.map_cons, List.sum_cons, invocations_again hdidRun]
    exact Nat.le_of_eq (invocations_first he)
  · rw [List.flatMap_cons, ids_again, ids_cons he]
  · refine List.forall_mem_cons.mpr ⟨fun _ _ => ⟨notified_complete n, rfl, rfl⟩, ?_⟩
    exact (settled_again hdidRun (fun _ => ⟨rfl, rfl⟩) es).mpr fun e _ => settles_notified n e
  · rw [Machine.meets_cons_ok hfirst, meets_again hdidRun java hes]
    exact ⟨settles_first e, fun e _ => settles_notified n e⟩

/-- The method notifies later: what comes in between must not ask to be told of
the completion. -/
theorem completes_later (hkind : body.kind.IsPrivateKey) (hreports : body.reports java = [])
    {e : TaskEvent} (he : e.callback = some cb) {mid post : List TaskEvent} {n : Notification}
    (hmid : ∀ e ∈ mid, e.isNotify = false) (hpost : ∀ e ∈ post, e.isNotify = false) :
    (Machine.Ends (taskStep java) (Completes (e :: (mid ++ .notify n :: post))) (.new body)
        (e :: (mid ++ .notify n :: post)) ↔ ∀ e ∈ mid, Settles (started body cb) e) ∧
    (Machine.Meets (taskStep java) Settles (.new body) (e :: (mid ++ .notify n :: post)) ↔
      ∀ e ∈ mid, Settles (started body cb) e) := by
  have hfirst : taskStep java (.new body) e = .ok ([], started body cb) := by
    rw [taskStep_first hkind he, hreports]
    rfl
  have hnotify : taskStep java (started body cb) (.notify n) = .ok ([cb], notified body cb n) := by
    simp only [taskStep, notify_started]
  have hdidRun : (notified body cb n).didRun = true := notified_didRun n
  have hmiddle := run_again (t := started body cb) rfl java hmid
  have htail : Machine.run (taskStep java) (started body cb) (.notify n :: post) =
      .ok (⟨started body cb, .notify n, [cb], notified body cb n⟩ ::
        post.map (again (notified body cb n)), notified body cb n) := by
    rw [Machine.run_cons_ok hnotify, run_again hdidRun java hpost]
  have hrun : Machine.run (taskStep java) (.new body) (e :: (mid ++ .notify n :: post)) =
      .ok (⟨.new body, e, [], started body cb⟩ :: (mid.map (again (started body cb)) ++
        ⟨started body cb, .notify n, [cb], notified body cb n⟩ ::
          post.map (again (notified body cb n))), notified body cb n) := by
    rw [Machine.run_cons_ok hfirst, Machine.run_append hmiddle, htail]
  constructor
  · rw [Machine.ends_of_run hrun]
    have hincomplete : (started body cb).complete = true →
        (started body cb).returnValue = (notified body cb n).returnValue ∧
          (started body cb).resultBytes = (notified body cb n).resultBytes := fun h => by cases h
    have hsettled := settled_again (t := started body cb) rfl hincomplete mid
    constructor
    · intro h
      rw [← hsettled]
      intro x hx
      exact h.settled x (List.mem_cons_of_mem _ (List.mem_append_left _ hx))
    · intro h
      refine ⟨?_, ?_, ?_⟩
      · simp only [List.map_cons, List.map_append, List.sum_cons, List.sum_append,
          invocations_again (t := started body cb) rfl, invocations_again hdidRun,
          invocations_first he]
        simp [invocations]
      · have hskip : (TaskEvent.notify n :: post).filterMap TaskEvent.id? =
            post.filterMap TaskEvent.id? := List.filterMap_cons_none rfl
        rw [List.flatMap_cons, List.flatMap_append, List.flatMap_cons, ids_again, ids_again,
          ids_cons he, List.filterMap_append, hskip, List.filterMap_nil, List.nil_append,
          ← List.append_assoc, ← List.append_assoc]
        exact List.perm_append_comm.append_right _
      · refine List.forall_mem_cons.mpr ⟨by simp, ?_⟩
        refine List.forall_mem_append.mpr ⟨hsettled.mpr h, ?_⟩
        refine List.forall_mem_cons.mpr ⟨fun _ _ => ⟨notified_complete n, rfl, rfl⟩, ?_⟩
        exact (settled_again hdidRun (fun _ => ⟨rfl, rfl⟩) post).mpr fun e _ => settles_notified n e
  · rw [Machine.meets_cons_ok hfirst, Machine.meets_append, meets_again (by rfl) java hmid]
    constructor
    · exact fun h => h.2.1
    · refine fun h => ⟨settles_first e, h, ?_⟩
      rintro t s' hrun'
      cases hmiddle.symm.trans hrun'
      rw [Machine.meets_cons_ok hnotify, meets_again hdidRun java hpost]
      refine ⟨?_, fun e _ => settles_notified n e⟩
      rintro id hid
      cases hid

end

/-! ## Any order of events -/

/-- The private key method is invoked at most once, and each `completeCallback`
runs once, when the task is complete, if and only if no `runAsync` comes between
the first run and the notification. -/
theorem completion_iff {java : Java} {body : TaskBody} (hkind : body.kind.IsPrivateKey)
    {events : List TaskEvent} (honce : NotifiesOnce java body events) :
    Machine.Ends (taskStep java) (Completes events) (.new body) events ↔
      Machine.Meets (taskStep java) Settles (.new body) events := by
  obtain ⟨hafter, hcount⟩ := honce
  cases events with
  | nil => exact iff_of_true ⟨[], _, rfl, by simp, by simp, by simp⟩ trivial
  | cons e es =>
    have hcount := hcount (by simp)
    -- The first event is a run.
    obtain ⟨cb, he⟩ : ∃ cb, e.callback = some cb := by
      cases e with
      | run => exact ⟨_, rfl⟩
      | runAsync id => exact ⟨_, rfl⟩
      | notify n =>
        obtain ⟨e, he, -⟩ := hafter [] n es rfl
        cases he
    rw [List.filter_cons_of_neg (by simp [isNotify_of_callback he])] at hcount
    cases hreports : body.reports java with
    | cons n ns =>
      rw [hreports, List.length_cons] at hcount
      obtain rfl : ns = [] := List.length_eq_zero_iff.mp (by omega)
      have hnone : es.filter TaskEvent.isNotify = [] := List.length_eq_zero_iff.mp (by omega)
      have hes : ∀ e ∈ es, e.isNotify = false := by
        simpa [List.filter_eq_nil_iff] using hnone
      obtain ⟨hends, hmeets⟩ := completes_sync hkind hreports he hes
      exact iff_of_true hends hmeets
    | nil =>
      rw [hreports, List.length_nil, Nat.zero_add] at hcount
      obtain ⟨m, hone⟩ := List.length_eq_one_iff.mp hcount
      obtain ⟨mid, post, rfl, hmid, hm, hpost⟩ := List.filter_eq_cons_iff.mp hone
      cases m with
      | run => cases hm
      | runAsync id => cases hm
      | notify n =>
        have hmid' : ∀ e ∈ mid, e.isNotify = false := by simpa using hmid
        have hpost' : ∀ e ∈ post, e.isNotify = false := by
          simpa [List.filter_eq_nil_iff] using hpost
        obtain ⟨hends, hmeets⟩ := completes_later (n := n) hkind hreports he hmid' hpost'
        exact hends.trans hmeets.symm

/-- Events that start with a run, and a method that notifies once among them. -/
theorem notifiesOnce_cons {java : Java} {body : TaskBody} {e : TaskEvent} {es : List TaskEvent}
    (he : e.isNotify = false)
    (hcount : (body.reports java).length + (es.filter TaskEvent.isNotify).length = 1) :
    NotifiesOnce java body (e :: es) := by
  refine ⟨?_, fun _ => ?_⟩
  · intro pre n post h
    cases pre with
    | nil =>
      obtain ⟨rfl, -⟩ := List.cons.inj h
      cases he
    | cons e' pre =>
      obtain ⟨rfl, -⟩ := List.cons.inj h
      exact ⟨e, List.mem_cons_self, he⟩
  · rwa [List.filter_cons_of_neg (by simp [he])]

/-- A private key method that notifies later. -/
def Java.later : Java where
  verify _ _ _ := .ok 0
  handle _ _ _ := .ok ()
  sign _ _ _ := []
  decrypt _ _ := []

/-- A second `runAsync` behind the notification. -/
theorem completion_iff_behind :
    Machine.Ends (taskStep .later)
      (Completes [.runAsync 1, .notify (.onSuccess (some [7])), .runAsync 2])
      (.new (.sslPrivateKeyMethodDecryptTask [0] 0))
      [.runAsync 1, .notify (.onSuccess (some [7])), .runAsync 2] := by
  refine (completion_iff (by decide) (notifiesOnce_cons rfl rfl)).mpr ?_
  refine ⟨settles_first _, ?_⟩
  rintro r s' ⟨⟩
  refine ⟨by simp [Settles], ?_⟩
  rintro r s' ⟨⟩
  exact ⟨fun _ _ _ => rfl, fun _ _ _ => trivial⟩

/-- A second `runAsync` in front of the notification: its `completeCallback` runs
before the task is complete. -/
theorem completion_early :
    NotifiesOnce .later (.sslPrivateKeyMethodDecryptTask [0] 0)
      [.runAsync 1, .runAsync 2, .notify (.onSuccess (some [7]))] ∧
    ¬ Machine.Ends (taskStep .later)
      (Completes [.runAsync 1, .runAsync 2, .notify (.onSuccess (some [7]))])
      (.new (.sslPrivateKeyMethodDecryptTask [0] 0))
      [.runAsync 1, .runAsync 2, .notify (.onSuccess (some [7]))] := by
  refine ⟨notifiesOnce_cons rfl rfl, ?_⟩
  rintro ⟨t, last, hrun, hcompletes⟩
  cases hrun
  have hsecond := hcompletes.settled _ (List.mem_cons_of_mem _ List.mem_cons_self) 2
    List.mem_cons_self
  exact absurd hsecond.1 (by decide)

end Tasks
