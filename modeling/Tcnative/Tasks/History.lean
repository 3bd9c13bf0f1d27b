-- SUMMARY: What the steps of a run did to the task objects that are live behind them.
import Tcnative.Tasks.Session

/-!
# The history of the tasks

Java runs a task at some step of a run, and native code reads its outcome at a
later one. A task object records what its verifier did. Here that record is led
back to the step that ran the task.
-/

namespace Tasks
open CMem

/-! ## One step -/

/-- What an event makes of the task object behind a reference. -/
def Event.acts (r : Nat) (o : TaskObject) : Event → TaskObject
  | .runTask r' completeCallback java => if r' = r then o.run java completeCallback else o
  | .notify r' n => if r' = r then o.notify n else o
  | _ => o

/-- The task objects behind an event: they were there before, or they are new. -/
structure Event.ActsOn (ev : Event) (refs refs' : Arena TaskObject) : Prop where
  length : refs.length ≤ refs'.length
  live : ∀ r o', refs'.Live r o' →
    (refs.length ≤ r ∧ ∃ body, o' = .new body) ∨ ∃ o, refs.Live r o ∧ o' = ev.acts r o

/-- An event that is a step of no task object. -/
def Event.Inert (ev : Event) : Prop := ∀ r o, ev.acts r o = o

section
variable {ev : Event} {refs : Arena TaskObject}

theorem Event.Inert.same (h : ev.Inert) (refs : Arena TaskObject) : ev.ActsOn refs refs where
  length := Nat.le_refl _
  live r o' hlive := .inr ⟨o', hlive, (h r o').symm⟩

theorem Event.Inert.started {B : TaskBody → Prop} {s s' : Conn} {res : Result} (h : ev.Inert)
    (hstarted : Started B s res s') : ev.ActsOn s.store.refs s'.store.refs := by
  cases hstarted with
  | suspended body hbody htasks hretry hstore =>
    rw [hstore]
    refine ⟨?_, fun r o' hlive => ?_⟩
    · simp [TaskStore.put, Arena.alloc]
    · rcases Arena.live_iff_alloc.mp hlive with hold | ⟨rfl, rfl⟩
      · exact .inr ⟨o', hold, (h r o').symm⟩
      · exact .inl ⟨Nat.le_refl _, body, rfl⟩
  | decided hretry hstore =>
    rw [hstore.refs]
    exact h.same _

theorem Event.Inert.resumed {p r : Nat} {o : TaskObject} {s s' : Conn} {res : Result}
    (h : ev.Inert) (hresumed : Resumed p r o s res s') :
    ev.ActsOn s.store.refs s'.store.refs := by
  cases hresumed with
  | pending hcomplete htook hconn =>
    rw [hconn]
    exact h.same _
  | done hcomplete htook hempty hctx hdepth =>
    exact ⟨Nat.le_of_eq hempty.length.symm, fun i o' hlive =>
      .inr ⟨o', hempty.live i o' hlive, (h i o').symm⟩⟩

theorem Event.actsOn_update {r : Nat} {f : TaskObject → TaskObject}
    (h : ∀ i o, ev.acts i o = if r = i then f o else o) :
    ev.ActsOn refs (refs.update r f) := by
  refine ⟨?_, fun i o' hlive => .inr ?_⟩
  · simp [Arena.update]
  · obtain ⟨o, hold, ho'⟩ := Arena.live_of_update hlive
    exact ⟨o, hold, ho'.trans (h i o).symm⟩

/-- A task that has run keeps its subclass and what its verifier did. -/
theorem Event.acts_ran {o : TaskObject} (hran : o.task.didRun = true) (ev : Event) (r : Nat) :
    (ev.acts r o).task.didRun = true ∧ (ev.acts r o).task.body = o.task.body ∧
      (ev.acts r o).verified = o.verified := by
  cases ev with
  | runTask r' completeCallback java =>
    simp only [Event.acts]
    split
    · rw [TaskObject.run, dif_pos hran]
      exact ⟨hran, rfl, rfl⟩
    · exact ⟨hran, rfl, rfl⟩
  | notify r' n =>
    simp only [Event.acts]
    split
    · unfold TaskObject.notify
      split
      · obtain ⟨hbody, hdidRun, -, -⟩ := o.task.notify_fields n
        exact ⟨hdidRun.trans hran, hbody, rfl⟩
      · exact ⟨hran, rfl, rfl⟩
    · exact ⟨hran, rfl, rfl⟩
  | _ => exact ⟨hran, rfl, rfl⟩

/-- A task that has not run yet is run by its event or goes on without a verdict. -/
theorem Event.acts_notRun {o : TaskObject} (hnot : o.task.didRun = false) (ev : Event) (r : Nat) :
    ((ev.acts r o).verified = none ∧ (ev.acts r o).task.body = o.task.body) ∨
      ∃ completeCallback java, ev = .runTask r completeCallback java := by
  obtain ⟨-, hverified, -⟩ := o.consistent.notRun hnot
  cases ev with
  | runTask r' completeCallback java =>
    by_cases hr : r' = r
    · exact .inr ⟨completeCallback, java, by rw [hr]⟩
    · exact .inl (by simp only [Event.acts, if_neg hr, hverified, and_self])
  | notify r' n =>
    left
    simp only [Event.acts]
    split
    · rw [TaskObject.notify, dif_neg (by simp [hnot])]
      exact ⟨hverified, rfl⟩
    · exact ⟨hverified, rfl⟩
  | _ => exact .inl ⟨hverified, rfl⟩

end

/-! ## The steps of a run -/

/-- The step runs the task object behind the reference for the first time. -/
structure Runs (y : Machine.Entry Session Event Result) (r : Nat) (o : TaskObject) (java : Java) :
    Prop where
  event : ∃ completeCallback, y.event = .runTask r completeCallback java
  live : y.pre.conn.store.refs.Live r o
  first : o.task.didRun = false

/-- A step of the run ran the task behind the reference for the first time. The
task was one for the verifier, which returned `X509_V_OK` for the certificates of
the peer up to the verify depth. -/
def RanOk (hs : Handshake) (verifyDepth : Int) (verifier : Option JObject)
    (before : List (Machine.Entry Session Event Result)) (r : Nat) : Prop :=
  ∃ y ∈ before, ∃ o java, Runs y r o java ∧ VerifierBody hs verifyDepth verifier o.task.body ∧
    JavaAccepts hs verifyDepth verifier java

/-- What is known of the task objects that are live behind the steps of a run. -/
structure TaskHistory (before : List (Machine.Entry Session Event Result))
    (refs : Arena TaskObject) : Prop where
  /-- References are not used again. -/
  length : ∀ y ∈ before, y.pre.conn.store.refs.length ≤ refs.length
  /-- A verdict comes from the step that ran the task. -/
  ran : ∀ r o outcome, refs.Live r o → o.verified = some outcome → ∃ y ∈ before, ∃ o₀ java,
    Runs y r o₀ java ∧ o₀.task.body = o.task.body ∧ o.task.body.verifies java = some outcome
  /-- A task that was run keeps the verdict. -/
  kept : ∀ y ∈ before, ∀ r o₀ java o, Runs y r o₀ java → refs.Live r o →
    o.task.didRun = true ∧ o.task.body = o₀.task.body ∧ o.verified = o₀.task.body.verifies java

theorem taskHistory_nil : TaskHistory [] ([] : Arena TaskObject) where
  length y hy := by cases hy
  ran r o outcome hlive := by cases hlive
  kept y hy := by cases hy

section
variable {before : List (Machine.Entry Session Event Result)} {s s' : Session} {ev : Event}
  {res : Result}

theorem TaskHistory.step (h : TaskHistory before s.conn.store.refs)
    (hacts : ev.ActsOn s.conn.store.refs s'.conn.store.refs) :
    TaskHistory (before ++ [⟨s, ev, res, s'⟩]) s'.conn.store.refs := by
  refine ⟨?_, ?_, ?_⟩
  · intro y hy
    rcases List.mem_append.mp hy with hold | hnew
    · exact Nat.le_trans (h.length y hold) hacts.length
    · obtain rfl := List.mem_singleton.mp hnew
      exact hacts.length
  · intro r o' outcome hlive' houtcome
    rcases hacts.live r o' hlive' with ⟨-, body, rfl⟩ | ⟨o, hlive, rfl⟩
    · cases houtcome
    cases hdidRun : o.task.didRun with
    | true =>
      obtain ⟨-, hbody, hverified⟩ := ev.acts_ran hdidRun r
      rw [hverified] at houtcome
      obtain ⟨y, hy, o₀, java, hruns, hbody₀, hjava⟩ := h.ran r o outcome hlive houtcome
      exact ⟨y, List.mem_append_left _ hy, o₀, java, hruns, hbody₀.trans hbody.symm,
        by rw [hbody]; exact hjava⟩
    | false =>
      rcases ev.acts_notRun hdidRun r with ⟨hnone, -⟩ | ⟨completeCallback, java, rfl⟩
      · cases hnone.symm.trans houtcome
      · refine ⟨_, List.mem_append_right _ List.mem_cons_self, o, java,
          ⟨⟨completeCallback, rfl⟩, hlive, hdidRun⟩, ?_, ?_⟩
        · simp only [Event.acts, if_true, TaskObject.run_body]
        · simp only [Event.acts, if_true, TaskObject.run_body] at houtcome ⊢
          rw [TaskObject.run, dif_neg (by simp [hdidRun])] at houtcome
          exact houtcome
  · intro y hy r o₀ java o' hruns hlive'
    have hlt : r < s.conn.store.refs.length := by
      rcases List.mem_append.mp hy with hold | hnew
      · exact Nat.lt_of_lt_of_le hruns.live.lt (h.length y hold)
      · obtain rfl := List.mem_singleton.mp hnew
        exact hruns.live.lt
    rcases hacts.live r o' hlive' with ⟨hle, -⟩ | ⟨o, hlive, rfl⟩
    · exact absurd hle (by omega)
    rcases List.mem_append.mp hy with hold | hnew
    · obtain ⟨hran, hbody, hverified⟩ := h.kept y hold r o₀ java o hruns hlive
      obtain ⟨hran', hbody', hverified'⟩ := ev.acts_ran hran r
      exact ⟨hran', hbody'.trans hbody, hverified'.trans hverified⟩
    · obtain rfl := List.mem_singleton.mp hnew
      obtain ⟨⟨completeCallback, rfl⟩, hlive₀, hfirst⟩ := hruns
      obtain rfl : o₀ = o := hlive₀.unique hlive
      have hdidRun := o₀.task.run_didRun java completeCallback
      rw [← TaskObject.run_task] at hdidRun
      simp only [Event.acts, if_true]
      refine ⟨hdidRun, o₀.run_body java completeCallback, ?_⟩
      rw [TaskObject.run, dif_neg (by simp [hfirst])]

/-- The record of a task for the verifier says what Java did when it ran the task. -/
theorem TaskHistory.ranOk_iff {hs : Handshake} {verifyDepth : Int} {verifier : Option JObject}
    {refs : Arena TaskObject} (h : TaskHistory before refs) {r : Nat} {o : TaskObject}
    (hlive : refs.Live r o) (hbody : VerifierBody hs verifyDepth verifier o.task.body) :
    RanOk hs verifyDepth verifier before r ↔ o.verified = some (.ok x509VOk) := by
  constructor
  · rintro ⟨y, hy, o₀, java, hruns, -, chain, object, hchain, hobject, hok⟩
    obtain ⟨-, hsame, hverified⟩ := h.kept y hy r o₀ java o hruns hlive
    obtain ⟨chain', object', hchain', hobject', hbody'⟩ := hbody
    obtain rfl : chain = chain' := Option.some.inj (hchain.symm.trans hchain')
    obtain rfl : object = object' := Option.some.inj (hobject.symm.trans hobject')
    rw [hverified, ← hsame, hbody', TaskBody.verifies, hok]
  · intro hverified
    obtain ⟨y, hy, o₀, java, hruns, hsame, hjava⟩ := h.ran r o _ hlive hverified
    refine ⟨y, hy, o₀, java, hruns, by rwa [hsame], ?_⟩
    obtain ⟨chain, object, hchain, hobject, hbody⟩ := hbody
    rw [hbody, TaskBody.verifies] at hjava
    exact ⟨chain, object, hchain, hobject, Option.some.inj hjava⟩

end

end Tasks
