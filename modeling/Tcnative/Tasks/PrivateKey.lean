-- SUMMARY: Private key operations through a task: what the library gets against what Java reported.
import Tcnative.Tasks.Slot

/-!
# Private key operations

A private key operation that suspends is completed with what its task reports.
An error is reported as an empty result, and completion takes that for a success.
-/

namespace Tasks
open CMem

/-! ## What completion has to deliver -/

/-- The task behind the slot. -/
def TaskStore.current (st : TaskStore) : Option TaskObject := do
  let p ← st.sslTask
  let block ← st.blocks[p]?
  let r ← block.value.task
  let ref ← st.refs[r]?
  return ref.value

theorem TaskStore.Holds.current_eq {st : TaskStore} {p r : Nat} {consumed : Bool}
    {o : TaskObject} (h : st.Holds p r consumed o) : st.current = some o := by
  have hblock : st.blocks[p]? = some ⟨⟨consumed, some r⟩, false⟩ := h.block
  have href : st.refs[r]? = some ⟨o, false⟩ := h.ref
  simp [current, h.slot, hblock, href]

/-- What Java has reported for the pending task, if it has. -/
def Session.reported (s : Session) : Option Notification :=
  s.conn.store.current.bind (·.reported.getLast?)

/-- The reply that a report calls for. -/
def Notification.reply (maxOut : Nat) : Notification → Reply
  | .onSuccess (some bytes) =>
    if bytes.length ≤ maxOut then .privateKey .success (some bytes) else .privateKey .failure none
  | .onSuccess none | .onError => .privateKey .failure none

/-- A completion delivers what Java reported. Before Java has reported anything
it asks to retry and keeps the task. -/
def Delivers (hs : Handshake) (alert : Int → UInt8) (s : Session) (maxOut : Nat) : Prop :=
  ∃ res s', sessionStep hs alert s (.complete .succeed maxOut) = .ok (res, s') ∧
    match s.reported with
    | none => res.reply = .privateKey .retry none ∧ s'.conn = s.conn
    | some n => res.reply = n.reply maxOut

/-- The library resumes what it has suspended, each callback that finds a task
looks at it, and `use_tasks` is enabled. -/
def Session.UsesTasks (s : Session) (ev : Event) : Prop :=
  (s.Allows ev ∧ s.ReachesTask ev) ∧ s.conn.ctx.useTasks = true

instance (s : Session) (ev : Event) : Decidable (s.UsesTasks ev) :=
  inferInstanceAs (Decidable (_ ∧ _))

/-! ## What completion delivers -/

/-- Only an error is taken for something else. -/
theorem copyOut_eq_reply_iff (maxOut : Nat) (n : Notification) :
    copyOut .succeed maxOut n.resultBytes = n.reply maxOut ↔ n ≠ .onError := by
  cases n with
  | onError =>
    refine iff_of_false ?_ (by simp)
    -- The empty array is no NULL and fits into any out.
    simp [Notification.resultBytes, Notification.reply, copyOut, EMPTY, JniCalls.succeed]
  | onSuccess result =>
    refine iff_of_true ?_ (by simp)
    cases result with
    | none => rfl
    | some bytes =>
      simp only [Notification.resultBytes, Notification.reply, copyOut, JniCalls.succeed,
        Bool.not_true, Bool.or_false, decide_eq_true_eq]
      rcases Nat.lt_or_ge maxOut bytes.length with hlt | hge
      · rw [if_pos hlt, if_neg (Nat.not_le_of_lt hlt)]
      · rw [if_neg (Nat.not_lt_of_le hge), if_pos hge]

/-- In a session that waits for a private key operation. -/
theorem Isolated.delivers_iff {hs : Handshake} {alert : Int → UInt8} {s : Session} {maxOut : Nat}
    (h : Isolated s) (huses : s.UsesTasks (.complete .succeed maxOut)) :
    Delivers hs alert s maxOut ↔ s.reported ≠ some .onError := by
  obtain ⟨⟨hallows, -⟩, htasks⟩ := huses
  rcases h.slot with ⟨-, hawaiting, -, -⟩ | ⟨holds, hawaiting, -, -, -⟩
  · simp [Session.Allows, Session.suspended, hawaiting] at hallows
  · rename_i p r consumed o
    have hkind : o.task.body.kind.IsPrivateKey := by
      simpa [Session.Allows, Session.suspended, hawaiting, Kind.IsPrivateKey] using hallows
    have hreported : s.reported = o.reported.getLast? := by
      simp only [Session.reported, holds.current_eq, Option.bind_some]
    obtain ⟨hnone, hsome⟩ := o.consistent.privateKey hkind
    obtain ⟨res, conn, hok, hresumed, hreply⟩ :=
      tcnPrivateKeyCompleteJava_resumed (e := .succeed) holds rfl htasks maxOut
    have hstep : sessionStep hs alert s (.complete .succeed maxOut) =
        .ok (res, s.after (.complete .succeed maxOut) res.reply conn) := sessionStep_ok hok
    rw [Delivers, hreported]
    cases hlast : o.reported.getLast? with
    | none =>
      -- Before the first notification the task is incomplete.
      refine iff_of_true ⟨res, _, hstep, ?_, ?_⟩ (by simp)
      · rw [hreply, hnone hlast]
        rfl
      · cases hresumed with
        | pending _ _ hconn => exact hconn
        | done hcomplete _ _ _ _ =>
          rw [hnone hlast] at hcomplete
          cases hcomplete
    | some n =>
      obtain ⟨hcomplete, hbytes⟩ := hsome n hlast
      rw [hcomplete, if_pos rfl, hbytes] at hreply
      rw [ne_eq, Option.some.injEq, ← ne_eq, ← copyOut_eq_reply_iff maxOut n]
      constructor
      · rintro ⟨res', s', hstep', hdelivered⟩
        cases hstep.symm.trans hstep'
        exact hreply.symm.trans hdelivered
      · intro heq
        exact ⟨res, _, hstep, hreply.trans heq⟩

/-- Every run that uses tasks ends, and the completion of the pending operation
delivers what Java reported if and only if Java did not report an error. -/
theorem sessionRun_delivers_iff (hs : Handshake) (alert : Int → UInt8) (ctx : TcnSslCtxt)
    (verifyDepth : Int) {es : List Event} {maxOut : Nat}
    (hes : Machine.Meets (sessionStep hs alert) Session.UsesTasks (.start (.new ctx verifyDepth))
      (es ++ [.complete .succeed maxOut])) :
    Machine.Ends (sessionStep hs alert)
      (fun _ s => Delivers hs alert s maxOut ↔ s.reported ≠ some .onError)
      (.start (.new ctx verifyDepth)) es := by
  obtain ⟨hbefore, hlast⟩ := Machine.meets_append.mp hes
  have hrun := isolated_run hs alert ctx verifyDepth (fun _ _ h => h.1) (F := fun _ => False)
    -- A direct call needs use_tasks to be disabled.
    (fun _ _ _ huses _ hcall => by cases huses.2.symm.trans hcall.1) hbefore
  obtain ⟨t, s, hres, ⟨hisolated, -⟩, -⟩ := Machine.ends_of_sat hrun
  obtain ⟨huses, -⟩ := hlast t s hres
  exact ⟨t, s, hres, hisolated.delivers_iff huses⟩

/-- A signature is suspended, asked for too early, and then computed by its task. -/
def signEvents (java : Java) : List Event :=
  [.sign .succeed 8 1025 [1] (.ok none), .complete .succeed 8, .getTask, .runTask 0 .noop java]

/-- A signature of one byte is delivered. -/
theorem sessionRun_delivers_signature :
    Machine.Ends (sessionStep twoCerts fun _ => 0) (fun _ s => Delivers twoCerts (fun _ => 0) s 8)
      (.start (.new taskCtx 1)) (signEvents succeedJava) :=
  have hes : Machine.Meets (sessionStep twoCerts fun _ => 0) Session.UsesTasks
      (.start (.new taskCtx 1)) (signEvents succeedJava ++ [.complete .succeed 8]) := by decide
  have hdelivers := sessionRun_delivers_iff twoCerts (fun _ => 0) taskCtx 1 hes
  ⟨_, _, rfl, ((Machine.ends_of_run rfl).mp hdelivers).mpr (by decide)⟩

/-- A method that throws makes completion succeed with no bytes. -/
theorem sessionRun_error_succeeds :
    Machine.Meets (sessionStep twoCerts fun _ => 0) Session.UsesTasks (.start (.new taskCtx 1))
        (signEvents (throwJava .exception) ++ [.complete .succeed 8]) ∧
      Machine.Ends (sessionStep twoCerts fun _ => 0)
        (fun _ s => s.reported = some .onError ∧ ¬ Delivers twoCerts (fun _ => 0) s 8)
        (.start (.new taskCtx 1)) (signEvents (throwJava .exception)) := by
  refine ⟨by decide, _, _, rfl, rfl, ?_⟩
  rintro ⟨res, s', hstep, hreply⟩
  cases hstep
  have hsuccess : Reply.privateKey .success (some []) = .privateKey .failure none := hreply
  cases hsuccess

end Tasks
