-- SUMMARY: Isolation of the task slot: outcomes reach the operation they belong to, and every task is freed once.
import Tcnative.Tasks.Session

/-!
# Isolation of the task slot

The slot of a connection is shared by four kinds of operations. While every
callback that resumes clears what it takes, the slot holds a task exactly when
the library has suspended the operation that created it.
-/

namespace Tasks
open CMem

/-! ## What isolation means -/

/-- The callback resumes operations of this kind. -/
def Event.Resumes : Event → Kind → Prop
  | .certCustomVerify _ _, k => k = .verify
  | .certificateCb _ _, k => k = .certificate
  | .complete _ _, k => k.IsPrivateKey
  | _, _ => False

/-- A callback takes an outcome only from the task that the operation it resumes
created, and that task is of the kind of the callback. -/
def TakesOwn (x : Machine.Entry Session Event Result) : Prop :=
  ∀ r, x.ret.took = some r →
    ∃ k o, x.pre.awaiting = some (k, some r) ∧ x.event.Resumes k ∧
      x.pre.conn.store.refs.Live r o ∧ o.task.body.kind = k

/-- Every `tcn_ssl_task_t` and every global reference is released. -/
def TaskStore.AllReleased (st : TaskStore) : Prop :=
  (∀ c ∈ st.blocks, c.released = true) ∧ ∀ c ∈ st.refs, c.released = true

/-- The run releases nothing twice: it can only fault by calling a certificate
callback that was cleared. It takes outcomes where they belong, hands out no
task twice, and `freeSSL` behind it leaves nothing unreleased. -/
def Isolates (hs : Handshake) (alert : Int → UInt8) (conn : Conn) (es : List Event) : Prop :=
  Machine.Sat (NullCall conn.ctx.certificateCallback)
    (fun a => (∀ x ∈ a.1, TakesOwn x) ∧ (a.1.flatMap (·.ret.reply.handed)).Nodup ∧
      ∃ st, freeSslState a.2.conn.store = .ok st ∧ st.AllReleased)
    (Machine.run (sessionStep hs alert) (.start conn) es)

/-- A callback that finds a task in the slot gets as far as looking at it. -/
def Session.ReachesTask (s : Session) : Event → Prop
  | .certCustomVerify e _ | .certificateCb e _ =>
    s.conn.store.sslTask = none ∨ e.getEnv = true
  | .complete e _ =>
    s.conn.store.sslTask = none ∨ e.getEnv = true ∧ s.conn.ctx.useTasks = true
  | .sign _ _ _ _ _ | .decrypt _ _ _ _ => True
  | .getTask | .runTask _ _ _ | .notify _ _ | .setUseTasks _ => True

instance (s : Session) : (ev : Event) → Decidable (s.ReachesTask ev)
  | .certCustomVerify _ _ | .certificateCb _ _ | .complete _ _ =>
    inferInstanceAs (Decidable (_ ∨ _))
  | .sign _ _ _ _ _ | .decrypt _ _ _ _ | .getTask | .runTask _ _ _ | .notify _ _
  | .setUseTasks _ => inferInstanceAs (Decidable True)

/-! ## The invariant -/

/-- The slot is empty and no operation is suspended, or it holds the task of the
suspended operation. All other tasks are released. -/
inductive SlotState (s : Session) : Prop where
  | idle (slot : s.conn.store.sslTask = none) (awaiting : s.awaiting = none)
      (blocks : s.conn.store.blocks.Owns none) (refs : s.conn.store.refs.Owns none)
  | waiting {p r : Nat} {consumed : Bool} {o : TaskObject}
      (holds : s.conn.store.Holds p r consumed o)
      (awaiting : s.awaiting = some (o.task.body.kind, some r))
      (blocks : s.conn.store.blocks.Owns (some p)) (refs : s.conn.store.refs.Owns (some r))
      (handed : r ∈ s.handed → consumed = true)

/-- The invariant of a session: the slot, and that tasks are handed out once. -/
structure Isolated (s : Session) : Prop where
  slot : SlotState s
  nodup : s.handed.Nodup
  handed_lt : ∀ r ∈ s.handed, r < s.conn.store.refs.length

theorem isolated_start (ctx : TcnSslCtxt) (verifyDepth : Int) :
    Isolated (.start (.new ctx verifyDepth)) where
  slot := .idle rfl rfl (Arena.owns_nil _) (Arena.owns_nil _)
  nodup := List.nodup_nil
  handed_lt := by simp [Session.start]

theorem handed_of_asksRetry {reply : Reply} {b : Bool} (h : reply.asksRetry = some b) :
    reply.handed = [] := by
  cases reply with
  | verify _ _ => rfl
  | certificate _ => rfl
  | privateKey _ _ => rfl
  | task _ => cases h
  | void => cases h

theorem TaskStore.Failed.owns {st st' : TaskStore} (h : st.Failed st')
    (hblocks : st.blocks.Owns none) : st'.blocks.Owns none := by
  rcases h.blocks with heq | heq
  · rw [heq]
    exact hblocks
  · rw [heq]
    exact hblocks.append_released _

/-- Starting an operation while none is suspended. -/
theorem Isolated.started {s : Session} {k : Kind} {res : Result} {conn : Conn} {ev : Event}
    (h : Isolated s) (hawaiting : s.awaiting = none) (hev : ev.kind = some k)
    (hstarted : Started (·.kind = k) s.conn res conn) : Isolated (s.after ev res.reply conn) := by
  rcases h.slot with ⟨hslot, -, hblocks, hrefs⟩ | ⟨-, hwaiting, -, -, -⟩
  · rcases hstarted with ⟨body, hkind, -, hretry, hstore⟩ | ⟨hretry, hstore⟩
    · have hlen : conn.store.refs.length = s.conn.store.refs.length + 1 := by
        rw [hstore]
        exact List.length_append
      have hnew : s.awaitingAfter ev res.reply conn = some (k, some s.conn.store.refs.length) := by
        simp only [Session.awaitingAfter, hretry, hawaiting, hev, created, hlen, Nat.lt_succ_self,
          if_true, Option.none_or, Option.map_some]
      have hhanded : (s.after ev res.reply conn).handed = s.handed := by
        simp only [Session.after, handed_of_asksRetry hretry, List.append_nil]
      have hholds : conn.store.Holds s.conn.store.blocks.length s.conn.store.refs.length false
          (.new body) := by
        rw [hstore]
        exact s.conn.store.put_holds body
      refine ⟨.waiting hholds ?_ ?_ ?_ ?_, ?_, ?_⟩
      · rw [← hkind] at hnew
        exact hnew
      · simp only [Session.after, hstore]
        exact hblocks.alloc _
      · simp only [Session.after, hstore]
        exact hrefs.alloc _
      · intro hmem
        rw [hhanded] at hmem
        exact absurd (h.handed_lt _ hmem) (Nat.lt_irrefl _)
      · rw [hhanded]
        exact h.nodup
      · intro r hr
        rw [hhanded] at hr
        simpa only [Session.after, hlen] using Nat.lt_succ_of_lt (h.handed_lt r hr)
    · have hhanded : (s.after ev res.reply conn).handed = s.handed := by
        simp only [Session.after, handed_of_asksRetry hretry, List.append_nil]
      refine ⟨.idle ?_ ?_ ?_ ?_, ?_, ?_⟩
      · rcases hstore.slot with heq | heq
        · exact heq.trans hslot
        · exact heq
      · simp only [Session.after, Session.awaitingAfter, hretry]
      · exact hstore.owns hblocks
      · simpa only [Session.after, hstore.refs] using hrefs
      · rw [hhanded]
        exact h.nodup
      · intro r hr
        rw [hhanded] at hr
        simpa only [Session.after, hstore.refs] using h.handed_lt r hr
  · rw [hawaiting] at hwaiting
    cases hwaiting

/-- Resuming the suspended operation. -/
theorem Isolated.resumed {s : Session} {p r : Nat} {consumed : Bool} {o : TaskObject}
    {res : Result} {conn : Conn} {ev : Event} (h : Isolated s)
    (holds : s.conn.store.Holds p r consumed o)
    (hawaiting : s.awaiting = some (o.task.body.kind, some r))
    (hblocks : s.conn.store.blocks.Owns (some p)) (hrefs : s.conn.store.refs.Owns (some r))
    (hev : ev.Resumes o.task.body.kind) (hresumed : Resumed p r o s.conn res conn)
    (hretry : res.reply.asksRetry = some (!o.task.complete)) :
    Isolated (s.after ev res.reply conn) ∧ TakesOwn ⟨s, ev, res, s.after ev res.reply conn⟩ := by
  have hhanded : (s.after ev res.reply conn).handed = s.handed := by
    simp only [Session.after, handed_of_asksRetry hretry, List.append_nil]
  rcases hresumed with ⟨hcomplete, htook, rfl⟩ | ⟨hcomplete, htook, hempty, -, -⟩
  · have hafter : s.after ev res.reply s.conn =
        { s with failed := s.failed || res.reply.failsHandshake } := by
      simp only [Session.after, Session.awaitingAfter, hretry, hcomplete, hawaiting,
        handed_of_asksRetry hretry, List.append_nil, Bool.not_false, Option.some_or]
    -- The task stays in the slot and the operation stays suspended.
    rw [hafter]
    refine ⟨⟨?_, h.nodup, h.handed_lt⟩, fun r hr => by cases htook.symm.trans hr⟩
    rcases h.slot with ⟨hslot, hidle, hb, hr⟩ | ⟨holds', ha, hb, hr, hc⟩
    · exact .idle hslot hidle hb hr
    · exact .waiting holds' ha hb hr hc
  · refine ⟨⟨.idle hempty.slot ?_ (hempty.blocks hblocks) (hempty.refs hrefs), ?_, ?_⟩, ?_⟩
    · simp only [Session.after, Session.awaitingAfter, hretry, hcomplete, Bool.not_true]
    · rw [hhanded]
      exact h.nodup
    · intro r' hr'
      rw [hhanded] at hr'
      simpa only [Session.after, hempty.length] using h.handed_lt r' hr'
    · intro r' hr'
      cases htook.symm.trans hr'
      exact ⟨_, o, hawaiting, hev, holds.ref, rfl⟩

/-! ## The calls of Java -/

/-- A call that returns nothing. -/
theorem Isolated.after_void {s : Session} {ev : Event} {conn : Conn}
    (h : Isolated { s with conn }) : Isolated (s.after ev .void conn) := by
  rw [Session.after_call rfl, show Reply.void.handed = [] from rfl, List.append_nil]
  exact h

/-- Java changes a task without changing its subclass. -/
theorem Isolated.edit {s : Session} (h : Isolated s) (r : Nat) {f : TaskObject → TaskObject}
    (hf : ∀ o, (f o).task.body = o.task.body) :
    Isolated { s with conn := { s.conn with store := s.conn.store.edit r f } } := by
  refine ⟨?_, h.nodup, ?_⟩
  · rcases h.slot with ⟨hslot, hawaiting, hblocks, hrefs⟩ | ⟨holds, hawaiting, hblocks, hrefs, hc⟩
    · exact .idle hslot hawaiting hblocks (hrefs.update r f)
    · obtain ⟨o', hholds, hbody⟩ := holds.edit r hf
      rw [← hbody] at hawaiting
      exact .waiting hholds hawaiting hblocks (hrefs.update r f) hc
  · intro r' hr'
    simpa [TaskStore.edit, Arena.update] using h.handed_lt r' hr'

/-- `SSLContext.setUseTasks` changes neither the slot nor the tasks. -/
theorem Isolated.setUseTasks {s : Session} (h : Isolated s) (useTasks : Bool) :
    Isolated { s with conn := { s.conn with ctx := { s.conn.ctx with useTasks } } } := by
  refine ⟨?_, h.nodup, h.handed_lt⟩
  rcases h.slot with ⟨hslot, hawaiting, hb, hr⟩ | ⟨holds, hawaiting, hb, hr, hc⟩
  · exact .idle hslot hawaiting hb hr
  · exact .waiting holds hawaiting hb hr hc

theorem Isolated.getTask {s : Session} (h : Isolated s) :
    ∃ t store, Tasks.getTask s.conn.store = .ok (t, store) ∧
      Isolated (s.after .getTask (.task t) { s.conn with store }) := by
  rcases hslot : h.slot with ⟨hidle, -, -, -⟩ | ⟨holds, hawaiting, hblocks, hrefs, hc⟩
  · refine ⟨none, s.conn.store, getTask_none hidle, ?_⟩
    rw [Session.after_call rfl, show (Reply.task none).handed = [] from rfl, List.append_nil]
    exact h
  · rename_i p r consumed o
    cases consumed with
    | true =>
      refine ⟨none, s.conn.store, holds.getTask_eq, ?_⟩
      rw [Session.after_call rfl, show (Reply.task none).handed = [] from rfl, List.append_nil]
      exact h
    | false =>
      -- It was not handed out before, since its block was not consumed.
      have hnot : r ∉ s.handed := fun hmem => by cases hc hmem
      have hblocks' := hblocks.update p fun block => { block with consumed := true }
      refine ⟨some r, _, holds.getTask_eq, ?_, ?_, ?_⟩
      · exact .waiting holds.consume hawaiting hblocks' hrefs fun _ => rfl
      · refine List.nodup_append.mpr ⟨h.nodup, by simp [Reply.handed], ?_⟩
        intro a ha b hb heq
        obtain rfl := List.mem_singleton.mp hb
        exact hnot (heq ▸ ha)
      · intro r' hr'
        rcases List.mem_append.mp hr' with hold | hnew
        · exact h.handed_lt r' hold
        · obtain rfl := List.mem_singleton.mp hnew
          exact holds.ref.lt

/-! ## One step and whole runs -/

section
variable {hs : Handshake} {alert : Int → UInt8}

theorem sessionStep_ok {s : Session} {ev : Event} {res : Result} {conn : Conn}
    (h : perform hs alert s.conn ev = .ok (res, conn)) :
    sessionStep hs alert s ev = .ok (res, s.after ev res.reply conn) := by
  simp only [sessionStep, h, bind, Except.bind, pure, Except.pure]

theorem sessionStep_error {s : Session} {ev : Event} {f : Fault}
    (h : perform hs alert s.conn ev = .error f) : sessionStep hs alert s ev = .error f := by
  simp only [sessionStep, h, bind, Except.bind]

theorem perform_getTask {s : Conn} {t : Option Nat} {store : TaskStore}
    (h : getTask s.store = .ok (t, store)) :
    perform hs alert s .getTask = .ok (.of (.task t), { s with store }) := by
  simp only [perform, h, bind, Except.bind, pure, Except.pure]

theorem takesOwn_of_none {x : Machine.Entry Session Event Result} (h : x.ret.took = none) :
    TakesOwn x := by
  intro r hr
  rw [h] at hr
  cases hr

/-- The fault of a direct call of a certificate callback that was cleared. -/
def Session.NullCallback (s : Session) (f : Fault) : Prop :=
  s.conn.ctx.useTasks = false ∧ NullCall s.conn.ctx.certificateCallback f

/-- What a step of an isolated session has to yield. -/
def StepsIsolated (callback : Option JObject) (s : Session) (ev : Event)
    (a : Result × Session) : Prop :=
  (Isolated a.2 ∧ a.2.conn.ctx.certificateCallback = callback) ∧
    TakesOwn ⟨s, ev, a.1, a.2⟩ ∧ a.2.handed = s.handed ++ a.1.reply.handed

theorem Isolated.step_started {s : Session} {ev : Event} {k : Kind} {res : Result} {conn : Conn}
    (h : Isolated s) (hawaiting : s.awaiting = none) (hev : ev.kind = some k)
    (hperform : perform hs alert s.conn ev = .ok (res, conn)) (htook : res.took = none)
    (hctx : conn.ctx = s.conn.ctx) (hstarted : Started (·.kind = k) s.conn res conn) :
    Machine.Sat s.NullCallback
      (StepsIsolated s.conn.ctx.certificateCallback s ev) (sessionStep hs alert s ev) := by
  rw [sessionStep_ok hperform]
  exact ⟨⟨h.started hawaiting hev hstarted, by simp only [Session.after, hctx]⟩,
    takesOwn_of_none htook, rfl⟩

theorem Isolated.step_resumed {s : Session} {p r : Nat} {consumed : Bool} {o : TaskObject}
    {res : Result} {conn : Conn} {ev : Event} (h : Isolated s)
    (holds : s.conn.store.Holds p r consumed o)
    (hawaiting : s.awaiting = some (o.task.body.kind, some r))
    (hblocks : s.conn.store.blocks.Owns (some p)) (hrefs : s.conn.store.refs.Owns (some r))
    (hev : ev.Resumes o.task.body.kind)
    (hperform : perform hs alert s.conn ev = .ok (res, conn))
    (hresumed : Resumed p r o s.conn res conn)
    (hretry : res.reply.asksRetry = some (!o.task.complete)) :
    Machine.Sat s.NullCallback
      (StepsIsolated s.conn.ctx.certificateCallback s ev) (sessionStep hs alert s ev) := by
  obtain ⟨hisolated, htakes⟩ :=
    h.resumed holds hawaiting hblocks hrefs hev hresumed hretry
  rw [sessionStep_ok hperform]
  exact ⟨⟨hisolated, congrArg TcnSslCtxt.certificateCallback hresumed.ctx_eq⟩, htakes, rfl⟩

theorem Isolated.step_certCustomVerify {s : Session} (h : Isolated s) (e : JniCalls) (java : Java)
    (hallows : s.Allows (.certCustomVerify e java))
    (hreaches : s.ReachesTask (.certCustomVerify e java)) :
    Machine.Sat s.NullCallback
      (StepsIsolated s.conn.ctx.certificateCallback s (.certCustomVerify e java))
      (sessionStep hs alert s (.certCustomVerify e java)) := by
  rcases h.slot with ⟨hslot, hawaiting, -, -⟩ | ⟨holds, hawaiting, hblocks, hrefs, -⟩
  · obtain ⟨res, conn, hok, hstarted⟩ := tcnSSLCertCustomVerify_started hs alert hslot e java
    exact h.step_started hawaiting rfl hok hstarted.took hstarted.ctx
      (hstarted.started.mono fun _ => VerifierBody.kind)
  · rename_i p r consumed o
    have hkind : o.task.body.kind = .verify := by
      simpa [Session.Allows, Session.suspended, hawaiting] using hallows
    obtain ⟨res, conn, hok, hresumed, -, hreply⟩ :=
      tcnSSLCertCustomVerify_resumed hs alert holds
        (hreaches.resolve_left (by simp [holds.slot])) java
    refine h.step_resumed holds hawaiting hblocks hrefs hkind hok hresumed ?_
    rw [hreply]
    cases o.task.complete with
    | false => rfl
    | true => exact asksRetry_verify alert _

theorem Isolated.step_certificateCb {s : Session} (h : Isolated s) (e : JniCalls) (java : Java)
    (hallows : s.Allows (.certificateCb e java))
    (hreaches : s.ReachesTask (.certificateCb e java)) :
    Machine.Sat s.NullCallback
      (StepsIsolated s.conn.ctx.certificateCallback s (.certificateCb e java))
      (sessionStep hs alert s (.certificateCb e java)) := by
  rcases h.slot with ⟨hslot, hawaiting, -, -⟩ | ⟨holds, hawaiting, hblocks, hrefs, -⟩
  · rcases certificateCb_started hs hslot e java with
      ⟨res, conn, hok, htook, hctx, -, hstarted⟩ | ⟨f, herror, hnull⟩
    · exact h.step_started hawaiting rfl hok htook hctx hstarted
    · have hstep : sessionStep hs alert s (.certificateCb e java) = .error f :=
        sessionStep_error herror
      rw [hstep]
      exact hnull
  · rename_i p r consumed o
    have hkind : o.task.body.kind = .certificate := by
      simpa [Session.Allows, Session.suspended, hawaiting] using hallows
    obtain ⟨res, conn, hok, hresumed, hreply⟩ :=
      certificateCb_resumed hs holds (hreaches.resolve_left (by simp [holds.slot])) java
    refine h.step_resumed holds hawaiting hblocks hrefs hkind hok hresumed ?_
    rw [hreply]
    cases hcomplete : o.task.complete with
    | false => rfl
    | true =>
      -- A certificate task is completed with 0 or 1 only, never with a value that asks to retry.
      rcases o.consistent.certificate hkind hcomplete with hvalue | hvalue
      · rw [hvalue]; rfl
      · rw [hvalue]; rfl

theorem Isolated.step_complete {s : Session} (h : Isolated s) (e : JniCalls) (maxOut : Nat)
    (hallows : s.Allows (.complete e maxOut)) (hreaches : s.ReachesTask (.complete e maxOut)) :
    Machine.Sat s.NullCallback
      (StepsIsolated s.conn.ctx.certificateCallback s (.complete e maxOut))
      (sessionStep hs alert s (.complete e maxOut)) := by
  rcases h.slot with ⟨-, hawaiting, -, -⟩ | ⟨holds, hawaiting, hblocks, hrefs, -⟩
  · simp [Session.Allows, Session.suspended, hawaiting] at hallows
  · rename_i p r consumed o
    have hkind : o.task.body.kind.IsPrivateKey := by
      simpa [Session.Allows, Session.suspended, hawaiting, Kind.IsPrivateKey] using hallows
    obtain ⟨he, htasks⟩ := hreaches.resolve_left (by simp [holds.slot])
    obtain ⟨res, conn, hok, hresumed, hreply⟩ :=
      tcnPrivateKeyCompleteJava_resumed holds he htasks maxOut
    refine h.step_resumed holds hawaiting hblocks hrefs hkind hok hresumed ?_
    rw [hreply]
    cases o.task.complete with
    | false => rfl
    | true => exact asksRetry_copyOut e maxOut _

/-- Each step keeps the invariant and takes outcomes where they belong. -/
theorem Isolated.step {s : Session} {ev : Event} (h : Isolated s) (hallows : s.Allows ev)
    (hreaches : s.ReachesTask ev) :
    Machine.Sat s.NullCallback
      (StepsIsolated s.conn.ctx.certificateCallback s ev) (sessionStep hs alert s ev) := by
  cases ev with
  | certCustomVerify e java => exact h.step_certCustomVerify e java hallows hreaches
  | certificateCb e java => exact h.step_certificateCb e java hallows hreaches
  | sign e maxOut signatureAlgorithm input direct =>
    have hawaiting : s.awaiting = none := Option.map_eq_none_iff.mp hallows
    obtain ⟨htook, hctx, -, hstarted⟩ := privateKeyJava_started (B := (·.kind = .sign))
      (.sslPrivateKeyMethodSignTask signatureAlgorithm input) (fun _ => rfl) e maxOut direct s.conn
    exact h.step_started hawaiting rfl rfl htook hctx hstarted
  | decrypt e maxOut input direct =>
    have hawaiting : s.awaiting = none := Option.map_eq_none_iff.mp hallows
    obtain ⟨htook, hctx, -, hstarted⟩ := privateKeyJava_started (B := (·.kind = .decrypt))
      (.sslPrivateKeyMethodDecryptTask input) (fun _ => rfl) e maxOut direct s.conn
    exact h.step_started hawaiting rfl rfl htook hctx hstarted
  | complete e maxOut => exact h.step_complete e maxOut hallows hreaches
  | getTask =>
    obtain ⟨t, store, hok, hisolated⟩ := h.getTask
    rw [sessionStep_ok (perform_getTask hok)]
    exact ⟨⟨hisolated, rfl⟩, takesOwn_of_none rfl, rfl⟩
  | runTask r completeCallback java =>
    have hisolated := h.edit r fun o => o.run_body java completeCallback
    exact ⟨⟨hisolated.after_void, rfl⟩, takesOwn_of_none rfl, rfl⟩
  | notify r n =>
    have hisolated := h.edit r fun o => o.notify_body n
    exact ⟨⟨hisolated.after_void, rfl⟩, takesOwn_of_none rfl, rfl⟩
  | setUseTasks useTasks =>
    exact ⟨⟨(h.setUseTasks useTasks).after_void, rfl⟩, takesOwn_of_none rfl, rfl⟩

/-- What `freeSSL` leaves behind a session. -/
theorem Isolated.freeSslState {s : Session} (h : Isolated s) :
    ∃ st, Tasks.freeSslState s.conn.store = .ok st ∧ st.AllReleased := by
  rcases h.slot with ⟨hslot, -, hblocks, hrefs⟩ | ⟨holds, -, hblocks, hrefs, -⟩
  · exact ⟨_, freeSslState_none hslot, hblocks.all_released, hrefs.all_released⟩
  · obtain ⟨st, hok, hempty⟩ := holds.freeSslState
    exact ⟨st, hok, (hempty.blocks hblocks).all_released, (hempty.refs hrefs).all_released⟩

/-- What a run yields in which each callback that finds a task looks at it. The
condition may ask for more, and then excludes some of the faults. -/
theorem isolated_run (hs : Handshake) (alert : Int → UInt8) (ctx : TcnSslCtxt) (verifyDepth : Int)
    {P : Session → Event → Prop} {F : Fault → Prop}
    (hP : ∀ s ev, P s ev → s.Allows ev ∧ s.ReachesTask ev)
    (hF : ∀ s ev f, P s ev → s.conn.ctx.certificateCallback = ctx.certificateCallback →
      s.NullCallback f → F f)
    {es : List Event} (hes : Machine.Meets (sessionStep hs alert) P
      (.start (.new ctx verifyDepth)) es) :
    Machine.Sat F
      (fun a => (Isolated a.2 ∧ a.2.conn.ctx.certificateCallback = ctx.certificateCallback) ∧
        ∀ x ∈ a.1, TakesOwn x ∧ x.post.handed = x.pre.handed ++ x.ret.reply.handed)
      (Machine.run (sessionStep hs alert) (.start (.new ctx verifyDepth)) es) := by
  refine Machine.run_sat
    (I := fun s => Isolated s ∧ s.conn.ctx.certificateCallback = ctx.certificateCallback)
    ?_ ⟨isolated_start ctx verifyDepth, rfl⟩ hes
  rintro s ev ⟨hisolated, hcallback⟩ hmeets
  obtain ⟨hallows, hreaches⟩ := hP s ev hmeets
  rw [← hcallback]
  exact (hisolated.step hallows hreaches).imp (fun f => hF s ev f hmeets hcallback)
    fun _ _ hyields => hyields

/-- Every run isolates its operations in which each callback that finds a task
looks at it. -/
theorem sessionRun_isolates (hs : Handshake) (alert : Int → UInt8) (ctx : TcnSslCtxt)
    (verifyDepth : Int) {es : List Event}
    (hes : Machine.Meets (sessionStep hs alert) (fun s ev => s.Allows ev ∧ s.ReachesTask ev)
      (.start (.new ctx verifyDepth)) es) :
    Isolates hs alert (.new ctx verifyDepth) es := by
  have hrun := isolated_run hs alert ctx verifyDepth (fun _ _ h => h)
    (F := NullCall ctx.certificateCallback) (fun s ev f _ hcallback h => hcallback ▸ h.2) hes
  refine hrun.imp (fun _ h => h) ?_
  rintro ⟨t, s'⟩ hres ⟨⟨hisolated, -⟩, ht⟩
  -- The tasks handed out are those that the calls of getTask returned.
  have hhanded : s'.handed = t.flatMap (·.ret.reply.handed) :=
    Machine.run_conserves Session.handed hres fun x hx => (ht x hx).2
  refine ⟨fun x hx => (ht x hx).1, ?_, hisolated.freeSslState⟩
  rw [← hhanded]
  exact hisolated.nodup

end

/-! ## A run that isolates, and one that does not -/

/-- A signature through a task, from its start to its end. -/
theorem sessionRun_isolates_sign :
    Isolates twoCerts (fun _ => 0) (.new taskCtx 1)
      [.sign .succeed 8 0 [1] (.ok none), .complete .succeed 8, .getTask, .getTask,
        .runTask 0 .noop succeedJava, .complete .succeed 8] :=
  sessionRun_isolates twoCerts (fun _ => 0) taskCtx 1 (by decide)

/-- `use_tasks` is cleared while a signature is pending. Its completion reports
success and leaves the task in the slot, and the certificate callback takes it. -/
theorem sessionRun_stale_task :
    Machine.Meets (sessionStep twoCerts fun _ => 0) Session.Allows (.start (.new taskCtx 1))
        [.sign .succeed 8 0 [1] (.ok none), .setUseTasks false, .complete .succeed 8,
          .runTask 0 .noop succeedJava, .certificateCb .succeed succeedJava] ∧
      ¬ Isolates twoCerts (fun _ => 0) (.new taskCtx 1)
        [.sign .succeed 8 0 [1] (.ok none), .setUseTasks false, .complete .succeed 8,
          .runTask 0 .noop succeedJava, .certificateCb .succeed succeedJava] := by
  refine ⟨by decide, ?_⟩
  rintro ⟨htakes, -⟩
  have hlast := htakes _ (.tail _ (.tail _ (.tail _ (.tail _ (.head _)))))
  -- Nothing was suspended when the certificate callback took the task.
  obtain ⟨k, o, hawaiting, -⟩ := hlast 0 rfl
  cases hawaiting

end Tasks
