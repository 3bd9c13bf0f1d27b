-- SUMMARY: The task slot of a connection: how a task is created in it, polled, handed out and freed.
import Tcnative.Base.Arena
import Tcnative.Tasks.Java

/-!
# The task slot

A connection has one slot for a task that waits for Java, `state->ssl_task`. It
points to a `tcn_ssl_task_t`, which holds a global reference to the Java task.
Both are allocated when a callback suspends, and both have to be freed once.
-/

namespace Tasks
open CMem

/-! ## Data -/

/-- `tcn_ssl_task_t`. -/
structure TcnSslTask where
  consumed : Bool
  task : Option Nat
  deriving DecidableEq

/-- `state->ssl_task` with all the `tcn_ssl_task_t`s and all the global
references to Java tasks that the connection ever allocated. -/
structure TaskStore where
  sslTask : Option Nat
  blocks : Arena TcnSslTask
  refs : Arena TaskObject

def TaskStore.empty : TaskStore := ⟨none, [], []⟩

/-- Which of the JNI calls and allocations of one callback succeed. The function
tells the calls of `NewByteArray` apart. -/
structure JniCalls where
  getEnv : Bool
  newObjectArray : Bool
  newByteArray : Nat → Bool
  newStringUTF : Bool
  newLocalFromWeak : Bool
  newObject : Bool
  malloc : Bool
  newGlobalRef : Bool
  getByteArrayElements : Bool

/-- No JNI call fails. -/
def JniCalls.succeed : JniCalls := ⟨true, true, fun _ => true, true, true, true, true, true, true⟩

@[simp] theorem JniCalls.succeed_getEnv : JniCalls.succeed.getEnv = true := rfl

@[simp] theorem JniCalls.succeed_newStringUTF : JniCalls.succeed.newStringUTF = true := rfl

/-! ## Operations -/

/-- `tcn_ssl_task_new`. `none` is NULL. -/
def tcnSslTaskNew (e : JniCalls) (task : Option TaskObject) (st : TaskStore) :
    Option Nat × TaskStore :=
  match task with
  | none => (none, st)
  | some task =>
    if !e.malloc then (none, st)
    -- NewGlobalRef failed: what was allocated is freed again.
    else if !e.newGlobalRef then
      (none, { st with blocks := st.blocks ++ [⟨⟨false, none⟩, true⟩] })
    else
      (some st.blocks.length,
        { st with
          blocks := st.blocks.alloc ⟨false, some st.refs.length⟩
          refs := st.refs.alloc task })

/-- `tcn_ssl_task_free`. -/
def tcnSslTaskFree (sslTask : Option Nat) (st : TaskStore) : Except Fault TaskStore :=
  match sslTask with
  | none => .ok st
  | some p => do
    let block ← st.blocks.get p
    let refs ← match block.task with
      | none => .ok st.refs
      | some r => st.refs.release r
    let blocks ← (st.blocks.update p fun block => { block with task := none }).release p
    return { st with blocks, refs }

/-- `state->ssl_task->task`, ready for its fields to be read. -/
def TaskStore.object (st : TaskStore) (p : Nat) : Except Fault (Nat × TaskObject) := do
  let block ← st.blocks.get p
  match block.task with
  | none => .error .nullPointer
  | some r => do
    let o ← st.refs.get r
    return (r, o)

/-- How a callback resumes that finds a task in the slot: a task that is not
complete stays, a complete one is freed and its slot cleared. -/
def TaskStore.poll (st : TaskStore) (p : Nat) :
    Except Fault (Option (Nat × TaskObject) × TaskStore) := do
  let (r, o) ← st.object p
  if !o.task.complete then return (none, st)
  else
    let st ← tcnSslTaskFree (some p) st
    return (some (r, o), { st with sslTask := none })

/-- How a callback suspends: it looks up the class of the task, creates the
object and overwrites the slot. Says whether the slot holds the task now. -/
def TaskStore.suspend (e : JniCalls) (body : TaskBody) (st : TaskStore) : Bool × TaskStore :=
  -- NETTY_JNI_UTIL_NEW_LOCAL_FROM_WEAK jumps to the end before the slot is written.
  if !e.newLocalFromWeak then (false, st)
  else
    let task := if e.newObject then some (TaskObject.new body) else none
    let (sslTask, st) := tcnSslTaskNew e task st
    (sslTask.isSome, { st with sslTask })

/-- `SSL.getTask`. Returns the global reference. -/
def getTask (st : TaskStore) : Except Fault (Option Nat × TaskStore) :=
  match st.sslTask with
  | none => .ok (none, st)
  | some p => do
    let block ← st.blocks.get p
    -- The task was already consumed by an earlier call.
    if block.consumed then return (none, st)
    else
      let blocks := st.blocks.update p fun block => { block with consumed := true }
      return (block.task, { st with blocks })

/-- `free_ssl_state`, called by `SSL.freeSSL`. -/
def freeSslState (st : TaskStore) : Except Fault TaskStore := do
  let st ← tcnSslTaskFree st.sslTask st
  return { st with sslTask := none }

/-! ## What they do to a slot that holds a live task -/

/-- The slot holds a live block with a live reference to the object. -/
structure TaskStore.Holds (st : TaskStore) (p r : Nat) (consumed : Bool) (o : TaskObject) :
    Prop where
  slot : st.sslTask = some p
  block : st.blocks.Live p ⟨consumed, some r⟩
  ref : st.refs.Live r o

/-- The task of the slot was freed and the slot cleared. -/
structure TaskStore.Emptied (st : TaskStore) (p r : Nat) (st' : TaskStore) : Prop where
  slot : st'.sslTask = none
  blocks : st.blocks.Owns (some p) → st'.blocks.Owns none
  refs : st.refs.Owns (some r) → st'.refs.Owns none
  length : st'.refs.length = st.refs.length
  values : ∀ P, st.refs.Forall P → st'.refs.Forall P
  live : ∀ i o, st'.refs.Live i o → st.refs.Live i o

/-- A new task was stored in the slot. -/
def TaskStore.put (body : TaskBody) (st : TaskStore) : TaskStore where
  sslTask := some st.blocks.length
  blocks := st.blocks.alloc ⟨false, some st.refs.length⟩
  refs := st.refs.alloc (.new body)

/-- No task was stored. A class that is not found leaves the slot alone, any
other failure clears it. -/
structure TaskStore.Failed (st st' : TaskStore) : Prop where
  slot : st'.sslTask = st.sslTask ∨ st'.sslTask = none
  blocks : st'.blocks = st.blocks ∨ st'.blocks = st.blocks ++ [⟨⟨false, none⟩, true⟩]
  refs : st'.refs = st.refs

variable {st : TaskStore} {p r : Nat} {consumed : Bool} {o : TaskObject}

theorem TaskStore.Holds.ref_unique {p' r' : Nat} {consumed' : Bool} {o' : TaskObject}
    (h : st.Holds p r consumed o) (h' : st.Holds p' r' consumed' o') : r = r' := by
  obtain rfl : p = p' := Option.some.inj (h.slot.symm.trans h'.slot)
  have hblock := h.block.unique h'.block
  simp only [TcnSslTask.mk.injEq, Option.some.injEq] at hblock
  exact hblock.2

theorem TaskStore.Holds.unique {p' r' : Nat} {consumed' : Bool} {o' : TaskObject}
    (h : st.Holds p r consumed o) (h' : st.Holds p' r' consumed' o') : o = o' := by
  obtain rfl := h.ref_unique h'
  exact h.ref.unique h'.ref

theorem TaskStore.Holds.object_eq (h : st.Holds p r consumed o) : st.object p = .ok (r, o) := by
  simp only [TaskStore.object, h.block.get_eq, h.ref.get_eq, bind, Except.bind, pure, Except.pure]

theorem TaskStore.Holds.free (h : st.Holds p r consumed o) :
    ∃ st', tcnSslTaskFree (some p) st = .ok st' ∧ st.Emptied p r { st' with sslTask := none } := by
  have hblock := h.block.update fun block => { block with task := none }
  have hfree : tcnSslTaskFree (some p) st = .ok
      { st with
        blocks := (st.blocks.update p fun block => { block with task := none }).set p
          ⟨⟨consumed, none⟩, true⟩
        refs := st.refs.set r ⟨o, true⟩ } := by
    simp only [tcnSslTaskFree, h.block.get_eq, h.ref.release_eq, hblock.release_eq, bind,
      Except.bind, pure, Except.pure]
  refine ⟨_, hfree, ⟨rfl, ?_, ?_, ?_, ?_, ?_⟩⟩
  · intro howns
    exact (howns.update p _).set_released _
  · intro howns
    exact howns.set_released _
  · exact List.length_set
  · intro P hP
    exact hP.set (hP.live h.ref) true
  · intro i o' hlive
    exact ((Arena.live_iff_set h.ref).mp hlive).2

/-- A task that is not complete stays in its slot. -/
theorem TaskStore.Holds.poll_pending (h : st.Holds p r consumed o)
    (hcomplete : o.task.complete = false) : st.poll p = .ok (none, st) := by
  simp only [TaskStore.poll, h.object_eq, hcomplete, bind, Except.bind, pure, Except.pure,
    Bool.not_false, if_true]

/-- A complete task is read, freed and cleared from its slot. -/
theorem TaskStore.Holds.poll_complete (h : st.Holds p r consumed o)
    (hcomplete : o.task.complete = true) :
    ∃ st', st.poll p = .ok (some (r, o), st') ∧ st.Emptied p r st' := by
  obtain ⟨st', hfree, hempty⟩ := h.free
  refine ⟨_, ?_, hempty⟩
  simp only [TaskStore.poll, h.object_eq, hcomplete, hfree, bind, Except.bind, pure, Except.pure,
    Bool.not_true, Bool.false_eq_true, if_false]

theorem tcnSslTaskNew_cases (e : JniCalls) (task : TaskObject) (st : TaskStore) :
    tcnSslTaskNew e (some task) st =
        (some st.blocks.length,
          { st with
            blocks := st.blocks.alloc ⟨false, some st.refs.length⟩
            refs := st.refs.alloc task }) ∨
      ∃ blocks, tcnSslTaskNew e (some task) st = (none, { st with blocks }) ∧
        (blocks = st.blocks ∨ blocks = st.blocks ++ [⟨⟨false, none⟩, true⟩]) := by
  unfold tcnSslTaskNew
  cases e.malloc with
  | false => exact .inr ⟨st.blocks, rfl, .inl rfl⟩
  | true =>
    cases e.newGlobalRef with
    | false => exact .inr ⟨_, rfl, .inr rfl⟩
    | true => exact .inl rfl

theorem TaskStore.suspend_cases (e : JniCalls) (body : TaskBody) (st : TaskStore) :
    st.suspend e body = (true, st.put body) ∨
      ∃ st', st.suspend e body = (false, st') ∧ st.Failed st' := by
  unfold TaskStore.suspend
  cases e.newLocalFromWeak with
  | false => exact .inr ⟨st, rfl, .inl rfl, .inl rfl, rfl⟩
  | true =>
    cases e.newObject with
    | false => exact .inr ⟨{ st with sslTask := none }, rfl, .inr rfl, .inl rfl, rfl⟩
    | true =>
      simp only [Bool.not_true, Bool.false_eq_true, if_false, if_true]
      rcases tcnSslTaskNew_cases e (.new body) st with hnew | ⟨blocks, hnew, hblocks⟩
      · left
        rw [hnew]
        rfl
      · right
        rw [hnew]
        exact ⟨{ st with blocks, sslTask := none }, rfl, .inr rfl, hblocks, rfl⟩

theorem TaskStore.put_holds (body : TaskBody) (st : TaskStore) :
    (st.put body).Holds st.blocks.length st.refs.length false (.new body) where
  slot := rfl
  block := Arena.live_alloc _ _
  ref := Arena.live_alloc _ _

theorem TaskStore.Holds.consume (h : st.Holds p r consumed o) :
    TaskStore.Holds
      { st with blocks := st.blocks.update p fun block => { block with consumed := true } }
      p r true o where
  slot := h.slot
  block := h.block.update fun block => { block with consumed := true }
  ref := h.ref

/-- A task is handed out unless it was before. -/
theorem TaskStore.Holds.getTask_eq (h : st.Holds p r consumed o) :
    getTask st = .ok (if consumed then (none, st) else
      (some r, { st with
        blocks := st.blocks.update p fun block => { block with consumed := true } })) := by
  simp only [getTask, h.slot, h.block.get_eq, bind, Except.bind, pure, Except.pure]
  cases consumed <;> rfl

theorem getTask_none (h : st.sslTask = none) : getTask st = .ok (none, st) := by
  simp only [getTask, h]

theorem TaskStore.Holds.freeSslState (h : st.Holds p r consumed o) :
    ∃ st', freeSslState st = .ok st' ∧ st.Emptied p r st' := by
  obtain ⟨st', hfree, hempty⟩ := h.free
  refine ⟨_, ?_, hempty⟩
  simp only [Tasks.freeSslState, h.slot, hfree, bind, Except.bind, pure, Except.pure]

theorem freeSslState_none (h : st.sslTask = none) : freeSslState st = .ok st := by
  cases st
  cases h
  rfl

end Tasks
