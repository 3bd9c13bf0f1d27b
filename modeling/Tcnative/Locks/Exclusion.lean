-- SUMMARY: Over runs: every lock has one holder, no mutex is used that is not there, and nothing is left in the end.
import Tcnative.Locks.Pools

/-!
# Mutual exclusion

In any order of calls and of the statements of set-up and end, the mutexes implement
the locks, as long as threads lock and unlock in turns and the table is exchanged or
given up only while nobody holds a lock of it.
-/

namespace Locks
open Machine Mutex

/-! ## Answers -/

/-- The lock that a thread tries to get. -/
def Event.tries : Event → Option (Lock × Nat)
  | .lock thread mode type => if isLock mode then some (.static type, thread) else none
  | .dynLock thread mode l => if isLock mode then some (.dyn l, thread) else none
  | _ => none

/-- The library has been given a function for the lock, and the number is that of a lock. -/
def State.Offers (s : State) : Lock → Prop
  | .static type => s.lockingCallback = true ∧ type < s.sslLockNumLocks
  | .dyn _ => s.dynlockLockCallback = true

/-- A thread that tries to get a lock gets it or has to wait for it. Where there is no lock,
nothing happens. -/
def Answered (e : Entry Session Event Reply) : Prop :=
  ∀ k t, e.event.tries = some (k, t) →
    (e.pre.state.Offers k → e.pre.Hears k t e.ret) ∧
      (¬ e.pre.state.Offers k → e.ret = .ignored ∧ e.post = e.pre)

/-- A lock has one holder at a time. -/
def Session.Exclusive (x : Session) : Prop :=
  ∀ k t u, (k, t) ∈ x.held → (k, u) ∈ x.held → t = u

theorem Inv.exclusive {x : Session} (h : Inv x) : x.Exclusive :=
  fun _ _ _ ht hu => h.implements.exclusive ht hu

/-! ## Steps -/

section
variable {x : Session} {n t l : Nat} {mode : BitVec 32} {type : Int}

/-- The answer to a try. -/
theorem answered_of {event : Event} {r : Reply} {post : Session} {k : Lock}
    (htries : event.tries = if isLock mode then some (k, t) else none)
    (hoffered : x.state.Offers k → isLock mode = true → x.Hears k t r)
    (hnot : ¬ x.state.Offers k → r = .ignored ∧ post = x) : Answered ⟨x, event, r, post⟩ := by
  intro k' t' htries'
  rw [htries] at htries'
  split at htries'
  · rename_i hlock
    cases htries'
    exact ⟨fun hoffers => hoffered hoffers hlock, hnot⟩
  · cases htries'

/-- `ssl_thread_lock`. -/
theorem Inv.lock (h : Inv x) (hobeys : Obeys x (.lock t mode type)) :
    ∃ r s', x.state.step n (.lock t mode type) = .ok (r, s') ∧
      Inv (x.note (.lock t mode type) r s') ∧
      Answered ⟨x, .lock t mode type, r, x.note (.lock t mode type) r s'⟩ := by
  by_cases hoffers : x.state.Offers (.static type)
  · obtain ⟨hlocking, hlt⟩ := hoffers
    obtain ⟨hname, htakes⟩ := hobeys hlocking hlt
    obtain ⟨m, hm⟩ := Option.isSome_iff_exists.mp hname
    obtain ⟨r, s', hok, hinv, hhears⟩ := h.lockOrUnlock hm htakes
    refine ⟨r, s', ?_, hinv, answered_of rfl (fun _ => hhears) fun hnot => ?_⟩
    · simp only [State.step, State.callback, hlocking, if_true, sslThreadLock, if_pos hlt,
        State.entry_of_name hm, hok]
    · exact absurd ⟨hlocking, hlt⟩ hnot
  · refine ⟨.ignored, x.state, ?_, h, answered_of rfl (fun hoffered => absurd hoffered hoffers)
      fun _ => ⟨rfl, rfl⟩⟩
    simp only [State.step, State.callback, sslThreadLock]
    split
    · rename_i hlocking
      exact if_neg fun hlt => hoffers ⟨hlocking, hlt⟩
    · rfl

/-- `ssl_dyn_lock_function`. -/
theorem Inv.dynLock (h : Inv x) (hobeys : Obeys x (.dynLock t mode l)) :
    ∃ r s', x.state.step n (.dynLock t mode l) = .ok (r, s') ∧
      Inv (x.note (.dynLock t mode l) r s') ∧
      Answered ⟨x, .dynLock t mode l, r, x.note (.dynLock t mode l) r s'⟩ := by
  by_cases hoffers : x.state.dynlockLockCallback = true
  · obtain ⟨hdyn, htakes⟩ := hobeys hoffers
    obtain ⟨m, hm⟩ := h.name_dyn hdyn
    obtain ⟨v, -, -, hvalue⟩ := State.valueAt_of_name hm
    obtain ⟨r, s', hok, hinv, hhears⟩ := h.lockOrUnlock hm htakes
    refine ⟨r, s', ?_, hinv, answered_of rfl (fun _ => hhears) fun hnot => ?_⟩
    · simp only [State.step, State.callback, hoffers, if_true, sslDynLockFunction, hvalue, hok]
    · exact absurd hoffers hnot
  · refine ⟨.ignored, x.state, ?_, h, answered_of rfl (fun hoffered => absurd hoffered hoffers)
      fun _ => ⟨rfl, rfl⟩⟩
    simp only [State.step, State.callback, if_neg hoffers]

/-- Every step that keeps the rules keeps the invariant, and answers. -/
theorem Inv.step (h : Inv x) (event : Event) (hobeys : Obeys x event) :
    ∃ r s', x.state.step n event = .ok (r, s') ∧ Inv (x.note event r s') ∧
      Answered ⟨x, event, r, x.note event r s'⟩ := by
  cases event with
  | initialize0 created => exact ⟨_, _, rfl, h.initialize0 created, nofun⟩
  | sslInitialize => exact ⟨_, _, rfl, h.sslInitialize, nofun⟩
  | initializeStep ok =>
    obtain ⟨r, s', hok, hinv⟩ := h.initializeStep (n := n) hobeys
    exact ⟨r, s', hok, hinv, nofun⟩
  | terminate =>
    obtain ⟨r, s', hok, hinv⟩ := h.terminate hobeys
    exact ⟨r, s', hok, hinv, nofun⟩
  | terminateStep =>
    obtain ⟨r, s', hok, hinv⟩ := h.terminateStep hobeys
    exact ⟨r, s', hok, hinv, nofun⟩
  | lock thread mode type => exact h.lock hobeys
  | dynLock thread mode l => exact h.dynLock hobeys
  | dynCreate file line calls =>
    cases hcreate : x.state.dynlockCreateCallback with
    | false =>
      refine ⟨.ignored, x.state, ?_, h, nofun⟩
      simp only [State.step, State.callback, hcreate]
      rfl
    | true =>
      obtain ⟨l, s', hok, hinv⟩ := h.dynCreate hcreate hobeys
      refine ⟨.value l, s', ?_, hinv, nofun⟩
      simp only [State.step, State.callback, hcreate, if_true, hok]
  | dynDestroy l =>
    cases hdestroy : x.state.dynlockDestroyCallback with
    | false =>
      refine ⟨.ignored, x.state, ?_, h, nofun⟩
      simp only [State.step, State.callback, hdestroy]
      rfl
    | true =>
      obtain ⟨hdyn, hfree⟩ := hobeys hdestroy
      obtain ⟨s', hok, hinv⟩ := h.dynDestroy hdyn hfree
      refine ⟨.done, s', ?_, hinv, nofun⟩
      simp only [State.step, State.callback, hdestroy, if_true, hok]

end

/-! ## Runs -/

/-- What a step leaves behind: an answer, locks with one holder each, and nothing at all
without the global pool. -/
structure Orderly (e : Entry Session Event Reply) : Prop where
  answered : Answered e
  exclusive : e.post.Exclusive
  empty : e.post.state.tcnGlobalPool = none → e.post.state.Empty

/-- While the threads keep the rules, nothing faults, a lock has one holder at a time, a
thread waits for a lock if and only if another one holds it, and without the global pool
nothing is left. -/
theorem locks_exclusive (n : Nat) (events : List Event)
    (hobeys : Meets (lockStep n) Obeys .start events) :
    ∃ t x, run (lockStep n) .start events = .ok (t, x) ∧ ∀ e ∈ t, Orderly e := by
  have hstep : ∀ x event, Inv x → Obeys x event → ∃ r x', lockStep n x event = .ok (r, x') ∧
      Inv x' ∧ Orderly ⟨x, event, r, x'⟩ := by
    intro x event h hobeys
    obtain ⟨r, s', hok, hinv, hanswered⟩ := h.step (n := n) event hobeys
    exact ⟨r, x.note event r s', by simp only [lockStep, hok], hinv, hanswered, hinv.exclusive,
      hinv.layout.empty⟩
  obtain ⟨t, x, hrun, -, horderly⟩ := run_of_meets hstep inv_start hobeys
  exact ⟨t, x, hrun, horderly⟩

/-- Two threads that contend for a lock of the library's own, and for one that is made on
demand, before the pool ends. -/
def contended : List Event :=
  [.initialize0 true, .sslInitialize] ++ List.replicate 12 (.initializeStep true) ++
    [.lock 1 1 0, .lock 2 1 0, .lock 1 2 0, .lock 2 1 0,
      .dynCreate "file" 7 ⟨true, true, true, true⟩, .dynLock 1 1 0, .dynLock 2 1 0,
      .dynLock 1 2 0, .dynDestroy 0, .lock 2 2 0, .terminate] ++
    List.replicate 5 .terminateStep

theorem locks_exclusive_contended :
    ∃ t x, run (lockStep 2) .start contended = .ok (t, x) ∧ ∀ e ∈ t, Orderly e :=
  locks_exclusive 2 contended (by decide)

-- Without memory for the table, the set-up writes through a null pointer.
example : run (lockStep 1) .start [.initialize0 true, .sslInitialize, .initializeStep true,
    .initializeStep false, .initializeStep true] = .error .nullPointer := rfl

end Locks
