-- SUMMARY: The locks that the native code gives to an old library: set-up, use by threads, and the end of the pool.
import Mathlib.Data.BitVec
import Tcnative.Base.Machine
import Tcnative.Base.Mutexes

/-!
# Locks for the library

Before 1.1.0 OpenSSL leaves locking to its user. `ssl_thread_setup` allocates a table
of mutexes in the global pool and registers functions that lock them, and others that
make locks on demand, each in a pool of its own. Threads call these functions at any
time, also while `SSL.initialize` sets them up again after it has failed, and while
`apr_terminate` destroys the pool. So the set-up and the end of the pool are taken one
statement at a time.
-/

namespace Locks

/-! ## Data -/

/-- The ways to leave defined behaviour. An entry of the table is uninitialised until
its mutex was made. -/
inductive Fault where
  | mutex (fault : Mutex.Fault)
  | useAfterFree
  | uninitialized
  | nullPointer
  | outOfBounds
  deriving DecidableEq, Repr

/-- `struct CRYPTO_dynlock_value`. The mutex is made last. -/
structure CryptoDynlockValue where
  pool : Nat
  file : Option String
  line : Int
  mutex : Option Nat

/-- The memory behind `ssl_lock_cs`, and its pool. -/
structure Table where
  pool : Nat
  entries : List (Option Nat)

/-- What is registered on the global pool. A mutex registers its own end. -/
inductive Cleanup where
  | mutex (i : Nat)
  | sslThreadCleanup
  | sslInitCleanup
  deriving DecidableEq

/-- The statements of `ssl_thread_setup`. -/
inductive Statement where
  | numLocks
  | palloc
  | createMutex (i : Nat)
  | lockingCallback
  | dynlockpool
  | createCallback
  | lockCallback
  | destroyCallback
  | register
  deriving DecidableEq

/-- What the thread does that initialises the library or ends it: nothing, the next
statement of `ssl_thread_setup`, the rest of `SSL.initialize`, or `apr_terminate`. -/
inductive Phase where
  | idle
  | setup (next : Statement)
  | rest
  | terminating
  deriving DecidableEq

/-- The pools with their parents, what lives in them, the static variables, and the
functions that the library has been given. `cleanups` is of the global pool, the newest
first. -/
structure State where
  pools : Arena (Option Nat)
  mutexes : Mutex.Store Nat Nat
  values : Arena CryptoDynlockValue
  tables : Arena Table
  cleanups : List Cleanup
  phase : Phase
  tcnGlobalPool : Option Nat
  sslInitialized : UInt32
  sslLockCs : Option Nat
  sslLockNumLocks : Nat
  dynlockpool : Option Nat
  lockingCallback : Bool
  dynlockCreateCallback : Bool
  dynlockLockCallback : Bool
  dynlockDestroyCallback : Bool

/-- The library was just loaded. -/
def State.loaded : State :=
  ⟨[], [], [], [], [], .idle, none, 0, none, 0, none, false, false, false, false⟩

/-- What a call returns. A thread that has to wait tries again. A call does nothing
where the library has no function for it. -/
inductive Reply where
  | done
  | ignored
  | acquired
  | wait
  | released
  | value (lock : Option Nat)
  deriving DecidableEq

/-- `mode & CRYPTO_LOCK`. Read locks are locks like any other. -/
def isLock (mode : BitVec 32) : Bool := mode &&& 1 ≠ 0

/-! ## Pools -/

/-- A pool with that parent. -/
def State.isUnder (s : State) (parent : Nat) (pool : Nat) : Bool :=
  s.pools.peek pool = some (some parent)

/-- `apr_pool_destroy` of a pool without subpools: its mutexes are destroyed, then its
memory is freed. -/
def State.aprPoolDestroy (s : State) (pool : Nat) : Except Fault State :=
  match s.pools.release pool with
  | .error _ => .error .useAfterFree
  | .ok pools =>
    match s.mutexes.destroyWhere (· = pool) with
    | .error fault => .error (.mutex fault)
    | .ok mutexes =>
      .ok { s with pools, mutexes, values := s.values.releaseWhere (·.pool = pool) }

/-- The first thing that `apr_pool_destroy` does is to destroy all subpools. No pool is
made in one of these. -/
def State.destroySubpools (s : State) (pool : Nat) : Except Fault State :=
  match s.mutexes.destroyWhere (s.isUnder pool) with
  | .error fault => .error (.mutex fault)
  | .ok mutexes =>
    .ok { s with
      mutexes
      values := s.values.releaseWhere (s.isUnder pool ·.pool)
      pools := s.pools.releaseWhere (· = some pool) }

/-! ## Locking -/

/-- `ssl_lock_cs[type]`. -/
def State.entry (s : State) (type : Int) : Except Fault Nat :=
  match s.sslLockCs.bind s.tables.peek with
  | none => .error (if s.sslLockCs.isSome then .useAfterFree else .nullPointer)
  | some table =>
    if type < 0 then .error .outOfBounds
    else
      match table.entries[type.toNat]? with
      | none => .error .outOfBounds
      | some none => .error .uninitialized
      | some (some mutex) => .ok mutex

/-- `apr_thread_mutex_lock` or `apr_thread_mutex_unlock`. -/
def State.lockOrUnlock (s : State) (thread : Nat) (mode : BitVec 32) (mutex : Nat) :
    Except Fault (Reply × State) :=
  if isLock mode then
    match s.mutexes.lock mutex thread with
    | .error fault => .error (.mutex fault)
    | .ok (got, mutexes) => .ok (if got then .acquired else .wait, { s with mutexes })
  else
    match s.mutexes.unlock mutex thread with
    | .error fault => .error (.mutex fault)
    | .ok mutexes => .ok (.released, { s with mutexes })

/-- `ssl_thread_lock`. -/
def sslThreadLock (s : State) (thread : Nat) (mode : BitVec 32) (type : Int) :
    Except Fault (Reply × State) :=
  if type < s.sslLockNumLocks then
    match s.entry type with
    | .error fault => .error fault
    | .ok mutex => s.lockOrUnlock thread mode mutex
  else .ok (.ignored, s)

/-- What succeeds in `ssl_dyn_create_function`. -/
structure CreateCalls where
  poolCreate : Bool
  palloc : Bool
  pstrdup : Bool
  mutexCreate : Bool

/-- `ssl_dyn_create_function`. Without memory for the value the new pool stays. -/
def sslDynCreateFunction (s : State) (file : String) (line : Int) (calls : CreateCalls) :
    Except Fault (Option Nat × State) :=
  if !calls.poolCreate then .ok (none, s)
  else
    let p := s.pools.length
    let s := { s with pools := s.pools.alloc s.dynlockpool }
    if !calls.palloc then .ok (none, s)
    else
      let value := s.values.length
      let s := { s with
        values := s.values.alloc ⟨p, if calls.pstrdup then some file else none, line, none⟩ }
      if !calls.mutexCreate then
        match s.aprPoolDestroy p with
        | .error fault => .error fault
        | .ok s => .ok (none, s)
      else
        .ok (some value, { s with
          mutexes := s.mutexes.create p
          values := s.values.update value fun v => { v with mutex := some s.mutexes.length } })

/-- A pointer to a `CRYPTO_dynlock_value`, and its mutex. -/
def State.valueAt (s : State) (l : Nat) : Except Fault (CryptoDynlockValue × Nat) :=
  match s.values.peek l with
  | none => .error .useAfterFree
  | some v =>
    match v.mutex with
    | none => .error .uninitialized
    | some mutex => .ok (v, mutex)

/-- `ssl_dyn_lock_function`. -/
def sslDynLockFunction (s : State) (thread : Nat) (mode : BitVec 32) (l : Nat) :
    Except Fault (Reply × State) :=
  match s.valueAt l with
  | .error fault => .error fault
  | .ok (_, mutex) => s.lockOrUnlock thread mode mutex

/-- `ssl_dyn_destroy_function`. -/
def sslDynDestroyFunction (s : State) (l : Nat) : Except Fault State :=
  match s.valueAt l with
  | .error fault => .error fault
  | .ok (v, mutex) =>
    match s.mutexes.destroy mutex with
    | .error fault => .error (.mutex fault)
    | .ok mutexes => { s with mutexes }.aprPoolDestroy v.pool

/-! ## Set-up and end -/

/-- `ssl_thread_cleanup`. -/
def sslThreadCleanup (s : State) : State :=
  { s with
    lockingCallback := false
    dynlockCreateCallback := false
    dynlockLockCallback := false
    dynlockDestroyCallback := false
    dynlockpool := none }

/-- `apr_thread_mutex_create(&ssl_lock_cs[i], .., p)`. Nobody looks at its result, and a
mutex that was not made leaves the entry as it is. -/
def createTableMutex (s : State) (p i : Nat) (created : Bool) : Except Fault State :=
  if !created then .ok s
  else
    match s.sslLockCs with
    | none => .error .nullPointer
    | some table =>
      .ok { s with
        mutexes := s.mutexes.create p
        cleanups := .mutex s.mutexes.length :: s.cleanups
        tables := s.tables.update table fun t =>
          { t with entries := t.entries.set i (some s.mutexes.length) } }

/-- One statement of `ssl_thread_setup(p)`. The library has `n` locks, and `ok` says
whether memory or a mutex could be allocated. -/
def sslThreadSetup (n : Nat) (s : State) (p : Nat) (ok : Bool) : Statement → Except Fault State
  | .numLocks => .ok { s with sslLockNumLocks := n, phase := .setup .palloc }
  | .palloc =>
    if ok then
      .ok { s with
        sslLockCs := some s.tables.length
        tables := s.tables.alloc ⟨p, List.replicate s.sslLockNumLocks none⟩
        phase := .setup (.createMutex 0) }
    else .ok { s with sslLockCs := none, phase := .setup (.createMutex 0) }
  | .createMutex i =>
    if i < s.sslLockNumLocks then
      match createTableMutex s p i ok with
      | .error fault => .error fault
      | .ok s => .ok { s with phase := .setup (.createMutex (i + 1)) }
    else .ok { s with phase := .setup .lockingCallback }
  | .lockingCallback => .ok { s with lockingCallback := true, phase := .setup .dynlockpool }
  | .dynlockpool => .ok { s with dynlockpool := some p, phase := .setup .createCallback }
  | .createCallback =>
    .ok { s with dynlockCreateCallback := true, phase := .setup .lockCallback }
  | .lockCallback =>
    .ok { s with dynlockLockCallback := true, phase := .setup .destroyCallback }
  | .destroyCallback => .ok { s with dynlockDestroyCallback := true, phase := .setup .register }
  | .register => .ok { s with cleanups := .sslThreadCleanup :: s.cleanups, phase := .rest }

/-- The next step of a thread that is in `SSL.initialize`. In the rest of it `ok` says
whether it succeeds. If not, `ssl_init_cleanup` runs at once. -/
def initializeStep (n : Nat) (s : State) (ok : Bool) : Except Fault (Reply × State) :=
  match s.phase, s.tcnGlobalPool with
  | .setup next, some p =>
    match sslThreadSetup n s p ok next with
    | .error fault => .error fault
    | .ok s => .ok (.done, s)
  | .rest, _ =>
    if ok then .ok (.done, { s with cleanups := .sslInitCleanup :: s.cleanups, phase := .idle })
    else .ok (.done, { s with sslInitialized := 0, phase := .idle })
  | _, _ => .ok (.ignored, s)

/-- `SSL.initialize` up to `ssl_thread_setup`. -/
def sslInitialize (s : State) : Reply × State :=
  match s.phase, s.tcnGlobalPool with
  -- No Java code runs any more when the classes are unloaded.
  | .terminating, _ | _, none => (.ignored, s)
  | _, some _ =>
    let counted := { s with sslInitialized := s.sslInitialized + 1 }
    -- The counter also keeps a second thread out of a set-up that is going on.
    if s.sslInitialized ≠ 0 ∨ s.phase ≠ .idle then (.done, counted)
    else (.done, { counted with phase := .setup .numLocks })

/-- `Library.initialize0`. -/
def initialize0 (s : State) (created : Bool) : Reply × State :=
  match s.tcnGlobalPool with
  | some _ => (.done, s)
  | none =>
    if created then
      (.done, { s with tcnGlobalPool := some s.pools.length, pools := s.pools.alloc none })
    else (.ignored, s)

/-- The start of `apr_terminate` when the classes are unloaded. -/
def terminate (s : State) : Except Fault (Reply × State) :=
  match s.phase, s.tcnGlobalPool with
  | .idle, some p =>
    match s.destroySubpools p with
    | .error fault => .error fault
    | .ok s => .ok (.done, { s with phase := .terminating })
  | _, _ => .ok (.ignored, s)

/-- The next step of `apr_terminate`: what is registered last, or the memory of the pool
and `tcn_global_pool = NULL`. -/
def terminateStep (s : State) : Except Fault (Reply × State) :=
  match s.phase, s.tcnGlobalPool with
  | .terminating, some p =>
    match s.cleanups with
    | .mutex i :: cleanups =>
      match s.mutexes.destroy i with
      | .error fault => .error (.mutex fault)
      | .ok mutexes => .ok (.done, { s with mutexes, cleanups })
    | .sslThreadCleanup :: cleanups => .ok (.done, { sslThreadCleanup s with cleanups })
    | .sslInitCleanup :: cleanups => .ok (.done, { s with sslInitialized := 0, cleanups })
    | [] =>
      match s.pools.release p with
      | .error _ => .error .useAfterFree
      | .ok pools =>
        .ok (.done, { s with
          pools
          tables := s.tables.releaseWhere (·.pool = p)
          tcnGlobalPool := none
          phase := .idle })
  | _, _ => .ok (.ignored, s)

/-! ## Runs -/

/-- A step of the thread that initialises or ends the library, or a call of the library
from any thread. -/
inductive Event where
  | initialize0 (created : Bool)
  | sslInitialize
  | initializeStep (ok : Bool)
  | terminate
  | terminateStep
  | lock (thread : Nat) (mode : BitVec 32) (type : Int)
  | dynCreate (file : String) (line : Int) (calls : CreateCalls)
  | dynLock (thread : Nat) (mode : BitVec 32) (l : Nat)
  | dynDestroy (l : Nat)

/-- The library calls a function that it has been given. -/
def State.callback (s : State) (given : Bool) (call : Except Fault (Reply × State)) :
    Except Fault (Reply × State) :=
  if given then call else .ok (.ignored, s)

def State.step (n : Nat) (s : State) : Event → Except Fault (Reply × State)
  | .initialize0 created => .ok (Locks.initialize0 s created)
  | .sslInitialize => .ok (Locks.sslInitialize s)
  | .initializeStep ok => Locks.initializeStep n s ok
  | .terminate => Locks.terminate s
  | .terminateStep => Locks.terminateStep s
  | .lock thread mode type =>
    s.callback s.lockingCallback (sslThreadLock s thread mode type)
  | .dynCreate file line calls =>
    s.callback s.dynlockCreateCallback <|
      match sslDynCreateFunction s file line calls with
      | .error fault => .error fault
      | .ok (l, s) => .ok (.value l, s)
  | .dynLock thread mode l =>
    s.callback s.dynlockLockCallback (sslDynLockFunction s thread mode l)
  | .dynDestroy l =>
    s.callback s.dynlockDestroyCallback <|
      match sslDynDestroyFunction s l with
      | .error fault => .error fault
      | .ok s => .ok (.done, s)

/-- A lock as the threads know it: one of the library's own, or one made on demand. -/
inductive Lock where
  | static (type : Int)
  | dyn (l : Nat)
  deriving DecidableEq

/-- What the threads were told: who holds which lock, and which locks were made and not
destroyed. -/
structure Session where
  state : State
  held : List (Lock × Nat)
  dyns : List Nat

def Session.start : Session := ⟨.loaded, [], []⟩

/-- A thread hears whether it has a lock now. -/
def hear (held : List (Lock × Nat)) (lock : Lock) (thread : Nat) : Reply → List (Lock × Nat)
  | .acquired => (lock, thread) :: held
  | .released => held.filter (· ≠ (lock, thread))
  | _ => held

/-- Locks that were made on demand end with the pool. -/
def Session.note (x : Session) : Event → Reply → State → Session
  | .lock thread _ type, r, state => { x with state, held := hear x.held (.static type) thread r }
  | .dynLock thread _ l, r, state => { x with state, held := hear x.held (.dyn l) thread r }
  | .dynCreate .., .value (some l), state => { x with state, dyns := l :: x.dyns }
  | .dynDestroy l, .done, state => { x with state, dyns := x.dyns.filter (· ≠ l) }
  | .terminate, .done, state => { x with state, dyns := [] }
  | _, _, state => { x with state }

def lockStep (n : Nat) : Machine.Step Fault Session Event Reply :=
  fun x event =>
    match x.state.step n event with
    | .error fault => .error fault
    | .ok (r, state) => .ok (r, x.note event r state)

end Locks
