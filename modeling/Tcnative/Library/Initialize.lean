-- SUMMARY: Initialisation and clean-up of the native library: the life of the BIO method table over rounds of both.
import Tcnative.Base.Arena
import Tcnative.Base.Machine

/-!
# Initialisation and clean-up

`SSL.initialize` counts its calls, and only the first one sets up the library.
When a later part of the set-up fails it runs the same clean-up that is
registered on the global pool. The model is the build with OpenSSL 1.1.0 or
later and engine support, where the BIO methods are a table on the heap.
-/

namespace Library
open CMem

/-! ## Data -/

/-- The status codes that `SSL.initialize` returns. -/
inductive AprStatus where
  | success
  | einval
  | enotimpl
  deriving DecidableEq, Repr

/-- The entries of `SSL_temp_keys`. -/
inductive TmpKey where
  | dh512
  | dh1024
  | dh2048
  | dh4096
  deriving DecidableEq, Repr

/-- The static variables of the library, and every BIO method table that
`BIO_meth_new` ever returned. The global pool is the number of times that
`ssl_init_cleanup` is registered on it. Of the engine, the UI method and the
temporary keys it only matters whether the pointer is NULL. -/
structure Statics where
  tcnGlobalPool : Option Nat
  sslInitialized : UInt32
  bioJavaBytebufferMethods : Option Nat
  tables : Arena Unit
  tcnSslEngine : Bool
  uiMethod : Bool
  sslTempKeys : TmpKey → Bool

/-- A library that was just loaded. -/
def Statics.loaded : Statics := ⟨none, 0, none, [], false, false, fun _ => false⟩

/-- What succeeds during one call of `SSL.initialize`. -/
structure InitializeCalls where
  engineById : Bool
  tryLoadEngine : Bool
  engineSetDefault : Bool
  uiCreateMethod : Bool
  uiMethodSetOpener : Bool
  uiMethodSetCloser : Bool
  uiMethodSetReader : Bool
  uiMethodSetWriter : Bool
  dhGetTmpParam : TmpKey → Bool

/-! ## The code -/

/-- `init_bio_methods`. -/
def initBioMethods (s : Statics) : Statics :=
  { s with
    bioJavaBytebufferMethods := some s.tables.length
    tables := s.tables.alloc () }

/-- `free_bio_methods`. The pointer stays as it is. -/
def freeBioMethods (s : Statics) : Except Fault Statics :=
  match s.tables.releaseOpt s.bioJavaBytebufferMethods with
  | .error f => .error f
  | .ok tables => .ok { s with tables }

/-- `ssl_init_cleanup`. -/
def sslInitCleanup (s : Statics) : Except Fault Statics :=
  if s.sslInitialized = 0 then .ok s
  else
    match freeBioMethods { s with sslInitialized := 0, sslTempKeys := fun _ => false } with
    | .error f => .error f
    | .ok s => .ok { s with tcnSslEngine := false, uiMethod := false }

/-- The engine part of `SSL.initialize`. It returns the error that it jumps to
the clean-up with. -/
def setUpEngine (s : Statics) (engine : Option String) (calls : InitializeCalls) :
    Option AprStatus × Statics :=
  match engine with
  | none => (none, s)
  | some name =>
    if name = "auto" then (none, s)
    else if !calls.engineById && !calls.tryLoadEngine then
      (some .enotimpl, { s with tcnSslEngine := false })
    else if !calls.engineSetDefault then (some .enotimpl, { s with tcnSslEngine := true })
    else if !calls.uiCreateMethod then
      (some .einval, { s with tcnSslEngine := true, uiMethod := false })
    else if !calls.uiMethodSetOpener || !calls.uiMethodSetCloser || !calls.uiMethodSetReader ||
        !calls.uiMethodSetWriter then
      (some .einval, { s with tcnSslEngine := true, uiMethod := true })
    else (none, { s with tcnSslEngine := true, uiMethod := true })

/-- `SSL_TMP_KEYS_INIT`. It tries all four keys, and returns whether one failed. -/
def sslTmpKeysInit (s : Statics) (calls : InitializeCalls) : Bool × Statics :=
  (!calls.dhGetTmpParam .dh512 || !calls.dhGetTmpParam .dh1024 || !calls.dhGetTmpParam .dh2048 ||
    !calls.dhGetTmpParam .dh4096, { s with sslTempKeys := calls.dhGetTmpParam })

/-- The `error` label of `SSL.initialize`. -/
def initializeError (s : Statics) (err : AprStatus) : Except Fault (AprStatus × Statics) :=
  match sslInitCleanup s with
  | .error f => .error f
  | .ok s => .ok (err, s)

/-- `SSL.initialize` behind the counter. Temporary keys exist before OpenSSL 3.0
only. -/
def initializeFirst (tmpKeys : Bool) (s : Statics) (hooks : Nat) (engine : Option String)
    (calls : InitializeCalls) : Except Fault (AprStatus × Statics) :=
  match setUpEngine s engine calls with
  | (some err, s) => initializeError s err
  | (none, s) =>
    match if tmpKeys then sslTmpKeysInit (initBioMethods s) calls
      else (false, initBioMethods s) with
    | (true, s) => initializeError s .enotimpl
    | (false, s) => .ok (.success, { s with tcnGlobalPool := some (hooks + 1) })

/-- `SSL.initialize`. -/
def sslInitialize (tmpKeys : Bool) (s : Statics) (engine : Option String)
    (calls : InitializeCalls) : Except Fault (AprStatus × Statics) :=
  match s.tcnGlobalPool with
  | none => .ok (.einval, s)
  | some hooks =>
    let counted := { s with sslInitialized := s.sslInitialized + 1 }
    if s.sslInitialized ≠ 0 then .ok (.success, counted)
    else initializeFirst tmpKeys counted hooks engine calls

/-- `Library.initialize0`, which fails if no pool can be created. -/
def initialize0 (s : Statics) (created : Bool) : Bool × Statics :=
  match s.tcnGlobalPool with
  | some _ => (true, s)
  | none => if created then (true, { s with tcnGlobalPool := some 0 }) else (false, s)

/-- Run the clean-up as often as it is registered. -/
def runCleanups : Nat → Statics → Except Fault Statics
  | 0, s => .ok s
  | n + 1, s =>
    match sslInitCleanup s with
    | .error f => .error f
    | .ok s => runCleanups n s

/-- `apr_terminate` and `tcn_global_pool = NULL`: the pool is destroyed, which
runs what is registered on it. -/
def terminate (s : Statics) : Except Fault Statics :=
  match s.tcnGlobalPool with
  | none => .ok s
  | some hooks =>
    match runCleanups hooks s with
    | .error f => .error f
    | .ok s => .ok { s with tcnGlobalPool := none }

/-! ## Runs -/

/-- A call from Java, or the end of the pool. -/
inductive Event where
  | initialize0 (created : Bool)
  | sslInitialize (engine : Option String) (calls : InitializeCalls)
  | terminate

inductive Reply where
  | created (ok : Bool)
  | status (err : AprStatus)
  | terminated
  deriving DecidableEq, Repr

/-- The library, and whether an initialisation has succeeded since the last
clean-up. -/
structure Session where
  statics : Statics
  ready : Bool

def Session.start : Session := ⟨.loaded, false⟩

/-- Only the first call of `SSL.initialize` runs a clean-up when it fails, and
`terminate` runs what is registered. -/
def libraryStep (tmpKeys : Bool) : Machine.Step Fault Session Event Reply :=
  fun x event =>
    match event with
    | .initialize0 created =>
      match initialize0 x.statics created with
      | (ok, s) => .ok (.created ok, { x with statics := s })
    | .sslInitialize engine calls =>
      match sslInitialize tmpKeys x.statics engine calls with
      | .error f => .error f
      | .ok (.success, s) => .ok (.status .success, ⟨s, true⟩)
      | .ok (err, s) => .ok (.status err, ⟨s, x.ready && x.statics.tcnGlobalPool.isNone⟩)
    | .terminate =>
      match terminate x.statics with
      | .error f => .error f
      | .ok s => .ok (.terminated, ⟨s, x.ready && (x.statics.tcnGlobalPool.getD 0 == 0)⟩)

/-! ## The table -/

/-- The pointer is to a table that has not been freed. -/
def Statics.TableLive (s : Statics) : Prop :=
  ∃ i, s.bioJavaBytebufferMethods = some i ∧ s.tables.Live i ()

/-- The pointer is NULL or to a table that has not been freed. -/
def Statics.Freeable (s : Statics) : Prop := s.bioJavaBytebufferMethods = none ∨ s.TableLive

theorem initBioMethods_live (s : Statics) : (initBioMethods s).TableLive :=
  ⟨s.tables.length, rfl, Arena.live_alloc s.tables ()⟩

/-- What a clean-up keeps, and what it resets. -/
structure Cleaned (s s' : Statics) : Prop where
  sslInitialized : s'.sslInitialized = 0
  tcnGlobalPool : s'.tcnGlobalPool = s.tcnGlobalPool

theorem freeBioMethods_ok {s : Statics} (h : s.Freeable) :
    ∃ tables, freeBioMethods s = .ok { s with tables } := by
  rcases h with hnull | ⟨i, hi, hlive⟩
  · exact ⟨s.tables, by simp only [freeBioMethods, hnull, Arena.releaseOpt]⟩
  · exact ⟨s.tables.set i ⟨(), true⟩, by
      simp only [freeBioMethods, hi, Arena.releaseOpt, hlive.release_eq]⟩

theorem freeBioMethods_fault {s : Statics} (h : ¬ s.Freeable) :
    freeBioMethods s = .error .useAfterFree := by
  cases hi : s.bioJavaBytebufferMethods with
  | none => exact absurd (.inl hi) h
  | some i =>
    have hdead : s.tables.release i = .error .useAfterFree := by
      unfold Arena.release
      split
      · rename_i v hget
        exact absurd (.inr ⟨i, hi, hget⟩) h
      · rfl
    simp only [freeBioMethods, hi, Arena.releaseOpt, hdead]

/-- A clean-up that does anything frees the table behind the pointer. -/
theorem sslInitCleanup_ok {s : Statics} (h : s.sslInitialized ≠ 0 → s.Freeable) :
    ∃ s', sslInitCleanup s = .ok s' ∧ Cleaned s s' := by
  by_cases hcount : s.sslInitialized = 0
  · exact ⟨s, if_pos hcount, hcount, rfl⟩
  · have hreset : { s with sslInitialized := 0, sslTempKeys := fun _ => false }.Freeable :=
      h hcount
    obtain ⟨tables, hfree⟩ := freeBioMethods_ok hreset
    rw [sslInitCleanup, if_neg hcount, hfree]
    exact ⟨_, rfl, rfl, rfl⟩

theorem sslInitCleanup_fault {s : Statics} (hcount : s.sslInitialized ≠ 0) (h : ¬ s.Freeable) :
    sslInitCleanup s = .error .useAfterFree := by
  have hreset : ¬ { s with sslInitialized := 0, sslTempKeys := fun _ => false }.Freeable := h
  rw [sslInitCleanup, if_neg hcount, freeBioMethods_fault hreset]

/-- The clean-ups of a pool: the first one does it all. -/
theorem runCleanups_ok (n : Nat) {s : Statics} (h : s.sslInitialized ≠ 0 → s.TableLive) :
    ∃ s', runCleanups n s = .ok s' ∧ (n = 0 → s' = s) ∧ (n ≠ 0 → s'.sslInitialized = 0) := by
  induction n generalizing s with
  | zero => exact ⟨s, rfl, fun _ => rfl, fun hne => absurd rfl hne⟩
  | succ n ih =>
    obtain ⟨s₁, hclean, hcleaned⟩ := sslInitCleanup_ok fun hcount => .inr (h hcount)
    obtain ⟨s₂, hrun, hzero, hreset⟩ := ih fun hcount => absurd hcleaned.sslInitialized hcount
    refine ⟨s₂, ?_, fun hn => absurd hn n.succ_ne_zero, fun _ => ?_⟩
    · simp only [runCleanups, hclean, hrun]
    · by_cases hn : n = 0
      · rw [hzero hn]
        exact hcleaned.sslInitialized
      · exact hreset hn

/-! ## When the engine part fails -/

/-- An engine other than `auto` was asked for, and something about it fails. -/
def EngineFails (engine : Option String) (calls : InitializeCalls) : Prop :=
  engine ≠ none ∧ engine ≠ some "auto" ∧
    ¬ ((calls.engineById = true ∨ calls.tryLoadEngine = true) ∧ calls.engineSetDefault = true ∧
      calls.uiCreateMethod = true ∧ calls.uiMethodSetOpener = true ∧
      calls.uiMethodSetCloser = true ∧ calls.uiMethodSetReader = true ∧
      calls.uiMethodSetWriter = true)

/-- Nothing changed that the table depends on. -/
structure SameTable (s s' : Statics) : Prop where
  sslInitialized : s'.sslInitialized = s.sslInitialized
  methods : s'.bioJavaBytebufferMethods = s.bioJavaBytebufferMethods
  tables : s'.tables = s.tables

theorem SameTable.live {s s' : Statics} (h : SameTable s s') : s'.TableLive ↔ s.TableLive := by
  simp only [Statics.TableLive, h.methods, h.tables]

theorem SameTable.freeable {s s' : Statics} (h : SameTable s s') :
    s'.Freeable ↔ s.Freeable := by
  simp only [Statics.Freeable, h.methods, h.live]

theorem setUpEngine_same (s : Statics) (engine : Option String) (calls : InitializeCalls) :
    SameTable s (setUpEngine s engine calls).2 := by
  cases engine with
  | none => exact ⟨rfl, rfl, rfl⟩
  | some name =>
    simp only [setUpEngine]
    repeat' split
    all_goals exact ⟨rfl, rfl, rfl⟩

theorem setUpEngine_isSome (s : Statics) (engine : Option String) (calls : InitializeCalls) :
    (setUpEngine s engine calls).1.isSome = true ↔ EngineFails engine calls := by
  cases engine with
  | none => exact iff_of_false nofun fun h => h.1 rfl
  | some name =>
    by_cases hauto : name = "auto"
    · rw [setUpEngine, if_pos hauto]
      exact iff_of_false nofun fun h => h.2.1 (congrArg some hauto)
    have hname : some name ≠ some "auto" := fun h => hauto (Option.some.inj h)
    simp only [setUpEngine, if_neg hauto]
    split
    · exact iff_of_true rfl ⟨nofun, hname, by simp_all⟩
    split
    · exact iff_of_true rfl ⟨nofun, hname, by simp_all⟩
    split
    · exact iff_of_true rfl ⟨nofun, hname, by simp_all⟩
    split
    · exact iff_of_true rfl ⟨nofun, hname, by grind⟩
    · exact iff_of_false nofun fun h => h.2.2 (by grind)

/-! ## What one call does -/

/-- The first call of `SSL.initialize` does not fail in its engine part while the
pointer is to a table that was freed. -/
def Event.Safe (x : Session) : Event → Prop
  | .sslInitialize engine calls =>
    x.statics.tcnGlobalPool ≠ none → x.statics.sslInitialized = 0 → EngineFails engine calls →
      x.statics.Freeable
  | .initialize0 _ | .terminate => True

/-- An initialised library has a table. -/
structure Session.Inv (x : Session) : Prop where
  counted : x.statics.sslInitialized ≠ 0 → x.statics.TableLive
  ready : x.ready = true → x.statics.TableLive

theorem Session.start_inv : Session.start.Inv where
  counted h := absurd rfl h
  ready h := by cases h

/-- Only a first call on a pool does more than count. -/
theorem sslInitialize_idle (tmpKeys : Bool) {s : Statics} (engine : Option String)
    (calls : InitializeCalls) (h : s.tcnGlobalPool = none ∨ s.sslInitialized ≠ 0) :
    (s.tcnGlobalPool = none ∧ sslInitialize tmpKeys s engine calls = .ok (.einval, s)) ∨
      (s.sslInitialized ≠ 0 ∧ sslInitialize tmpKeys s engine calls =
        .ok (.success, { s with sslInitialized := s.sslInitialized + 1 })) := by
  cases hpool : s.tcnGlobalPool with
  | none => exact .inl ⟨rfl, by simp only [sslInitialize, hpool]⟩
  | some hooks =>
    rcases h with hnone | hcount
    · cases hpool.symm.trans hnone
    · exact .inr ⟨hcount, by simp only [sslInitialize, hpool, if_pos hcount]⟩

theorem setUpEngine_ne_success (s : Statics) (engine : Option String) (calls : InitializeCalls) :
    (setUpEngine s engine calls).1 ≠ some .success := by
  cases engine with
  | none => nofun
  | some name =>
    simp only [setUpEngine]
    repeat' split
    all_goals nofun

/-- What a first call on a pool leaves behind: a table, or nothing initialised. -/
def FirstDone (err : AprStatus) (s' : Statics) : Prop :=
  if err = .success then s'.TableLive else s'.sslInitialized = 0

theorem initializeError_ok {s : Statics} {err : AprStatus} (herr : err ≠ .success)
    (h : s.Freeable) : ∃ s', initializeError s err = .ok (err, s') ∧ FirstDone err s' := by
  obtain ⟨s', hclean, hcleaned⟩ := sslInitCleanup_ok fun _ => h
  refine ⟨s', by simp only [initializeError, hclean], ?_⟩
  rw [FirstDone, if_neg herr]
  exact hcleaned.sslInitialized

/-- A first call whose engine part fails runs the clean-up at once. -/
theorem initializeFirst_fails (tmpKeys : Bool) (s : Statics) (hooks : Nat)
    {engine : Option String} {calls : InitializeCalls} (hfails : EngineFails engine calls) :
    ∃ err s₁, err ≠ .success ∧ SameTable s s₁ ∧
      initializeFirst tmpKeys s hooks engine calls = initializeError s₁ err := by
  have hsame := setUpEngine_same s engine calls
  have herr := setUpEngine_ne_success s engine calls
  have hsome := (setUpEngine_isSome s engine calls).mpr hfails
  cases hset : setUpEngine s engine calls with
  | mk r s₁ =>
    rw [hset] at hsame herr hsome
    cases r with
    | none => cases hsome
    | some err =>
      refine ⟨err, s₁, fun h => herr (congrArg some h), hsame, ?_⟩
      simp only [initializeFirst, hset]

/-- A first call whose engine part succeeds allocates the table. -/
theorem initializeFirst_works {tmpKeys : Bool} {s : Statics} {hooks : Nat}
    {engine : Option String} {calls : InitializeCalls} (hworks : ¬ EngineFails engine calls) :
    ∃ err s', initializeFirst tmpKeys s hooks engine calls = .ok (err, s') ∧ FirstDone err s' := by
  have hnone := mt (setUpEngine_isSome s engine calls).mp hworks
  cases hset : setUpEngine s engine calls with
  | mk r s₁ =>
    rw [hset] at hnone
    cases r with
    | some err => exact absurd rfl hnone
    | none =>
      simp only [initializeFirst, hset]
      cases tmpKeys with
      | false => exact ⟨.success, _, rfl, initBioMethods_live s₁⟩
      | true =>
        -- The keys are made behind the table, so the clean-up finds it either way.
        have hlive : (sslTmpKeysInit (initBioMethods s₁) calls).2.TableLive :=
          initBioMethods_live s₁
        simp only [if_true]
        cases hkeys : sslTmpKeysInit (initBioMethods s₁) calls with
        | mk r s₂ =>
          rw [hkeys] at hlive
          cases r with
          | false => exact ⟨.success, _, rfl, hlive⟩
          | true =>
            have herr : AprStatus.enotimpl ≠ .success := nofun
            obtain ⟨s', hclean, hdone⟩ := initializeError_ok herr (.inr hlive)
            exact ⟨.enotimpl, s', hclean, hdone⟩

/-- A safe first call frees no table twice. -/
theorem initializeFirst_safe (tmpKeys : Bool) {s : Statics} (hooks : Nat)
    {engine : Option String} {calls : InitializeCalls}
    (hsafe : EngineFails engine calls → s.Freeable) :
    ∃ err s', initializeFirst tmpKeys s hooks engine calls = .ok (err, s') ∧ FirstDone err s' := by
  by_cases hfails : EngineFails engine calls
  · obtain ⟨err, s₁, herr, hsame, heq⟩ := initializeFirst_fails tmpKeys s hooks hfails
    obtain ⟨s', hok, hdone⟩ := initializeError_ok herr (hsame.freeable.mpr (hsafe hfails))
    exact ⟨err, s', heq.trans hok, hdone⟩
  · exact initializeFirst_works hfails

theorem sslInitialize_first {tmpKeys : Bool} {s : Statics} {hooks : Nat} (engine : Option String)
    (calls : InitializeCalls) (hpool : s.tcnGlobalPool = some hooks)
    (hcount : s.sslInitialized = 0) :
    sslInitialize tmpKeys s engine calls =
      initializeFirst tmpKeys { s with sslInitialized := 1 } hooks engine calls := by
  obtain ⟨pool, count, methods, tables, engine', ui, keys⟩ := s
  cases hpool
  cases hcount
  rfl

/-! ## Steps and runs -/

theorem initialize0_sameTable (s : Statics) (created : Bool) :
    SameTable s (initialize0 s created).2 := by
  unfold initialize0
  repeat' split
  all_goals exact ⟨rfl, rfl, rfl⟩

theorem step_initialize0 {tmpKeys : Bool} {x : Session} (h : x.Inv) (created : Bool) :
    ∃ r x', libraryStep tmpKeys x (.initialize0 created) = .ok (r, x') ∧ x'.Inv := by
  have hsame := initialize0_sameTable x.statics created
  refine ⟨.created (initialize0 x.statics created).1,
    { x with statics := (initialize0 x.statics created).2 }, rfl, ?_, ?_⟩
  · intro hcount
    exact hsame.live.mpr (h.counted (by rwa [hsame.sslInitialized] at hcount))
  · intro hready
    exact hsame.live.mpr (h.ready hready)

theorem step_terminate {tmpKeys : Bool} {x : Session} (h : x.Inv) :
    ∃ r x', libraryStep tmpKeys x .terminate = .ok (r, x') ∧ x'.Inv := by
  cases hpool : x.statics.tcnGlobalPool with
  | none =>
    refine ⟨.terminated, x, ?_, h⟩
    simp [libraryStep, terminate, hpool]
  | some hooks =>
    obtain ⟨s', hrun, hzero, hreset⟩ := runCleanups_ok hooks h.counted
    refine ⟨.terminated, ⟨{ s' with tcnGlobalPool := none }, x.ready && (hooks == 0)⟩, ?_, ?_⟩
    · simp only [libraryStep, terminate, hpool, hrun, Option.getD_some]
    · by_cases hhooks : hooks = 0
      · cases hzero hhooks
        exact ⟨h.counted, fun hready => h.ready (by simp_all)⟩
      · exact ⟨fun hcount => absurd (hreset hhooks) hcount, fun hready => by simp_all⟩

theorem step_sslInitialize {tmpKeys : Bool} {x : Session} (h : x.Inv) {engine : Option String}
    {calls : InitializeCalls} (hsafe : (Event.sslInitialize engine calls).Safe x) :
    ∃ r x', libraryStep tmpKeys x (.sslInitialize engine calls) = .ok (r, x') ∧ x'.Inv := by
  by_cases hidle : x.statics.tcnGlobalPool = none ∨ x.statics.sslInitialized ≠ 0
  · rcases sslInitialize_idle tmpKeys engine calls hidle with
      ⟨hpool, heq⟩ | ⟨hcount, heq⟩
    · refine ⟨.status .einval, x, ?_, h⟩
      simp only [libraryStep, heq, hpool, Option.isNone_none, Bool.and_true]
    · refine ⟨.status .success,
        ⟨{ x.statics with sslInitialized := x.statics.sslInitialized + 1 }, true⟩, ?_, ?_⟩
      · simp only [libraryStep, heq]
      · exact ⟨fun _ => h.counted hcount, fun _ => h.counted hcount⟩
  · simp only [not_or, ne_eq, not_not] at hidle
    obtain ⟨hooks, hpool⟩ := Option.ne_none_iff_exists'.mp hidle.1
    have hfreeable : EngineFails engine calls →
        { x.statics with sslInitialized := 1 }.Freeable := hsafe hidle.1 hidle.2
    obtain ⟨err, s', hok, hdone⟩ := initializeFirst_safe tmpKeys hooks hfreeable
    have heq := (sslInitialize_first engine calls hpool hidle.2).trans hok
    by_cases herr : err = .success
    · subst herr
      refine ⟨.status .success, ⟨s', true⟩, by simp only [libraryStep, heq], ?_⟩
      exact ⟨fun _ => hdone, fun _ => hdone⟩
    · rw [FirstDone, if_neg herr] at hdone
      refine ⟨.status err, ⟨s', false⟩, ?_, fun hcount => absurd hdone hcount, nofun⟩
      cases err with
      | success => exact absurd rfl herr
      | einval => simp [libraryStep, heq, hpool]
      | enotimpl => simp [libraryStep, heq, hpool]

theorem libraryStep_ok {tmpKeys : Bool} {x : Session} (h : x.Inv) {e : Event} (hsafe : e.Safe x) :
    ∃ r x', libraryStep tmpKeys x e = .ok (r, x') ∧ x'.Inv := by
  cases e with
  | initialize0 created => exact step_initialize0 h created
  | sslInitialize engine calls => exact step_sslInitialize h hsafe
  | terminate => exact step_terminate h

/-- A call that is not safe frees a table for the second time. -/
theorem libraryStep_fault {tmpKeys : Bool} {x : Session} {e : Event} (h : ¬ e.Safe x) :
    libraryStep tmpKeys x e = .error .useAfterFree := by
  cases e with
  | initialize0 => exact absurd trivial h
  | terminate => exact absurd trivial h
  | sslInitialize engine calls =>
    simp only [Event.Safe, Classical.not_imp] at h
    obtain ⟨hsome, hcount, hfails, hdead⟩ := h
    obtain ⟨hooks, hpool⟩ := Option.ne_none_iff_exists'.mp hsome
    obtain ⟨err, s₁, -, hsame, heq⟩ := initializeFirst_fails tmpKeys
      { x.statics with sslInitialized := 1 } hooks hfails
    have hcount₁ : s₁.sslInitialized ≠ 0 := by
      rw [hsame.sslInitialized]
      exact (by decide : (1 : UInt32) ≠ 0)
    simp only [libraryStep, sslInitialize_first engine calls hpool hcount, heq, initializeError,
      sslInitCleanup_fault hcount₁ (mt hsame.freeable.mp hdead)]

/-- No table is freed twice, and an initialised library has a table. -/
def EndsFreedOnce (tmpKeys : Bool) (es : List Event) : Prop :=
  Machine.Ends (libraryStep tmpKeys) (fun _ x => x.ready = true → x.statics.TableLive) .start es

/-- No table is freed twice, and an initialised library has a table, if and only
if no first `SSL.initialize` fails in its engine part while the pointer is to a
table that a clean-up has freed. -/
theorem libraryRun_freedOnce_iff (tmpKeys : Bool) (es : List Event) :
    (∀ es₁, es₁ <+: es → EndsFreedOnce tmpKeys es₁) ↔
      Machine.Meets (libraryStep tmpKeys) (fun x e => e.Safe x) .start es := by
  refine Machine.forall_prefix_iff_meets (R := fun _ => True) (fun _ _ => trivial) ?_ ?_
  · intro es _ hmeets
    obtain ⟨t, x, hrun, hinv, -⟩ := Machine.run_of_meets (I := Session.Inv)
      (Q := fun _ => True)
      (fun x e hx hsafe => by
        obtain ⟨r, x', hok, hx'⟩ := libraryStep_ok hx hsafe
        exact ⟨r, x', hok, hx', trivial⟩)
      Session.start_inv hmeets
    exact ⟨t, x, hrun, hinv.ready⟩
  · intro es e _ _ _ t x hrun hunsafe
    exact Machine.not_ends_of_error (Machine.run_snoc_error hrun (libraryStep_fault hunsafe))

/-- Everything succeeds. -/
def InitializeCalls.succeed : InitializeCalls :=
  ⟨true, true, true, true, true, true, true, true, fun _ => true⟩

/-- No engine can be found. -/
def InitializeCalls.noEngine : InitializeCalls :=
  { InitializeCalls.succeed with engineById := false, tryLoadEngine := false }

/-- Two rounds of initialisation, the second with an engine that cannot be found.
Its clean-up frees the table of the first round again. -/
theorem libraryRun_double_free :
    ¬ EndsFreedOnce false [.initialize0 true, .sslInitialize none .succeed, .terminate,
      .initialize0 true, .sslInitialize (some "engine") .noEngine] := by
  exact Machine.not_ends_of_error rfl

end Library
