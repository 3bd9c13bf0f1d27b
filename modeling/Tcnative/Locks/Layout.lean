-- SUMMARY: The rules for the locks of an old library, where their mutexes are, and what the set-up keeps.
import Mathlib.Data.List.Count
import Tcnative.Locks.Callbacks

/-!
# Where the mutexes are

The library calls for its own locks by number, and for those made on demand by
address. Each of them stands for a mutex, which lives in the global pool or in a pool
under it. The invariant says where everything is, whatever statement of the set-up
comes next.
-/

namespace Locks
open Machine Mutex

/-! ## Rules -/

/-- The entries of the table behind `ssl_lock_cs`. -/
def State.entries (s : State) : List (Option Nat) :=
  ((s.sslLockCs.bind s.tables.peek).map (·.entries)).getD []

/-- The mutex of a lock. -/
def State.name (s : State) : Lock → Option Nat
  | .static type =>
    if s.lockingCallback = true ∧ 0 ≤ type then s.entries[type.toNat]?.join else none
  | .dyn l => (s.values.peek l).bind (·.mutex)

/-- A thread locks what it does not hold, and unlocks what it holds. -/
def Session.Takes (x : Session) (thread : Nat) (mode : BitVec 32) (lock : Lock) : Prop :=
  if isLock mode then (lock, thread) ∉ x.held else (lock, thread) ∈ x.held

instance (x : Session) (thread : Nat) (mode : BitVec 32) (lock : Lock) :
    Decidable (x.Takes thread mode lock) :=
  inferInstanceAs (Decidable (if isLock mode then (lock, thread) ∉ x.held
    else (lock, thread) ∈ x.held))

/-- Nobody holds the lock. -/
def Session.Free (x : Session) (lock : Lock) : Prop := ∀ y ∈ x.held, y.1 ≠ lock

instance (x : Session) (lock : Lock) : Decidable (x.Free lock) :=
  inferInstanceAs (Decidable (∀ y ∈ x.held, y.1 ≠ lock))

/-- A lock of the library's own. -/
def Lock.isStatic : Lock → Bool
  | .static _ => true
  | .dyn _ => false

/-- The rules. There is memory for the table, and nobody holds a lock of the old one when
the new one takes its place. Locks that were made on demand are free when they are
destroyed or their pools end. All locks are free when the functions are taken back, and
no pool is left over of those made since the end began. A thread uses numbers whose mutex
was made, and locks made on demand that were not destroyed. -/
def Obeys (x : Session) : Event → Prop
  | .initialize0 _ | .sslInitialize => True
  | .initializeStep ok =>
    x.state.phase = .setup .palloc → ok = true ∧ ∀ y ∈ x.held, y.1.isStatic = false
  | .terminate => x.state.phase = .idle → ∀ y ∈ x.held, y.1.isStatic = true
  | .terminateStep =>
    x.state.phase = .terminating → x.state.cleanups.head? = some .sslThreadCleanup →
      x.held = [] ∧ x.dyns = []
  | .lock thread mode type =>
    x.state.lockingCallback = true → type < x.state.sslLockNumLocks →
      (x.state.name (.static type)).isSome = true ∧ x.Takes thread mode (.static type)
  | .dynCreate _ _ calls =>
    x.state.phase = .terminating → calls.poolCreate = true → calls.palloc = true
  | .dynLock thread mode l =>
    x.state.dynlockLockCallback = true → l ∈ x.dyns ∧ x.Takes thread mode (.dyn l)
  | .dynDestroy l => x.state.dynlockDestroyCallback = true → l ∈ x.dyns ∧ x.Free (.dyn l)

instance (x : Session) : (e : Event) → Decidable (Obeys x e)
  | .initialize0 _ | .sslInitialize => inferInstanceAs (Decidable True)
  | .initializeStep _ | .terminate | .terminateStep | .lock .. | .dynCreate .. | .dynLock ..
  | .dynDestroy _ => inferInstanceAs (Decidable (_ → _))

/-! ## The memory -/

/-- The table has been exchanged already. -/
def Statement.hasTable : Statement → Bool
  | .numLocks | .palloc => false
  | _ => true

/-- The order of the statements, from the one that registers `ssl_thread_lock`. -/
def Statement.rank : Statement → Nat
  | .numLocks | .palloc | .createMutex _ | .lockingCallback => 0
  | .dynlockpool => 1
  | .createCallback => 2
  | .lockCallback => 3
  | .destroyCallback => 4
  | .register => 5

/-- Before the first registration nothing was set. -/
theorem Statement.nothing_passed {next : Statement} (h : next.rank = 0) {P₁ P₂ P₃ P₄ P₅ : Prop} :
    (1 ≤ next.rank → P₁) ∧ (2 ≤ next.rank → P₂) ∧ (3 ≤ next.rank → P₃) ∧
      (4 ≤ next.rank → P₄) ∧ (5 ≤ next.rank → P₅) := by
  simp [h]

/-- The table is the one that threads use, or will use next. -/
def State.TableInForce (s : State) : Prop :=
  s.lockingCallback = true ∨ ∃ next, s.phase = .setup next ∧ next.hasTable = true

/-- Pools, mutexes, values and tables. Every mutex of the global pool is registered on it
once, and every other one is that of a value in a pool of its own. Where the functions are
registered and no set-up is running, `ssl_thread_cleanup` runs before any mutex of the
table is destroyed. -/
structure Layout (s : State) : Prop where
  global : ∀ g, s.tcnGlobalPool = some g → s.pools.peek g = some none
  pools : ∀ q p, s.pools.peek q = some p →
    (p = none ∧ s.tcnGlobalPool = some q) ∨ ∃ g, p = some g ∧ s.tcnGlobalPool = some g
  mutexes : ∀ m r, s.mutexes.regionOf m = some r →
    s.tcnGlobalPool = some r ∨ ∃ l v, s.values.peek l = some v ∧ v.mutex = some m
  registered : ∀ m, .mutex m ∈ s.cleanups ↔
    ∃ g, s.tcnGlobalPool = some g ∧ s.mutexes.regionOf m = some g
  once : ∀ m, s.cleanups.count (.mutex m) ≤ 1
  values : ∀ l v, s.values.peek l = some v → ∃ m g, v.mutex = some m ∧
    s.mutexes.regionOf m = some v.pool ∧ s.tcnGlobalPool = some g ∧
    s.pools.peek v.pool = some (some g)
  unshared : ∀ l l' v v', s.values.peek l = some v → s.values.peek l' = some v' →
    v.pool = v'.pool → l = l'
  tables : ∀ i t, s.tables.peek i = some t → s.tcnGlobalPool = some t.pool
  entries : s.TableInForce → ∀ (i m : Nat), s.entries[i]? = some (some m) →
    .mutex m ∈ s.cleanups
  distinct : s.TableInForce → ∀ (i j m : Nat), s.entries[i]? = some (some m) →
    s.entries[j]? = some (some m) → i = j
  table : ∀ i, s.phase = .setup (.createMutex i) → s.sslLockCs ≠ none
  fresh : ∀ i, s.phase = .setup (.createMutex i) → ∀ (j m : Nat), i ≤ j →
    s.entries[j]? ≠ some (some m)
  ended : s.tcnGlobalPool = none → s.phase = .idle ∧ s.lockingCallback = false ∧ s.cleanups = []
  parent : s.dynlockCreateCallback = true → s.dynlockpool = s.tcnGlobalPool
  settled : (∀ next, s.phase ≠ .setup next) →
    s.dynlockCreateCallback = s.lockingCallback ∧ s.dynlockLockCallback = s.lockingCallback ∧
      s.dynlockDestroyCallback = s.lockingCallback ∧
      (s.lockingCallback = true → ∃ before after,
        s.cleanups = before ++ .sslThreadCleanup :: after ∧
          ∀ (i m : Nat), s.entries[i]? = some (some m) → .mutex m ∉ before)
  passed : ∀ next, s.phase = .setup next →
    (1 ≤ next.rank → s.lockingCallback = true) ∧
      (2 ≤ next.rank → s.dynlockpool = s.tcnGlobalPool) ∧
      (3 ≤ next.rank → s.dynlockCreateCallback = true) ∧
      (4 ≤ next.rank → s.dynlockLockCallback = true) ∧
      (5 ≤ next.rank → s.dynlockDestroyCallback = true)
  subpools : s.phase = .terminating → ∀ q g, s.pools.peek q = some (some g) →
    ∃ l v, s.values.peek l = some v ∧ v.pool = q

/-- The mutexes implement the locks, and the memory is as it should be. When the functions
were taken back, no lock is left that was made on demand. -/
structure Inv (x : Session) : Prop where
  implements : Implements x.state.mutexes x.state.name x.held
  layout : Layout x.state
  dyns_iff : ∀ l, l ∈ x.dyns ↔ ∃ v, x.state.values.peek l = some v
  none_left : x.state.phase = .terminating → x.state.lockingCallback = false → x.dyns = []

theorem layout_loaded : Layout .loaded where
  global _ h := by cases h
  pools _ _ h := by cases h
  mutexes _ _ h := by cases h
  registered m := by simp [State.loaded]
  once m := by simp [State.loaded]
  values _ _ h := by cases h
  unshared _ _ _ _ h := by cases h
  tables _ _ h := by cases h
  entries _ i m h := by cases h
  distinct _ i j m h := by cases h
  table _ h := by cases h
  fresh _ h := by cases h
  ended _ := ⟨rfl, rfl, rfl⟩
  parent h := by cases h
  settled _ := ⟨rfl, rfl, rfl, nofun⟩
  passed _ h := by cases h
  subpools h := by cases h

theorem inv_start : Inv .start where
  implements := by
    have hname : State.name .loaded = fun _ => none := by
      funext k
      cases k <;> rfl
    rw [show Session.start.state.name = _ from hname]
    exact implements_nil
  layout := layout_loaded
  dyns_iff l := by simp [Session.start, State.loaded]
  none_left h := by cases h

/-! ## Threads -/

section
variable {x : Session} {s s' : State} {k : Lock} {t : Nat} {mode : BitVec 32} {m : Nat}

/-- Locking and unlocking leave everything where it is. -/
theorem Layout.owners (h : Layout s) {mutexes : Mutex.Store Nat Nat}
    (hregion : mutexes.regionOf = s.mutexes.regionOf) : Layout { s with mutexes } :=
  { h with
    mutexes := by
      intro m r hr
      exact h.mutexes m r (hregion ▸ hr)
    registered := by
      intro m
      simp only [hregion]
      exact h.registered m
    values := by
      intro l v hv
      simp only [hregion]
      exact h.values l v hv }

theorem Inv.owners (h : Inv x) {mutexes : Mutex.Store Nat Nat} {held : List (Lock × Nat)}
    (hregion : mutexes.regionOf = x.state.mutexes.regionOf)
    (himplements : Implements mutexes x.state.name held) :
    Inv { x with state := { x.state with mutexes }, held } where
  implements := himplements
  layout := h.layout.owners hregion
  dyns_iff := h.dyns_iff
  none_left := h.none_left

/-- What a thread hears that tries to get a lock: it has to wait if and only if another
thread holds the lock. -/
def Session.Hears (x : Session) (lock : Lock) (thread : Nat) (r : Reply) : Prop :=
  (r = .wait ∧ ∃ u, u ≠ thread ∧ (lock, u) ∈ x.held) ∨ (r = .acquired ∧ x.Free lock)

theorem not_mem_of_free (h : x.Free k) (u : Nat) : (k, u) ∉ x.held := by
  intro hu
  exact h _ hu rfl

/-- A thread that keeps the rules gets the lock, waits for it, or gives it back. -/
theorem Inv.lockOrUnlock (h : Inv x) (hname : x.state.name k = some m)
    (htakes : x.Takes t mode k) :
    ∃ r s', x.state.lockOrUnlock t mode m = .ok (r, s') ∧
      Inv { x with state := s', held := hear x.held k t r } ∧
      (isLock mode = true → x.Hears k t r) := by
  unfold Session.Takes at htakes
  unfold State.lockOrUnlock
  split at htakes
  · rename_i hlock
    by_cases hfree : x.Free k
    · obtain ⟨mutexes, hok, hregion, himplements⟩ :=
        h.implements.acquire hname (not_mem_of_free hfree) t
      refine ⟨.acquired, { x.state with mutexes }, ?_, h.owners hregion himplements, fun _ => ?_⟩
      · simp only [hlock, if_true, hok]
      · exact .inr ⟨rfl, hfree⟩
    · simp only [Session.Free, not_forall, not_not] at hfree
      obtain ⟨⟨k', u⟩, hu, hk⟩ := hfree
      cases hk
      have hne : u ≠ t := by
        rintro rfl
        exact htakes hu
      refine ⟨.wait, x.state, ?_, h, fun _ => .inl ⟨rfl, u, hne, hu⟩⟩
      simp [hlock, h.implements.wait hname hu hne]
  · rename_i hunlock
    obtain ⟨mutexes, hok, hregion, himplements⟩ := h.implements.release hname htakes
    refine ⟨.released, { x.state with mutexes }, ?_, h.owners hregion himplements,
      fun hlock => absurd hlock hunlock⟩
    simp only [hunlock, hok]
    rfl

/-- The number of a lock that has a mutex. -/
theorem State.entry_of_name {type : Int} (h : s.name (.static type) = some m) :
    s.entry type = .ok m := by
  simp only [State.name] at h
  split at h
  · rename_i hoffered
    unfold State.entry
    cases htable : s.sslLockCs.bind s.tables.peek with
    | none => simp [State.entries, htable] at h
    | some table =>
      simp only [State.entries, htable, Option.map_some, Option.getD_some] at h
      simp only [if_neg (Int.not_lt.mpr hoffered.2)]
      cases hget : table.entries[type.toNat]? with
      | none => simp [hget] at h
      | some found => simp_all
  · cases h

theorem State.valueAt_of_name {l : Nat} (h : s.name (.dyn l) = some m) :
    ∃ v, s.values.peek l = some v ∧ v.mutex = some m ∧ s.valueAt l = .ok (v, m) := by
  obtain ⟨v, hv, hm⟩ := Option.bind_eq_some_iff.mp h
  exact ⟨v, hv, hm, by simp only [State.valueAt, hv, hm]⟩

/-- A lock that was made on demand has a mutex. -/
theorem Inv.name_dyn (h : Inv x) {l : Nat} (hl : l ∈ x.dyns) :
    ∃ m, x.state.name (.dyn l) = some m := by
  obtain ⟨v, hv⟩ := (h.dyns_iff l).mp hl
  obtain ⟨m, -, hm, -⟩ := h.layout.values l v hv
  exact ⟨m, by simp only [State.name, hv, Option.bind_some, hm]⟩

end

/-! ## Set-up -/

section
variable {x : Session} {s s' : State} {k : Lock} {i m : Nat} {type : Int}

theorem name_static : s.name (.static type) = some m ↔
    s.lockingCallback = true ∧ 0 ≤ type ∧ s.entries[type.toNat]? = some (some m) := by
  simp only [State.name]
  split
  · rename_i h
    simp only [Option.join_eq_some_iff, h.1, h.2, true_and]
  · rename_i h
    simp only [reduceCtorEq, false_iff, not_and]
    intro hlocking hnonneg
    exact absurd ⟨hlocking, hnonneg⟩ h

theorem name_dyn {l : Nat} : s.name (.dyn l) = some m ↔
    ∃ v, s.values.peek l = some v ∧ v.mutex = some m :=
  Option.bind_eq_some_iff

/-- The mutex of a lock of the library's own is in the global pool, and registered. -/
theorem Layout.static_region (h : Layout s) (hname : s.name (.static type) = some m) :
    .mutex m ∈ s.cleanups ∧ ∃ g, s.tcnGlobalPool = some g ∧ s.mutexes.regionOf m = some g := by
  obtain ⟨hlocking, -, hentry⟩ := name_static.mp hname
  have hmem := h.entries (.inl hlocking) _ m hentry
  exact ⟨hmem, (h.registered m).mp hmem⟩

/-- The mutex of another lock is in a pool under the global one. -/
theorem Layout.dyn_region (h : Layout s) {l : Nat} (hname : s.name (.dyn l) = some m) :
    ∃ q g, s.mutexes.regionOf m = some q ∧ s.tcnGlobalPool = some g ∧
      s.pools.peek q = some (some g) := by
  obtain ⟨v, hv, hm⟩ := name_dyn.mp hname
  obtain ⟨m', g, hm', hregion, hg, hpool⟩ := h.values l v hv
  cases hm.symm.trans hm'
  exact ⟨v.pool, g, hregion, hg, hpool⟩

theorem Layout.static_ne_dyn (h : Layout s) {l : Nat} (hstatic : s.name (.static type) = some m)
    (hdyn : s.name (.dyn l) = some m) : False := by
  obtain ⟨-, g, hg, hregion⟩ := h.static_region hstatic
  obtain ⟨q, g', hregion', -, hpool⟩ := h.dyn_region hdyn
  cases hregion.symm.trans hregion'
  rw [h.global _ hg] at hpool
  cases hpool

theorem Layout.name_live (h : Layout s) (hname : s.name k = some m) :
    ∃ c, s.mutexes.peek m = some c := by
  have hregion : ∃ r, s.mutexes.regionOf m = some r := by
    cases k with
    | static type =>
      obtain ⟨-, g, -, hregion⟩ := h.static_region hname
      exact ⟨g, hregion⟩
    | dyn l =>
      obtain ⟨q, g, hregion, -⟩ := h.dyn_region hname
      exact ⟨q, hregion⟩
  obtain ⟨r, hr⟩ := hregion
  obtain ⟨c, hc, -⟩ := regionOf_eq_some.mp hr
  exact ⟨c, hc⟩

/-- No two locks share a mutex. -/
theorem Layout.name_unshared (h : Layout s) {k' : Lock} (hname : s.name k = some m)
    (hname' : s.name k' = some m) : k = k' := by
  cases k with
  | static type =>
    cases k' with
    | static type' =>
      obtain ⟨hlocking, hnonneg, hentry⟩ := name_static.mp hname
      obtain ⟨-, hnonneg', hentry'⟩ := name_static.mp hname'
      have heq := h.distinct (.inl hlocking) _ _ m hentry hentry'
      rw [← Int.toNat_of_nonneg hnonneg, heq, Int.toNat_of_nonneg hnonneg']
    | dyn l => exact (h.static_ne_dyn hname hname').elim
  | dyn l =>
    cases k' with
    | static type => exact (h.static_ne_dyn hname' hname).elim
    | dyn l' =>
      obtain ⟨v, hv, hm⟩ := name_dyn.mp hname
      obtain ⟨v', hv', hm'⟩ := name_dyn.mp hname'
      obtain ⟨i, -, hi, hregion, -⟩ := h.values l v hv
      obtain ⟨i', -, hi', hregion', -⟩ := h.values l' v' hv'
      cases hm.symm.trans hi
      cases hm'.symm.trans hi'
      rw [h.unshared l l' v v' hv hv' (Option.some.inj (hregion.symm.trans hregion'))]

/-- A held lock has a mutex. -/
theorem Inv.name_of_held (h : Inv x) {t : Nat} (ht : (k, t) ∈ x.held) :
    ∃ m, x.state.name k = some m := by
  obtain ⟨m, -, hm, -⟩ := (h.implements.held_iff k t).mp ht
  exact ⟨m, hm⟩

/-- A step that may add or end locks that nobody holds. -/
theorem inv_of_layout {name : Lock → Option Nat} {dyns : List Nat} (hlayout : Layout s')
    (himplements : Implements s'.mutexes name x.held)
    (hheld : ∀ k t, (k, t) ∈ x.held → s'.name k = name k)
    (hdyns : ∀ l, l ∈ dyns ↔ ∃ v, s'.values.peek l = some v)
    (hnone : s'.phase = .terminating → s'.lockingCallback = false → dyns = []) :
    Inv { x with state := s', dyns } where
  implements := himplements.rename (fun _ _ => hlayout.name_live)
    (fun _ _ _ => hlayout.name_unshared) hheld
  layout := hlayout
  dyns_iff := hdyns
  none_left := hnone

/-- A step that leaves alone what threads hold, and makes no lock. -/
theorem Inv.of_layout (h : Inv x) (hlayout : Layout s')
    (himplements : Implements s'.mutexes x.state.name x.held)
    (hheld : ∀ k t m, (k, t) ∈ x.held → x.state.name k = some m → s'.name k = some m)
    (hvalues : s'.values.peek = x.state.values.peek)
    (hnone : s'.phase = .terminating → s'.lockingCallback = false → x.dyns = []) :
    Inv { x with state := s' } := by
  refine inv_of_layout hlayout himplements ?_ ?_ hnone
  · intro k t ht
    obtain ⟨m, hm⟩ := h.name_of_held ht
    rw [hm]
    exact hheld k t m ht hm
  · intro l
    rw [hvalues]
    exact h.dyns_iff l

end

section
variable {x : Session} {s : State} {p i m n : Nat} {next : Statement}

/-- The static variables that the statements set one by one. -/
structure Given where
  lockingCallback : Bool
  dynlockpool : Option Nat
  dynlockCreateCallback : Bool
  dynlockLockCallback : Bool
  dynlockDestroyCallback : Bool

def State.given (s : State) : Given :=
  ⟨s.lockingCallback, s.dynlockpool, s.dynlockCreateCallback, s.dynlockLockCallback,
    s.dynlockDestroyCallback⟩

def State.give (s : State) (given : Given) (next : Statement) : State :=
  { s with
    lockingCallback := given.lockingCallback
    dynlockpool := given.dynlockpool
    dynlockCreateCallback := given.dynlockCreateCallback
    dynlockLockCallback := given.dynlockLockCallback
    dynlockDestroyCallback := given.dynlockDestroyCallback
    phase := .setup next }

/-- What is set before a statement. -/
def Given.Reaches (given : Given) (p : Nat) (next : Statement) : Prop :=
  (1 ≤ next.rank → given.lockingCallback = true) ∧
    (2 ≤ next.rank → given.dynlockpool = some p) ∧
    (3 ≤ next.rank → given.dynlockCreateCallback = true) ∧
    (4 ≤ next.rank → given.dynlockLockCallback = true) ∧
    (5 ≤ next.rank → given.dynlockDestroyCallback = true)

/-- A statement that sets a static variable. -/
theorem Inv.give (h : Inv x) (hp : x.state.tcnGlobalPool = some p) (given : Given)
    (hnext : ∀ i, next ≠ .createMutex i)
    (hforce : given.lockingCallback = true ∨ next.hasTable = true → x.state.TableInForce)
    (hkept : x.state.lockingCallback = true → given.lockingCallback = true)
    (hparent : given.dynlockCreateCallback = true → given.dynlockpool = some p)
    (hreaches : given.Reaches p next) :
    Inv { x with state := x.state.give given next } := by
  have hl := h.layout
  have hforced : (x.state.give given next).TableInForce → x.state.TableInForce := by
    rintro (hlocking | ⟨next', hnext', htable⟩)
    · exact hforce (.inl hlocking)
    · cases hnext'
      exact hforce (.inr htable)
  have hlayout : Layout (x.state.give given next) :=
    { hl with
      entries := fun hinforce => hl.entries (hforced hinforce)
      distinct := fun hinforce => hl.distinct (hforced hinforce)
      table := by
        intro i hi
        exact absurd (Phase.setup.inj hi) (hnext i)
      fresh := by
        intro i hi
        exact absurd (Phase.setup.inj hi) (hnext i)
      ended := by
        intro hnone
        cases hp.symm.trans hnone
      parent := by
        intro hcreate
        exact (hparent hcreate).trans hp.symm
      settled := by
        intro hsettled
        exact absurd rfl (hsettled next)
      passed := by
        intro next' hnext'
        cases hnext'
        change _ ∧ (_ → given.dynlockpool = x.state.tcnGlobalPool) ∧ _
        rw [hp]
        exact hreaches
      subpools := nofun }
  refine h.of_layout hlayout h.implements ?_ rfl nofun
  intro k t m ht hm
  cases k with
  | static type =>
    obtain ⟨hlocking, hrest⟩ := name_static.mp hm
    exact name_static.mpr ⟨hkept hlocking, hrest⟩
  | dyn l => exact hm

/-- What is set when the library comes to a statement. -/
theorem Layout.reaches (h : Layout s) (hp : s.tcnGlobalPool = some p)
    (hphase : s.phase = .setup next) : s.given.Reaches p next := by
  have hpassed := h.passed next hphase
  rw [hp] at hpassed
  exact hpassed

/-- A new table without mutexes. -/
theorem Inv.palloc (h : Inv x) (hp : x.state.tcnGlobalPool = some p)
    (hstatic : ∀ y ∈ x.held, y.1.isStatic = false) :
    Inv { x with state := { x.state with
      sslLockCs := some x.state.tables.length
      tables := x.state.tables.alloc ⟨p, List.replicate x.state.sslLockNumLocks none⟩
      phase := .setup (.createMutex 0) } } := by
  have hl := h.layout
  have hentries : ∀ (j m : Nat), State.entries { x.state with
      sslLockCs := some x.state.tables.length
      tables := x.state.tables.alloc ⟨p, List.replicate x.state.sslLockNumLocks none⟩
      phase := .setup (.createMutex 0) } = List.replicate x.state.sslLockNumLocks none ∧
      (List.replicate x.state.sslLockNumLocks (none : Option Nat))[j]? ≠ some (some m) := by
    intro j m
    constructor
    · simp [State.entries, Arena.peek_alloc]
    · simp [List.getElem?_replicate]
  refine h.of_layout ?_ h.implements ?_ rfl nofun
  · exact
    { hl with
      tables := by
        intro i t ht
        rw [Arena.peek_alloc, Function.update_apply] at ht
        split at ht
        · cases ht
          exact hp
        · exact hl.tables i t ht
      entries := by
        intro _ j m hm
        rw [(hentries j m).1] at hm
        exact absurd hm (hentries j m).2
      distinct := by
        intro _ j j' m hm
        rw [(hentries j m).1] at hm
        exact absurd hm (hentries j m).2
      table := nofun
      fresh := by
        intro i _ j m _
        rw [(hentries j m).1]
        exact (hentries j m).2
      ended := by
        intro hnone
        cases hp.symm.trans hnone
      settled := by
        intro hsettled
        exact absurd rfl (hsettled _)
      passed := by
        intro next hnext
        cases hnext
        exact Statement.nothing_passed rfl
      subpools := nofun }
  · intro k t m ht hm
    cases k with
    | static type => cases hstatic _ ht
    | dyn l => exact hm

/-- The table after another mutex was made. -/
def State.addMutex (s : State) (p table i : Nat) : State :=
  { s with
    mutexes := s.mutexes.create p
    cleanups := .mutex s.mutexes.length :: s.cleanups
    sslLockCs := some table
    tables := s.tables.update table fun t =>
      { t with entries := t.entries.set i (some s.mutexes.length) }
    phase := .setup (.createMutex (i + 1)) }

theorem entries_addMutex {table : Nat} (htable : s.sslLockCs = some table) :
    (s.addMutex p table i).entries = s.entries.set i (some s.mutexes.length) := by
  simp only [State.entries, State.addMutex, htable, Option.bind_some, Arena.peek_update,
    Function.update_self]
  cases s.tables.peek table <;> rfl

theorem Layout.length_fresh (h : Layout s) : .mutex s.mutexes.length ∉ s.cleanups := by
  intro hmem
  obtain ⟨g, -, hregion⟩ := (h.registered _).mp hmem
  simp [Store.regionOf] at hregion

/-- A mutex of the table, or one of a table that is not used any more. -/
theorem Layout.addMutex (h : Layout s) (hp : s.tcnGlobalPool = some p) {table : Nat}
    (htable : s.sslLockCs = some table) (hphase : s.phase = .setup (.createMutex i)) :
    Layout (s.addMutex p table i) := by
  have hinforce : s.TableInForce := .inr ⟨_, hphase, rfl⟩
  have hregion : (s.addMutex p table i).mutexes.regionOf =
      Function.update s.mutexes.regionOf s.mutexes.length (some p) := regionOf_create _ _
  have hfresh := h.length_fresh
  have hold : ∀ {m r : Nat}, s.mutexes.regionOf m = some r →
      (s.addMutex p table i).mutexes.regionOf m = some r := by
    intro m r hr
    rw [hregion, Function.update_of_ne, hr]
    rintro rfl
    simp [Store.regionOf] at hr
  -- An entry is the new one or an old one.
  have hentry : ∀ {j m : Nat}, (s.addMutex p table i).entries[j]? = some (some m) →
      (j = i ∧ m = s.mutexes.length) ∨ (j ≠ i ∧ s.entries[j]? = some (some m)) := by
    intro j m hm
    rw [entries_addMutex htable, List.getElem?_set] at hm
    split at hm
    · rename_i hij
      split at hm
      · cases hm
        exact .inl ⟨hij.symm, rfl⟩
      · cases hm
    · rename_i hij
      exact .inr ⟨fun heq => hij heq.symm, hm⟩
  exact
    { h with
      mutexes := by
        intro m r hr
        rw [hregion, Function.update_apply] at hr
        split at hr
        · cases hr
          exact .inl hp
        · exact h.mutexes m r hr
      registered := by
        intro m
        rw [hregion, Function.update_apply]
        change _ ∈ _ :: _ ↔ ∃ g, s.tcnGlobalPool = some g ∧ _
        rw [List.mem_cons, Cleanup.mutex.injEq, h.registered m]
        split
        · rename_i heq
          exact iff_of_true (.inl heq) ⟨p, hp, rfl⟩
        · rename_i hne
          exact or_iff_right hne
      once := by
        intro m
        change List.count _ (_ :: _) ≤ 1
        rw [List.count_cons]
        split
        · rename_i heq
          have heq := Cleanup.mutex.inj (eq_of_beq heq)
          rw [← heq, List.count_eq_zero_of_not_mem hfresh]
        · exact h.once m
      values := by
        intro l v hv
        obtain ⟨m, g, hm, hr, hrest⟩ := h.values l v hv
        exact ⟨m, g, hm, hold hr, hrest⟩
      tables := by
        intro j t ht
        simp only [State.addMutex, Arena.peek_update, Function.update_apply] at ht
        split at ht
        · obtain ⟨t', ht', rfl⟩ := Option.map_eq_some_iff.mp ht
          exact h.tables table t' ht'
        · exact h.tables j t ht
      entries := by
        intro _ j m hm
        rcases hentry hm with ⟨-, rfl⟩ | ⟨-, hm⟩
        · exact List.mem_cons_self
        · exact List.mem_cons_of_mem _ (h.entries hinforce j m hm)
      distinct := by
        intro _ j j' m hm hm'
        rcases hentry hm with ⟨rfl, rfl⟩ | ⟨-, hold⟩
        · rcases hentry hm' with ⟨rfl, -⟩ | ⟨-, hold'⟩
          · rfl
          · exact absurd (h.entries hinforce j' _ hold') hfresh
        · rcases hentry hm' with ⟨rfl, rfl⟩ | ⟨-, hold'⟩
          · exact absurd (h.entries hinforce j _ hold) hfresh
          · exact h.distinct hinforce j j' m hold hold'
      table := by
        intro _ _ hnone
        cases hnone
      fresh := by
        intro j hj k m hk hm
        cases hj
        rcases hentry hm with ⟨rfl, -⟩ | ⟨-, hm⟩
        · exact absurd hk (Nat.not_succ_le_self _)
        · exact h.fresh i hphase k m (Nat.le_of_succ_le hk) hm
      ended := by
        intro hnone
        cases hp.symm.trans hnone
      settled := by
        intro hsettled
        exact absurd rfl (hsettled _)
      passed := by
        intro next hnext
        cases hnext
        exact Statement.nothing_passed rfl
      subpools := by
        intro hterminating
        cases hterminating }

theorem Inv.addMutex (h : Inv x) (hp : x.state.tcnGlobalPool = some p) {table : Nat}
    (htable : x.state.sslLockCs = some table) (hphase : x.state.phase = .setup (.createMutex i)) :
    Inv { x with state := x.state.addMutex p table i } := by
  refine h.of_layout (h.layout.addMutex hp htable hphase) (h.implements.create p) ?_ rfl nofun
  intro k t m ht hm
  cases k with
  | static type =>
    obtain ⟨hlocking, hnonneg, hentry⟩ := name_static.mp hm
    refine name_static.mpr ⟨hlocking, hnonneg, ?_⟩
    rw [entries_addMutex htable, List.getElem?_set_ne, hentry]
    -- The entry that is written had no mutex.
    rintro heq
    exact h.layout.fresh i hphase _ m (Nat.le_of_eq heq) hentry
  | dyn l => exact hm

/-- A mutex that could not be made leaves its entry empty. -/
theorem Inv.skipMutex (h : Inv x) (hp : x.state.tcnGlobalPool = some p)
    (hphase : x.state.phase = .setup (.createMutex i)) :
    Inv { x with state := { x.state with phase := .setup (.createMutex (i + 1)) } } := by
  have hl := h.layout
  have hinforce : x.state.TableInForce := .inr ⟨_, hphase, rfl⟩
  refine h.of_layout ?_ h.implements (fun k _ _ _ hm => by cases k <;> exact hm) rfl nofun
  exact
    { hl with
      entries := fun _ => hl.entries hinforce
      distinct := fun _ => hl.distinct hinforce
      table := fun _ _ => hl.table i hphase
      fresh := by
        intro j hj k m hk
        cases hj
        exact hl.fresh i hphase k m (Nat.le_of_succ_le hk)
      ended := by
        intro hnone
        cases hp.symm.trans hnone
      settled := by
        intro hsettled
        exact absurd rfl (hsettled _)
      passed := by
        intro next hnext
        cases hnext
        exact Statement.nothing_passed rfl
      subpools := nofun }

/-- Other fields than those of the memory may change. -/
theorem Inv.counted (h : Inv x) (sslInitialized : UInt32) (numLocks : Nat) :
    Inv { x with state := { x.state with sslInitialized, sslLockNumLocks := numLocks } } where
  implements := h.implements
  layout := { h.layout with }
  dyns_iff := h.dyns_iff
  none_left := h.none_left

/-- The end of the set-up registers `ssl_thread_cleanup`, before which no mutex is
destroyed. -/
theorem Inv.register (h : Inv x) (hp : x.state.tcnGlobalPool = some p)
    (hphase : x.state.phase = .setup .register) :
    Inv { x with state := { x.state with
      cleanups := .sslThreadCleanup :: x.state.cleanups, phase := .rest } } := by
  have hl := h.layout
  have hinforce : x.state.TableInForce := .inr ⟨_, hphase, rfl⟩
  obtain ⟨hlocking, -, hcreate, hlock, hdestroy⟩ := hl.passed _ hphase
  refine h.of_layout ?_ h.implements (fun k _ _ _ hm => by cases k <;> exact hm) rfl nofun
  exact
    { hl with
      registered := by
        intro m
        rw [List.mem_cons]
        exact (or_iff_right nofun).trans (hl.registered m)
      once := by
        intro m
        change List.count _ (_ :: _) ≤ 1
        rw [List.count_cons_of_ne]
        · exact hl.once m
        · nofun
      entries := fun _ j m hm => List.mem_cons_of_mem _ (hl.entries hinforce j m hm)
      distinct := fun _ => hl.distinct hinforce
      table := nofun
      fresh := nofun
      ended := by
        intro hnone
        cases hp.symm.trans hnone
      settled := by
        intro _
        have hlocking := hlocking (by decide)
        refine ⟨(hcreate (by decide)).trans hlocking.symm, (hlock (by decide)).trans hlocking.symm,
          (hdestroy (by decide)).trans hlocking.symm, fun _ => ⟨[], _, rfl, nofun⟩⟩
      passed := nofun
      subpools := nofun }

end

/-! ## The thread that sets up and ends -/

section
variable {x : Session} {n : Nat}

/-- One statement of `ssl_thread_setup`. -/
theorem Inv.setup (h : Inv x) {p : Nat} {ok : Bool} {next : Statement}
    (hp : x.state.tcnGlobalPool = some p) (hphase : x.state.phase = .setup next)
    (hobeys : Obeys x (.initializeStep ok)) :
    ∃ s', sslThreadSetup n x.state p ok next = .ok s' ∧ Inv { x with state := s' } := by
  have hl := h.layout
  have hreaches := hl.reaches hp hphase
  obtain ⟨hlocking, hpool, hcreate, hlock, hdestroy⟩ := hreaches
  have hparent : x.state.dynlockCreateCallback = true → x.state.dynlockpool = some p :=
    fun hset => (hl.parent hset).trans hp
  cases next with
  | numLocks =>
    refine ⟨_, rfl, (h.counted x.state.sslInitialized n).give hp x.state.given nofun ?_ id hparent
      (Statement.nothing_passed rfl)⟩
    rintro (hset | htable)
    · exact .inl hset
    · cases htable
  | palloc =>
    obtain ⟨rfl, hstatic⟩ := hobeys hphase
    exact ⟨_, rfl, h.palloc hp hstatic⟩
  | createMutex i =>
    simp only [sslThreadSetup]
    split
    · cases ok with
      | false => exact ⟨_, rfl, h.skipMutex hp hphase⟩
      | true =>
        obtain ⟨table, htable⟩ := Option.ne_none_iff_exists'.mp (hl.table i hphase)
        refine ⟨_, ?_, h.addMutex hp htable hphase⟩
        simp only [createTableMutex, htable]
        rfl
    · refine ⟨_, rfl, h.give hp x.state.given nofun ?_ id hparent
        (Statement.nothing_passed rfl)⟩
      exact fun _ => .inr ⟨_, hphase, rfl⟩
  | lockingCallback =>
    refine ⟨_, rfl, h.give hp { x.state.given with lockingCallback := true } nofun ?_
      (fun _ => rfl) hparent ⟨fun _ => rfl, nofun, nofun, nofun, nofun⟩⟩
    exact fun _ => .inr ⟨_, hphase, rfl⟩
  | dynlockpool =>
    refine ⟨_, rfl, h.give hp { x.state.given with dynlockpool := some p } nofun ?_ id
      (fun _ => rfl) ⟨fun _ => hlocking (by decide), fun _ => rfl, nofun, nofun, nofun⟩⟩
    exact fun _ => .inr ⟨_, hphase, rfl⟩
  | createCallback =>
    refine ⟨_, rfl, h.give hp { x.state.given with dynlockCreateCallback := true } nofun ?_ id
      (fun _ => hpool (by decide))
      ⟨fun _ => hlocking (by decide), fun _ => hpool (by decide), fun _ => rfl, nofun, nofun⟩⟩
    exact fun _ => .inr ⟨_, hphase, rfl⟩
  | lockCallback =>
    refine ⟨_, rfl, h.give hp { x.state.given with dynlockLockCallback := true } nofun ?_ id hparent
      ⟨fun _ => hlocking (by decide), fun _ => hpool (by decide), fun _ => hcreate (by decide),
        fun _ => rfl, nofun⟩⟩
    exact fun _ => .inr ⟨_, hphase, rfl⟩
  | destroyCallback =>
    refine ⟨_, rfl, h.give hp { x.state.given with dynlockDestroyCallback := true } nofun ?_ id
      hparent ⟨fun _ => hlocking (by decide), fun _ => hpool (by decide),
        fun _ => hcreate (by decide), fun _ => hlock (by decide), fun _ => rfl⟩⟩
    exact fun _ => .inr ⟨_, hphase, rfl⟩
  | register => exact ⟨_, rfl, h.register hp hphase⟩

/-- A phase without a set-up takes the place of another one. -/
theorem Layout.settle {s : State} (h : Layout s) {phase : Phase}
    (hold : ∀ next, s.phase ≠ .setup next) (hphase : ∀ next, phase ≠ .setup next)
    (hpool : s.tcnGlobalPool ≠ none) (hterminating : phase = .terminating →
      ∀ q g, s.pools.peek q = some (some g) → ∃ l v, s.values.peek l = some v ∧ v.pool = q) :
    Layout { s with phase } :=
  have hforced : State.TableInForce { s with phase } → s.TableInForce := by
    rintro (hlocking | ⟨next, hnext, -⟩)
    · exact .inl hlocking
    · exact absurd hnext (hphase next)
  { h with
    entries := fun hinforce => h.entries (hforced hinforce)
    distinct := fun hinforce => h.distinct (hforced hinforce)
    table := fun i hi => absurd hi (hphase _)
    fresh := fun i hi => absurd hi (hphase _)
    ended := fun hnone => absurd hnone hpool
    settled := fun _ => h.settled hold
    passed := fun next hnext => absurd hnext (hphase next)
    subpools := hterminating }

/-- The clean-up of the library is registered before everything else. -/
theorem Layout.registerInit {s : State} (h : Layout s) (hpool : s.tcnGlobalPool ≠ none) :
    Layout { s with cleanups := .sslInitCleanup :: s.cleanups } :=
  { h with
    registered := by
      intro m
      rw [List.mem_cons]
      exact (or_iff_right nofun).trans (h.registered m)
    once := by
      intro m
      change List.count _ (_ :: _) ≤ 1
      rw [List.count_cons_of_ne]
      · exact h.once m
      · nofun
    entries := fun hinforce j m hm => List.mem_cons_of_mem _ (h.entries hinforce j m hm)
    ended := fun hnone => absurd hnone hpool
    settled := by
      intro hsettled
      obtain ⟨hcreate, hlock, hdestroy, horder⟩ := h.settled hsettled
      refine ⟨hcreate, hlock, hdestroy, fun hlocking => ?_⟩
      obtain ⟨before, after, heq, hbefore⟩ := horder hlocking
      refine ⟨.sslInitCleanup :: before, after, by rw [heq]; rfl, ?_⟩
      intro j m hm hmem
      rcases List.mem_cons.mp hmem with hmem | hmem
      · cases hmem
      · exact hbefore j m hm hmem }

theorem Inv.rest (h : Inv x) (hphase : x.state.phase = .rest) (ok : Bool) :
    ∃ s', initializeStep n x.state ok = .ok (.done, s') ∧ Inv { x with state := s' } := by
  have hpool : x.state.tcnGlobalPool ≠ none := by
    intro hnone
    cases hphase.symm.trans (h.layout.ended hnone).1
  have hold : ∀ next, x.state.phase ≠ .setup next := by
    intro next
    rw [hphase]
    exact nofun
  have hlayout : Layout { x.state with phase := .idle } :=
    h.layout.settle hold nofun hpool nofun
  cases ok with
  | true =>
    refine ⟨_, by simp only [initializeStep, hphase, if_true]; rfl, ?_⟩
    refine h.of_layout (hlayout.registerInit hpool) h.implements ?_ rfl nofun
    exact fun k _ _ _ hm => by cases k <;> exact hm
  | false =>
    refine ⟨_, by simp only [initializeStep, hphase]; rfl, ?_⟩
    refine h.of_layout { hlayout with } h.implements ?_ rfl nofun
    exact fun k _ _ _ hm => by cases k <;> exact hm

/-- A step of `SSL.initialize`. -/
theorem Inv.initializeStep (h : Inv x) {ok : Bool} (hobeys : Obeys x (.initializeStep ok)) :
    ∃ r s', Locks.initializeStep n x.state ok = .ok (r, s') ∧ Inv { x with state := s' } := by
  cases hphase : x.state.phase with
  | idle => exact ⟨.ignored, x.state, by simp only [Locks.initializeStep, hphase], h⟩
  | terminating => exact ⟨.ignored, x.state, by simp only [Locks.initializeStep, hphase], h⟩
  | rest =>
    obtain ⟨s', hok, hinv⟩ := h.rest (n := n) hphase ok
    exact ⟨.done, s', hok, hinv⟩
  | setup next =>
    cases hp : x.state.tcnGlobalPool with
    | none => cases hphase.symm.trans (h.layout.ended hp).1
    | some p =>
      obtain ⟨s', hok, hinv⟩ := h.setup (n := n) hp hphase hobeys
      exact ⟨.done, s', by simp only [Locks.initializeStep, hphase, hp, hok], hinv⟩

/-- `SSL.initialize` begins the set-up, or counts another call. -/
theorem Inv.sslInitialize (h : Inv x) : Inv { x with state := (sslInitialize x.state).2 } := by
  cases hphase : x.state.phase with
  | terminating =>
    rw [show Locks.sslInitialize x.state = (.ignored, x.state) by
      simp only [Locks.sslInitialize, hphase]]
    exact h
  | setup next | rest | idle =>
    cases hp : x.state.tcnGlobalPool with
    | none =>
      rw [show Locks.sslInitialize x.state = (.ignored, x.state) by
        simp only [Locks.sslInitialize, hphase, hp]]
      exact h
    | some p =>
      have hcounted := h.counted (x.state.sslInitialized + 1) x.state.sslLockNumLocks
      by_cases hfirst : x.state.sslInitialized ≠ 0 ∨ x.state.phase ≠ .idle
      · rw [show Locks.sslInitialize x.state =
            (.done, { x.state with sslInitialized := x.state.sslInitialized + 1 }) by
          simp only [Locks.sslInitialize, hphase, hp]
          rw [hphase] at hfirst
          exact if_pos hfirst]
        exact hcounted
      · rw [show Locks.sslInitialize x.state =
            (.done, { x.state with
              sslInitialized := x.state.sslInitialized + 1, phase := .setup .numLocks }) by
          simp only [Locks.sslInitialize, hphase, hp]
          rw [hphase] at hfirst
          exact if_neg hfirst]
        refine hcounted.give hp x.state.given nofun ?_ id ?_ (Statement.nothing_passed rfl)
        · rintro (hset | htable)
          · exact .inl hset
          · cases htable
        · exact fun hset => (h.layout.parent hset).trans hp

/-- `Library.initialize0` makes the global pool. -/
theorem Inv.initialize0 (h : Inv x) (created : Bool) :
    Inv { x with state := (initialize0 x.state created).2 } := by
  have hl := h.layout
  cases hp : x.state.tcnGlobalPool with
  | some p =>
    rw [show Locks.initialize0 x.state created = (.done, x.state) by
      simp only [Locks.initialize0, hp]]
    exact h
  | none =>
    cases created with
    | false =>
      rw [show Locks.initialize0 x.state false = (.ignored, x.state) by
        simp only [Locks.initialize0, hp]
        rfl]
      exact h
    | true =>
      obtain ⟨hphase, hlocking, hcleanups⟩ := hl.ended hp
      -- There is nothing before the pool.
      have hpools : ∀ q p, x.state.pools.peek q ≠ some p := by
        intro q p hq
        rcases hl.pools q p hq with ⟨-, hg⟩ | ⟨g, -, hg⟩
        · cases hp.symm.trans hg
        · cases hp.symm.trans hg
      have hvalues : ∀ l v, x.state.values.peek l ≠ some v := by
        intro l v hv
        obtain ⟨-, g, -, -, hg, -⟩ := hl.values l v hv
        cases hp.symm.trans hg
      have hmutexes : ∀ m r, x.state.mutexes.regionOf m ≠ some r := by
        intro m r hr
        rcases hl.mutexes m r hr with hg | ⟨l, v, hv, -⟩
        · cases hp.symm.trans hg
        · exact hvalues l v hv
      have hpeek : Arena.peek (x.state.pools.alloc none) =
          Function.update x.state.pools.peek x.state.pools.length (some none) :=
        Arena.peek_alloc _ _
      have hforced : ¬ State.TableInForce { x.state with
          tcnGlobalPool := some x.state.pools.length, pools := x.state.pools.alloc none } := by
        rintro (hset | ⟨next, hnext, -⟩)
        · cases hlocking.symm.trans hset
        · cases hphase.symm.trans hnext
      rw [show Locks.initialize0 x.state true = (.done, { x.state with
          tcnGlobalPool := some x.state.pools.length, pools := x.state.pools.alloc none }) by
        simp only [Locks.initialize0, hp, if_true]]
      refine h.of_layout ?_ h.implements (fun k _ _ _ hm => by cases k <;> exact hm) rfl ?_
      · exact
        { hl with
          global := by
            intro g hg
            cases hg
            simp only [hpeek, Function.update_self]
          pools := by
            intro q p hq
            simp only [hpeek, Function.update_apply] at hq
            split at hq
            · rename_i heq
              cases hq
              exact .inl ⟨rfl, congrArg some heq.symm⟩
            · exact absurd hq (hpools q p)
          mutexes := fun m r hr => absurd hr (hmutexes m r)
          registered := by
            intro m
            simp only [hcleanups, List.not_mem_nil, false_iff, not_exists, not_and]
            exact fun g _ => hmutexes m g
          values := fun l v hv => absurd hv (hvalues l v)
          tables := by
            intro i t ht
            cases hp.symm.trans (hl.tables i t ht)
          entries := fun hinforce => absurd hinforce hforced
          distinct := fun hinforce => absurd hinforce hforced
          ended := nofun
          parent := by
            intro hset
            have hsettled := (hl.settled fun next hnext => by cases hphase.symm.trans hnext).1
            cases (hset.symm.trans hsettled).trans hlocking
          passed := by
            intro next hnext
            cases hphase.symm.trans hnext
          subpools := by
            intro hterminating
            cases hphase.symm.trans hterminating }
      · intro hterminating
        cases hphase.symm.trans hterminating

end

end Locks
