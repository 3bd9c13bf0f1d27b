-- SUMMARY: What becomes of the pools: the end of the global one, and those of the locks made on demand.
import Tcnative.Locks.Layout

/-!
# Pools of locks

The invariant survives each step of `apr_terminate`, and the functions that make and
destroy locks on demand.
-/

namespace Locks
open Machine Mutex

/-! ## The end of the pool -/

section
variable {x : Session} {s s' : State}

/-- The global pool is no subpool of its own. -/
theorem Layout.isUnder_self (h : Layout s) {p : Nat} (hp : s.tcnGlobalPool = some p) :
    s.isUnder p p = false := by
  simp [State.isUnder, h.global p hp]

/-- Every lock that was made on demand has a pool under the global one. -/
theorem Layout.isUnder_value (h : Layout s) {p l : Nat} {v : CryptoDynlockValue}
    (hp : s.tcnGlobalPool = some p) (hv : s.values.peek l = some v) :
    s.isUnder p v.pool = true := by
  obtain ⟨-, g, -, -, hg, hpool⟩ := h.values l v hv
  cases hp.symm.trans hg
  simp [State.isUnder, hpool]

/-- Without the pools under the global one there are no locks made on demand. -/
theorem Layout.values_released (h : Layout s) {p : Nat} (hp : s.tcnGlobalPool = some p) (l : Nat) :
    Arena.peek (s.values.releaseWhere (s.isUnder p ·.pool)) l = none := by
  rw [Arena.peek_releaseWhere]
  apply Option.filter_eq_none_iff.mpr
  intro v hv
  simp [h.isUnder_value hp hv]

/-- The pools under the global one are gone. -/
theorem Layout.destroySubpools (h : Layout s) {p : Nat} (hp : s.tcnGlobalPool = some p)
    (hphase : s.phase = .idle) {mutexes : Mutex.Store Nat Nat}
    (hregion : ∀ m r, mutexes.regionOf m = some r ↔
      s.mutexes.regionOf m = some r ∧ s.isUnder p r = false) :
    Layout { s with
      mutexes
      values := s.values.releaseWhere (s.isUnder p ·.pool)
      pools := s.pools.releaseWhere (· = some p)
      phase := .terminating } :=
  have hvalues := h.values_released hp
  have hpools : ∀ q r, Arena.peek (s.pools.releaseWhere (· = some p)) q = some r ↔
      s.pools.peek q = some r ∧ r ≠ some p := by
    intro q r
    rw [Arena.peek_releaseWhere, Option.filter_eq_some_iff]
    simp
  { h with
    global := by
      intro g hg
      exact (hpools g none).mpr ⟨h.global g hg, (Option.some_ne_none p).symm⟩
    pools := by
      intro q r hq
      exact h.pools q r ((hpools q r).mp hq).1
    mutexes := by
      intro m r hr
      obtain ⟨hr, hnot⟩ := (hregion m r).mp hr
      rcases h.mutexes m r hr with hg | ⟨l, v, hv, hm⟩
      · exact .inl hg
      · exfalso
        obtain ⟨m', -, hm', hr', -⟩ := h.values l v hv
        cases hm.symm.trans hm'
        cases hr.symm.trans hr'
        cases hnot.symm.trans (h.isUnder_value hp hv)
    registered := by
      intro m
      rw [h.registered m]
      constructor
      · rintro ⟨g, hg, hr⟩
        cases hp.symm.trans hg
        exact ⟨p, hp, (hregion m p).mpr ⟨hr, h.isUnder_self hp⟩⟩
      · rintro ⟨g, hg, hr⟩
        exact ⟨g, hg, ((hregion m g).mp hr).1⟩
    values := by
      intro l v hv
      cases (hvalues l).symm.trans hv
    unshared := by
      intro l l' v v' hv
      cases (hvalues l).symm.trans hv
    entries := by
      rintro (hlocking | ⟨next, hnext, -⟩)
      · exact h.entries (.inl hlocking)
      · cases hnext
    distinct := by
      rintro (hlocking | ⟨next, hnext, -⟩)
      · exact h.distinct (.inl hlocking)
      · cases hnext
    table := by
      intro i hi
      cases hi
    fresh := by
      intro i hi
      cases hi
    ended := by
      intro hnone
      cases hp.symm.trans hnone
    settled := by
      intro _
      exact h.settled fun next hnext => by cases hphase.symm.trans hnext
    passed := by
      intro next hnext
      cases hnext
    subpools := by
      intro _ q g hq
      obtain ⟨hq, hne⟩ := (hpools q _).mp hq
      rcases h.pools q _ hq with ⟨hcontra, -⟩ | ⟨g', hg', hg⟩
      · cases hcontra
      · cases hg'
        cases hp.symm.trans hg
        exact absurd rfl hne }

/-- The first step of the end destroys all pools under the global one. -/
theorem Inv.terminate (h : Inv x) (hobeys : Obeys x .terminate) :
    ∃ r s', Locks.terminate x.state = .ok (r, s') ∧ Inv (x.note .terminate r s') := by
  have hl := h.layout
  cases hphase : x.state.phase with
  | setup next | rest | terminating =>
    exact ⟨.ignored, x.state, by simp only [Locks.terminate, hphase], h⟩
  | idle =>
  cases hp : x.state.tcnGlobalPool with
  | none => exact ⟨.ignored, x.state, by simp only [Locks.terminate, hphase, hp], h⟩
  | some p =>
  -- Only the locks of the library's own keep their names.
  obtain ⟨mutexes, hok, hpeek, himplements⟩ :=
    (h.implements.restrict (·.isStatic = true) (hobeys hphase)).destroyWhere
      (x.state.isUnder p) (by
        intro k m c hm hc
        obtain ⟨hk, hm⟩ := Option.ite_none_right_eq_some.mp hm
        cases k with
        | static type =>
          obtain ⟨-, g, hg, hregion⟩ := hl.static_region hm
          obtain ⟨c', hc', rfl⟩ := regionOf_eq_some.mp hregion
          cases hc.symm.trans hc'
          cases hp.symm.trans hg
          exact hl.isUnder_self hp
        | dyn l => cases hk)
  have hregion : ∀ m r, Store.regionOf mutexes m = some r ↔
      x.state.mutexes.regionOf m = some r ∧ x.state.isUnder p r = false := by
    intro m r
    simp only [regionOf_eq_some, hpeek, Option.filter_eq_some_iff, Bool.not_eq_true']
    constructor
    · rintro ⟨c, ⟨hc, hunder⟩, rfl⟩
      exact ⟨⟨c, hc, rfl⟩, hunder⟩
    · rintro ⟨⟨c, hc, rfl⟩, hunder⟩
      exact ⟨c, ⟨hc, hunder⟩, rfl⟩
  have hdestroy : x.state.destroySubpools p = .ok { x.state with
      mutexes
      values := x.state.values.releaseWhere (x.state.isUnder p ·.pool)
      pools := x.state.pools.releaseWhere (· = some p) } := by
    simp only [State.destroySubpools, hok]
  have hnone : ∀ l, l ∈ ([] : List Nat) ↔
      ∃ v, Arena.peek (x.state.values.releaseWhere (x.state.isUnder p ·.pool)) l = some v := by
    intro l
    simp [hl.values_released hp]
  have hinv := inv_of_layout (hl.destroySubpools hp hphase hregion) himplements
    (by
      intro k t ht
      have hstatic := hobeys hphase _ ht
      rw [if_pos hstatic]
      cases k with
      | static type => rfl
      | dyn l => cases hstatic)
    hnone (fun _ _ => rfl)
  exact ⟨.done, _, by simp only [Locks.terminate, hphase, hp, hdestroy], hinv⟩

/-- What is registered last has run. -/
theorem Layout.pop (h : Layout s) {c : Cleanup} {cleanups : List Cleanup}
    (hcleanups : s.cleanups = c :: cleanups) (hc : c ≠ .sslThreadCleanup)
    (hphase : s.phase = .terminating) {mutexes : Mutex.Store Nat Nat}
    (hregion : ∀ m r, mutexes.regionOf m = some r ↔
      s.mutexes.regionOf m = some r ∧ c ≠ .mutex m)
    (hvalues : ∀ l v, s.values.peek l = some v → v.mutex.all (c ≠ .mutex ·)) :
    Layout { s with mutexes, cleanups } :=
  have hsettled := h.settled fun next hnext => by cases hphase.symm.trans hnext
  have hpool : s.tcnGlobalPool ≠ none := by
    intro hnone
    cases hphase.symm.trans (h.ended hnone).1
  -- A mutex of the table is not at the head of the list.
  have hother : s.lockingCallback = true → ∀ (i m : Nat), s.entries[i]? = some (some m) →
      c ≠ .mutex m := by
    intro hlocking i m hm heq
    obtain ⟨before, after, horder, hbefore⟩ := hsettled.2.2.2 hlocking
    rw [hcleanups] at horder
    cases before with
    | nil => exact hc (List.cons.inj horder).1
    | cons b before =>
      exact hbefore i m hm (List.mem_cons.mpr (.inl (heq.symm.trans (List.cons.inj horder).1)))
  { h with
    mutexes := by
      intro m r hr
      exact h.mutexes m r ((hregion m r).mp hr).1
    registered := by
      intro m
      have hold := h.registered m
      rw [hcleanups, List.mem_cons] at hold
      constructor
      · intro hmem
        obtain ⟨g, hg, hr⟩ := hold.mp (.inr hmem)
        refine ⟨g, hg, (hregion m g).mpr ⟨hr, ?_⟩⟩
        rintro rfl
        -- It is registered once.
        have honce := h.once m
        rw [hcleanups, List.count_cons_self] at honce
        have hpos : 0 < cleanups.count (.mutex m) := List.count_pos_iff.mpr hmem
        omega
      · rintro ⟨g, hg, hr⟩
        obtain ⟨hr, hne⟩ := (hregion m g).mp hr
        exact (hold.mpr ⟨g, hg, hr⟩).resolve_left fun heq => hne heq.symm
    once := by
      intro m
      refine le_trans ?_ (h.once m)
      rw [hcleanups]
      exact List.count_le_count_cons
    values := by
      intro l v hv
      obtain ⟨m, g, hm, hr, hrest⟩ := h.values l v hv
      have hne := hvalues l v hv
      rw [hm] at hne
      exact ⟨m, g, hm, (hregion m _).mpr ⟨hr, of_decide_eq_true hne⟩, hrest⟩
    entries := by
      rintro (hlocking | ⟨next, hnext, -⟩)
      · intro i m hm
        have hmem := h.entries (.inl hlocking) i m hm
        rw [hcleanups] at hmem
        exact (List.mem_cons.mp hmem).resolve_left fun heq => hother hlocking i m hm heq.symm
      · cases hphase.symm.trans hnext
    ended := fun hnone => absurd hnone hpool
    settled := by
      intro _
      refine ⟨hsettled.1, hsettled.2.1, hsettled.2.2.1, fun hlocking => ?_⟩
      obtain ⟨before, after, horder, hbefore⟩ := hsettled.2.2.2 hlocking
      rw [hcleanups] at horder
      cases before with
      | nil => exact absurd (List.cons.inj horder).1 hc
      | cons b before =>
        refine ⟨before, after, (List.cons.inj horder).2, fun i m hm hmem => ?_⟩
        exact hbefore i m hm (List.mem_cons_of_mem _ hmem) }

/-- A mutex of the pool is destroyed. -/
theorem Inv.popMutex (h : Inv x) {m : Nat} {cleanups : List Cleanup}
    (hcleanups : x.state.cleanups = .mutex m :: cleanups) (hphase : x.state.phase = .terminating) :
    ∃ mutexes, x.state.mutexes.destroy m = .ok mutexes ∧
      Inv { x with state := { x.state with mutexes, cleanups } } := by
  have hl := h.layout
  obtain ⟨g, hg, hregion⟩ := (hl.registered m).mp (hcleanups ▸ List.mem_cons_self)
  obtain ⟨c, hc, -⟩ := regionOf_eq_some.mp hregion
  have hsettled := hl.settled fun next hnext => by cases hphase.symm.trans hnext
  have hunnamed : ∀ k, x.state.name k ≠ some m := by
    intro k hk
    cases k with
    | static type =>
      obtain ⟨hlocking, -, hentry⟩ := name_static.mp hk
      obtain ⟨before, after, horder, hbefore⟩ := hsettled.2.2.2 hlocking
      rw [hcleanups] at horder
      cases before with
      | nil => cases (List.cons.inj horder).1
      | cons b before =>
        exact hbefore _ m hentry (List.mem_cons.mpr (.inl (List.cons.inj horder).1))
    | dyn l =>
      obtain ⟨q, g', hregion', hg', hpool⟩ := hl.dyn_region hk
      cases hregion.symm.trans hregion'
      rw [hl.global _ hg] at hpool
      cases hpool
  obtain ⟨mutexes, hok, hpeek, himplements⟩ := h.implements.destroy hc hunnamed
  refine ⟨mutexes, hok, h.of_layout (hl.pop hcleanups nofun hphase ?_ ?_) himplements ?_ rfl ?_⟩
  · intro m' r
    simp only [regionOf_eq_some, hpeek, Function.update_apply, ne_eq, Cleanup.mutex.injEq]
    by_cases heq : m' = m
    · simp [heq]
    · simp [heq, Ne.symm heq]
  · intro l v hv
    obtain ⟨m', -, hm', -⟩ := hl.values l v hv
    rw [hm', Option.all_some]
    refine decide_eq_true fun heq => ?_
    cases heq
    exact hunnamed (.dyn l) (Locks.name_dyn.mpr ⟨v, hv, hm'⟩)
  · exact fun k _ _ _ hm => by cases k <;> exact hm
  · exact h.none_left

/-- The functions are taken back while all locks are free. -/
theorem Inv.popCleanup (h : Inv x) {cleanups : List Cleanup}
    (hcleanups : x.state.cleanups = .sslThreadCleanup :: cleanups)
    (hphase : x.state.phase = .terminating) (hheld : x.held = []) (hdyns : x.dyns = []) :
    Inv { x with state := { sslThreadCleanup x.state with cleanups } } := by
  have hl := h.layout
  have hpool : x.state.tcnGlobalPool ≠ none := by
    intro hnone
    cases hphase.symm.trans (hl.ended hnone).1
  have hforced : ¬ State.TableInForce { sslThreadCleanup x.state with cleanups } := by
    rintro (hset | ⟨next, hnext, -⟩)
    · cases hset
    · cases hphase.symm.trans hnext
  refine h.of_layout ?_ h.implements ?_ rfl fun _ _ => hdyns
  · exact
    { hl with
      registered := by
        intro m
        have hold := hl.registered m
        rw [hcleanups, List.mem_cons] at hold
        exact (or_iff_right nofun).symm.trans hold
      once := by
        intro m
        refine le_trans ?_ (hl.once m)
        rw [hcleanups]
        exact List.count_le_count_cons
      entries := fun hinforce => absurd hinforce hforced
      distinct := fun hinforce => absurd hinforce hforced
      ended := fun hnone => absurd hnone hpool
      parent := nofun
      settled := fun _ => ⟨rfl, rfl, rfl, nofun⟩
      passed := by
        intro next hnext
        cases hphase.symm.trans hnext }
  · intro k t m ht
    rw [hheld] at ht
    cases ht

/-- Nothing is there. -/
def State.Empty (s : State) : Prop :=
  (∀ q, s.pools.peek q = none) ∧ (∀ m, s.mutexes.peek m = none) ∧
    (∀ l, s.values.peek l = none) ∧ ∀ i, s.tables.peek i = none

/-- Without a global pool nothing is left. -/
theorem Layout.empty (h : Layout s) (hnone : s.tcnGlobalPool = none) : s.Empty := by
  have hvalues : ∀ l, s.values.peek l = none := by
    intro l
    apply Option.eq_none_iff_forall_ne_some.mpr
    intro v hv
    obtain ⟨-, g, -, -, hg, -⟩ := h.values l v hv
    cases hnone.symm.trans hg
  refine ⟨fun q => ?_, fun m => ?_, hvalues, fun i => ?_⟩
  · apply Option.eq_none_iff_forall_ne_some.mpr
    intro p hq
    rcases h.pools q p hq with ⟨-, hg⟩ | ⟨g, -, hg⟩
    · cases hnone.symm.trans hg
    · cases hnone.symm.trans hg
  · apply Option.eq_none_iff_forall_ne_some.mpr
    intro c hc
    rcases h.mutexes m c.region (regionOf_eq_some.mpr ⟨c, hc, rfl⟩) with hg | ⟨l, v, hv, -⟩
    · cases hnone.symm.trans hg
    · cases (hvalues l).symm.trans hv
  · apply Option.eq_none_iff_forall_ne_some.mpr
    intro t ht
    cases hnone.symm.trans (h.tables i t ht)

/-- The end of the pool, when nothing is registered any more. -/
theorem Inv.releasePool (h : Inv x) {p : Nat} (hp : x.state.tcnGlobalPool = some p)
    (hphase : x.state.phase = .terminating) (hcleanups : x.state.cleanups = []) :
    ∃ pools, x.state.pools.release p = .ok pools ∧
      Inv { x with state := { x.state with
        pools
        tables := x.state.tables.releaseWhere (·.pool = p)
        tcnGlobalPool := none
        phase := .idle } } := by
  have hl := h.layout
  have hsettled := hl.settled fun next hnext => by cases hphase.symm.trans hnext
  have hlocking : x.state.lockingCallback = false := by
    apply Bool.eq_false_iff.mpr
    intro hset
    obtain ⟨before, after, horder, -⟩ := hsettled.2.2.2 hset
    rw [hcleanups] at horder
    exact absurd horder.symm (by simp)
  have hdyns := h.none_left hphase hlocking
  have hvalues : ∀ l v, x.state.values.peek l ≠ some v := by
    intro l v hv
    have hmem := (h.dyns_iff l).mpr ⟨v, hv⟩
    rw [hdyns] at hmem
    cases hmem
  have hmutexes : ∀ m r, x.state.mutexes.regionOf m ≠ some r := by
    intro m r hr
    rcases hl.mutexes m r hr with hg | ⟨l, v, hv, -⟩
    · have hmem := (hl.registered m).mpr ⟨r, hg, hr⟩
      rw [hcleanups] at hmem
      cases hmem
    · exact hvalues l v hv
  obtain ⟨pools, hok, hpeek⟩ := Arena.release_of_peek (hl.global p hp)
  refine ⟨pools, hok, h.of_layout ?_ h.implements ?_ rfl nofun⟩
  · exact
    { hl with
      global := nofun
      pools := by
        intro q r hq
        simp only [hpeek, Function.update_apply] at hq
        split at hq
        · cases hq
        · rename_i hne
          rcases hl.pools q r hq with ⟨-, hg⟩ | ⟨g, rfl, hg⟩
          · cases hp.symm.trans hg
            exact absurd rfl hne
          · obtain ⟨l, v, hv, -⟩ := hl.subpools hphase q g hq
            exact absurd hv (hvalues l v)
      mutexes := fun m r hr => absurd hr (hmutexes m r)
      registered := by
        intro m
        simp only [hcleanups, List.not_mem_nil, false_iff]
        rintro ⟨g, hg, -⟩
        cases hg
      values := fun l v hv => absurd hv (hvalues l v)
      tables := by
        intro i t ht
        rw [Arena.peek_releaseWhere, Option.filter_eq_some_iff] at ht
        have hpool := hl.tables i t ht.1
        cases hp.symm.trans hpool
        simp at ht
      entries := by
        rintro (hset | ⟨next, hnext, -⟩)
        · cases hlocking.symm.trans hset
        · cases hnext
      distinct := by
        rintro (hset | ⟨next, hnext, -⟩)
        · cases hlocking.symm.trans hset
        · cases hnext
      table := nofun
      fresh := nofun
      ended := fun _ => ⟨rfl, hlocking, hcleanups⟩
      parent := by
        intro hset
        cases (hset.symm.trans hsettled.1).trans hlocking
      settled := by
        intro _
        refine ⟨hsettled.1, hsettled.2.1, hsettled.2.2.1, fun hset => ?_⟩
        cases hlocking.symm.trans hset
      passed := nofun
      subpools := nofun }
  · intro k t m _ hm
    cases k with
    | static type =>
      obtain ⟨hset, -⟩ := name_static.mp hm
      cases hlocking.symm.trans hset
    | dyn l =>
      obtain ⟨v, hv, -⟩ := Locks.name_dyn.mp hm
      exact absurd hv (hvalues l v)

/-- A step of `apr_terminate`. -/
theorem Inv.terminateStep (h : Inv x) (hobeys : Obeys x .terminateStep) :
    ∃ r s', Locks.terminateStep x.state = .ok (r, s') ∧ Inv { x with state := s' } := by
  cases hphase : x.state.phase with
  | setup next | rest | idle =>
    exact ⟨.ignored, x.state, by simp only [Locks.terminateStep, hphase], h⟩
  | terminating =>
  cases hp : x.state.tcnGlobalPool with
  | none => cases hphase.symm.trans (h.layout.ended hp).1
  | some p =>
  cases hcleanups : x.state.cleanups with
  | nil =>
    obtain ⟨pools, hok, hinv⟩ := h.releasePool hp hphase hcleanups
    exact ⟨.done, _, by simp only [Locks.terminateStep, hphase, hp, hcleanups, hok], hinv⟩
  | cons c cleanups =>
  cases c with
  | mutex m =>
    obtain ⟨mutexes, hok, hinv⟩ := h.popMutex hcleanups hphase
    exact ⟨.done, _, by simp only [Locks.terminateStep, hphase, hp, hcleanups, hok], hinv⟩
  | sslThreadCleanup =>
    obtain ⟨hheld, hdyns⟩ := hobeys hphase (by rw [hcleanups]; rfl)
    have hinv := h.popCleanup hcleanups hphase hheld hdyns
    exact ⟨.done, _, by simp only [Locks.terminateStep, hphase, hp, hcleanups], hinv⟩
  | sslInitCleanup =>
    have hlayout : Layout { x.state with cleanups } :=
      h.layout.pop hcleanups nofun hphase (fun m r => (and_iff_left nofun).symm)
        (fun l v hv => by cases v.mutex <;> rfl)
    refine ⟨.done, { x.state with sslInitialized := 0, cleanups },
      by simp only [Locks.terminateStep, hphase, hp, hcleanups], ?_⟩
    refine h.of_layout { hlayout with } h.implements ?_ rfl h.none_left
    exact fun k _ _ _ hm => by cases k <;> exact hm

end

/-! ## Locks made on demand -/

section
variable {x : Session} {s : State} {g l m p r : Nat} {v : CryptoDynlockValue}

theorem Layout.pool_ne_length (h : Layout s) (hv : s.values.peek l = some v) :
    v.pool ≠ s.pools.length := by
  obtain ⟨-, g, -, -, -, hpool⟩ := h.values l v hv
  intro heq
  rw [heq, Arena.peek_length] at hpool
  cases hpool

/-- A mutex lives in a pool that was not destroyed. -/
theorem Layout.region_ne_length (h : Layout s) (hr : s.mutexes.regionOf m = some r) :
    r ≠ s.pools.length := by
  rcases h.mutexes m r hr with hg | ⟨l, v, hv, hm⟩
  · rintro rfl
    have hpool := h.global _ hg
    rw [Arena.peek_length] at hpool
    cases hpool
  · obtain ⟨m', -, hm', hr', -⟩ := h.values l v hv
    cases hm.symm.trans hm'
    cases hr.symm.trans hr'
    exact h.pool_ne_length hv

/-- While the library can call `ssl_dyn_create_function`, there is a pool for it. -/
theorem Layout.parent_pool (h : Layout s) (hcreate : s.dynlockCreateCallback = true) :
    ∃ g, s.tcnGlobalPool = some g ∧ s.dynlockpool = some g := by
  cases hg : s.tcnGlobalPool with
  | none =>
    obtain ⟨hphase, hlocking, -⟩ := h.ended hg
    have hsettled := h.settled fun next hnext => by cases hphase.symm.trans hnext
    cases (hcreate.symm.trans hsettled.1).trans hlocking
  | some g => exact ⟨g, rfl, (h.parent hcreate).trans hg⟩

/-- A pool that stays without a value. -/
theorem Layout.addPool (h : Layout s) (hg : s.tcnGlobalPool = some g)
    (hparent : s.dynlockpool = some g) (hphase : s.phase ≠ .terminating) :
    Layout { s with pools := s.pools.alloc s.dynlockpool } :=
  { h with
    global := fun g' hg' => Arena.peek_alloc_of_peek (h.global g' hg') _
    pools := by
      intro q r hq
      rw [Arena.peek_alloc, Function.update_apply] at hq
      split at hq
      · cases hq
        exact .inr ⟨g, hparent, hg⟩
      · exact h.pools q r hq
    values := by
      intro l v hv
      obtain ⟨m, g', hm, hr, hg', hpool⟩ := h.values l v hv
      exact ⟨m, g', hm, hr, hg', Arena.peek_alloc_of_peek hpool _⟩
    subpools := fun hterminating => absurd hterminating hphase }

/-- What was made and destroyed again leaves no trace. -/
theorem Layout.congr (h : Layout s) {pools : Arena (Option Nat)}
    {mutexes : Mutex.Store Nat Nat} {values : Arena CryptoDynlockValue}
    (hpools : pools.peek = s.pools.peek) (hmutexes : mutexes.peek = s.mutexes.peek)
    (hvalues : values.peek = s.values.peek) : Layout { s with pools, mutexes, values } :=
  have hregion : mutexes.regionOf = s.mutexes.regionOf := by
    funext m
    simp only [Store.regionOf, hmutexes]
  { h with
    global := by simpa only [hpools] using h.global
    pools := by simpa only [hpools] using h.pools
    mutexes := by simpa only [hregion, hvalues] using h.mutexes
    registered := by simpa only [hregion] using h.registered
    values := by simpa only [hpools, hregion, hvalues] using h.values
    unshared := by simpa only [hvalues] using h.unshared
    subpools := by simpa only [hpools, hvalues] using h.subpools }

/-- A value with its mutex, in a pool of its own. -/
theorem Layout.addValue (h : Layout s) (hg : s.tcnGlobalPool = some g)
    (hparent : s.dynlockpool = some g) {values : Arena CryptoDynlockValue}
    (hpool : v.pool = s.pools.length)
    (hmutex : v.mutex = some s.mutexes.length)
    (hvalues : values.peek = Function.update s.values.peek s.values.length (some v)) :
    Layout { s with
      pools := s.pools.alloc s.dynlockpool
      mutexes := s.mutexes.create s.pools.length
      values } :=
  have hregion := regionOf_create s.mutexes s.pools.length
  have hnew : values.peek s.values.length = some v := by rw [hvalues, Function.update_self]
  have hkept : ∀ {l w}, s.values.peek l = some w → values.peek l = some w := by
    intro l w hw
    rw [hvalues, Function.update_of_ne, hw]
    rintro rfl
    simp at hw
  have hvalue : ∀ {l w}, values.peek l = some w →
      (l = s.values.length ∧ w = v) ∨ s.values.peek l = some w := by
    intro l w hw
    rw [hvalues, Function.update_apply] at hw
    split at hw
    · rename_i heq
      cases hw
      exact .inl ⟨heq, rfl⟩
    · exact .inr hw
  have hold : ∀ {m r}, s.mutexes.regionOf m = some r →
      (s.mutexes.create s.pools.length).regionOf m = some r := by
    intro m r hr
    rw [hregion, Function.update_of_ne, hr]
    rintro rfl
    simp [Store.regionOf] at hr
  { h with
    global := fun g' hg' => Arena.peek_alloc_of_peek (h.global g' hg') _
    pools := by
      intro q r hq
      rw [Arena.peek_alloc, Function.update_apply] at hq
      split at hq
      · cases hq
        exact .inr ⟨g, hparent, hg⟩
      · exact h.pools q r hq
    mutexes := by
      intro m r hr
      simp only [hregion, Function.update_apply] at hr
      split at hr
      · rename_i heq
        exact .inr ⟨_, v, hnew, heq ▸ hmutex⟩
      · rcases h.mutexes m r hr with hg' | ⟨l, w, hw, hm⟩
        · exact .inl hg'
        · exact .inr ⟨l, w, hkept hw, hm⟩
    registered := by
      intro m
      rw [h.registered m]
      constructor
      · rintro ⟨g', hg', hr⟩
        exact ⟨g', hg', hold hr⟩
      · rintro ⟨g', hg', hr⟩
        simp only [hregion, Function.update_apply] at hr
        split at hr
        · cases hr
          have hlive := h.global _ hg'
          rw [Arena.peek_length] at hlive
          cases hlive
        · exact ⟨g', hg', hr⟩
    values := by
      intro l w hw
      rcases hvalue hw with ⟨-, rfl⟩ | hw
      · refine ⟨s.mutexes.length, g, hmutex, ?_, hg, ?_⟩
        · simp only [hregion, hpool, Function.update_self]
        · simp only [Arena.peek_alloc, hpool, Function.update_self, hparent]
      · obtain ⟨m, g', hm, hr, hg', hlive⟩ := h.values l w hw
        exact ⟨m, g', hm, hold hr, hg', Arena.peek_alloc_of_peek hlive _⟩
    unshared := by
      intro l l' w w' hw hw' heq
      rcases hvalue hw with ⟨rfl, rfl⟩ | hw
      · rcases hvalue hw' with ⟨rfl, -⟩ | hw'
        · rfl
        · exact absurd (heq.symm.trans hpool) (h.pool_ne_length hw')
      · rcases hvalue hw' with ⟨-, rfl⟩ | hw'
        · exact absurd (heq.trans hpool) (h.pool_ne_length hw)
        · exact h.unshared l l' w w' hw hw' heq
    subpools := by
      intro hterminating q g' hq
      rw [Arena.peek_alloc, Function.update_apply] at hq
      split at hq
      · rename_i heq
        exact ⟨_, v, hnew, hpool.trans heq.symm⟩
      · obtain ⟨l, w, hw, hq⟩ := h.subpools hterminating q g' hq
        exact ⟨l, w, hkept hw, hq⟩ }

/-- The value, its mutex and its pool are gone. -/
theorem Layout.removeValue (h : Layout s) (hv : s.values.peek l = some v)
    (hm : v.mutex = some m) {pools : Arena (Option Nat)} {mutexes : Mutex.Store Nat Nat}
    {values : Arena CryptoDynlockValue}
    (hpools : pools.peek = Function.update s.pools.peek v.pool none)
    (hregion : ∀ m' r, mutexes.regionOf m' = some r ↔
      s.mutexes.regionOf m' = some r ∧ m' ≠ m)
    (hvalues : values.peek = Function.update s.values.peek l none) :
    Layout { s with pools, mutexes, values } := by
  obtain ⟨m', g, hm', hr, hg, hpool⟩ := h.values l v hv
  cases hm.symm.trans hm'
  have hroot : g ≠ v.pool := by
    rintro rfl
    cases (h.global _ hg).symm.trans hpool
  have hvalue : ∀ {l' w}, values.peek l' = some w ↔ s.values.peek l' = some w ∧ l' ≠ l := by
    intro l' w
    rw [hvalues, Function.update_apply]
    split
    · rename_i heq
      simp [heq]
    · rename_i hne
      simp [hne]
  exact
    { h with
      global := by
        intro g' hg'
        cases hg.symm.trans hg'
        simp only [hpools, Function.update_of_ne hroot]
        exact h.global g hg
      pools := by
        intro q r hq
        simp only [hpools, Function.update_apply] at hq
        split at hq
        · cases hq
        · exact h.pools q r hq
      mutexes := by
        intro m' r hr'
        obtain ⟨hr', hne⟩ := (hregion m' r).mp hr'
        rcases h.mutexes m' r hr' with hg' | ⟨l', w, hw, hm'⟩
        · exact .inl hg'
        · refine .inr ⟨l', w, hvalue.mpr ⟨hw, ?_⟩, hm'⟩
          rintro rfl
          cases hv.symm.trans hw
          exact hne (Option.some.inj (hm'.symm.trans hm))
      registered := by
        intro m'
        rw [h.registered m']
        constructor
        · rintro ⟨g', hg', hr'⟩
          cases hg.symm.trans hg'
          refine ⟨g, hg, (hregion m' g).mpr ⟨hr', ?_⟩⟩
          rintro rfl
          exact hroot (Option.some.inj (hr'.symm.trans hr))
        · rintro ⟨g', hg', hr'⟩
          exact ⟨g', hg', ((hregion m' g').mp hr').1⟩
      values := by
        intro l' w hw
        obtain ⟨hw, hne⟩ := hvalue.mp hw
        have hother : w.pool ≠ v.pool := fun heq => hne (h.unshared l' l w v hw hv heq)
        obtain ⟨m', g', hm', hr', hg', hlive⟩ := h.values l' w hw
        refine ⟨m', g', hm', (hregion m' _).mpr ⟨hr', ?_⟩, hg', ?_⟩
        · rintro rfl
          exact hother (Option.some.inj (hr'.symm.trans hr))
        · simp only [hpools, Function.update_of_ne hother]
          exact hlive
      unshared := by
        intro l' l'' w w' hw hw'
        exact h.unshared l' l'' w w' (hvalue.mp hw).1 (hvalue.mp hw').1
      subpools := by
        intro hterminating q g' hq
        simp only [hpools, Function.update_apply] at hq
        split at hq
        · cases hq
        · rename_i hne
          obtain ⟨l', w, hw, rfl⟩ := h.subpools hterminating q g' hq
          refine ⟨l', w, hvalue.mpr ⟨hw, ?_⟩, rfl⟩
          rintro rfl
          cases hv.symm.trans hw
          exact hne rfl }

/-- The end of a pool in which no lock has its mutex. -/
theorem aprPoolDestroy_ok {name : Lock → Option Nat} {held : List (Lock × Nat)} {q : Option Nat}
    (h : Implements s.mutexes name held) (hpool : s.pools.peek p = some q)
    (hname : ∀ k i c, name k = some i → s.mutexes.peek i = some c → c.region ≠ p) :
    ∃ pools mutexes, s.aprPoolDestroy p = .ok { s with
        pools, mutexes, values := s.values.releaseWhere (·.pool = p) } ∧
      pools.peek = Function.update s.pools.peek p none ∧
      (∀ i, mutexes.peek i = (s.mutexes.peek i).filter fun c => !decide (c.region = p)) ∧
      Implements mutexes name held := by
  obtain ⟨pools, hpools, hpeek⟩ := Arena.release_of_peek hpool
  obtain ⟨mutexes, hmutexes, hregions, himplements⟩ := h.destroyWhere (· = p)
    fun k i c hk hc => decide_eq_false (hname k i c hk hc)
  exact ⟨pools, mutexes, by simp only [State.aprPoolDestroy, hpools, hmutexes], hpeek, hregions,
    himplements⟩

/-- A lock is made, or nothing is left of the attempt but a pool. -/
theorem Inv.dynCreate (h : Inv x) {file : String} {line : Int} {calls : CreateCalls}
    (hcreate : x.state.dynlockCreateCallback = true)
    (hobeys : Obeys x (.dynCreate file line calls)) :
    ∃ l s', sslDynCreateFunction x.state file line calls = .ok (l, s') ∧
      Inv (x.note (.dynCreate file line calls) (.value l) s') := by
  have hl := h.layout
  obtain ⟨g, hg, hparent⟩ := hl.parent_pool hcreate
  obtain ⟨poolCreate, palloc, pstrdup, mutexCreate⟩ := calls
  cases poolCreate with
  | false => exact ⟨none, x.state, rfl, h⟩
  | true =>
  cases palloc with
  | false =>
    have hphase : x.state.phase ≠ .terminating := fun hphase => nomatch hobeys hphase rfl
    refine ⟨none, _, rfl, h.of_layout (hl.addPool hg hparent hphase) h.implements ?_ rfl ?_⟩
    · exact fun k _ _ _ hm => by cases k <;> exact hm
    · exact h.none_left
  | true =>
  cases mutexCreate with
  | false =>
    -- The pool is destroyed again, with the value in it.
    have hregion : ∀ i c, x.state.mutexes.peek i = some c → c.region ≠ x.state.pools.length :=
      fun i c hc => hl.region_ne_length (regionOf_eq_some.mpr ⟨c, hc, rfl⟩)
    obtain ⟨pools, mutexes, hok, hpools, hmutexes, himplements⟩ :=
      aprPoolDestroy_ok (s := { x.state with
        pools := x.state.pools.alloc x.state.dynlockpool
        values := x.state.values.alloc
          ⟨x.state.pools.length, if pstrdup then some file else none, line, none⟩ })
        (p := x.state.pools.length) (q := x.state.dynlockpool) h.implements
        (by rw [Arena.peek_alloc, Function.update_self]) (fun _ i c _ hc => hregion i c hc)
    refine ⟨none, _, by
      simp only [sslDynCreateFunction, Bool.not_true, Bool.not_false, Bool.false_eq_true, if_false,
        if_true, hok]
      rfl, ?_⟩
    have hpools : pools.peek = x.state.pools.peek := by
      rw [hpools, Arena.peek_alloc, Function.update_idem]
      exact Function.update_eq_self_iff.mpr (Arena.peek_length _).symm
    have hmutexes : mutexes.peek = x.state.mutexes.peek := by
      funext i
      rw [hmutexes]
      exact Arena.filter_kept fun c hc => by simp [hregion i c hc]
    have hvalues : Arena.peek (Arena.releaseWhere (·.pool = x.state.pools.length)
        (x.state.values.alloc
          ⟨x.state.pools.length, if pstrdup then some file else none, line, none⟩)) =
        x.state.values.peek := by
      funext l
      rw [Arena.peek_releaseWhere, Arena.peek_alloc, Function.update_apply]
      split
      · rename_i heq
        simp [heq]
      · exact Arena.filter_kept fun v hv => by simp [hl.pool_ne_length hv]
    refine h.of_layout (hl.congr hpools hmutexes hvalues) himplements ?_ hvalues h.none_left
    intro k t m _ hm
    cases k with
    | static type => exact hm
    | dyn l =>
      obtain ⟨v, hv, hm⟩ := Locks.name_dyn.mp hm
      exact Locks.name_dyn.mpr ⟨v, (congrFun hvalues l).trans hv, hm⟩
  | true =>
    refine ⟨some x.state.values.length, _, rfl, ?_⟩
    have hvalues : Arena.peek (Arena.update (x.state.values.alloc
          ⟨x.state.pools.length, if pstrdup then some file else none, line, none⟩)
        x.state.values.length fun v => { v with mutex := some x.state.mutexes.length }) =
        Function.update x.state.values.peek x.state.values.length
          (some ⟨x.state.pools.length, if pstrdup then some file else none, line,
            some x.state.mutexes.length⟩) := by
      rw [Arena.peek_update, Arena.peek_alloc, Function.update_self, Function.update_idem]
      rfl
    refine inv_of_layout (hl.addValue hg hparent rfl rfl hvalues) (h.implements.create _) ?_ ?_ ?_
    · intro k t ht
      cases k with
      | static type => rfl
      | dyn l =>
        obtain ⟨m, hm⟩ := h.name_of_held ht
        obtain ⟨v, hv, -⟩ := Locks.name_dyn.mp hm
        simp only [State.name]
        rw [hvalues, Function.update_of_ne]
        rintro rfl
        simp at hv
    · intro l
      simp only [hvalues, Function.update_apply, List.mem_cons, h.dyns_iff]
      split
      · rename_i heq
        simp [heq]
      · rename_i hne
        simp [hne]
    · intro hphase hlocking
      have hsettled := hl.settled fun next hnext => by cases hphase.symm.trans hnext
      cases (hcreate.symm.trans hsettled.1).trans hlocking

/-- A lock that nobody holds is destroyed, with its pool. -/
theorem Inv.dynDestroy (h : Inv x) (hdyn : l ∈ x.dyns) (hfree : x.Free (.dyn l)) :
    ∃ s', sslDynDestroyFunction x.state l = .ok s' ∧ Inv (x.note (.dynDestroy l) .done s') := by
  have hl := h.layout
  obtain ⟨m, hname⟩ := h.name_dyn hdyn
  obtain ⟨v, hv, hm, hvalue⟩ := State.valueAt_of_name hname
  obtain ⟨m', g, hm', hregion, hg, hpool⟩ := hl.values l v hv
  cases hm.symm.trans hm'
  obtain ⟨c, hc, hcpool⟩ := regionOf_eq_some.mp hregion
  -- Nobody knows the lock by its name any more.
  obtain ⟨mutexes₁, hok₁, hpeek₁, himplements⟩ :=
    (h.implements.restrict (· ≠ .dyn l) hfree).destroy hc (by
      intro k hk
      obtain ⟨hne, hk⟩ := Option.ite_none_right_eq_some.mp hk
      exact hne (hl.name_unshared hk hname))
  -- No other mutex is in the pool.
  have halone : ∀ i r, x.state.mutexes.regionOf i = some r → i ≠ m → r ≠ v.pool := by
    rintro i r hr hne rfl
    rcases hl.mutexes i _ hr with hg' | ⟨l', v', hv', hi⟩
    · cases (hl.global _ hg').symm.trans hpool
    · obtain ⟨i', -, hi', hr', -⟩ := hl.values l' v' hv'
      cases hi.symm.trans hi'
      cases hl.unshared l l' v v' hv hv' (Option.some.inj (hr.symm.trans hr'))
      cases hv.symm.trans hv'
      exact hne (Option.some.inj (hi.symm.trans hm))
  have hother : ∀ i c', mutexes₁.peek i = some c' →
      x.state.mutexes.peek i = some c' ∧ i ≠ m := by
    intro i c' hc'
    rw [hpeek₁, Function.update_apply] at hc'
    split at hc'
    · cases hc'
    · rename_i hne
      exact ⟨hc', hne⟩
  obtain ⟨pools, mutexes, hok, hpools, hmutexes, himplements⟩ :=
    aprPoolDestroy_ok (s := { x.state with mutexes := mutexes₁ }) himplements hpool (by
      intro k i c' _ hc'
      obtain ⟨hc', hne⟩ := hother i c' hc'
      exact halone i _ (regionOf_eq_some.mpr ⟨c', hc', rfl⟩) hne)
  have hvalues : Arena.peek (x.state.values.releaseWhere (·.pool = v.pool)) =
      Function.update x.state.values.peek l none := by
    funext l'
    rw [Arena.peek_releaseWhere, Function.update_apply]
    split
    · rename_i heq
      simp [heq, hv]
    · rename_i hne
      refine Arena.filter_kept fun v' hv' => ?_
      simp only [Bool.not_eq_true', decide_eq_false_iff_not]
      exact fun heq => hne (hl.unshared l' l v' v hv' hv heq)
  have hregions : ∀ i r, Store.regionOf mutexes i = some r ↔
      x.state.mutexes.regionOf i = some r ∧ i ≠ m := by
    intro i r
    constructor
    · intro hr
      obtain ⟨c', hc', rfl⟩ := regionOf_eq_some.mp hr
      rw [hmutexes, Option.filter_eq_some_iff] at hc'
      obtain ⟨hc', hne⟩ := hother i c' hc'.1
      exact ⟨regionOf_eq_some.mpr ⟨c', hc', rfl⟩, hne⟩
    · rintro ⟨hr, hne⟩
      have haway := halone i r hr hne
      obtain ⟨c', hc', rfl⟩ := regionOf_eq_some.mp hr
      refine regionOf_eq_some.mpr ⟨c', ?_, rfl⟩
      rw [hmutexes, Option.filter_eq_some_iff]
      refine ⟨?_, by simp [haway]⟩
      change Arena.peek mutexes₁ i = some c'
      rw [hpeek₁, Function.update_of_ne hne, hc']
  refine ⟨_, by simp only [sslDynDestroyFunction, hvalue, hok₁, hok]; rfl, ?_⟩
  refine inv_of_layout (hl.removeValue hv hm hpools hregions hvalues) himplements ?_ ?_ ?_
  · intro k t ht
    rw [if_pos (hfree _ ht)]
    cases k with
    | static type => rfl
    | dyn l' =>
      simp only [State.name, hvalues]
      rw [Function.update_of_ne]
      rintro rfl
      exact hfree _ ht rfl
  · intro l'
    simp only [hvalues, Function.update_apply, List.mem_filter, h.dyns_iff]
    split
    · rename_i heq
      simp [heq]
    · rename_i hne
      simp [hne]
  · intro hphase hlocking
    have hnone := h.none_left hphase hlocking
    rw [hnone] at hdyn
    cases hdyn

end

end Locks
