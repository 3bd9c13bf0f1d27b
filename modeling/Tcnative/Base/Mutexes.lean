-- SUMMARY: Mutexes that live in regions: who owns one, who has to wait for it, and what destroys it.
import Mathlib.Logic.Function.Basic
import Tcnative.Base.Arena

/-!
# Mutexes

A mutex belongs to a region and is owned by at most one thread. To lock a mutex of
another thread is to wait. Every use of a mutex that was destroyed is a fault, and so
are locking a mutex twice, unlocking one of another thread, and destroying one that
is locked.
-/

namespace Arena
variable {α : Type}

/-- The cell, if it is not released. -/
def peek (a : Arena α) (i : Nat) : Option α :=
  match a[i]? with
  | some ⟨v, false⟩ => some v
  | _ => none

/-- Release all the cells with a property. -/
def releaseWhere (p : α → Bool) (a : Arena α) : Arena α :=
  a.map fun c => { c with released := c.released || p c.value }

variable {a : Arena α} {i : Nat} {v : α}

theorem peek_eq_some : a.peek i = some v ↔ Live a i v := by
  unfold peek Live
  split
  · rename_i w hget
    simp [hget]
  · rename_i hget
    constructor
    · intro h
      cases h
    · intro h
      exact absurd h (hget v)

@[simp] theorem peek_nil (i : Nat) : peek ([] : Arena α) i = none := rfl

theorem peek_eq_none_of_length_le (h : a.length ≤ i) : a.peek i = none := by
  simp only [peek, List.getElem?_eq_none h]

@[simp] theorem peek_length (a : Arena α) : a.peek a.length = none :=
  peek_eq_none_of_length_le (Nat.le_refl _)

theorem peek_alloc (a : Arena α) (v : α) :
    (a.alloc v).peek = Function.update a.peek a.length (some v) := by
  funext j
  apply Option.ext
  intro w
  rw [peek_eq_some, live_iff_alloc, ← peek_eq_some]
  rcases eq_or_ne j a.length with rfl | hne
  · simp [eq_comm]
  · simp [hne]

theorem peek_alloc_of_peek (h : a.peek i = some v) (w : α) : (a.alloc w).peek i = some v :=
  peek_eq_some.mpr ((peek_eq_some.mp h).alloc w)

theorem peek_update (a : Arena α) (i : Nat) (f : α → α) :
    (a.update i f).peek = Function.update a.peek i ((a.peek i).map f) := by
  funext j
  rcases eq_or_ne j i with rfl | hne
  · rw [Function.update_self]
    simp only [peek, update, List.getElem?_modify_eq]
    cases a[j]? with
    | none => rfl
    | some c =>
      obtain ⟨v, released⟩ := c
      cases released <;> rfl
  · rw [Function.update_of_ne hne]
    simp [peek, update, hne.symm]

theorem peek_set_released (h : a.peek i = some v) :
    peek (a.set i ⟨v, true⟩) = Function.update a.peek i none := by
  funext j
  apply Option.ext
  intro w
  rw [peek_eq_some, live_iff_set (peek_eq_some.mp h), ← peek_eq_some]
  rcases eq_or_ne j i with rfl | hne
  · simp
  · simp [hne]

theorem release_of_peek (h : a.peek i = some v) :
    ∃ a', a.release i = .ok a' ∧ a'.peek = Function.update a.peek i none :=
  ⟨_, (peek_eq_some.mp h).release_eq, peek_set_released h⟩

theorem filter_kept {o : Option α} {p : α → Bool} (h : ∀ v, o = some v → p v = true) :
    o.filter p = o := by
  cases o with
  | none => rfl
  | some v => rw [Option.filter_some, if_pos (h v rfl)]

theorem peek_releaseWhere (p : α → Bool) (a : Arena α) (i : Nat) :
    (a.releaseWhere p).peek i = (a.peek i).filter (!p ·) := by
  simp only [peek, releaseWhere, List.getElem?_map]
  cases a[i]? with
  | none => rfl
  | some c =>
    obtain ⟨v, released⟩ := c
    cases released with
    | true => rfl
    | false => cases h : p v <;> simp [h, Option.filter]

end Arena

/-- A mutex and the thread that has locked it. -/
structure Mutex (ρ τ : Type) where
  region : ρ
  owner : Option τ
  deriving DecidableEq

namespace Mutex

inductive Fault where
  | destroyed
  | relock
  | notOwner
  | busy
  deriving DecidableEq, Repr

variable {ρ τ : Type}

/-- All the mutexes ever made. -/
abbrev Store (ρ τ : Type) := Arena (Mutex ρ τ)

/-- Somebody has locked the mutex. -/
def isLocked (m : Mutex ρ τ) : Bool := m.owner.isSome

/-! ## Operations -/

/-- A new mutex. -/
def Store.create (s : Store ρ τ) (region : ρ) : Store ρ τ := s.alloc ⟨region, none⟩

def Store.setOwner (s : Store ρ τ) (i : Nat) (owner : Option τ) : Store ρ τ :=
  s.update i fun m => { m with owner }

/-- Lock a mutex, or find out that another thread has it. -/
def Store.lock [DecidableEq τ] (s : Store ρ τ) (i : Nat) (t : τ) :
    Except Fault (Bool × Store ρ τ) :=
  match s.peek i with
  | none => .error .destroyed
  | some m =>
    match m.owner with
    | none => .ok (true, s.setOwner i (some t))
    | some u => if u = t then .error .relock else .ok (false, s)

def Store.unlock [DecidableEq τ] (s : Store ρ τ) (i : Nat) (t : τ) : Except Fault (Store ρ τ) :=
  match s.peek i with
  | none => .error .destroyed
  | some m => if m.owner = some t then .ok (s.setOwner i none) else .error .notOwner

def Store.destroy (s : Store ρ τ) (i : Nat) : Except Fault (Store ρ τ) :=
  match s.peek i with
  | none => .error .destroyed
  | some m => if m.isLocked then .error .busy else .ok (s.set i ⟨m, true⟩)

/-- Destroy all the mutexes of some regions. -/
def Store.destroyWhere (s : Store ρ τ) (p : ρ → Bool) : Except Fault (Store ρ τ) :=
  if s.any fun c => !c.released && p c.value.region && c.value.isLocked then .error .busy
  else .ok (s.releaseWhere (p ·.region))

/-! ## What they do -/

/-- The region of a mutex that was not destroyed. -/
def Store.regionOf (s : Store ρ τ) (i : Nat) : Option ρ := (s.peek i).map (·.region)

variable {s s' : Store ρ τ} {i j : Nat} {t u : τ} {m : Mutex ρ τ}

theorem peek_setOwner (h : s.peek i = some m) (owner : Option τ) :
    (s.setOwner i owner).peek = Function.update s.peek i (some { m with owner }) := by
  rw [Store.setOwner, Arena.peek_update, h]
  rfl

theorem regionOf_setOwner (h : s.peek i = some m) (owner : Option τ) :
    (s.setOwner i owner).regionOf = s.regionOf := by
  funext j
  simp only [Store.regionOf, peek_setOwner h]
  rcases eq_or_ne j i with rfl | hne
  · simp [h]
  · simp [hne]

theorem regionOf_create (s : Store ρ τ) (r : ρ) :
    (s.create r).regionOf = Function.update s.regionOf s.length (some r) := by
  funext j
  simp only [Store.regionOf, Store.create, Arena.peek_alloc]
  rcases eq_or_ne j s.length with rfl | hne
  · simp
  · simp [hne, Store.regionOf]

theorem regionOf_eq_some {r : ρ} : s.regionOf i = some r ↔ ∃ m, s.peek i = some m ∧ m.region = r :=
  Option.map_eq_some_iff

theorem destroy_free (h : s.peek i = some m) (hfree : m.owner = none) :
    ∃ s', s.destroy i = .ok s' ∧ s'.peek = Function.update s.peek i none := by
  refine ⟨s.set i ⟨m, true⟩, ?_, Arena.peek_set_released h⟩
  simp only [Store.destroy, h, isLocked, hfree]
  rfl

theorem destroyWhere_free (p : ρ → Bool)
    (hfree : ∀ i m, s.peek i = some m → p m.region = true → m.owner = none) :
    ∃ s', s.destroyWhere p = .ok s' ∧ ∀ i, s'.peek i = (s.peek i).filter (!p ·.region) := by
  refine ⟨s.releaseWhere (p ·.region), if_neg ?_, Arena.peek_releaseWhere _ s⟩
  intro hany
  obtain ⟨c, hc, hcond⟩ := List.any_eq_true.mp hany
  obtain ⟨i, hi⟩ := List.getElem?_of_mem hc
  simp only [Bool.and_eq_true, Bool.not_eq_true'] at hcond
  obtain ⟨⟨hlive, hregion⟩, hlocked⟩ := hcond
  obtain ⟨m, released⟩ := c
  cases hlive
  rw [isLocked, hfree i m (Arena.peek_eq_some.mpr hi) hregion] at hlocked
  cases hlocked

/-! ## Locks by name

A lock is a name for a mutex. Threads know locks by their names, and hear when they
have got one. -/

/-- The mutexes implement the named locks: no mutex has two names, one that is locked has
a name, and `held` are the threads that have locked something. -/
structure Implements {κ : Type} (s : Store ρ τ) (name : κ → Option Nat) (held : List (κ × τ)) :
    Prop where
  live : ∀ k i, name k = some i → ∃ m, s.peek i = some m
  unshared : ∀ k k' i, name k = some i → name k' = some i → k = k'
  owned : ∀ i m t, s.peek i = some m → m.owner = some t → ∃ k, name k = some i
  held_iff : ∀ k t, (k, t) ∈ held ↔ ∃ i m, name k = some i ∧ s.peek i = some m ∧ m.owner = some t

section
variable {κ : Type} {name name' : κ → Option Nat} {held : List (κ × τ)} {k : κ}

theorem implements_nil : Implements ([] : Store ρ τ) (fun _ : κ => none) [] where
  live _ _ h := by cases h
  unshared _ _ _ h := by cases h
  owned _ _ _ h := by cases h
  held_iff k t := by simp

/-- A lock has one holder. -/
theorem Implements.exclusive (h : Implements s name held) (ht : (k, t) ∈ held)
    (hu : (k, u) ∈ held) : t = u := by
  obtain ⟨i, m, hname, hm, howner⟩ := (h.held_iff k t).mp ht
  obtain ⟨j, m', hname', hm', howner'⟩ := (h.held_iff k u).mp hu
  cases hname.symm.trans hname'
  cases hm.symm.trans hm'
  exact Option.some.inj (howner.symm.trans howner')

/-- A mutex without a name is not locked. -/
theorem Implements.free (h : Implements s name held) (hm : s.peek i = some m)
    (hname : ∀ k, name k ≠ some i) : m.owner = none := by
  cases howner : m.owner with
  | none => rfl
  | some t =>
    obtain ⟨k, hk⟩ := h.owned i m t hm howner
    exact absurd hk (hname k)

/-- The owner of the mutex of a lock is who holds the lock. -/
theorem Implements.owner_iff (h : Implements s name held) (hname : name k = some i)
    (hm : s.peek i = some m) : m.owner = some t ↔ (k, t) ∈ held := by
  rw [h.held_iff]
  constructor
  · intro howner
    exact ⟨i, m, hname, hm, howner⟩
  · rintro ⟨j, m', hj, hm', howner⟩
    cases hname.symm.trans hj
    cases hm.symm.trans hm'
    exact howner

/-- Locks may be added, and those may change or go that nobody holds. -/
theorem Implements.rename (h : Implements s name held)
    (hlive : ∀ k i, name' k = some i → ∃ m, s.peek i = some m)
    (hunshared : ∀ k k' i, name' k = some i → name' k' = some i → k = k')
    (hheld : ∀ k t, (k, t) ∈ held → name' k = name k) : Implements s name' held where
  live := hlive
  unshared := hunshared
  owned i m t hm howner := by
    obtain ⟨k, hk⟩ := h.owned i m t hm howner
    exact ⟨k, (hheld k t ((h.owner_iff hk hm).mp howner)).trans hk⟩
  held_iff k t := by
    rw [h.held_iff]
    constructor
    · rintro ⟨i, m, hk, hm, howner⟩
      exact ⟨i, m, (hheld k t ((h.owner_iff hk hm).mp howner)).trans hk, hm, howner⟩
    · rintro ⟨i, m, hk, hm, howner⟩
      obtain ⟨k', hk'⟩ := h.owned i m t hm howner
      have hsame := hheld k' t ((h.owner_iff hk' hm).mp howner)
      cases hunshared k k' i hk (hsame.trans hk')
      exact ⟨i, m, hk', hm, howner⟩

/-- Locks that nobody holds may lose their names. -/
theorem Implements.restrict (h : Implements s name held) (p : κ → Prop) [DecidablePred p]
    (hheld : ∀ y ∈ held, p y.1) : Implements s (fun k => if p k then name k else none) held := by
  refine h.rename ?_ ?_ fun k t ht => if_pos (hheld _ ht)
  · intro k i hk
    exact h.live k i (Option.ite_none_right_eq_some.mp hk).2
  · intro k k' i hk hk'
    exact h.unshared k k' i (Option.ite_none_right_eq_some.mp hk).2
      (Option.ite_none_right_eq_some.mp hk').2

/-- Other mutexes come and go without a name. -/
theorem Implements.frame (h : Implements s name held)
    (hnamed : ∀ k i, name k = some i → s'.peek i = s.peek i)
    (hfree : ∀ i m, s'.peek i = some m → (∀ k, name k ≠ some i) → m.owner = none) :
    Implements s' name held where
  live k i hk := by
    rw [hnamed k i hk]
    exact h.live k i hk
  unshared := h.unshared
  owned i m t hm howner := by
    by_contra hnone
    rw [hfree i m hm fun k hk => hnone ⟨k, hk⟩] at howner
    cases howner
  held_iff k t := by
    rw [h.held_iff]
    constructor
    · rintro ⟨i, m, hk, hm, howner⟩
      exact ⟨i, m, hk, (hnamed k i hk).trans hm, howner⟩
    · rintro ⟨i, m, hk, hm, howner⟩
      exact ⟨i, m, hk, (hnamed k i hk).symm.trans hm, howner⟩

theorem Implements.create (h : Implements s name held) (r : ρ) :
    Implements (s.create r) name held := by
  have hpeek : ∀ i, (s.create r).peek i = if i = s.length then some ⟨r, none⟩ else s.peek i := by
    intro i
    rw [Store.create, Arena.peek_alloc, Function.update_apply]
  refine h.frame ?_ ?_
  · intro k i hk
    obtain ⟨m, hm⟩ := h.live k i hk
    rw [hpeek, if_neg (Nat.ne_of_lt (Arena.peek_eq_some.mp hm).lt)]
  · intro i m hm hname
    rw [hpeek] at hm
    split at hm
    · cases hm
      rfl
    · exact h.free hm hname

/-- A mutex without a name can be destroyed. -/
theorem Implements.destroy (h : Implements s name held) (hm : s.peek i = some m)
    (hname : ∀ k, name k ≠ some i) :
    ∃ s', s.destroy i = .ok s' ∧ s'.peek = Function.update s.peek i none ∧
      Implements s' name held := by
  obtain ⟨s', hok, hpeek⟩ := destroy_free hm (h.free hm hname)
  refine ⟨s', hok, hpeek, h.frame ?_ ?_⟩
  · intro k j hk
    rw [hpeek, Function.update_of_ne]
    rintro rfl
    exact hname k hk
  · intro j m' hm' hj
    rw [hpeek, Function.update_apply] at hm'
    split at hm'
    · cases hm'
    · exact h.free hm' hj

/-- Regions can go that have no mutex with a name. -/
theorem Implements.destroyWhere (h : Implements s name held) (p : ρ → Bool)
    (hname : ∀ k i m, name k = some i → s.peek i = some m → p m.region = false) :
    ∃ s', s.destroyWhere p = .ok s' ∧ (∀ i, s'.peek i = (s.peek i).filter (!p ·.region)) ∧
      Implements s' name held := by
  have hfree : ∀ i m, s.peek i = some m → p m.region = true → m.owner = none := by
    intro i m hm hp
    apply h.free hm
    intro k hk
    rw [hname k i m hk hm] at hp
    cases hp
  obtain ⟨s', hok, hpeek⟩ := destroyWhere_free p hfree
  refine ⟨s', hok, hpeek, h.frame ?_ ?_⟩
  · intro k i hk
    obtain ⟨m, hm⟩ := h.live k i hk
    rw [hpeek, hm, Option.filter_some, hname k i m hk hm]
    rfl
  · intro i m hm hi
    rw [hpeek] at hm
    exact h.free (Option.filter_eq_some_iff.mp hm).1 hi

variable [DecidableEq τ]

/-- A thread gets a lock that nobody holds. -/
theorem Implements.acquire (h : Implements s name held) (hname : name k = some i)
    (hfree : ∀ u, (k, u) ∉ held) (t : τ) :
    ∃ s', s.lock i t = .ok (true, s') ∧ s'.regionOf = s.regionOf ∧
      Implements s' name ((k, t) :: held) := by
  obtain ⟨m, hm⟩ := h.live k i hname
  have howner : m.owner = none :=
    Option.eq_none_iff_forall_ne_some.mpr fun u hu => hfree u ((h.owner_iff hname hm).mp hu)
  have hpeek := peek_setOwner hm (some t)
  have hother : ∀ k' j, name k' = some j → k' ≠ k → j ≠ i := by
    rintro k' j hk' hne rfl
    exact hne (h.unshared k' k j hk' hname)
  refine ⟨s.setOwner i (some t), by simp only [Store.lock, hm, howner], regionOf_setOwner hm _, ?_,
    h.unshared, ?_, ?_⟩
  · intro k' j hk'
    rw [hpeek, Function.update_apply]
    split
    · exact ⟨_, rfl⟩
    · exact h.live k' j hk'
  · intro j m' u hm' hu
    rw [hpeek, Function.update_apply] at hm'
    split at hm'
    · rename_i hji
      exact ⟨k, hji ▸ hname⟩
    · exact h.owned j m' u hm' hu
  · intro k' u
    rw [List.mem_cons, Prod.mk.injEq]
    constructor
    · rintro (⟨rfl, rfl⟩ | hheld)
      · exact ⟨i, _, hname, by rw [hpeek, Function.update_self], rfl⟩
      · obtain ⟨j, m', hk', hm', hu⟩ := (h.held_iff k' u).mp hheld
        have hne : k' ≠ k := by
          rintro rfl
          exact hfree u hheld
        exact ⟨j, m', hk', by rw [hpeek, Function.update_of_ne (hother k' j hk' hne), hm'], hu⟩
    · rintro ⟨j, m', hk', hm', hu⟩
      rcases eq_or_ne k' k with rfl | hne
      · cases hk'.symm.trans hname
        rw [hpeek, Function.update_self] at hm'
        cases hm'
        exact .inl ⟨rfl, (Option.some.inj hu).symm⟩
      · rw [hpeek, Function.update_of_ne (hother k' j hk' hne)] at hm'
        exact .inr ((h.held_iff k' u).mpr ⟨j, m', hk', hm', hu⟩)

/-- A thread waits for a lock that another one holds. -/
theorem Implements.wait (h : Implements s name held) (hname : name k = some i)
    (hu : (k, u) ∈ held) (hne : u ≠ t) : s.lock i t = .ok (false, s) := by
  obtain ⟨m, hm⟩ := h.live k i hname
  have howner := (h.owner_iff hname hm).mpr hu
  simp only [Store.lock, hm, howner, if_neg hne]

/-- A thread gives back a lock that it holds. -/
theorem Implements.release [DecidableEq κ] (h : Implements s name held) (hname : name k = some i)
    (ht : (k, t) ∈ held) :
    ∃ s', s.unlock i t = .ok s' ∧ s'.regionOf = s.regionOf ∧
      Implements s' name (held.filter (· ≠ (k, t))) := by
  obtain ⟨m, hm⟩ := h.live k i hname
  have howner := (h.owner_iff hname hm).mpr ht
  have hpeek := peek_setOwner hm none
  have hother : ∀ k' j, name k' = some j → k' ≠ k → j ≠ i := by
    rintro k' j hk' hne rfl
    exact hne (h.unshared k' k j hk' hname)
  refine ⟨s.setOwner i none, by simp only [Store.unlock, hm, if_pos howner],
    regionOf_setOwner hm _, ?_, h.unshared, ?_, ?_⟩
  · intro k' j hk'
    rw [hpeek, Function.update_apply]
    split
    · exact ⟨_, rfl⟩
    · exact h.live k' j hk'
  · intro j m' u hm' hu
    rw [hpeek, Function.update_apply] at hm'
    split at hm'
    · cases hm'
      cases hu
    · exact h.owned j m' u hm' hu
  · intro k' u
    rw [List.mem_filter, decide_eq_true_eq, h.held_iff]
    constructor
    · rintro ⟨⟨j, m', hk', hm', hu⟩, hne⟩
      have hk : k' ≠ k := by
        rintro rfl
        cases hk'.symm.trans hname
        cases hm'.symm.trans hm
        cases howner.symm.trans hu
        exact hne rfl
      exact ⟨j, m', hk', by rw [hpeek, Function.update_of_ne (hother k' j hk' hk), hm'], hu⟩
    · rintro ⟨j, m', hk', hm', hu⟩
      rcases eq_or_ne k' k with rfl | hne
      · cases hk'.symm.trans hname
        rw [hpeek, Function.update_self] at hm'
        cases hm'
        cases hu
      · rw [hpeek, Function.update_of_ne (hother k' j hk' hne)] at hm'
        exact ⟨⟨j, m', hk', hm', hu⟩, fun heq => hne (Prod.mk.inj heq).1⟩

end

end Mutex
