-- SUMMARY: Heaps of reference counted objects.
import Tcnative.Base.Memory

/-!
# Reference counts

An object lives as long as it has references. Reading it, or taking or giving up a
reference, is a fault once the last one is gone.
-/

/-- An object and the number of references to it. Without any it is freed. -/
structure RefHeap.Obj (α : Type) where
  value : α
  refs : Nat

/-- All the objects ever created, in order. -/
abbrev RefHeap (α : Type) := List (RefHeap.Obj α)

namespace RefHeap
open CMem

variable {α : Type}

/-- The references to an object. There are none to one that was not created. -/
def count (h : RefHeap α) (i : Nat) : Nat := (h[i]?.map Obj.refs).getD 0

/-- A new object, with one reference. Its position is the length before. -/
def new (h : RefHeap α) (v : α) : RefHeap α := h ++ [⟨v, 1⟩]

/-- Read an object. -/
def get (h : RefHeap α) (i : Nat) : Except Fault α :=
  match h[i]? with
  | some ⟨v, _ + 1⟩ => .ok v
  | _ => .error .useAfterFree

/-- Take one more reference. -/
def upRef (h : RefHeap α) (i : Nat) : Except Fault (RefHeap α) :=
  match h[i]? with
  | some ⟨v, n + 1⟩ => .ok (h.set i ⟨v, n + 2⟩)
  | _ => .error .useAfterFree

/-- Give up a reference. The last one frees the object. -/
def free (h : RefHeap α) (i : Nat) : Except Fault (RefHeap α) :=
  match h[i]? with
  | some ⟨v, n + 1⟩ => .ok (h.set i ⟨v, n⟩)
  | _ => .error .useAfterFree

/-- Give up the reference behind a pointer that may be null. -/
def freeOpt (h : RefHeap α) : Option Nat → Except Fault (RefHeap α)
  | none => .ok h
  | some i => h.free i

/-- Give up several references. -/
def freeAll (h : RefHeap α) : List Nat → Except Fault (RefHeap α)
  | [] => .ok h
  | i :: is =>
    match h.free i with
    | .error f => .error f
    | .ok h => freeAll h is

/-- Change the value of an object. -/
def update (h : RefHeap α) (i : Nat) (f : α → α) : RefHeap α :=
  h.modify i fun o => { o with value := f o.value }

variable {h h' : RefHeap α} {i : Nat}

/-! ## What the operations do to the counts -/

theorem count_of_le (hi : h.length ≤ i) : h.count i = 0 := by
  simp [count, List.getElem?_eq_none hi]

theorem count_set (hi : i < h.length) (o : Obj α) (j : Nat) :
    RefHeap.count (h.set i o) j = if j = i then o.refs else h.count j := by
  rcases eq_or_ne j i with rfl | hne
  · simp [count, hi]
  · simp [count, List.getElem?_set_ne hne.symm, hne]

theorem count_new (h : RefHeap α) (v : α) (j : Nat) :
    (h.new v).count j = h.count j + if j = h.length then 1 else 0 := by
  rcases Nat.lt_trichotomy j h.length with hlt | rfl | hgt
  · simp [count, new, List.getElem?_append_left hlt, Nat.ne_of_lt hlt]
  · simp [count, new]
  · rw [count_of_le (h := h) (Nat.le_of_lt hgt), if_neg (Nat.ne_of_gt hgt)]
    exact count_of_le (by simp only [new, List.length_append, List.length_singleton]; omega)

/-- A referenced object is there. -/
theorem getElem?_of_count_pos (hpos : 0 < h.count i) : ∃ v n, h[i]? = some ⟨v, n + 1⟩ := by
  cases hget : h[i]? with
  | none => simp [count, hget] at hpos
  | some o =>
    obtain ⟨v, n⟩ := o
    cases n with
    | zero => simp [count, hget] at hpos
    | succ n => exact ⟨v, n, rfl⟩

theorem count_eq_of_getElem? {v : α} {n : Nat} (hget : h[i]? = some ⟨v, n⟩) : h.count i = n := by
  simp [count, hget]

theorem upRef_inv (hok : h.upRef i = .ok h') :
    0 < h.count i ∧ ∀ j, h'.count j = h.count j + if j = i then 1 else 0 := by
  unfold upRef at hok
  split at hok
  · rename_i v n hget
    cases hok
    have hcount := count_eq_of_getElem? hget
    refine ⟨by omega, fun j => ?_⟩
    rw [count_set (List.getElem?_eq_some_iff.mp hget).1]
    split
    · rename_i heq
      rw [heq, hcount]
    · rfl
  · cases hok

theorem free_inv (hok : h.free i = .ok h') :
    0 < h.count i ∧ ∀ j, h'.count j + (if j = i then 1 else 0) = h.count j := by
  unfold free at hok
  split at hok
  · rename_i v n hget
    cases hok
    have hcount := count_eq_of_getElem? hget
    refine ⟨by omega, fun j => ?_⟩
    rw [count_set (List.getElem?_eq_some_iff.mp hget).1]
    split
    · rename_i heq
      rw [heq, hcount]
    · rfl
  · cases hok

theorem upRef_ok (hpos : 0 < h.count i) : ∃ h', h.upRef i = .ok h' := by
  obtain ⟨v, n, hget⟩ := getElem?_of_count_pos hpos
  exact ⟨h.set i ⟨v, n + 2⟩, by simp only [upRef, hget]⟩

theorem free_ok (hpos : 0 < h.count i) : ∃ h', h.free i = .ok h' := by
  obtain ⟨v, n, hget⟩ := getElem?_of_count_pos hpos
  exact ⟨h.set i ⟨v, n⟩, by simp only [free, hget]⟩

theorem get_ok (hpos : 0 < h.count i) : ∃ v, h.get i = .ok v := by
  obtain ⟨v, n, hget⟩ := getElem?_of_count_pos hpos
  exact ⟨v, by simp only [get, hget]⟩

/-- The references that a pointer gives up. -/
theorem freeOpt_inv {p : Option Nat} (hok : h.freeOpt p = .ok h') :
    ∀ j, h'.count j + p.toList.count j = h.count j := by
  cases p with
  | none =>
    cases hok
    simp
  | some i =>
    intro j
    have hcount := (free_inv hok).2 j
    simp only [Option.toList_some, List.count_singleton, beq_iff_eq, eq_comm (a := i)]
    exact hcount

theorem freeOpt_ok {p : Option Nat} (hpos : ∀ i ∈ p, 0 < h.count i) :
    ∃ h', h.freeOpt p = .ok h' := by
  cases p with
  | none => exact ⟨h, rfl⟩
  | some i => exact free_ok (hpos i rfl)

theorem freeAll_inv {is : List Nat} (hok : h.freeAll is = .ok h') :
    ∀ j, h'.count j + is.count j = h.count j := by
  induction is generalizing h with
  | nil =>
    cases hok
    simp
  | cons i is ih =>
    simp only [freeAll] at hok
    split at hok
    · cases hok
    · rename_i h₁ hfree
      intro j
      have hone := (free_inv hfree).2 j
      have hrest := ih hok j
      rw [List.count_cons]
      grind

theorem freeAll_ok {is : List Nat} (hle : ∀ j, is.count j ≤ h.count j) :
    ∃ h', h.freeAll is = .ok h' := by
  induction is generalizing h with
  | nil => exact ⟨h, rfl⟩
  | cons i is ih =>
    have hhead := hle i
    rw [List.count_cons_self] at hhead
    obtain ⟨h₁, hfree⟩ := free_ok (h := h) (i := i) (by omega)
    obtain ⟨h', hrest⟩ := ih (h := h₁) fun j => by
      have hone := (free_inv hfree).2 j
      have hall := hle j
      rw [List.count_cons] at hall
      grind
    exact ⟨h', by simp only [freeAll, hfree, hrest]⟩

@[simp] theorem count_update (h : RefHeap α) (i : Nat) (f : α → α) (j : Nat) :
    (h.update i f).count j = h.count j := by
  simp only [count, update, List.getElem?_modify, Option.map_eq_map, Option.map_map]
  congr 2
  funext o
  simp only [Function.comp_apply]
  split <;> rfl

/-! ## Positions -/

theorem length_upRef (hok : h.upRef i = .ok h') : h'.length = h.length := by
  unfold upRef at hok
  split at hok
  · cases hok
    exact List.length_set
  · cases hok

theorem length_free (hok : h.free i = .ok h') : h'.length = h.length := by
  unfold free at hok
  split at hok
  · cases hok
    exact List.length_set
  · cases hok

theorem get_inv {v : α} (hok : h.get i = .ok v) : 0 < h.count i := by
  unfold get at hok
  split at hok
  · rename_i w n hget
    have hcount := count_eq_of_getElem? hget
    omega
  · cases hok

end RefHeap
