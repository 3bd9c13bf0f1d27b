-- SUMMARY: The references that the live cells of an arena hold.
import Tcnative.Base.Arena
import Tcnative.Base.Custody

/-!
# Cells that hold references

A live cell of an arena has one reference, and may hold references to others. When
it is released, whoever released it has those in hand.
-/

namespace Arena
open CMem

variable {α κ : Type}

/-- The references to a cell: one while it is live. -/
def count (a : Arena α) (i : Nat) : Nat :=
  (a[i]?.map fun c => if c.released then 0 else 1).getD 0

/-- What a cell holds, if it is live. -/
def Cell.held (refs : α → List κ) (c : Cell α) : List κ :=
  if c.released then [] else refs c.value

/-- What the live cells hold. -/
def held (refs : α → List κ) (a : Arena α) : List κ := a.flatMap (Cell.held refs)

variable {a a' : Arena α} {i j : Nat} {v : α} {refs : α → List κ}

/-! ## Counts -/

theorem Live.count_eq (h : Live a i v) : a.count i = 1 := by
  simp [count, show a[i]? = _ from h]

theorem live_of_count_pos (h : 0 < a.count i) : ∃ v, Live a i v := by
  cases hget : a[i]? with
  | none => simp [count, hget] at h
  | some c =>
    obtain ⟨v, released⟩ := c
    cases released with
    | true => simp [count, hget] at h
    | false => exact ⟨v, hget⟩

theorem get_inv (h : a.get i = .ok v) : Live a i v := by
  unfold get at h
  split at h
  · rename_i w hget
    cases h
    exact hget
  · cases h

theorem count_set_of_ne (hne : j ≠ i) (c : Cell α) : Arena.count (a.set i c) j = a.count j := by
  simp only [count, List.getElem?_set_ne hne.symm]

theorem count_alloc (a : Arena α) (v : α) (j : Nat) :
    (a.alloc v).count j = a.count j + if j = a.length then 1 else 0 := by
  rcases eq_or_ne j a.length with rfl | hne
  · have hend : a.count a.length = 0 := by simp [count]
    rw [(live_alloc a v).count_eq, hend, if_pos rfl]
  · rw [if_neg hne, Nat.add_zero]
    rcases Nat.lt_or_gt_of_ne hne with hlt | hgt
    · simp only [count, alloc, List.getElem?_append_left hlt]
    · have hold : a[j]? = none := List.getElem?_eq_none (Nat.le_of_lt hgt)
      have hnew : (a.alloc v)[j]? = none := by
        apply List.getElem?_eq_none
        simp only [alloc, List.length_append, List.length_singleton]
        omega
      simp only [count, hold, hnew]

@[simp] theorem count_update (a : Arena α) (i : Nat) (f : α → α) (j : Nat) :
    (a.update i f).count j = a.count j := by
  simp only [count, update, List.getElem?_modify, Option.map_eq_map, Option.map_map]
  congr 2
  funext c
  simp only [Function.comp_apply]
  split <;> rfl

/-! ## What cells hold -/

theorem held_alloc (refs : α → List κ) (a : Arena α) (v : α) :
    (a.alloc v).held refs = a.held refs ++ refs v := by
  simp [held, alloc, Cell.held]

theorem Live.mem_held {x : κ} (h : Live a i v) (hx : x ∈ refs v) : x ∈ a.held refs :=
  List.mem_flatMap.mpr ⟨⟨v, false⟩, List.mem_of_getElem? h, hx⟩

/-- Some live cell holds what the cells hold. -/
theorem mem_held_inv {x : κ} (h : x ∈ a.held refs) : ∃ i v, Live a i v ∧ x ∈ refs v := by
  obtain ⟨c, hc, hx⟩ := List.mem_flatMap.mp h
  obtain ⟨v, released⟩ := c
  cases released with
  | true => cases hx
  | false =>
    obtain ⟨i, hi⟩ := List.getElem?_of_mem hc
    exact ⟨i, v, hi, hx⟩

variable [DecidableEq κ]

/-- A released cell leaves what it held in the hands of whoever released it. -/
theorem release_inv (h : a.release i = .ok a') : ∃ v, Live a i v ∧
    (∀ j, a'.count j + (if j = i then 1 else 0) = a.count j) ∧
    ∀ (refs : α → List κ) (x : κ),
      (a'.held refs).count x + (refs v).count x = (a.held refs).count x := by
  unfold release at h
  split at h
  · rename_i v hget
    cases h
    have hlive : Live a i v := hget
    refine ⟨v, hlive, ?_, ?_⟩
    · intro j
      rcases eq_or_ne j i with rfl | hne
      · rw [hlive.count_eq, if_pos rfl]
        simp [count, hlive.lt]
      · rw [if_neg hne, Nat.add_zero, count_set_of_ne hne]
    · intro refs x
      exact Custody.count_flatMap_set (f := Cell.held refs) hget ⟨v, true⟩ x
  · cases h

/-- A cell that changes its value gives up what it held, and holds what was in hand. -/
theorem count_held_update (h : Live a i v) (f : α → α) (refs : α → List κ) (x : κ) :
    ((a.update i f).held refs).count x + (refs v).count x =
      (a.held refs).count x + (refs (f v)).count x := by
  have hset : a.update i f = a.set i ⟨f v, false⟩ := by
    apply List.ext_getElem?
    intro j
    rw [update, List.getElem?_modify]
    rcases eq_or_ne i j with rfl | hne
    · rw [show a[i]? = some ⟨v, false⟩ from h, List.getElem?_set_self h.lt]
      simp
    · rw [List.getElem?_set_ne hne]
      simp [hne]
  rw [hset]
  exact Custody.count_flatMap_set (f := Cell.held refs) (show a[i]? = _ from h) ⟨f v, false⟩ x

end Arena
