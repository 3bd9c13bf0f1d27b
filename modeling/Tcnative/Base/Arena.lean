-- SUMMARY: Arenas of cells that are allocated once and must be released exactly once.
import Tcnative.Base.Memory

/-!
# Arenas

Cells that a program allocates and releases by hand. Reading or releasing a
released cell is a fault, so a run that does not fault releases no cell twice.
What is left to show for it is that every cell is released in the end.
-/

/-- A cell and whether it was released. -/
structure Arena.Cell (α : Type) where
  value : α
  released : Bool
  deriving DecidableEq

/-- All the cells ever allocated, in order. -/
abbrev Arena (α : Type) := List (Arena.Cell α)

namespace Arena
open CMem

variable {α : Type}

/-- Allocate a cell. Its position is the length of the arena before. -/
def alloc (a : Arena α) (v : α) : Arena α := a ++ [⟨v, false⟩]

/-- Read a cell. -/
def get (a : Arena α) (i : Nat) : Except Fault α :=
  match a[i]? with
  | some ⟨v, false⟩ => .ok v
  | _ => .error .useAfterFree

/-- Release a cell. -/
def release (a : Arena α) (i : Nat) : Except Fault (Arena α) :=
  match a[i]? with
  | some ⟨v, false⟩ => .ok (a.set i ⟨v, true⟩)
  | _ => .error .useAfterFree

/-- Release the cell behind a pointer that may be null. -/
def releaseOpt (a : Arena α) : Option Nat → Except Fault (Arena α)
  | none => .ok a
  | some i => a.release i

/-- Change the value of a cell. -/
def update (a : Arena α) (i : Nat) (f : α → α) : Arena α :=
  a.modify i fun c => { c with value := f c.value }

/-- The cell holds the value and is not released. -/
def Live (a : Arena α) (i : Nat) (v : α) : Prop := a[i]? = some ⟨v, false⟩

/-- No cell is live, with the possible exception of one. -/
def Owns (a : Arena α) (live : Option Nat) : Prop :=
  ∀ (i : Nat) (c : Cell α), a[i]? = some c → live ≠ some i → c.released = true

/-- The live cells are those that the owners point to, and no two owners share
one. -/
structure OwnedBy {κ : Type} (a : Arena α) (own : κ → Option Nat) : Prop where
  live : ∀ k i, own k = some i → ∃ v, Live a i v
  owned : ∀ i v, Live a i v → ∃ k, own k = some i
  unshared : ∀ k k' i, own k = some i → own k' = some i → k = k'

/-- What is allocated stays where it is, and no cell changes its value. -/
def Extends (a a' : Arena α) : Prop := a.map (·.value) <+: a'.map (·.value)

/-- The values of all cells, released or not. -/
def Forall (a : Arena α) (P : α → Prop) : Prop :=
  ∀ (i : Nat) (c : Cell α), a[i]? = some c → P c.value

variable {a : Arena α} {i : Nat} {v : α}

/-! ## Live cells -/

theorem Live.lt (h : Live a i v) : i < a.length := (List.getElem?_eq_some_iff.mp h).1

theorem Live.unique {w : α} (h : Live a i v) (h' : Live a i w) : v = w := by
  simpa using (Option.some.inj (h.symm.trans h'))

theorem Live.get_eq (h : Live a i v) : a.get i = .ok v := by
  simp only [Arena.get, show a[i]? = _ from h]

theorem Live.release_eq (h : Live a i v) : a.release i = .ok (a.set i ⟨v, true⟩) := by
  simp only [Arena.release, show a[i]? = _ from h]

theorem live_alloc (a : Arena α) (v : α) : Live (a.alloc v) a.length v := by
  simp [Live, alloc]

theorem Live.alloc (h : Live a i v) (w : α) : Live (a.alloc w) i v := by
  exact getElem?_snoc_left h

theorem Live.update (h : Live a i v) (f : α → α) : Live (a.update i f) i (f v) := by
  simp [Live, Arena.update, show a[i]? = _ from h]

theorem Live.update_other (h : Live a i v) {j : Nat} (hne : j ≠ i) (f : α → α) :
    Live (a.update j f) i v := by
  simpa [Live, Arena.update, List.getElem?_modify, hne] using show a[i]? = _ from h

theorem update_alloc (a : Arena α) (v : α) (f : α → α) :
    (a.alloc v).update a.length f = a.alloc (f v) := by
  rw [update, List.modify_eq_set_getElem?, show (a.alloc v)[a.length]? = _ from live_alloc a v]
  simp [alloc]

theorem live_of_update {j : Nat} {f : α → α} {w : α} (h : Live (a.update j f) i w) :
    ∃ v, Live a i v ∧ w = if j = i then f v else v := by
  simp only [Live, Arena.update, List.getElem?_modify] at h
  obtain ⟨⟨v, released⟩, hcell, hw⟩ := Option.map_eq_some_iff.mp h
  split at hw
  · rename_i hji
    cases hw
    exact ⟨v, hcell, by rw [if_pos hji]⟩
  · rename_i hji
    cases hw
    exact ⟨w, hcell, by rw [if_neg hji]⟩

/-! ## Later arenas -/

section
variable {a' a'' : Arena α}

theorem Extends.refl (a : Arena α) : Extends a a := List.prefix_rfl

theorem Extends.trans (h : Extends a a') (h' : Extends a' a'') : Extends a a'' :=
  List.IsPrefix.trans h h'

theorem extends_alloc (a : Arena α) (v : α) : Extends a (a.alloc v) :=
  (List.prefix_append a _).map _

theorem extends_release (h : a.release i = .ok a') : Extends a a' := by
  unfold release at h
  split at h
  · rename_i w hget
    cases h
    have hvalue : (a.map (·.value))[i]? = some w := by rw [List.getElem?_map, hget]; rfl
    obtain ⟨hlt, rfl⟩ := List.getElem?_eq_some_iff.mp hvalue
    refine ⟨[], ?_⟩
    rw [List.append_nil, List.map_set, List.set_getElem_self hlt]
  · cases h

theorem extends_releaseOpt {p : Option Nat} (h : a.releaseOpt p = .ok a') : Extends a a' := by
  cases p with
  | none =>
    cases h
    exact .refl a
  | some i => exact extends_release h

/-- A cell that is live now and later has held its value. -/
theorem Extends.live_eq {w : α} (h : Extends a a') (hlive : Live a i v) (hlive' : Live a' i w) :
    w = v := by
  have hnow : (a.map (·.value))[i]? = some v := by rw [List.getElem?_map, hlive]; rfl
  have hlater : (a'.map (·.value))[i]? = some w := by rw [List.getElem?_map, hlive']; rfl
  obtain ⟨added, hadded⟩ := h
  rw [← hadded, List.getElem?_append_left (List.getElem?_eq_some_iff.mp hnow).1, hnow] at hlater
  exact (Option.some.inj hlater).symm

end

/-! ## What is left to release -/

theorem owns_nil (live : Option Nat) : Owns ([] : Arena α) live := by
  intro i c h
  simp at h

theorem Owns.alloc (h : Owns a none) (v : α) : Owns (a.alloc v) (some a.length) := by
  intro i c hc hne
  rcases getElem?_snoc hc with hold | ⟨rfl, -⟩
  · exact h i c hold (by simp)
  · -- The new cell is the one that may be live.
    exact absurd rfl hne

theorem Owns.append_released {live : Option Nat} (h : Owns a live) (v : α) :
    Owns (a ++ [⟨v, true⟩]) live := by
  intro i c hc hne
  rcases getElem?_snoc hc with hold | ⟨-, rfl⟩
  · exact h i c hold hne
  · rfl

theorem Owns.set_released (h : Owns a (some i)) (v : α) : Owns (a.set i ⟨v, true⟩) none := by
  intro j c hc _
  rcases eq_or_ne i j with rfl | hne
  · simp only [List.getElem?_set_self'] at hc
    obtain ⟨_, -, rfl⟩ := Option.map_eq_some_iff.mp hc
    rfl
  · rw [List.getElem?_set_ne hne] at hc
    exact h j c hc (by simpa using hne)

theorem Owns.update {live : Option Nat} (h : Owns a live) (i : Nat) (f : α → α) :
    Owns (a.update i f) live := by
  intro j c hc hne
  simp only [Arena.update, List.getElem?_modify] at hc
  obtain ⟨c', hc', rfl⟩ := Option.map_eq_some_iff.mp hc
  have hold := h j c' hc' hne
  split <;> exact hold

/-- Nothing is left: every cell is released. -/
theorem Owns.all_released (h : Owns a none) : ∀ c ∈ a, c.released = true := by
  intro c hc
  obtain ⟨i, hi⟩ := List.getElem?_of_mem hc
  exact h i c hi (by simp)

/-! ## Several owners -/

section
variable {κ : Type} {own : κ → Option Nat}

theorem live_iff_set {j : Nat} {w : α} (h : Live a i v) :
    Live (a.set i ⟨v, true⟩) j w ↔ j ≠ i ∧ Live a j w := by
  rcases eq_or_ne i j with rfl | hne
  · simp [Live, h.lt]
  · simp [Live, List.getElem?_set_ne hne, hne.symm]

theorem live_iff_alloc {j : Nat} {w x : α} :
    Live (a.alloc w) j x ↔ Live a j x ∨ (j = a.length ∧ x = w) := by
  constructor
  · intro h
    rcases getElem?_snoc h with hold | ⟨rfl, hcell⟩
    · exact .inl hold
    · cases hcell
      exact .inr ⟨rfl, rfl⟩
  · rintro (hold | ⟨rfl, rfl⟩)
    · exact hold.alloc w
    · exact live_alloc a x

theorem ownedBy_nil : OwnedBy ([] : Arena α) fun _ : κ => none where
  live _ _ h := by cases h
  owned i v h := by simp [Live] at h
  unshared _ _ _ h := by cases h

/-- An owner points into the arena. -/
theorem OwnedBy.lt (h : OwnedBy a own) {k : κ} (hk : own k = some i) : i < a.length := by
  obtain ⟨v, hlive⟩ := h.live k i hk
  exact hlive.lt

/-- Without owners everything is released. -/
theorem OwnedBy.all_released (h : OwnedBy a own) (hown : ∀ k, own k = none) :
    ∀ c ∈ a, c.released = true := by
  intro c hc
  obtain ⟨i, hi⟩ := List.getElem?_of_mem hc
  cases hreleased : c.released with
  | true => rfl
  | false =>
    obtain ⟨k, hk⟩ := h.owned i c.value (by rw [Live, hi, ← hreleased])
    rw [hown k] at hk
    cases hk

/-- A cell that is released again at once leaves the owners as they were. -/
theorem OwnedBy.discard (h : OwnedBy a own) (v : α) :
    ∃ a', (a.alloc v).release a.length = .ok a' ∧ OwnedBy a' own ∧
      ∀ i w, Live a i w → Live a' i w := by
  have hkept : ∀ i w, Live a i w → Live ((a.alloc v).set a.length ⟨v, true⟩) i w :=
    fun i w hw => (live_iff_set (live_alloc a v)).mpr ⟨Nat.ne_of_lt hw.lt, hw.alloc v⟩
  refine ⟨_, (live_alloc a v).release_eq, ⟨?_, ?_, h.unshared⟩, hkept⟩
  · intro k i hk
    obtain ⟨w, hw⟩ := h.live k i hk
    exact ⟨w, hkept i w hw⟩
  · intro i w hw
    obtain ⟨hne, hlive⟩ := (live_iff_set (live_alloc a v)).mp hw
    rcases live_iff_alloc.mp hlive with hold | ⟨heq, -⟩
    · exact h.owned i w hold
    · exact absurd heq hne

/-- Releasing an old cell and allocating a new one commute. -/
theorem releaseOpt_alloc {a' : Arena α} {p : Option Nat} (h : a.releaseOpt p = .ok a') (v : α) :
    (a.alloc v).releaseOpt p = .ok (a'.alloc v) ∧ a'.length = a.length := by
  cases p with
  | none =>
    cases h
    exact ⟨rfl, rfl⟩
  | some i =>
    simp only [releaseOpt, release] at h
    split at h
    · rename_i w hget
      cases h
      have hlive : Live a i w := hget
      refine ⟨?_, List.length_set⟩
      rw [releaseOpt, (hlive.alloc v).release_eq]
      simp only [Arena.alloc, List.set_append_left _ _ hlive.lt]
    · cases h

variable [DecidableEq κ]

/-- An owner gives up its cell, if it has one. -/
theorem OwnedBy.clear (h : OwnedBy a own) (k : κ) :
    ∃ a', a.releaseOpt (own k) = .ok a' ∧ OwnedBy a' (Function.update own k none) := by
  cases hk : own k with
  | none =>
    refine ⟨a, rfl, ?_⟩
    rwa [← hk, Function.update_eq_self]
  | some i =>
    obtain ⟨v, hlive⟩ := h.live k i hk
    refine ⟨_, hlive.release_eq, ⟨?_, ?_, ?_⟩⟩
    · intro k' j hj
      rcases eq_or_ne k' k with rfl | hne
      · simp at hj
      · rw [Function.update_of_ne hne] at hj
        obtain ⟨w, hw⟩ := h.live k' j hj
        -- Another owner points to another cell.
        have hji : j ≠ i := fun heq => hne (h.unshared k' k i (heq ▸ hj) hk)
        exact ⟨w, (live_iff_set hlive).mpr ⟨hji, hw⟩⟩
    · intro j w hw
      obtain ⟨hji, hold⟩ := (live_iff_set hlive).mp hw
      obtain ⟨k', hk'⟩ := h.owned j w hold
      refine ⟨k', ?_⟩
      rw [Function.update_of_ne, hk']
      rintro rfl
      exact hji (Option.some.inj (hk'.symm.trans hk))
    · intro k₁ k₂ j h₁ h₂
      rcases eq_or_ne k₁ k with rfl | hne₁
      · simp at h₁
      rcases eq_or_ne k₂ k with rfl | hne₂
      · simp at h₂
      rw [Function.update_of_ne hne₁] at h₁
      rw [Function.update_of_ne hne₂] at h₂
      exact h.unshared k₁ k₂ j h₁ h₂

/-- An owner without a cell takes a new one. -/
theorem OwnedBy.take (h : OwnedBy a own) {k : κ} (hk : own k = none) (v : α) :
    OwnedBy (a.alloc v) (Function.update own k (some a.length)) where
  live k' j hj := by
    rcases eq_or_ne k' k with rfl | hne
    · rw [Function.update_self] at hj
      cases hj
      exact ⟨v, live_alloc a v⟩
    · rw [Function.update_of_ne hne] at hj
      obtain ⟨w, hw⟩ := h.live k' j hj
      exact ⟨w, hw.alloc v⟩
  owned j w hw := by
    rcases live_iff_alloc.mp hw with hold | ⟨rfl, -⟩
    · obtain ⟨k', hk'⟩ := h.owned j w hold
      refine ⟨k', ?_⟩
      rw [Function.update_of_ne, hk']
      rintro rfl
      cases hk.symm.trans hk'
    · exact ⟨k, Function.update_self ..⟩
  unshared k₁ k₂ j h₁ h₂ := by
    -- The old owners point below the new cell.
    rcases eq_or_ne k₁ k with rfl | hne₁
    · rcases eq_or_ne k₂ k₁ with rfl | hne₂
      · rfl
      · rw [Function.update_self] at h₁
        rw [Function.update_of_ne hne₂] at h₂
        cases h₁
        exact absurd (h.lt h₂) (Nat.lt_irrefl _)
    · rw [Function.update_of_ne hne₁] at h₁
      rcases eq_or_ne k₂ k with rfl | hne₂
      · rw [Function.update_self] at h₂
        cases h₂
        exact absurd (h.lt h₁) (Nat.lt_irrefl _)
      · rw [Function.update_of_ne hne₂] at h₂
        exact h.unshared k₁ k₂ j h₁ h₂

/-- An owner takes a new cell in place of the one it had. -/
theorem OwnedBy.replace (h : OwnedBy a own) (k : κ) (v : α) :
    ∃ a', (a.alloc v).releaseOpt (own k) = .ok a' ∧
      OwnedBy a' (Function.update own k (some a.length)) ∧ Live a' a.length v := by
  obtain ⟨a', hrelease, hcleared⟩ := h.clear k
  obtain ⟨hok, hlen⟩ := releaseOpt_alloc hrelease v
  have htaken := hcleared.take (Function.update_self k none own) v
  rw [Function.update_idem, hlen] at htaken
  exact ⟨_, hok, htaken, hlen ▸ live_alloc a' v⟩

end

/-! ## Properties of all values -/

variable {P : α → Prop}

theorem forall_nil : Forall ([] : Arena α) P := by
  intro i c h
  simp at h

theorem Forall.live (h : Forall a P) (hlive : Live a i v) : P v := h i _ hlive

theorem Forall.alloc (h : Forall a P) (hv : P v) : Forall (a.alloc v) P := by
  intro i c hc
  rcases getElem?_snoc hc with hold | ⟨-, rfl⟩
  · exact h i c hold
  · exact hv

theorem Forall.set (h : Forall a P) (hv : P v) (released : Bool) :
    Forall (a.set i ⟨v, released⟩) P := by
  intro j c hc
  rcases eq_or_ne i j with rfl | hne
  · simp only [List.getElem?_set_self'] at hc
    obtain ⟨_, -, rfl⟩ := Option.map_eq_some_iff.mp hc
    exact hv
  · rw [List.getElem?_set_ne hne] at hc
    exact h j c hc

theorem Forall.update (h : Forall a P) {f : α → α} (hf : ∀ v, P v → P (f v)) (i : Nat) :
    Forall (a.update i f) P := by
  intro j c hc
  simp only [Arena.update, List.getElem?_modify] at hc
  obtain ⟨c', hc', rfl⟩ := Option.map_eq_some_iff.mp hc
  have hold := h j c' hc'
  split
  · exact hf _ hold
  · exact hold

end Arena
