-- SUMMARY: Reference counted objects that hold references to each other.
import Mathlib.Algebra.Order.BigOperators.Group.List
import Mathlib.Algebra.Order.Group.Nat
import Tcnative.Base.Custody
import Tcnative.Base.RefCount

/-!
# Graphs of reference counted objects

An object holds references to others as long as it lives. When it is freed it
gives them up, which may free those. The references that are not accounted for by
objects are held from outside, and every operation moves those in a simple way,
however far the freeing goes.
-/

namespace RefHeap
open CMem

section
variable {α : Type} (refs : α → List Nat)

/-- What an object holds. A freed one holds nothing. -/
def Obj.edges (o : Obj α) : List Nat :=
  match o.refs with
  | 0 => []
  | _ + 1 => refs o.value

/-- The references between the objects. -/
def edges (h : RefHeap α) : List Nat := h.flatMap (Obj.edges refs)

/-- How many references to an object are held from outside. -/
def outside (h : RefHeap α) (j : Nat) : Int := h.count j - (h.edges refs).count j

/-- All the references that there are. -/
def total : RefHeap α → Nat
  | [] => 0
  | o :: h => o.refs + total h

/-- Give up references one after the other. What an object holds follows when it is
freed. -/
def dropLoop : Nat → List Nat → RefHeap α → Except Fault (RefHeap α)
  | _, [], h => .ok h
  | 0, _ :: _, _ => .error .useAfterFree
  | fuel + 1, i :: pending, h =>
    match h[i]? with
    | some ⟨v, n + 1⟩ =>
      dropLoop fuel ((if n = 0 then refs v else []) ++ pending) (h.set i ⟨v, n⟩)
    | _ => .error .useAfterFree

/-- Give up references. Each step uses up one of those that there are. -/
def drop (pending : List Nat) (h : RefHeap α) : Except Fault (RefHeap α) :=
  dropLoop refs h.total pending h

/-- Take a reference to each of some objects. -/
def upRefs : List Nat → RefHeap α → Except Fault (RefHeap α)
  | [], h => .ok h
  | i :: is, h =>
    match h.upRef i with
    | .error fault => .error fault
    | .ok h => upRefs is h

/-- Objects only refer to such of a lower rank, so that there are no cycles. -/
def Ranked (rank : α → Nat) (h : RefHeap α) : Prop :=
  ∀ (i : Nat) (v : α) (n : Nat), h[i]? = some ⟨v, n⟩ →
    ∀ j ∈ refs v, ∃ (w : α) (m : Nat), h[j]? = some ⟨w, m⟩ ∧ rank w < rank v

end

section
variable {α : Type} {refs : α → List Nat} {h h' : RefHeap α} {i : Nat}

/-! ## What is held from outside -/

/-- One object changes. -/
theorem outside_set (refs : α → List Nat) {o : Obj α} (hget : h[i]? = some o) (o' : Obj α) (j : Nat) :
    RefHeap.outside refs (h.set i o') j + (o'.edges refs).count j =
      h.outside refs j + (o.edges refs).count j + if j = i then (o'.refs : Int) - o.refs else 0 := by
  have hedges := Custody.count_flatMap_set (f := Obj.edges refs) hget o' j
  have hcount : h.count i = o.refs := count_eq_of_getElem? hget
  simp only [outside, edges]
  rw [count_set (List.getElem?_eq_some_iff.mp hget).1]
  split
  · rename_i heq
    rw [heq] at hedges ⊢
    omega
  · omega

theorem outside_new (refs : α → List Nat) (h : RefHeap α) (v : α) (j : Nat) :
    (h.new v).outside refs j + (refs v).count j =
      h.outside refs j + if j = h.length then 1 else 0 := by
  have hedges : (h.new v).edges refs = h.edges refs ++ refs v := by
    simp [edges, new, Obj.edges]
  simp only [outside]
  rw [count_new, hedges, List.count_append]
  split <;> omega

theorem outside_upRef (refs : α → List Nat) (hok : h.upRef i = .ok h') (j : Nat) :
    h'.outside refs j = h.outside refs j + if j = i then 1 else 0 := by
  unfold upRef at hok
  split at hok
  · rename_i v n hget
    cases hok
    have hset := outside_set refs hget ⟨v, n + 2⟩ j
    simp only [Obj.edges] at hset
    split at hset <;> split <;> omega
  · cases hok

theorem outside_upRefs (refs : α → List Nat) {is : List Nat} (hok : h.upRefs is = .ok h')
    (j : Nat) :
    h'.outside refs j = h.outside refs j + is.count j := by
  induction is generalizing h with
  | nil =>
    cases hok
    simp
  | cons i is ih =>
    unfold upRefs at hok
    split at hok
    · cases hok
    · rename_i h₁ hup
      rw [ih hok, outside_upRef refs hup, List.count_cons]
      simp only [beq_iff_eq, eq_comm (a := i)]
      split <;> omega

/-- An object lives and has the value. -/
def Live (h : RefHeap α) (i : Nat) (v : α) : Prop := ∃ n, h[i]? = some ⟨v, n + 1⟩

theorem outside_update (refs : α → List Nat) {v : α} (hlive : h.Live i v) (f : α → α)
    (j : Nat) :
    (h.update i f).outside refs j + (refs (f v)).count j =
      h.outside refs j + (refs v).count j := by
  obtain ⟨n, hget⟩ := hlive
  have hupdate : h.update i f = h.set i ⟨f v, n + 1⟩ := by
    rw [update, List.modify_eq_set_getElem?, hget]
    rfl
  have hset := outside_set refs hget ⟨f v, n + 1⟩ j
  rw [hupdate]
  simpa [Obj.edges] using hset

/-- An object loses a reference. With the last one it gives up its own. -/
theorem outside_lose (refs : α → List Nat) {v : α} {n : Nat} (hget : h[i]? = some ⟨v, n + 1⟩)
    (j : Nat) :
    RefHeap.outside refs (h.set i ⟨v, n⟩) j + [i].count j =
      h.outside refs j + (if n = 0 then refs v else []).count j := by
  have hset := outside_set refs hget ⟨v, n⟩ j
  rw [List.count_singleton]
  simp only [beq_iff_eq, eq_comm (a := i)]
  cases n with
  | zero =>
    simp only [Obj.edges, List.count_nil] at hset
    rw [if_pos rfl]
    split at hset <;> split <;> omega
  | succ n =>
    simp only [Obj.edges] at hset
    rw [if_neg n.succ_ne_zero, List.count_nil]
    split at hset <;> split <;> omega

/-- What is given up is no longer held from outside. What an object gives up when it
is freed was not held from outside. -/
theorem outside_dropLoop {fuel : Nat} {pending : List Nat}
    (hok : h.dropLoop refs fuel pending = .ok h') (j : Nat) :
    h'.outside refs j + pending.count j = h.outside refs j := by
  induction fuel generalizing pending h with
  | zero =>
    cases pending with
    | nil =>
      cases hok
      simp
    | cons i pending => cases hok
  | succ fuel ih =>
    cases pending with
    | nil =>
      cases hok
      simp
    | cons i pending =>
      unfold dropLoop at hok
      split at hok
      · rename_i v n hget
        have hrest := ih hok
        have hlose := outside_lose refs hget j
        rw [List.count_append] at hrest
        rw [← List.singleton_append, List.count_append]
        omega
      · cases hok

theorem outside_drop {pending : List Nat} (hok : h.drop refs pending = .ok h') (j : Nat) :
    h'.outside refs j + pending.count j = h.outside refs j := outside_dropLoop hok j

/-! ## Operations that do not fault -/

/-- What is held from outside is alive. -/
theorem count_pos_of_outside (hpos : 0 < h.outside refs i) : 0 < h.count i := by
  simp only [outside] at hpos
  omega

theorem total_set {o : Obj α} (hget : h[i]? = some o) (o' : Obj α) :
    RefHeap.total (h.set i o') + o.refs = h.total + o'.refs := by
  induction h generalizing i with
  | nil => simp at hget
  | cons x h ih =>
    cases i with
    | zero =>
      cases hget
      simp only [total, List.set_cons_zero]
      omega
    | succ i =>
      have hrest := ih (i := i) hget
      simp only [total, List.set_cons_succ] at hrest ⊢
      omega

theorem dropLoop_ok {fuel : Nat} {pending : List Nat}
    (hpending : ∀ j, pending.count j ≤ h.outside refs j) (hfuel : h.total ≤ fuel) :
    ∃ h', h.dropLoop refs fuel pending = .ok h' := by
  induction fuel generalizing pending h with
  | zero =>
    cases pending with
    | nil => exact ⟨h, rfl⟩
    | cons i pending =>
      -- Without references there is nothing to give up.
      exfalso
      have hi := hpending i
      rw [List.count_cons_self] at hi
      obtain ⟨v, n, hget⟩ := getElem?_of_count_pos (count_pos_of_outside (by omega : 0 < h.outside refs i))
      have htotal := total_set hget ⟨v, 0⟩
      simp only at htotal
      omega
  | succ fuel ih =>
    cases pending with
    | nil => exact ⟨h, rfl⟩
    | cons i pending =>
      have hi := hpending i
      rw [List.count_cons_self] at hi
      obtain ⟨v, n, hget⟩ := getElem?_of_count_pos (count_pos_of_outside (by omega : 0 < h.outside refs i))
      simp only [dropLoop, hget]
      apply ih
      · intro j
        have hj := hpending j
        have hlose := outside_lose refs hget j
        rw [← List.singleton_append, List.count_append] at hj
        rw [List.count_append]
        omega
      · have htotal := total_set hget ⟨v, n⟩
        simp only at htotal
        omega

/-- References that are held from outside can be given up. -/
theorem drop_ok {pending : List Nat} (hpending : ∀ j, pending.count j ≤ h.outside refs j) :
    ∃ h', h.drop refs pending = .ok h' := dropLoop_ok hpending (Nat.le_refl _)

theorem upRefs_ok {is : List Nat} (hpos : ∀ i ∈ is, 0 < h.count i) :
    ∃ h', h.upRefs is = .ok h' := by
  induction is generalizing h with
  | nil => exact ⟨h, rfl⟩
  | cons i is ih =>
    obtain ⟨h₁, hup⟩ := upRef_ok (hpos i List.mem_cons_self)
    have hpos₁ : ∀ j ∈ is, 0 < h₁.count j := by
      intro j hj
      rw [(upRef_inv hup).2]
      have hcount := hpos j (List.mem_cons_of_mem _ hj)
      omega
    simp only [upRefs, hup]
    exact ih hpos₁

/-! ## Values -/

/-- The values of all objects, also of those that are freed. -/
def values (h : RefHeap α) : List α := h.map Obj.value

theorem values_set {v : α} {n : Nat} (hget : h[i]? = some ⟨v, n⟩) (m : Nat) :
    RefHeap.values (h.set i ⟨v, m⟩) = h.values := by
  apply List.ext_getElem?
  intro j
  rw [values, values, List.getElem?_map, List.getElem?_map, List.getElem?_set]
  split
  · rename_i heq
    rw [if_pos (List.getElem?_eq_some_iff.mp hget).1, ← heq, hget]
    rfl
  · rfl

theorem values_upRef (hok : h.upRef i = .ok h') : h'.values = h.values := by
  unfold upRef at hok
  split at hok
  · rename_i hget
    cases hok
    exact values_set hget _
  · cases hok

theorem values_upRefs {is : List Nat} (hok : h.upRefs is = .ok h') : h'.values = h.values := by
  induction is generalizing h with
  | nil =>
    cases hok
    rfl
  | cons i is ih =>
    unfold upRefs at hok
    split at hok
    · cases hok
    · rename_i h₁ hup
      exact (ih hok).trans (values_upRef hup)

theorem values_drop {pending : List Nat} (hok : h.drop refs pending = .ok h') :
    h'.values = h.values := by
  unfold drop at hok
  generalize h.total = fuel at hok
  induction fuel generalizing pending h with
  | zero =>
    cases pending with
    | nil =>
      cases hok
      rfl
    | cons i pending => cases hok
  | succ fuel ih =>
    cases pending with
    | nil =>
      cases hok
      rfl
    | cons i pending =>
      unfold dropLoop at hok
      split at hok
      · rename_i v n hget
        exact (ih hok).trans (values_set hget n)
      · cases hok

theorem values_new (h : RefHeap α) (v : α) : (h.new v).values = h.values ++ [v] := by
  simp [values, new]

theorem values_update (h : RefHeap α) (i : Nat) (f : α → α) :
    (h.update i f).values = h.values.modify i f := by
  apply List.ext_getElem?
  intro j
  simp only [values, update, List.getElem?_map, List.getElem?_modify]
  split <;> simp [Function.comp_def]

/-! ## Objects that are alive -/

variable {v : α}

theorem live_iff : h.Live i v ↔ h.values[i]? = some v ∧ 0 < h.count i := by
  constructor
  · rintro ⟨n, hget⟩
    exact ⟨by simp [values, hget], by simp [count, hget]⟩
  · rintro ⟨hvalue, hpos⟩
    obtain ⟨w, n, hget⟩ := getElem?_of_count_pos hpos
    simp only [values, List.getElem?_map, hget, Option.map_some, Option.some.injEq] at hvalue
    exact ⟨n, hvalue ▸ hget⟩

theorem Live.lt (hlive : h.Live i v) : i < h.length := by
  obtain ⟨n, hget⟩ := hlive
  exact (List.getElem?_eq_some_iff.mp hget).1

theorem Live.get_eq (hlive : h.Live i v) : h.get i = .ok v := by
  obtain ⟨n, hget⟩ := hlive
  simp only [get, hget]

theorem live_of_get (hok : h.get i = .ok v) : h.Live i v := by
  unfold get at hok
  split at hok
  · rename_i w n hget
    cases hok
    exact ⟨n, hget⟩
  · cases hok

theorem Live.new (hlive : h.Live i v) (w : α) : (h.new w).Live i v := by
  obtain ⟨n, hget⟩ := hlive
  refine ⟨n, ?_⟩
  rw [RefHeap.new, List.getElem?_append_left (List.getElem?_eq_some_iff.mp hget).1, hget]

theorem live_new_self (h : RefHeap α) (w : α) : (h.new w).Live h.length w := ⟨0, by simp [new]⟩

theorem live_of_new {w : α} (hlive : (h.new w).Live i v) (hne : i ≠ h.length) : h.Live i v := by
  obtain ⟨n, hget⟩ := hlive
  have hlt := (List.getElem?_eq_some_iff.mp hget).1
  rw [new, List.length_append, List.length_singleton] at hlt
  rw [new, List.getElem?_append_left (by omega)] at hget
  exact ⟨n, hget⟩

theorem Live.upRefs {is : List Nat} (hlive : h.Live i v) (hok : h.upRefs is = .ok h') :
    h'.Live i v := by
  rw [live_iff] at hlive ⊢
  refine ⟨by rw [values_upRefs hok, hlive.1], ?_⟩
  have hle : h.count i ≤ h'.count i := by
    clear hlive
    induction is generalizing h with
    | nil =>
      cases hok
      exact Nat.le_refl _
    | cons j is ih =>
      unfold RefHeap.upRefs at hok
      split at hok
      · cases hok
      · rename_i h₁ hup
        have hcount := (upRef_inv hup).2 i
        have hrest := ih hok
        omega
  omega

/-- Giving up references does not bring anything back. -/
theorem live_of_drop {pending : List Nat} (hok : h.drop refs pending = .ok h')
    (hlive : h'.Live i v) : h.Live i v := by
  rw [live_iff] at hlive ⊢
  refine ⟨by rw [← values_drop hok, hlive.1], ?_⟩
  have hle : h'.count i ≤ h.count i := by
    unfold drop at hok
    generalize h.total = fuel at hok
    clear hlive
    induction fuel generalizing pending h with
    | zero =>
      cases pending with
      | nil =>
        cases hok
        exact Nat.le_refl _
      | cons k pending => cases hok
    | succ fuel ih =>
      cases pending with
      | nil =>
        cases hok
        exact Nat.le_refl _
      | cons k pending =>
        unfold dropLoop at hok
        split at hok
        · rename_i w n hget
          have hrest := ih hok
          rw [count_set (List.getElem?_eq_some_iff.mp hget).1] at hrest
          split at hrest
          · rename_i heq
            rw [heq] at hrest ⊢
            rw [count_eq_of_getElem? hget]
            simp only at hrest
            omega
          · exact hrest
        · cases hok
  omega

/-- An object that holds nothing is freed alone. -/
theorem Live.drop_leaf (hlive : h.Live i v) (hleaf : refs v = []) :
    ∃ h', h.drop refs [i] = .ok h' ∧ ∀ j w, j ≠ i → h.Live j w → h'.Live j w := by
  obtain ⟨n, hget⟩ := hlive
  have htotal : 0 < h.total := by
    have hset := total_set hget ⟨v, 0⟩
    simp only at hset
    omega
  obtain ⟨fuel, hfuel⟩ := Nat.exists_eq_succ_of_ne_zero htotal.ne'
  refine ⟨h.set i ⟨v, n⟩, ?_, ?_⟩
  · simp only [drop, hfuel, dropLoop, hget, hleaf, ite_self, List.append_nil]
  · rintro j w hne ⟨m, hget'⟩
    exact ⟨m, by rw [List.getElem?_set_ne hne.symm, hget']⟩

/-! ## Without references from outside -/

/-- Where there are no cycles, nothing is left once nothing is held from outside. -/
theorem edges_eq_nil {rank : α → Nat} (hranked : h.Ranked refs rank)
    (houtside : ∀ j, h.outside refs j = 0) : h.edges refs = [] := by
  -- Whatever lives is held by something of a higher rank.
  have hholder : ∀ i v, h.Live i v → ∃ j w, h.Live j w ∧ rank v < rank w := by
    rintro i v ⟨n, hget⟩
    have hcount : h.count i = n + 1 := count_eq_of_getElem? hget
    have hout := houtside i
    simp only [outside] at hout
    have hmem : i ∈ h.edges refs := List.count_pos_iff.mp (by omega)
    obtain ⟨⟨w, m⟩, hw, hi⟩ := List.mem_flatMap.mp hmem
    cases m with
    | zero => exact absurd hi List.not_mem_nil
    | succ m =>
      obtain ⟨j, hj⟩ := List.getElem?_of_mem hw
      obtain ⟨v', n', hget', hless⟩ := hranked j w (m + 1) hj i hi
      cases hget.symm.trans hget'
      exact ⟨j, w, ⟨m, hj⟩, hless⟩
  -- So there is something of any rank, or nothing at all.
  have hunbounded : ∀ bound, (∃ i v, h.Live i v) → ∃ j w, h.Live j w ∧ bound ≤ rank w := by
    intro bound hex
    induction bound with
    | zero =>
      obtain ⟨i, v, hlive⟩ := hex
      exact ⟨i, v, hlive, Nat.zero_le _⟩
    | succ bound ih =>
      obtain ⟨i, v, hlive, hbound⟩ := ih
      obtain ⟨j, w, hlive', hless⟩ := hholder i v hlive
      exact ⟨j, w, hlive', by omega⟩
  by_contra hne
  obtain ⟨i, hi⟩ := List.exists_mem_of_ne_nil _ hne
  obtain ⟨⟨w, m⟩, hw, hi⟩ := List.mem_flatMap.mp hi
  cases m with
  | zero => exact absurd hi List.not_mem_nil
  | succ m =>
    obtain ⟨k, hk⟩ := List.getElem?_of_mem hw
    obtain ⟨j, u, ⟨n, hj⟩, hbound⟩ := hunbounded ((h.map fun o => rank o.value).sum + 1) ⟨k, w, m, hk⟩
    have hle : rank u ≤ (h.map fun o => rank o.value).sum :=
      List.single_le_sum (fun _ _ => Nat.zero_le _) _
        (List.mem_map.mpr ⟨_, List.mem_of_getElem? hj, rfl⟩)
    omega

end

end RefHeap
