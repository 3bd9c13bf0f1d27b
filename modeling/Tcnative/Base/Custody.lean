-- SUMMARY: Machines that pass references between holders, and when a run of one can be wound down.
import Mathlib.Data.List.Count
import Tcnative.Base.Machine
import Tcnative.Base.Memory

/-!
# Custody

Objects have references, and somebody holds each of them. Who holds them is a
list: an object occurs in it once for each reference. While every step accounts
for what it takes and gives up, the counts agree with the list. A step that gives
up what it does not hold leaves fewer references than holders, and then nothing
puts it right again.
-/

namespace Custody
open CMem

section
variable {κ : Type}

/-! ## What is owed -/

/-- What is owed stays the same where the rules are obeyed. Otherwise no less is
owed of any object, and more of some. -/
structure Moves (obeys : Prop) (owed owed' : κ → Int) : Prop where
  same : obeys → ∀ i, owed' i = owed i
  le : ∀ i, owed i ≤ owed' i
  more : ¬ obeys → ∃ i, owed i < owed' i

variable {p q : Prop} {before after later : κ → Int}

theorem Moves.of_eq (hp : p) (heq : ∀ i, after i = before i) : Moves p before after where
  same _ := heq
  le i := Int.le_of_eq (heq i).symm
  more hviolates := absurd hp hviolates

theorem Moves.trans (hpq : Moves p before after) (hqr : Moves q after later) :
    Moves (p ∧ q) before later where
  same h i := (hqr.same h.2 i).trans (hpq.same h.1 i)
  le i := Int.le_trans (hpq.le i) (hqr.le i)
  more hviolates := by
    by_cases hp : p
    · obtain ⟨i, hi⟩ := hqr.more fun hq => hviolates ⟨hp, hq⟩
      exact ⟨i, Int.lt_of_le_of_lt (hpq.le i) hi⟩
    · obtain ⟨i, hi⟩ := hpq.more hp
      exact ⟨i, Int.lt_of_lt_of_le hi (hqr.le i)⟩

theorem Moves.congr (hm : Moves p before after) (hpq : p ↔ q) : Moves q before after where
  same h := hm.same (hpq.mpr h)
  le := hm.le
  more h := hm.more fun hp => h (hpq.mp hp)

variable [DecidableEq κ]

/-- How many holders of an object have no reference. -/
def owed (count : κ → Nat) (held : List κ) (i : κ) : Int := held.count i - count i

/-- Every object has as many references as holders. -/
def Balanced (count : κ → Nat) (held : List κ) : Prop := ∀ i, count i = held.count i

variable {count count' : κ → Nat} {held held' : List κ} {i : κ}

/-! ## Counts and holders -/

theorem balanced_nil : Balanced (fun _ : κ => 0) [] := fun _ => rfl

theorem balanced_iff : Balanced count held ↔ ∀ i, owed count held i = 0 := by
  apply forall_congr'
  intro i
  simp only [owed]
  omega

/-- What somebody holds is not freed. -/
theorem Balanced.pos (hb : Balanced count held) (hi : i ∈ held) : 0 < count i := by
  rw [hb i]
  exact List.count_pos_iff.mpr hi

/-- A holder gives up one of its references. -/
theorem count_erase_add (hi : i ∈ held) (j : κ) :
    (held.erase i).count j + (if j = i then 1 else 0) = held.count j := by
  rcases eq_or_ne j i with rfl | hne
  · have hpos := List.count_pos_iff.mpr hi
    simp only [List.count_erase_self, if_true]
    omega
  · simp [List.count_erase_of_ne hne, hne]

/-- One place of a list of holders changes what it holds. -/
theorem flatMap_set_perm {β : Type} {l : List β} {f : β → List κ} {k : Nat} {x : β}
    (hk : l[k]? = some x) (y : β) :
    ((l.set k y).flatMap f ++ f x).Perm (l.flatMap f ++ f y) := by
  induction l generalizing k with
  | nil => simp at hk
  | cons z l ih =>
    cases k with
    | zero =>
      cases hk
      simp only [List.set_cons_zero, List.flatMap_cons]
      apply List.perm_iff_count.mpr
      intro j
      simp only [List.count_append]
      omega
    | succ k =>
      simp only [List.set_cons_succ, List.flatMap_cons, List.append_assoc]
      exact (ih (k := k) hk).append_left (f z)

theorem count_flatMap_set {β : Type} {l : List β} {f : β → List κ} {k : Nat} {x : β}
    (hk : l[k]? = some x) (y : β) (j : κ) :
    ((l.set k y).flatMap f).count j + (f x).count j =
      (l.flatMap f).count j + (f y).count j := by
  simpa only [List.count_append] using (flatMap_set_perm hk y).count_eq j

theorem length_flatMap_set {β : Type} {l : List β} {f : β → List κ} {k : Nat} {x : β}
    (hk : l[k]? = some x) (y : β) :
    ((l.set k y).flatMap f).length + (f x).length = (l.flatMap f).length + (f y).length := by
  simpa only [List.length_append] using (flatMap_set_perm hk y).length_eq

theorem Moves.balanced (hm : Moves p (owed count held) (owed count' held')) (hp : p)
    (hb : Balanced count held) : Balanced count' held' :=
  balanced_iff.mpr fun i => (hm.same hp i).trans (balanced_iff.mp hb i)

end

/-! ## Two kinds of objects -/

section
variable {κ κ' : Type}

/-- The holders of objects of two kinds. -/
def bothHeld (held : List κ) (held' : List κ') : List (κ ⊕ κ') := held.map .inl ++ held'.map .inr

/-- A step obeys the rules for both kinds, or breaks some. -/
theorem Moves.both {p q : Prop} {before after : κ → Int} {before' after' : κ' → Int}
    (hm : Moves p before after) (hm' : Moves q before' after') :
    Moves (p ∧ q) (Sum.elim before before') (Sum.elim after after') where
  same h i := by
    cases i with
    | inl i => exact hm.same h.1 i
    | inr i => exact hm'.same h.2 i
  le i := by
    cases i with
    | inl i => exact hm.le i
    | inr i => exact hm'.le i
  more hviolates := by
    by_cases hp : p
    · obtain ⟨i, hi⟩ := hm'.more fun hq => hviolates ⟨hp, hq⟩
      exact ⟨.inr i, hi⟩
    · obtain ⟨i, hi⟩ := hm.more hp
      exact ⟨.inl i, hi⟩

variable [DecidableEq κ] [DecidableEq κ'] {count : κ → Nat} {count' : κ' → Nat} {held : List κ}
  {held' : List κ'}

theorem count_bothHeld [BEq (κ ⊕ κ')] [LawfulBEq (κ ⊕ κ')] (i : κ ⊕ κ') :
    (bothHeld held held').count i = Sum.elim (fun i => held.count i) (fun i => held'.count i) i := by
  rw [bothHeld, List.count_append]
  cases i with
  | inl i =>
    rw [List.count_map_of_injective _ _ (fun _ _ => Sum.inl.inj), Sum.elim_inl]
    have hnone : (held'.map (Sum.inr (α := κ))).count (.inl i) = 0 :=
      List.count_eq_zero_of_not_mem (by simp)
    rw [hnone, Nat.add_zero]
  | inr i =>
    rw [List.count_map_of_injective _ _ (fun _ _ => Sum.inr.inj), Sum.elim_inr]
    have hnone : (held.map (Sum.inl (β := κ'))).count (.inr i) = 0 :=
      List.count_eq_zero_of_not_mem (by simp)
    rw [hnone, Nat.zero_add]

theorem owed_both : owed (Sum.elim count count') (bothHeld held held') =
    Sum.elim (owed count held) (owed count' held') := by
  funext i
  simp only [owed, count_bothHeld]
  cases i <;> rfl

theorem balanced_both : Balanced (Sum.elim count count') (bothHeld held held') ↔
    Balanced count held ∧ Balanced count' held' := by
  simp only [Balanced, count_bothHeld, Sum.forall, Sum.elim_inl, Sum.elim_inr]

end

/-! ## Runs -/

section
variable {κ : Type} {σ ε ρ : Type} (step : Machine.Step Fault σ ε ρ) (count : σ → κ → Nat)
  (held : σ → List κ)

/-- Some continuation gets every holder to give up what it holds, without a
fault. -/
def Closable (s : σ) : Prop :=
  ∃ es t s', Machine.run step s es = .ok (t, s') ∧ held s' = []

variable [DecidableEq κ]

/-- What the steps of a machine do with references. They keep an invariant. A step that
obeys the rules does not fault where the counts are in balance, and keeps the balance.
Any other step faults, or leaves a holder without a reference, which no step makes
good. -/
structure Accounts (Inv : σ → Prop) (Obeys : σ → ε → Prop) : Prop where
  inv : ∀ s e r s', Inv s → step s e = .ok (r, s') → Inv s'
  ok : ∀ s e, Inv s → Balanced (count s) (held s) → Obeys s e → ∃ r s', step s e = .ok (r, s')
  moves : ∀ s e r s', step s e = .ok (r, s') →
    Moves (Obeys s e) (owed (count s) (held s)) (owed (count s') (held s'))

variable {step count held} {Inv : σ → Prop} {Obeys : σ → ε → Prop}

/-- While all steps obey the rules, nothing is used after it was freed, and the
counts stay in balance. -/
theorem Accounts.run_balanced (ha : Accounts step count held Inv Obeys) {s : σ} {es : List ε}
    (hinv : Inv s) (hs : Balanced (count s) (held s)) (hes : Machine.Meets step Obeys s es) :
    ∃ t s', Machine.run step s es = .ok (t, s') ∧ (Inv s' ∧ Balanced (count s') (held s')) ∧
      ∀ x ∈ t, Inv x.post ∧ Balanced (count x.post) (held x.post) := by
  refine Machine.run_of_meets (I := fun s => Inv s ∧ Balanced (count s) (held s)) ?_ ⟨hinv, hs⟩ hes
  rintro s e ⟨hinv, hs⟩ hobeys
  obtain ⟨r, s', hok⟩ := ha.ok s e hinv hs hobeys
  have hs' := (ha.moves s e r s' hok).balanced hobeys hs
  have hinv' := ha.inv s e r s' hinv hok
  exact ⟨r, s', hok, ⟨hinv', hs'⟩, hinv', hs'⟩

/-- The steps of a run, taken together. -/
theorem Accounts.run_moves (ha : Accounts step count held Inv Obeys) {s s' : σ} {es : List ε}
    {t : List (Machine.Entry σ ε ρ)} (hrun : Machine.run step s es = .ok (t, s')) :
    Moves (Machine.Meets step Obeys s es) (owed (count s) (held s))
      (owed (count s') (held s')) := by
  induction es generalizing s t with
  | nil =>
    cases hrun
    exact .of_eq trivial fun _ => rfl
  | cons e es ih =>
    obtain ⟨r, s₁, t', hok, hrun', -⟩ := Machine.run_cons_inv hrun
    exact ((ha.moves s e r s₁ hok).trans (ih hrun')).congr (Machine.meets_cons_ok hok).symm

/-- From a balanced state everything can be given up, if some step gets nearer to it
while anything is held. -/
theorem Accounts.closable (ha : Accounts step count held Inv Obeys) (left : σ → Nat)
    (hrelease : ∀ s, Inv s → Balanced (count s) (held s) → held s ≠ [] →
      ∃ e, Obeys s e ∧ ∀ r s', step s e = .ok (r, s') → left s' < left s)
    {s : σ} (hinv : Inv s) (hs : Balanced (count s) (held s)) : Closable step held s := by
  induction hn : left s using Nat.strongRecOn generalizing s with
  | _ n ih =>
    by_cases hempty : held s = []
    · exact ⟨[], [], s, rfl, hempty⟩
    · obtain ⟨e, hobeys, hless⟩ := hrelease s hinv hs hempty
      obtain ⟨r, s', hok⟩ := ha.ok s e hinv hs hobeys
      have hs' := (ha.moves s e r s' hok).balanced hobeys hs
      have hinv' := ha.inv s e r s' hinv hok
      obtain ⟨es, t, s'', hrun, hclosed⟩ := ih _ (hn ▸ hless r s' hok) hinv' hs' rfl
      exact ⟨e :: es, ⟨s, e, r, s'⟩ :: t, s'', by rw [Machine.run_cons_ok hok, hrun], hclosed⟩

/-- Where a holder has no reference, no continuation gets rid of all holders. -/
theorem Accounts.not_closable (ha : Accounts step count held Inv Obeys) {s : σ}
    (hs : ∃ i, 0 < owed (count s) (held s) i) : ¬ Closable step held s := by
  rintro ⟨es, t, s', hrun, hclosed⟩
  obtain ⟨i, hi⟩ := hs
  have hmore := (ha.run_moves hrun).le i
  rw [hclosed] at hmore
  simp only [owed, List.count_nil] at hmore hi
  omega

/-- A run can be wound down from each of its states exactly if all its steps obey
the rules. -/
theorem Accounts.closable_iff_meets (ha : Accounts step count held Inv Obeys) (left : σ → Nat)
    (hrelease : ∀ s, Inv s → Balanced (count s) (held s) → held s ≠ [] →
      ∃ e, Obeys s e ∧ ∀ r s', step s e = .ok (r, s') → left s' < left s)
    {s : σ} (hinv : Inv s) (hs : Balanced (count s) (held s)) (es : List ε) :
    (∀ es₁, es₁ <+: es → ∃ t s', Machine.run step s es₁ = .ok (t, s') ∧ Closable step held s') ↔
      Machine.Meets step Obeys s es := by
  refine Machine.forall_prefix_iff_meets (R := fun _ => True) (fun _ _ => trivial) ?_ ?_
  · intro es₁ _ hmeets
    obtain ⟨t, s', hrun, ⟨hinv', hs'⟩, -⟩ := ha.run_balanced hinv hs hmeets
    exact ⟨t, s', hrun, ha.closable left hrelease hinv' hs'⟩
  · rintro es₁ e _ _ hmeets t s' hrun hviolates ⟨t', s'', hrun', hclosable⟩
    obtain ⟨t₁, s₁, hrun₁, ⟨-, hs₁⟩, -⟩ := ha.run_balanced hinv hs hmeets
    cases hrun.symm.trans hrun₁
    cases hok : step s' e with
    | error f => cases hrun'.symm.trans (Machine.run_snoc_error hrun hok)
    | ok a =>
      cases hrun'.symm.trans (Machine.run_snoc hrun hok)
      -- The step leaves a holder without a reference.
      obtain ⟨i, hi⟩ := (ha.moves s' e a.1 a.2 hok).more hviolates
      rw [balanced_iff.mp hs₁ i] at hi
      exact ha.not_closable ⟨i, hi⟩ hclosable

end

end Custody
