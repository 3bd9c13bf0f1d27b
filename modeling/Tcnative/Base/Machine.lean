-- SUMMARY: Runs of machines whose steps may fault, and the induction rules for invariants over whole runs.
import Mathlib.Data.List.Induction

/-!
# Machines

A machine steps on an event, returns a result, and may fault instead. A run
feeds a list of events to it and records every step. The rules below turn a
fact about one step into a fact about every run, possibly under a condition
that each step of the run has to meet.
-/

namespace Machine

variable {σ ε ρ φ : Type}

/-- A deterministic step function that may fault. -/
abbrev Step (φ σ ε ρ : Type) := σ → ε → Except φ (ρ × σ)

/-- One recorded step: the state it starts in, its event, its result and the
state it ends in. -/
structure Entry (σ ε ρ : Type) where
  pre : σ
  event : ε
  ret : ρ
  post : σ

/-- Feed the events to the machine in order. A fault ends the run. -/
def run (step : Step φ σ ε ρ) : σ → List ε → Except φ (List (Entry σ ε ρ) × σ)
  | s, [] => .ok ([], s)
  | s, e :: es =>
    match step s e with
    | .error f => .error f
    | .ok (r, s') =>
      match run step s' es with
      | .error f => .error f
      | .ok (t, s'') => .ok (⟨s, e, r, s'⟩ :: t, s'')

/-- Every step of the run starts in a state that satisfies `P` with its event. -/
def Meets (step : Step φ σ ε ρ) (P : σ → ε → Prop) : σ → List ε → Prop
  | _, [] => True
  | s, e :: es => P s e ∧ ∀ r s', step s e = .ok (r, s') → Meets step P s' es

/-- The run does not fault, and its trace and its final state satisfy `Q`. -/
def Ends (step : Step φ σ ε ρ) (Q : List (Entry σ ε ρ) → σ → Prop) (s : σ) (es : List ε) : Prop :=
  ∃ t s', run step s es = .ok (t, s') ∧ Q t s'

/-- A fault satisfies `F`, and a result satisfies `Q`. -/
def Sat {α : Type} (F : φ → Prop) (Q : α → Prop) : Except φ α → Prop
  | .error f => F f
  | .ok a => Q a

instance decidableSat {α : Type} {F : φ → Prop} {Q : α → Prop} [∀ f, Decidable (F f)]
    [∀ a, Decidable (Q a)] : (x : Except φ α) → Decidable (Sat F Q x)
  | .error f => inferInstanceAs (Decidable (F f))
  | .ok a => inferInstanceAs (Decidable (Q a))

variable {step : Step φ σ ε ρ} {P : σ → ε → Prop}

/-! ## Unfolding runs -/

@[simp] theorem run_nil (s : σ) : run step s [] = .ok ([], s) := rfl

theorem run_cons_ok {s s' : σ} {e : ε} {r : ρ} (h : step s e = .ok (r, s')) (es : List ε) :
    run step s (e :: es) =
      (match run step s' es with
        | .error f => .error f
        | .ok (t, s'') => .ok (⟨s, e, r, s'⟩ :: t, s'')) := by
  simp only [run, h]

theorem run_cons_inv {s s'' : σ} {e : ε} {es : List ε} {t : List (Entry σ ε ρ)}
    (h : run step s (e :: es) = .ok (t, s'')) :
    ∃ r s' t', step s e = .ok (r, s') ∧ run step s' es = .ok (t', s'') ∧
      t = ⟨s, e, r, s'⟩ :: t' := by
  simp only [run] at h
  split at h
  · cases h
  · rename_i r s' hstep
    split at h
    · cases h
    · rename_i t' s₁ hrun
      cases h
      exact ⟨r, s', t', hstep, hrun, rfl⟩

theorem run_append {s s' : σ} {es : List ε} {t : List (Entry σ ε ρ)}
    (h : run step s es = .ok (t, s')) (es' : List ε) :
    run step s (es ++ es') =
      (match run step s' es' with
        | .error f => .error f
        | .ok (t', s'') => .ok (t ++ t', s'')) := by
  induction es generalizing s t with
  | nil =>
    cases h
    simp only [List.nil_append]
    split <;> simp_all
  | cons e es ih =>
    obtain ⟨r, s₁, t₁, hstep, hrun, rfl⟩ := run_cons_inv h
    rw [List.cons_append, run_cons_ok hstep, ih hrun]
    cases run step s' es' <;> rfl

theorem run_snoc {s s' s'' : σ} {es : List ε} {t : List (Entry σ ε ρ)} {e : ε} {r : ρ}
    (h : run step s es = .ok (t, s')) (hstep : step s' e = .ok (r, s'')) :
    run step s (es ++ [e]) = .ok (t ++ [⟨s', e, r, s''⟩], s'') := by
  simp only [run_append h, run, hstep]

theorem run_snoc_error {s s' : σ} {es : List ε} {t : List (Entry σ ε ρ)} {e : ε} {f : φ}
    (h : run step s es = .ok (t, s')) (hstep : step s' e = .error f) :
    run step s (es ++ [e]) = .error f := by
  simp only [run_append h, run, hstep]

theorem ends_of_run {Q : List (Entry σ ε ρ) → σ → Prop} {s s' : σ} {es : List ε}
    {t : List (Entry σ ε ρ)} (h : run step s es = .ok (t, s')) : Ends step Q s es ↔ Q t s' := by
  simp [Ends, h]

theorem not_ends_of_error {Q : List (Entry σ ε ρ) → σ → Prop} {s : σ} {es : List ε} {f : φ}
    (h : run step s es = .error f) : ¬ Ends step Q s es := by
  simp [Ends, h]

instance decidableEnds {Q : List (Entry σ ε ρ) → σ → Prop} [∀ t s, Decidable (Q t s)] (s : σ)
    (es : List ε) : Decidable (Ends step Q s es) :=
  match h : run step s es with
  | .error _ => isFalse (not_ends_of_error h)
  | .ok (_, _) => decidable_of_iff _ (ends_of_run h).symm

/-! ## Results that may be faults -/

theorem Sat.imp {α : Type} {F F' : φ → Prop} {Q Q' : α → Prop} {x : Except φ α} (h : Sat F Q x)
    (hF : ∀ f, F f → F' f) (hQ : ∀ a, x = .ok a → Q a → Q' a) : Sat F' Q' x := by
  cases x with
  | error f => exact hF f h
  | ok a => exact hQ a rfl h

/-- A run whose faults are excluded ends. -/
theorem ends_of_sat {Q : List (Entry σ ε ρ) × σ → Prop} {s : σ} {es : List ε}
    (h : Sat (fun _ => False) Q (run step s es)) : Ends step (fun t s' => Q (t, s')) s es := by
  cases hrun : run step s es with
  | error f =>
    rw [hrun] at h
    exact h.elim
  | ok a =>
    rw [hrun] at h
    exact (ends_of_run hrun).mpr h

/-! ## Conditions on the steps of a run -/

theorem meets_append {s : σ} {es es' : List ε} :
    Meets step P s (es ++ es') ↔
      Meets step P s es ∧ ∀ t s', run step s es = .ok (t, s') → Meets step P s' es' := by
  induction es generalizing s with
  | nil => simp [Meets]
  | cons e es ih =>
    simp only [List.cons_append, Meets, ih]
    constructor
    · rintro ⟨hP, hrest⟩
      refine ⟨⟨hP, fun r s' hstep => (hrest r s' hstep).1⟩, ?_⟩
      intro t s'' hrun
      obtain ⟨r, s', t', hstep, hrun', -⟩ := run_cons_inv hrun
      exact (hrest r s' hstep).2 t' s'' hrun'
    · rintro ⟨⟨hP, hrest⟩, hlast⟩
      refine ⟨hP, fun r s' hstep => ⟨hrest r s' hstep, ?_⟩⟩
      intro t s'' hrun
      refine hlast (⟨s, e, r, s'⟩ :: t) s'' ?_
      rw [run_cons_ok hstep, hrun]

theorem meets_and {Q : σ → ε → Prop} {s : σ} {es : List ε} :
    Meets step (fun s e => P s e ∧ Q s e) s es ↔ Meets step P s es ∧ Meets step Q s es := by
  induction es generalizing s with
  | nil => simp [Meets]
  | cons e es ih =>
    simp only [Meets, ih]
    constructor
    · rintro ⟨⟨hP, hQ⟩, hrest⟩
      exact ⟨⟨hP, fun r s' h => (hrest r s' h).1⟩, hQ, fun r s' h => (hrest r s' h).2⟩
    · rintro ⟨⟨hP, hrestP⟩, hQ, hrestQ⟩
      exact ⟨⟨hP, hQ⟩, fun r s' h => ⟨hrestP r s' h, hrestQ r s' h⟩⟩

/-- A condition on the events alone. -/
theorem meets_of_forall {R : ε → Prop} {s : σ} {es : List ε} (h : ∀ e ∈ es, R e) :
    Meets step (fun _ e => R e) s es := by
  induction es generalizing s with
  | nil => trivial
  | cons e es ih =>
    exact ⟨h e List.mem_cons_self, fun _ _ _ => ih fun e' he' => h e' (List.mem_cons_of_mem _ he')⟩

theorem meets_cons_ok {s s' : σ} {e : ε} {r : ρ} (h : step s e = .ok (r, s')) {es : List ε} :
    Meets step P s (e :: es) ↔ P s e ∧ Meets step P s' es := by
  simp only [Meets, h, Except.ok.injEq, Prod.mk.injEq, and_imp]
  refine and_congr_right fun _ => ⟨fun hall => hall r s' rfl rfl, ?_⟩
  rintro hes _ _ rfl rfl
  exact hes

theorem meets_cons_error {s : σ} {e : ε} {f : φ} (h : step s e = .error f) {es : List ε} :
    Meets step P s (e :: es) ↔ P s e := by
  simp [Meets, h]

instance decidableMeets [∀ s e, Decidable (P s e)] :
    (s : σ) → (es : List ε) → Decidable (Meets step P s es)
  | _, [] => isTrue trivial
  | s, e :: es =>
    match h : step s e with
    | .error _ => decidable_of_iff _ (meets_cons_error h).symm
    | .ok (_, s') =>
      have := decidableMeets s' es
      decidable_of_iff _ (meets_cons_ok h).symm

/-- The condition can be checked prefix by prefix: it is enough that the next
step meets it whenever all the steps before it do. -/
theorem meets_of_prefixes {s : σ} {es : List ε}
    (h : ∀ es₁ e, es₁ ++ [e] <+: es → Meets step P s es₁ →
      ∀ t s', run step s es₁ = .ok (t, s') → P s' e) :
    Meets step P s es := by
  -- From the back: the last step is judged in the state that all the others reach.
  induction es using List.reverseRecOn with
  | nil => trivial
  | append_singleton es e ih =>
    have hes : Meets step P s es :=
      ih fun es₁ e₁ hpre => h es₁ e₁ (hpre.trans (List.prefix_append es [e]))
    refine meets_append.mpr ⟨hes, fun t s' hrun => ⟨h es e List.prefix_rfl hes t s' hrun, ?_⟩⟩
    intro r s'' _
    trivial

/-- A property of runs holds in every state that a run reaches if and only if
all its steps meet the condition, provided that it holds of runs whose steps
meet it and fails at the first step that does not. -/
theorem forall_prefix_iff_meets {R : ε → Prop} {Good : List ε → Prop} {s : σ} {es : List ε}
    (hes : ∀ e ∈ es, R e)
    (hgood : ∀ es, (∀ e ∈ es, R e) → Meets step P s es → Good es)
    (hbad : ∀ es e, (∀ e ∈ es, R e) → R e → Meets step P s es →
      ∀ t s', run step s es = .ok (t, s') → ¬ P s' e → ¬ Good (es ++ [e])) :
    (∀ es₁, es₁ <+: es → Good es₁) ↔ Meets step P s es := by
  constructor
  · intro h
    refine meets_of_prefixes fun es₁ e hpre hmeets t s' hrun => ?_
    -- The first step that fails the condition makes a prefix of the run bad.
    by_contra hP
    have hes₁ : ∀ e' ∈ es₁ ++ [e], R e' := fun e' he' => hes e' (hpre.subset he')
    exact hbad es₁ e (fun e' he' => hes₁ e' (List.mem_append_left _ he'))
      (hes₁ e (by simp)) hmeets t s' hrun hP (h _ hpre)
  · rintro h es₁ ⟨es₂, rfl⟩
    exact hgood es₁ (fun e he => hes e (List.mem_append_left _ he)) (meets_append.mp h).1

/-! ## Invariant rules -/

/-- A step that meets the condition keeps the invariant, does not fault and
satisfies `Q`. Then so does every run whose steps meet the condition. -/
theorem run_of_meets {I : σ → Prop} {Q : Entry σ ε ρ → Prop}
    (hstep : ∀ s e, I s → P s e → ∃ r s', step s e = .ok (r, s') ∧ I s' ∧ Q ⟨s, e, r, s'⟩)
    {s : σ} {es : List ε} (hs : I s) (hes : Meets step P s es) :
    ∃ t s', run step s es = .ok (t, s') ∧ I s' ∧ ∀ x ∈ t, Q x := by
  induction es generalizing s with
  | nil => exact ⟨[], s, rfl, hs, by simp⟩
  | cons e es ih =>
    obtain ⟨hP, hrest⟩ := hes
    obtain ⟨r, s₁, hok, hs₁, hQ⟩ := hstep s e hs hP
    obtain ⟨t, s₂, hrun, hs₂, ht⟩ := ih hs₁ (hrest r s₁ hok)
    refine ⟨⟨s, e, r, s₁⟩ :: t, s₂, ?_, hs₂, ?_⟩
    · rw [run_cons_ok hok, hrun]
    · rintro x hx
      rcases List.mem_cons.mp hx with rfl | hx
      · exact hQ
      · exact ht x hx

/-- The rule for steps without a condition. -/
theorem run_invariant {I : σ → Prop} {Q : Entry σ ε ρ → Prop}
    (hstep : ∀ s e, I s → ∃ r s', step s e = .ok (r, s') ∧ I s' ∧ Q ⟨s, e, r, s'⟩)
    {s : σ} (hs : I s) (es : List ε) :
    Ends step (fun t s' => I s' ∧ ∀ x ∈ t, Q x) s es := by
  have hes : Meets step (fun _ _ => True) s es := meets_of_forall fun _ _ => trivial
  exact run_of_meets (fun s e hs _ => hstep s e hs) hs hes

/-- A step that meets the condition keeps the invariant and satisfies `Q`, or
faults with `F`. Then so does every run whose steps meet the condition. -/
theorem run_sat {I : σ → Prop} {F : φ → Prop} {Q : Entry σ ε ρ → Prop}
    (hstep : ∀ s e, I s → P s e → Sat F (fun a => I a.2 ∧ Q ⟨s, e, a.1, a.2⟩) (step s e))
    {s : σ} {es : List ε} (hs : I s) (hes : Meets step P s es) :
    Sat F (fun a => I a.2 ∧ ∀ x ∈ a.1, Q x) (run step s es) := by
  induction es generalizing s with
  | nil => exact ⟨hs, by simp⟩
  | cons e es ih =>
    obtain ⟨hP, hrest⟩ := hes
    have hone := hstep s e hs hP
    cases hok : step s e with
    | error f =>
      rw [hok] at hone
      simp only [run, hok]
      exact hone
    | ok a =>
      obtain ⟨r, s₁⟩ := a
      rw [hok] at hone
      rw [run_cons_ok hok]
      obtain ⟨hs₁, hQ⟩ := hone
      have htail := ih hs₁ (hrest r s₁ hok)
      cases hrun : run step s₁ es with
      | error f =>
        rw [hrun] at htail
        exact htail
      | ok b =>
        rw [hrun] at htail
        refine ⟨htail.1, ?_⟩
        rintro x hx
        rcases List.mem_cons.mp hx with rfl | hx
        · exact hQ
        · exact htail.2 x hx

/-- The rule for an invariant and a property that also speak of the steps before. -/
theorem run_sat_traced {I : List (Entry σ ε ρ) → σ → Prop} {F : φ → Prop}
    {Q : List (Entry σ ε ρ) → Entry σ ε ρ → Prop}
    (hstep : ∀ t s e, I t s → P s e →
      Sat F (fun a => I (t ++ [⟨s, e, a.1, a.2⟩]) a.2 ∧ Q t ⟨s, e, a.1, a.2⟩) (step s e))
    {s : σ} {es : List ε} (hs : I [] s) (hes : Meets step P s es) :
    Sat F (fun a => I a.1 a.2 ∧ ∀ before x after, a.1 = before ++ x :: after → Q before x)
      (run step s es) := by
  -- From any trace that has led to the state.
  suffices hfrom : ∀ t₀, I t₀ s → Sat F (fun a => I (t₀ ++ a.1) a.2 ∧
      ∀ before x after, a.1 = before ++ x :: after → Q (t₀ ++ before) x) (run step s es) from
    hfrom [] hs
  clear hs
  induction es generalizing s with
  | nil =>
    intro t₀ hs
    refine ⟨by rwa [List.append_nil], fun before x after h => ?_⟩
    cases before <;> cases h
  | cons e es ih =>
    obtain ⟨hP, hrest⟩ := hes
    intro t₀ hs
    have hone := hstep t₀ s e hs hP
    cases hok : step s e with
    | error f =>
      rw [hok] at hone
      simp only [run, hok]
      exact hone
    | ok a =>
      obtain ⟨r, s₁⟩ := a
      rw [hok] at hone
      rw [run_cons_ok hok]
      obtain ⟨hs₁, hQ⟩ := hone
      have htail := ih (hrest r s₁ hok) _ hs₁
      cases hrun : run step s₁ es with
      | error f =>
        rw [hrun] at htail
        exact htail
      | ok b =>
        rw [hrun] at htail
        obtain ⟨hI, hQs⟩ := htail
        refine ⟨by rwa [List.append_assoc] at hI, fun before x after h => ?_⟩
        cases before with
        | nil =>
          obtain ⟨rfl, -⟩ := List.cons.inj h
          rwa [List.append_nil]
        | cons y before =>
          obtain ⟨rfl, htail⟩ := List.cons.inj h
          have hx := hQs before x after htail
          rwa [List.append_assoc] at hx

/-- A step that does not fault keeps the invariant, and satisfies `Q` exactly if
it meets the condition. Then the steps of a run all satisfy `Q` exactly if they
all meet the condition. -/
theorem ends_iff_meets {I : σ → Prop} {Q : Entry σ ε ρ → Prop}
    (hstep : ∀ s e, I s → ∃ r s', step s e = .ok (r, s') ∧ I s' ∧ (Q ⟨s, e, r, s'⟩ ↔ P s e))
    {s : σ} (hs : I s) (es : List ε) :
    Ends step (fun t _ => ∀ x ∈ t, Q x) s es ↔ Meets step P s es := by
  induction es generalizing s with
  | nil => exact ⟨fun _ => trivial, fun _ => ⟨[], s, rfl, by simp⟩⟩
  | cons e es ih =>
    obtain ⟨r, s₁, hok, hs₁, hiff⟩ := hstep s e hs
    rw [meets_cons_ok hok, ← hiff, ← ih hs₁]
    constructor
    · rintro ⟨t, s₂, hrun, ht⟩
      obtain ⟨r', s', t', hok', hrun', rfl⟩ := run_cons_inv hrun
      cases hok.symm.trans hok'
      exact ⟨ht _ List.mem_cons_self, t', s₂, hrun', fun x hx => ht x (List.mem_cons_of_mem _ hx)⟩
    · rintro ⟨hQ, t, s₂, hrun, ht⟩
      refine ⟨⟨s, e, r, s₁⟩ :: t, s₂, by rw [run_cons_ok hok, hrun], ?_⟩
      rintro x hx
      rcases List.mem_cons.mp hx with rfl | hx
      · exact hQ
      · exact ht x hx

/-- An invariant that relates the state to the events that led to it. -/
theorem run_history {I : List ε → σ → Prop}
    (hstep : ∀ es s e, I es s → ∃ r s', step s e = .ok (r, s') ∧ I (es ++ [e]) s')
    {s : σ} (hs : I [] s) (es : List ε) : Ends step (fun _ s' => I es s') s es := by
  induction es using List.reverseRecOn with
  | nil => exact ⟨[], s, rfl, hs⟩
  | append_singleton es e ih =>
    obtain ⟨t, s₁, hrun, hs₁⟩ := ih
    obtain ⟨r, s₂, hok, hs₂⟩ := hstep es s₁ e hs₁
    exact ⟨_, s₂, run_snoc hrun hok, hs₂⟩

/-- An invariant of the trace and the state, for a run that is known to end. -/
theorem run_traced {I : List (Entry σ ε ρ) → σ → Prop} {R : ε → Prop}
    (hstep : ∀ t s e r s', I t s → R e → step s e = .ok (r, s') → I (t ++ [⟨s, e, r, s'⟩]) s')
    {s s' : σ} {es : List ε} {t : List (Entry σ ε ρ)} (hs : I [] s) (hes : ∀ e ∈ es, R e)
    (hrun : run step s es = .ok (t, s')) : I t s' := by
  -- From any trace that has led to the state.
  suffices hfrom : ∀ t₀, I t₀ s → I (t₀ ++ t) s' from hfrom [] hs
  clear hs
  induction es generalizing s t with
  | nil =>
    cases hrun
    intro t₀ hs
    rwa [List.append_nil]
  | cons e es ih =>
    obtain ⟨r, s₁, t', hok, hrun', rfl⟩ := run_cons_inv hrun
    intro t₀ hs
    have hone := hstep t₀ s e r s₁ hs (hes e List.mem_cons_self) hok
    have hrest := ih (fun e' he' => hes e' (List.mem_cons_of_mem _ he')) hrun' _ hone
    rwa [List.append_assoc] at hrest

/-- A view of the state that every recorded step extends by what the step adds
is extended by the whole trace. -/
theorem run_conserves {α : Type} (view : σ → List α) {added : Entry σ ε ρ → List α}
    {s s' : σ} {es : List ε} {t : List (Entry σ ε ρ)} (hrun : run step s es = .ok (t, s'))
    (hadd : ∀ x ∈ t, view x.post = view x.pre ++ added x) :
    view s' = view s ++ t.flatMap added := by
  induction es generalizing s t with
  | nil => cases hrun; simp
  | cons e es ih =>
    obtain ⟨r, s₁, t', _, hrun', rfl⟩ := run_cons_inv hrun
    have hhead : view s₁ = view s ++ added ⟨s, e, r, s₁⟩ := hadd _ List.mem_cons_self
    have htail := ih hrun' fun x hx => hadd x (List.mem_cons_of_mem _ hx)
    rw [htail, hhead, List.flatMap_cons, List.append_assoc]

/-- A view of the state that every step changes as its event says is that of the
changes one after the other. -/
theorem run_folds {α κ : Type} (view : σ → α) {change : ε → Option κ} {apply : α → κ → α}
    (hstep : ∀ s e r s', step s e = .ok (r, s') →
      view s' = (change e).toList.foldl apply (view s))
    {s s' : σ} {es : List ε} {t : List (Entry σ ε ρ)} (hrun : run step s es = .ok (t, s')) :
    view s' = (es.filterMap change).foldl apply (view s) := by
  induction es generalizing s t with
  | nil =>
    cases hrun
    rfl
  | cons e es ih =>
    obtain ⟨r, s₁, t', hok, hrun', rfl⟩ := run_cons_inv hrun
    rw [ih hrun', hstep s e r s₁ hok, ← List.foldl_append]
    congr 1
    cases h : change e <;> simp [h]

end Machine
