-- SUMMARY: Functions that call a library and raise exceptions, built from parts that may leave early.
import Mathlib.Data.List.Basic

/-!
# Call logs

A function that calls a library is a sequence of parts. Each part logs its calls
and its exceptions, and either lets the function go on or leaves it. Raising an
exception does not leave a function by itself. A part is careful if it leaves
when it has raised one, and careful parts make a careful function.
-/

namespace CallLog

variable {σ κ τ : Type}

/-- What a function does that is seen outside: a library call, or an exception. -/
inductive Action (κ τ : Type) where
  | call (c : κ)
  | throw (t : τ)
  deriving DecidableEq

/-- No exception is raised. -/
def Quiet (log : List (Action κ τ)) : Prop := ∀ t, .throw t ∉ log

instance decidableQuiet : (log : List (Action κ τ)) → Decidable (Quiet log)
  | [] => isTrue (by simp [Quiet])
  | .call _ :: log =>
    have := decidableQuiet log
    decidable_of_iff (Quiet log) (by simp [Quiet])
  | .throw t :: _ => isFalse fun h => h t List.mem_cons_self

/-- No call behind the first exception satisfies `p`. -/
def Stops (p : κ → Prop) : List (Action κ τ) → Prop
  | [] => True
  | .call _ :: log => Stops p log
  | .throw _ :: log => ∀ c, .call c ∈ log → ¬ p c

/-- A part of a function: its log, the state it leaves, and whether the function
goes on. -/
abbrev Part (σ κ τ : Type) := σ → List (Action κ τ) × σ × Bool

/-- The second part runs where the first one lets the function go on. -/
def Part.andThen (p q : Part σ κ τ) : Part σ κ τ := fun s =>
  match p s with
  | (log, s, false) => (log, s, false)
  | (log, s, true) => (log ++ (q s).1, (q s).2)

/-- Nothing is done. -/
def Part.skip : Part σ κ τ := fun s => ([], s, true)

/-- The function raises an exception and is left. -/
def Part.raise (t : τ) : Part σ κ τ := fun s => ([.throw t], s, false)

/-- A call that changes the state if it succeeds, and whose failure is raised.
Whether the function goes on behind the failure is its own choice. -/
def Part.attempt (succeeds : Bool) (c : κ) (effect : σ → σ) (t : τ) (goesOn : Bool) :
    Part σ κ τ := fun s =>
  if succeeds then ([.call c], effect s, true) else ([.call c, .throw t], s, goesOn)

/-- Where the part raises nothing, the function goes on in the second state. -/
def Does (p : Part σ κ τ) (s s' : σ) : Prop := Quiet (p s).1 → (p s).2 = (s', true)

/-- The function goes on behind a part only if this has raised nothing, and the
part itself does nothing more behind an exception. -/
structure Careful (modifies : κ → Prop) (p : Part σ κ τ) (s : σ) : Prop where
  leaves : (p s).2.2 = true → Quiet (p s).1
  stops : Stops modifies (p s).1

/-! ## Logs -/

@[simp] theorem quiet_nil : Quiet ([] : List (Action κ τ)) := by simp [Quiet]

@[simp] theorem quiet_call (c : κ) (log : List (Action κ τ)) :
    Quiet (.call c :: log) ↔ Quiet log := by
  simp [Quiet]

@[simp] theorem not_quiet_throw (t : τ) (log : List (Action κ τ)) : ¬ Quiet (.throw t :: log) :=
  fun h => h t List.mem_cons_self

@[simp] theorem quiet_append (log log' : List (Action κ τ)) :
    Quiet (log ++ log') ↔ Quiet log ∧ Quiet log' := by
  simp only [Quiet, List.mem_append, not_or]
  exact forall_and

section
variable {p : κ → Prop}

theorem Quiet.stops {log : List (Action κ τ)} (h : Quiet log) : Stops p log := by
  induction log with
  | nil => trivial
  | cons a log ih =>
    cases a with
    | call c => exact ih ((quiet_call c log).mp h)
    | throw t => exact absurd h (not_quiet_throw t log)

theorem Quiet.stops_append {log : List (Action κ τ)} (h : Quiet log) (log' : List (Action κ τ)) :
    Stops p (log ++ log') ↔ Stops p log' := by
  induction log with
  | nil => exact Iff.rfl
  | cons a log ih =>
    cases a with
    | call c => exact ih ((quiet_call c log).mp h)
    | throw t => exact absurd h (not_quiet_throw t log)

/-- Behind an exception that does not end the function, no further call may
satisfy `p`. -/
theorem stops_append_of_throw {log log' : List (Action κ τ)} (hstops : Stops p log)
    (h : ¬ Quiet log) : Stops p (log ++ log') ↔ ∀ c, .call c ∈ log' → ¬ p c := by
  induction log with
  | nil => exact absurd quiet_nil h
  | cons a log ih =>
    cases a with
    | call c => exact ih hstops (fun hlog => h ((quiet_call c log).mpr hlog))
    | throw t =>
      simp only [List.cons_append, Stops, List.mem_append] at hstops ⊢
      constructor
      · intro hall c hc
        exact hall c (.inr hc)
      · rintro hall c (hc | hc)
        · exact hstops c hc
        · exact hall c hc

end

/-! ## Parts -/

/-- A function of two parts. -/
theorem andThen_cases (p q : Part σ κ τ) (s : σ) :
    ((p s).2.2 = false ∧ p.andThen q s = p s) ∨
    ((p s).2.2 = true ∧
      p.andThen q s = ((p s).1 ++ (q (p s).2.1).1, (q (p s).2.1).2)) := by
  unfold Part.andThen
  obtain ⟨log, s', goesOn⟩ := p s
  cases goesOn with
  | false => exact .inl ⟨rfl, rfl⟩
  | true => exact .inr ⟨rfl, rfl⟩

theorem mem_andThen {p q : Part σ κ τ} {s : σ} {a : Action κ τ} (h : a ∈ (p s).1) :
    a ∈ (p.andThen q s).1 := by
  rcases andThen_cases p q s with ⟨-, heq⟩ | ⟨-, heq⟩
  · rwa [heq]
  · rw [heq]
    exact List.mem_append_left _ h

@[simp] theorem skip_andThen (p : Part σ κ τ) : Part.skip.andThen p = p := rfl

theorem call_mem_attempt (succeeds : Bool) (c : κ) (effect : σ → σ) (t : τ) (goesOn : Bool)
    (s : σ) : .call c ∈ (Part.attempt succeeds c effect t goesOn s).1 := by
  cases succeeds <;> simp [Part.attempt]

/-! ## Parts that raise nothing -/

theorem does_skip (s : σ) : Does (Part.skip : Part σ κ τ) s s := fun _ => rfl

theorem does_raise (t : τ) (s s' : σ) : Does (Part.raise t : Part σ κ τ) s s' := by
  intro h
  exact absurd h (not_quiet_throw t [])

theorem does_attempt {succeeds : Bool} {c : κ} {effect : σ → σ} {t : τ} {goesOn : Bool} (s : σ) :
    Does (Part.attempt succeeds c effect t goesOn) s (effect s) := by
  intro h
  cases succeeds with
  | true => rfl
  | false => simp [Part.attempt] at h

theorem Does.andThen {p q : Part σ κ τ} {s s₁ s₂ : σ} (hp : Does p s s₁) (hq : Does q s₁ s₂) :
    Does (p.andThen q) s s₂ := by
  intro h
  rcases andThen_cases p q s with ⟨hleaves, heq⟩ | ⟨-, heq⟩
  · rw [heq] at h
    simp [hp h] at hleaves
  · rw [heq] at h ⊢
    obtain ⟨hquiet, hrest⟩ := (quiet_append _ _).mp h
    rw [hp hquiet] at hrest ⊢
    exact hq hrest

/-! ## Careful parts -/

theorem careful_skip (modifies : κ → Prop) (s : σ) :
    Careful modifies (Part.skip : Part σ κ τ) s where
  leaves _ := quiet_nil
  stops := trivial

theorem stops_attempt (modifies : κ → Prop) (succeeds : Bool) (c : κ) (effect : σ → σ) (t : τ)
    (goesOn : Bool) (s : σ) :
    Stops modifies (Part.attempt succeeds c effect t goesOn s).1 := by
  cases succeeds <;> simp [Part.attempt, Stops]

/-- A call that is left when it fails. -/
theorem careful_attempt (modifies : κ → Prop) (succeeds : Bool) (c : κ) (effect : σ → σ) (t : τ)
    (s : σ) : Careful modifies (Part.attempt succeeds c effect t false) s where
  leaves h := by
    cases succeeds with
    | false => cases h
    | true => simp [Part.attempt]
  stops := stops_attempt modifies succeeds c effect t false s

theorem Careful.andThen {modifies : κ → Prop} {p q : Part σ κ τ} {s : σ}
    (hp : Careful modifies p s)
    (hq : (p s).2.2 = true → Careful modifies q (p s).2.1) :
    Careful modifies (p.andThen q) s := by
  rcases andThen_cases p q s with ⟨hleaves, heq⟩ | ⟨hgoes, heq⟩
  · constructor
    · rw [heq]
      exact hp.leaves
    · rw [heq]
      exact hp.stops
  · have hquiet := hp.leaves hgoes
    have hq := hq hgoes
    constructor
    · rw [heq]
      intro hlast
      exact (quiet_append _ _).mpr ⟨hquiet, hq.leaves hlast⟩
    · rw [heq]
      exact (hquiet.stops_append _).mpr hq.stops

end CallLog
