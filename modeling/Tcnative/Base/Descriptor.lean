-- SUMMARY: Method descriptors of the Java virtual machine: their texts, a parser, and which calls fit one.
import Mathlib.Data.List.TakeWhile

/-!
# Method descriptors

A method is looked up with the text of its descriptor. A native call passes its
arguments without their types, so the descriptor alone says whether the call fits
the method.
-/

namespace Jvm

/-! ## Types -/

inductive Primitive where
  | boolean
  | byte
  | char
  | short
  | int
  | long
  | float
  | double
  deriving DecidableEq, Repr

def Primitive.letter : Primitive → Char
  | .boolean => 'Z'
  | .byte => 'B'
  | .char => 'C'
  | .short => 'S'
  | .int => 'I'
  | .long => 'J'
  | .float => 'F'
  | .double => 'D'

def Primitive.ofLetter : Char → Option Primitive
  | 'Z' => some .boolean
  | 'B' => some .byte
  | 'C' => some .char
  | 'S' => some .short
  | 'I' => some .int
  | 'J' => some .long
  | 'F' => some .float
  | 'D' => some .double
  | _ => none

/-- The name of a class, which a semicolon ends. -/
abbrev ClassName := { name : List Char // ';' ∉ name }

inductive JType where
  | primitive (p : Primitive)
  | object (name : ClassName)
  | array (elem : JType)
  deriving DecidableEq

def JType.text : JType → List Char
  | .primitive p => [p.letter]
  | .object name => 'L' :: (name.val ++ [';'])
  | .array elem => '[' :: elem.text

/-- A method descriptor. A result of `none` is `void`. -/
structure Descriptor where
  params : List JType
  result : Option JType
  deriving DecidableEq

/-- The text of a result. -/
def resultText : Option JType → List Char
  | none => ['V']
  | some t => t.text

def Descriptor.text (d : Descriptor) : List Char :=
  '(' :: (d.params.flatMap JType.text ++ ')' :: resultText d.result)

/-! ## The parser -/

theorem semicolon_not_mem (cs : List Char) : ';' ∉ cs.takeWhile (· != ';') := by
  intro h
  simpa using List.mem_takeWhile_imp h

/-- The class name in front of a semicolon, and what is behind it. -/
def parseClass (cs : List Char) : Option (ClassName × List Char) :=
  match cs.dropWhile (· != ';') with
  | [] => none
  | _ :: rest => some (⟨cs.takeWhile (· != ';'), semicolon_not_mem cs⟩, rest)

/-- One type, and what is behind it. -/
def parseType : List Char → Option (JType × List Char)
  | [] => none
  | 'L' :: cs => (parseClass cs).map fun (name, rest) => (.object name, rest)
  | '[' :: cs => (parseType cs).map fun (t, rest) => (.array t, rest)
  | c :: cs => (Primitive.ofLetter c).map fun p => (.primitive p, cs)

/-- The types in front of a closing parenthesis, and what is behind it. Each
consumes a character, so the length of the text is enough fuel. -/
def parseParams : Nat → List Char → Option (List JType × List Char)
  | _, ')' :: cs => some ([], cs)
  | 0, _ => none
  | fuel + 1, cs => do
    let (t, rest) ← parseType cs
    let (ts, rest) ← parseParams fuel rest
    return (t :: ts, rest)

def parseResult : List Char → Option (Option JType)
  | ['V'] => some none
  | cs =>
    match parseType cs with
    | some (t, []) => some (some t)
    | _ => none

def parseDescriptor : List Char → Option Descriptor
  | '(' :: cs => do
    let (params, rest) ← parseParams cs.length cs
    let result ← parseResult rest
    return ⟨params, result⟩
  | _ => none

/-! ## The parser accepts texts of descriptors only -/

theorem Primitive.letter_of_ofLetter {c : Char} {p : Primitive} (h : ofLetter c = some p) :
    p.letter = c := by
  unfold ofLetter at h
  split at h
  all_goals cases h
  all_goals rfl

theorem parseClass_sound {cs rest : List Char} {name : ClassName}
    (h : parseClass cs = some (name, rest)) : cs = name.val ++ ';' :: rest := by
  have hsplit := List.takeWhile_append_dropWhile (p := (· != ';')) (l := cs)
  unfold parseClass at h
  split at h
  · cases h
  · rename_i c rest' hdrop
    have hc : c = ';' := by
      have hhead := List.head?_dropWhile_not (· != ';') cs
      simpa [hdrop] using hhead
    cases h
    rw [hdrop, hc] at hsplit
    exact hsplit.symm

theorem parseType_sound {cs rest : List Char} {t : JType} (h : parseType cs = some (t, rest)) :
    cs = t.text ++ rest := by
  induction cs using parseType.induct generalizing t with
  | case1 => cases h
  | case2 cs =>
    simp only [parseType, Option.map_eq_some_iff, Prod.mk.injEq, Prod.exists] at h
    obtain ⟨name, rest', hclass, rfl, rfl⟩ := h
    rw [parseClass_sound hclass]
    simp [JType.text]
  | case3 cs ih =>
    simp only [parseType, Option.map_eq_some_iff, Prod.mk.injEq, Prod.exists] at h
    obtain ⟨elem, rest', helem, rfl, rfl⟩ := h
    rw [ih helem]
    rfl
  | case4 c cs hclass harray =>
    simp only [parseType, Option.map_eq_some_iff, Prod.mk.injEq] at h
    obtain ⟨p, hp, rfl, rfl⟩ := h
    rw [← Primitive.letter_of_ofLetter hp]
    rfl

theorem parseParams_sound {fuel : Nat} {cs rest : List Char} {ts : List JType}
    (h : parseParams fuel cs = some (ts, rest)) : cs = ts.flatMap JType.text ++ ')' :: rest := by
  induction fuel, cs using parseParams.induct generalizing ts with
  | case1 fuel cs =>
    rw [parseParams] at h
    cases h
    rfl
  | case2 cs hclose =>
    rw [parseParams] at h
    · cases h
    · exact hclose
  | case3 fuel cs hclose ih =>
    rw [parseParams] at h
    · simp only [Option.bind_eq_bind, Option.bind_eq_some_iff, Prod.exists, Option.pure_def,
        Option.some.injEq, Prod.mk.injEq] at h
      obtain ⟨t, mid, ht, ts', rest', hts, rfl, rfl⟩ := h
      rw [parseType_sound ht, ih mid hts, List.flatMap_cons, List.append_assoc]
    · exact hclose

theorem parseResult_sound {cs : List Char} {result : Option JType}
    (h : parseResult cs = some result) : cs = resultText result := by
  unfold parseResult at h
  split at h
  · cases h
    rfl
  · split at h
    · rename_i ht
      cases h
      rw [parseType_sound ht, List.append_nil]
      rfl
    · cases h

theorem parseDescriptor_sound {cs : List Char} {d : Descriptor}
    (h : parseDescriptor cs = some d) : cs = d.text := by
  unfold parseDescriptor at h
  split at h
  · simp only [Option.bind_eq_bind, Option.bind_eq_some_iff, Prod.exists, Option.pure_def,
      Option.some.injEq] at h
    obtain ⟨params, rest, hparams, result, hresult, rfl⟩ := h
    rw [parseParams_sound hparams, parseResult_sound hresult]
    rfl
  · cases h

/-! ## The parser accepts the text of every descriptor -/

theorem parseClass_text (name : ClassName) (rest : List Char) :
    parseClass (name.val ++ ';' :: rest) = some (name, rest) := by
  have hall : ∀ c ∈ name.val, (c != ';') = true := by
    intro c hc
    simpa using ne_of_mem_of_not_mem hc name.property
  have htake : (name.val ++ ';' :: rest).takeWhile (· != ';') = name.val := by
    rw [List.takeWhile_append_of_pos hall]
    simp
  have hdrop : (name.val ++ ';' :: rest).dropWhile (· != ';') = ';' :: rest := by
    rw [List.dropWhile_append_of_pos hall]
    simp
  simp only [parseClass, hdrop, htake]

theorem parseType_text (t : JType) (rest : List Char) :
    parseType (t.text ++ rest) = some (t, rest) := by
  induction t with
  | primitive p => cases p <;> rfl
  | object name => simp [JType.text, parseType, parseClass_text]
  | array elem ih => simp [JType.text, parseType, ih]

theorem JType.text_ne_nil (t : JType) : t.text ≠ [] := by
  cases t <;> simp [text]

/-- No type starts with a closing parenthesis. -/
theorem JType.text_head (t : JType) (cs rest : List Char) : t.text ++ rest ≠ ')' :: cs := by
  intro h
  have hparse := parseType_text t rest
  rw [h] at hparse
  cases hparse

theorem parseParams_text (ts : List JType) {fuel : Nat} (rest : List Char)
    (hfuel : ts.length ≤ fuel) :
    parseParams fuel (ts.flatMap JType.text ++ ')' :: rest) = some (ts, rest) := by
  induction ts generalizing fuel with
  | nil => unfold parseParams; rfl
  | cons t ts ih =>
    cases fuel with
    | zero => cases hfuel
    | succ fuel =>
      have hrest := ih (Nat.le_of_succ_le_succ hfuel)
      rw [parseParams]
      · simp [parseType_text, hrest]
      · intro cs
        rw [List.flatMap_cons, List.append_assoc]
        exact t.text_head cs _

/-- Each type takes a character at least. -/
theorem length_le_flatMap_text (ts : List JType) : ts.length ≤ (ts.flatMap JType.text).length := by
  induction ts with
  | nil => exact Nat.le_refl 0
  | cons t ts ih =>
    have ht := List.length_pos_iff.mpr t.text_ne_nil
    rw [List.flatMap_cons, List.length_append, List.length_cons]
    omega

theorem parseResult_text (result : Option JType) :
    parseResult (resultText result) = some result := by
  cases result with
  | none => rfl
  | some t =>
    have hparse := parseType_text t []
    rw [List.append_nil] at hparse
    unfold parseResult
    split
    · rename_i hvoid
      rw [show t.text = ['V'] from hvoid] at hparse
      cases hparse
    · simp only [resultText, hparse]

theorem parseDescriptor_text (d : Descriptor) : parseDescriptor d.text = some d := by
  have hfuel : d.params.length ≤
      (d.params.flatMap JType.text ++ ')' :: resultText d.result).length := by
    rw [List.length_append]
    exact Nat.le_add_right_of_le (length_le_flatMap_text d.params)
  simp only [Descriptor.text, parseDescriptor, parseParams_text _ _ hfuel, parseResult_text,
    Option.bind_eq_bind, Option.bind_some, Option.pure_def]

/-! ## Void methods -/

theorem JType.text_getLast (t : JType) : t.text.getLast? ≠ some 'V' := by
  induction t with
  | primitive p => cases p <;> decide
  | object name => simp [text, List.getLast?_cons]
  | array elem ih =>
    rw [text, List.getLast?_cons]
    cases hlast : elem.text.getLast? with
    | none => decide
    | some c =>
      rw [hlast] at ih
      simpa using ih

/-- A text that ends in `V` is that of a void method, whatever is before it. -/
theorem parseDescriptor_void {cs : List Char} {d : Descriptor} (h : parseDescriptor cs = some d)
    (hlast : cs.getLast? = some 'V') : d.result = none := by
  rw [parseDescriptor_sound h] at hlast
  cases hresult : d.result with
  | none => rfl
  | some t =>
    refine absurd ?_ t.text_getLast
    obtain ⟨c, hc⟩ : ∃ c, t.text.getLast? = some c :=
      Option.isSome_iff_exists.mp (by simpa using t.text_ne_nil)
    rw [← hlast]
    simp [Descriptor.text, resultText, hresult, List.getLast?_cons, List.getLast?_append, hc]

/-! ## Calls -/

/-- How a value is passed to a native call, or read from one. Smaller integers are
promoted to `int`, and `float` to `double`. -/
inductive Kind where
  | int
  | long
  | double
  | reference
  deriving DecidableEq, Repr

def JType.kind : JType → Kind
  | .primitive .long => .long
  | .primitive .float | .primitive .double => .double
  | .primitive _ => .int
  | .object _ | .array _ => .reference

/-- A call fits a method if it passes its parameters and reads its result. -/
def Descriptor.Fits (d : Descriptor) (passed : List Kind) (result : Option Kind) : Prop :=
  d.params.map JType.kind = passed ∧ d.result.map JType.kind = result

instance (d : Descriptor) (passed : List Kind) (result : Option Kind) :
    Decidable (d.Fits passed result) := inferInstanceAs (Decidable (_ ∧ _))

/-- A method that takes a `long` and two objects, and returns an `int`. -/
example : (Jvm.parseDescriptor "(J[[BLjava/lang/String;)I".toList).any
    fun d => d.Fits [.long, .reference, .reference] (some .int) := by decide

end Jvm
