-- SUMMARY: PEM input as its readers see it, and the error queue of a thread that the readers push to.
import Tcnative.Base.Memory

/-!
# PEM input

The input of a chain parser is the sequence of PEM blocks that a reader finds in
it. `PEM_read_bio` returns every block, and `PEM_read_bio_X509` returns the
certificates and skips the other blocks. Where a reader returns NULL it pushes an
error to the queue of the thread, which may hold older errors of earlier calls.
-/

namespace Chain

/-! ## The error queue -/

/-- A packed error code: the library that reports it, and the reason. -/
structure ErrorCode where
  lib : Nat
  reason : Nat
  deriving DecidableEq, Repr

/-- `ERR_LIB_PEM`. -/
def errLibPem : Nat := 9

/-- `PEM_R_NO_START_LINE`. -/
def pemRNoStartLine : Nat := 108

/-- The error of a reader that finds no further block. -/
def noStartLine : ErrorCode := ⟨errLibPem, pemRNoStartLine⟩

/-- The test `ERR_GET_LIB(error) == ERR_LIB_PEM && ERR_GET_REASON(error) == PEM_R_NO_START_LINE`. -/
def ErrorCode.IsNoStartLine (e : ErrorCode) : Prop := e.lib = errLibPem ∧ e.reason = pemRNoStartLine

instance (e : ErrorCode) : Decidable e.IsNoStartLine := inferInstanceAs (Decidable (_ ∧ _))

/-- The queue, the oldest error first. -/
abbrev ErrorQueue := List ErrorCode

/-- `ERR_peek_error`. `none` is zero. -/
def errPeekError (q : ErrorQueue) : Option ErrorCode := q.head?

/-! ## Blocks -/

/-- A block: its type name and its DER payload. -/
structure Block where
  name : String
  data : List Byte
  deriving DecidableEq, Repr

/-- The names that `PEM_read_bio_X509` takes for a certificate. -/
def Block.IsCertificate (b : Block) : Prop := b.name = "CERTIFICATE" ∨ b.name = "X509 CERTIFICATE"

instance (b : Block) : Decidable b.IsCertificate := inferInstanceAs (Decidable (_ ∨ _))

/-- The error of a reader that finds a malformed block. -/
abbrev BlockError := { e : ErrorCode // ¬ e.IsNoStartLine }

/-- What the next read of the input finds. -/
inductive Item where
  | block (b : Block)
  | malformed (err : BlockError)

/-! ## Readers -/

/-- What successive calls of a reader return until one returns NULL, and the
error that this one pushes. -/
structure Reads (α : Type) where
  values : List α
  stop : ErrorCode
  deriving DecidableEq, Repr

def Reads.cons {α : Type} (a : α) (r : Reads α) : Reads α := ⟨a :: r.values, r.stop⟩

def Reads.map {α β : Type} (f : α → β) (r : Reads α) : Reads β := ⟨r.values.map f, r.stop⟩

/-- `PEM_read_bio`. -/
def pemReadBio : List Item → Reads Block
  | [] => ⟨[], noStartLine⟩
  | .malformed err :: _ => ⟨[], err⟩
  | .block b :: items => (pemReadBio items).cons b

/-- `PEM_read_bio_X509`. `d2i` decodes a certificate, or fails with its error. -/
def pemReadBioX509 {X509 : Type} (d2i : List Byte → Except BlockError X509) :
    List Item → Reads X509
  | [] => ⟨[], noStartLine⟩
  | .malformed err :: _ => ⟨[], err⟩
  | .block b :: items =>
    if b.IsCertificate then
      match d2i b.data with
      | .error err => ⟨[], err⟩
      | .ok x509 => (pemReadBioX509 d2i items).cons x509
    else pemReadBioX509 d2i items

/-! ## Inputs that are blocks only -/

variable {X509 : Type} {d2i : List Byte → Except BlockError X509}

theorem pemReadBio_blocks (blocks : List Block) :
    pemReadBio (blocks.map .block) = ⟨blocks, noStartLine⟩ := by
  induction blocks with
  | nil => rfl
  | cons b blocks ih => simp only [List.map_cons, pemReadBio, ih, Reads.cons]

/-- The certificates that `PEM_read_bio_X509` returns are those of the
certificate blocks, in order. -/
theorem pemReadBioX509_blocks {i2d : X509 → List Byte} (blocks : List Block)
    (hder : ∀ b ∈ blocks, b.IsCertificate → ∃ x509, d2i b.data = .ok x509 ∧ i2d x509 = b.data) :
    (pemReadBioX509 d2i (blocks.map .block)).stop = noStartLine ∧
      (pemReadBioX509 d2i (blocks.map .block)).values.map i2d =
        (blocks.filter fun b => b.IsCertificate).map (·.data) := by
  induction blocks with
  | nil => exact ⟨rfl, rfl⟩
  | cons b blocks ih =>
    obtain ⟨hstop, hvalues⟩ := ih fun b' hb' => hder b' (List.mem_cons_of_mem _ hb')
    by_cases hname : b.IsCertificate
    · obtain ⟨x509, hok, hi2d⟩ := hder b List.mem_cons_self hname
      simp only [List.map_cons, pemReadBioX509, if_pos hname, hok, Reads.cons]
      rw [List.filter_cons_of_pos (by simpa using hname), List.map_cons, hi2d, hvalues]
      exact ⟨hstop, rfl⟩
    · simp only [List.map_cons, pemReadBioX509, if_neg hname]
      rw [List.filter_cons_of_neg (by simpa using hname)]
      exact ⟨hstop, hvalues⟩

end Chain
