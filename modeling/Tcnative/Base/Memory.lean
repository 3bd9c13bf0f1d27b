-- SUMMARY: Byte memory with checked copies, and signed 32-bit arithmetic whose overflow is a fault.
import Mathlib.Data.List.Basic

/-!
# Checked memory

Blocks of bytes, copies between them that fault where the C operation is
undefined, and the arithmetic of a signed 32-bit integer. Nothing here depends
on a particular program.
-/

abbrev Byte := UInt8

namespace CMem

/-- The ways in which a C function leaves defined behaviour. -/
inductive Fault where
  | overflow
  | negativeLength
  | outOfBounds
  | nullPointer
  | useAfterFree
  deriving DecidableEq, Repr

/-! ## Signed 32-bit integers -/

/-- The values of a signed 32-bit integer. -/
def IsJint (n : Int) : Prop := -0x80000000 ≤ n ∧ n < 0x80000000

instance (n : Int) : Decidable (IsJint n) := inferInstanceAs (Decidable (_ ∧ _))

/-- The result of signed arithmetic: a value outside the range is undefined. -/
def jint (n : Int) : Except Fault Int :=
  if IsJint n then .ok n else .error .overflow

theorem jint_ok {n : Int} (h : IsJint n) : jint n = .ok n := if_pos h

theorem jint_overflow {n : Int} (h : ¬ IsJint n) : jint n = .error .overflow := if_neg h

theorem jint_inv {n m : Int} (h : jint n = .ok m) : m = n := by
  unfold jint at h
  split at h
  · cases h
    rfl
  · cases h

/-- A computation that does not fault has a first part that does not fault. -/
theorem bind_ok {φ α β : Type} {x : Except φ α} {f : α → Except φ β} {b : β}
    (h : (x >>= f) = .ok b) : ∃ a, x = .ok a ∧ f a = .ok b := by
  cases x with
  | error e => cases h
  | ok a => exact ⟨a, rfl, h⟩

/-- Conversion of an unsigned size to a signed 32-bit integer keeps the low 32
bits. -/
def toJint (n : Nat) : Int :=
  if (n : Int) % 0x100000000 < 0x80000000 then (n : Int) % 0x100000000
  else (n : Int) % 0x100000000 - 0x100000000

theorem toJint_le (n : Nat) : toJint n ≤ n := by
  unfold toJint
  split <;> omega

theorem toJint_isJint (n : Nat) : IsJint (toJint n) := by
  unfold toJint IsJint
  split <;> omega

theorem toJint_of_lt {n : Nat} (h : n < 0x80000000) : toJint n = n := by
  unfold toJint
  split <;> omega

/-! ## Copies -/

/-- Overwrite the bytes of `dst` from position `i` on with `bs`. -/
def splice {α : Type} (dst : List α) (i : Nat) (bs : List α) : List α :=
  dst.take i ++ bs ++ dst.drop (i + bs.length)

/-- The `n` bytes of `src` from position `i` on. -/
def slice {α : Type} (src : List α) (i n : Nat) : List α := (src.drop i).take n

/-- `memcpy(dst + d, src + s, (size_t) n)`. A negative length becomes a huge
unsigned one, and an access outside a block is undefined. -/
def memcpy (dst : List Byte) (d : Int) (src : List Byte) (s n : Int) : Except Fault (List Byte) :=
  if n < 0 then .error .negativeLength
  else if 0 ≤ d ∧ d + n ≤ dst.length ∧ 0 ≤ s ∧ s + n ≤ src.length then
    .ok (splice dst d.toNat (slice src s.toNat n.toNat))
  else .error .outOfBounds

theorem memcpy_ok {dst src : List Byte} {d s n : Int} (hn : 0 ≤ n) (hd : 0 ≤ d)
    (hdn : d + n ≤ dst.length) (hs : 0 ≤ s) (hsn : s + n ≤ src.length) :
    memcpy dst d src s n = .ok (splice dst d.toNat (slice src s.toNat n.toNat)) := by
  rw [memcpy, if_neg (by omega), if_pos ⟨hd, hdn, hs, hsn⟩]

theorem memcpy_negative {dst src : List Byte} {d s n : Int} (hn : n < 0) :
    memcpy dst d src s n = .error .negativeLength := if_pos hn

/-- Whether `memcmp(xs + i, ys + j, n)` is zero. -/
def memcmp (xs : List Byte) (i : Nat) (ys : List Byte) (j n : Nat) : Except Fault Bool :=
  if i + n ≤ xs.length ∧ j + n ≤ ys.length then .ok (slice xs i n = slice ys j n)
  else .error .outOfBounds

theorem memcmp_ok {xs ys : List Byte} {i j n : Nat} (hi : i + n ≤ xs.length)
    (hj : j + n ≤ ys.length) : memcmp xs i ys j n = .ok (slice xs i n = slice ys j n) :=
  if_pos ⟨hi, hj⟩

section
variable {α : Type}

@[simp] theorem slice_length (src : List α) (i n : Nat) :
    (slice src i n).length = min n (src.length - i) := by
  simp [slice]

theorem splice_length {dst bs : List α} {i : Nat} (h : i + bs.length ≤ dst.length) :
    (splice dst i bs).length = dst.length := by
  simp only [splice, List.length_append, List.length_take, List.length_drop]
  omega

theorem splice_take {dst bs : List α} {i : Nat} (h : i ≤ dst.length) :
    (splice dst i bs).take (i + bs.length) = dst.take i ++ bs := by
  have hlen : (dst.take i ++ bs).length = i + bs.length := by
    rw [List.length_append, List.length_take_of_le h]
  rw [splice, List.take_append_of_le_length (Nat.le_of_eq hlen.symm)]
  exact List.take_of_length_le (Nat.le_of_eq hlen)

theorem splice_getElem? {dst bs : List α} {i j : Nat} (h : i ≤ dst.length) :
    (splice dst i bs)[j]? =
      if j < i then dst[j]? else if j < i + bs.length then bs[j - i]? else dst[j]? := by
  have hi : (dst.take i).length = i := by simp [h]
  rw [splice, List.append_assoc]
  split
  · rw [List.getElem?_append_left (by omega), List.getElem?_take_of_lt (by omega)]
  rw [List.getElem?_append_right (by omega), hi]
  split
  · rw [List.getElem?_append_left (by omega)]
  · rw [List.getElem?_append_right (by omega), List.getElem?_drop]
    congr 1
    omega

/-- A copy that fills a whole block. -/
theorem memcpy_fill (src : List Byte) {n : Nat} (h : src.length = n) (b : Byte) :
    memcpy (List.replicate n b) 0 src 0 n = .ok src := by
  have hlen : ((List.replicate n b).length : Int) = n := by rw [List.length_replicate]
  rw [memcpy_ok (by omega) (by omega) (by omega) (by omega) (by omega)]
  simp [splice, slice, ← h]

/-- Two adjacent overwrites are one. -/
theorem splice_splice {dst bs bs' : List α} {i : Nat}
    (h : i + bs.length + bs'.length ≤ dst.length) :
    splice (splice dst i bs) (i + bs.length) bs' = splice dst i (bs ++ bs') := by
  have hi : i ≤ dst.length := by omega
  have htake : (splice dst i bs).take (i + bs.length) = dst.take i ++ bs := splice_take hi
  rw [splice, htake]
  simp only [splice, List.drop_append, List.length_append, List.length_take, List.append_assoc,
    List.drop_drop, List.append_cancel_left_eq]
  rw [List.drop_eq_nil_of_le (by rw [List.length_take]; omega), List.drop_eq_nil_of_le (by omega)]
  simp only [List.nil_append]
  congr 1
  omega

/-! ## Added blocks -/

/-- A list with one more element has the elements it had, and that one. -/
theorem getElem?_snoc {xs : List α} {x y : α} {i : Nat} (h : (xs ++ [x])[i]? = some y) :
    xs[i]? = some y ∨ (i = xs.length ∧ y = x) := by
  rcases Nat.lt_or_ge i xs.length with hlt | hge
  · rw [List.getElem?_append_left hlt] at h
    exact .inl h
  · rw [List.getElem?_append_right hge, List.getElem?_singleton] at h
    split at h
    · cases h
      exact .inr ⟨by omega, rfl⟩
    · cases h

theorem getElem?_snoc_left {xs : List α} {x y : α} {i : Nat} (h : xs[i]? = some y) :
    (xs ++ [x])[i]? = some y := by
  rw [List.getElem?_append_left (List.getElem?_eq_some_iff.mp h).1, h]

end

end CMem
