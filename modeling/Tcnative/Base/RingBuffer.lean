-- SUMMARY: The queue stored in a circular buffer, and what copies at its ends do to it.
import Tcnative.Base.Memory

/-!
# Circular buffers

A queue of `len` elements stored in a buffer from position `off` on, going on
at the front of the buffer when its end is reached. `off` may be the length of
the buffer, which means the same as `0`.
-/

namespace RingBuffer
open CMem

variable {α : Type}

/-- The queue of `len` elements that starts at position `off`. -/
def contents (buf : List α) (off len : Nat) : List α := (buf.drop off ++ buf).take len

/-- The element at index `k` of the queue is at position `(off + k) % size`. -/
theorem contents_getElem? {buf : List α} {off len k : Nat} (hoff : off ≤ buf.length)
    (hlen : len ≤ buf.length) (hk : k < len) :
    (contents buf off len)[k]? = buf[(off + k) % buf.length]? := by
  rw [contents, List.getElem?_take_of_lt hk]
  rcases Nat.lt_or_ge (off + k) buf.length with h | h
  · -- The element is before the end of the buffer, or behind its front.
    rw [List.getElem?_append_left (by rw [List.length_drop]; omega), List.getElem?_drop,
      Nat.mod_eq_of_lt h]
  · rw [List.getElem?_append_right (by rw [List.length_drop]; omega), List.length_drop,
      Nat.mod_eq_sub_mod h, Nat.mod_eq_of_lt (by omega)]
    congr 1
    omega

theorem contents_length {buf : List α} {off len : Nat} (hlen : len ≤ buf.length) :
    (contents buf off len).length = len := by
  simp [contents]
  omega

@[simp] theorem contents_zero (buf : List α) (off : Nat) : contents buf off 0 = [] := by
  simp [contents]

/-! ## Reading at the head -/

theorem contents_take {buf : List α} {off len n : Nat} (h : n ≤ len) :
    (contents buf off len).take n = contents buf off n := by
  rw [contents, List.take_take, Nat.min_eq_left h, contents]

theorem contents_eq_slice {buf : List α} {off n : Nat} (h : off + n ≤ buf.length) :
    contents buf off n = slice buf off n := by
  rw [contents, List.take_append_of_le_length (by rw [List.length_drop]; omega), slice]

theorem contents_eq_slices {buf : List α} {off n : Nat} (h : buf.length ≤ off + n) :
    contents buf off n =
      slice buf off (buf.length - off) ++ slice buf 0 (n - (buf.length - off)) := by
  rw [contents, List.take_append, List.take_of_length_le (by rw [List.length_drop]; omega)]
  simp only [slice, List.length_drop, List.drop_zero]
  rw [List.take_of_length_le (l := buf.drop off) (by simp)]

/-- What is left behind `n` elements that end before the end of the buffer. -/
theorem contents_drop {buf : List α} {off len n : Nat} (h : off + n ≤ buf.length) :
    (contents buf off len).drop n = contents buf (off + n) (len - n) := by
  rw [contents, List.drop_take, List.drop_append_of_le_length (by rw [List.length_drop]; omega),
    List.drop_drop, contents]

/-- What is left behind `n` elements that reach over the end of the buffer. -/
theorem contents_drop_wrap {buf : List α} {off len n : Nat} (hoff : off ≤ buf.length)
    (hlen : len ≤ buf.length) (h : buf.length ≤ off + n) :
    (contents buf off len).drop n = contents buf (off + n - buf.length) (len - n) := by
  have hskip : n - (buf.drop off).length = off + n - buf.length := by
    rw [List.length_drop]
    omega
  rw [contents, List.drop_take, List.drop_append,
    List.drop_eq_nil_of_le (by rw [List.length_drop]; omega), hskip, List.nil_append, contents]
  rcases Nat.lt_or_ge len n with hn | hn
  · simp [Nat.sub_eq_zero_of_le (Nat.le_of_lt hn)]
  · rw [List.take_append_of_le_length (by rw [List.length_drop]; omega)]

/-! ## Writing at the tail -/

/-- Two queues that agree position by position are equal. -/
private theorem contents_ext {buf xs : List α} {off len : Nat} (hoff : off ≤ buf.length)
    (hlen : len ≤ buf.length) (hxs : xs.length = len)
    (h : ∀ i, i < len → buf[(off + i) % buf.length]? = xs[i]?) : contents buf off len = xs := by
  apply List.ext_getElem?
  intro i
  rcases Nat.lt_or_ge i len with hi | hi
  · rw [contents_getElem? hoff hlen hi, h i hi]
  · rw [List.getElem?_eq_none (by rw [contents_length hlen]; exact hi),
      List.getElem?_eq_none (by omega)]

/-- A write behind the queue that ends before the end of the buffer. -/
theorem contents_splice {buf bs : List α} {off len : Nat}
    (h : off + len + bs.length ≤ buf.length) :
    contents (splice buf (off + len) bs) off (len + bs.length) = contents buf off len ++ bs := by
  have hsize : (splice buf (off + len) bs).length = buf.length := splice_length h
  have hold : (contents buf off len).length = len := contents_length (by omega)
  -- Position by position: the old queue, and behind it the new bytes.
  refine contents_ext (by omega) (by omega) (by simp [hold]) fun i hi => ?_
  rw [hsize, splice_getElem? (by omega)]
  rcases Nat.lt_or_ge i len with hil | hil
  · rw [List.getElem?_append_left (by omega), contents_getElem? (by omega) (by omega) hil,
      Nat.mod_eq_of_lt (by omega), if_pos (by omega)]
  · rw [List.getElem?_append_right (by omega), hold, Nat.mod_eq_of_lt (by omega),
      if_neg (by omega), if_pos (by omega)]
    congr 1
    omega

/-- A write behind the queue that reaches over the end of the buffer: the bytes
that do not fit go to its front. -/
theorem contents_splice_wrap (buf bs : List α) (off len : Nat) (h : off + len ≤ buf.length)
    (hbs : len + bs.length ≤ buf.length) (hwrap : buf.length ≤ off + len + bs.length) :
    contents (splice (splice buf (off + len) (bs.take (buf.length - (off + len)))) 0
        (bs.drop (buf.length - (off + len)))) off (len + bs.length) =
      contents buf off len ++ bs := by
  generalize hk : buf.length - (off + len) = k
  have hk₁ : (bs.take k).length = k := List.length_take_of_le (by omega)
  have hk₂ : (bs.drop k).length = bs.length - k := by simp
  have hsize₁ : (splice buf (off + len) (bs.take k)).length = buf.length :=
    splice_length (by omega)
  have hsize₂ :
      (splice (splice buf (off + len) (bs.take k)) 0 (bs.drop k)).length = buf.length := by
    rw [splice_length (by omega), hsize₁]
  have hold : (contents buf off len).length = len := contents_length (by omega)
  refine contents_ext (by omega) (by omega) (by simp [hold]) fun i hi => ?_
  rw [hsize₂, splice_getElem? (by omega), if_neg (by omega), splice_getElem? (by omega)]
  rcases Nat.lt_or_ge (off + i) buf.length with hw | hw
  · -- Still behind the part of the buffer that the second copy touches.
    rw [Nat.mod_eq_of_lt hw, if_neg (by omega)]
    rcases Nat.lt_or_ge i len with hil | hil
    · rw [List.getElem?_append_left (by omega), contents_getElem? (by omega) (by omega) hil,
        Nat.mod_eq_of_lt hw, if_pos (by omega)]
    · rw [List.getElem?_append_right (by omega), hold, if_neg (by omega), if_pos (by omega),
        List.getElem?_take_of_lt (by omega)]
      congr 1
      omega
  · -- At the front of the buffer, where the second copy went.
    rw [Nat.mod_eq_sub_mod hw, Nat.mod_eq_of_lt (by omega), if_pos (by omega),
      List.getElem?_append_right (by omega), hold, List.getElem?_drop]
    congr 1
    omega

end RingBuffer
