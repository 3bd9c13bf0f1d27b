-- SUMMARY: Lists of byte strings, each behind one length byte: encoding, and the positions of the entries.
import Tcnative.Base.Memory

/-!
# Length-prefixed lists

A list of entries of at most 255 bytes, written as one length byte and the
bytes of each entry. `decode` reads such a list and fails if its last entry is
not complete. `spans` finds the complete entries of any memory, well-formed or
not, up to the first one that does not fit.
-/

namespace LengthPrefixed
open CMem

/-- A byte string whose length fits its length byte. -/
structure Entry where
  bytes : List Byte
  length_lt : bytes.length < 256
  deriving DecidableEq

namespace Entry

/-- The length byte. -/
def len (e : Entry) : Byte := UInt8.ofNat e.bytes.length

@[simp] theorem len_toNat (e : Entry) : e.len.toNat = e.bytes.length := by
  rw [len, UInt8.toNat_ofNat']
  exact Nat.mod_eq_of_lt e.length_lt

theorem ext_bytes {e e' : Entry} (h : e.bytes = e'.bytes) : e = e' := by
  obtain ⟨bytes, hlt⟩ := e
  obtain ⟨bytes', hlt'⟩ := e'
  cases h
  rfl

def encode (e : Entry) : List Byte := e.len :: e.bytes

@[simp] theorem encode_length (e : Entry) : e.encode.length = e.bytes.length + 1 := rfl

end Entry

def encode (es : List Entry) : List Byte := es.flatMap Entry.encode

@[simp] theorem encode_nil : encode [] = [] := rfl

@[simp] theorem encode_cons (e : Entry) (es : List Entry) :
    encode (e :: es) = e.encode ++ encode es := rfl

theorem encode_append (es es' : List Entry) : encode (es ++ es') = encode es ++ encode es' :=
  List.flatMap_append

/-- Every entry takes at least its length byte. -/
theorem length_le_encode (es : List Entry) : es.length ≤ (encode es).length := by
  induction es with
  | nil => exact Nat.le_refl 0
  | cons e es ih =>
    rw [encode_cons, List.length_append, List.length_cons, Entry.encode_length]
    omega

/-! ## Decoding -/

/-- One length byte and that many bytes, repeated to the end. -/
def decode : List Byte → Option (List (List Byte))
  | [] => some []
  | n :: mem =>
    if n.toNat ≤ mem.length then (decode (mem.drop n.toNat)).map (mem.take n.toNat :: ·)
    else none
termination_by mem => mem.length
decreasing_by
  rw [List.length_drop, List.length_cons]
  omega

@[simp] theorem decode_nil : decode [] = some [] := by rw [decode]

theorem decode_entry (e : Entry) (mem : List Byte) :
    decode (e.encode ++ mem) = (decode mem).map (e.bytes :: ·) := by
  have hfits : e.len.toNat ≤ (e.bytes ++ mem).length := by
    rw [Entry.len_toNat, List.length_append]
    omega
  rw [Entry.encode, List.cons_append, decode, if_pos hfits, Entry.len_toNat,
    List.drop_left, List.take_left]

/-- Nothing but encoded entries is decoded. -/
theorem decode_exact {mem : List Byte} {entries : List (List Byte)}
    (h : decode mem = some entries) :
    ∃ es : List Entry, mem = encode es ∧ entries = es.map Entry.bytes := by
  fun_induction decode mem generalizing entries with
  | case1 =>
    cases h
    exact ⟨[], rfl, rfl⟩
  | case2 n mem hfits ih =>
    obtain ⟨rest, hrest, rfl⟩ := Option.map_eq_some_iff.mp h
    obtain ⟨es, hmem, rfl⟩ := ih hrest
    have hlen : (mem.take n.toNat).length = n.toNat := List.length_take_of_le hfits
    have hlt : (mem.take n.toNat).length < 256 := by
      rw [hlen]
      exact n.toNat_lt
    refine ⟨⟨mem.take n.toNat, hlt⟩ :: es, ?_, rfl⟩
    rw [encode_cons, ← hmem, Entry.encode, Entry.len, hlen, UInt8.ofNat_toNat, List.cons_append,
      List.take_append_drop]
  | case3 n mem htrunc => cases h

/-- A longer entry than the length byte can tell is never decoded. -/
theorem decode_length_lt {mem : List Byte} {entries : List (List Byte)}
    (h : decode mem = some entries) : ∀ bytes ∈ entries, bytes.length < 256 := by
  obtain ⟨es, -, rfl⟩ := decode_exact h
  intro bytes hbytes
  obtain ⟨e, -, rfl⟩ := List.mem_map.mp hbytes
  exact e.length_lt

/-! ## Positions of the entries -/

/-- An entry in memory: the position of its first byte, and its length byte. -/
structure Span where
  pos : Nat
  len : Byte
  deriving DecidableEq, Repr

/-- The bytes of an entry. -/
def Span.bytes (s : Span) (mem : List Byte) : List Byte := slice mem s.pos s.len.toNat

/-- The complete entries from position `p` on. -/
def spans (mem : List Byte) (p : Nat) : List Span :=
  if h : p < mem.length then
    if p + 1 + mem[p].toNat ≤ mem.length then
      ⟨p + 1, mem[p]⟩ :: spans mem (p + 1 + mem[p].toNat)
    else []
  else []
termination_by mem.length - p

theorem spans_end {mem : List Byte} {p : Nat} (h : mem.length ≤ p) : spans mem p = [] := by
  rw [spans, dif_neg (by omega)]

theorem spans_fits {mem : List Byte} {p : Nat} {n : Byte} (hn : mem[p]? = some n)
    (h : p + 1 + n.toNat ≤ mem.length) :
    spans mem p = ⟨p + 1, n⟩ :: spans mem (p + 1 + n.toNat) := by
  obtain ⟨hp, rfl⟩ := List.getElem?_eq_some_iff.mp hn
  rw [spans, dif_pos hp, if_pos h]

/-- A complete entry lies inside the memory. -/
theorem spans_le {mem : List Byte} {p : Nat} {s : Span} (hs : s ∈ spans mem p) :
    s.pos + s.len.toNat ≤ mem.length := by
  fun_induction spans mem p with
  | case1 p hp hfits ih =>
    rcases List.mem_cons.mp hs with rfl | hs
    · exact hfits
    · exact ih hs
  | case2 p hp htrunc => cases hs
  | case3 p hp => cases hs

theorem spans_bytes_length {mem : List Byte} {p : Nat} {s : Span} (hs : s ∈ spans mem p) :
    (s.bytes mem).length = s.len.toNat := by
  have := spans_le hs
  rw [Span.bytes, slice_length]
  omega

/-- The bytes of the complete entries from the start, up to the first entry that
does not fit. -/
def completeEntries : List Byte → List (List Byte)
  | [] => []
  | n :: mem =>
    if n.toNat ≤ mem.length then mem.take n.toNat :: completeEntries (mem.drop n.toNat) else []
termination_by mem => mem.length
decreasing_by
  rw [List.length_drop, List.length_cons]
  omega

@[simp] theorem completeEntries_nil : completeEntries [] = [] := by rw [completeEntries]

theorem spans_completeEntries (mem : List Byte) (p : Nat) :
    (spans mem p).map (Span.bytes · mem) = completeEntries (mem.drop p) := by
  fun_induction spans mem p with
  | case1 p hp hfits ih =>
    have htail : mem[p].toNat ≤ (mem.drop (p + 1)).length := by
      rw [List.length_drop]
      omega
    rw [List.map_cons, ih, List.drop_eq_getElem_cons hp, completeEntries, if_pos htail,
      List.drop_drop, Span.bytes, slice]
  | case2 p hp htrunc =>
    have htail : ¬ mem[p].toNat ≤ (mem.drop (p + 1)).length := by
      rw [List.length_drop]
      omega
    rw [List.drop_eq_getElem_cons hp, completeEntries, if_neg htail, List.map_nil]
  | case3 p hp => rw [List.drop_eq_nil_of_le (by omega), completeEntries_nil, List.map_nil]

/-- The first complete entry with the sought bytes stands behind entries that are
all different from it. -/
theorem find_spans_first {mem : List Byte} {p : Nat} {e : Entry} {s : Span}
    (h : (spans mem p).find? (fun s => s.bytes mem = e.bytes) = some s) :
    ∃ (es : List Entry) (rest : List Byte), mem.drop p = encode es ++ e.encode ++ rest ∧ e ∉ es ∧
      s = ⟨p + (encode es).length + 1, e.len⟩ := by
  fun_induction spans mem p with
  | case1 p hp hfits ih =>
    have hlt : (slice mem (p + 1) mem[p].toNat).length < 256 := by
      have hbyte := mem[p].toNat_lt
      rw [slice_length]
      omega
    -- The entry that the scan stands on.
    obtain ⟨e', he'⟩ : ∃ e' : Entry, e'.bytes = slice mem (p + 1) mem[p].toNat := ⟨⟨_, hlt⟩, rfl⟩
    have hlen : e'.len = mem[p] := by
      refine UInt8.toNat_inj.mp ?_
      rw [Entry.len_toNat, he', slice_length]
      omega
    have hdrop : mem.drop p = e'.encode ++ mem.drop (p + 1 + mem[p].toNat) := by
      have htail : (mem.drop (p + 1)).drop mem[p].toNat = mem.drop (p + 1 + mem[p].toNat) :=
        List.drop_drop
      rw [List.drop_eq_getElem_cons hp, Entry.encode, hlen, he', List.cons_append, slice, ← htail,
        List.take_append_drop]
    by_cases hsame : Span.bytes ⟨p + 1, mem[p]⟩ mem = e.bytes
    · rw [List.find?_cons_of_pos (by simpa using hsame)] at h
      cases h
      obtain rfl : e' = e := Entry.ext_bytes (he'.trans hsame)
      refine ⟨[], mem.drop (p + 1 + mem[p].toNat), ?_, by simp, ?_⟩
      · rw [encode_nil, List.nil_append]
        exact hdrop
      · rw [hlen, encode_nil]
        rfl
    · rw [List.find?_cons_of_neg (by simpa using hsame)] at h
      obtain ⟨es, rest, hmem, hnot, hs⟩ := ih h
      have hne : e ≠ e' := fun heq => hsame (by rw [heq, he', Span.bytes])
      refine ⟨e' :: es, rest, ?_, ?_, ?_⟩
      · rw [hdrop, hmem, encode_cons, List.append_assoc, List.append_assoc, List.append_assoc]
      · simp [hne, hnot]
      · rw [hs, encode_cons, List.length_append, Entry.encode_length, ← hlen, Entry.len_toNat]
        congr 1
        omega
  | case2 p hp htrunc => cases h
  | case3 p hp => cases h

/-- The complete entries of a well-formed list are its entries. -/
theorem spans_encode (pre : List Byte) (es : List Entry) :
    (spans (pre ++ encode es) pre.length).map (Span.bytes · (pre ++ encode es)) =
      es.map Entry.bytes := by
  induction es generalizing pre with
  | nil => rw [spans_end (by simp)]; rfl
  | cons e es ih =>
    have hmem : pre ++ encode (e :: es) = (pre ++ e.encode) ++ encode es := by
      rw [encode_cons, List.append_assoc]
    have hlen : (pre ++ encode (e :: es))[pre.length]? = some e.len := by
      rw [List.getElem?_append_right (Nat.le_refl _), Nat.sub_self]
      rfl
    have hnext : pre.length + 1 + e.len.toNat = (pre ++ e.encode).length := by
      rw [List.length_append, Entry.encode_length, Entry.len_toNat]
      omega
    have hfits : pre.length + 1 + e.len.toNat ≤ (pre ++ encode (e :: es)).length := by
      rw [hmem, hnext]
      exact (List.sublist_append_left _ _).length_le
    have hbytes : Span.bytes ⟨pre.length + 1, e.len⟩ (pre ++ encode (e :: es)) = e.bytes := by
      rw [Span.bytes, slice, encode_cons, Entry.encode, Entry.len_toNat]
      simp
    rw [spans_fits hlen hfits, List.map_cons, hbytes, hnext, hmem, ih, List.map_cons]

/-- An entry that is sought in a well-formed list is found if it is there. -/
theorem find_spans_encode (es : List Entry) (e : Entry) :
    match (spans (encode es) 0).find? (fun s => s.bytes (encode es) = e.bytes) with
    | some s => s.len = e.len ∧ s.bytes (encode es) = e.bytes ∧ e ∈ es
    | none => e ∉ es := by
  have hmap : (spans (encode es) 0).map (Span.bytes · (encode es)) = es.map Entry.bytes :=
    spans_encode [] es
  have hiff : (∃ s ∈ spans (encode es) 0, s.bytes (encode es) = e.bytes) ↔ e ∈ es := by
    rw [← List.mem_map (f := (Span.bytes · (encode es))), hmap, List.mem_map]
    constructor
    · rintro ⟨e', he', hbytes⟩
      exact Entry.ext_bytes hbytes ▸ he'
    · exact fun he => ⟨e, he, rfl⟩
  split
  · rename_i s hfind
    have hs := List.mem_of_find?_eq_some hfind
    have hbytes : s.bytes (encode es) = e.bytes := by simpa using List.find?_some hfind
    refine ⟨UInt8.toNat_inj.mp ?_, hbytes, hiff.mp ⟨s, hs, hbytes⟩⟩
    rw [← spans_bytes_length hs, hbytes, Entry.len_toNat]
  · rename_i hfind
    rw [← hiff]
    simpa using hfind

end LengthPrefixed
