-- SUMMARY: Packing and unpacking agree, and what each ticket function does in a context whose installed keys are known.
import Tcnative.Ticket.Keys

/-!
# Installed keys

`Installed` relates a context to the Java keys that were installed last. Under
it every lookup is a lookup in the list of these keys.
-/

namespace Ticket
open CMem Jni

/-! ## Packing -/

/-- The layout of one key. -/
def SessionTicketKey.bytes (key : SessionTicketKey) : List Byte :=
  key.name.val ++ (key.hmacKey.val ++ key.aesKey.val)

@[simp] theorem SessionTicketKey.bytes_length (key : SessionTicketKey) :
    key.bytes.length = ticketKeySize := by
  simp only [bytes, List.length_append, key.name.2, key.hmacKey.2, key.aesKey.2, ticketKeySize]

/-- The first bytes behind a filled part of a zeroed array. -/
private theorem splice_zeros (pre bs : List Byte) (n : Nat) :
    splice (pre ++ List.replicate n 0) pre.length bs =
      (pre ++ bs) ++ List.replicate (n - bs.length) 0 := by
  rw [splice, List.take_left, List.drop_append, List.drop_replicate]
  simp

private theorem packLoop_eq (pre : List Byte) {i : Nat} (hpre : pre.length = ticketKeySize * i)
    (keys : List SessionTicketKey) :
    packLoop (pre ++ List.replicate (keys.length * ticketKeySize) 0) i keys =
      pre ++ keys.flatMap SessionTicketKey.bytes := by
  induction keys generalizing pre i with
  | nil => simp [packLoop]
  | cons key keys ih =>
    have hname := key.name.2
    have hhmac := key.hmacKey.2
    have haes := key.aesKey.2
    have hsize : (key :: keys).length * ticketKeySize = keys.length * ticketKeySize + 48 := by
      rw [List.length_cons, Nat.succ_mul, ticketKeySize]
    have hpre₁ : (pre ++ key.name.val).length = ticketKeySize * i + 16 := by
      rw [List.length_append, hpre, hname]
    have hpre₂ : (pre ++ key.name.val ++ key.hmacKey.val).length = ticketKeySize * i + 16 + 16 := by
      rw [List.length_append, hpre₁, hhmac]
    have hpre₃ : (pre ++ key.bytes).length = ticketKeySize * (i + 1) := by
      rw [List.length_append, key.bytes_length, hpre, Nat.mul_succ]
    have hleft : keys.length * ticketKeySize + 48 - 16 - 16 - 16 = keys.length * ticketKeySize := by
      omega
    have hassoc : pre ++ key.name.val ++ key.hmacKey.val ++ key.aesKey.val = pre ++ key.bytes := by
      simp only [SessionTicketKey.bytes, List.append_assoc]
    -- The three parts of a key are written one behind the other.
    rw [packLoop, hsize, ← hpre, splice_zeros, hpre, ← hpre₁, splice_zeros, hpre₁, ← hpre₂,
      splice_zeros, hname, hhmac, haes, hleft, hassoc, ih _ hpre₃, List.flatMap_cons,
      List.append_assoc]

/-- The packed keys are the layouts of the keys in order. -/
theorem packKeys_eq (keys : List SessionTicketKey) :
    packKeys keys = keys.flatMap SessionTicketKey.bytes :=
  packLoop_eq [] rfl keys

theorem packKeys_length (keys : List SessionTicketKey) :
    (packKeys keys).length = ticketKeySize * keys.length := by
  rw [packKeys_eq]
  induction keys with
  | nil => rfl
  | cons key keys ih =>
    rw [List.flatMap_cons, List.length_append, ih, key.bytes_length, List.length_cons,
      Nat.mul_succ, Nat.add_comm]

/-! ## Unpacking -/

/-- The entry of a key at an index of an array. -/
def entry (build : Build) (block : Nat) (key : SessionTicketKey) (i : Nat) : TcnSslTicketKey where
  keyName := key.name
  hmacKey := key.hmacKey
  macParams := if build = .from3 then some ⟨block, i⟩ else none
  aesKey := key.aesKey

/-- The array of keys that `keys` are unpacked to. -/
def entries (build : Build) (block : Nat) (keys : List SessionTicketKey) : List TcnSslTicketKey :=
  keys.mapIdx fun i key => entry build block key i

theorem entries_getElem? (build : Build) (block : Nat) (keys : List SessionTicketKey) (i : Nat) :
    (entries build block keys)[i]? = keys[i]?.map fun key => entry build block key i :=
  List.getElem?_mapIdx

private theorem copy16_at (pre : List Byte) (bs : Bytes16) (post : List Byte) :
    copy16 (pre ++ (bs.val ++ post)) pre.length = .ok bs := by
  have hslice : slice (pre ++ (bs.val ++ post)) pre.length 16 = bs.val := by
    rw [slice, List.drop_left]
    exact List.take_left' bs.2
  have hfits : pre.length + 16 ≤ (pre ++ (bs.val ++ post)).length := by
    rw [List.length_append, List.length_append, bs.2]
    omega
  rw [copy16, dif_pos hfits]
  exact congrArg Except.ok (Subtype.ext hslice)

theorem unpackKey_ok (build : Build) (block : Nat) {pre : List Byte} {i : Nat}
    (hpre : pre.length = ticketKeySize * i) (key : SessionTicketKey) (post : List Byte) :
    unpackKey build block (pre ++ (key.bytes ++ post)) i = .ok (entry build block key i) := by
  have hname := key.name.2
  have hhmac := key.hmacKey.2
  have h₁ := copy16_at pre key.name (key.hmacKey.val ++ (key.aesKey.val ++ post))
  have h₂ := copy16_at (pre ++ key.name.val) key.hmacKey (key.aesKey.val ++ post)
  have h₃ := copy16_at (pre ++ (key.name.val ++ key.hmacKey.val)) key.aesKey post
  simp only [List.append_assoc, List.length_append, hpre, hname, hhmac] at h₁ h₂ h₃
  simp only [unpackKey, SessionTicketKey.bytes, List.append_assoc, h₁, h₂, h₃, bind, Except.bind]
  rfl

/-- Unpacking gives back the keys in order. -/
theorem unpackKeys_ok (build : Build) (block : Nat) (pre : List Byte) {i : Nat}
    (hpre : pre.length = ticketKeySize * i) (keys : List SessionTicketKey) :
    unpackKeys build block (pre ++ keys.flatMap SessionTicketKey.bytes) i keys.length =
      .ok (keys.mapIdx fun j key => entry build block key (i + j)) := by
  induction keys generalizing pre i with
  | nil => rfl
  | cons key keys ih =>
    have hpre' : (pre ++ key.bytes).length = ticketKeySize * (i + 1) := by
      rw [List.length_append, key.bytes_length, hpre, Nat.mul_succ]
    have hrest := ih _ hpre'
    rw [List.append_assoc] at hrest
    rw [List.flatMap_cons, List.length_cons, unpackKeys, unpackKey_ok build block hpre, hrest,
      List.mapIdx_cons]
    simp only [bind, Except.bind, pure, Except.pure, Nat.add_zero, Nat.add_assoc,
      Nat.add_comm 1]

theorem allocKeys_ok (build : Build) (c : TcnSslCtxt) (keys : List SessionTicketKey) :
    allocKeys build c (packKeys keys) =
      .ok (c.heap.length,
        { c with heap := c.heap ++ [some (entries build c.heap.length keys)] }) := by
  have hcnt : (packKeys keys).length / ticketKeySize = keys.length := by
    rw [packKeys_length]
    exact Nat.mul_div_cancel_left _ (by decide)
  have hunpack := unpackKeys_ok build c.heap.length [] (i := 0) rfl keys
  simp only [List.nil_append, Nat.zero_add] at hunpack
  rw [allocKeys, hcnt, packKeys_eq, hunpack]
  rfl

/-! ## The installed keys -/

/-- `keys` were installed last, or nothing was and `keys` is empty. -/
structure Installed (build : Build) (c : TcnSslCtxt) (keys : List SessionTicketKey) : Prop where
  len : c.ticketKeysLen = keys.length
  nothing : keys = [] → c.ticketKeys = none
  array : keys ≠ [] → ∃ block, c.ticketKeys = some block ∧
    c.heap[block]? = some (some (entries build block keys))

theorem installed_make (build : Build) : Installed build .make [] :=
  ⟨rfl, fun _ => rfl, fun h => absurd rfl h⟩

theorem load_ok {c : TcnSslCtxt} {block : Nat} {keys : List TcnSslTicketKey}
    (h : c.heap[block]? = some (some keys)) : c.load block = .ok keys := by
  simp only [TcnSslCtxt.load, h]

section
variable {build : Build} {c : TcnSslCtxt} {keys : List SessionTicketKey}

/-- The current key is the first of the installed keys. -/
theorem currentSessionKey_ok (h : Installed build c keys) :
    currentSessionKey c = .ok (match keys with
      | [] => none
      | key :: _ => some (entry build (c.ticketKeys.getD 0) key 0)) := by
  have hlen := h.len
  cases keys with
  | nil => rw [currentSessionKey, if_neg (by rw [hlen]; simp)]
  | cons key keys =>
    obtain ⟨block, hblock, harray⟩ := h.array (by simp)
    have hfirst : (entries build block (key :: keys))[0]? = some (entry build block key 0) :=
      entries_getElem? build block (key :: keys) 0
    rw [currentSessionKey, if_pos (by rw [hlen]; simp), hblock]
    simp only [load_ok harray, bind, Except.bind, hfirst, Option.getD_some]
    rfl

/-- The first key with a name, and its index. -/
def firstNamed (keys : List SessionTicketKey) (name : Bytes16) : Option (SessionTicketKey × Nat) :=
  keys.zipIdx.find? fun p => p.1.name = name

private theorem findLoop_ok (build : Build) (block : Nat) (keys : List SessionTicketKey)
    (name : Bytes16) {i n : Nat} (hn : i + n = keys.length) :
    findLoop (entries build block keys) name i n =
      .ok ((((keys.drop i).zipIdx i).find? fun p => p.1.name = name).map fun p =>
        (entry build block p.1 p.2, p.2 == 0)) := by
  -- On the entries to go, while the index moves through the array.
  induction n generalizing i with
  | zero =>
    rw [List.drop_eq_nil_of_le (by omega)]
    rfl
  | succ n ih =>
    have hi : i < keys.length := by omega
    have hentry : (entries build block keys)[i]? = some (entry build block keys[i] i) := by
      rw [entries_getElem?, List.getElem?_eq_getElem hi, Option.map_some]
    rw [findLoop, hentry, List.drop_eq_getElem_cons hi, List.zipIdx_cons]
    by_cases hname : keys[i].name = name
    · simp [hname, entry]
    · simp only [entry, hname, if_false]
      rw [ih (by omega), List.find?_cons_of_neg (by simpa using hname)]
      rfl

/-- A name is found at its first position in the installed keys. -/
theorem findSessionKey_ok (h : Installed build c keys) (name : Bytes16) :
    findSessionKey c name = .ok ((firstNamed keys name).map fun p =>
      (entry build (c.ticketKeys.getD 0) p.1 p.2, p.2 == 0)) := by
  have hlen := h.len
  cases keys with
  | nil => rw [findSessionKey, if_pos (by rw [hlen]; rfl)]; rfl
  | cons key keys =>
    obtain ⟨block, hblock, harray⟩ := h.array (by simp)
    rw [findSessionKey, if_neg (by rw [hlen]; simp), hblock, hlen]
    simp only [load_ok harray, bind, Except.bind, Option.getD_some]
    rw [findLoop_ok build block (key :: keys) name (by omega)]
    rfl

theorem mem_of_firstNamed {name : Bytes16} {key : SessionTicketKey} {i : Nat}
    (h : firstNamed keys name = some (key, i)) : keys[i]? = some key ∧ key.name = name := by
  refine ⟨?_, by simpa using List.find?_some h⟩
  have := List.mem_of_find?_eq_some h
  rwa [List.mk_mem_zipIdx_iff_getElem?] at this

/-- The MAC of an entry is initialised with its HMAC key, as long as the array
it came from is allocated. -/
theorem hmacInit_ok {block i : Nat} {key : SessionTicketKey}
    (harray : c.heap[block]? = some (some (entries build block keys)))
    (hkey : keys[i]? = some key) :
    hmacInit build c (entry build block key i) = .ok key.hmacKey := by
  cases build with
  | before3 => rfl
  | from3 =>
    have hentry : (entries .from3 block keys)[i]? = some (entry .from3 block key i) := by
      rw [entries_getElem?, hkey, Option.map_some]
    simp only [hmacInit, entry, if_true, load_ok harray, bind, Except.bind, hentry]
    rfl

/-- The result of installing keys. -/
theorem setSessionTicketKeys_ok (h : Installed build c keys) {keys' : List SessionTicketKey}
    (hne : keys' ≠ []) :
    ∃ heap, setSessionTicketKeys build c (some keys') true true =
        .ok (none,
          { c with
            heap := heap
            ticketKeysLen := keys'.length
            ticketKeys := some c.heap.length }) ∧
      heap[c.heap.length]? = some (some (entries build c.heap.length keys')) := by
  have hcnt : (packKeys keys').length / ticketKeySize = keys'.length := by
    rw [packKeys_length]
    exact Nat.mul_div_cancel_left _ (by decide)
  have hset : setSessionTicketKeys build c (some keys') true true =
      setSessionTicketKeys0 build c (packKeys keys') true true := by
    cases keys' with
    | nil => exact absurd rfl hne
    | cons key keys' => rfl
  rw [hset, setSessionTicketKeys0, allocKeys_ok]
  refine ⟨_, by simp only [hcnt]; rfl, ?_⟩
  cases hold : c.ticketKeys with
  | none => simp
  | some old =>
    -- The array that is freed is not the new one.
    have hlt : old < c.heap.length := by
      cases hkeys : keys with
      | nil => simp [h.nothing hkeys] at hold
      | cons key keys =>
        obtain ⟨block, hblock, harray⟩ := h.array (by simp [hkeys])
        obtain rfl : block = old := by simpa [hblock] using hold
        exact (List.getElem?_eq_some_iff.mp harray).1
    simp only
    rw [List.getElem?_set_ne (by omega)]
    simp

end

end Ticket
