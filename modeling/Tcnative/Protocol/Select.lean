-- SUMMARY: Protocol selection for ALPN and NPN: the two nested loops of `select_next_proto`, and when they meet their contract.
import Tcnative.Base.LengthPrefixed

/-!
# Protocol selection

`select_next_proto` walks the configured list, and for each of its entries the
list of the peer. The counter of the outer loop misses the length bytes, so it
stops the loop only through a match or, for an empty list, at once.
-/

namespace Protocol
open CMem LengthPrefixed

/-- `SSL_SELECTOR_FAILURE_NO_ADVERTISE`. -/
def sslSelectorFailureNoAdvertise : Int := 0

/-- `SSL_SELECTOR_FAILURE_CHOOSE_MY_LAST_PROTOCOL`. -/
def sslSelectorFailureChooseMyLastProtocol : Int := 1

/-- The values of `SSL_TLSEXT_ERR_*` that the selection returns. -/
inductive TlsextErr where
  | ok
  | noack
  deriving DecidableEq, Repr

/-- What `*out` points to. -/
inductive OutPtr where
  | inPeerList (pos : Nat)
  | inSupportedProtos (pos : Nat)
  deriving DecidableEq, Repr

/-- The return value, and `*out` and `*outlen` if they were assigned. -/
structure Selection where
  ret : TlsextErr
  out : Option (OutPtr × Byte)
  deriving DecidableEq, Repr

/-- The inner loop of `select_next_proto`: look for the entry of
`target_proto_len` bytes at `supported_protos` in the list of the peer. -/
def findProto (inp : List Byte) (inlen : Nat) (supportedProtos : List Byte) (target : Nat)
    (targetProtoLen : Byte) (p : Nat) : Except Fault (Option Span) :=
  if p < inlen then
    match inp[p]? with
    | none => .error .outOfBounds
    | some protoLen =>
      let proto := p + 1
      if proto + protoLen.toNat ≤ inlen ∧ targetProtoLen = protoLen then
        match memcmp supportedProtos target inp proto protoLen.toNat with
        | .error f => .error f
        | .ok true => .ok (some ⟨proto, protoLen⟩) -- found a match
        | .ok false =>
          findProto inp inlen supportedProtos target targetProtoLen (proto + protoLen.toNat)
      else findProto inp inlen supportedProtos target targetProtoLen (proto + protoLen.toNat)
  else .ok none
termination_by inlen - p

/-- The outer loop of `select_next_proto`, with its counter, its pointer into
the configured list and the last entry it has seen. -/
def selectLoop (inp : List Byte) (inlen : UInt32) (supportedProtos : Option (List Byte))
    (supportedProtosLen : UInt32) (failureBehavior : Int) (i : UInt32) (p : Nat)
    (last : Option (Nat × Byte)) : Except Fault Selection :=
  if i < supportedProtosLen then
    match supportedProtos with
    | none => .error .nullPointer
    | some mem =>
      if hp : p < mem.length then
        let targetProtoLen := mem[p]
        match findProto inp inlen.toNat mem (p + 1) targetProtoLen 0 with
        | .error f => .error f
        | .ok (some s) => .ok ⟨.ok, some (.inPeerList s.pos, s.len)⟩
        | .ok none =>
          -- The counter advances by the entry without its length byte.
          selectLoop inp inlen (some mem) supportedProtosLen failureBehavior
            (i + targetProtoLen.toUInt32) (p + 1 + targetProtoLen.toNat)
            (some (p + 1, targetProtoLen))
      else .error .outOfBounds
  else
    match last with
    | some (lastSupportedProto, lastSupportedProtoLen) =>
      if failureBehavior = sslSelectorFailureChooseMyLastProtocol then
        .ok ⟨.ok, some (.inSupportedProtos lastSupportedProto, lastSupportedProtoLen)⟩
      else .ok ⟨.noack, none⟩
    | none => .ok ⟨.noack, none⟩
termination_by (supportedProtos.getD []).length - p

/-- `select_next_proto`. -/
def selectNextProto (inp : List Byte) (inlen : UInt32) (supportedProtos : Option (List Byte))
    (supportedProtosLen : UInt32) (failureBehavior : Int) : Except Fault Selection :=
  selectLoop inp inlen supportedProtos supportedProtosLen failureBehavior 0 0 none

/-! ## The inner loop -/

theorem findProto_end {inp supportedProtos : List Byte} {target p : Nat} {n : Byte}
    (h : inp.length ≤ p) : findProto inp inp.length supportedProtos target n p = .ok none := by
  rw [findProto, if_neg (by omega)]

/-- The inner loop stays inside both lists and finds the first complete entry
of the peer that equals the target, whatever bytes the peer sends. -/
theorem findProto_eq (inp : List Byte) {supportedProtos : List Byte} {target : Nat} {n : Byte}
    (htarget : target + n.toNat ≤ supportedProtos.length) (p : Nat) :
    findProto inp inp.length supportedProtos target n p =
      .ok ((spans inp p).find? fun s => s.bytes inp = slice supportedProtos target n.toNat) := by
  -- Along the entries of the peer: complete ones, a truncated one, and the end.
  fun_induction spans inp p with
  | case1 p hp hfits ih =>
    rw [findProto, if_pos hp, List.getElem?_eq_getElem hp]
    simp only [ih, hfits, true_and]
    by_cases hlen : n = inp[p]
    · rw [if_pos hlen, ← hlen, memcmp_ok htarget (by rw [hlen]; exact hfits)]
      by_cases hsame : slice supportedProtos target n.toNat = slice inp (p + 1) n.toNat
      · simp [hsame, Span.bytes]
      · have hdiff : slice inp (p + 1) n.toNat ≠ slice supportedProtos target n.toNat :=
          fun h => hsame h.symm
        simp [hsame, hdiff, Span.bytes]
    · -- Entries of different lengths have different bytes.
      have hdiff : Span.bytes ⟨p + 1, inp[p]⟩ inp ≠ slice supportedProtos target n.toNat := by
        intro h
        have hlength := congrArg List.length h
        simp only [Span.bytes, slice_length] at hlength
        refine hlen (UInt8.toNat_inj.mp ?_)
        omega
      rw [if_neg hlen, List.find?_cons_of_neg (by simpa using hdiff)]
  | case2 p hp htrunc =>
    rw [findProto, if_pos hp, List.getElem?_eq_getElem hp]
    simp only [htrunc, false_and, if_false]
    rw [findProto_end (by omega)]
    rfl
  | case3 p hp =>
    rw [findProto_end (by omega)]
    rfl

/-- For any bytes of the peer the inner loop ends without leaving them. It reports
a match exactly if the target is a complete entry, and then the first such entry:
behind entries that are all different. -/
theorem findProto_first (inp before after : List Byte) (target : Entry) :
    ∃ found, findProto inp inp.length (before ++ target.bytes ++ after) before.length target.len 0 =
        .ok found ∧
      (found.isSome ↔ target.bytes ∈ completeEntries inp) ∧
      ∀ s, found = some s → s.bytes inp = target.bytes ∧
        ∃ (es : List Entry) (rest : List Byte), inp = encode es ++ target.encode ++ rest ∧
          target ∉ es ∧ s = ⟨(encode es).length + 1, target.len⟩ := by
  have hin : before.length + target.len.toNat ≤ (before ++ target.bytes ++ after).length := by
    simp only [List.length_append, Entry.len_toNat]
    omega
  have hslice : slice (before ++ target.bytes ++ after) before.length target.len.toNat =
      target.bytes := by
    simp [slice]
  have hentries : (spans inp 0).map (Span.bytes · inp) = completeEntries inp :=
    spans_completeEntries inp 0
  refine ⟨_, findProto_eq inp hin 0, ?_, ?_⟩
  · rw [hslice, ← hentries, List.find?_isSome, List.mem_map]
    simp only [decide_eq_true_eq]
  · intro s hs
    rw [hslice] at hs
    obtain ⟨es, rest, hmem, hnot, hpos⟩ := find_spans_first hs
    refine ⟨by simpa using List.find?_some hs, es, rest, hmem, hnot, ?_⟩
    rw [hpos, Nat.zero_add]

/-! ## The outer loop -/

/-- The loop stands behind the entries `done` of a configured list, of which
`rest` is left. The counter is behind the pointer by their length bytes. -/
structure At (done rest : List Entry) (i : UInt32) (p : Nat) : Prop where
  pos : p = (encode done).length
  counter : i.toNat + done.length = p
  size_lt : (encode (done ++ rest)).length < 0x100000000

theorem At.lt {done rest : List Entry} {i : UInt32} {p : Nat} (h : At done rest i p)
    (hne : done ++ rest ≠ []) : i < UInt32.ofNat (encode (done ++ rest)).length := by
  have hcounter := h.counter
  have hrest := length_le_encode rest
  have hlen : (encode (done ++ rest)).length = p + (encode rest).length := by
    rw [encode_append, List.length_append, h.pos]
  have hcount : 0 < done.length + rest.length := by
    rw [← List.length_append]
    exact List.length_pos_iff.mpr hne
  rw [UInt32.lt_iff_toNat_lt, UInt32.toNat_ofNat', Nat.mod_eq_of_lt h.size_lt]
  omega

theorem At.next {done rest : List Entry} {e : Entry} {i : UInt32} {p : Nat}
    (h : At done (e :: rest) i p) :
    At (done ++ [e]) rest (i + e.len.toUInt32) (p + 1 + e.len.toNat) := by
  have hcounter := h.counter
  have hsize := h.size_lt
  have hlist : done ++ [e] ++ rest = done ++ e :: rest := by simp
  have hlen : (encode (done ++ e :: rest)).length = p + (e.bytes.length + 1) +
      (encode rest).length := by
    rw [encode_append, encode_cons, List.length_append, List.length_append, h.pos,
      Entry.encode_length]
    omega
  refine ⟨?_, ?_, by rw [hlist]; exact hsize⟩
  · rw [encode_append, List.length_append, ← h.pos, encode_cons, encode_nil, List.append_nil,
      Entry.encode_length, Entry.len_toNat]
    omega
  · have hsum : (i + e.len.toUInt32).toNat = i.toNat + e.bytes.length := by
      rw [UInt32.toNat_add, UInt8.toNat_toUInt32, Entry.len_toNat]
      exact Nat.mod_eq_of_lt (by omega)
    rw [hsum, List.length_append, Entry.len_toNat, List.length_singleton]
    omega

theorem At.entry {done rest : List Entry} {e : Entry} {i : UInt32} {p : Nat}
    (h : At done (e :: rest) i p) :
    (encode (done ++ e :: rest))[p]? = some e.len ∧
      slice (encode (done ++ e :: rest)) (p + 1) e.len.toNat = e.bytes ∧
      p + 1 + e.len.toNat ≤ (encode (done ++ e :: rest)).length := by
  have hmem : encode (done ++ e :: rest) = encode done ++ (e.encode ++ encode rest) := by
    rw [encode_append, encode_cons]
  rw [hmem, h.pos]
  refine ⟨?_, ?_, ?_⟩
  · rw [List.getElem?_append_right (Nat.le_refl _), Nat.sub_self]
    rfl
  · rw [slice, Entry.len_toNat, Entry.encode]
    simp
  · rw [List.length_append, List.length_append, Entry.encode_length, Entry.len_toNat]
    omega

/-- One iteration: the loop returns what the inner loop finds, or goes on to
the next entry. -/
theorem selectLoop_step {done rest : List Entry} {e : Entry} {i : UInt32} {p : Nat}
    (h : At done (e :: rest) i p) {inp : List Byte} (hinp : inp.length < 0x100000000)
    (failureBehavior : Int) (last : Option (Nat × Byte)) :
    selectLoop inp (UInt32.ofNat inp.length) (some (encode (done ++ e :: rest)))
        (UInt32.ofNat (encode (done ++ e :: rest)).length) failureBehavior i p last =
      match (spans inp 0).find? (fun s => s.bytes inp = e.bytes) with
      | some s => .ok ⟨.ok, some (.inPeerList s.pos, s.len)⟩
      | none =>
        selectLoop inp (UInt32.ofNat inp.length) (some (encode (done ++ e :: rest)))
          (UInt32.ofNat (encode (done ++ e :: rest)).length) failureBehavior
          (i + e.len.toUInt32) (p + 1 + e.len.toNat) (some (p + 1, e.len)) := by
  obtain ⟨hlen, hbytes, hfits⟩ := h.entry
  obtain ⟨hp, hget⟩ := List.getElem?_eq_some_iff.mp hlen
  have hinlen : (UInt32.ofNat inp.length).toNat = inp.length := by
    rw [UInt32.toNat_ofNat', Nat.mod_eq_of_lt hinp]
  conv_lhs => rw [selectLoop.eq_def, if_pos (h.lt (by simp))]
  simp only [dif_pos hp, hget, hinlen, findProto_eq inp hfits, hbytes]
  cases (spans inp 0).find? (fun s => s.bytes inp = e.bytes) <;> rfl

/-- Behind the last entry of a list that is not empty, the loop reads one byte
more. -/
theorem selectLoop_end {done : List Entry} {i : UInt32} {p : Nat} (h : At done [] i p)
    (hne : done ≠ []) (inp : List Byte) (inlen : UInt32) (failureBehavior : Int)
    (last : Option (Nat × Byte)) :
    selectLoop inp inlen (some (encode done)) (UInt32.ofNat (encode done).length) failureBehavior
      i p last = .error .outOfBounds := by
  have hlt := h.lt (by simpa using hne)
  have hp := h.pos
  rw [List.append_nil] at hlt
  rw [selectLoop.eq_def, if_pos hlt]
  simp only [dif_neg (show ¬ p < (encode done).length by omega)]

/-! ## The contract -/

/-- The bytes behind `*out`. -/
def OutPtr.read (inp supportedProtos : List Byte) (n : Nat) : OutPtr → List Byte
  | .inPeerList pos => slice inp pos n
  | .inSupportedProtos pos => slice supportedProtos pos n

/-- What the library sees of a selection: the return value, `*outlen` and the
bytes behind `*out`. -/
def Selection.output (sel : Selection) (inp supportedProtos : List Byte) :
    TlsextErr × Option (Byte × List Byte) :=
  (sel.ret, sel.out.map fun (ptr, n) => (n, ptr.read inp supportedProtos n.toNat))

/-- The contract: the first of our own protocols that the peer has too, or the
fallback that the failure behaviour asks for. -/
def preferred (own peer : List Entry) (failureBehavior : Int) :
    TlsextErr × Option (Byte × List Byte) :=
  match own.find? (· ∈ peer), own.getLast? with
  | some e, _ => (.ok, some (e.len, e.bytes))
  | none, some e =>
    if failureBehavior = sslSelectorFailureChooseMyLastProtocol then
      (.ok, some (e.len, e.bytes))
    else (.noack, none)
  | none, none => (.noack, none)

/-- The selection stays inside the two lists and meets the contract. -/
def MeetsContract (own peer : List Entry) (failureBehavior : Int) : Prop :=
  ∃ sel, selectNextProto (encode peer) (UInt32.ofNat (encode peer).length) (some (encode own))
      (UInt32.ofNat (encode own).length) failureBehavior = .ok sel ∧
    sel.output (encode peer) (encode own) = preferred own peer failureBehavior

/-- From any entry on, the loop finds the first one that the peer has too. -/
theorem selectLoop_found {done rest : List Entry} {i : UInt32} {p : Nat} (h : At done rest i p)
    {peer : List Entry} (hpeer : (encode peer).length < 0x100000000) {e : Entry}
    (hfind : rest.find? (· ∈ peer) = some e) (failureBehavior : Int)
    (last : Option (Nat × Byte)) :
    ∃ sel, selectLoop (encode peer) (UInt32.ofNat (encode peer).length)
        (some (encode (done ++ rest))) (UInt32.ofNat (encode (done ++ rest)).length)
        failureBehavior i p last = .ok sel ∧
      sel.output (encode peer) (encode (done ++ rest)) = (.ok, some (e.len, e.bytes)) := by
  -- On the entries left, each of which moves to those already seen.
  induction rest generalizing done i p last with
  | nil => cases hfind
  | cons e' rest ih =>
    have hspan := find_spans_encode peer e'
    have hlist : done ++ [e'] ++ rest = done ++ e' :: rest := by simp
    rw [selectLoop_step h hpeer]
    cases hs : (spans (encode peer) 0).find? (fun s => s.bytes (encode peer) = e'.bytes) with
    | some s =>
      simp only [hs] at hspan ⊢
      obtain ⟨hlen, hbytes, hmem⟩ := hspan
      obtain rfl : e' = e := by simpa [hmem] using hfind
      refine ⟨_, rfl, ?_⟩
      simp only [Selection.output, Option.map_some, OutPtr.read, hlen]
      rw [← hbytes, Span.bytes, hlen]
    | none =>
      simp only [hs] at hspan ⊢
      have hrest : rest.find? (· ∈ peer) = some e := by simpa [hspan] using hfind
      simpa only [hlist] using ih h.next hrest (some (p + 1, e'.len))

/-- Where the peer has none of the entries left, the loop leaves the list. -/
theorem selectLoop_missed {done rest : List Entry} {i : UInt32} {p : Nat} (h : At done rest i p)
    (hne : done ++ rest ≠ []) {peer : List Entry} (hpeer : (encode peer).length < 0x100000000)
    (hmiss : ∀ e ∈ rest, e ∉ peer) (failureBehavior : Int) (last : Option (Nat × Byte)) :
    selectLoop (encode peer) (UInt32.ofNat (encode peer).length)
      (some (encode (done ++ rest))) (UInt32.ofNat (encode (done ++ rest)).length)
      failureBehavior i p last = .error .outOfBounds := by
  induction rest generalizing done i p last with
  | nil =>
    rw [List.append_nil] at hne ⊢
    exact selectLoop_end h hne _ _ _ _
  | cons e rest ih =>
    have hspan := find_spans_encode peer e
    have hlist : done ++ [e] ++ rest = done ++ e :: rest := by simp
    rw [selectLoop_step h hpeer]
    cases hs : (spans (encode peer) 0).find? (fun s => s.bytes (encode peer) = e.bytes) with
    | some s =>
      simp only [hs] at hspan
      exact absurd hspan.2.2 (hmiss e List.mem_cons_self)
    | none =>
      simp only
      simpa only [hlist] using ih h.next (by simp)
        (fun e' he' => hmiss e' (List.mem_cons_of_mem e he')) (some (p + 1, e.len))

/-- A protocol that both sides have is selected, and the first of these wins. -/
theorem selectNextProto_found {own peer : List Entry} (hown : (encode own).length < 0x100000000)
    (hpeer : (encode peer).length < 0x100000000) (h : ∃ e ∈ own, e ∈ peer) (failureBehavior : Int) :
    ∃ sel, selectNextProto (encode peer) (UInt32.ofNat (encode peer).length) (some (encode own))
        (UInt32.ofNat (encode own).length) failureBehavior = .ok sel ∧
      sel.output (encode peer) (encode own) = preferred own peer failureBehavior := by
  have hstart : At [] own 0 0 := ⟨rfl, rfl, hown⟩
  obtain ⟨e, he, hmem⟩ := h
  cases hfind : own.find? (· ∈ peer) with
  | none => exact absurd hmem (by simpa using List.find?_eq_none.mp hfind e he)
  | some e' =>
    obtain ⟨sel, hsel, houtput⟩ := selectLoop_found hstart hpeer hfind failureBehavior none
    refine ⟨sel, hsel, ?_⟩
    rw [List.nil_append] at houtput
    rw [houtput, preferred, hfind]

/-- Without a common protocol the selection leaves the configured list. -/
theorem selectNextProto_missed {own peer : List Entry} (hown : (encode own).length < 0x100000000)
    (hpeer : (encode peer).length < 0x100000000) (hne : own ≠ []) (hmiss : ∀ e ∈ own, e ∉ peer)
    (failureBehavior : Int) :
    selectNextProto (encode peer) (UInt32.ofNat (encode peer).length) (some (encode own))
      (UInt32.ofNat (encode own).length) failureBehavior = .error .outOfBounds := by
  have hstart : At [] own 0 0 := ⟨rfl, rfl, hown⟩
  have herror := selectLoop_missed hstart hne hpeer hmiss failureBehavior none
  rwa [List.nil_append] at herror

/-- The selection meets its contract exactly when nothing is configured or the
peer has one of the configured protocols. -/
theorem selectNextProto_meets_iff {own peer : List Entry} (hown : (encode own).length < 0x100000000)
    (hpeer : (encode peer).length < 0x100000000) (failureBehavior : Int) :
    MeetsContract own peer failureBehavior ↔ own = [] ∨ ∃ e ∈ own, e ∈ peer := by
  constructor
  · rintro ⟨sel, hsel, -⟩
    by_contra hnot
    simp only [not_or, not_exists, not_and] at hnot
    rw [selectNextProto_missed hown hpeer hnot.1 hnot.2 failureBehavior] at hsel
    cases hsel
  · rintro (rfl | hcommon)
    · refine ⟨⟨.noack, none⟩, ?_, rfl⟩
      rw [selectNextProto, selectLoop.eq_def, if_neg (by decide)]
    · exact selectNextProto_found hown hpeer hcommon failureBehavior

/-- The peer has the second of two configured protocols. -/
theorem selectNextProto_meets_second :
    MeetsContract [⟨[1, 2], by decide⟩, ⟨[3], by decide⟩] [⟨[3], by decide⟩]
      sslSelectorFailureNoAdvertise :=
  (selectNextProto_meets_iff (by decide) (by decide) _).mpr
    (.inr ⟨⟨[3], by decide⟩, by decide, by decide⟩)

/-- One configured protocol that the peer does not have: the loop reads behind
the configured list, whatever the failure behaviour is. -/
theorem selectNextProto_no_common :
    ¬ MeetsContract [⟨[1], by decide⟩] [⟨[2], by decide⟩] sslSelectorFailureNoAdvertise ∧
      ¬ MeetsContract [⟨[1], by decide⟩] [⟨[2], by decide⟩]
        sslSelectorFailureChooseMyLastProtocol := by
  have hfault : ∀ behavior ∈ [(0 : Int), 1],
      selectNextProto [1, 2] 2 (some [1, 1]) 2 behavior = .error .outOfBounds := by
    decide +kernel
  constructor
  · rintro ⟨sel, hsel, -⟩
    cases hsel.symm.trans (hfault 0 (by decide))
  · rintro ⟨sel, hsel, -⟩
    cases hsel.symm.trans (hfault 1 (by decide))

end Protocol
