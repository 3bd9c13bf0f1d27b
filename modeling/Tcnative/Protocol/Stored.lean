-- SUMMARY: The stored protocol lists over sequences of native setter calls, some of whose allocations fail.
import Tcnative.Base.Machine
import Tcnative.Protocol.Config

/-!
# Stored protocol lists

Both native setters free the old list before they allocate the new one, and
write the length only behind a successful allocation. A callback that an earlier
call registered may run between any two calls.
-/

namespace Protocol
open CMem Jni

/-! ## Calls and callbacks -/

/-- A `byte[]`. -/
structure JavaArray where
  bytes : List Byte
  isArrayLength : IsArrayLength bytes.length

/-- A call of `setNpnProtos0` or `setAlpnProtos0`, and whether its allocation
succeeds. -/
structure StoreCall where
  ext : Extension
  protos : Option JavaArray
  selectorFailureBehavior : Int
  malloc : Bool

def StoreCall.apply (alpnLinked : Bool) (c : TcnSslCtxt) (call : StoreCall) :
    Option Throwable × TcnSslCtxt :=
  match call.ext with
  | .npn =>
    setNpnProtos0 c (call.protos.map (·.bytes)) call.selectorFailureBehavior call.malloc
  | .alpn =>
    setAlpnProtos0 alpnLinked c (call.protos.map (·.bytes)) call.selectorFailureBehavior
      call.malloc

/-- One call. It returns the exception that it throws. -/
def storeStep (alpnLinked : Bool) :
    Machine.Step Fault TcnSslCtxt StoreCall (Option Throwable) :=
  fun c call => .ok (call.apply alpnLinked c)

/-- `tcn_SSL_callback_next_protos`: what it writes to `*data` and `*len`. -/
def tcnSSLCallbackNextProtos (c : TcnSslCtxt) : Option (List Byte) × UInt32 :=
  (c.next.protoData, c.next.protoLen)

/-! ## What the callbacks rely on -/

/-- The length is the number of bytes behind the pointer, zero for NULL. -/
def ProtoFields.Consistent (f : ProtoFields) : Prop :=
  f.protoLen.toNat = (f.protoData.getD []).length

/-- `len` bytes can be read at `data`. -/
def Readable (data : Option (List Byte)) (len : UInt32) : Prop :=
  ∀ i < len.toNat, ∃ mem, data = some mem ∧ i < mem.length

/-- Both lists are consistent, so the advertised list can be read, and no
selector reads behind NULL. -/
structure TcnSslCtxt.ListsReadable (c : TcnSslCtxt) : Prop where
  consistent : ∀ ext, (c.fields ext).Consistent
  advertised : Readable (tcnSSLCallbackNextProtos c).1 (tcnSSLCallbackNextProtos c).2
  selected : ∀ ext inp inlen, c.selector ext inp inlen ≠ .error .nullPointer

instance (f : ProtoFields) : Decidable f.Consistent := inferInstanceAs (Decidable (_ = _))

theorem ProtoFields.Consistent.readable {f : ProtoFields} (h : f.Consistent) :
    Readable f.protoData f.protoLen := by
  intro i hi
  rw [h] at hi
  cases hdata : f.protoData with
  | none => rw [hdata] at hi; cases hi
  | some mem => exact ⟨mem, rfl, by rwa [hdata] at hi⟩

/-- The inner loop never reads behind NULL. -/
theorem findProto_ne_nullPointer (inp : List Byte) (inlen : Nat) (supportedProtos : List Byte)
    (target : Nat) (n : Byte) (p : Nat) :
    findProto inp inlen supportedProtos target n p ≠ .error .nullPointer := by
  fun_induction findProto inp inlen supportedProtos target n p with
  | case1 p hp hnone => simp
  | case2 p hp protoLen hsome proto hlen f hmem =>
    rintro ⟨⟩
    unfold memcmp at hmem
    split at hmem
    · cases hmem
    · cases hmem
  | case3 => simp
  | case4 p hp protoLen hsome proto hlen hmem ih => exact ih
  | case5 p hp protoLen hsome proto hlen ih => exact ih
  | case6 => simp

theorem selectLoop_ne_nullPointer (inp : List Byte) (inlen : UInt32) (mem : List Byte)
    (len : UInt32) (failureBehavior : Int) (i : UInt32) (p : Nat) (last : Option (Nat × Byte)) :
    selectLoop inp inlen (some mem) len failureBehavior i p last ≠ .error .nullPointer := by
  induction hmeasure : mem.length - p using Nat.strongRecOn generalizing i p last with
  | ind n ih =>
    rw [selectLoop.eq_def]
    split
    · dsimp only
      split
      · rename_i hp
        cases hfind : findProto inp inlen.toNat mem (p + 1) mem[p] 0 with
        | error f =>
          rintro ⟨⟩
          exact findProto_ne_nullPointer _ _ _ _ _ _ hfind
        | ok found =>
          cases found with
          | some s => simp
          | none => exact ih _ (by omega) _ _ _ rfl
      · simp
    · split
      · split <;> simp
      · simp

/-- Where the list is consistent, its selector does not read behind NULL. -/
theorem ProtoFields.Consistent.select {f : ProtoFields} (h : f.Consistent) (inp : List Byte)
    (inlen : UInt32) :
    selectNextProto inp inlen f.protoData f.protoLen f.selectorFailureBehavior ≠
      .error .nullPointer := by
  cases hdata : f.protoData with
  | some mem => exact selectLoop_ne_nullPointer _ _ _ _ _ _ _ _
  | none =>
    have hlen : f.protoLen = 0 := UInt32.toNat_inj.mp (by rw [h, hdata]; rfl)
    rw [selectNextProto, selectLoop.eq_def, hlen, if_neg (by decide)]
    simp

theorem TcnSslCtxt.listsReadable_iff (c : TcnSslCtxt) :
    c.ListsReadable ↔ ∀ ext, (c.fields ext).Consistent := by
  refine ⟨fun h => h.consistent, fun h => ⟨h, (h .npn).readable, fun ext inp inlen => ?_⟩⟩
  rw [c.selector_eq]
  exact (h ext).select inp inlen

/-! ## What a call does to the fields -/

/-- The array that a call copies to the fields of an extension. -/
def StoreCall.stores (alpnLinked : Bool) (call : StoreCall) (ext : Extension) : Option JavaArray :=
  if call.ext = ext ∧ (ext = .alpn → alpnLinked = true) then call.protos else none

/-- An allocation that fails finds an empty list. -/
def StoreCall.Safe (alpnLinked : Bool) (c : TcnSslCtxt) (call : StoreCall) : Prop :=
  (call.stores alpnLinked call.ext).isSome = true → call.malloc = true ∨
    (c.fields call.ext).protoLen = 0

instance (alpnLinked : Bool) (c : TcnSslCtxt) (call : StoreCall) :
    Decidable (call.Safe alpnLinked c) := inferInstanceAs (Decidable (_ → _))

theorem setNpnProtos0_fields (c : TcnSslCtxt) (protos : Option (List Byte)) (behavior : Int)
    (malloc : Bool) :
    (setNpnProtos0 c protos behavior malloc).2.alpn = c.alpn ∧
      (setNpnProtos0 c protos behavior malloc).2.next =
        match protos with
        | none => c.next
        | some bytes => (storeProtos c.next bytes malloc).2 := by
  unfold setNpnProtos0
  cases protos with
  | none => exact ⟨rfl, rfl⟩
  | some bytes =>
    cases malloc with
    | false => exact ⟨rfl, rfl⟩
    | true =>
      simp only [storeProtos, if_true]
      split <;> exact ⟨rfl, rfl⟩

theorem setAlpnProtos0_fields (alpnLinked : Bool) (c : TcnSslCtxt) (protos : Option (List Byte))
    (behavior : Int) (malloc : Bool) :
    (setAlpnProtos0 alpnLinked c protos behavior malloc).2.next = c.next ∧
      (setAlpnProtos0 alpnLinked c protos behavior malloc).2.alpn =
        match if alpnLinked then protos else none with
        | none => c.alpn
        | some bytes => (storeProtos c.alpn bytes malloc).2 := by
  unfold setAlpnProtos0
  cases alpnLinked with
  | false => exact ⟨rfl, rfl⟩
  | true =>
    cases protos with
    | none => exact ⟨rfl, rfl⟩
    | some bytes =>
      cases malloc with
      | false => exact ⟨rfl, rfl⟩
      | true =>
        simp only [storeProtos, if_true, Bool.not_true, Bool.false_eq_true, if_false]
        split <;> exact ⟨rfl, rfl⟩

/-- A call changes the fields that it stores its array in, and no others. -/
theorem StoreCall.apply_fields (alpnLinked : Bool) (c : TcnSslCtxt) (call : StoreCall)
    (ext : Extension) :
    (call.apply alpnLinked c).2.fields ext =
      match call.stores alpnLinked ext with
      | none => c.fields ext
      | some protos => (storeProtos (c.fields ext) protos.bytes call.malloc).2 := by
  cases hcall : call.ext with
  | npn =>
    obtain ⟨halpn, hnext⟩ := setNpnProtos0_fields c (call.protos.map (·.bytes))
      call.selectorFailureBehavior call.malloc
    simp only [StoreCall.apply, hcall, StoreCall.stores]
    cases ext with
    | npn =>
      simp only [TcnSslCtxt.fields, hnext]
      cases call.protos <;> rfl
    | alpn => simpa [TcnSslCtxt.fields] using halpn
  | alpn =>
    obtain ⟨hnext, halpn⟩ := setAlpnProtos0_fields alpnLinked c (call.protos.map (·.bytes))
      call.selectorFailureBehavior call.malloc
    simp only [StoreCall.apply, hcall, StoreCall.stores]
    cases ext with
    | npn => simpa [TcnSslCtxt.fields] using hnext
    | alpn =>
      simp only [TcnSslCtxt.fields, halpn]
      cases alpnLinked with
      | false => rfl
      | true => cases call.protos <;> rfl

/-- A list is consistent behind an allocation if it succeeded or the list before
was empty. -/
theorem storeProtos_consistent (f : ProtoFields) (protos : JavaArray) (malloc : Bool) :
    (storeProtos f protos.bytes malloc).2.Consistent ↔ malloc = true ∨ f.protoLen = 0 := by
  cases malloc with
  | true =>
    have hlt : protos.bytes.length < 0x100000000 := Nat.lt_trans protos.isArrayLength (by decide)
    simp [storeProtos, ProtoFields.Consistent, Nat.mod_eq_of_lt hlt]
  | false =>
    simp [storeProtos, ProtoFields.Consistent, ← UInt32.toNat_inj]

/-! ## Sequences of calls -/

theorem make_consistent (mode : Int) (ext : Extension) :
    ((TcnSslCtxt.make mode).fields ext).Consistent := by
  cases ext <;> rfl

/-- A safe call keeps both lists consistent. -/
theorem StoreCall.Safe.consistent {alpnLinked : Bool} {c : TcnSslCtxt} {call : StoreCall}
    (h : call.Safe alpnLinked c) (hc : ∀ ext, (c.fields ext).Consistent) (ext : Extension) :
    ((call.apply alpnLinked c).2.fields ext).Consistent := by
  rw [call.apply_fields]
  cases hstores : call.stores alpnLinked ext with
  | none => exact hc ext
  | some protos =>
    have hext : call.ext = ext := by
      by_contra hne
      simp [StoreCall.stores, hne] at hstores
    subst hext
    exact (storeProtos_consistent _ protos _).mpr (h (by rw [hstores]; rfl))

/-- A call that is not safe leaves an inconsistent list behind. -/
theorem StoreCall.not_consistent {alpnLinked : Bool} {c : TcnSslCtxt} {call : StoreCall}
    (h : ¬ call.Safe alpnLinked c) :
    ¬ ((call.apply alpnLinked c).2.fields call.ext).Consistent := by
  rw [call.apply_fields]
  cases hstores : call.stores alpnLinked call.ext with
  | none => exact absurd (fun hsome => by simp [hstores] at hsome) h
  | some protos =>
    intro hconsistent
    exact h fun _ => (storeProtos_consistent _ protos _).mp hconsistent

/-- The run reaches a context whose lists are readable. -/
def EndsReadable (alpnLinked : Bool) (c : TcnSslCtxt) (calls : List StoreCall) : Prop :=
  Machine.Ends (storeStep alpnLinked) (fun _ c' => c'.ListsReadable) c calls

/-- The lists are readable after every call of a sequence if and only if every
allocation that fails finds a stored length of zero. -/
theorem storeRun_readable_iff (alpnLinked : Bool) (mode : Int) (calls : List StoreCall) :
    (∀ calls₁, calls₁ <+: calls → EndsReadable alpnLinked (.make mode) calls₁) ↔
      Machine.Meets (storeStep alpnLinked) (fun c call => call.Safe alpnLinked c) (.make mode)
        calls := by
  refine Machine.forall_prefix_iff_meets (R := fun _ => True) (fun _ _ => trivial) ?_ ?_
  · intro calls _ hmeets
    obtain ⟨t, c, hrun, hc, -⟩ := Machine.run_of_meets
      (I := fun c => ∀ ext, (c.fields ext).Consistent) (Q := fun _ => True)
      (fun c call hc hsafe => ⟨_, _, rfl, fun ext => hsafe.consistent hc ext, trivial⟩)
      (make_consistent mode) hmeets
    exact ⟨t, c, hrun, c.listsReadable_iff.mpr hc⟩
  · rintro calls call - - - t c hrun hunsafe ⟨t', c', hrun', hreadable⟩
    have hsnoc := Machine.run_snoc (e := call) hrun rfl
    cases hsnoc.symm.trans hrun'
    exact StoreCall.not_consistent hunsafe (hreadable.consistent call.ext)

/-- A server stores a list of three bytes, and its next allocation fails. The
advertisement then hands out NULL with a length of three. -/
theorem storeRun_failed_malloc :
    ¬ EndsReadable true (.make sslModeServer)
      [⟨.npn, some ⟨[2, 104, 50], by decide⟩, 0, true⟩,
        ⟨.npn, some ⟨[], by decide⟩, 0, false⟩] := by
  rintro ⟨t, c, hrun, hreadable⟩
  cases hrun
  obtain ⟨mem, hdata, -⟩ := hreadable.advertised 0 (by decide)
  cases hdata

end Protocol
