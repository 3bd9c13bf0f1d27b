-- SUMMARY: The protocol lists of an `SSLContext`: the Java wire encoder, the native setters, and what the registered selectors decide.
import Tcnative.Base.Jni
import Tcnative.Protocol.Select

/-!
# Protocol configuration

`SSLContext.setAlpnProtos` and `setNpnProtos` encode an array of strings, and
the native side copies the bytes into the context and registers a callback. The
failure behaviour that the caller passes is not copied.
-/

namespace Protocol
open CMem Jni LengthPrefixed

/-! ## The Java side -/

/-- A Java string as its UTF-16 code units. -/
abbrev JavaString := List UInt16

/-- `getBytes(StandardCharsets.US_ASCII)`. A character outside ASCII becomes a
question mark, also one that is written as a surrogate pair. -/
def getBytesAscii : JavaString → List Byte
  | [] => []
  | [c] => [if c < 128 then c.toUInt8 else 63]
  -- A surrogate pair is one character, an unpaired surrogate another.
  | c :: d :: cs =>
    if c < 128 then c.toUInt8 :: getBytesAscii (d :: cs)
    else if 0xD800 ≤ c ∧ c < 0xDC00 ∧ 0xDC00 ≤ d ∧ d < 0xE000 then 63 :: getBytesAscii cs
    else 63 :: getBytesAscii (d :: cs)

/-- `MAX_ALPN_NPN_PROTO_SIZE`. -/
def maxAlpnNpnProtoSize : Nat := 65535

/-- `protocolsToWireFormat`. The stream keeps the low byte of a length. -/
def protocolsToWireFormat (protocols : List JavaString) : List Byte :=
  protocols.flatMap fun p =>
    let bytes := getBytesAscii p
    if bytes.length ≤ maxAlpnNpnProtoSize then UInt8.ofNat bytes.length :: bytes else []

/-! ## The native side -/

/-- `SSL_MODE_CLIENT`. -/
def sslModeClient : Int := 0

/-- `SSL_MODE_SERVER`. -/
def sslModeServer : Int := 1

/-- The three fields that `tcn_ssl_ctxt_t` has for either extension:
`*_proto_data`, `*_proto_len` and `*_selector_failure_behavior`. -/
structure ProtoFields where
  protoData : Option (List Byte)
  protoLen : UInt32
  selectorFailureBehavior : Int
  deriving DecidableEq, Repr

/-- What the setters tell the `SSL_CTX`: the callbacks with the context as their
argument, and the list that `SSL_CTX_set_alpn_protos` copies. -/
structure SslCtx where
  nextProtoSelectCb : Bool
  nextProtosAdvertisedCb : Bool
  alpnSelectCb : Bool
  alpnProtos : Option (List Byte)
  deriving DecidableEq, Repr

/-- The part of `tcn_ssl_ctxt_t` that the setters and the callbacks use. -/
structure TcnSslCtxt where
  mode : Int
  next : ProtoFields
  alpn : ProtoFields
  ctx : SslCtx
  deriving DecidableEq, Repr

/-- A context as `SSLContext.make` returns it: its memory is zeroed. -/
def TcnSslCtxt.make (mode : Int) : TcnSslCtxt where
  mode := mode
  next := ⟨none, 0, 0⟩
  alpn := ⟨none, 0, 0⟩
  ctx := ⟨false, false, false, none⟩

/-- What both setters do with the fields: free the old list, allocate memory for
the new one and copy it there. `malloc` is whether the allocation succeeds. -/
def storeProtos (fields : ProtoFields) (protos : List Byte) (malloc : Bool) :
    Option Throwable × ProtoFields :=
  if malloc then
    (none, { fields with protoData := some protos, protoLen := UInt32.ofNat protos.length })
  -- The old list is gone, and the old length stays.
  else (some (.outOfMemoryError "OPENSSL_malloc failed"), { fields with protoData := none })

/-- `SSLContext.setNpnProtos0`. -/
def setNpnProtos0 (c : TcnSslCtxt) (nextProtos : Option (List Byte))
    (_selectorFailureBehavior : Int) (malloc : Bool) : Option Throwable × TcnSslCtxt :=
  match nextProtos with
  | none => (none, c)
  | some protos =>
    match storeProtos c.next protos malloc with
    | (some cause, next) => (some cause, { c with next })
    | (none, next) =>
      if c.mode = sslModeClient then
        (none, { c with next, ctx := { c.ctx with nextProtoSelectCb := true } })
      else (none, { c with next, ctx := { c.ctx with nextProtosAdvertisedCb := true } })

/-- `SSLContext.setAlpnProtos0`. `alpnLinked` is whether the OpenSSL that the
library is linked with has the ALPN functions. -/
def setAlpnProtos0 (alpnLinked : Bool) (c : TcnSslCtxt) (alpnProtos : Option (List Byte))
    (_selectorFailureBehavior : Int) (malloc : Bool) : Option Throwable × TcnSslCtxt :=
  if !alpnLinked then (none, c)
  else
    match alpnProtos with
    | none => (none, c)
    | some protos =>
      match storeProtos c.alpn protos malloc with
      | (some cause, alpn) => (some cause, { c with alpn })
      | (none, alpn) =>
        if c.mode = sslModeClient then
          (none, { c with alpn, ctx := { c.ctx with alpnProtos := some protos } })
        else (none, { c with alpn, ctx := { c.ctx with alpnSelectCb := true } })

/-- `SSLContext.setNpnProtos`. -/
def setNpnProtos (c : TcnSslCtxt) (nextProtos : List JavaString) (selectorFailureBehavior : Int)
    (malloc : Bool) : Option Throwable × TcnSslCtxt :=
  setNpnProtos0 c (some (protocolsToWireFormat nextProtos)) selectorFailureBehavior malloc

/-- `SSLContext.setAlpnProtos`. -/
def setAlpnProtos (alpnLinked : Bool) (c : TcnSslCtxt) (alpnProtos : List JavaString)
    (selectorFailureBehavior : Int) (malloc : Bool) : Option Throwable × TcnSslCtxt :=
  setAlpnProtos0 alpnLinked c (some (protocolsToWireFormat alpnProtos)) selectorFailureBehavior
    malloc

/-- `tcn_SSL_callback_select_next_proto`. -/
def tcnSSLCallbackSelectNextProto (c : TcnSslCtxt) (inp : List Byte) (inlen : UInt32) :
    Except Fault Selection :=
  selectNextProto inp inlen c.next.protoData c.next.protoLen c.next.selectorFailureBehavior

/-- `tcn_SSL_callback_alpn_select_proto`. -/
def tcnSSLCallbackAlpnSelectProto (c : TcnSslCtxt) (inp : List Byte) (inlen : UInt32) :
    Except Fault Selection :=
  selectNextProto inp inlen c.alpn.protoData c.alpn.protoLen c.alpn.selectorFailureBehavior

/-! ## Sequences of calls -/

/-- The two extensions. -/
inductive Extension where
  | npn
  | alpn
  deriving DecidableEq, Repr

/-- The name of a protocol: an ASCII string of 1 to 255 characters. -/
structure ProtocolName where
  chars : JavaString
  nonempty : chars ≠ []
  length_lt : chars.length < 256
  ascii : ∀ c ∈ chars, c < 128
  deriving DecidableEq

/-- A call of `setNpnProtos` or `setAlpnProtos` with an array that is not empty. -/
structure SetProtos where
  ext : Extension
  protos : List ProtocolName
  nonempty : protos ≠ []
  selectorFailureBehavior : Int
  deriving DecidableEq

/-- Perform the call. Its allocation succeeds. -/
def SetProtos.apply (alpnLinked : Bool) (c : TcnSslCtxt) (call : SetProtos) : TcnSslCtxt :=
  match call.ext with
  | .npn =>
    (setNpnProtos c (call.protos.map (·.chars)) call.selectorFailureBehavior true).2
  | .alpn =>
    (setAlpnProtos alpnLinked c (call.protos.map (·.chars)) call.selectorFailureBehavior true).2

def configure (alpnLinked : Bool) (c : TcnSslCtxt) (calls : List SetProtos) : TcnSslCtxt :=
  calls.foldl (SetProtos.apply alpnLinked) c

/-- Whether a selector is registered for an extension. -/
def TcnSslCtxt.registered (c : TcnSslCtxt) : Extension → Bool
  | .npn => c.ctx.nextProtoSelectCb
  | .alpn => c.ctx.alpnSelectCb

/-- The selector of an extension. -/
def TcnSslCtxt.selector (c : TcnSslCtxt) :
    Extension → List Byte → UInt32 → Except Fault Selection
  | .npn => tcnSSLCallbackSelectNextProto c
  | .alpn => tcnSSLCallbackAlpnSelectProto c

/-- The fields of an extension. -/
def TcnSslCtxt.fields (c : TcnSslCtxt) : Extension → ProtoFields
  | .npn => c.next
  | .alpn => c.alpn

/-- The contexts on which the setter of an extension registers a selector. -/
def RegistersSelector (alpnLinked : Bool) (mode : Int) : Extension → Prop
  | .npn => mode = sslModeClient
  | .alpn => alpnLinked = true ∧ mode ≠ sslModeClient

/-! ## The wire format -/

theorem getBytesAscii_ascii {s : JavaString} (h : ∀ c ∈ s, c < 128) :
    getBytesAscii s = s.map UInt16.toUInt8 := by
  fun_induction getBytesAscii s with
  | case1 => rfl
  | case2 c => simp [h c (by simp)]
  | case3 c d cs hc ih =>
    rw [ih fun x hx => h x (List.mem_cons_of_mem c hx)]
    rfl
  | case4 c d cs hc => exact absurd (h c (by simp)) hc
  | case5 c d cs hc => exact absurd (h c (by simp)) hc

/-- A protocol name as an entry of a protocol list. -/
def ProtocolName.entry (p : ProtocolName) : Entry where
  bytes := p.chars.map UInt16.toUInt8
  length_lt := by rw [List.length_map]; exact p.length_lt

/-- The wire format of protocol names is the length-prefixed list of them. -/
theorem protocolsToWireFormat_encode (protos : List ProtocolName) :
    protocolsToWireFormat (protos.map (·.chars)) = encode (protos.map ProtocolName.entry) := by
  have hentry : ∀ p : ProtocolName, getBytesAscii p.chars = p.entry.bytes :=
    fun p => getBytesAscii_ascii p.ascii
  have hfits : ∀ p : ProtocolName, p.entry.bytes.length ≤ maxAlpnNpnProtoSize := by
    intro p
    have := p.entry.length_lt
    simp only [maxAlpnNpnProtoSize]
    omega
  simp only [protocolsToWireFormat, encode, List.flatMap_map, hentry, hfits, if_true]
  rfl

/-! ## What a call changes -/

section
variable (alpnLinked : Bool) (c : TcnSslCtxt) (call : SetProtos)

/-- The fields that a call leaves behind, if it reaches them. -/
def SetProtos.stored (call : SetProtos) (c : TcnSslCtxt) : ProtoFields where
  protoData := some (encode (call.protos.map ProtocolName.entry))
  protoLen := UInt32.ofNat (encode (call.protos.map ProtocolName.entry)).length
  selectorFailureBehavior := (c.fields call.ext).selectorFailureBehavior

theorem SetProtos.apply_npn {call : SetProtos} (h : call.ext = .npn) :
    call.apply alpnLinked c =
      { c with
        next := call.stored c
        ctx :=
          if c.mode = sslModeClient then { c.ctx with nextProtoSelectCb := true }
          else { c.ctx with nextProtosAdvertisedCb := true } } := by
  simp only [apply, h, setNpnProtos, setNpnProtos0, storeProtos, if_true, stored,
    protocolsToWireFormat_encode, TcnSslCtxt.fields]
  split <;> rfl

theorem SetProtos.apply_alpn {call : SetProtos} (h : call.ext = .alpn) :
    call.apply alpnLinked c =
      if alpnLinked then
        { c with
          alpn := call.stored c
          ctx :=
            if c.mode = sslModeClient then
              { c.ctx with alpnProtos := some (encode (call.protos.map ProtocolName.entry)) }
            else { c.ctx with alpnSelectCb := true } }
      else c := by
  cases alpnLinked with
  | false => simp [apply, h, setAlpnProtos, setAlpnProtos0]
  | true =>
    simp only [apply, h, setAlpnProtos, setAlpnProtos0, storeProtos, if_true, stored,
      protocolsToWireFormat_encode, TcnSslCtxt.fields, Bool.not_true, Bool.false_eq_true, if_false]
    split <;> rfl

/-- No call changes the mode or stores its failure behaviour. -/
theorem SetProtos.apply_keeps (ext : Extension) :
    (call.apply alpnLinked c).mode = c.mode ∧
      ((call.apply alpnLinked c).fields ext).selectorFailureBehavior =
        (c.fields ext).selectorFailureBehavior := by
  cases hcall : call.ext with
  | npn =>
    rw [apply_npn _ _ hcall]
    cases ext <;> simp [TcnSslCtxt.fields, stored, hcall]
  | alpn =>
    rw [apply_alpn _ _ hcall]
    cases alpnLinked with
    | false => exact ⟨rfl, rfl⟩
    | true => cases ext <;> simp [TcnSslCtxt.fields, stored, hcall]

/-- A call changes only the fields of its own extension. -/
theorem SetProtos.apply_other {call : SetProtos} {ext : Extension} (h : call.ext ≠ ext) :
    (call.apply alpnLinked c).fields ext = c.fields ext ∧
      (call.apply alpnLinked c).registered ext = c.registered ext := by
  cases hcall : call.ext with
  | npn =>
    rw [apply_npn _ _ hcall]
    cases ext with
    | npn => exact absurd hcall h
    | alpn =>
      refine ⟨rfl, ?_⟩
      simp only [TcnSslCtxt.registered]
      split <;> rfl
  | alpn =>
    rw [apply_alpn _ _ hcall]
    cases ext with
    | alpn => exact absurd hcall h
    | npn =>
      cases alpnLinked with
      | false => exact ⟨rfl, rfl⟩
      | true =>
        refine ⟨rfl, ?_⟩
        simp only [TcnSslCtxt.registered, if_true]
        split <;> rfl

/-- On a context where the setter registers a selector, a call stores its list
and registers it. -/
theorem SetProtos.apply_own {c : TcnSslCtxt} {call : SetProtos}
    (h : RegistersSelector alpnLinked c.mode call.ext) :
    (call.apply alpnLinked c).fields call.ext = call.stored c ∧
      (call.apply alpnLinked c).registered call.ext = true := by
  cases hcall : call.ext with
  | npn =>
    simp only [hcall, RegistersSelector] at h
    rw [apply_npn _ _ hcall]
    simp [TcnSslCtxt.fields, TcnSslCtxt.registered, h]
  | alpn =>
    simp only [hcall, RegistersSelector] at h
    rw [apply_alpn _ _ hcall]
    simp [TcnSslCtxt.fields, TcnSslCtxt.registered, h]

end

/-! ## What a sequence of calls leaves behind -/

section
variable (alpnLinked : Bool)

theorem configure_keeps (c : TcnSslCtxt) (calls : List SetProtos) (ext : Extension) :
    (configure alpnLinked c calls).mode = c.mode ∧
      ((configure alpnLinked c calls).fields ext).selectorFailureBehavior =
        (c.fields ext).selectorFailureBehavior := by
  induction calls generalizing c with
  | nil => exact ⟨rfl, rfl⟩
  | cons call calls ih =>
    obtain ⟨hmode, hbehavior⟩ := SetProtos.apply_keeps alpnLinked c call ext
    obtain ⟨hmode', hbehavior'⟩ := ih (call.apply alpnLinked c)
    exact ⟨hmode'.trans hmode, hbehavior'.trans hbehavior⟩

theorem configure_other (c : TcnSslCtxt) {calls : List SetProtos} {ext : Extension}
    (h : ∀ call ∈ calls, call.ext ≠ ext) :
    (configure alpnLinked c calls).fields ext = c.fields ext ∧
      (configure alpnLinked c calls).registered ext = c.registered ext := by
  induction calls generalizing c with
  | nil => exact ⟨rfl, rfl⟩
  | cons call calls ih =>
    obtain ⟨hfields, hreg⟩ := SetProtos.apply_other alpnLinked c (h call List.mem_cons_self)
    obtain ⟨hfields', hreg'⟩ := ih (call.apply alpnLinked c)
      fun call' hcall' => h call' (List.mem_cons_of_mem call hcall')
    exact ⟨hfields'.trans hfields, hreg'.trans hreg⟩

/-- The last call for an extension decides its list. The failure behaviour is
the one of the fresh context. -/
theorem configure_last {mode : Int} (earlier : List SetProtos) {later : List SetProtos}
    {last : SetProtos} (hmode : RegistersSelector alpnLinked mode last.ext)
    (hlater : ∀ call ∈ later, call.ext ≠ last.ext) :
    let c := configure alpnLinked (.make mode) (earlier ++ last :: later)
    c.registered last.ext = true ∧
      c.fields last.ext =
        { protoData := some (encode (last.protos.map ProtocolName.entry))
          protoLen := UInt32.ofNat (encode (last.protos.map ProtocolName.entry)).length
          selectorFailureBehavior := 0 } := by
  intro c
  -- The calls before leave the mode and the failure behaviour alone, and the calls
  -- behind leave the extension alone.
  let before := configure alpnLinked (.make mode) earlier
  have hc : c = configure alpnLinked (last.apply alpnLinked before) later := by
    simp only [c, before, configure, List.foldl_append, List.foldl_cons]
  obtain ⟨hbefore, hbehavior⟩ : before.mode = mode ∧
      (before.fields last.ext).selectorFailureBehavior =
        ((TcnSslCtxt.make mode).fields last.ext).selectorFailureBehavior :=
    configure_keeps alpnLinked (.make mode) earlier last.ext
  obtain ⟨hfields, hreg⟩ := SetProtos.apply_own alpnLinked (c := before) (hbefore ▸ hmode)
  obtain ⟨hfields', hreg'⟩ := configure_other alpnLinked (last.apply alpnLinked before) hlater
  rw [hc]
  refine ⟨hreg'.trans hreg, hfields'.trans (hfields.trans ?_)⟩
  have hzero : ((TcnSslCtxt.make mode).fields last.ext).selectorFailureBehavior = 0 := by
    cases last.ext <;> rfl
  rw [SetProtos.stored, hbehavior, hzero]

end

/-! ## What the selectors decide -/

/-- The registered selector decides as the call asks for. -/
def Decides (c : TcnSslCtxt) (call : SetProtos) (peer : List Entry) : Prop :=
  c.registered call.ext = true ∧
    ∃ sel, c.selector call.ext (encode peer) (UInt32.ofNat (encode peer).length) = .ok sel ∧
      sel.output (encode peer) ((c.fields call.ext).protoData.getD []) =
        preferred (call.protos.map ProtocolName.entry) peer call.selectorFailureBehavior

theorem TcnSslCtxt.selector_eq (c : TcnSslCtxt) (ext : Extension) (inp : List Byte)
    (inlen : UInt32) :
    c.selector ext inp inlen =
      selectNextProto inp inlen (c.fields ext).protoData (c.fields ext).protoLen
        (c.fields ext).selectorFailureBehavior := by
  cases ext <;> rfl

/-- The failure behaviour does not matter where there is a common protocol. -/
theorem preferred_common {own peer : List Entry} (h : ∃ e ∈ own, e ∈ peer)
    (behavior behavior' : Int) : preferred own peer behavior = preferred own peer behavior' := by
  obtain ⟨e, he, hmem⟩ := h
  cases hfind : own.find? (· ∈ peer) with
  | none => exact absurd hmem (by simpa using List.find?_eq_none.mp hfind e he)
  | some e' => simp only [preferred, hfind]

/-- After any sequence of calls, the selector decides as the last call for its
extension asks for if and only if the peer offers a protocol of that call. -/
theorem configure_decides_iff {alpnLinked : Bool} {mode : Int} (earlier : List SetProtos)
    {later : List SetProtos} {last : SetProtos} (hmode : RegistersSelector alpnLinked mode last.ext)
    (hlater : ∀ call ∈ later, call.ext ≠ last.ext)
    (hwire : IsArrayLength (protocolsToWireFormat (last.protos.map (·.chars))).length)
    {peer : List Entry} (hpeer : (encode peer).length < 0x100000000) :
    Decides (configure alpnLinked (.make mode) (earlier ++ last :: later)) last peer ↔
      ∃ p ∈ last.protos, p.entry ∈ peer := by
  let own := last.protos.map ProtocolName.entry
  have hown : (encode own).length < 0x100000000 := by
    rw [protocolsToWireFormat_encode] at hwire
    exact Nat.lt_trans hwire (by decide)
  have hne : own ≠ [] := by simpa [own] using last.nonempty
  have hcommon : (∃ e ∈ own, e ∈ peer) ↔ ∃ p ∈ last.protos, p.entry ∈ peer := by
    simp [own]
  obtain ⟨hreg, hfields⟩ := configure_last alpnLinked earlier hmode hlater
  rw [← hcommon, Decides, TcnSslCtxt.selector_eq, hfields]
  constructor
  · rintro ⟨-, sel, hsel, -⟩
    by_contra hnot
    simp only [not_exists, not_and] at hnot
    cases hsel.symm.trans (selectNextProto_missed hown hpeer hne hnot 0)
  · intro h
    obtain ⟨sel, hsel, houtput⟩ := selectNextProto_found hown hpeer h 0
    exact ⟨hreg, sel, hsel, houtput.trans (preferred_common h _ _)⟩

/-- `h2` -/
def h2 : ProtocolName := ⟨[104, 50], by decide, by decide, by simp⟩

/-- `h3` -/
def h3 : ProtocolName := ⟨[104, 51], by decide, by decide, by simp⟩

/-- A server is configured twice, and the peer offers the second protocol of
the second list. -/
theorem configure_decides_second_call :
    Decides
      (configure true (.make sslModeServer)
        [⟨.alpn, [h2], by decide, sslSelectorFailureNoAdvertise⟩,
          ⟨.alpn, [h3, h2], by decide, sslSelectorFailureNoAdvertise⟩])
      ⟨.alpn, [h3, h2], by decide, sslSelectorFailureNoAdvertise⟩ [h2.entry] :=
  have hmode : RegistersSelector true sslModeServer .alpn := ⟨rfl, by decide⟩
  (configure_decides_iff [⟨.alpn, [h2], by decide, sslSelectorFailureNoAdvertise⟩] hmode
    (by simp) (by decide) (by decide)).mpr ⟨h2, by simp, by simp⟩

/-- A server that is to choose its last protocol, and a peer without it: the
selector reads behind the configured list. -/
theorem configure_no_common :
    ¬ Decides
      (configure true (.make sslModeServer)
        [⟨.alpn, [h2], by decide, sslSelectorFailureChooseMyLastProtocol⟩])
      ⟨.alpn, [h2], by decide, sslSelectorFailureChooseMyLastProtocol⟩ [h3.entry] := by
  rintro ⟨-, sel, hsel, -⟩
  have hfault : selectNextProto [2, 104, 51] 3 (some [2, 104, 50]) 3 0 = .error .outOfBounds := by
    decide +kernel
  cases hsel.symm.trans hfault

end Protocol
