-- SUMMARY: The method and the options that `SSLContext.make` gives an `SSL_CTX`, and the protocol versions that they leave.
import Mathlib.Data.BitVec
import Mathlib.Data.Fintype.Defs
import Mathlib.Data.Finset.Insert
import Tcnative.Base.Library

/-!
# Protocol versions of a context

`SSLContext.make` gets a mask of protocol versions. A context enables a version if
its method and its bounds do, and no option forbids it. With a recent library the
method is for every version, and the mask decides by options. With an older one
the mask is compared with the masks that have a method of their own. A connection
need not use all versions that are enabled: most libraries take the lowest range of
them without a gap.
-/

namespace Lifetime
open Jni Tls

/-! ## Data -/

inductive Version where
  | sslv2
  | sslv3
  | tlsv1
  | tlsv1_1
  | tlsv1_2
  | tlsv1_3
  deriving DecidableEq, Repr

instance : Fintype Version where
  elems := {.sslv2, .sslv3, .tlsv1, .tlsv1_1, .tlsv1_2, .tlsv1_3}
  complete v := by cases v <;> decide

/-- `SSL_PROTOCOL_SSLV2` is `1 << 0`, and so on. The last one, `SSL_PROTOCOL_TLSV1_3`,
is known to Java only. -/
def Version.index : Version → Nat
  | .sslv2 => 0
  | .sslv3 => 1
  | .tlsv1 => 2
  | .tlsv1_1 => 3
  | .tlsv1_2 => 4
  | .tlsv1_3 => 5

def Version.mask (v : Version) : BitVec 32 := 1#32 <<< v.index

/-- `protocol & SSL_PROTOCOL_..` -/
def Version.isIn (v : Version) (protocol : BitVec 32) : Bool := protocol &&& v.mask ≠ 0

/-- `SSL_PROTOCOL_TLS` of the native code, which ends with TLS 1.2. -/
def sslProtocolTls : BitVec 32 := 0x1e

/-- `SSL_PROTOCOL_ALL` of the native code. -/
def sslProtocolAll : BitVec 32 := 0x1f

/-- What `SSLContext.make` depends on besides its input: the library, with the
versions that it implements and its options, and what is compiled in. Each option
that forbids a version has bits of its own, and none forbids an implemented version
in vain. -/
structure Build where
  library : Library
  /-- `OPENSSL_VERSION_NUMBER >= 0x10100000L`. -/
  since110 : Bool
  noTls1 : Bool
  noSsl3 : Bool
  noSsl2 : Bool
  /-- `SSL_OP_NO_TLSv1_1` and `SSL_OP_NO_TLSv1_2` are defined. -/
  hasNoTlsv11 : Bool
  hasNoTlsv12 : Bool
  haveEcc : Bool
  supports : Version → Bool
  initialOptions : BitVec 32
  opNo : Version → BitVec 32
  opSingleDhUse : BitVec 32
  opSingleEcdhUse : BitVec 32
  opNoCompression : BitVec 32
  opNoSessionResumptionOnRenegotiation : BitVec 32
  opAllowUnsafeLegacyRenegotiation : BitVec 32
  opLegacyServerConnect : BitVec 32
  opNo_ne_zero : ∀ v, supports v = true → opNo v ≠ 0
  opNo_disjoint : ∀ v w, v ≠ w → opNo v &&& opNo w = 0
  opNo_apart : ∀ v, opNo v &&& (initialOptions ||| opSingleDhUse ||| opSingleEcdhUse |||
    opNoCompression ||| opNoSessionResumptionOnRenegotiation |||
    opAllowUnsafeLegacyRenegotiation ||| opLegacyServerConnect) = 0
  hasNoTlsv11_of_supports : supports .tlsv1_1 = true → hasNoTlsv11 = true
  hasNoTlsv12_of_supports : supports .tlsv1_2 = true → hasNoTlsv12 = true
  supports_boringSSL : library.isBoringSSL = true → ∀ v, supports v = true → 2 ≤ v.index

/-- The mask selects a method. -/
def Build.isLegacy (b : Build) : Bool :=
  !b.library.isBoringSSL && !(b.since110 && b.library ≠ .libressl)

inductive Role where
  | client
  | server
  | both
  deriving DecidableEq, Repr

/-- A method like `TLSv1_2_client_method`. The ones for every version, like
`TLS_method` and `SSLv23_method`, name none. -/
structure Method where
  only : Option Version
  role : Role
  deriving DecidableEq, Repr

/-- The part of an `SSL_CTX` that is about versions. Of the options there are the
bits that a `jint` can name. -/
structure SslCtx where
  method : Method
  minProtoVersion : Option Version
  maxProtoVersion : Option Version
  options : BitVec 32

/-- The versions that the method, the bounds and the options of a context enable. -/
def SslCtx.enables (b : Build) (c : SslCtx) (v : Version) : Bool :=
  b.supports v && c.method.only.all (· = v) && c.minProtoVersion.all (·.index ≤ v.index) &&
    c.maxProtoVersion.all (v.index ≤ ·.index) && c.options &&& b.opNo v = 0

/-- No version is missing between one of them and `v`. SSLv2 has a hello of its own, and
does not count. -/
def Unbroken (enabled : Version → Bool) (v : Version) : Prop :=
  ∀ w u : Version, 1 ≤ w.index → w.index < u.index → u.index < v.index →
    enabled w = true → enabled u = true

instance (enabled : Version → Bool) (v : Version) : Decidable (Unbroken enabled v) :=
  inferInstanceAs (Decidable (∀ _ _, _))

/-- The method is for servers, for clients, or for both. -/
def Role.plays : Role → Bool → Bool
  | .client, accepts => !accepts
  | .server, accepts => accepts
  | .both, _ => true

/-- A server of OpenSSL takes any version that is enabled. A client takes, as documented, none
above a version that is disabled where a lower one is enabled, and the other libraries keep
to this on both sides. -/
def Build.takesAny (b : Build) (server : Bool) : Bool := server && b.library = .openssl

/-- The versions that a connection of the context can negotiate. -/
def SslCtx.allows (b : Build) (c : SslCtx) (server : Bool) (v : Version) : Bool :=
  c.method.role.plays server && c.enables b v && (b.takesAny server || Unbroken (c.enables b) v)

/-! ## The native code -/

def roleOf (mode : Int) : Role :=
  if mode = 0 then .client else if mode = 1 then .server else .both

/-- The call of `SSL_CTX_new` in a branch that may not be compiled in. -/
def callNew (excluded : Bool) (only : Version) (mode : Int) : Option Method :=
  if excluded then none else some ⟨some only, roleOf mode⟩

/-- The `switch` over the protocol. There is no method where the branch of the
protocol is not compiled in. -/
def legacyMethod (b : Build) (protocol : BitVec 32) (mode : Int) :
    Except Throwable (Option Method) :=
  if protocol = sslProtocolTls ∨ protocol = sslProtocolAll then .ok (some ⟨none, roleOf mode⟩)
  else if protocol = Version.tlsv1_2.mask then .ok (callNew b.noTls1 .tlsv1_2 mode)
  else if protocol = Version.tlsv1_1.mask then .ok (callNew b.noTls1 .tlsv1_1 mode)
  else if protocol = Version.tlsv1.mask then .ok (callNew b.noTls1 .tlsv1 mode)
  else if protocol = Version.sslv3.mask then .ok (callNew b.noSsl3 .sslv3 mode)
  else if protocol = Version.sslv2.mask then .ok (callNew b.noSsl2 .sslv2 mode)
  -- The highest version of the mask.
  else if !b.noTls1 && Version.tlsv1_2.isIn protocol then .ok (callNew b.noTls1 .tlsv1_2 mode)
  else if !b.noTls1 && Version.tlsv1_1.isIn protocol then .ok (callNew b.noTls1 .tlsv1_1 mode)
  else if !b.noTls1 && Version.tlsv1.isIn protocol then .ok (callNew b.noTls1 .tlsv1 mode)
  else if !b.noSsl3 && Version.sslv3.isIn protocol then .ok (callNew b.noSsl3 .sslv3 mode)
  else if !b.noSsl2 && Version.sslv2.isIn protocol then .ok (callNew b.noSsl2 .sslv2 mode)
  else .error (.exception s!"Unsupported SSL protocol ({protocol.toInt})")

/-- The first part of `SSLContext.make`: the new `SSL_CTX`, with the bounds that
are set at once. -/
def newSslCtx (b : Build) (protocol : BitVec 32) (mode : Int) : Except Throwable (Option SslCtx) :=
  if b.library.isBoringSSL then
    .ok (some ⟨⟨none, .both⟩, some .tlsv1, some .tlsv1_3, b.initialOptions⟩)
  else if b.since110 && b.library ≠ .libressl then
    .ok (some ⟨⟨none, roleOf mode⟩, none, none, b.initialOptions⟩)
  else
    match legacyMethod b protocol mode with
    | .error t => .error t
    | .ok none => .ok none
    | .ok (some method) => .ok (some ⟨method, none, none, b.initialOptions⟩)

/-- `SSL_CTX_set_options`. -/
def setOptions (options opt : BitVec 32) : BitVec 32 := options ||| opt

/-- `SSL_CTX_clear_options`. -/
def clearOptions (options opt : BitVec 32) : BitVec 32 := options &&& ~~~opt

/-- An option that is set unless the mask has the version. -/
def forbidUnless (b : Build) (protocol : BitVec 32) (v : Version) (options : BitVec 32) :
    BitVec 32 :=
  if v.isIn protocol then options else setOptions options (b.opNo v)

/-- The options that `SSLContext.make` sets and clears. -/
def configureOptions (b : Build) (protocol options : BitVec 32) : BitVec 32 :=
  let options := forbidUnless b protocol .sslv2 options
  let options := forbidUnless b protocol .sslv3 options
  let options := forbidUnless b protocol .tlsv1 options
  let options := if b.hasNoTlsv11 then forbidUnless b protocol .tlsv1_1 options else options
  let options := if b.hasNoTlsv12 then forbidUnless b protocol .tlsv1_2 options else options
  let options := setOptions options b.opSingleDhUse
  let options := if b.haveEcc then setOptions options b.opSingleEcdhUse else options
  let options := setOptions options b.opNoCompression
  let options := setOptions options b.opNoSessionResumptionOnRenegotiation
  clearOptions options (b.opAllowUnsafeLegacyRenegotiation ||| b.opLegacyServerConnect)

def SslCtx.configure (b : Build) (protocol : BitVec 32) (c : SslCtx) : SslCtx :=
  { c with options := configureOptions b protocol c.options }

/-! ## What the options forbid -/

section
variable {b : Build} {protocol options : BitVec 32} {v w : Version}

/-- An option without the bits that forbid a version. -/
def Build.Spares (b : Build) (v : Version) (opt : BitVec 32) : Prop := b.opNo v &&& opt = 0

theorem spares_or {x y : BitVec 32} : b.Spares v (x ||| y) ↔ b.Spares v x ∧ b.Spares v y := by
  unfold Build.Spares
  rw [BitVec.and_or_distrib_left]
  constructor
  · intro h
    exact BitVec.or_eq_zero_iff.mp h
  · intro h
    exact BitVec.or_eq_zero_iff.mpr h

/-- None of the options apart from those for versions forbids one. -/
theorem Build.spares (b : Build) (v : Version) :
    b.Spares v b.initialOptions ∧ b.Spares v b.opSingleDhUse ∧ b.Spares v b.opSingleEcdhUse ∧
      b.Spares v b.opNoCompression ∧ b.Spares v b.opNoSessionResumptionOnRenegotiation ∧
      b.Spares v b.opAllowUnsafeLegacyRenegotiation ∧ b.Spares v b.opLegacyServerConnect := by
  have hapart : b.Spares v _ := b.opNo_apart v
  simpa only [spares_or, and_assoc] using hapart

/-- No option forbids the version. -/
def Permits (b : Build) (options : BitVec 32) (v : Version) : Prop := options &&& b.opNo v = 0

theorem permits_setOptions {opt : BitVec 32} (h : b.Spares v opt) :
    Permits b (setOptions options opt) v ↔ Permits b options v := by
  simp only [Permits, setOptions, BitVec.and_comm _ (b.opNo v)]
  change b.Spares v (options ||| opt) ↔ b.Spares v options
  rw [spares_or]
  exact and_iff_left h

theorem permits_clearOptions {opt : BitVec 32} (h : b.Spares v opt) :
    Permits b (clearOptions options opt) v ↔ Permits b options v := by
  have hkeeps : ~~~opt &&& b.opNo v = b.opNo v := by
    ext i hi
    have hbit : (b.opNo v &&& opt)[i] = false := by
      rw [show b.opNo v &&& opt = 0#32 from h]
      exact BitVec.getElem_zero hi
    rw [BitVec.getElem_and, Bool.and_eq_false_iff] at hbit
    rw [BitVec.getElem_and, BitVec.getElem_not]
    rcases hbit with hno | hopt
    · rw [hno, Bool.and_false]
    · rw [hopt, Bool.not_false, Bool.true_and]
  simp only [Permits, clearOptions, BitVec.and_assoc, hkeeps]

theorem permits_forbidUnless_other (hne : v ≠ w) :
    Permits b (forbidUnless b protocol w options) v ↔ Permits b options v := by
  unfold forbidUnless
  split
  · rfl
  · exact permits_setOptions (b.opNo_disjoint v w hne)

theorem permits_forbidUnless (hsupports : b.supports v = true) :
    Permits b (forbidUnless b protocol v options) v ↔
      v.isIn protocol = true ∧ Permits b options v := by
  unfold forbidUnless
  split
  · rename_i hin
    exact ⟨fun h => ⟨hin, h⟩, And.right⟩
  · rename_i hout
    refine ⟨fun hpermits => ?_, fun h => absurd h.1 hout⟩
    exfalso
    -- The option forbids the version, as it is not empty.
    rw [Permits, setOptions, BitVec.and_comm] at hpermits
    have hself := (spares_or.mp (show b.Spares v (options ||| b.opNo v) from hpermits)).2
    rw [Build.Spares, BitVec.and_self] at hself
    exact b.opNo_ne_zero v hsupports hself

/-- `SSLContext.make` sets the options for all versions outside the mask but one. -/
theorem permits_configureOptions (hsupports : b.supports v = true) (hpermits : Permits b options v) :
    Permits b (configureOptions b protocol options) v ↔
      v = .tlsv1_3 ∨ v.isIn protocol = true := by
  obtain ⟨-, hdh, hecdh, hcompression, hresumption, hrenegotiation, hlegacy⟩ := b.spares v
  have htlsv11 := b.hasNoTlsv11_of_supports
  have htlsv12 := b.hasNoTlsv12_of_supports
  unfold configureOptions
  rw [permits_clearOptions (spares_or.mpr ⟨hrenegotiation, hlegacy⟩), permits_setOptions hresumption,
    permits_setOptions hcompression]
  have hsingle : ∀ options : BitVec 32,
      Permits b (if b.haveEcc then setOptions options b.opSingleEcdhUse else options) v ↔
        Permits b options v := by
    intro options
    split
    · exact permits_setOptions hecdh
    · rfl
  -- The options of the other versions, which may not be defined.
  have hother : ∀ (defined : Bool) (w : Version) (options : BitVec 32), v ≠ w →
      (Permits b (if defined then forbidUnless b protocol w options else options) v ↔
        Permits b options v) := by
    intro defined w options hne
    split
    · exact permits_forbidUnless_other hne
    · rfl
  rw [hsingle, permits_setOptions hdh]
  cases v with
  | sslv2 | sslv3 | tlsv1 | tlsv1_3 =>
    simp (disch := decide) [hother, permits_forbidUnless_other, permits_forbidUnless hsupports,
      hpermits]
  | tlsv1_1 =>
    simp (disch := decide) [hother, permits_forbidUnless_other, permits_forbidUnless hsupports,
      hpermits, htlsv11 hsupports]
  | tlsv1_2 =>
    simp (disch := decide) [hother, permits_forbidUnless_other, permits_forbidUnless hsupports,
      hpermits, htlsv12 hsupports]

end

/-! ## The versions of a new context -/

/-- The version that a mask without a method of its own stands for: the highest
one in it that is compiled in. -/
def Build.highest (b : Build) (protocol : BitVec 32) : Option Version :=
  if !b.noTls1 && Version.tlsv1_2.isIn protocol then some .tlsv1_2
  else if !b.noTls1 && Version.tlsv1_1.isIn protocol then some .tlsv1_1
  else if !b.noTls1 && Version.tlsv1.isIn protocol then some .tlsv1
  else if !b.noSsl3 && Version.sslv3.isIn protocol then some .sslv3
  else if !b.noSsl2 && Version.sslv2.isIn protocol then some .sslv2
  else none

/-- The mask is compared with the masks that have a method of their own, and is
none of the two that stand for all versions. -/
def Build.IsSingle (b : Build) (protocol : BitVec 32) : Prop :=
  b.isLegacy = true ∧ protocol ≠ sslProtocolTls ∧ protocol ≠ sslProtocolAll

instance (b : Build) (protocol : BitVec 32) : Decidable (b.IsSingle protocol) :=
  inferInstanceAs (Decidable (_ ∧ _))

/-- The versions of a mask that the library implements. -/
def Build.asked (b : Build) (protocol : BitVec 32) (v : Version) : Bool :=
  b.supports v && v.isIn protocol

/-- A mask without a gap that either has TLS 1.3, or has something below it, but not TLS 1.2:
then TLS 1.3, for which no option is set, is behind a gap. -/
def Build.IsRange (b : Build) (protocol : BitVec 32) : Prop :=
  (∀ v, b.asked protocol v = true → Unbroken (b.asked protocol) v) ∧
    (b.supports .tlsv1_3 = true → Version.tlsv1_3.isIn protocol = true ∨
      b.asked protocol .tlsv1_2 = false ∧ ∃ v, 1 ≤ v.index ∧ b.asked protocol v = true)

instance (b : Build) (protocol : BitVec 32) : Decidable (b.IsRange protocol) :=
  inferInstanceAs (Decidable (_ ∧ (_ → _)))

/-- The condition under which the connections of a context can have the versions of its mask:
a mask that stands for one version has no other. Elsewhere TLS 1.3 is in the mask, because no
option is set for it, or the mask is a range where the library wants one. -/
def Build.Honours (b : Build) (server : Bool) (protocol : BitVec 32) : Prop :=
  if b.IsSingle protocol then ∀ v, b.asked protocol v = true → b.highest protocol = some v
  else if b.takesAny server then b.supports .tlsv1_3 = true → Version.tlsv1_3.isIn protocol = true
  else b.IsRange protocol

instance (b : Build) (server : Bool) (protocol : BitVec 32) :
    Decidable (b.Honours server protocol) :=
  inferInstanceAs (Decidable (if b.IsSingle protocol then
    ∀ v, b.asked protocol v = true → b.highest protocol = some v
    else if b.takesAny server then
      b.supports .tlsv1_3 = true → Version.tlsv1_3.isIn protocol = true
    else b.IsRange protocol))

section
variable {b : Build} {protocol : BitVec 32} {mode : Int} {c : SslCtx}

theorem highest_isIn {v : Version} (h : b.highest protocol = some v) :
    v.isIn protocol = true ∧ v ≠ .tlsv1_3 := by
  unfold Build.highest at h
  repeat' split at h
  all_goals cases h
  all_goals simp_all

theorem isIn_mask (v w : Version) : v.isIn w.mask = decide (v = w) := by
  cases v <;> cases w <;> rfl

theorem callNew_inv {excluded : Bool} {only : Version} {method : Method}
    (h : callNew excluded only mode = some method) :
    excluded = false ∧ method = ⟨some only, roleOf mode⟩ := by
  unfold callNew at h
  split at h
  · cases h
  · rename_i hcompiled
    cases h
    exact ⟨Bool.eq_false_iff.mpr hcompiled, rfl⟩

/-- A mask of one version and a mask that is searched for the highest one give the
same method. -/
theorem legacyMethod_inv {method : Method}
    (h : legacyMethod b protocol mode = .ok (some method)) :
    ((protocol = sslProtocolTls ∨ protocol = sslProtocolAll) ∧ method = ⟨none, roleOf mode⟩) ∨
      (¬ (protocol = sslProtocolTls ∨ protocol = sslProtocolAll) ∧
        ∃ v, method = ⟨some v, roleOf mode⟩ ∧ b.highest protocol = some v) := by
  unfold legacyMethod at h
  rcases ite_eq_iff.mp h with ⟨hall, h⟩ | ⟨hall, h⟩
  · cases h
    exact .inl ⟨hall, rfl⟩
  refine .inr ⟨hall, ?_⟩
  -- One version.
  iterate 5
    rcases ite_eq_iff.mp h with ⟨hmask, h⟩ | ⟨-, h⟩
    · obtain ⟨hcompiled, honly⟩ := callNew_inv (Except.ok.inj h)
      refine ⟨_, honly, ?_⟩
      rw [hmask]
      simp [Build.highest, isIn_mask, hcompiled]
  -- The highest version.
  unfold Build.highest
  iterate 5
    rcases ite_eq_iff.mp h with ⟨hin, h⟩ | ⟨hout, h⟩
    · rw [if_pos hin]
      exact ⟨_, (callNew_inv (Except.ok.inj h)).2, rfl⟩
    rw [if_neg hout]
  cases h

/-- A new `SSL_CTX` has the options that the library starts with, plays the role of its
mode, and neither bound leaves out an implemented version. -/
theorem newSslCtx_inv (h : newSslCtx b protocol mode = .ok (some c)) :
    c.options = b.initialOptions ∧
      (∀ server, (roleOf mode).plays server = true → c.method.role.plays server = true) ∧
      (∀ v, b.supports v = true → c.minProtoVersion.all (·.index ≤ v.index) = true ∧
        c.maxProtoVersion.all (v.index ≤ ·.index) = true) ∧
      (b.IsSingle protocol → ∃ v, c.method.only = some v ∧ b.highest protocol = some v) ∧
      (¬ b.IsSingle protocol → c.method.only = none) := by
  unfold newSslCtx at h
  rcases ite_eq_iff.mp h with ⟨hboring, h⟩ | ⟨hboring, h⟩
  · cases h
    refine ⟨rfl, fun _ _ => rfl, fun v hsupports => ?_, fun hsingle => ?_, fun _ => rfl⟩
    · have hmin : 2 ≤ v.index := b.supports_boringSSL hboring v hsupports
      have hmax : v.index ≤ 5 := by cases v <;> decide
      exact ⟨decide_eq_true hmin, decide_eq_true hmax⟩
    · simp [Build.IsSingle, Build.isLegacy, hboring] at hsingle
  rcases ite_eq_iff.mp h with ⟨hrecent, h⟩ | ⟨hrecent, h⟩
  · cases h
    refine ⟨rfl, fun _ => id, fun _ _ => ⟨rfl, rfl⟩, fun hsingle => ?_, fun _ => rfl⟩
    rw [Build.IsSingle, Build.isLegacy, hrecent] at hsingle
    simp at hsingle
  have hlegacy : b.isLegacy = true := by
    rw [Build.isLegacy, Bool.eq_false_iff.mpr hboring, Bool.eq_false_iff.mpr hrecent]
    rfl
  cases hmethod : legacyMethod b protocol mode with
  | error t => simp [hmethod] at h
  | ok found =>
    cases found with
    | none => simp [hmethod] at h
    | some method =>
      simp only [hmethod] at h
      cases h
      rcases legacyMethod_inv hmethod with ⟨hall, rfl⟩ | ⟨hall, v, rfl, hhighest⟩
      · exact ⟨rfl, fun _ => id, fun _ _ => ⟨rfl, rfl⟩, fun hs => absurd hall (not_or.mpr hs.2),
          fun _ => rfl⟩
      · exact ⟨rfl, fun _ => id, fun _ _ => ⟨rfl, rfl⟩, fun _ => ⟨v, rfl, hhighest⟩,
          fun hs => absurd ⟨hlegacy, not_or.mp hall⟩ hs⟩

theorem newSslCtx_enables (h : newSslCtx b protocol mode = .ok (some c)) (v : Version) :
    (c.configure b protocol).enables b v = true ↔ b.supports v = true ∧
      (b.IsSingle protocol → b.highest protocol = some v) ∧
        (v = .tlsv1_3 ∨ v.isIn protocol = true) := by
  obtain ⟨hinitial, -, hbounds, hsingle, hevery⟩ := newSslCtx_inv h
  cases hsupports : b.supports v with
  | false => simp [SslCtx.enables, hsupports]
  | true =>
    obtain ⟨hmin, hmax⟩ := hbounds v hsupports
    have hpermits : (configureOptions b protocol b.initialOptions &&& b.opNo v = 0) ↔
        v = .tlsv1_3 ∨ v.isIn protocol = true := by
      apply permits_configureOptions hsupports
      rw [Permits, BitVec.and_comm]
      exact (b.spares v).1
    have honly : c.method.only.all (· = v) = true ↔
        (b.IsSingle protocol → b.highest protocol = some v) := by
      by_cases hs : b.IsSingle protocol
      · obtain ⟨w, honly, hhighest⟩ := hsingle hs
        simp [honly, hhighest, hs]
      · simp [hevery hs, hs]
    simp only [SslCtx.enables, SslCtx.configure, hinitial, hsupports, hmin, hmax, Bool.true_and,
      Bool.and_true, Bool.and_eq_true, decide_eq_true_eq, honly, hpermits, true_and]

/-! ## The versions of a connection -/

theorem index_le (v : Version) : v.index ≤ 5 := by
  cases v <;> decide

/-- What is below another version is not TLS 1.3. -/
theorem ne_tlsv1_3 {v w : Version} (h : v.index < w.index) : v ≠ .tlsv1_3 := by
  rintro rfl
  exact absurd (index_le w) (Nat.not_le.mpr h)

theorem lt_tlsv1_2 {v : Version} (hne₂ : v ≠ .tlsv1_2) (hne₃ : v ≠ .tlsv1_3) :
    v.index < Version.tlsv1_2.index := by
  cases v with
  | tlsv1_2 => exact absurd rfl hne₂
  | tlsv1_3 => exact absurd rfl hne₃
  | _ => decide

theorem asked_iff {v : Version} :
    b.asked protocol v = true ↔ b.supports v = true ∧ v.isIn protocol = true :=
  Bool.and_eq_true_iff

/-- Where the versions of the mask and TLS 1.3 are enabled, the lowest range of what is
enabled is the mask if and only if the mask is a range. -/
theorem range_honours_iff {enabled : Version → Bool}
    (henabled : ∀ v, enabled v = true ↔
      b.supports v = true ∧ (v = .tlsv1_3 ∨ v.isIn protocol = true)) :
    (∀ v, b.supports v = true →
      (enabled v = true ∧ Unbroken enabled v ↔ v.isIn protocol = true)) ↔ b.IsRange protocol := by
  have hasked : ∀ v, b.asked protocol v = true ↔ b.supports v = true ∧ v.isIn protocol = true :=
    fun v => asked_iff
  -- Below another version, a version is enabled only by the mask.
  have hbelow : ∀ v w : Version, v.index < w.index →
      (enabled v = true ↔ b.asked protocol v = true) := by
    intro v w hlt
    rw [henabled, hasked, or_iff_right (ne_tlsv1_3 hlt)]
  constructor
  · intro hhonours
    refine ⟨fun v hv w u hw hwu huv hin => ?_, fun hsupports => ?_⟩
    · obtain ⟨hsupports, hmask⟩ := (hasked v).mp hv
      have hunbroken := ((hhonours v hsupports).mpr hmask).2
      exact (hbelow u v huv).mp (hunbroken w u hw hwu huv ((hbelow w u hwu).mpr hin))
    · by_cases hmask : Version.tlsv1_3.isIn protocol = true
      · exact .inl hmask
      right
      -- TLS 1.3 is enabled, so that there is a gap below it.
      have hgap : ¬ Unbroken enabled .tlsv1_3 := fun hunbroken =>
        hmask ((hhonours _ hsupports).mp ⟨(henabled _).mpr ⟨hsupports, .inl rfl⟩, hunbroken⟩)
      simp only [Unbroken, not_forall] at hgap
      obtain ⟨w, u, hw, hwu, hu, hwe, hue⟩ := hgap
      refine ⟨Bool.eq_false_iff.mpr fun htls => hue ?_, w, hw, (hbelow w u hwu).mp hwe⟩
      rcases eq_or_ne u .tlsv1_2 with rfl | hne
      · exact (hbelow _ _ hu).mpr htls
      · obtain ⟨hsupports₂, hmask₂⟩ := (hasked _).mp htls
        exact ((hhonours _ hsupports₂).mpr hmask₂).2 w u hw hwu (lt_tlsv1_2 hne (ne_tlsv1_3 hu)) hwe
  · rintro ⟨hrange, hlast⟩ v hsupports
    constructor
    · rintro ⟨hv, hunbroken⟩
      rcases ((henabled v).mp hv).2 with rfl | hmask
      · rcases hlast hsupports with hmask | ⟨hno, w, hw, hin⟩
        · exact hmask
        rcases eq_or_ne w .tlsv1_3 with rfl | hne
        · exact ((hasked _).mp hin).2
        · have hlt : w.index < Version.tlsv1_2.index := by
            refine lt_tlsv1_2 ?_ hne
            rintro rfl
            exact absurd hin (Bool.eq_false_iff.mp hno)
          have htls := hunbroken w .tlsv1_2 hw hlt (by decide) ((hbelow w .tlsv1_2 hlt).mpr hin)
          exact absurd ((hbelow .tlsv1_2 .tlsv1_3 (by decide)).mp htls) (Bool.eq_false_iff.mp hno)
      · exact hmask
    · intro hmask
      refine ⟨(henabled v).mpr ⟨hsupports, .inr hmask⟩, fun w u hw hwu huv hwe => ?_⟩
      exact (hbelow u v huv).mpr (hrange v ((hasked v).mpr ⟨hsupports, hmask⟩) w u hw hwu huv
        ((hbelow w u hwu).mp hwe))

/-- With one version at most there is no gap. -/
theorem unbroken_of_single {enabled : Version → Bool} {v : Version}
    (hsingle : ∀ w, enabled w = true → w = v) : Unbroken enabled v := by
  intro w u _ hwu huv hw
  rw [hsingle w hw] at hwu
  exact absurd hwu (Nat.lt_asymm huv)

/-- A connection of a new context can have exactly the versions of its mask, of those that the
library implements, if and only if the mask meets the condition. -/
theorem newSslCtx_honours_iff (h : newSslCtx b protocol mode = .ok (some c)) {server : Bool}
    (hplays : (roleOf mode).plays server = true) :
    (∀ v, b.supports v = true → (c.configure b protocol).allows b server v = v.isIn protocol) ↔
      b.Honours server protocol := by
  have hrole : (c.configure b protocol).method.role.plays server = true :=
    (newSslCtx_inv h).2.1 server hplays
  have henables := newSslCtx_enables h
  have hallows : ∀ v, (c.configure b protocol).allows b server v = v.isIn protocol ↔
      ((c.configure b protocol).enables b v = true ∧ (b.takesAny server = true ∨
        Unbroken ((c.configure b protocol).enables b) v) ↔ v.isIn protocol = true) := by
    intro v
    rw [Bool.eq_iff_iff]
    simp only [SslCtx.allows, hrole, Bool.true_and, Bool.and_eq_true, Bool.or_eq_true,
      decide_eq_true_eq]
  simp only [hallows]
  unfold Build.Honours
  split
  · rename_i hsingle
    have hone : ∀ v, (c.configure b protocol).enables b v = true ↔
        b.supports v = true ∧ b.highest protocol = some v := by
      intro v
      rw [henables]
      constructor
      · rintro ⟨hsupports, hhighest, -⟩
        exact ⟨hsupports, hhighest hsingle⟩
      · rintro ⟨hsupports, hhighest⟩
        exact ⟨hsupports, fun _ => hhighest, .inr (highest_isIn hhighest).1⟩
    constructor
    · intro hhonours v hv
      obtain ⟨hsupports, hmask⟩ := asked_iff.mp hv
      exact ((hone v).mp ((hhonours v hsupports).mpr hmask).1).2
    · intro hcond v hsupports
      constructor
      · rintro ⟨hv, -⟩
        exact (highest_isIn ((hone v).mp hv).2).1
      · intro hmask
        have hhighest := hcond v (asked_iff.mpr ⟨hsupports, hmask⟩)
        refine ⟨(hone v).mpr ⟨hsupports, hhighest⟩, .inr (unbroken_of_single fun w hw => ?_)⟩
        exact Option.some.inj (((hone w).mp hw).2.symm.trans hhighest)
  rename_i hsingle
  have hmany : ∀ v, (c.configure b protocol).enables b v = true ↔
      b.supports v = true ∧ (v = .tlsv1_3 ∨ v.isIn protocol = true) := by
    intro v
    rw [henables]
    simp only [hsingle, false_implies, true_and]
  split
  · rename_i hany
    simp only [hany, true_or, and_true, hmany]
    constructor
    · intro hhonours hsupports
      exact (hhonours _ hsupports).mp ⟨hsupports, .inl rfl⟩
    · intro hcond v hsupports
      constructor
      · rintro ⟨-, rfl | hmask⟩
        · exact hcond hsupports
        · exact hmask
      · exact fun hmask => ⟨hsupports, .inr hmask⟩
  · rename_i hany
    simp only [hany, Bool.false_eq_true, false_or]
    exact range_honours_iff hmany

end

/-- The numbers of OpenSSL 1.1.1, without SSLv2 and SSLv3. -/
def openssl111 : Build where
  library := .openssl
  since110 := true
  noTls1 := false
  noSsl3 := true
  noSsl2 := true
  hasNoTlsv11 := true
  hasNoTlsv12 := true
  haveEcc := true
  supports v := v ≠ .sslv2 ∧ v ≠ .sslv3
  initialOptions := 0x120004
  opNo
    | .sslv2 => 0
    | .sslv3 => 0x02000000
    | .tlsv1 => 0x04000000
    | .tlsv1_1 => 0x10000000
    | .tlsv1_2 => 0x08000000
    | .tlsv1_3 => 0x20000000
  opSingleDhUse := 0
  opSingleEcdhUse := 0
  opNoCompression := 0x20000
  opNoSessionResumptionOnRenegotiation := 0x10000
  opAllowUnsafeLegacyRenegotiation := 0x40000
  opLegacyServerConnect := 0x4
  opNo_ne_zero v := by cases v <;> decide
  opNo_disjoint v w := by cases v <;> cases w <;> decide
  opNo_apart v := by cases v <;> decide
  hasNoTlsv11_of_supports _ := rfl
  hasNoTlsv12_of_supports _ := rfl
  supports_boringSSL := nofun

/-- The numbers of BoringSSL, which has few of the options. -/
def boringssl : Build where
  library := .boringssl
  since110 := true
  noTls1 := false
  noSsl3 := true
  noSsl2 := true
  hasNoTlsv11 := true
  hasNoTlsv12 := true
  haveEcc := true
  supports v := v ≠ .sslv2 ∧ v ≠ .sslv3
  initialOptions := 0
  opNo
    | .sslv2 | .sslv3 => 0
    | .tlsv1 => 0x04000000
    | .tlsv1_1 => 0x10000000
    | .tlsv1_2 => 0x08000000
    | .tlsv1_3 => 0x20000000
  opSingleDhUse := 0
  opSingleEcdhUse := 0
  opNoCompression := 0
  opNoSessionResumptionOnRenegotiation := 0
  opAllowUnsafeLegacyRenegotiation := 0
  opLegacyServerConnect := 0
  opNo_ne_zero v := by cases v <;> decide
  opNo_disjoint v w := by cases v <;> cases w <;> decide
  opNo_apart v := by cases v <;> decide
  hasNoTlsv11_of_supports _ := rfl
  hasNoTlsv12_of_supports _ := rfl
  supports_boringSSL _ v := by cases v <;> decide

end Lifetime
