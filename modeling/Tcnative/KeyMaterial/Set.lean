-- SUMMARY: `SSL.setKeyMaterial`, which gives a connection its certificates and its key.
import Tcnative.Base.CallLog
import Tcnative.Base.Library
import Tcnative.Base.Machine

/-!
# Key material of a connection

`SSL.setKeyMaterial` runs whenever the peer asks for a certificate, more than
once where TLS 1.3 sends a HelloRetryRequest. BoringSSL and AWS-LC replace
everything by one call. For OpenSSL and LibreSSL the leaf, the key and the chain
are set one after the other, and each of these calls can fail.
-/

namespace KeyMaterial
open Jni Tls CallLog

variable {X509 Key : Type}

/-! ## Connections and library calls -/

/-- The versions that the preprocessor conditions ask for:
`OPENSSL_VERSION_NUMBER`, and `LIBRESSL_VERSION_NUMBER` for LibreSSL. -/
structure Build where
  library : Library
  opensslVersion : Nat
  libresslVersion : Nat
  deriving Repr

/-- `defined(LIBRESSL_VERSION_NUMBER) && LIBRESSL_VERSION_NUMBER < 0x2090200fL`. -/
def Build.oldLibressl (build : Build) : Bool :=
  build.library = .libressl && build.libresslVersion < 0x2090200f

/-- `OPENSSL_VERSION_NUMBER >= 0x10002000L`: the chain can be cleared. -/
def Build.clearsChain (build : Build) : Bool := 0x10002000 ≤ build.opensslVersion

/-- What an `SSL` holds of its own credentials. -/
structure Ssl (X509 Key : Type) where
  certificate : Option X509
  privateKey : Option Key
  /-- The private key is used through `private_key_method`. -/
  privateKeyMethod : Bool
  chain : List X509
  deriving DecidableEq

/-- A call of the library on the `SSL`. -/
inductive LibCall (X509 Key : Type) where
  | setChainAndKey (certs : List X509) (pkey : Option Key) (privateKeyMethod : Bool)
  | useCertificate (x509 : X509)
  | usePrivateKey (pkey : Key)
  | checkPrivateKey
  | clearChainCerts
  | add1ChainCert (i : Nat) (x509 : X509)
  deriving DecidableEq

/-- What a call does if it succeeds. -/
def LibCall.effect : LibCall X509 Key → Ssl X509 Key → Ssl X509 Key
  | .setChainAndKey certs pkey privateKeyMethod, _ =>
    ⟨certs.head?, pkey, privateKeyMethod, certs.tail⟩
  | .useCertificate x509, ssl => { ssl with certificate := some x509 }
  | .usePrivateKey pkey, ssl => { ssl with privateKey := some pkey }
  | .checkPrivateKey, ssl => ssl
  | .clearChainCerts, ssl => { ssl with chain := [] }
  | .add1ChainCert _ x509, ssl => { ssl with chain := ssl.chain ++ [x509] }

/-- The calls that change the `SSL`. -/
def Modifies : LibCall X509 Key → Prop
  | .checkPrivateKey => False
  | .setChainAndKey .. | .useCertificate _ | .usePrivateKey _ | .clearChainCerts
  | .add1ChainCert .. => True

/-- Which calls succeed, and what `ERR_get_error` returns, which is the oldest
error of the queue: where no library call has failed, and behind each call that
fails. The queue is empty where the code is zero. -/
structure KeyCalls (X509 Key : Type) where
  malloc : Bool
  succeeds : LibCall X509 Key → Bool
  queued : Nat
  errCode : LibCall X509 Key → Nat
  errorStringN : Nat → String

/-! ## `SSL.setKeyMaterial` -/

/-- A part of a function that works on an `SSL`. -/
abbrev SslPart (X509 Key : Type) := Part (Ssl X509 Key) (LibCall X509 Key) Throwable

/-- `tcn_Throw(e, "<text> (%s)", err)`. -/
def throwErr (text err : String) : Throwable := .exception (text ++ " (" ++ err ++ ")")

section
variable (build : Build) (calls : KeyCalls X509 Key)

/-- A library call, thrown with the error that is queued where it fails. -/
def callOr (c : LibCall X509 Key) (text : String) (goesOn : Bool) : SslPart X509 Key :=
  .attempt (calls.succeeds c) c c.effect (throwErr text (calls.errorStringN (calls.errCode c)))
    goesOn

def errorSettingCertificate : String := "Error setting certificate"

/-- The certificates and the key for BoringSSL and AWS-LC. -/
def setChainAndKey (certs : List X509) (pkey : Option Key) : SslPart X509 Key :=
  if !calls.malloc then .raise (.exception "OPENSSL_malloc returned NULL")
  else if certs.length = 0 then
    .raise (throwErr errorSettingCertificate (calls.errorStringN calls.queued))
  else callOr calls (.setChainAndKey certs pkey pkey.isNone) errorSettingCertificate false

/-- The first certificate. The function is not left where this fails. -/
def useLeaf (certs : List X509) : SslPart X509 Key :=
  match certs with
  | [] => fun ssl =>
    ([.throw (throwErr errorSettingCertificate (calls.errorStringN calls.queued))], ssl, true)
  | leaf :: _ => callOr calls (.useCertificate leaf) errorSettingCertificate true

def useKey (pkey : Option Key) : SslPart X509 Key :=
  match pkey with
  | none => .skip
  | some pkey =>
    (callOr calls (.usePrivateKey pkey) "Error setting private key" false).andThen
      (callOr calls .checkPrivateKey "Private key does not match the certificate public key" false)

def clearChain : SslPart X509 Key :=
  if build.clearsChain then
    let text := "Could not clear certificate chain"
    .attempt (calls.succeeds .clearChainCerts) .clearChainCerts (LibCall.effect .clearChainCerts)
      (if calls.errCode .clearChainCerts = 0 then throwErr text "unknown"
        else throwErr text (calls.errorStringN (calls.errCode .clearChainCerts)))
      false
  else .skip

/-- The loop that appends the certificates from position `i` on. -/
def addCerts (i : Nat) : List X509 → SslPart X509 Key
  | [] => .skip
  | x509 :: certs =>
    (callOr calls (.add1ChainCert i x509) "Could not add certificate to chain" false).andThen
      (addCerts (i + 1) certs)

/-- What follows the first certificate for OpenSSL and LibreSSL. -/
def useRest (certs : List X509) (pkey : Option Key) : SslPart X509 Key :=
  (useKey calls pkey).andThen ((clearChain build calls).andThen (addCerts calls 1 certs.tail))

/-- `SSL.setKeyMaterial`. NULL pointers are `none`. -/
def setKeyMaterial (chain : Option (List X509)) (pkey : Option Key) : SslPart X509 Key :=
  if build.oldLibressl then .raise (.exception "Not supported with LibreSSL < 2.9.2")
  else
    match chain with
    | none => .raise (.nullPointerException "chain")
    | some certs =>
      if build.library.isBoringSSL then setChainAndKey calls certs pkey
      else (useLeaf calls certs).andThen (useRest build calls certs pkey)

end

/-! ## What a call leaves -/

section
variable {build : Build} {calls : KeyCalls X509 Key}

theorem does_callOr {c : LibCall X509 Key} {text : String} {goesOn : Bool} (ssl : Ssl X509 Key) :
    Does (callOr calls c text goesOn) ssl (c.effect ssl) :=
  does_attempt ssl

theorem does_useKey (pkey : Option Key) (ssl : Ssl X509 Key) :
    Does (useKey calls pkey) ssl { ssl with privateKey := pkey <|> ssl.privateKey } := by
  cases pkey with
  | none => exact does_skip ssl
  | some pkey => exact (does_callOr ssl).andThen (does_callOr _)

theorem does_clearChain (ssl : Ssl X509 Key) :
    Does (clearChain build calls) ssl
      { ssl with chain := if build.clearsChain then [] else ssl.chain } := by
  unfold clearChain
  split
  · exact does_attempt ssl
  · exact does_skip ssl

theorem does_addCerts (i : Nat) (certs : List X509) (ssl : Ssl X509 Key) :
    Does (addCerts calls i certs) ssl { ssl with chain := ssl.chain ++ certs } := by
  induction certs generalizing i ssl with
  | nil =>
    rw [List.append_nil]
    exact does_skip ssl
  | cons x509 certs ih =>
    refine (does_callOr ssl).andThen ?_
    have hrest := ih (i + 1) { ssl with chain := ssl.chain ++ [x509] }
    rwa [List.append_assoc] at hrest

/-- What a call that raises nothing leaves. Nothing of the old certificates is in
it if the chain is cleared. -/
def replaced (build : Build) (leaf : X509) (rest : List X509) (pkey : Option Key)
    (ssl : Ssl X509 Key) : Ssl X509 Key :=
  if build.library.isBoringSSL then ⟨some leaf, pkey, pkey.isNone, rest⟩
  else
    { ssl with
      certificate := some leaf
      privateKey := pkey <|> ssl.privateKey
      chain := (if build.clearsChain then [] else ssl.chain) ++ rest }

theorem does_setKeyMaterial (leaf : X509) (rest : List X509) (pkey : Option Key)
    (ssl : Ssl X509 Key) :
    Does (setKeyMaterial build calls (some (leaf :: rest)) pkey) ssl
      (replaced build leaf rest pkey ssl) := by
  unfold setKeyMaterial replaced
  split
  · exact does_raise _ _ _
  · cases hlib : build.library.isBoringSSL with
    | true =>
      simp only [if_true, setChainAndKey, List.length_cons, Nat.succ_ne_zero, if_false]
      split
      · exact does_raise _ _ _
      · exact does_callOr ssl
    | false =>
      refine (does_callOr ssl).andThen ?_
      exact (does_useKey pkey _).andThen ((does_clearChain _).andThen (does_addCerts 1 rest _))

end

/-! ## Repeated calls -/

/-- One call: its arguments, and how the library behaves. -/
structure Call (X509 Key : Type) where
  chain : Option (List X509)
  pkey : Option Key
  calls : KeyCalls X509 Key

/-- The calls of a connection. The result is the log of the call. -/
def keyStep (build : Build) :
    Machine.Step Empty (Ssl X509 Key) (Call X509 Key)
      (List (Action (LibCall X509 Key) Throwable)) :=
  fun ssl call =>
    let r := setKeyMaterial build call.calls call.chain call.pkey ssl
    .ok (r.1, r.2.1)

/-- A call that raises nothing leaves its own certificates, in order, and its own
key if it has one. -/
def Replaces (x : Machine.Entry (Ssl X509 Key) (Call X509 Key)
    (List (Action (LibCall X509 Key) Throwable))) : Prop :=
  ∀ leaf rest, x.event.chain = some (leaf :: rest) → Quiet x.ret →
    x.post.certificate = some leaf ∧ x.post.chain = rest ∧
      ∀ pkey, x.event.pkey = some pkey → x.post.privateKey = some pkey

theorem keyStep_replaces {build : Build}
    (hbuild : build.library.isBoringSSL = true ∨ build.clearsChain = true)
    (ssl : Ssl X509 Key) (call : Call X509 Key) :
    ∃ log ssl', keyStep build ssl call = .ok (log, ssl') ∧ Replaces ⟨ssl, call, log, ssl'⟩ := by
  refine ⟨_, _, rfl, ?_⟩
  obtain ⟨chain, pkey, calls⟩ := call
  rintro leaf rest rfl hquiet
  dsimp only at hquiet ⊢
  rw [does_setKeyMaterial leaf rest pkey ssl hquiet]
  unfold replaced
  split
  · exact ⟨rfl, rfl, fun _ => id⟩
  · rename_i hlib
    have hclears := hbuild.resolve_left hlib
    refine ⟨rfl, by simp [hclears], ?_⟩
    rintro pkey rfl
    rfl

/-- In any sequence of calls on any connection, a call that raises nothing
replaces what there was. -/
theorem setKeyMaterial_replaces (build : Build)
    (hbuild : build.library.isBoringSSL = true ∨ build.clearsChain = true)
    (ssl : Ssl X509 Key) (events : List (Call X509 Key)) :
    Machine.Ends (keyStep build) (fun t _ => ∀ x ∈ t, Replaces x) ssl events := by
  have hstep : ∀ (ssl : Ssl X509 Key) (call : Call X509 Key), True →
      ∃ log ssl', keyStep build ssl call = .ok (log, ssl') ∧ True ∧
        Replaces ⟨ssl, call, log, ssl'⟩ := by
    intro ssl call _
    obtain ⟨log, ssl', hok, hreplaces⟩ := keyStep_replaces hbuild ssl call
    exact ⟨log, ssl', hok, trivial, hreplaces⟩
  obtain ⟨t, ssl', hrun, -, ht⟩ := Machine.run_invariant hstep trivial events
  exact ⟨t, ssl', hrun, ht⟩

/-- A library where every call succeeds. -/
def KeyCalls.succeed : KeyCalls X509 Key where
  malloc := true
  succeeds := fun _ => true
  queued := 0
  errCode := fun _ => 0
  errorStringN := fun _ => "error"

/-- OpenSSL 1.1.1. -/
def Build.openssl111 : Build := ⟨.openssl, 0x10101000, 0⟩

/-- The certificates of two calls on a connection that had others before. -/
theorem setKeyMaterial_replaces_twice :
    Machine.Ends (keyStep .openssl111) (fun t _ => ∀ x ∈ t, Replaces x)
      (⟨some 9, some 9, false, [8, 7]⟩ : Ssl Nat Nat)
      [⟨some [1, 2, 3], some 1, .succeed⟩, ⟨some [1, 2, 3], some 1, .succeed⟩] :=
  setKeyMaterial_replaces .openssl111 (.inr (by decide)) _ _

/-! ## The first error -/

section
variable {build : Build} {calls : KeyCalls X509 Key}

theorem careful_callOr {c : LibCall X509 Key} {text : String} (ssl : Ssl X509 Key) :
    Careful Modifies (callOr calls c text false) ssl :=
  careful_attempt ..

theorem careful_addCerts (i : Nat) (certs : List X509) (ssl : Ssl X509 Key) :
    Careful Modifies (addCerts calls i certs) ssl := by
  induction certs generalizing i ssl with
  | nil => exact careful_skip Modifies ssl
  | cons x509 certs ih => exact (careful_callOr ssl).andThen fun _ => ih (i + 1) _

/-- Every part behind the first certificate leaves the function when it fails. -/
theorem careful_useRest (certs : List X509) (pkey : Option Key) (ssl : Ssl X509 Key) :
    Careful Modifies (useRest build calls certs pkey) ssl := by
  have hkey : Careful Modifies (useKey calls pkey) ssl := by
    cases pkey with
    | none => exact careful_skip Modifies ssl
    | some pkey => exact (careful_callOr ssl).andThen fun _ => careful_callOr _
  have hclear (ssl : Ssl X509 Key) : Careful Modifies (clearChain build calls) ssl := by
    unfold clearChain
    split
    · exact careful_attempt ..
    · exact careful_skip Modifies ssl
  exact hkey.andThen fun _ => (hclear _).andThen fun _ => careful_addCerts 1 certs.tail _

/-- There is nothing to do behind the first certificate. -/
def Idle (build : Build) (certs : List X509) (pkey : Option Key) : Prop :=
  pkey = none ∧ build.clearsChain = false ∧ certs.tail = []

theorem useRest_idle {certs : List X509} {pkey : Option Key} (h : Idle build certs pkey)
    (ssl : Ssl X509 Key) : useRest build calls certs pkey ssl = ([], ssl, true) := by
  obtain ⟨rfl, hclears, htail⟩ := h
  simp [useRest, useKey, clearChain, hclears, htail, addCerts, Part.skip]

/-- Whatever there is to do behind the first certificate changes the `SSL`. -/
theorem useRest_modifies {certs : List X509} {pkey : Option Key} (h : ¬ Idle build certs pkey)
    (ssl : Ssl X509 Key) :
    ∃ c, Action.call c ∈ (useRest build calls certs pkey ssl).1 ∧ Modifies c := by
  cases pkey with
  | some pkey =>
    refine ⟨.usePrivateKey pkey, ?_, trivial⟩
    exact mem_andThen (mem_andThen (call_mem_attempt ..))
  | none =>
    simp only [useRest, useKey, skip_andThen, clearChain]
    cases hclears : build.clearsChain with
    | true => exact ⟨.clearChainCerts, mem_andThen (call_mem_attempt ..), trivial⟩
    | false =>
      cases htail : certs.tail with
      | nil => exact absurd ⟨rfl, hclears, htail⟩ h
      | cons x509 rest =>
        simp only [Bool.false_eq_true, if_false, skip_andThen]
        exact ⟨.add1ChainCert 1 x509, mem_andThen (call_mem_attempt ..), trivial⟩

/-- The first certificate cannot be set: there is none, or the call fails. -/
def LeafFails (calls : KeyCalls X509 Key) (certs : List X509) : Prop :=
  ∀ leaf ∈ certs.head?, calls.succeeds (.useCertificate leaf) = false

theorem useLeaf_fails {certs : List X509} (h : LeafFails calls certs) (ssl : Ssl X509 Key) :
    ∃ log, useLeaf calls certs ssl = (log, ssl, true) ∧ Stops Modifies log ∧ ¬ Quiet log := by
  cases certs with
  | nil => exact ⟨_, rfl, by simp [Stops], not_quiet_throw _ _⟩
  | cons leaf rest =>
    have hfails : calls.succeeds (.useCertificate leaf) = false := h leaf rfl
    simp only [useLeaf, callOr, hfails]
    exact ⟨_, rfl, by simp [Stops], by simp⟩

theorem careful_useLeaf {certs : List X509} (h : ¬ LeafFails calls certs) (ssl : Ssl X509 Key) :
    Careful Modifies (useLeaf calls certs) ssl := by
  cases certs with
  | nil => exact absurd (by simp [LeafFails]) h
  | cons leaf rest =>
    have hsucceeds : calls.succeeds (.useCertificate leaf) = true := by
      simpa [LeafFails] using h
    constructor <;> simp [useLeaf, callOr, Part.attempt, hsucceeds, Stops]

end

/-- No call that changes the `SSL` comes behind the first exception, and the key
and the chain are left alone if the first certificate cannot be set. -/
def StopsAtFirstError (build : Build) (calls : KeyCalls X509 Key) (chain : Option (List X509))
    (pkey : Option Key) (ssl : Ssl X509 Key) : Prop :=
  let r := setKeyMaterial build calls chain pkey ssl
  Stops Modifies r.1 ∧
    ∀ certs, chain = some certs → LeafFails calls certs →
      r.2.1.privateKey = ssl.privateKey ∧ r.2.1.chain = ssl.chain

/-- Where the first certificate cannot be set, the function stops at its first
error if and only if there is nothing more to do. -/
theorem setKeyMaterial_stops_iff (build : Build) (hlib : build.library.isBoringSSL = false)
    (calls : KeyCalls X509 Key) (chain : Option (List X509)) (pkey : Option Key)
    (ssl : Ssl X509 Key) :
    StopsAtFirstError build calls chain pkey ssl ↔
      (build.oldLibressl = false → ∀ certs, chain = some certs → LeafFails calls certs →
        Idle build certs pkey) := by
  unfold StopsAtFirstError setKeyMaterial
  cases hold : build.oldLibressl with
  | true => simp [Part.raise, Stops]
  | false =>
    cases chain with
    | none => simp [Part.raise, Stops]
    | some certs =>
      simp only [hlib, Bool.false_eq_true, if_false, Option.some.injEq, forall_eq', true_implies]
      by_cases hfails : LeafFails calls certs
      · obtain ⟨log, hleaf, hstops, hnoisy⟩ := useLeaf_fails hfails ssl
        have hboth : (useLeaf calls certs).andThen (useRest build calls certs pkey) ssl =
            (log ++ (useRest build calls certs pkey ssl).1,
              (useRest build calls certs pkey ssl).2) := by
          simp only [Part.andThen, hleaf]
        rw [hboth, stops_append_of_throw hstops hnoisy]
        constructor
        · rintro ⟨hnone, -⟩ -
          by_contra hidle
          have hmodified : ∃ c, Action.call c ∈ (useRest build calls certs pkey ssl).1 ∧
              Modifies c := useRest_modifies hidle ssl
          obtain ⟨c, hc, hmodifies⟩ := hmodified
          exact hnone c hc hmodifies
        · intro hidle
          rw [useRest_idle (hidle hfails)]
          simp
      · refine iff_of_true ⟨?_, fun h => absurd h hfails⟩ fun h => absurd h hfails
        exact ((careful_useLeaf hfails ssl).andThen fun _ => careful_useRest certs pkey _).stops

theorem setKeyMaterial_stops_iff_chain :
    Build.openssl111.library.isBoringSSL = false ∧
    (StopsAtFirstError .openssl111 .succeed (some [1, 2]) (some 1)
        (⟨none, none, false, []⟩ : Ssl Nat Nat) ↔
      (Build.openssl111.oldLibressl = false → ∀ certs, some [1, 2] = some certs →
        LeafFails (.succeed : KeyCalls Nat Nat) certs → Idle .openssl111 certs (some 1))) :=
  ⟨rfl, setKeyMaterial_stops_iff .openssl111 rfl .succeed (some [1, 2]) (some 1) _⟩

/-- Without certificates the key is set and the chain is cleared, although the
exception for the certificate is raised before. -/
theorem setKeyMaterial_goesOn :
    ¬ StopsAtFirstError .openssl111 .succeed (some []) (some 1)
      (⟨some 9, some 9, false, [8]⟩ : Ssl Nat Nat) := by
  rintro ⟨-, hkept⟩
  exact absurd (hkept [] rfl (by simp [LeafFails])).1 (by decide)

end KeyMaterial
