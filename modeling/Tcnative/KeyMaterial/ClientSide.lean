-- SUMMARY: `SSL.setKeyMaterialClientSide`, its reference counts, and the chain that earlier calls have left.
import Tcnative.KeyMaterial.Set

/-!
# Key material for a client

`SSL.setKeyMaterialClientSide` hands the first certificate and the key to the
certificate callback of OpenSSL, and appends the other certificates to the chain
of the connection. Nothing clears this chain, and the callback can run more than
once on a connection.
-/

namespace KeyMaterial
open Jni Tls

variable {X509 Key : Type}

/-! ## Reference counts and outputs -/

/-- The objects that `parseX509Chain` has made, one for each certificate. -/
structure ParsedChain (X509 : Type) where
  certs : List X509
  nodup : certs.Nodup

/-- An `SSL`, and the reference counts of the certificates and keys. -/
structure Client (X509 Key : Type) where
  ssl : Ssl X509 Key
  x509Refs : X509 → Nat
  pkeyRefs : Key → Nat

/-- Which library calls succeed, and the error that a failed one queues. -/
structure ClientCalls where
  add1ChainCert : Nat → Bool
  x509UpRef : Bool
  pkeyUpRef : Bool
  err : String

/-- What a call throws, and what it writes to `*x509Out` and `*pkeyOut`. -/
structure ClientOut (X509 Key : Type) where
  thrown : Option Throwable := none
  x509Out : Option X509 := none
  pkeyOut : Option Key := none

section
variable [DecidableEq X509]

/-- The reference count of a certificate becomes `f` of what it was. -/
def Client.x509Count (st : Client X509 Key) (x509 : X509) (f : Nat → Nat) : Client X509 Key :=
  { st with x509Refs := Function.update st.x509Refs x509 (f (st.x509Refs x509)) }

def Client.pkeyUpRef [DecidableEq Key] (st : Client X509 Key) (pkey : Key) : Client X509 Key :=
  { st with pkeyRefs := Function.update st.pkeyRefs pkey (st.pkeyRefs pkey + 1) }

/-- `SSL_add1_chain_cert`, where it succeeds. -/
def Client.add1ChainCert (st : Client X509 Key) (i : Nat) (x509 : X509) : Client X509 Key :=
  { st.x509Count x509 (· + 1) with ssl := (LibCall.add1ChainCert i x509).effect st.ssl }

/-! ## `SSL.setKeyMaterialClientSide` -/

/-- The loop that appends the certificates from position `i` on, and whether it
gets to its end. -/
def addClientCerts (add : Nat → Bool) (i : Nat) (certs : List X509) (st : Client X509 Key) :
    Bool × Client X509 Key :=
  match certs with
  | [] => (true, st)
  | x509 :: certs =>
    if add i then addClientCerts add (i + 1) certs (st.add1ChainCert i x509) else (false, st)

/-- `SSL.setKeyMaterialClientSide`. NULL pointers are `none`. -/
def setKeyMaterialClientSide [DecidableEq Key] (lib : Library) (calls : ClientCalls)
    (chain : Option (ParsedChain X509)) (pkey : Option Key) (st : Client X509 Key) :
    ClientOut X509 Key × Client X509 Key :=
  let fail (text : String) (st : Client X509 Key) : ClientOut X509 Key × Client X509 Key :=
    ({ thrown := some (throwErr text calls.err) }, st)
  match lib with
  | .libressl => ({ thrown := some (.exception "Not supported with LibreSSL") }, st)
  | .boringssl => ({ thrown := some (.exception "Not supported with BoringSSL") }, st)
  | .awslc => ({ thrown := some (.exception "Not supported with AWS-LC") }, st)
  | .openssl =>
    match chain, pkey with
    | some chain, some pkey =>
      match chain.certs with
      | [] => ({}, st)
      | x509 :: rest =>
        match addClientCerts calls.add1ChainCert 1 rest st with
        | (false, st) => fail "Could not add certificate to chain" st
        | (true, st) =>
          if !calls.x509UpRef then fail "Could not add certificate" st
          else
            let st := st.x509Count x509 (· + 1)
            -- The reference to the certificate is given back.
            if !calls.pkeyUpRef then fail "Could not add private key" (st.x509Count x509 (· - 1))
            else ({ x509Out := some x509, pkeyOut := some pkey }, st.pkeyUpRef pkey)
    | _, _ => ({}, st)

/-! ## One call -/

/-- A call: its arguments, and how the library behaves. -/
structure ClientCall (X509 Key : Type) where
  chain : Option (ParsedChain X509)
  pkey : Option Key
  calls : ClientCalls

/-- The arguments are certificates and a key. -/
def ClientCall.Has (call : ClientCall X509 Key) (x509 : X509) (rest : List X509) (pkey : Key) :
    Prop :=
  (call.chain.map ParsedChain.certs) = some (x509 :: rest) ∧ call.pkey = some pkey

def clientStep [DecidableEq Key] (lib : Library) :
    Machine.Step Empty (Client X509 Key) (ClientCall X509 Key) (ClientOut X509 Key) :=
  fun st call => .ok (setKeyMaterialClientSide lib call.calls call.chain call.pkey st)

/-- The recorded calls. -/
abbrev ClientEntry (X509 Key : Type) :=
  Machine.Entry (Client X509 Key) (ClientCall X509 Key) (ClientOut X509 Key)

/-- A call that throws writes no output, and leaves the reference counts of the
first certificate and of the key. -/
def Balanced (x : ClientEntry X509 Key) : Prop :=
  x.ret.thrown ≠ none → x.ret.x509Out = none ∧ x.ret.pkeyOut = none ∧
    ∀ x509 rest pkey, x.event.Has x509 rest pkey →
      x.post.x509Refs x509 = x.pre.x509Refs x509 ∧ x.post.pkeyRefs pkey = x.pre.pkeyRefs pkey

/-- A call with certificates and a key that throws nothing writes the first
certificate and the key, with one reference more, and the other certificates
are the chain. -/
def Delivers (x : ClientEntry X509 Key) : Prop :=
  x.ret.thrown = none → ∀ x509 rest pkey, x.event.Has x509 rest pkey →
    x.ret.x509Out = some x509 ∧ x.ret.pkeyOut = some pkey ∧
    x.post.x509Refs x509 = x.pre.x509Refs x509 + 1 ∧
    x.post.pkeyRefs pkey = x.pre.pkeyRefs pkey + 1 ∧ x.post.ssl.chain = rest

/-- Every library call of the function succeeds. -/
def ClientCalls.AllSucceed (calls : ClientCalls) (rest : List X509) : Prop :=
  (∀ i < rest.length, calls.add1ChainCert (1 + i) = true) ∧ calls.x509UpRef = true ∧
    calls.pkeyUpRef = true

/-- If a call gets through, the connection has no chain yet. -/
def Fresh (lib : Library) (st : Client X509 Key) (call : ClientCall X509 Key) : Prop :=
  lib = .openssl → ∀ x509 rest pkey, call.Has x509 rest pkey → call.calls.AllSucceed rest →
    st.ssl.chain = []

/-! ### The loop -/

theorem addClientCerts_succeeds (add : Nat → Bool) (i : Nat) (certs : List X509)
    (st : Client X509 Key) :
    (addClientCerts add i certs st).1 = true ↔ ∀ k < certs.length, add (i + k) = true := by
  induction certs generalizing i st with
  | nil => simp [addClientCerts]
  | cons x509 certs ih =>
    unfold addClientCerts
    cases hadd : add i with
    | false =>
      refine iff_of_false (by simp) fun h => ?_
      have hfirst := h 0 (by simp)
      rw [Nat.add_zero, hadd] at hfirst
      cases hfirst
    | true =>
      rw [if_pos rfl, ih]
      constructor
      · rintro h (_ | k) hk
        · exact hadd
        · rw [show i + (k + 1) = i + 1 + k by omega]
          exact h k (by simpa using hk)
      · intro h k hk
        rw [show i + 1 + k = i + (k + 1) by omega]
        exact h (k + 1) (by simpa using hk)

theorem addClientCerts_chain (add : Nat → Bool) (i : Nat) (certs : List X509)
    (st : Client X509 Key) (h : (addClientCerts add i certs st).1 = true) :
    (addClientCerts add i certs st).2.ssl.chain = st.ssl.chain ++ certs := by
  induction certs generalizing i st with
  | nil => simp [addClientCerts]
  | cons x509 certs ih =>
    unfold addClientCerts at h ⊢
    cases hadd : add i with
    | false => simp [hadd] at h
    | true =>
      rw [hadd, if_pos rfl] at h
      rw [if_pos rfl, ih _ _ h]
      simp [Client.add1ChainCert, LibCall.effect, Client.x509Count]

/-- The loop counts references to the certificates that it appends, and to
nothing else. -/
theorem addClientCerts_refs (add : Nat → Bool) (i : Nat) (certs : List X509)
    (st : Client X509 Key) :
    (∀ x509, x509 ∉ certs →
      (addClientCerts add i certs st).2.x509Refs x509 = st.x509Refs x509) ∧
    (addClientCerts add i certs st).2.pkeyRefs = st.pkeyRefs := by
  induction certs generalizing i st with
  | nil => simp [addClientCerts]
  | cons x509 certs ih =>
    unfold addClientCerts
    split
    · obtain ⟨hx509, hpkey⟩ := ih (i + 1) (st.add1ChainCert i x509)
      refine ⟨fun y hy => ?_, hpkey⟩
      have hne : y ≠ x509 := List.ne_of_not_mem_cons hy
      rw [hx509 y (List.not_mem_of_not_mem_cons hy)]
      simp [Client.add1ChainCert, Client.x509Count, Function.update_of_ne hne]
    · exact ⟨fun _ _ => rfl, rfl⟩

/-! ### What a call does -/

/-- A call without certificates or without a key does nothing. -/
theorem setKeyMaterialClientSide_nothing [DecidableEq Key] {calls : ClientCalls}
    {chain : Option (ParsedChain X509)} {pkey : Option Key} {st : Client X509 Key}
    (h : ¬ ∃ x509 rest key, (⟨chain, pkey, calls⟩ : ClientCall X509 Key).Has x509 rest key) :
    setKeyMaterialClientSide .openssl calls chain pkey st = ({}, st) := by
  cases chain with
  | none => rfl
  | some chain =>
    cases pkey with
    | none => rfl
    | some pkey =>
      obtain ⟨_ | ⟨x509, rest⟩, hnodup⟩ := chain
      · rfl
      · exact absurd ⟨x509, rest, pkey, rfl, rfl⟩ h

/-- What a call with certificates and a key throws, writes and counts. -/
structure ClientSpec (calls : ClientCalls) (x509 : X509) (rest : List X509) (pkey : Key)
    (st : Client X509 Key) (r : ClientOut X509 Key × Client X509 Key) : Prop where
  thrown : r.1.thrown = none ↔ calls.AllSucceed rest
  failed : r.1.thrown ≠ none → r.1.x509Out = none ∧ r.1.pkeyOut = none ∧
    r.2.x509Refs x509 = st.x509Refs x509 ∧ r.2.pkeyRefs pkey = st.pkeyRefs pkey
  delivered : r.1.thrown = none → r.1.x509Out = some x509 ∧ r.1.pkeyOut = some pkey ∧
    r.2.x509Refs x509 = st.x509Refs x509 + 1 ∧ r.2.pkeyRefs pkey = st.pkeyRefs pkey + 1 ∧
    r.2.ssl.chain = st.ssl.chain ++ rest

theorem setKeyMaterialClientSide_spec [DecidableEq Key] (calls : ClientCalls)
    {chain : ParsedChain X509} {x509 : X509} {rest : List X509}
    (hcerts : chain.certs = x509 :: rest) (pkey : Key) (st : Client X509 Key) :
    ClientSpec calls x509 rest pkey st
      (setKeyMaterialClientSide .openssl calls (some chain) (some pkey) st) := by
  -- The first certificate is another object than those that the loop counts.
  have hfirst : x509 ∉ rest := (List.nodup_cons.mp (hcerts ▸ chain.nodup)).1
  have hsucceeds := addClientCerts_succeeds calls.add1ChainCert 1 rest st
  have hchain := addClientCerts_chain calls.add1ChainCert 1 rest st
  obtain ⟨hrefs, hpkey⟩ := addClientCerts_refs calls.add1ChainCert 1 rest st
  have hx509 := hrefs x509 hfirst
  simp only [setKeyMaterialClientSide, hcerts]
  generalize addClientCerts calls.add1ChainCert 1 rest st = loop at *
  obtain ⟨added, st₁⟩ := loop
  cases added with
  | false =>
    refine ⟨iff_of_false (by simp) fun h => ?_,
      fun _ => ⟨rfl, rfl, hx509, congrFun hpkey pkey⟩, ?_⟩
    · exact absurd (hsucceeds.mpr h.1) (by simp)
    · simp
  | true =>
    have hall := hsucceeds.mp rfl
    have hchain : st₁.ssl.chain = st.ssl.chain ++ rest := hchain rfl
    simp only at hx509 hpkey
    cases hup : calls.x509UpRef with
    | false =>
      refine ⟨iff_of_false (by simp) fun h => ?_,
      fun _ => ⟨rfl, rfl, hx509, congrFun hpkey pkey⟩, ?_⟩
      · exact absurd h.2.1 (by simp [hup])
      · simp
    | true =>
      cases hkey : calls.pkeyUpRef with
      | false =>
        refine ⟨iff_of_false (by simp) fun h => ?_,
          fun _ => ⟨rfl, rfl, ?_, congrFun hpkey pkey⟩, ?_⟩
        · exact absurd h.2.2 (by simp [hkey])
        · simp [Client.x509Count, hx509]
        · simp
      | true =>
        refine ⟨iff_of_true rfl ⟨hall, hup, hkey⟩, fun h => absurd rfl h, fun _ => ?_⟩
        simp [Client.x509Count, Client.pkeyUpRef, hx509, hpkey, hchain]

end

theorem ClientCall.Has.unique {call : ClientCall X509 Key} {x509 y : X509} {rest rest' : List X509}
    {pkey pkey' : Key} (h : call.Has x509 rest pkey) (h' : call.Has y rest' pkey') :
    y = x509 ∧ rest' = rest ∧ pkey' = pkey := by
  obtain ⟨hcerts, hpkey⟩ := h
  obtain ⟨hcerts', hpkey'⟩ := h'
  simp only [hcerts, hpkey, Option.some.injEq, List.cons.injEq] at hcerts' hpkey'
  exact ⟨hcerts'.1.symm, hcerts'.2.symm, hpkey'.symm⟩

/-- A call with certificates and a key is balanced, and it delivers exactly if it
fails or finds no chain. -/
theorem ClientSpec.iff {call : ClientCall X509 Key} {x509 : X509} {rest : List X509} {pkey : Key}
    {st : Client X509 Key} {r : ClientOut X509 Key × Client X509 Key}
    (hspec : ClientSpec call.calls x509 rest pkey st r) (hhas : call.Has x509 rest pkey) :
    Balanced ⟨st, call, r.1, r.2⟩ ∧ Delivers ⟨st, call, r.1, r.2⟩ ↔ Fresh .openssl st call := by
  constructor
  · rintro ⟨-, hdelivers⟩ - y rest' key' hy hsucceed
    obtain ⟨rfl, rfl, rfl⟩ := hhas.unique hy
    have hthrown := hspec.thrown.mpr hsucceed
    have hrest := (hdelivers hthrown _ _ _ hy).2.2.2.2
    exact List.append_left_eq_self.mp ((hspec.delivered hthrown).2.2.2.2.symm.trans hrest)
  · intro hfresh
    constructor
    · intro hthrown
      obtain ⟨hx509, hpkey, hrefs, hkey⟩ := hspec.failed hthrown
      refine ⟨hx509, hpkey, fun y rest' key' hy => ?_⟩
      obtain ⟨rfl, rfl, rfl⟩ := hhas.unique hy
      exact ⟨hrefs, hkey⟩
    · intro hthrown y rest' key' hy
      obtain ⟨rfl, rfl, rfl⟩ := hhas.unique hy
      obtain ⟨hx509, hpkey, hrefs, hkey, hchain⟩ := hspec.delivered hthrown
      refine ⟨hx509, hpkey, hrefs, hkey, ?_⟩
      rwa [hfresh rfl _ _ _ hy (hspec.thrown.mp hthrown)] at hchain

theorem setKeyMaterialClientSide_iff [DecidableEq X509] [DecidableEq Key] (lib : Library)
    (st : Client X509 Key) (call : ClientCall X509 Key) {r : ClientOut X509 Key × Client X509 Key}
    (hr : setKeyMaterialClientSide lib call.calls call.chain call.pkey st = r) :
    Balanced ⟨st, call, r.1, r.2⟩ ∧ Delivers ⟨st, call, r.1, r.2⟩ ↔ Fresh lib st call := by
  -- Everywhere but for OpenSSL the call throws at once.
  have hother (cause : Throwable) : Balanced ⟨st, call, { thrown := some cause }, st⟩ ∧
      Delivers ⟨st, call, { thrown := some cause }, st⟩ :=
    ⟨fun _ => ⟨rfl, rfl, fun _ _ _ _ => ⟨rfl, rfl⟩⟩, fun h => absurd h (by simp)⟩
  subst hr
  cases lib with
  | libressl => exact iff_of_true (hother _) (by simp [Fresh])
  | boringssl => exact iff_of_true (hother _) (by simp [Fresh])
  | awslc => exact iff_of_true (hother _) (by simp [Fresh])
  | openssl =>
    by_cases hhas : ∃ x509 rest pkey, call.Has x509 rest pkey
    · obtain ⟨x509, rest, pkey, hhas⟩ := hhas
      obtain ⟨chain, hchain, hcerts⟩ := Option.map_eq_some_iff.mp hhas.1
      rw [hchain, hhas.2]
      exact (setKeyMaterialClientSide_spec call.calls hcerts pkey st).iff hhas
    · rw [setKeyMaterialClientSide_nothing hhas]
      refine iff_of_true ⟨fun h => absurd rfl h, fun _ x509 rest pkey h => ?_⟩ ?_
      · exact absurd ⟨x509, rest, pkey, h⟩ hhas
      · exact fun _ x509 rest pkey h => absurd ⟨x509, rest, pkey, h⟩ hhas

/-! ## Repeated calls -/

/-- The calls of a connection are all balanced and deliver if and only if each
call that gets through finds the chain of the connection empty. -/
theorem clientSide_repeatable_iff [DecidableEq X509] [DecidableEq Key] (lib : Library)
    (st : Client X509 Key) (calls : List (ClientCall X509 Key)) :
    Machine.Ends (clientStep lib) (fun t _ => ∀ x ∈ t, Balanced x ∧ Delivers x) st calls ↔
      Machine.Meets (clientStep lib) (Fresh lib) st calls :=
  Machine.ends_iff_meets (I := fun _ => True) (Q := fun x => Balanced x ∧ Delivers x)
    (fun st call _ => ⟨_, _, rfl, trivial, setKeyMaterialClientSide_iff lib st call rfl⟩) trivial
    calls

/-- A call with two certificates where everything succeeds. -/
def ClientCall.pair : ClientCall Nat Nat where
  chain := some ⟨[1, 2], by decide⟩
  pkey := some 1
  calls := ⟨fun _ => true, true, true, ""⟩

/-- The second of two equal calls leaves the chain of both. -/
theorem clientSide_accumulates :
    ¬ Machine.Ends (clientStep .openssl) (fun t _ => ∀ x ∈ t, Balanced x ∧ Delivers x)
      (⟨⟨none, none, false, []⟩, fun _ => 1, fun _ => 1⟩ : Client Nat Nat) [.pair, .pair] := by
  rintro ⟨t, st', hrun, ht⟩
  cases hrun
  have hsecond := (ht _ (List.mem_cons_of_mem _ List.mem_cons_self)).2 rfl 1 [2] 1 ⟨rfl, rfl⟩
  exact absurd hsecond.2.2.2.2 (by decide)

end KeyMaterial
