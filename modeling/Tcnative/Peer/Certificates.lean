-- SUMMARY: `SSL.getPeerCertificate` and `SSL.getPeerCertChain` in both kinds of builds, and when they report the same certificates.
import Tcnative.Base.Library
import Tcnative.Protocol.Config

/-!
# Certificates of the peer

The chain that OpenSSL has for a server lacks the leaf. BoringSSL and AWS-LC have
the whole chain, and there `SSL.getPeerCertChain` leaves out the leaf itself. It
goes by the mode of the context, but the role of a connection is an argument of
`SSL.newSSL`.
-/

namespace Peer
open Jni Tls
open Protocol (sslModeServer)

/-! ## Connections -/

/-- The field of `tcn_ssl_ctxt_t` that is read here. -/
structure TcnSslCtxt where
  mode : Int

/-- An `SSL` with the context that its `tcn_ssl_state_t` points to. `server` is
whether it is in the accept state. -/
structure Ssl where
  ctx : TcnSslCtxt
  server : Bool

/-- `SSL.newSSL`. `sslNew` and `malloc` are whether `SSL_new` and `new_ssl_state`
succeed. -/
def newSSL (sslNew malloc : Bool) (ctx : Option TcnSslCtxt) (server : Bool) :
    Except Throwable Ssl :=
  checkNull ctx "ctx" fun c =>
    if !sslNew then .error (.exception "cannot create new ssl")
    else if !malloc then .error (.exception "cannot create new ssl state struct")
    else .ok ⟨c, server⟩

/-- What the library answers about the peer of a connection. OpenSSL answers with
`X509`s, BoringSSL and AWS-LC with buffers. `none` is NULL. -/
structure PeerCerts (X509 : Type) where
  sslGetPeerCertChain : Option (List X509)
  sslGetPeerCertificate : Option X509
  i2dX509 : X509 → Option (List Byte)
  sslGet0PeerCertificates : Option (List (List Byte))

/-- Which of the JNI calls succeed. `newEmptyArray` is about the array that takes
the place of one with a certificate that cannot be encoded. -/
structure ArrayCalls where
  newObjectArray : Bool
  newEmptyArray : Bool
  newByteArray : Nat → Bool

/-- No JNI call fails. -/
def ArrayCalls.succeed : ArrayCalls := ⟨true, true, fun _ => true⟩

/-! ## The two methods -/

variable {α X509 : Type}

/-- `sk_X509_num`. -/
def skX509Num : Option (List X509) → Int
  | none => -1
  | some certs => certs.length

/-- `sk_CRYPTO_BUFFER_num`. -/
def skCryptoBufferNum : Option (List (List Byte)) → Int
  | none => 0
  | some certs => certs.length

/-- The loop of `getPeerCertChain`, from the element at position `i` on. What it
returns early is an error here. -/
def fillArray (calls : ArrayCalls) (encode : α → Option (List Byte)) (i : Nat) :
    List α → Except (Option (List (List Byte))) (List (List Byte))
  | [] => .ok []
  | cert :: certs =>
    match encode cert with
    | none => .error (if calls.newEmptyArray then some [] else none)
    | some bytes =>
      if !calls.newByteArray i then .error none
      else (fillArray calls encode (i + 1) certs).map (bytes :: ·)

/-- The part of `getPeerCertChain` behind the choice of `chain`, `len` and `offset`. -/
def chainArray (calls : ArrayCalls) (encode : α → Option (List Byte)) (chain : List α) (len : Int)
    (offset : Nat) : Option (List (List Byte)) :=
  let len := len - offset
  -- No peer certificate chain as no auth took place yet, or the auth was not successful.
  if len ≤ 0 then none
  else if !calls.newObjectArray then none
  else
    match fillArray calls encode 0 ((chain.drop offset).take len.toNat) with
    | .error returned => returned
    | .ok array => some array

/-- `SSL.getPeerCertChain`. -/
def getPeerCertChain (lib : Library) (calls : ArrayCalls) (peer : PeerCerts X509)
    (ssl : Option Ssl) : Except Throwable (Option (List (List Byte))) :=
  checkNull ssl "ssl" fun ssl =>
    if lib.isBoringSSL then
      let chain := peer.sslGet0PeerCertificates
      let offset := if ssl.ctx.mode = sslModeServer then 1 else 0
      .ok (chainArray calls some (chain.getD []) (skCryptoBufferNum chain) offset)
    else
      let chain := peer.sslGetPeerCertChain
      .ok (chainArray calls peer.i2dX509 (chain.getD []) (skX509Num chain) 0)

/-- `SSL.getPeerCertificate`. -/
def getPeerCertificate (lib : Library) (calls : ArrayCalls) (peer : PeerCerts X509)
    (ssl : Option Ssl) : Except Throwable (Option (List Byte)) :=
  checkNull ssl "ssl" fun _ =>
    if lib.isBoringSSL then
      match peer.sslGet0PeerCertificates with
      | none | some [] => .ok none
      | some (leafCert :: _) => .ok (if calls.newByteArray 0 then some leafCert else none)
    else
      match peer.sslGetPeerCertificate with
      | none => .ok none
      | some cert =>
        match peer.i2dX509 cert with
        -- There is no array of a negative length.
        | none => .ok none
        | some buf => .ok (if calls.newByteArray 0 then some buf else none)

/-! ## What the builds report -/

/-- The part of the peer's chain that OpenSSL has in `SSL_get_peer_cert_chain`. -/
def remaining (server : Bool) (chain : List (List Byte)) : List (List Byte) :=
  if server then chain.tail else chain

/-- The peer has presented a chain of encoded certificates. What is empty may be NULL. -/
structure Presents (server : Bool) (chain : List (List Byte)) (peer : PeerCerts X509) : Prop where
  peerCertChain : (peer.sslGetPeerCertChain.getD []).map peer.i2dX509 =
    (remaining server chain).map some
  peerCertificate : peer.sslGetPeerCertificate.map peer.i2dX509 = chain.head?.map some
  peerCertificates : peer.sslGet0PeerCertificates.getD [] = chain

/-- The two results put together are the chain of the peer, and a result is null
exactly if nothing is left for it. -/
structure Reports (server : Bool) (chain : List (List Byte)) (leaf : Option (List Byte))
    (rest : Option (List (List Byte))) : Prop where
  exact : (if server then leaf.toList ++ rest.getD [] else rest.getD []) = chain
  isLeaf : leaf = chain.head?
  leafNull : leaf = none ↔ chain = []
  restNull : rest = none ↔ remaining server chain = []

/-- On a connection of a context both kinds of builds report the same, and it is
what the peer has presented. -/
def BuildsAgree (mode : Int) (server : Bool) (chain : List (List Byte)) : Prop :=
  ∀ (X509 : Type) (peer : PeerCerts X509) (ssl : Ssl) (lib lib' : Library),
    newSSL true true (some ⟨mode⟩) server = .ok ssl → Presents server chain peer →
    lib.isBoringSSL = false → lib'.isBoringSSL = true →
    ∃ leaf rest,
      getPeerCertificate lib .succeed peer (some ssl) = .ok leaf ∧
      getPeerCertificate lib' .succeed peer (some ssl) = .ok leaf ∧
      getPeerCertChain lib .succeed peer (some ssl) = .ok rest ∧
      getPeerCertChain lib' .succeed peer (some ssl) = .ok rest ∧
      Reports server chain leaf rest

/-- An array of certificates, or null in place of an empty one. -/
def arrayOrNull (certs : List (List Byte)) : Option (List (List Byte)) :=
  if certs = [] then none else some certs

theorem arrayOrNull_getD (certs : List (List Byte)) : (arrayOrNull certs).getD [] = certs := by
  unfold arrayOrNull
  split
  · rename_i h
    rw [h, Option.getD_none]
  · rfl

theorem arrayOrNull_eq_none {certs : List (List Byte)} : arrayOrNull certs = none ↔ certs = [] := by
  unfold arrayOrNull
  split
  · rename_i h
    exact iff_of_true rfl h
  · rename_i h
    exact iff_of_false (by simp) h

/-- Where every certificate can be encoded, the loop encodes them all. -/
theorem fillArray_succeed {encode : α → Option (List Byte)} {certs : List α}
    {array : List (List Byte)} (h : certs.map encode = array.map some) (i : Nat) :
    fillArray .succeed encode i certs = .ok array := by
  induction certs generalizing array i with
  | nil =>
    obtain rfl : array = [] := by simpa using h.symm
    rfl
  | cons cert certs ih =>
    cases array with
    | nil => simp at h
    | cons bytes array =>
      rw [List.map_cons, List.map_cons, List.cons.injEq] at h
      simp only [fillArray, h.1, ih h.2 (i + 1)]
      rfl

theorem chainArray_succeed {encode : α → Option (List Byte)} {chain : List α}
    {certs : List (List Byte)} {len : Int} {offset : Nat}
    (h : (chain.drop offset).map encode = certs.map some)
    (hlen : len = chain.length ∨ len ≤ 0 ∧ chain = []) :
    chainArray .succeed encode chain len offset = arrayOrNull certs := by
  have hcerts : certs.length = chain.length - offset := by
    have hlength := congrArg List.length h
    simpa using hlength.symm
  simp only [chainArray, arrayOrNull]
  by_cases hle : len - offset ≤ 0
  · -- Nothing is left behind the offset.
    have hnil : certs = [] := by
      rw [← List.length_eq_zero_iff]
      rcases hlen with rfl | ⟨-, rfl⟩
      · omega
      · simpa using hcerts
    rw [if_pos hle, if_pos hnil]
  · obtain rfl : len = chain.length := by
      rcases hlen with hlen | ⟨hlen, -⟩
      · exact hlen
      · omega
    have hne : certs ≠ [] := by
      rw [← List.length_pos_iff]
      omega
    have hall : (chain.drop offset).take ((chain.length : Int) - offset).toNat =
        chain.drop offset := by
      refine List.take_of_length_le ?_
      rw [List.length_drop]
      omega
    rw [if_neg hle, hall, fillArray_succeed h, if_neg hne]
    rfl

section
variable {mode : Int} {server : Bool} {chain : List (List Byte)} {peer : PeerCerts X509}
  {lib : Library}

/-- The chain that an OpenSSL build reports. -/
theorem getPeerCertChain_openssl (h : Presents server chain peer) (hlib : lib.isBoringSSL = false)
    (ssl : Ssl) :
    getPeerCertChain lib .succeed peer (some ssl) = .ok (arrayOrNull (remaining server chain)) := by
  have hnum : skX509Num peer.sslGetPeerCertChain = (peer.sslGetPeerCertChain.getD []).length ∨
      skX509Num peer.sslGetPeerCertChain ≤ 0 ∧ peer.sslGetPeerCertChain.getD [] = [] := by
    cases peer.sslGetPeerCertChain with
    | none => exact .inr ⟨by simp [skX509Num], rfl⟩
    | some certs => exact .inl rfl
  simp only [getPeerCertChain, checkNull, hlib, Bool.false_eq_true, if_false]
  have hchain : chainArray .succeed peer.i2dX509 (peer.sslGetPeerCertChain.getD [])
      (skX509Num peer.sslGetPeerCertChain) 0 = arrayOrNull (remaining server chain) :=
    chainArray_succeed h.peerCertChain hnum
  rw [hchain]

/-- The chain that a BoringSSL or AWS-LC build reports. -/
theorem getPeerCertChain_boringssl (h : Presents server chain peer)
    (hlib : lib.isBoringSSL = true) (ssl : Ssl) :
    getPeerCertChain lib .succeed peer (some ssl) =
      .ok (arrayOrNull (chain.drop (if ssl.ctx.mode = sslModeServer then 1 else 0))) := by
  have hnum : skCryptoBufferNum peer.sslGet0PeerCertificates =
      (peer.sslGet0PeerCertificates.getD []).length := by
    cases peer.sslGet0PeerCertificates <;> rfl
  simp only [getPeerCertChain, checkNull, hlib, if_true]
  rw [chainArray_succeed rfl (.inl hnum), h.peerCertificates]

/-- Both kinds of builds report the leaf. -/
theorem getPeerCertificate_eq (h : Presents server chain peer) (lib : Library) (ssl : Ssl) :
    getPeerCertificate lib .succeed peer (some ssl) = .ok chain.head? := by
  simp only [getPeerCertificate, checkNull]
  split
  · have hcerts := h.peerCertificates
    cases hpeer : peer.sslGet0PeerCertificates with
    | none =>
      rw [← hcerts, hpeer]
      rfl
    | some certs =>
      obtain rfl : certs = chain := by rw [← hcerts, hpeer, Option.getD_some]
      cases certs with
      | nil => rfl
      | cons leafCert _ => rfl
  · have hcert := h.peerCertificate
    cases hpeer : peer.sslGetPeerCertificate with
    | none =>
      rw [hpeer, Option.map_none, eq_comm, Option.map_eq_none_iff] at hcert
      rw [hcert]
    | some cert =>
      rw [hpeer, Option.map_some, eq_comm, Option.map_eq_some_iff] at hcert
      obtain ⟨bytes, hhead, hencoded⟩ := hcert
      simp only [← hencoded, hhead]
      rfl

theorem remaining_reports (server : Bool) (chain : List (List Byte)) :
    Reports server chain chain.head? (arrayOrNull (remaining server chain)) where
  exact := by
    rw [arrayOrNull_getD]
    cases server with
    | false => rfl
    | true => cases chain <;> rfl
  isLeaf := rfl
  leafNull := List.head?_eq_none_iff
  restNull := arrayOrNull_eq_none

end

/-- What is left behind the offset is what OpenSSL leaves exactly if there is
nothing, or the mode of the context is that of the connection. -/
theorem drop_offset_iff (mode : Int) (server : Bool) (chain : List (List Byte)) :
    chain.drop (if mode = sslModeServer then 1 else 0) = remaining server chain ↔
      chain = [] ∨ (mode = sslModeServer ↔ server = true) := by
  have hne : chain.tail = chain ↔ chain = [] := by
    cases chain with
    | nil => simp
    | cons cert certs => simp
  by_cases hmode : mode = sslModeServer
  · rw [if_pos hmode, List.drop_one]
    cases server with
    | false => simpa [remaining, hmode] using hne
    | true => simp [remaining, hmode]
  · rw [if_neg hmode, List.drop_zero]
    cases server with
    | false => simp [remaining, hmode]
    | true => simpa [remaining, hmode, eq_comm] using hne

/-- Both kinds of builds report the same exactly if the peer has presented
nothing, or the mode of the context and the role of the connection say the same
about being a server. -/
theorem buildsAgree_iff (mode : Int) (server : Bool) (chain : List (List Byte)) :
    BuildsAgree mode server chain ↔ chain = [] ∨ (mode = sslModeServer ↔ server = true) := by
  rw [← drop_offset_iff]
  constructor
  · intro h
    have hpresents : Presents server chain
        (⟨some (remaining server chain), chain.head?, some, some chain⟩ : PeerCerts (List Byte)) :=
      ⟨rfl, rfl, rfl⟩
    obtain ⟨leaf, rest, -, -, hopenssl, hboringssl, -⟩ :=
      h _ _ ⟨⟨mode⟩, server⟩ .openssl .boringssl rfl hpresents rfl rfl
    rw [getPeerCertChain_openssl hpresents rfl, Except.ok.injEq] at hopenssl
    rw [getPeerCertChain_boringssl hpresents rfl, Except.ok.injEq, ← hopenssl] at hboringssl
    have hsame := congrArg (·.getD []) hboringssl
    simpa only [arrayOrNull_getD] using hsame
  · rintro hdrop X509 peer ssl lib lib' hssl hpresents hlib hlib'
    obtain rfl : ⟨⟨mode⟩, server⟩ = ssl := Except.ok.inj hssl
    refine ⟨chain.head?, arrayOrNull (remaining server chain),
      getPeerCertificate_eq hpresents lib _, getPeerCertificate_eq hpresents lib' _,
      getPeerCertChain_openssl hpresents hlib _, ?_, remaining_reports server chain⟩
    rw [getPeerCertChain_boringssl hpresents hlib', hdrop]

/-- `SSL_MODE_COMBINED`. -/
def sslModeCombined : Int := 2

/-- A server connection of a context for both roles: BoringSSL reports the leaf as
part of the chain. -/
theorem buildsDisagree_combined : ¬ BuildsAgree sslModeCombined true [[1], [2]] := by
  intro h
  have hpresents : Presents true [[1], [2]]
      (⟨some [[2]], some [1], some, some [[1], [2]]⟩ : PeerCerts (List Byte)) := ⟨rfl, rfl, rfl⟩
  obtain ⟨leaf, rest, -, -, hopenssl, hboringssl, -⟩ :=
    h _ _ ⟨⟨sslModeCombined⟩, true⟩ .openssl .boringssl rfl hpresents rfl rfl
  have hsame : (.ok (some [[2]]) : Except Throwable (Option (List (List Byte)))) =
      .ok (some [[1], [2]]) := hopenssl.trans hboringssl.symm
  cases hsame

end Peer
