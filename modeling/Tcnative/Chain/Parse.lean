-- SUMMARY: The functions that parse a certificate chain, and the certificates that both builds of `SSL.parseX509Chain` extract.
import Tcnative.Base.Library
import Tcnative.Chain.Pem

/-!
# Parsing a chain

Three functions read certificates until the reader returns NULL, and decide then
by the oldest error of the queue whether that was the end of the input. For
BoringSSL and AWS-LC `SSL.parseX509Chain` reads blocks instead of certificates.
-/

namespace Chain
open Jni Tls

variable {X509 α : Type}

/-! ## Shared parts -/

/-- What succeeds during one call, and the texts of `ERR_error_string_n`. `add i`
is whether entry `i` of the result can be allocated and stored. -/
structure ChainCalls where
  add : Nat → Bool
  errorString : ErrorCode → String

/-- The body of a reading loop: store each value, and leave at the first failure. -/
def addAll (add : Nat → Bool) (n : Nat) (acc : List α) : List α → Bool × Nat × List α
  | [] => (true, n, acc)
  | a :: as => if add n then addAll add (n + 1) (acc ++ [a]) as else (false, n, acc)

/-- The error that fails the end-of-file check, if there is one. -/
def foreignError (q : ErrorQueue) : Option ErrorCode :=
  match errPeekError q with
  | none => none
  | some err => if err.IsNoStartLine then none else some err

/-- `if (skipfirst)`: one read that must not return NULL. -/
def skipFirst (skipfirst : Bool) (reads : Reads α) : Option (Reads α) :=
  if skipfirst then
    match reads.values with
    | [] => none
    | _ :: values => some { reads with values }
  else some reads

/-! ## `SSL.parseX509Chain` -/

/-- `STACK_OF(X509) *` or `STACK_OF(CRYPTO_BUFFER) *`, by the build. -/
inductive Stack (X509 : Type) where
  | x509 (certs : List X509)
  | cryptoBuffer (buffers : List (List Byte))
  deriving DecidableEq

/-- The part of `SSL.parseX509Chain` that both builds share. -/
def parseReads (calls : ChainCalls) (reads : Reads α) (q : ErrorQueue) :
    Except Throwable (List α) × ErrorQueue :=
  match addAll calls.add 0 [] reads.values with
  | (false, _, _) => (.error (.exception "No Certificate specified or invalid format"), [])
  | (true, _, chain) =>
    -- ensure that if we have an error its just for EOL.
    match foreignError (q ++ [reads.stop]) with
    | some err => (.error (.exception s!"Invalid format ({calls.errorString err})"), [])
    | none => (.ok chain, [])

/-- `SSL.parseX509Chain`. -/
def parseX509Chain (lib : Library) (d2i : List Byte → Except BlockError X509) (calls : ChainCalls)
    (x509ChainBio : Option (List Item)) (q : ErrorQueue) :
    Except Throwable (Stack X509) × ErrorQueue :=
  match x509ChainBio with
  | none => (.error (.nullPointerException "x509ChainBio"), q)
  | some items =>
    if lib.isBoringSSL then
      match parseReads calls ((pemReadBio items).map (·.data)) q with
      | (chain, q) => (chain.map .cryptoBuffer, q)
    else
      match parseReads calls (pemReadBioX509 d2i items) q with
      | (chain, q) => (chain.map .x509, q)

/-! ## Chains of a context and of a connection -/

/-- What `SSL_CTX_setup_certs` stores in the `SSL_CTX`. A client CA is known by
the certificate that its name is taken from. -/
structure SslCtx (X509 : Type) where
  clientCAs : List X509
  extraChain : List X509

/-- The end of both functions: the end-of-file check, and the count. -/
def countOrFail {σ : Type} (n : Nat) (s : σ) (q : ErrorQueue) : Int × σ × ErrorQueue :=
  match foreignError q with
  | some _ => (-1, s, q)
  | none => (n, s, [])

/-- `SSL_CTX_setup_certs`. -/
def sslCtxSetupCerts (lib : Library) (d2i : List Byte → Except BlockError X509) (calls : ChainCalls)
    (ctx : SslCtx X509) (items : List Item) (skipfirst ca : Bool) (q : ErrorQueue) :
    Int × SslCtx X509 × ErrorQueue :=
  match skipFirst skipfirst (pemReadBioX509 d2i items) with
  | none => (-1, ctx, q ++ [(pemReadBioX509 d2i items).stop])
  | some reads =>
    if ca then
      if lib.isBoringSSL then
        match addAll calls.add 0 [] reads.values with
        | (false, _, _) => (-1, ctx, q)
        | (true, n, names) => countOrFail n { ctx with clientCAs := names } (q ++ [reads.stop])
      else
        match addAll calls.add 0 ctx.clientCAs reads.values with
        | (false, _, clientCAs) => (-1, { ctx with clientCAs }, q)
        | (true, n, clientCAs) => countOrFail n { ctx with clientCAs } (q ++ [reads.stop])
    else if lib.isBoringSSL then (-1, ctx, q)
    else
      match addAll calls.add 0 [] reads.values with
      | (false, _, extraChain) => (-1, { ctx with extraChain }, q)
      | (true, n, extraChain) => countOrFail n { ctx with extraChain } (q ++ [reads.stop])

/-- `tcn_SSL_use_certificate_chain_bio`. `supported` is false for LibreSSL up to
2.9.2. -/
def tcnSSLUseCertificateChainBio (supported : Bool) (d2i : List Byte → Except BlockError X509)
    (calls : ChainCalls) (chain : List X509) (items : List Item) (skipfirst : Bool)
    (q : ErrorQueue) : Int × List X509 × ErrorQueue :=
  if !supported then (-1, chain, q)
  else
    match skipFirst skipfirst (pemReadBioX509 d2i items) with
    | none => (-1, chain, q ++ [(pemReadBioX509 d2i items).stop])
    | some reads =>
      match addAll calls.add 0 chain reads.values with
      | (false, _, chain) => (-1, chain, q)
      | (true, n, chain) => countOrFail n chain (q ++ [reads.stop])

/-! ## The reading loop -/

/-- Every value can be stored. -/
def AddsAll (add : Nat → Bool) (values : List α) : Prop := ∀ i < values.length, add i = true

instance (add : Nat → Bool) (values : List α) : Decidable (AddsAll add values) :=
  inferInstanceAs (Decidable (∀ i < values.length, _))

theorem addAll_eq (add : Nat → Bool) (values : List α) (n : Nat) (acc : List α)
    (h : ∀ i < values.length, add (n + i) = true) :
    addAll add n acc values = (true, n + values.length, acc ++ values) := by
  induction values generalizing n acc with
  | nil => simp [addAll]
  | cons a values ih =>
    have hhead : add n = true := h 0 (by simp)
    have htail : ∀ i < values.length, add (n + 1 + i) = true := by
      intro i hi
      rw [Nat.add_assoc, Nat.add_comm 1 i]
      exact h (i + 1) (by simpa using hi)
    rw [addAll, if_pos hhead, ih _ _ htail]
    simp [Nat.add_comm, Nat.add_left_comm]

theorem addAll_fails (add : Nat → Bool) (values : List α) (n : Nat) (acc : List α)
    (h : ¬ ∀ i < values.length, add (n + i) = true) : (addAll add n acc values).1 = false := by
  induction values generalizing n acc with
  | nil => exact absurd nofun h
  | cons a values ih =>
    by_cases hhead : add n = true
    · rw [addAll, if_pos hhead]
      refine ih _ _ fun htail => h fun i hi => ?_
      cases i with
      | zero => exact hhead
      | succ i =>
        have := htail i (by simpa using hi)
        rwa [Nat.add_assoc, Nat.add_comm 1 i] at this
    · rw [addAll, if_neg hhead]

theorem AddsAll.addAll {add : Nat → Bool} {values : List α} (h : AddsAll add values)
    (acc : List α) : addAll add 0 acc values = (true, values.length, acc ++ values) := by
  rw [addAll_eq add values 0 acc fun i hi => by simpa using h i hi, Nat.zero_add]

/-- A loop that cannot store a value is left early. -/
theorem addAll_early {add : Nat → Bool} {values : List α} (h : ¬ AddsAll add values)
    (acc : List α) : ∃ n acc', addAll add 0 acc values = (false, n, acc') := by
  have hfails := addAll_fails add values 0 acc fun hadd => h fun i hi => by simpa using hadd i hi
  exact ⟨_, _, Prod.ext hfails rfl⟩

/-- Where everything can be stored, the end-of-file check decides. -/
theorem parseReads_eq {calls : ChainCalls} {reads : Reads α} (hadd : AddsAll calls.add reads.values)
    (q : ErrorQueue) :
    (parseReads calls reads q).1 =
      match foreignError (q ++ [reads.stop]) with
      | some err => .error (.exception s!"Invalid format ({calls.errorString err})")
      | none => .ok reads.values := by
  simp only [parseReads, hadd.addAll]
  cases foreignError (q ++ [reads.stop]) <;> rfl

/-! ## What both builds extract -/

section
variable {d2i : List Byte → Except BlockError X509} {i2d : X509 → List Byte} {calls : ChainCalls}

/-- A chain is returned where the reader has reached the end of the input, there
is no older error, and everything can be stored. -/
theorem parseReads_eof {reads : Reads α} (hadd : AddsAll calls.add reads.values)
    (hstop : reads.stop = noStartLine) : (parseReads calls reads []).1 = .ok reads.values := by
  rw [parseReads_eq hadd, hstop]
  rfl

theorem parseX509Chain_x509 {lib : Library} (hlib : lib.isBoringSSL = false) {items : List Item}
    (hadd : AddsAll calls.add (pemReadBioX509 d2i items).values)
    (hstop : (pemReadBioX509 d2i items).stop = noStartLine) :
    (parseX509Chain lib d2i calls (some items) []).1 =
      .ok (.x509 (pemReadBioX509 d2i items).values) := by
  simp only [parseX509Chain, hlib, Bool.false_eq_true, if_false, parseReads_eof hadd hstop]
  rfl

theorem parseX509Chain_buffers (d2i : List Byte → Except BlockError X509) {lib : Library}
    (hlib : lib.isBoringSSL = true) {items : List Item}
    (hadd : AddsAll calls.add (pemReadBio items).values)
    (hstop : (pemReadBio items).stop = noStartLine) :
    (parseX509Chain lib d2i calls (some items) []).1 =
      .ok (.cryptoBuffer ((pemReadBio items).values.map (·.data))) := by
  have hadd' : AddsAll calls.add ((pemReadBio items).map (·.data)).values := by
    simpa [AddsAll, Reads.map] using hadd
  simp only [parseX509Chain, hlib, if_true, parseReads_eof hadd' hstop]
  rfl

/-- The buffers of one build are the certificates of the other, and none of them
is the payload of another kind of block. -/
def SameCertificates (d2i : List Byte → Except BlockError X509) (i2d : X509 → List Byte)
    (calls : ChainCalls) (lib lib' : Library) (blocks : List Block) : Prop :=
  ∃ certs buffers,
    (parseX509Chain lib d2i calls (some (blocks.map .block)) []).1 = .ok (.x509 certs) ∧
    (parseX509Chain lib' d2i calls (some (blocks.map .block)) []).1 = .ok (.cryptoBuffer buffers) ∧
    buffers = certs.map i2d ∧ ∀ b ∈ blocks, ¬ b.IsCertificate → b.data ∉ buffers

/-- Both builds extract the same certificates if and only if the input has no
other blocks. -/
theorem parseX509Chain_agree_iff {lib lib' : Library} (hopenssl : lib.isBoringSSL = false)
    (hboringssl : lib'.isBoringSSL = true) {blocks : List Block}
    (hadd : AddsAll calls.add blocks)
    (hder : ∀ b ∈ blocks, b.IsCertificate → ∃ x509, d2i b.data = .ok x509 ∧ i2d x509 = b.data) :
    SameCertificates d2i i2d calls lib lib' blocks ↔ ∀ b ∈ blocks, b.IsCertificate := by
  obtain ⟨hstop, hvalues⟩ := pemReadBioX509_blocks blocks hder
  have hblocks := pemReadBio_blocks blocks
  have hlen : (pemReadBioX509 d2i (blocks.map .block)).values.length ≤ blocks.length := by
    have heq := congrArg List.length hvalues
    simp only [List.length_map] at heq
    rw [heq]
    exact List.length_filter_le _ _
  have haddX509 : AddsAll calls.add (pemReadBioX509 d2i (blocks.map .block)).values :=
    fun i hi => hadd i (Nat.lt_of_lt_of_le hi hlen)
  have haddBlocks : AddsAll calls.add (pemReadBio (blocks.map .block)).values := by rwa [hblocks]
  have hx509 := parseX509Chain_x509 hopenssl haddX509 hstop
  have hbuffers := parseX509Chain_buffers d2i hboringssl haddBlocks (by rw [hblocks])
  rw [hblocks] at hbuffers
  constructor
  · rintro ⟨certs, buffers, hcerts, hbufs, heq, -⟩
    cases hx509.symm.trans hcerts
    cases hbuffers.symm.trans hbufs
    -- The filter drops no block, as both lists are equally long.
    rw [hvalues] at heq
    have hlength := congrArg List.length heq
    simp only [List.length_map] at hlength
    have hall := List.length_filter_eq_length_iff.mp hlength.symm
    intro b hb
    simpa using hall b hb
  · intro hall
    refine ⟨_, _, hx509, hbuffers, ?_, fun b hb hother => absurd (hall b hb) hother⟩
    rw [hvalues, List.filter_eq_self.mpr fun b hb => by simpa using hall b hb]

/-- All allocations succeed. -/
def ChainCalls.succeed : ChainCalls := ⟨fun _ => true, fun _ => ""⟩

/-- A chain of two certificates. -/
theorem parseX509Chain_agree_chain :
    SameCertificates .ok id .succeed .openssl .boringssl
      [⟨"CERTIFICATE", [1]⟩, ⟨"X509 CERTIFICATE", [2]⟩] :=
  (parseX509Chain_agree_iff rfl rfl (fun _ _ => rfl) (fun b _ _ => ⟨b.data, rfl, rfl⟩)).mpr
    (by decide)

/-- A certificate and its key in one file: the key becomes part of the chain. -/
theorem parseX509Chain_key :
    ¬ SameCertificates .ok id .succeed .openssl .boringssl
      [⟨"CERTIFICATE", [1]⟩, ⟨"PRIVATE KEY", [2]⟩] := by
  rintro ⟨certs, buffers, hcerts, hbuffers, heq, -⟩
  cases hcerts
  cases hbuffers
  cases heq

end

end Chain
