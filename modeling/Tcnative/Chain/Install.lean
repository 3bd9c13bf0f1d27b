-- SUMMARY: The setters that load certificates into an `SSL_CTX`, and what is left in it when they fail.
import Tcnative.Chain.Parse
import Tcnative.Protocol.Config

/-!
# Installing chains

The three setters around `SSL_CTX_setup_certs` return whether it has counted a
certificate. It changes the `SSL_CTX` while it reads, or before its end-of-file
check, so a call that returns false can leave other lists than it found.
-/

namespace Chain
open Jni Tls
open Protocol (sslModeClient)

variable {X509 α : Type}

/-! ## The setters -/

/-- The content of the files that can be opened. -/
abbrev Files := String → Option (List Item)

/-- A call of a setter. NULL pointers are `none`. -/
inductive Setter where
  | setCACertificateBio (certs : Option (List Item))
  | setCertificateChainBio (chain : Option (List Item)) (skipfirst : Bool)
  | setCertificateChainFile (file : Option String) (skipfirst : Bool)

/-- What a setter throws and returns, with the `SSL_CTX` and the error queue. -/
structure Installed (X509 : Type) where
  thrown : Option Throwable
  ret : Bool
  ctx : SslCtx X509
  queue : ErrorQueue

/-- The context of a call: the build, the decoder, the open files, what succeeds,
and the mode and the chains of the `SSL_CTX`. -/
structure InstallSetting (X509 : Type) where
  lib : Library
  d2i : List Byte → Except BlockError X509
  files : Files
  calls : ChainCalls
  mode : Int
  ctx : SslCtx X509

section
variable (s : InstallSetting X509) (q : ErrorQueue)

/-- `tcn_SSL_CTX_use_certificate_chain_bio`. -/
def tcnSSLCTXUseCertificateChainBio (items : List Item) (skipfirst : Bool) :
    Int × SslCtx X509 × ErrorQueue :=
  sslCtxSetupCerts s.lib s.d2i s.calls s.ctx items skipfirst false q

/-- `tcn_SSL_CTX_use_client_CA_bio`. -/
def tcnSSLCTXUseClientCABio (items : List Item) : Int × SslCtx X509 × ErrorQueue :=
  sslCtxSetupCerts s.lib s.d2i s.calls s.ctx items false true q

/-- `tcn_SSL_CTX_use_certificate_chain`. -/
def tcnSSLCTXUseCertificateChain (file : String) (skipfirst : Bool) :
    Int × SslCtx X509 × ErrorQueue :=
  match s.files file with
  | none => (-1, s.ctx, q)
  | some items => tcnSSLCTXUseCertificateChainBio s q items skipfirst

/-- The return value for a count: whether it is positive. -/
def Installed.ofCount (r : Int × SslCtx X509 × ErrorQueue) : Installed X509 :=
  ⟨none, 0 < r.1, r.2.1, r.2.2⟩

/-- `SSLContext.setCACertificateBio`. -/
def setCACertificateBio (certs : Option (List Item)) : Installed X509 :=
  match certs with
  | none => ⟨none, false, s.ctx, q⟩
  | some items =>
    if s.mode = sslModeClient then ⟨none, false, s.ctx, q⟩
    else .ofCount (tcnSSLCTXUseClientCABio s q items)

/-- `SSLContext.setCertificateChainBio`. -/
def setCertificateChainBio (chain : Option (List Item)) (skipfirst : Bool) : Installed X509 :=
  match s.lib.notSupported with
  | some cause => ⟨some cause, false, s.ctx, q⟩
  | none =>
    match chain with
    | none => ⟨none, false, s.ctx, q⟩
    | some items => .ofCount (tcnSSLCTXUseCertificateChainBio s q items skipfirst)

/-- `SSLContext.setCertificateChainFile`. -/
def setCertificateChainFile (file : Option String) (skipfirst : Bool) : Installed X509 :=
  match s.lib.notSupported with
  | some cause => ⟨some cause, false, s.ctx, q⟩
  | none =>
    match file with
    | none => ⟨none, false, s.ctx, q⟩
    | some file => .ofCount (tcnSSLCTXUseCertificateChain s q file skipfirst)

def Setter.run : Setter → Installed X509
  | .setCACertificateBio certs => Chain.setCACertificateBio s q certs
  | .setCertificateChainBio chain skipfirst => Chain.setCertificateChainBio s q chain skipfirst
  | .setCertificateChainFile file skipfirst => Chain.setCertificateChainFile s q file skipfirst

end

/-- The list that a setter is about. -/
def Setter.list : Setter → SslCtx X509 → List X509
  | .setCACertificateBio _ => SslCtx.clientCAs
  | .setCertificateChainBio _ _ | .setCertificateChainFile _ _ => SslCtx.extraChain

/-- A call that returns false leaves the list as it was. -/
def AllOrNothing (s : InstallSetting X509) (q : ErrorQueue) (k : Setter) : Prop :=
  (k.run s q).ret = false → k.list (k.run s q).ctx = k.list s.ctx

/-! ## The reading loop -/

/-- The values that the loop stores before it stores no more. -/
def storedFrom (add : Nat → Bool) (n : Nat) : List α → List α
  | [] => []
  | a :: as => if add n then a :: storedFrom add (n + 1) as else []

theorem addAll_stored (add : Nat → Bool) (n : Nat) (acc values : List α) :
    (addAll add n acc values).2.2 = acc ++ storedFrom add n values := by
  induction values generalizing n acc with
  | nil => simp [addAll, storedFrom]
  | cons a values ih =>
    unfold addAll storedFrom
    split
    · rw [ih]
      simp
    · simp

theorem AddsAll.stored {add : Nat → Bool} {values : List α} (h : AddsAll add values) :
    storedFrom add 0 values = values := by
  have hall := addAll_stored add 0 [] values
  rw [h.addAll] at hall
  simpa using hall.symm

/-! ## What a setter leaves -/

/-- The certificates that a setter gets to read, if it gets to its loop. -/
def Setter.reads (s : InstallSetting X509) : Setter → Option (Reads X509)
  | .setCACertificateBio certs =>
    if s.mode = sslModeClient then none else certs.map (pemReadBioX509 s.d2i)
  | .setCertificateChainBio chain skipfirst =>
    if s.lib.isBoringSSL then none
    else chain.bind fun items => skipFirst skipfirst (pemReadBioX509 s.d2i items)
  | .setCertificateChainFile file skipfirst =>
    if s.lib.isBoringSSL then none
    else (file.bind s.files).bind fun items => skipFirst skipfirst (pemReadBioX509 s.d2i items)

/-- There is a certificate, all of them are stored, and the oldest error is the
one for the end of the input. -/
def Complete (s : InstallSetting X509) (q : ErrorQueue) (reads : Reads X509) : Prop :=
  AddsAll s.calls.add reads.values ∧ reads.values ≠ [] ∧ foreignError (q ++ [reads.stop]) = none

/-- What the loop stores is in the list already: no client CA is added to the
list, or the list that replaces it is the same. For BoringSSL and AWS-LC the
client CAs are replaced only behind the loop. -/
def Setter.Keeps (s : InstallSetting X509) (reads : Reads X509) : Setter → Prop
  | .setCACertificateBio _ =>
    if s.lib.isBoringSSL then AddsAll s.calls.add reads.values → reads.values = s.ctx.clientCAs
    else storedFrom s.calls.add 0 reads.values = []
  | .setCertificateChainBio _ _ | .setCertificateChainFile _ _ =>
    storedFrom s.calls.add 0 reads.values = s.ctx.extraChain

/-- What a call that reads certificates returns and leaves. -/
structure Installs (s : InstallSetting X509) (q : ErrorQueue) (reads : Reads X509)
    (k : Setter) (r : Int × SslCtx X509 × ErrorQueue) : Prop where
  count : 0 < r.1 ↔ Complete s q reads
  list : k.list r.2.1 = k.list s.ctx ↔ k.Keeps s reads

theorem countOrFail_pos {σ : Type} {n : Nat} (st : σ) (q : ErrorQueue) :
    0 < (countOrFail n st q).1 ↔ n ≠ 0 ∧ foreignError q = none := by
  unfold countOrFail
  cases foreignError q with
  | some err => simp
  | none => simp [Nat.pos_iff_ne_zero]

theorem countOrFail_state {σ : Type} (n : Nat) (st : σ) (q : ErrorQueue) :
    (countOrFail n st q).2.1 = st := by
  unfold countOrFail
  cases foreignError q <;> rfl

section
variable (s : InstallSetting X509) (q : ErrorQueue) (reads : Reads X509)

/-- A loop that stores each certificate in the `SSL_CTX`. -/
theorem storeLoop (acc : List X509) (set : List X509 → SslCtx X509)
    {r : Int × SslCtx X509 × ErrorQueue}
    (hr : r = match addAll s.calls.add 0 acc reads.values with
      | (false, _, l) => (-1, set l, q)
      | (true, n, l) => countOrFail n (set l) (q ++ [reads.stop])) :
    (0 < r.1 ↔ Complete s q reads) ∧
      r.2.1 = set (acc ++ storedFrom s.calls.add 0 reads.values) := by
  subst hr
  by_cases hadd : AddsAll s.calls.add reads.values
  · simp only [hadd.addAll, hadd.stored, countOrFail_state, countOrFail_pos, and_true]
    simp [Complete, hadd, List.length_eq_zero_iff]
  · have hstored := addAll_stored s.calls.add 0 acc reads.values
    obtain ⟨n, l, hloop⟩ := addAll_early hadd acc
    rw [hloop] at hstored
    simp only [hloop]
    refine ⟨iff_of_false (by simp) fun h => hadd h.1, ?_⟩
    rw [← hstored]

/-- A loop that collects the names, and replaces the list of the `SSL_CTX` by
them. -/
theorem collectLoop (set : List X509 → SslCtx X509) {r : Int × SslCtx X509 × ErrorQueue}
    (hr : r = match addAll s.calls.add 0 [] reads.values with
      | (false, _, _) => (-1, s.ctx, q)
      | (true, n, l) => countOrFail n (set l) (q ++ [reads.stop])) :
    (0 < r.1 ↔ Complete s q reads) ∧
      r.2.1 = if AddsAll s.calls.add reads.values then set reads.values else s.ctx := by
  subst hr
  by_cases hadd : AddsAll s.calls.add reads.values
  · simp only [hadd.addAll, countOrFail_state, countOrFail_pos, if_pos hadd, List.nil_append,
      and_true]
    simp [Complete, hadd, List.length_eq_zero_iff]
  · obtain ⟨n, l, hloop⟩ := addAll_early hadd []
    simp only [hloop, if_neg hadd, and_true]
    exact iff_of_false (by simp) fun h => hadd h.1

end

section
variable {s : InstallSetting X509} {q : ErrorQueue} {reads : Reads X509}

theorem tcnSSLCTXUseClientCABio_installs (certs : Option (List Item)) (items : List Item) :
    Installs s q (pemReadBioX509 s.d2i items) (.setCACertificateBio certs)
      (tcnSSLCTXUseClientCABio s q items) := by
  cases hlib : s.lib.isBoringSSL with
  | true =>
    obtain ⟨hcount, hctx⟩ := collectLoop s q (pemReadBioX509 s.d2i items)
      (fun clientCAs => { s.ctx with clientCAs }) (r := tcnSSLCTXUseClientCABio s q items)
      (by simp only [tcnSSLCTXUseClientCABio, sslCtxSetupCerts, skipFirst, hlib]; rfl)
    refine ⟨hcount, ?_⟩
    rw [hctx, Setter.Keeps, if_pos hlib]
    split
    · rename_i hadd
      simp [Setter.list, hadd]
    · rename_i hadd
      exact iff_of_true rfl fun h => absurd h hadd
  | false =>
    obtain ⟨hcount, hctx⟩ := storeLoop s q (pemReadBioX509 s.d2i items) s.ctx.clientCAs
      (fun clientCAs => { s.ctx with clientCAs })
      (r := tcnSSLCTXUseClientCABio s q items)
      (by simp only [tcnSSLCTXUseClientCABio, sslCtxSetupCerts, skipFirst, hlib]; rfl)
    refine ⟨hcount, ?_⟩
    rw [hctx, Setter.Keeps, if_neg (by simp [hlib])]
    exact List.append_right_eq_self

theorem tcnSSLCTXUseCertificateChainBio_installs (hlib : s.lib.isBoringSSL = false)
    {items : List Item} {skipfirst : Bool}
    (hskip : skipFirst skipfirst (pemReadBioX509 s.d2i items) = some reads) (k : Setter)
    (hlist : ∀ ctx : SslCtx X509, k.list ctx = ctx.extraChain)
    (hkeeps : k.Keeps s reads ↔ storedFrom s.calls.add 0 reads.values = s.ctx.extraChain) :
    Installs s q reads k (tcnSSLCTXUseCertificateChainBio s q items skipfirst) := by
  obtain ⟨hcount, hctx⟩ := storeLoop s q reads [] (fun extraChain => { s.ctx with extraChain })
    (r := tcnSSLCTXUseCertificateChainBio s q items skipfirst)
    (by simp only [tcnSSLCTXUseCertificateChainBio, sslCtxSetupCerts, hskip, hlib]; rfl)
  refine ⟨hcount, ?_⟩
  rw [hctx, hlist, hlist, hkeeps]
  exact Iff.rfl

theorem tcnSSLCTXUseCertificateChainBio_empty {items : List Item} {skipfirst : Bool}
    (hskip : skipFirst skipfirst (pemReadBioX509 s.d2i items) = none) :
    ∃ q', tcnSSLCTXUseCertificateChainBio s q items skipfirst = (-1, s.ctx, q') := by
  refine ⟨q ++ [(pemReadBioX509 s.d2i items).stop], ?_⟩
  simp only [tcnSSLCTXUseCertificateChainBio, sslCtxSetupCerts, hskip]

/-! ## All or nothing -/

/-- A call that gets to no loop returns false and changes nothing. -/
theorem Setter.run_early {k : Setter} (h : k.reads s = none) :
    (k.run s q).ret = false ∧ (k.run s q).ctx = s.ctx := by
  have hchain : ∀ {items skipfirst}, skipFirst skipfirst (pemReadBioX509 s.d2i items) = none →
      (Installed.ofCount (tcnSSLCTXUseCertificateChainBio s q items skipfirst)).ret = false ∧
      (Installed.ofCount (tcnSSLCTXUseCertificateChainBio s q items skipfirst)).ctx = s.ctx := by
    intro items skipfirst hskip
    obtain ⟨q', hrun⟩ := tcnSSLCTXUseCertificateChainBio_empty (q := q) hskip
    rw [hrun]
    exact ⟨by simp [Installed.ofCount], rfl⟩
  cases k with
  | setCACertificateBio certs =>
    simp only [Setter.run, Chain.setCACertificateBio]
    cases certs with
    | none => exact ⟨rfl, rfl⟩
    | some items =>
      simp only [Setter.reads] at h
      split at h
      · rename_i hmode
        simp [hmode]
      · cases h
  | setCertificateChainBio chain skipfirst =>
    simp only [Setter.run, Chain.setCertificateChainBio]
    cases hlib : s.lib.notSupported with
    | some cause => exact ⟨rfl, rfl⟩
    | none =>
      cases chain with
      | none => exact ⟨rfl, rfl⟩
      | some items =>
        simp only [Setter.reads, s.lib.notSupported_eq_none.mp hlib, Bool.false_eq_true, if_false,
          Option.bind_some] at h
        exact hchain h
  | setCertificateChainFile file skipfirst =>
    simp only [Setter.run, Chain.setCertificateChainFile]
    cases hlib : s.lib.notSupported with
    | some cause => exact ⟨rfl, rfl⟩
    | none =>
      cases file with
      | none => exact ⟨rfl, rfl⟩
      | some file =>
        simp only [tcnSSLCTXUseCertificateChain]
        cases hfile : s.files file with
        | none => exact ⟨by simp [Installed.ofCount], rfl⟩
        | some items =>
          simp only [Setter.reads, s.lib.notSupported_eq_none.mp hlib, Bool.false_eq_true, if_false,
            Option.bind_some, hfile] at h
          exact hchain h

/-- A call that gets to its loop returns the count of its certificates. -/
theorem Setter.run_installs {k : Setter} (h : k.reads s = some reads) :
    ∃ r, k.run s q = .ofCount r ∧ Installs s q reads k r := by
  cases k with
  | setCACertificateBio certs =>
    simp only [Setter.reads] at h
    split at h
    · cases h
    · rename_i hmode
      obtain ⟨items, rfl, rfl⟩ := Option.map_eq_some_iff.mp h
      refine ⟨_, ?_, tcnSSLCTXUseClientCABio_installs _ items⟩
      simp only [Setter.run, Chain.setCACertificateBio, if_neg hmode]
  | setCertificateChainBio chain skipfirst =>
    simp only [Setter.reads] at h
    split at h
    · cases h
    · rename_i hlib
      obtain ⟨items, rfl, hskip⟩ := Option.bind_eq_some_iff.mp h
      have hlib := Bool.eq_false_iff.mpr hlib
      refine ⟨_, ?_, tcnSSLCTXUseCertificateChainBio_installs hlib hskip _ (fun _ => rfl) Iff.rfl⟩
      simp only [Setter.run, Chain.setCertificateChainBio, s.lib.notSupported_eq_none.mpr hlib]
  | setCertificateChainFile file skipfirst =>
    simp only [Setter.reads] at h
    split at h
    · cases h
    · rename_i hlib
      obtain ⟨items, hfile, hskip⟩ := Option.bind_eq_some_iff.mp h
      obtain ⟨file, rfl, hopen⟩ := Option.bind_eq_some_iff.mp hfile
      have hlib := Bool.eq_false_iff.mpr hlib
      refine ⟨_, ?_, tcnSSLCTXUseCertificateChainBio_installs hlib hskip _ (fun _ => rfl) Iff.rfl⟩
      simp only [Setter.run, Chain.setCertificateChainFile, s.lib.notSupported_eq_none.mpr hlib,
        tcnSSLCTXUseCertificateChain, hopen]

end

/-- A call is all or nothing if and only if it gets to no loop, or it is complete,
or what its loop stores is in the list already. -/
theorem setter_allOrNothing_iff (s : InstallSetting X509) (q : ErrorQueue) (k : Setter) :
    AllOrNothing s q k ↔
      ∀ reads, k.reads s = some reads → Complete s q reads ∨ k.Keeps s reads := by
  cases hreads : k.reads s with
  | none =>
    obtain ⟨-, hctx⟩ := Setter.run_early (q := q) hreads
    refine iff_of_true (fun _ => by rw [hctx]) ?_
    rintro reads ⟨⟩
  | some reads =>
    obtain ⟨r, hrun, hinstalls⟩ := Setter.run_installs (q := q) hreads
    simp only [AllOrNothing, hrun, Option.some.injEq, forall_eq']
    rw [← hinstalls.count, ← hinstalls.list]
    simp only [Installed.ofCount, decide_eq_false_iff_not]
    exact Decidable.imp_iff_not_or.trans (or_congr_left not_not)

/-- A server context with one client CA and one extra certificate, in a build
where everything can be stored. -/
def InstallSetting.server (lib : Library) : InstallSetting (List Byte) where
  lib := lib
  d2i := .ok
  files := fun _ => none
  calls := .succeed
  mode := Protocol.sslModeServer
  ctx := ⟨[[9]], [[9]]⟩

/-- A certificate, and a block that cannot be read. -/
def brokenChain : List Item :=
  [.block ⟨"CERTIFICATE", [1]⟩, .malformed ⟨⟨9, 100⟩, by decide⟩]

/-- The first certificate stays in the list of client CAs, or takes its place, and
the extra chain is replaced by it. -/
theorem setter_partial :
    ¬ AllOrNothing (.server .openssl) [] (.setCACertificateBio (some brokenChain)) ∧
    ¬ AllOrNothing (.server .boringssl) [] (.setCACertificateBio (some brokenChain)) ∧
    ¬ AllOrNothing (.server .openssl) [] (.setCertificateChainBio (some brokenChain) false) := by
  refine ⟨fun h => ?_, fun h => ?_, fun h => ?_⟩
  · exact absurd (h (by decide)) (by decide)
  · exact absurd (h (by decide)) (by decide)
  · exact absurd (h (by decide)) (by decide)

end Chain
