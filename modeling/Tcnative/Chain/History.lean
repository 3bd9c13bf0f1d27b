-- SUMMARY: What the outcome of chain parsing depends on besides its input: the oldest error of the queue.
import Tcnative.Chain.Parse

/-!
# Dependence on history

All three functions clear the error queue behind a chain that they accept, but
not before they read. An error that an earlier call left in the queue is then the
oldest one, and takes the place of the error that the reader stopped with.
-/

namespace Chain
open Jni Tls

variable {X509 : Type}

/-! ## Calls and outcomes -/

/-- The functions that read a chain. `parseX509Chain` stands for a call on a BIO
that is not NULL. -/
inductive Entry where
  | parseX509Chain
  | sslCtxSetupCerts (skipfirst ca : Bool)
  | tcnSSLUseCertificateChainBio (skipfirst : Bool)

/-- What is fixed when two calls are compared: the build, the decoder, what
succeeds, and what the chains are added to. -/
structure Setting (X509 : Type) where
  lib : Library
  supported : Bool
  d2i : List Byte → Except BlockError X509
  calls : ChainCalls
  ctx : SslCtx X509
  chain : List X509

inductive Outcome (X509 : Type) where
  | chain (certs : Stack X509)
  | thrown
  | count (n : Int)
  deriving DecidableEq

/-- The outcome is a chain. -/
def Outcome.Accepted : Outcome X509 → Prop
  | .chain _ => True
  | .thrown => False
  | .count n => n ≠ -1

/-- A chain, or an exception with any text. -/
def Outcome.ofParse : Except Throwable (Stack X509) → Outcome X509
  | .ok certs => .chain certs
  | .error _ => .thrown

def Entry.outcome (s : Setting X509) (items : List Item) (q : ErrorQueue) : Entry → Outcome X509
  | .parseX509Chain =>
    .ofParse (Chain.parseX509Chain s.lib s.d2i s.calls (some items) q).1
  | .sslCtxSetupCerts skipfirst ca =>
    .count (Chain.sslCtxSetupCerts s.lib s.d2i s.calls s.ctx items skipfirst ca q).1
  | .tcnSSLUseCertificateChainBio skipfirst =>
    .count
      (Chain.tcnSSLUseCertificateChainBio s.supported s.d2i s.calls s.chain items skipfirst q).1

/-- The error that the reader of the function stops with. -/
def Entry.stop (s : Setting X509) (items : List Item) : Entry → ErrorCode
  | .parseX509Chain =>
    if s.lib.isBoringSSL then (pemReadBio items).stop else (pemReadBioX509 s.d2i items).stop
  | .sslCtxSetupCerts _ _ | .tcnSSLUseCertificateChainBio _ => (pemReadBioX509 s.d2i items).stop

/-- The call reaches its end-of-file check: the build has what it needs, there is
a certificate to skip, and the others can be stored. -/
def Entry.ReachesCheck (s : Setting X509) (items : List Item) : Entry → Prop
  | .parseX509Chain =>
    if s.lib.isBoringSSL then AddsAll s.calls.add (pemReadBio items).values
    else AddsAll s.calls.add (pemReadBioX509 s.d2i items).values
  | .sslCtxSetupCerts skipfirst ca =>
    (s.lib.isBoringSSL = true → ca = true) ∧
      ∃ reads, skipFirst skipfirst (pemReadBioX509 s.d2i items) = some reads ∧
        AddsAll s.calls.add reads.values
  | .tcnSSLUseCertificateChainBio skipfirst =>
    s.supported = true ∧
      ∃ reads, skipFirst skipfirst (pemReadBioX509 s.d2i items) = some reads ∧
        AddsAll s.calls.add reads.values

/-! ## The end-of-file check -/

/-- The oldest error of an earlier call is another one than for an end of input. -/
def OldestForeign (q : ErrorQueue) : Prop := ∃ err, q.head? = some err ∧ ¬ err.IsNoStartLine

/-- The oldest error of an earlier call is the one for an end of input. -/
def OldestNoStartLine (q : ErrorQueue) : Prop := ∃ err, q.head? = some err ∧ err.IsNoStartLine

theorem foreignError_snoc (q : ErrorQueue) (stop : ErrorCode) :
    (foreignError (q ++ [stop])).isSome = true ↔
      if stop.IsNoStartLine then OldestForeign q else ¬ OldestNoStartLine q := by
  cases q with
  | nil =>
    by_cases hstop : stop.IsNoStartLine <;>
      simp [foreignError, errPeekError, OldestForeign, OldestNoStartLine, hstop]
  | cons err q =>
    by_cases hstop : stop.IsNoStartLine <;> by_cases herr : err.IsNoStartLine <;>
      simp [foreignError, errPeekError, OldestForeign, OldestNoStartLine, hstop, herr]

/-- A call is accepted or rejected by its end-of-file check, with outcomes that do
not depend on the queue. -/
structure Decides (out : ErrorQueue → Outcome X509) (stop : ErrorCode)
    (good bad : Outcome X509) : Prop where
  accepted : good.Accepted
  rejected : ¬ bad.Accepted
  outcome : ∀ q, out q = if (foreignError (q ++ [stop])).isSome then bad else good

theorem skipFirst_stop {α : Type} {skipfirst : Bool} {reads reads' : Reads α}
    (h : skipFirst skipfirst reads = some reads') : reads'.stop = reads.stop := by
  unfold skipFirst at h
  split at h
  · split at h
    · cases h
    · cases h
      rfl
  · cases h
    rfl

theorem countOrFail_eq {σ : Type} (n : Nat) (st : σ) (q : ErrorQueue) :
    (countOrFail n st q).1 = if (foreignError q).isSome then -1 else (n : Int) := by
  unfold countOrFail
  cases foreignError q <;> rfl

/-- A count at the end of the loop is decided by the check. -/
theorem decides_count {out : ErrorQueue → Outcome X509} {stop : ErrorCode} (n : Nat)
    {σ : Type} (st : σ) (h : ∀ q, out q = .count (countOrFail n st (q ++ [stop])).1) :
    Decides out stop (.count n) (.count (-1)) where
  accepted heq := by omega
  rejected h := h rfl
  outcome q := by
    rw [h q, countOrFail_eq]
    split <;> rfl

theorem decides_parse {α : Type} {out : ErrorQueue → Outcome X509} {calls : ChainCalls}
    (reads : Reads α) (stack : List α → Stack X509) (hadd : AddsAll calls.add reads.values)
    (h : ∀ q, out q = .ofParse ((parseReads calls reads q).1.map stack)) :
    Decides out reads.stop (.chain (stack reads.values)) .thrown where
  accepted := trivial
  rejected := id
  outcome q := by
    rw [h q, parseReads_eq hadd]
    cases foreignError (q ++ [reads.stop]) <;> rfl

theorem Entry.outcome_parse_boringssl {s : Setting X509} (hlib : s.lib.isBoringSSL = true)
    (items : List Item) (q : ErrorQueue) :
    Entry.parseX509Chain.outcome s items q =
      .ofParse ((parseReads s.calls ((pemReadBio items).map (·.data)) q).1.map .cryptoBuffer) := by
  simp only [Entry.outcome, Chain.parseX509Chain, hlib, if_true]

theorem Entry.outcome_parse_openssl {s : Setting X509} (hlib : s.lib.isBoringSSL = false)
    (items : List Item) (q : ErrorQueue) :
    Entry.parseX509Chain.outcome s items q =
      .ofParse ((parseReads s.calls (pemReadBioX509 s.d2i items) q).1.map .x509) := by
  simp only [Entry.outcome, Chain.parseX509Chain, hlib, Bool.false_eq_true, if_false]

/-- A call that reaches the check is decided by it. -/
theorem Entry.decides {e : Entry} {s : Setting X509} {items : List Item}
    (h : e.ReachesCheck s items) :
    ∃ good bad, Decides (e.outcome s items) (e.stop s items) good bad := by
  cases e with
  | parseX509Chain =>
    cases hlib : s.lib.isBoringSSL with
    | true =>
      simp only [Entry.ReachesCheck, hlib, if_true] at h
      have hadd : AddsAll s.calls.add ((pemReadBio items).map (·.data)).values := by
        simpa [AddsAll, Reads.map] using h
      have hstop : Entry.parseX509Chain.stop s items = ((pemReadBio items).map (·.data)).stop := by
        simp only [Entry.stop, hlib, if_true]
        rfl
      rw [hstop]
      exact ⟨_, _, decides_parse _ .cryptoBuffer hadd (Entry.outcome_parse_boringssl hlib items)⟩
    | false =>
      simp only [Entry.ReachesCheck, hlib, Bool.false_eq_true, if_false] at h
      simp only [Entry.stop, hlib, Bool.false_eq_true, if_false]
      exact ⟨_, _, decides_parse _ .x509 h (Entry.outcome_parse_openssl hlib items)⟩
  | sslCtxSetupCerts skipfirst ca =>
    obtain ⟨hca, reads, hskip, hadd⟩ := h
    simp only [Entry.stop, ← skipFirst_stop hskip]
    cases ca with
    | true =>
      cases hlib : s.lib.isBoringSSL with
      | true =>
        refine ⟨_, _, decides_count reads.values.length
          { s.ctx with clientCAs := [] ++ reads.values } fun q => ?_⟩
        simp only [Entry.outcome, Chain.sslCtxSetupCerts, hskip, hlib, if_true, hadd.addAll]
      | false =>
        refine ⟨_, _, decides_count reads.values.length
          { s.ctx with clientCAs := s.ctx.clientCAs ++ reads.values } fun q => ?_⟩
        simp only [Entry.outcome, Chain.sslCtxSetupCerts, hskip, hlib, if_true,
          Bool.false_eq_true, if_false, hadd.addAll]
    | false =>
      have hlib : s.lib.isBoringSSL = false := by
        cases hlib : s.lib.isBoringSSL with
        | false => rfl
        | true => cases hca hlib
      refine ⟨_, _, decides_count reads.values.length
        { s.ctx with extraChain := [] ++ reads.values } fun q => ?_⟩
      simp only [Entry.outcome, Chain.sslCtxSetupCerts, hskip, hlib, Bool.false_eq_true, if_false,
        hadd.addAll]
  | tcnSSLUseCertificateChainBio skipfirst =>
    obtain ⟨hsupported, reads, hskip, hadd⟩ := h
    simp only [Entry.stop, ← skipFirst_stop hskip]
    refine ⟨_, _, decides_count reads.values.length (s.chain ++ reads.values)
      fun q => ?_⟩
    simp only [Entry.outcome, Chain.tcnSSLUseCertificateChainBio, hsupported, Bool.not_true,
      Bool.false_eq_true, if_false, hskip, hadd.addAll]

/-- A call that does not reach the check is rejected, whatever is queued. -/
theorem Entry.early {e : Entry} {s : Setting X509} {items : List Item}
    (h : ¬ e.ReachesCheck s items) :
    ∃ bad : Outcome X509, ¬ bad.Accepted ∧ ∀ q, e.outcome s items q = bad := by
  cases e with
  | parseX509Chain =>
    refine ⟨.thrown, id, fun q => ?_⟩
    cases hlib : s.lib.isBoringSSL with
    | true =>
      simp only [Entry.ReachesCheck, hlib, if_true] at h
      have hadd : ¬ AddsAll s.calls.add ((pemReadBio items).map (·.data)).values := by
        simpa [AddsAll, Reads.map] using h
      obtain ⟨n, acc, hloop⟩ := addAll_early hadd []
      rw [Entry.outcome_parse_boringssl hlib]
      simp only [parseReads, hloop]
      rfl
    | false =>
      simp only [Entry.ReachesCheck, hlib, Bool.false_eq_true, if_false] at h
      obtain ⟨n, acc, hloop⟩ := addAll_early h []
      rw [Entry.outcome_parse_openssl hlib]
      simp only [parseReads, hloop]
      rfl
  | sslCtxSetupCerts skipfirst ca =>
    refine ⟨.count (-1), fun hne => hne rfl, fun q => ?_⟩
    simp only [Entry.outcome, Chain.sslCtxSetupCerts]
    cases hskip : skipFirst skipfirst (pemReadBioX509 s.d2i items) with
    | none => rfl
    | some reads =>
      simp only [Entry.ReachesCheck, hskip, Option.some.injEq, exists_eq_left', not_and] at h
      cases hlib : s.lib.isBoringSSL <;> cases ca
      · obtain ⟨n, acc, hloop⟩ := addAll_early (h (by simp [hlib])) []
        simp only [Bool.false_eq_true, if_false, hloop]
      · obtain ⟨n, acc, hloop⟩ := addAll_early (h (by simp)) s.ctx.clientCAs
        simp only [Bool.false_eq_true, if_true, if_false, hloop]
      · simp only [Bool.false_eq_true, if_true, if_false]
      · obtain ⟨n, acc, hloop⟩ := addAll_early (h (by simp)) []
        simp only [if_true, hloop]
  | tcnSSLUseCertificateChainBio skipfirst =>
    refine ⟨.count (-1), fun hne => hne rfl, fun q => ?_⟩
    simp only [Entry.outcome, Chain.tcnSSLUseCertificateChainBio]
    cases hsupported : s.supported with
    | false => rfl
    | true =>
      simp only [Bool.not_true, Bool.false_eq_true, if_false]
      cases hskip : skipFirst skipfirst (pemReadBioX509 s.d2i items) with
      | none => rfl
      | some reads =>
        simp only [Entry.ReachesCheck, hsupported, true_and, hskip, Option.some.injEq,
          exists_eq_left'] at h
        obtain ⟨n, acc, hloop⟩ := addAll_early h s.chain
        simp only [hloop]

/-! ## Two histories -/

/-- Two calls on the same input have the same outcome, and deliver a chain only
where the reader has reached the end of the input. -/
structure HistoryFree (e : Entry) (s : Setting X509) (items : List Item) (q₁ q₂ : ErrorQueue) :
    Prop where
  same : e.outcome s items q₁ = e.outcome s items q₂
  eof₁ : (e.outcome s items q₁).Accepted → (e.stop s items).IsNoStartLine
  eof₂ : (e.outcome s items q₂).Accepted → (e.stop s items).IsNoStartLine

/-- When two histories make no difference to a call that reaches its check. At
the end of the input the oldest errors have to be of one kind, and behind a
malformed block neither may look like an end of input. -/
def Harmless (stop : ErrorCode) (q₁ q₂ : ErrorQueue) : Prop :=
  if stop.IsNoStartLine then OldestForeign q₁ ↔ OldestForeign q₂
  else ¬ OldestNoStartLine q₁ ∧ ¬ OldestNoStartLine q₂

theorem Decides.accepted_iff {out : ErrorQueue → Outcome X509} {stop : ErrorCode}
    {good bad : Outcome X509} (h : Decides out stop good bad) (q : ErrorQueue) :
    (out q).Accepted ↔ ¬ (foreignError (q ++ [stop])).isSome = true := by
  rw [h.outcome q]
  split
  · rename_i hforeign
    exact iff_of_false h.rejected (not_not.mpr hforeign)
  · rename_i hforeign
    exact iff_of_true h.accepted hforeign

theorem Decides.eq_iff {out : ErrorQueue → Outcome X509} {stop : ErrorCode}
    {good bad : Outcome X509} (h : Decides out stop good bad) (q₁ q₂ : ErrorQueue) :
    out q₁ = out q₂ ↔ ((out q₁).Accepted ↔ (out q₂).Accepted) := by
  constructor
  · intro heq
    rw [heq]
  · intro hiff
    simp only [h.accepted_iff] at hiff
    rw [h.outcome q₁, h.outcome q₂]
    by_cases hforeign : (foreignError (q₁ ++ [stop])).isSome = true
    · rw [if_pos hforeign, if_pos (not_not.mp fun hnot => hiff.mpr hnot hforeign)]
    · rw [if_neg hforeign, if_neg (hiff.mp hforeign)]

/-- Two histories make no difference to a call if and only if it does not reach
its end-of-file check, or they are harmless there. -/
theorem chain_historyFree_iff (e : Entry) (s : Setting X509) (items : List Item)
    (q₁ q₂ : ErrorQueue) :
    HistoryFree e s items q₁ q₂ ↔ (e.ReachesCheck s items → Harmless (e.stop s items) q₁ q₂) := by
  by_cases hcheck : e.ReachesCheck s items
  · obtain ⟨good, bad, hdecides⟩ := Entry.decides hcheck
    have haccepted : ∀ q, (e.outcome s items q).Accepted ↔
        ¬ (if (e.stop s items).IsNoStartLine then OldestForeign q else ¬ OldestNoStartLine q) :=
      fun q => by rw [hdecides.accepted_iff, foreignError_snoc]
    simp only [hcheck, true_imp_iff, Harmless]
    by_cases hstop : (e.stop s items).IsNoStartLine
    · simp only [if_pos hstop] at haccepted ⊢
      constructor
      · intro h
        have hsame := (hdecides.eq_iff q₁ q₂).mp h.same
        rw [haccepted, haccepted, not_iff_not] at hsame
        exact hsame
      · intro hiff
        refine ⟨(hdecides.eq_iff q₁ q₂).mpr ?_, fun _ => hstop, fun _ => hstop⟩
        rw [haccepted, haccepted, not_iff_not]
        exact hiff
    · simp only [if_neg hstop, not_not] at haccepted ⊢
      constructor
      · intro h
        exact ⟨fun hq => hstop (h.eof₁ ((haccepted q₁).mpr hq)),
          fun hq => hstop (h.eof₂ ((haccepted q₂).mpr hq))⟩
      · rintro ⟨hq₁, hq₂⟩
        refine ⟨(hdecides.eq_iff q₁ q₂).mpr ?_, fun h => absurd ((haccepted q₁).mp h) hq₁,
          fun h => absurd ((haccepted q₂).mp h) hq₂⟩
        rw [haccepted, haccepted]
        exact iff_of_false hq₁ hq₂
  · obtain ⟨bad, hbad, hearly⟩ := Entry.early hcheck
    refine iff_of_true ⟨?_, ?_, ?_⟩ fun h => absurd h hcheck
    · rw [hearly, hearly]
    · intro h
      exact absurd (hearly q₁ ▸ h) hbad
    · intro h
      exact absurd (hearly q₂ ▸ h) hbad

/-- An OpenSSL build with memory to spare, whose certificates are their encodings. -/
def Setting.plain : Setting (List Byte) :=
  ⟨.openssl, true, .ok, .succeed, ⟨[], []⟩, []⟩

/-- A chain of one certificate is rejected where an earlier call has left an error
behind. -/
theorem chain_rejected :
    ¬ HistoryFree .parseX509Chain .plain [.block ⟨"CERTIFICATE", [1]⟩] [] [⟨20, 193⟩] := by
  intro h
  cases h.same

/-- The first of two certificates is accepted as the whole chain where an earlier
call has left the error of an end of input behind. -/
example : ¬ HistoryFree .parseX509Chain .plain
    [.block ⟨"CERTIFICATE", [1]⟩, .malformed ⟨⟨9, 100⟩, by decide⟩]
    [noStartLine] [noStartLine] := by
  intro h
  exact absurd (h.eof₁ trivial) (by decide)

end Chain
