-- SUMMARY: What a step does to contexts and connections: which ones are new, and what the others stay.
import Tcnative.Lifetime.References

/-!
# Changes of contexts and connections

A successful `SSLContext.make` adds a context with an `SSL_CTX` of its own, and a
successful `SSL.newSSL` a connection to the `SSL_CTX` of its context. Apart from
that, contexts and connections stay what they are, or are freed.
-/

namespace Lifetime
open CMem Jni

/-- No context and no connection is new that lives. The connections keep all but their BIO,
and the one that is freed goes. -/
structure Shrinks (s s' : State) (freed : Option Nat) : Prop where
  sslCtxs : s.sslCtxs.length ≤ s'.sslCtxs.length
  ssls : s.ssls.length ≤ s'.ssls.length
  states : s.states.Extends s'.states
  ctxt : ∀ c v, s'.ctxts.Live c v → s.ctxts.Live c v
  ssl : ∀ i v, s'.ssls.Live i v → ∃ bio, s.ssls.Live i { v with bio }
  lives : ∀ i, 0 < s'.ssls.count i ↔ 0 < s.ssls.count i ∧ freed ≠ some i

/-- The call returned a new context or a new connection. -/
def Event.isNew : Event → Reply → Bool
  | .make _ _ _, .ok (some _) | .newSSL _ _ _, .ok (some _) => true
  | _, _ => false

/-- The connection that a call frees. -/
def Event.freesSsl : Event → Option Nat
  | .freeSSL ssl => ssl
  | _ => none

/-- What a step does to contexts and connections. -/
inductive Changes (s s' : State) : Event → Reply → Prop where
  | made {protocol : BitVec 32} {mode : Int} {calls : MakeCalls} (v : TcnSslCtxt)
      (sslCtxs : s'.sslCtxs.length = s.sslCtxs.length + 1) (own : v.ctx = s.sslCtxs.length)
      (hasMode : v.mode = mode) (ctxts : s'.ctxts = s.ctxts.alloc v) (ssls : s'.ssls = s.ssls)
      (states : s'.states = s.states) :
      Changes s s' (.make protocol mode calls) (.ok (some s.ctxts.length))
  | created {c : Nat} {server : Bool} (v : TcnSslCtxt) (ctxt : s.ctxts.Live c v)
      (sslCtxs : s'.sslCtxs.length = s.sslCtxs.length) (ctxts : s'.ctxts = s.ctxts)
      (ssls : s'.ssls = s.ssls.alloc ⟨v.ctx, some s.states.length, none, server⟩)
      (states : s'.states = s.states.alloc ⟨0, c⟩) :
      Changes s s' (.newSSL (some c) server ⟨true, true⟩) (.ok (some s.ssls.length))
  | shrunk {event : Event} {reply : Reply} (shrinks : Shrinks s s' event.freesSsl)
      (isNew : event.isNew reply = false) : Changes s s' event reply

section
variable {s s' s'' : State} {reply : Reply}

theorem Shrinks.trans (h : Shrinks s s' none) (h' : Shrinks s' s'' none) :
    Shrinks s s'' none where
  sslCtxs := Nat.le_trans h.sslCtxs h'.sslCtxs
  ssls := Nat.le_trans h.ssls h'.ssls
  states := h.states.trans h'.states
  ctxt c v hlive := h.ctxt c v (h'.ctxt c v hlive)
  ssl i v hlive := by
    obtain ⟨bio, hbio⟩ := h'.ssl i v hlive
    obtain ⟨bio', hbio'⟩ := h.ssl i _ hbio
    exact ⟨bio', hbio'⟩
  lives i := by rw [h'.lives, h.lives, and_assoc, and_self]

/-- Neither contexts nor connections are touched. -/
theorem shrinks_of_frame (hsslCtxs : s.sslCtxs.length ≤ s'.sslCtxs.length)
    (hctxts : s'.ctxts = s.ctxts) (hssls : s'.ssls = s.ssls) (hstates : s'.states = s.states) :
    Shrinks s s' none where
  sslCtxs := hsslCtxs
  ssls := by rw [hssls]
  states := hstates ▸ .refl s.states
  ctxt c v hlive := hctxts ▸ hlive
  ssl i v hlive := ⟨v.bio, hssls ▸ hlive⟩
  lives i := by simp [hssls]

theorem shrinks_refl (s : State) : Shrinks s s none := shrinks_of_frame (Nat.le_refl _) rfl rfl rfl

/-- An `SSL` goes, and its state may go too. -/
theorem shrinks_of_free {i : Nat} {v : Ssl} (hlive : s.ssls.Live i v)
    (hsslCtxs : s.sslCtxs.length ≤ s'.sslCtxs.length) (hctxts : s'.ctxts = s.ctxts)
    (hssls : s'.ssls = s.ssls.set i ⟨v, true⟩) (hstates : s.states.Extends s'.states) :
    Shrinks s s' (some i) where
  sslCtxs := hsslCtxs
  ssls := by simp [hssls]
  states := hstates
  ctxt c v hlive := hctxts ▸ hlive
  ssl j w hw := ⟨w.bio, ((Arena.live_iff_set hlive).mp (hssls ▸ hw)).2⟩
  lives j := by
    rw [hssls]
    rcases eq_or_ne j i with rfl | hne
    · simp [Arena.count, hlive.lt]
    · simp [Arena.count_set_of_ne hne, hne.symm]

/-- Positions are not used again. -/
theorem Changes.le {event : Event} (h : Changes s s' event reply) :
    s.sslCtxs.length ≤ s'.sslCtxs.length ∧ s.ssls.length ≤ s'.ssls.length := by
  cases h with
  | made v hsslCtxs hown hmode hctxts hssls hstates => exact ⟨by omega, by rw [hssls]⟩
  | created v hctxt hsslCtxs hctxts hssls hstates =>
    exact ⟨hsslCtxs.ge, by simp [hssls, Arena.alloc]⟩
  | shrunk hs hnew => exact ⟨hs.sslCtxs, hs.ssls⟩

theorem sslCtxFree_frame {ctx : Nat} (hok : s.sslCtxFree ctx = .ok s') :
    s'.sslCtxs.length = s.sslCtxs.length ∧ s'.ctxts = s.ctxts ∧ s'.ssls = s.ssls ∧
      s'.states = s.states := by
  unfold State.sslCtxFree at hok
  split at hok
  · cases hok
  · rename_i sslCtxs hfree
    cases hok
    exact ⟨RefHeap.length_free hfree, rfl, rfl, rfl⟩

/-- The `SSL` goes, and whatever else there is stays. -/
theorem sslFree_shrinks {ssl : Nat} {v : Ssl} (hlive : s.ssls.Live ssl v)
    (hok : s.sslFree ssl = .ok s') :
    s'.sslCtxs.length = s.sslCtxs.length ∧ s'.ctxts = s.ctxts ∧
      s'.ssls = s.ssls.set ssl ⟨v, true⟩ ∧ s'.states = s.states := by
  unfold State.sslFree at hok
  rw [hlive.get_eq] at hok
  simp only at hok
  split at hok
  · cases hok
  rename_i s₁ hbio
  obtain ⟨⟨buffers, datas, bios, rfl⟩, -⟩ := bioFreeOpt_inv hbio
  split at hok
  · cases hok
  rename_i s₂ hctx
  obtain ⟨hlength, hctxts, hssls, hstates⟩ := sslCtxFree_frame hctx
  rw [hssls, hlive.release_eq] at hok
  cases hok
  exact ⟨hlength, hctxts, rfl, hstates⟩

theorem makeCleanup_frame {pool : Option Nat} {ctx : Nat} {t : Throwable}
    (hok : makeCleanup s pool ctx t = .ok (reply, s')) :
    reply = .error t ∧ s'.sslCtxs.length = s.sslCtxs.length ∧
      s.ctxts.releaseOpt pool = .ok s'.ctxts ∧ s'.ssls = s.ssls ∧ s'.states = s.states := by
  unfold makeCleanup at hok
  split at hok
  · cases hok
  rename_i ctxts hrelease
  split at hok
  · cases hok
  rename_i s₁ hctx
  cases hok
  obtain ⟨hlength, hctxts, hssls, hstates⟩ := sslCtxFree_frame hctx
  exact ⟨rfl, hlength, hctxts ▸ hrelease, hssls, hstates⟩

theorem make_changes {b : Build} {protocol : BitVec 32} {mode : Int} {calls : MakeCalls}
    (hok : make b protocol mode calls s = .ok (reply, s')) :
    Changes s s' (.make protocol mode calls) reply := by
  unfold make at hok
  split at hok
  · cases hok
    exact .shrunk (shrinks_refl s) rfl
  · cases hok
    exact .shrunk (shrinks_refl s) rfl
  rename_i c hnew
  split at hok
  · split at hok
    · cases hok
    · cases hok
      exact .shrunk (shrinks_refl s) rfl
  have hgrown : s.sslCtxs.length ≤ (s.sslCtxs.new (c.configure b protocol)).length :=
    (List.sublist_append_left _ _).length_le
  split at hok
  · obtain ⟨rfl, hlength, hctxts, hssls, hstates⟩ := makeCleanup_frame hok
    exact .shrunk (shrinks_of_frame (hgrown.trans hlength.ge) (Except.ok.inj hctxts).symm hssls
      hstates) rfl
  -- A failure behind the allocation of the pool releases it again.
  have hundone : ∀ t, makeCleanup { s with
        sslCtxs := s.sslCtxs.new (c.configure b protocol)
        ctxts := s.ctxts.alloc ⟨protocol, mode, s.sslCtxs.length⟩ } (some s.ctxts.length)
        s.sslCtxs.length t = .ok (reply, s') →
      Changes s s' (.make protocol mode calls) reply := by
    intro t hok
    obtain ⟨rfl, hlength, hctxts, hssls, hstates⟩ := makeCleanup_frame hok
    rw [Arena.releaseOpt, (Arena.live_alloc s.ctxts _).release_eq] at hctxts
    have hsame : Shrinks s { s' with ctxts := s.ctxts } none :=
      shrinks_of_frame (hgrown.trans hlength.ge) rfl hssls hstates
    refine .shrunk { hsame with ctxt := fun i v hlive => ?_ } rfl
    rw [← Except.ok.inj hctxts, Arena.live_iff_set (Arena.live_alloc s.ctxts _)] at hlive
    obtain ⟨hne, hlive⟩ := hlive
    exact (Arena.live_iff_alloc.mp hlive).resolve_right fun h => hne h.1
  dsimp only at hok
  split at hok
  · exact hundone _ hok
  split at hok
  · exact hundone _ hok
  · cases hok
    exact .made _ (by simp [RefHeap.new, State.handOut]) rfl rfl rfl rfl rfl

theorem newSSL_changes {ctx : Option Nat} {server : Bool} {calls : NewSslCalls}
    (hok : newSSL ctx server calls s = .ok (reply, s')) :
    Changes s s' (.newSSL ctx server calls) reply := by
  cases ctx with
  | none =>
    cases hok
    exact .shrunk (shrinks_refl s) rfl
  | some c =>
    obtain ⟨sslNew, malloc⟩ := calls
    simp only [newSSL] at hok
    split at hok
    · cases hok
    rename_i v hget
    cases sslNew with
    | false =>
      cases hok
      exact .shrunk (shrinks_refl s) rfl
    | true =>
      simp only [Bool.not_true, Bool.false_eq_true, if_false] at hok
      split at hok
      · cases hok
      rename_i sslCtxs hup
      have hlength := RefHeap.length_upRef hup
      cases malloc with
      | false =>
        simp only [Bool.not_false, if_true] at hok
        split at hok
        · cases hok
        rename_i s₁ hfree
        cases hok
        have hlive := Arena.live_alloc s.ssls ⟨v.ctx, none, none, false⟩
        obtain ⟨hlength', hctxts, hssls, hstates⟩ :=
          sslFree_shrinks (s := { s with sslCtxs, ssls := s.ssls.alloc _ }) hlive hfree
        have hsame : Shrinks s { s' with ssls := s.ssls } none :=
          shrinks_of_frame (hlength'.trans hlength).ge hctxts rfl hstates
        refine .shrunk { hsame with
          ssls := by simp [hssls, Arena.alloc]
          ssl := fun i w hw => ?_
          lives := fun i => ?_ } rfl
        · rw [hssls, Arena.live_iff_set hlive] at hw
          obtain ⟨hne, hw⟩ := hw
          exact ⟨w.bio, (Arena.live_iff_alloc.mp hw).resolve_right fun h => hne h.1⟩
        · rw [hssls]
          rcases eq_or_ne i s.ssls.length with rfl | hne
          · simp [Arena.count, Arena.alloc, Event.freesSsl]
          · simp [Arena.count_set_of_ne hne, Arena.count_alloc, hne, Event.freesSsl]
      | true =>
        cases hok
        exact .created v (Arena.get_inv hget) hlength rfl
          (Arena.update_alloc s.ssls ⟨v.ctx, none, none, false⟩ fun v =>
            { v with state := some s.states.length, acceptState := server }) rfl

theorem freeContext_changes {ctx : Option Nat} (hok : freeContext ctx s = .ok (reply, s')) :
    Changes s s' (.freeContext ctx) reply := by
  cases ctx with
  | none =>
    cases hok
    exact .shrunk (shrinks_refl s) rfl
  | some c =>
    simp only [freeContext] at hok
    split at hok
    · cases hok
    rename_i v hget
    split at hok
    · cases hok
    rename_i s₁ hctx
    obtain ⟨hlength, hctxts, hssls, hstates⟩ := sslCtxFree_frame hctx
    rw [hctxts, (Arena.get_inv hget).release_eq] at hok
    cases hok
    have hsame : Shrinks s { s₁ with ctxts := s.ctxts } none :=
      shrinks_of_frame hlength.ge rfl hssls hstates
    refine .shrunk { hsame with ctxt := fun i w hlive => ?_ } rfl
    exact ((Arena.live_iff_set (Arena.get_inv hget)).mp hlive).2

theorem freeSSL_changes {ssl : Option Nat} (hok : freeSSL ssl s = .ok (reply, s')) :
    Changes s s' (.freeSSL ssl) reply := by
  cases ssl with
  | none =>
    cases hok
    exact .shrunk (shrinks_refl s) rfl
  | some i =>
    simp only [freeSSL] at hok
    split at hok
    · cases hok
    rename_i v hget
    split at hok
    · cases hok
    rename_i s₁ hstate
    obtain ⟨⟨states, rfl⟩, -⟩ := freeSslState_inv hstate
    have hreleased : s.states.releaseOpt v.state = .ok states := by
      unfold State.freeSslState at hstate
      split at hstate
      · cases hstate
      · cases hstate
        assumption
    split at hok
    · cases hok
    rename_i s₂ hfree
    cases hok
    obtain ⟨hlength, hctxts, hssls, hstates⟩ :=
      sslFree_shrinks (s := { s with states }) (Arena.get_inv hget) hfree
    refine .shrunk (shrinks_of_free (Arena.get_inv hget) hlength.ge hctxts hssls ?_) rfl
    rw [State.takeBack, hstates]
    exact Arena.extends_releaseOpt hreleased

theorem bioFree_shrinks {bio : Nat} (hok : s.bioFree bio = .ok s') : Shrinks s s' none := by
  obtain ⟨⟨buffers, datas, bios, rfl⟩, -⟩ := bioFree_inv hok
  exact shrinks_of_frame (Nat.le_refl _) rfl rfl rfl

theorem sslSetBio_shrinks {ssl bio : Nat} (hok : s.sslSetBio ssl bio = .ok s') : Shrinks s s' none := by
  unfold State.sslSetBio at hok
  split at hok
  · cases hok
  rename_i v hget
  split at hok
  · cases hok
  rename_i s₁ hbio
  obtain ⟨⟨buffers, datas, bios, rfl⟩, -⟩ := bioFreeOpt_inv hbio
  cases hok
  refine { shrinks_refl s with
    ssls := by simp [Arena.update]
    ssl := fun i w hlive => ?_
    lives := by simp }
  obtain ⟨x, hx, rfl⟩ := Arena.live_of_update (a := s.ssls) (j := ssl)
    (f := fun v => { v with bio := some bio }) hlive
  refine ⟨x.bio, ?_⟩
  split <;> exact hx

theorem bioNewByteBuffer_changes {ssl : Option Nat} {size : Int} {bioNew : BioNew} {malloc : Bool}
    (hok : bioNewByteBuffer ssl size bioNew malloc s = .ok (reply, s')) :
    Changes s s' (.bioNewByteBuffer ssl size bioNew malloc) reply := by
  refine .shrunk ?_ rfl
  have hnew : Shrinks s s.bioNew none := shrinks_of_frame (Nat.le_refl _) rfl rfl rfl
  cases ssl with
  | none =>
    cases hok
    exact shrinks_refl s
  | some i =>
    simp only [bioNewByteBuffer] at hok
    split at hok
    · cases hok
      exact shrinks_refl s
    split at hok
    · cases hok
      exact shrinks_refl s
    · cases hok
      exact shrinks_refl s
    split at hok
    · split at hok
      · cases hok
      · rename_i hfree
        cases hok
        exact hnew.trans (bioFree_shrinks hfree)
    · split at hok
      · cases hok
      · rename_i hset
        cases hok
        have hbuffer : Shrinks s (s.bioNew.bufferNew s.datas.length size) none :=
          shrinks_of_frame (Nat.le_refl _) rfl rfl rfl
        exact hbuffer.trans (sslSetBio_shrinks hset)

theorem freeBio_changes {bio : Option Nat} (hok : freeBio bio s = .ok (reply, s')) :
    Changes s s' (.freeBio bio) reply := by
  refine .shrunk ?_ rfl
  cases bio with
  | none =>
    cases hok
    exact shrinks_refl s
  | some i =>
    simp only [freeBio] at hok
    split at hok
    · cases hok
    · rename_i hfree
      cases hok
      exact (bioFree_shrinks hfree).trans (shrinks_of_frame (Nat.le_refl _) rfl rfl rfl)

theorem lifetimeStep_changes {b : Build} {event : Event}
    (hok : lifetimeStep b s event = .ok (reply, s')) : Changes s s' event reply := by
  cases event with
  | make protocol mode calls => exact make_changes hok
  | freeContext ctx => exact freeContext_changes hok
  | newSSL ctx server calls => exact newSSL_changes hok
  | freeSSL ssl => exact freeSSL_changes hok
  | bioNewByteBuffer ssl size bioNew malloc => exact bioNewByteBuffer_changes hok
  | newMemBio bioNew =>
    simp only [lifetimeStep, newMemBio] at hok
    split at hok
    · cases hok
      exact .shrunk (shrinks_refl s) rfl
    · cases hok
      exact .shrunk (shrinks_of_frame (Nat.le_refl _) rfl rfl rfl) rfl
  | freeBio bio => exact freeBio_changes hok
  | useBio _ | useContext _ | useSsl _ | getPeerCertChain _ | callback _ =>
    obtain ⟨-, rfl⟩ := reads_inv hok
    exact .shrunk (shrinks_refl _) rfl

/-! ## The `SSL_CTX` of a context -/

/-- Every context has an `SSL_CTX` of its own. -/
structure OwnsCtx (s : State) : Prop where
  lt : ∀ c v, s.ctxts.Live c v → v.ctx < s.sslCtxs.length
  unique : ∀ c c' v v', s.ctxts.Live c v → s.ctxts.Live c' v' → v.ctx = v'.ctx → c = c'

theorem ownsCtx_start : OwnsCtx .start where
  lt _ _ hlive := by cases hlive
  unique _ _ _ _ hlive := by cases hlive

theorem OwnsCtx.step {event : Event} (h : OwnsCtx s) (hc : Changes s s' event reply) :
    OwnsCtx s' := by
  cases hc with
  | made v hlength hown hmode hctxts hssls hstates =>
    refine ⟨fun c w hw => ?_, fun c c' w w' hw hw' heq => ?_⟩
    · rw [hctxts, Arena.live_iff_alloc] at hw
      rcases hw with hold | ⟨-, rfl⟩
      · have hlt := h.lt c w hold
        omega
      · omega
    · rw [hctxts, Arena.live_iff_alloc] at hw hw'
      rcases hw with hold | ⟨rfl, rfl⟩ <;> rcases hw' with hold' | ⟨rfl, rfl⟩
      · exact h.unique c c' w w' hold hold' heq
      · exact absurd (h.lt c w hold) (by omega)
      · exact absurd (h.lt c' w' hold') (by omega)
      · rfl
  | created v hctxt hlength hctxts hssls hstates =>
    exact ⟨fun c x hx => hlength ▸ h.lt c x (hctxts ▸ hx), fun c c' x x' hx hx' =>
      h.unique c c' x x' (hctxts ▸ hx) (hctxts ▸ hx')⟩
  | shrunk hs hnew =>
    exact ⟨fun c v hlive => Nat.lt_of_lt_of_le (h.lt c v (hs.ctxt c v hlive)) hs.sslCtxs,
      fun c c' v v' hlive hlive' => h.unique c c' v v' (hs.ctxt c v hlive) (hs.ctxt c' v' hlive')⟩

end

end Lifetime
