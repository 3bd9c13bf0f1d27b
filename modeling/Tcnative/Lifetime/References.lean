-- SUMMARY: What the functions for contexts, connections and BIOs do with references, over any run of them.
import Tcnative.Lifetime.Connections

/-!
# References to contexts, connections and BIOs

Every function accounts for what it frees. Each lemma about one says how what is
owed changes: it grows by a reference that is freed, and shrinks by what the freed
memory held.
-/

namespace Lifetime
open CMem Jni Tls
open Custody (Balanced Accounts Moves)

/-- What is owed in a state. -/
abbrev State.owes (s : State) : Ref → Int := Custody.owed s.count s.held

theorem State.owes_eq (s : State) (r : Ref) :
    s.owes r = (s.java.map Handle.ref).count r + (s.ctxts.held TcnSslCtxt.refs).count r +
      (s.ssls.held Ssl.refs).count r + (s.bios.held Bio.refs).count r +
      (s.datas.held TcnBioBytebuffer.refs).count r - s.count r := by
  simp only [State.owes, Custody.owed, State.held, List.count_append]
  omega

/-! ## Memory -/

section
variable {s : State}

theorem sslCtxsFree_owes {i : Nat} {sslCtxs : RefHeap SslCtx}
    (hok : s.sslCtxs.free i = .ok sslCtxs) (r : Ref) :
    State.owes { s with sslCtxs } r = s.owes r + [Ref.sslCtx i].count r := by
  have hcount := (RefHeap.free_inv hok).2
  rw [State.owes_eq, State.owes_eq]
  cases r with
  | sslCtx j =>
    have hj := hcount j
    simp only [State.count, List.count_singleton]
    grind
  | _ => simp [State.count]

theorem sslCtxsUpRef_owes {i : Nat} {sslCtxs : RefHeap SslCtx}
    (hok : s.sslCtxs.upRef i = .ok sslCtxs) (r : Ref) :
    State.owes { s with sslCtxs } r + [Ref.sslCtx i].count r = s.owes r := by
  have hcount := (RefHeap.upRef_inv hok).2
  rw [State.owes_eq, State.owes_eq]
  cases r with
  | sslCtx j =>
    have hj := hcount j
    simp only [State.count, List.count_singleton]
    grind
  | _ => simp [State.count]

theorem sslCtxsNew_owes (v : SslCtx) (r : Ref) :
    State.owes { s with sslCtxs := s.sslCtxs.new v } r + [Ref.sslCtx s.sslCtxs.length].count r =
      s.owes r := by
  rw [State.owes_eq, State.owes_eq]
  cases r with
  | sslCtx j =>
    simp only [State.count, RefHeap.count_new, List.count_singleton]
    grind
  | _ => simp [State.count]

theorem ctxtsAlloc_owes (v : TcnSslCtxt) (r : Ref) :
    State.owes { s with ctxts := s.ctxts.alloc v } r + [Ref.ctxt s.ctxts.length].count r =
      s.owes r + v.refs.count r := by
  rw [State.owes_eq, State.owes_eq]
  cases r with
  | ctxt j =>
    simp only [State.count, Arena.count_alloc, Arena.held_alloc, List.count_append, List.count_singleton]
    grind
  | _ => simp [State.count, Arena.held_alloc, List.count_append]; omega

theorem ctxtsRelease_owes {i : Nat} {v : TcnSslCtxt} {ctxts : Arena TcnSslCtxt}
    (hlive : s.ctxts.Live i v) (hok : s.ctxts.release i = .ok ctxts) (r : Ref) :
    State.owes { s with ctxts } r + v.refs.count r = s.owes r + [Ref.ctxt i].count r := by
  obtain ⟨w, hw, hcount, hheld⟩ := Arena.release_inv (κ := Ref) hok
  cases hw.unique hlive
  have hr := hheld TcnSslCtxt.refs r
  rw [State.owes_eq, State.owes_eq]
  cases r with
  | ctxt j =>
    have hj := hcount j
    simp only [State.count, List.count_singleton]
    grind
  | _ => simp [State.count]; omega

theorem sslsAlloc_owes (v : Ssl) (r : Ref) :
    State.owes { s with ssls := s.ssls.alloc v } r + [Ref.ssl s.ssls.length].count r =
      s.owes r + v.refs.count r := by
  rw [State.owes_eq, State.owes_eq]
  cases r with
  | ssl j =>
    simp only [State.count, Arena.count_alloc, Arena.held_alloc, List.count_append, List.count_singleton]
    grind
  | _ => simp [State.count, Arena.held_alloc, List.count_append]; omega

theorem sslsRelease_owes {i : Nat} {v : Ssl} {ssls : Arena Ssl}
    (hlive : s.ssls.Live i v) (hok : s.ssls.release i = .ok ssls) (r : Ref) :
    State.owes { s with ssls } r + v.refs.count r = s.owes r + [Ref.ssl i].count r := by
  obtain ⟨w, hw, hcount, hheld⟩ := Arena.release_inv (κ := Ref) hok
  cases hw.unique hlive
  have hr := hheld Ssl.refs r
  rw [State.owes_eq, State.owes_eq]
  cases r with
  | ssl j =>
    have hj := hcount j
    simp only [State.count, List.count_singleton]
    grind
  | _ => simp [State.count]; omega

theorem sslsUpdate_owes {i : Nat} {v : Ssl} (hlive : s.ssls.Live i v)
    (f : Ssl → Ssl) (r : Ref) :
    State.owes { s with ssls := s.ssls.update i f } r + v.refs.count r =
      s.owes r + (f v).refs.count r := by
  have hheld := Arena.count_held_update hlive f Ssl.refs r
  rw [State.owes_eq, State.owes_eq]
  cases r with
  | _ => simp [State.count]; omega

theorem statesAlloc_owes (v : TcnSslState) (r : Ref) :
    State.owes { s with states := s.states.alloc v } r + [Ref.state s.states.length].count r =
      s.owes r := by
  rw [State.owes_eq, State.owes_eq]
  cases r with
  | state j =>
    simp only [State.count, Arena.count_alloc, List.count_singleton]
    grind
  | _ => simp [State.count]

theorem statesRelease_owes {i : Nat} {states : Arena TcnSslState}
    (hok : s.states.release i = .ok states) (r : Ref) :
    State.owes { s with states } r = s.owes r + [Ref.state i].count r := by
  obtain ⟨v, -, hcount, -⟩ := Arena.release_inv (κ := Ref) hok
  rw [State.owes_eq, State.owes_eq]
  cases r with
  | state j =>
    have hj := hcount j
    simp only [State.count, List.count_singleton]
    grind
  | _ => simp [State.count]

theorem biosAlloc_owes (v : Bio) (r : Ref) :
    State.owes { s with bios := s.bios.alloc v } r + [Ref.bio s.bios.length].count r =
      s.owes r + v.refs.count r := by
  rw [State.owes_eq, State.owes_eq]
  cases r with
  | bio j =>
    simp only [State.count, Arena.count_alloc, Arena.held_alloc, List.count_append, List.count_singleton]
    grind
  | _ => simp [State.count, Arena.held_alloc, List.count_append]; omega

theorem biosRelease_owes {i : Nat} {v : Bio} {bios : Arena Bio}
    (hlive : s.bios.Live i v) (hok : s.bios.release i = .ok bios) (r : Ref) :
    State.owes { s with bios } r + v.refs.count r = s.owes r + [Ref.bio i].count r := by
  obtain ⟨w, hw, hcount, hheld⟩ := Arena.release_inv (κ := Ref) hok
  cases hw.unique hlive
  have hr := hheld Bio.refs r
  rw [State.owes_eq, State.owes_eq]
  cases r with
  | bio j =>
    have hj := hcount j
    simp only [State.count, List.count_singleton]
    grind
  | _ => simp [State.count]; omega

theorem datasAlloc_owes (v : TcnBioBytebuffer) (r : Ref) :
    State.owes { s with datas := s.datas.alloc v } r + [Ref.data s.datas.length].count r =
      s.owes r + v.refs.count r := by
  rw [State.owes_eq, State.owes_eq]
  cases r with
  | data j =>
    simp only [State.count, Arena.count_alloc, Arena.held_alloc, List.count_append, List.count_singleton]
    grind
  | _ => simp [State.count, Arena.held_alloc, List.count_append]; omega

theorem datasRelease_owes {i : Nat} {v : TcnBioBytebuffer} {datas : Arena TcnBioBytebuffer}
    (hlive : s.datas.Live i v) (hok : s.datas.release i = .ok datas) (r : Ref) :
    State.owes { s with datas } r + v.refs.count r = s.owes r + [Ref.data i].count r := by
  obtain ⟨w, hw, hcount, hheld⟩ := Arena.release_inv (κ := Ref) hok
  cases hw.unique hlive
  have hr := hheld TcnBioBytebuffer.refs r
  rw [State.owes_eq, State.owes_eq]
  cases r with
  | data j =>
    have hj := hcount j
    simp only [State.count, List.count_singleton]
    grind
  | _ => simp [State.count]; omega

theorem datasUpdate_owes {i : Nat} {v : TcnBioBytebuffer} (hlive : s.datas.Live i v)
    (f : TcnBioBytebuffer → TcnBioBytebuffer) (r : Ref) :
    State.owes { s with datas := s.datas.update i f } r + v.refs.count r =
      s.owes r + (f v).refs.count r := by
  have hheld := Arena.count_held_update hlive f TcnBioBytebuffer.refs r
  rw [State.owes_eq, State.owes_eq]
  cases r with
  | _ => simp [State.count]; omega

theorem buffersAlloc_owes (v : Int) (r : Ref) :
    State.owes { s with buffers := s.buffers.alloc v } r + [Ref.buffer s.buffers.length].count r =
      s.owes r := by
  rw [State.owes_eq, State.owes_eq]
  cases r with
  | buffer j =>
    simp only [State.count, Arena.count_alloc, List.count_singleton]
    grind
  | _ => simp [State.count]

theorem buffersRelease_owes {i : Nat} {buffers : Arena Int}
    (hok : s.buffers.release i = .ok buffers) (r : Ref) :
    State.owes { s with buffers } r = s.owes r + [Ref.buffer i].count r := by
  obtain ⟨v, -, hcount, -⟩ := Arena.release_inv (κ := Ref) hok
  rw [State.owes_eq, State.owes_eq]
  cases r with
  | buffer j =>
    have hj := hcount j
    simp only [State.count, List.count_singleton]
    grind
  | _ => simp [State.count]

/-! ## Handles -/

theorem handOut_owes (h : Handle) (r : Ref) :
    (s.handOut h).owes r = s.owes r + [h.ref].count r := by
  rw [State.owes_eq, State.owes_eq, List.count_singleton]
  simp only [State.handOut, List.map_cons, List.count_cons]
  cases r <;> simp only [State.count] <;> omega

theorem takeBack_owes {h : Handle} (hmem : h ∈ s.java) (r : Ref) :
    (s.takeBack h).owes r + [h.ref].count r = s.owes r := by
  have hperm := (List.perm_cons_erase hmem).map Handle.ref
  have hcount := hperm.count_eq r
  rw [State.owes_eq, State.owes_eq, List.count_singleton]
  simp only [List.map_cons, List.count_cons] at hcount
  cases r <;> simp only [State.takeBack, State.count] at hcount ⊢ <;> omega

theorem takeBack_of_not_mem {h : Handle} (hmem : h ∉ s.java) : s.takeBack h = s := by
  rw [State.takeBack, List.erase_of_not_mem hmem]

/-! ## What the library frees -/

variable {s' : State}

theorem sslCtxFree_inv {ctx : Nat} (hok : s.sslCtxFree ctx = .ok s') :
    (∃ sslCtxs, s' = { s with sslCtxs }) ∧
      ∀ r, s'.owes r = s.owes r + [Ref.sslCtx ctx].count r := by
  unfold State.sslCtxFree at hok
  split at hok
  · cases hok
  · rename_i sslCtxs hfree
    cases hok
    exact ⟨⟨sslCtxs, rfl⟩, sslCtxsFree_owes hfree⟩

theorem bufferFree_inv {buffer : Option Nat} (hok : s.bufferFree buffer = .ok s') :
    (∃ buffers, s' = { s with buffers }) ∧
      ∀ r, s'.owes r = s.owes r + (buffer.map Ref.buffer).toList.count r := by
  cases buffer with
  | none =>
    cases hok
    exact ⟨⟨s.buffers, rfl⟩, fun r => by simp⟩
  | some i =>
    simp only [State.bufferFree] at hok
    split at hok
    · cases hok
    · rename_i buffers hrelease
      cases hok
      exact ⟨⟨buffers, rfl⟩, buffersRelease_owes hrelease⟩

theorem bioJavaBytebufferDestroy_inv {data : Option Nat}
    (hok : s.bioJavaBytebufferDestroy data = .ok s') :
    (∃ buffers datas, s' = { s with buffers, datas }) ∧
      ∀ r, s'.owes r = s.owes r + (data.map Ref.data).toList.count r := by
  cases data with
  | none =>
    cases hok
    exact ⟨⟨s.buffers, s.datas, rfl⟩, fun r => by simp⟩
  | some i =>
    simp only [State.bioJavaBytebufferDestroy] at hok
    split at hok
    · cases hok
    rename_i v hget
    split at hok
    · cases hok
    rename_i s₁ hbuffer
    obtain ⟨⟨buffers, rfl⟩, howes₁⟩ := bufferFree_inv hbuffer
    split at hok
    · cases hok
    rename_i datas hrelease
    cases hok
    refine ⟨⟨buffers, datas, rfl⟩, fun r => ?_⟩
    have hbufferOwes := howes₁ r
    have hdataOwes := datasRelease_owes (s := { s with buffers }) (Arena.get_inv hget) hrelease r
    simp only [TcnBioBytebuffer.refs, Option.map_some, Option.toList_some] at hdataOwes ⊢
    omega

theorem bioDestroy_inv {v : Bio} (hok : s.bioDestroy v = .ok s') :
    (∃ buffers datas, s' = { s with buffers, datas }) ∧
      ∀ r, s'.owes r = s.owes r + v.refs.count r := by
  cases v with
  | mem =>
    cases hok
    exact ⟨⟨s.buffers, s.datas, rfl⟩, fun r => by simp [Bio.refs]⟩
  | byteBuffer data =>
    have hdestroy : s.bioJavaBytebufferDestroy data = .ok s' := hok
    obtain ⟨hframe, howes⟩ := bioJavaBytebufferDestroy_inv hdestroy
    refine ⟨hframe, fun r => ?_⟩
    cases data with
    | none => exact howes r
    | some data => exact howes r

theorem bioFree_inv {bio : Nat} (hok : s.bioFree bio = .ok s') :
    (∃ buffers datas bios, s' = { s with buffers, datas, bios }) ∧
      ∀ r, s'.owes r = s.owes r + [Ref.bio bio].count r := by
  unfold State.bioFree at hok
  split at hok
  · cases hok
  rename_i v hget
  split at hok
  · cases hok
  rename_i s₁ hdestroy
  obtain ⟨⟨buffers, datas, rfl⟩, howes₁⟩ := bioDestroy_inv hdestroy
  split at hok
  · cases hok
  rename_i bios hrelease
  cases hok
  refine ⟨⟨buffers, datas, bios, rfl⟩, fun r => ?_⟩
  have hdestroyed := howes₁ r
  have hreleased :=
    biosRelease_owes (s := { s with buffers, datas }) (Arena.get_inv hget) hrelease r
  omega

theorem bioFreeOpt_inv {bio : Option Nat} (hok : s.bioFreeOpt bio = .ok s') :
    (∃ buffers datas bios, s' = { s with buffers, datas, bios }) ∧
      ∀ r, s'.owes r = s.owes r + (bio.map Ref.bio).toList.count r := by
  cases bio with
  | none =>
    cases hok
    exact ⟨⟨s.buffers, s.datas, s.bios, rfl⟩, fun r => by simp⟩
  | some i => exact bioFree_inv hok

/-- The state of a connection is left to the caller. -/
theorem sslFree_inv {ssl : Nat} {v : Ssl} (hlive : s.ssls.Live ssl v)
    (hok : s.sslFree ssl = .ok s') :
    (∃ sslCtxs ssls buffers datas bios, s' = { s with sslCtxs, ssls, buffers, datas, bios }) ∧
      ∀ r, s'.owes r + (v.state.map Ref.state).toList.count r =
        s.owes r + [Ref.ssl ssl].count r := by
  unfold State.sslFree at hok
  rw [hlive.get_eq] at hok
  simp only at hok
  split at hok
  · cases hok
  rename_i s₁ hbio
  obtain ⟨⟨buffers, datas, bios, rfl⟩, howes₁⟩ := bioFreeOpt_inv hbio
  split at hok
  · cases hok
  rename_i s₂ hctx
  obtain ⟨⟨sslCtxs, rfl⟩, howes₂⟩ := sslCtxFree_inv hctx
  split at hok
  · cases hok
  rename_i ssls hrelease
  cases hok
  refine ⟨⟨sslCtxs, ssls, buffers, datas, bios, rfl⟩, fun r => ?_⟩
  have hbioOwes := howes₁ r
  have hctxOwes := howes₂ r
  have hreleased :=
    sslsRelease_owes (s := { s with sslCtxs, buffers, datas, bios }) hlive hrelease r
  simp only [Ssl.refs, List.cons_append, List.count_cons, List.count_append,
    List.count_nil] at hreleased hctxOwes ⊢
  omega

/-- The connection holds the BIO that was in hand. -/
theorem sslSetBio_inv {ssl bio : Nat} (hok : s.sslSetBio ssl bio = .ok s') :
    0 < s.ssls.count ssl ∧ ∀ r, s'.owes r = s.owes r + [Ref.bio bio].count r := by
  unfold State.sslSetBio at hok
  split at hok
  · cases hok
  rename_i v hget
  have hlive := Arena.get_inv hget
  split at hok
  · cases hok
  rename_i s₁ hbio
  obtain ⟨⟨buffers, datas, bios, rfl⟩, howes₁⟩ := bioFreeOpt_inv hbio
  cases hok
  refine ⟨by rw [hlive.count_eq]; exact Nat.one_pos, fun r => ?_⟩
  have hfreed := howes₁ r
  have hset := sslsUpdate_owes (s := { s with buffers, datas, bios }) hlive
    (fun v => { v with bio := some bio }) r
  simp only [Ssl.refs, List.cons_append, List.count_cons, List.count_append, Option.map_some,
    Option.toList_some, List.count_nil] at hset ⊢
  omega

theorem freeSslState_inv {state : Option Nat} (hok : s.freeSslState state = .ok s') :
    (∃ states, s' = { s with states }) ∧
      ∀ r, s'.owes r = s.owes r + (state.map Ref.state).toList.count r := by
  unfold State.freeSslState at hok
  split at hok
  · cases hok
  rename_i states hrelease
  cases hok
  refine ⟨⟨states, rfl⟩, fun r => ?_⟩
  cases state with
  | none =>
    cases hrelease
    simp
  | some i => exact statesRelease_owes hrelease r

/-! ## What the native code does with references -/

variable {reply : Reply}

theorem makeCleanup_noPool_inv {ctx : Nat} {t : Throwable}
    (hok : makeCleanup s none ctx t = .ok (reply, s')) (r : Ref) :
    s'.owes r = s.owes r + [Ref.sslCtx ctx].count r := by
  unfold makeCleanup at hok
  simp only [Arena.releaseOpt] at hok
  split at hok
  · cases hok
  · rename_i s₁ hctx
    cases hok
    exact (sslCtxFree_inv hctx).2 r

theorem makeCleanup_inv {pool : Nat} {v : TcnSslCtxt} {t : Throwable}
    (hlive : s.ctxts.Live pool v)
    (hok : makeCleanup s (some pool) v.ctx t = .ok (reply, s')) (r : Ref) :
    s'.owes r = s.owes r + [Ref.ctxt pool].count r := by
  unfold makeCleanup at hok
  split at hok
  · cases hok
  rename_i ctxts hrelease
  split at hok
  · cases hok
  rename_i s₁ hctx
  cases hok
  have hreleased := ctxtsRelease_owes hlive hrelease r
  have hfreed := (sslCtxFree_inv hctx).2 r
  simp only [TcnSslCtxt.refs] at hreleased
  omega

theorem newSslCtx_boringSSL {b : Build} (hboring : b.library.isBoringSSL = true)
    (protocol : BitVec 32) (mode : Int) : ∃ c, newSslCtx b protocol mode = .ok (some c) := by
  unfold newSslCtx
  rw [if_pos hboring]
  exact ⟨_, rfl⟩

/-- What is given up on a failure is what was created before it. -/
theorem make_moves {b : Build} {protocol : BitVec 32} {mode : Int} {calls : MakeCalls}
    (hok : make b protocol mode calls s = .ok (reply, s')) :
    Moves (Obeys b s (.make protocol mode calls)) s.owes s'.owes := by
  unfold make at hok
  split at hok
  · rename_i t hnew
    cases hok
    refine .of_eq (fun hboring => ?_) fun _ => rfl
    obtain ⟨c, hc⟩ := newSslCtx_boringSSL hboring protocol mode
    cases hnew.symm.trans hc
  · rename_i hnew
    cases hok
    refine .of_eq (fun hboring => ?_) fun _ => rfl
    obtain ⟨c, hc⟩ := newSslCtx_boringSSL hboring protocol mode
    cases hnew.symm.trans hc
  rename_i c hnew
  split at hok
  · split at hok
    · cases hok
    · rename_i hboring
      cases hok
      exact .of_eq (fun h => absurd h hboring) fun _ => rfl
  rename_i hsslCtxNew
  refine .of_eq (fun _ => by simpa using hsslCtxNew) fun r => ?_
  have hctx := sslCtxsNew_owes (s := s) (c.configure b protocol) r
  split at hok
  · have hfreed := makeCleanup_noPool_inv hok r
    omega
  have hpool := ctxtsAlloc_owes (s := { s with sslCtxs := s.sslCtxs.new (c.configure b protocol) })
    ⟨protocol, mode, s.sslCtxs.length⟩ r
  simp only [TcnSslCtxt.refs] at hpool
  have hlive := Arena.live_alloc s.ctxts ⟨protocol, mode, s.sslCtxs.length⟩
  dsimp only at hok hpool
  split at hok
  · have hfreed := makeCleanup_inv (s := { s with
      sslCtxs := s.sslCtxs.new (c.configure b protocol)
      ctxts := s.ctxts.alloc ⟨protocol, mode, s.sslCtxs.length⟩ }) hlive hok r
    omega
  split at hok
  · have hfreed := makeCleanup_inv (s := { s with
      sslCtxs := s.sslCtxs.new (c.configure b protocol)
      ctxts := s.ctxts.alloc ⟨protocol, mode, s.sslCtxs.length⟩ }) hlive hok r
    omega
  · cases hok
    have hgot := handOut_owes (s := { s with
      sslCtxs := s.sslCtxs.new (c.configure b protocol)
      ctxts := s.ctxts.alloc ⟨protocol, mode, s.sslCtxs.length⟩ }) (.ctxt s.ctxts.length) r
    simp only [Handle.ref] at hgot
    omega

/-- A handle that Java gives back. What is owed does not change if Java has it, and
grows if it has not. -/
theorem takeBack_moves {h : Handle} {owes : Ref → Int}
    (howes : ∀ r, s.owes r = owes r + [h.ref].count r) :
    Moves (h ∈ s.java) owes (s.takeBack h).owes := by
  refine ⟨fun hmem r => ?_, fun r => ?_, fun hmem => ⟨h.ref, ?_⟩⟩
  · have hback := takeBack_owes hmem r
    have hfreed := howes r
    omega
  · by_cases hmem : h ∈ s.java
    · have hback := takeBack_owes hmem r
      have hfreed := howes r
      omega
    · have hfreed := howes r
      rw [takeBack_of_not_mem hmem]
      omega
  · have hfreed := howes h.ref
    rw [takeBack_of_not_mem hmem, hfreed, List.count_singleton_self]
    omega

theorem freeContext_moves {b : Build} {ctx : Option Nat}
    (hok : freeContext ctx s = .ok (reply, s')) :
    Moves (Obeys b s (.freeContext ctx)) s.owes s'.owes := by
  cases ctx with
  | none =>
    cases hok
    exact .of_eq (by simp [Obeys]) fun _ => rfl
  | some c =>
    simp only [freeContext] at hok
    split at hok
    · cases hok
    rename_i v hget
    split at hok
    · cases hok
    rename_i s₁ hctx
    obtain ⟨⟨sslCtxs, rfl⟩, hfreed⟩ := sslCtxFree_inv hctx
    split at hok
    · cases hok
    rename_i ctxts hrelease
    cases hok
    refine (takeBack_moves fun r => ?_).congr (by simp [Obeys])
    have hreleased :=
      ctxtsRelease_owes (s := { s with sslCtxs }) (Arena.get_inv hget) hrelease r
    have hctxOwes := hfreed r
    simp only [TcnSslCtxt.refs, Handle.ref] at hreleased ⊢
    omega

theorem newSSL_moves {b : Build} {ctx : Option Nat} {server : Bool} {calls : NewSslCalls}
    (hok : newSSL ctx server calls s = .ok (reply, s')) :
    Moves (Obeys b s (.newSSL ctx server calls)) s.owes s'.owes := by
  cases ctx with
  | none =>
    cases hok
    exact .of_eq (by simp [Obeys]) fun _ => rfl
  | some c =>
    simp only [newSSL] at hok
    split at hok
    · cases hok
    rename_i v hget
    have hobeys : Obeys b s (.newSSL (some c) server calls) := by
      simp [Obeys, (Arena.get_inv hget).count_eq]
    split at hok
    · cases hok
      exact .of_eq hobeys fun _ => rfl
    split at hok
    · cases hok
    rename_i sslCtxs hup
    refine .of_eq hobeys fun r => ?_
    have hupOwes := sslCtxsUpRef_owes hup r
    have hnew := sslsAlloc_owes (s := { s with sslCtxs }) ⟨v.ctx, none, none, false⟩ r
    have hlive := Arena.live_alloc s.ssls ⟨v.ctx, none, none, false⟩
    simp only [Ssl.refs, Option.map_none, Option.toList_none, List.append_nil] at hnew
    split at hok
    · split at hok
      · cases hok
      rename_i s₁ hfree
      cases hok
      have hfreed := (sslFree_inv (s := { s with sslCtxs, ssls := s.ssls.alloc _ }) hlive hfree).2 r
      simp only [Option.map_none, Option.toList_none, List.count_nil] at hfreed
      omega
    · cases hok
      have hstate := statesAlloc_owes
        (s := { s with sslCtxs, ssls := s.ssls.alloc ⟨v.ctx, none, none, false⟩ }) ⟨0, c⟩ r
      have hset := sslsUpdate_owes (s := { s with
        sslCtxs
        ssls := s.ssls.alloc ⟨v.ctx, none, none, false⟩
        states := s.states.alloc ⟨0, c⟩ }) hlive
        (fun v => { v with state := some s.states.length, acceptState := server }) r
      have hgot := handOut_owes (s := { s with
        sslCtxs
        states := s.states.alloc ⟨0, c⟩
        ssls := (s.ssls.alloc ⟨v.ctx, none, none, false⟩).update s.ssls.length fun v =>
          { v with state := some s.states.length, acceptState := server } }) (.ssl s.ssls.length) r
      simp only [Ssl.refs, Option.map_none, Option.toList_none, List.append_nil, Option.map_some,
        Option.toList_some, List.count_cons, List.count_nil,
        Handle.ref] at hset hgot hnew hstate hupOwes ⊢
      omega

theorem freeSSL_moves {b : Build} {ssl : Option Nat} (hok : freeSSL ssl s = .ok (reply, s')) :
    Moves (Obeys b s (.freeSSL ssl)) s.owes s'.owes := by
  cases ssl with
  | none =>
    cases hok
    exact .of_eq (by simp [Obeys]) fun _ => rfl
  | some i =>
    simp only [freeSSL] at hok
    split at hok
    · cases hok
    rename_i v hget
    have hlive := Arena.get_inv hget
    split at hok
    · cases hok
    rename_i s₁ hstate
    obtain ⟨⟨states, rfl⟩, hfreedState⟩ := freeSslState_inv hstate
    split at hok
    · cases hok
    rename_i s₂ hfree
    cases hok
    obtain ⟨⟨sslCtxs, ssls, buffers, datas, bios, rfl⟩, hfreed⟩ :=
      sslFree_inv (s := { s with states }) hlive hfree
    refine (takeBack_moves fun r => ?_).congr (by simp [Obeys])
    have hstateOwes := hfreedState r
    have hsslOwes := hfreed r
    dsimp only [Handle.ref] at hsslOwes ⊢
    omega

theorem bioNew_owes (r : Ref) : s.bioNew.owes r + [Ref.bio s.bios.length].count r = s.owes r := by
  have hdata := datasAlloc_owes (s := s) ⟨none, 0⟩ r
  have hbio := biosAlloc_owes (s := { s with datas := s.datas.alloc ⟨none, 0⟩ })
    (.byteBuffer (some s.datas.length)) r
  simp only [TcnBioBytebuffer.refs, Bio.refs, Option.map_none, Option.toList_none,
    List.count_nil] at hdata hbio
  rw [State.bioNew]
  omega

theorem bufferNew_owes {data : Nat} (hlive : s.datas.Live data ⟨none, 0⟩) (size : Int) (r : Ref) :
    (s.bufferNew data size).owes r = s.owes r := by
  have hbuffer := buffersAlloc_owes (s := s) size r
  have hfilled := datasUpdate_owes (s := { s with buffers := s.buffers.alloc size }) hlive
    (fun _ => ⟨some s.buffers.length, size⟩) r
  simp only [TcnBioBytebuffer.refs, Option.map_none, Option.toList_none, Option.map_some,
    Option.toList_some, List.count_nil] at hfilled
  rw [State.bufferNew]
  omega

/-- A new BIO with its buffer is in hand. -/
theorem bufferNew_bioNew_owes (size : Int) (r : Ref) :
    (s.bioNew.bufferNew s.datas.length size).owes r + [Ref.bio s.bios.length].count r =
      s.owes r := by
  rw [bufferNew_owes (s := s.bioNew) (Arena.live_alloc s.datas ⟨none, 0⟩)]
  exact bioNew_owes r

theorem bioNewByteBuffer_moves {b : Build} {ssl : Option Nat} {size : Int} {bioNew : BioNew}
    {malloc : Bool} (hok : bioNewByteBuffer ssl size bioNew malloc s = .ok (reply, s')) :
    Moves (Obeys b s (.bioNewByteBuffer ssl size bioNew malloc)) s.owes s'.owes := by
  cases ssl with
  | none =>
    cases hok
    exact .of_eq (by simp [Obeys]) fun _ => rfl
  | some i =>
    simp only [bioNewByteBuffer] at hok
    split at hok
    · rename_i hsize
      cases hok
      exact .of_eq (fun h => absurd hsize (Int.not_le.mpr h)) fun _ => rfl
    split at hok
    · cases hok
      exact .of_eq (fun _ => nofun) fun _ => rfl
    · cases hok
      exact .of_eq (fun _ => nofun) fun _ => rfl
    split at hok
    · rename_i hmalloc
      split at hok
      · cases hok
      rename_i s₁ hfree
      cases hok
      refine .of_eq (fun _ _ h => ?_) fun r => ?_
      · simp [h] at hmalloc
      · have hfreed := (bioFree_inv hfree).2 r
        have hnew := bioNew_owes (s := s) r
        omega
    · split at hok
      · cases hok
      rename_i s₁ hset
      cases hok
      obtain ⟨hssl, hsetOwes⟩ := sslSetBio_inv hset
      refine .of_eq (fun _ _ _ j hj => ?_) fun r => ?_
      · cases hj
        exact hssl
      have hheld := hsetOwes r
      have hnew := bufferNew_bioNew_owes (s := s) size r
      omega

theorem newMemBio_moves {b : Build} {bioNew : Bool} (hok : newMemBio bioNew s = .ok (reply, s')) :
    Moves (Obeys b s (.newMemBio bioNew)) s.owes s'.owes := by
  unfold newMemBio at hok
  split at hok
  · cases hok
    exact .of_eq trivial fun _ => rfl
  · cases hok
    refine .of_eq trivial fun r => ?_
    have hbio := biosAlloc_owes (s := s) .mem r
    have hgot := handOut_owes (s := { s with bios := s.bios.alloc .mem }) (.bio s.bios.length) r
    simp only [Bio.refs, List.count_nil, Handle.ref] at hbio hgot ⊢
    omega

theorem freeBio_moves {b : Build} {bio : Option Nat} (hok : freeBio bio s = .ok (reply, s')) :
    Moves (Obeys b s (.freeBio bio)) s.owes s'.owes := by
  cases bio with
  | none =>
    cases hok
    exact .of_eq (by simp [Obeys]) fun _ => rfl
  | some i =>
    simp only [freeBio] at hok
    split at hok
    · cases hok
    rename_i s₁ hfree
    cases hok
    obtain ⟨⟨buffers, datas, bios, rfl⟩, hfreed⟩ := bioFree_inv hfree
    exact (takeBack_moves hfreed).congr (by simp [Obeys])

/-! ## Uses -/

theorem reads_inv {use : Except Fault Unit} (hok : reads use s = .ok (reply, s')) :
    use = .ok () ∧ s' = s := by
  cases use with
  | error fault => cases hok
  | ok u =>
    cases hok
    exact ⟨rfl, rfl⟩

theorem useBio_inv {bio : Nat} (hok : useBio bio s = .ok ()) : s.isByteBuffer bio = true := by
  unfold useBio at hok
  split at hok
  · cases hok
  · cases hok
  · rename_i hget
    simp [State.isByteBuffer, show s.bios[bio]? = _ from Arena.get_inv hget]

theorem useContext_inv {ctx : Nat} (hok : useContext ctx s = .ok ()) : 0 < s.ctxts.count ctx := by
  unfold useContext at hok
  split at hok
  · cases hok
  · rename_i v hget
    rw [(Arena.get_inv hget).count_eq]
    exact Nat.one_pos

theorem useSsl_inv {ssl : Nat} (hok : useSsl ssl s = .ok ()) : 0 < s.ssls.count ssl := by
  unfold useSsl at hok
  split at hok
  · cases hok
  · rename_i v hget
    rw [(Arena.get_inv hget).count_eq]
    exact Nat.one_pos

theorem contextOf_eq {ssl : Nat} {v : Ssl} (hlive : s.ssls.Live ssl v) :
    s.contextOf ssl = v.state.bind fun state => s.states[state]?.map fun c => c.value.ctx := by
  simp only [State.contextOf, show s.ssls[ssl]? = _ from hlive]

/-- A connection that is not freed has the context that it was created with. -/
theorem tcnGetSslCtx_inv {ssl : Nat} {c : Option Nat} (hok : tcnGetSslCtx ssl s = .ok c) :
    0 < s.ssls.count ssl ∧ s.contextOf ssl = c := by
  unfold tcnGetSslCtx at hok
  split at hok
  · cases hok
  rename_i v hget
  have hlive := Arena.get_inv hget
  refine ⟨by rw [hlive.count_eq]; exact Nat.one_pos, ?_⟩
  rw [contextOf_eq hlive]
  split at hok
  · rename_i hstate
    cases hok
    simp [hstate]
  rename_i state hstate
  split at hok
  · cases hok
  rename_i w hgetState
  cases hok
  simp [hstate, show s.states[state]? = _ from Arena.get_inv hgetState]

theorem callback_inv {ssl : Nat} (hok : callback ssl s = .ok ()) :
    0 < s.ssls.count ssl ∧ ∀ c ∈ s.contextOf ssl, 0 < s.ctxts.count c := by
  unfold callback at hok
  split at hok
  · cases hok
  · rename_i hctx
    obtain ⟨hpos, hnone⟩ := tcnGetSslCtx_inv hctx
    exact ⟨hpos, by simp [hnone]⟩
  · rename_i c hctx
    obtain ⟨hpos, hsome⟩ := tcnGetSslCtx_inv hctx
    split at hok
    · cases hok
    · rename_i hgetCtxt
      exact ⟨hpos, by simp [hsome, (Arena.get_inv hgetCtxt).count_eq]⟩

theorem getPeerCertChain_inv {b : Build} {ssl : Nat} (hok : getPeerCertChain b ssl s = .ok ()) :
    Obeys b s (.getPeerCertChain ssl) := by
  unfold getPeerCertChain at hok
  split at hok
  · split at hok
    · cases hok
    · cases hok
    · rename_i c hctx
      obtain ⟨hpos, hsome⟩ := tcnGetSslCtx_inv hctx
      split at hok
      · cases hok
      · rename_i hgetCtxt
        exact ⟨hpos, fun _ => ⟨c, hsome, by simp [(Arena.get_inv hgetCtxt).count_eq]⟩⟩
  · rename_i hlib
    split at hok
    · cases hok
    · rename_i v hget
      exact ⟨by simp [(Arena.get_inv hget).count_eq], fun h => absurd h hlib⟩

theorem lifetimeStep_moves {b : Build} {event : Event}
    (hok : lifetimeStep b s event = .ok (reply, s')) :
    Moves (Obeys b s event) s.owes s'.owes := by
  cases event with
  | make protocol mode calls => exact make_moves hok
  | freeContext ctx => exact freeContext_moves hok
  | newSSL ctx server calls => exact newSSL_moves hok
  | freeSSL ssl => exact freeSSL_moves hok
  | bioNewByteBuffer ssl size bioNew malloc => exact bioNewByteBuffer_moves hok
  | newMemBio bioNew => exact newMemBio_moves hok
  | freeBio bio => exact freeBio_moves hok
  | useBio bio =>
    obtain ⟨huse, rfl⟩ := reads_inv hok
    exact .of_eq (useBio_inv huse) fun _ => rfl
  | useContext ctx =>
    obtain ⟨huse, rfl⟩ := reads_inv hok
    exact .of_eq (useContext_inv huse) fun _ => rfl
  | useSsl ssl =>
    obtain ⟨huse, rfl⟩ := reads_inv hok
    exact .of_eq (useSsl_inv huse) fun _ => rfl
  | getPeerCertChain ssl =>
    obtain ⟨huse, rfl⟩ := reads_inv hok
    exact .of_eq (getPeerCertChain_inv huse) fun _ => rfl
  | callback ssl =>
    obtain ⟨huse, rfl⟩ := reads_inv hok
    exact .of_eq (callback_inv huse) fun _ => rfl

/-! ## Steps that obey the rules -/

/-- Whatever is held is there, up to the states of connections, which are freed
first. -/
def State.Sound (s : State) : Prop := ∀ r ∈ s.held, (∀ i, r ≠ .state i) → 0 < s.count r

theorem sound_of_owes (h : ∀ r, s.owes r ≤ 0) : s.Sound := by
  intro r hr _
  have hpos := List.count_pos_iff.mpr hr
  have howes := h r
  simp only [Custody.owed] at howes
  omega

theorem sound_of_balanced (hs : Balanced s.count s.held) : s.Sound :=
  sound_of_owes fun r => Int.le_of_eq (Custody.balanced_iff.mp hs r)

theorem State.Sound.java (hs : s.Sound) {h : Handle} (hmem : h ∈ s.java) : 0 < s.count h.ref := by
  refine hs h.ref ?_ (by cases h <;> simp [Handle.ref])
  simp only [State.held, List.mem_append, List.mem_map]
  exact .inl (.inl (.inl (.inl ⟨h, hmem, rfl⟩)))

theorem State.Sound.ctxt (hs : s.Sound) {c : Nat} {v : TcnSslCtxt} (hlive : s.ctxts.Live c v) :
    0 < s.sslCtxs.count v.ctx := by
  refine hs (.sslCtx v.ctx) ?_ nofun
  simp only [State.held, List.mem_append]
  exact .inl (.inl (.inl (.inr (hlive.mem_held (by simp [TcnSslCtxt.refs])))))

theorem mem_held_of_ssl {i : Nat} {v : Ssl} (hlive : s.ssls.Live i v) {r : Ref}
    (hr : r ∈ v.refs) : r ∈ s.held := by
  simp only [State.held, List.mem_append]
  exact .inl (.inl (.inr (hlive.mem_held hr)))

theorem State.Sound.sslCtx (hs : s.Sound) {i : Nat} {v : Ssl} (hlive : s.ssls.Live i v) :
    0 < s.sslCtxs.count v.ctx :=
  hs (.sslCtx v.ctx) (mem_held_of_ssl hlive (by simp [Ssl.refs])) nofun

theorem State.Sound.sslBio (hs : s.Sound) {i bio : Nat} {v : Ssl} (hlive : s.ssls.Live i v)
    (hbio : v.bio = some bio) : 0 < s.bios.count bio :=
  hs (.bio bio) (mem_held_of_ssl hlive (by simp [Ssl.refs, hbio])) nofun

/-- The state of a connection is there too, as long as nothing is freed. -/
theorem state_pos (hs : Balanced s.count s.held) {i state : Nat} {v : Ssl}
    (hlive : s.ssls.Live i v) (hstate : v.state = some state) : 0 < s.states.count state :=
  show 0 < s.count (.state state) from
    hs.pos (mem_held_of_ssl hlive (by simp [Ssl.refs, hstate]))

theorem State.Sound.of_states (hs : s.Sound) (states : Arena TcnSslState) :
    State.Sound { s with states } := by
  intro r hr hne
  have hpos := hs r hr hne
  cases r with
  | state i => exact absurd rfl (hne i)
  | _ => exact hpos

theorem State.Sound.bio (hs : s.Sound) {i d : Nat} (hlive : s.bios.Live i (.byteBuffer (some d))) :
    0 < s.datas.count d := by
  refine hs (.data d) ?_ nofun
  simp only [State.held, List.mem_append]
  exact .inl (.inr (hlive.mem_held (by simp [Bio.refs])))

theorem State.Sound.data (hs : s.Sound) {d i : Nat} {v : TcnBioBytebuffer}
    (hlive : s.datas.Live d v) (hi : i ∈ v.nonApplicationBuffer) : 0 < s.buffers.count i := by
  refine hs (.buffer i) ?_ nofun
  simp only [State.held, List.mem_append]
  exact .inr (hlive.mem_held (by simpa [TcnBioBytebuffer.refs] using hi))

theorem sslCtxFree_ok {ctx : Nat} (hpos : 0 < s.sslCtxs.count ctx) :
    ∃ s', s.sslCtxFree ctx = .ok s' := by
  obtain ⟨sslCtxs, hfree⟩ := RefHeap.free_ok hpos
  exact ⟨{ s with sslCtxs }, by simp only [State.sslCtxFree, hfree]⟩

theorem bufferFree_ok {buffer : Option Nat} (hpos : ∀ i ∈ buffer, 0 < s.buffers.count i) :
    ∃ s', s.bufferFree buffer = .ok s' := by
  cases buffer with
  | none => exact ⟨s, rfl⟩
  | some i =>
    obtain ⟨v, hlive⟩ := Arena.live_of_count_pos (hpos i rfl)
    exact ⟨{ s with buffers := s.buffers.set i ⟨v, true⟩ },
      by simp only [State.bufferFree, hlive.release_eq]⟩

theorem bioDestroy_ok (hs : s.Sound) {bio : Nat} {v : Bio} (hlive : s.bios.Live bio v) :
    ∃ s', s.bioDestroy v = .ok s' := by
  cases v with
  | mem => exact ⟨s, rfl⟩
  | byteBuffer data =>
    cases data with
    | none => exact ⟨s, rfl⟩
    | some d =>
      obtain ⟨w, hdata⟩ := Arena.live_of_count_pos (hs.bio hlive)
      obtain ⟨s₁, hbuffer⟩ := bufferFree_ok fun i => hs.data hdata
      obtain ⟨⟨buffers, rfl⟩, -⟩ := bufferFree_inv hbuffer
      exact ⟨{ s with buffers, datas := s.datas.set d ⟨w, true⟩ }, by
        simp only [State.bioDestroy, State.bioJavaBytebufferDestroy, hdata.get_eq, hbuffer,
          hdata.release_eq]⟩

theorem bioFree_ok (hs : s.Sound) {bio : Nat} (hpos : 0 < s.bios.count bio) :
    ∃ s', s.bioFree bio = .ok s' := by
  obtain ⟨v, hlive⟩ := Arena.live_of_count_pos hpos
  obtain ⟨s₁, hdestroy⟩ := bioDestroy_ok hs hlive
  obtain ⟨⟨buffers, datas, rfl⟩, -⟩ := bioDestroy_inv hdestroy
  exact ⟨{ s with buffers, datas, bios := s.bios.set bio ⟨v, true⟩ },
    by simp only [State.bioFree, hlive.get_eq, hdestroy, hlive.release_eq]⟩

theorem bioFreeOpt_ok (hs : s.Sound) {ssl : Nat} {v : Ssl} (hlive : s.ssls.Live ssl v) :
    ∃ s', s.bioFreeOpt v.bio = .ok s' := by
  cases hbio : v.bio with
  | none => exact ⟨s, rfl⟩
  | some bio => exact bioFree_ok hs (hs.sslBio hlive hbio)

theorem sslFree_ok (hs : s.Sound) {ssl : Nat} {v : Ssl} (hlive : s.ssls.Live ssl v) :
    ∃ s', s.sslFree ssl = .ok s' := by
  obtain ⟨s₁, hbio⟩ := bioFreeOpt_ok hs hlive
  obtain ⟨⟨buffers, datas, bios, rfl⟩, -⟩ := bioFreeOpt_inv hbio
  obtain ⟨s₂, hctx⟩ := sslCtxFree_ok (s := { s with buffers, datas, bios }) (hs.sslCtx hlive)
  obtain ⟨⟨sslCtxs, rfl⟩, -⟩ := sslCtxFree_inv hctx
  exact ⟨{ s with sslCtxs, buffers, datas, bios, ssls := s.ssls.set ssl ⟨v, true⟩ },
    by simp only [State.sslFree, hlive.get_eq, hbio, hctx, hlive.release_eq]⟩

theorem makeCleanup_noPool_ok {ctx : Nat} (hpos : 0 < s.sslCtxs.count ctx) (t : Throwable) :
    ∃ reply s', makeCleanup s none ctx t = .ok (reply, s') := by
  obtain ⟨s₁, hfree⟩ := sslCtxFree_ok hpos
  exact ⟨.error t, s₁, by simp only [makeCleanup, Arena.releaseOpt, hfree]⟩

theorem makeCleanup_ok {pool ctx : Nat} {v : TcnSslCtxt} (hlive : s.ctxts.Live pool v)
    (hpos : 0 < s.sslCtxs.count ctx) (t : Throwable) :
    ∃ reply s', makeCleanup s (some pool) ctx t = .ok (reply, s') := by
  obtain ⟨s₁, hfree⟩ := sslCtxFree_ok (s := { s with ctxts := s.ctxts.set pool ⟨v, true⟩ }) hpos
  exact ⟨.error t, s₁, by simp only [makeCleanup, Arena.releaseOpt, hlive.release_eq, hfree]⟩

theorem make_ok {b : Build} {protocol : BitVec 32} {mode : Int} {calls : MakeCalls}
    (hobeys : Obeys b s (.make protocol mode calls)) :
    ∃ reply s', make b protocol mode calls s = .ok (reply, s') := by
  unfold make
  split
  · exact ⟨_, _, rfl⟩
  · exact ⟨_, _, rfl⟩
  rename_i c hnew
  split
  · rename_i hsslCtxNew
    split
    · rename_i hboring
      simp [hobeys hboring] at hsslCtxNew
    · exact ⟨_, _, rfl⟩
  have hpos : 0 < (s.sslCtxs.new (c.configure b protocol)).count s.sslCtxs.length := by
    rw [RefHeap.count_new, if_pos rfl]
    exact Nat.succ_pos _
  have hlive := Arena.live_alloc s.ctxts ⟨protocol, mode, s.sslCtxs.length⟩
  split
  · exact makeCleanup_noPool_ok hpos _
  split
  · exact makeCleanup_ok hlive hpos _
  split
  · exact makeCleanup_ok hlive hpos _
  · exact ⟨_, _, rfl⟩

theorem freeContext_ok (hs : s.Sound) {b : Build} {ctx : Option Nat}
    (hobeys : Obeys b s (.freeContext ctx)) : ∃ reply s', freeContext ctx s = .ok (reply, s') := by
  cases ctx with
  | none => exact ⟨_, _, rfl⟩
  | some c =>
    obtain ⟨v, hlive⟩ := Arena.live_of_count_pos (hs.java (hobeys c rfl))
    obtain ⟨s₁, hctx⟩ := sslCtxFree_ok (hs.ctxt hlive)
    obtain ⟨⟨sslCtxs, rfl⟩, -⟩ := sslCtxFree_inv hctx
    exact ⟨.ok none, State.takeBack { s with sslCtxs, ctxts := s.ctxts.set c ⟨v, true⟩ } (.ctxt c),
      by simp only [freeContext, hlive.get_eq, hctx, hlive.release_eq]⟩

theorem newSSL_ok (hs : s.Sound) {b : Build} {ctx : Option Nat} {server : Bool}
    {calls : NewSslCalls} (hobeys : Obeys b s (.newSSL ctx server calls)) :
    ∃ reply s', newSSL ctx server calls s = .ok (reply, s') := by
  cases ctx with
  | none => exact ⟨_, _, rfl⟩
  | some c =>
    obtain ⟨v, hlive⟩ := Arena.live_of_count_pos (hobeys c rfl)
    simp only [newSSL, hlive.get_eq]
    split
    · exact ⟨_, _, rfl⟩
    obtain ⟨sslCtxs, hup⟩ := RefHeap.upRef_ok (hs.ctxt hlive)
    simp only [hup]
    split
    · -- The new connection has nothing but its context.
      have hcount : 0 < sslCtxs.count v.ctx := by
        rw [(RefHeap.upRef_inv hup).2]
        exact Nat.lt_of_lt_of_le (hs.ctxt hlive) (Nat.le_add_right _ _)
      obtain ⟨s₁, hctx⟩ := sslCtxFree_ok (s := { s with
        sslCtxs, ssls := s.ssls.alloc ⟨v.ctx, none, none, false⟩ }) hcount
      obtain ⟨⟨sslCtxs', rfl⟩, -⟩ := sslCtxFree_inv hctx
      have hnew := Arena.live_alloc s.ssls ⟨v.ctx, none, none, false⟩
      simp only [State.sslFree, hnew.get_eq, State.bioFreeOpt, hctx, hnew.release_eq]
      exact ⟨_, _, rfl⟩
    · exact ⟨_, _, rfl⟩

theorem freeSSL_ok (hs : Balanced s.count s.held) {b : Build} {ssl : Option Nat}
    (hobeys : Obeys b s (.freeSSL ssl)) : ∃ reply s', freeSSL ssl s = .ok (reply, s') := by
  cases ssl with
  | none => exact ⟨_, _, rfl⟩
  | some i =>
    have hsound := sound_of_balanced hs
    obtain ⟨v, hlive⟩ := Arena.live_of_count_pos (hsound.java (hobeys i rfl))
    have hstate : ∃ states, s.states.releaseOpt v.state = .ok states := by
      cases hv : v.state with
      | none => exact ⟨s.states, rfl⟩
      | some state =>
        obtain ⟨w, hw⟩ := Arena.live_of_count_pos (state_pos hs hlive hv)
        exact ⟨s.states.set state ⟨w, true⟩, hw.release_eq⟩
    obtain ⟨states, hrelease⟩ := hstate
    obtain ⟨s₁, hfree⟩ := sslFree_ok (hsound.of_states states) hlive
    exact ⟨.ok none, s₁.takeBack (.ssl i),
      by simp only [freeSSL, hlive.get_eq, State.freeSslState, hrelease, hfree]⟩

theorem sslSetBio_ok (hs : s.Sound) {ssl : Nat} (hpos : 0 < s.ssls.count ssl) (bio : Nat) :
    ∃ s', s.sslSetBio ssl bio = .ok s' := by
  obtain ⟨v, hlive⟩ := Arena.live_of_count_pos hpos
  obtain ⟨s₁, hfree⟩ := bioFreeOpt_ok hs hlive
  exact ⟨{ s₁ with ssls := s₁.ssls.update ssl fun v => { v with bio := some bio } },
    by simp only [State.sslSetBio, hlive.get_eq, hfree]⟩

theorem bioNewByteBuffer_ok (hs : Balanced s.count s.held) {b : Build} {ssl : Option Nat}
    {size : Int} {bioNew : BioNew} {malloc : Bool}
    (hobeys : Obeys b s (.bioNewByteBuffer ssl size bioNew malloc)) :
    ∃ reply s', bioNewByteBuffer ssl size bioNew malloc s = .ok (reply, s') := by
  have hnone := Custody.balanced_iff.mp hs
  cases ssl with
  | none => exact ⟨_, _, rfl⟩
  | some i =>
    simp only [bioNewByteBuffer]
    split
    · exact ⟨_, _, rfl⟩
    rename_i hsize
    split
    · exact ⟨_, _, rfl⟩
    · exact ⟨_, _, rfl⟩
    split
    · have hsound : s.bioNew.Sound := sound_of_owes fun r => by
        have hnew := bioNew_owes (s := s) r
        have hzero : s.owes r = 0 := hnone r
        omega
      have hpos : 0 < s.bioNew.bios.count s.bios.length := by
        simp [State.bioNew, (Arena.live_alloc s.bios _).count_eq]
      obtain ⟨s₁, hfree⟩ := bioFree_ok hsound hpos
      simp only [hfree]
      exact ⟨_, _, rfl⟩
    · rename_i hmalloc
      have hsound : (s.bioNew.bufferNew s.datas.length size).Sound := sound_of_owes fun r => by
        have hnew := bufferNew_bioNew_owes (s := s) size r
        have hzero : s.owes r = 0 := hnone r
        omega
      have hpos : 0 < s.ssls.count i :=
        hobeys (Int.not_le.mp hsize) rfl (by simpa using hmalloc) i rfl
      obtain ⟨s₁, hset⟩ := sslSetBio_ok hsound hpos s.bios.length
      simp only [hset]
      exact ⟨_, _, rfl⟩

theorem freeBio_ok (hs : s.Sound) {b : Build} {bio : Option Nat}
    (hobeys : Obeys b s (.freeBio bio)) : ∃ reply s', freeBio bio s = .ok (reply, s') := by
  cases bio with
  | none => exact ⟨_, _, rfl⟩
  | some i =>
    obtain ⟨s₁, hfree⟩ := bioFree_ok hs (hs.java (hobeys i rfl))
    exact ⟨.ok none, s₁.takeBack (.bio i), by simp only [freeBio, hfree]⟩

theorem isByteBuffer_inv {bio : Nat} (h : s.isByteBuffer bio = true) :
    ∃ data, s.bios.Live bio (.byteBuffer data) := by
  unfold State.isByteBuffer at h
  split at h
  · rename_i data hget
    exact ⟨data, hget⟩
  · cases h

theorem useData_ok (hs : s.Sound) {bio : Nat} {data : Option Nat}
    (hlive : s.bios.Live bio (.byteBuffer data)) : useData data s = .ok () := by
  cases data with
  | none => rfl
  | some d =>
    obtain ⟨v, hdata⟩ := Arena.live_of_count_pos (hs.bio hlive)
    simp only [useData, hdata.get_eq]
    cases hbuffer : v.nonApplicationBuffer with
    | none => rfl
    | some buffer =>
      obtain ⟨w, hw⟩ := Arena.live_of_count_pos (hs.data hdata hbuffer)
      simp only [hw.get_eq]

theorem useBio_ok (hs : s.Sound) {bio : Nat} (hbio : s.isByteBuffer bio = true) :
    useBio bio s = .ok () := by
  obtain ⟨data, hlive⟩ := isByteBuffer_inv hbio
  simp only [useBio, hlive.get_eq]
  exact useData_ok hs hlive

theorem bioIo_ok (hs : s.Sound) {ssl : Nat} {v : Ssl} (hlive : s.ssls.Live ssl v) :
    bioIo v.bio s = .ok () := by
  cases hbio : v.bio with
  | none => rfl
  | some bio =>
    obtain ⟨w, hw⟩ := Arena.live_of_count_pos (hs.sslBio hlive hbio)
    simp only [bioIo, hw.get_eq]
    cases w with
    | mem => rfl
    | byteBuffer data => exact useData_ok hs hw

theorem useContext_ok (hs : s.Sound) {ctx : Nat} (hpos : 0 < s.ctxts.count ctx) :
    useContext ctx s = .ok () := by
  obtain ⟨v, hlive⟩ := Arena.live_of_count_pos hpos
  obtain ⟨w, hget⟩ := RefHeap.get_ok (hs.ctxt hlive)
  simp only [useContext, hlive.get_eq, hget]

theorem useSsl_ok (hs : Balanced s.count s.held) {ssl : Nat} (hpos : 0 < s.ssls.count ssl) :
    useSsl ssl s = .ok () := by
  obtain ⟨v, hlive⟩ := Arena.live_of_count_pos hpos
  have hio := bioIo_ok (sound_of_balanced hs) hlive
  simp only [useSsl, hlive.get_eq]
  cases hstate : v.state with
  | none => exact hio
  | some state =>
    obtain ⟨w, hw⟩ := Arena.live_of_count_pos (state_pos hs hlive hstate)
    simp only [hw.get_eq, hio]

theorem tcnGetSslCtx_ok (hs : Balanced s.count s.held) {ssl : Nat} (hpos : 0 < s.ssls.count ssl) :
    tcnGetSslCtx ssl s = .ok (s.contextOf ssl) := by
  obtain ⟨v, hlive⟩ := Arena.live_of_count_pos hpos
  rw [contextOf_eq hlive]
  simp only [tcnGetSslCtx, hlive.get_eq]
  cases hstate : v.state with
  | none => rfl
  | some state =>
    obtain ⟨w, hw⟩ := Arena.live_of_count_pos (state_pos hs hlive hstate)
    simp [hw.get_eq, show s.states[state]? = _ from hw]

theorem callback_ok (hs : Balanced s.count s.held) {ssl : Nat} (hpos : 0 < s.ssls.count ssl)
    (hctxt : ∀ c ∈ s.contextOf ssl, 0 < s.ctxts.count c) : callback ssl s = .ok () := by
  simp only [callback, tcnGetSslCtx_ok hs hpos]
  cases hctx : s.contextOf ssl with
  | none => rfl
  | some c =>
    obtain ⟨v, hlive⟩ := Arena.live_of_count_pos (hctxt c hctx)
    simp only [hlive.get_eq]

theorem getPeerCertChain_ok (hs : Balanced s.count s.held) {b : Build} {ssl : Nat}
    (hobeys : Obeys b s (.getPeerCertChain ssl)) : getPeerCertChain b ssl s = .ok () := by
  obtain ⟨hpos, hctxt⟩ := hobeys
  unfold getPeerCertChain
  split
  · rename_i hlib
    obtain ⟨c, hctx, hcount⟩ := hctxt hlib
    obtain ⟨v, hlive⟩ := Arena.live_of_count_pos hcount
    simp only [tcnGetSslCtx_ok hs hpos, show s.contextOf ssl = some c from hctx, hlive.get_eq]
  · obtain ⟨v, hlive⟩ := Arena.live_of_count_pos hpos
    simp only [hlive.get_eq]

theorem reads_ok {use : Except Fault Unit} (huse : use = .ok ()) :
    ∃ reply s', reads use s = .ok (reply, s') :=
  ⟨.ok none, s, by simp only [reads, huse]⟩

theorem lifetimeStep_ok {b : Build} {event : Event} (hs : Balanced s.count s.held)
    (hobeys : Obeys b s event) : ∃ reply s', lifetimeStep b s event = .ok (reply, s') := by
  have hsound := sound_of_balanced hs
  cases event with
  | make protocol mode calls => exact make_ok hobeys
  | freeContext ctx => exact freeContext_ok hsound hobeys
  | newSSL ctx server calls => exact newSSL_ok hsound hobeys
  | freeSSL ssl => exact freeSSL_ok hs hobeys
  | bioNewByteBuffer ssl size bioNew malloc => exact bioNewByteBuffer_ok hs hobeys
  | newMemBio bioNew =>
    simp only [lifetimeStep, newMemBio]
    split
    · exact ⟨_, _, rfl⟩
    · exact ⟨_, _, rfl⟩
  | freeBio bio => exact freeBio_ok hsound hobeys
  | useBio bio => exact reads_ok (useBio_ok hsound hobeys)
  | useContext ctx => exact reads_ok (useContext_ok hsound hobeys)
  | useSsl ssl => exact reads_ok (useSsl_ok hs hobeys)
  | getPeerCertChain ssl => exact reads_ok (getPeerCertChain_ok hs hobeys)
  | callback ssl => exact reads_ok (callback_ok hs hobeys.1 hobeys.2)

end

/-! ## Runs -/

theorem lifetimeStep_accounts (b : Build) :
    Accounts (lifetimeStep b) State.count State.held (fun _ => True) (Obeys b) where
  inv _ _ _ _ _ _ := trivial
  ok _ _ _ hs hobeys := lifetimeStep_ok hs hobeys
  moves _ _ _ _ hok := lifetimeStep_moves hok

section
variable {s s' : State}

/-- Who holds a reference. -/
theorem held_cases {r : Ref} (hr : r ∈ s.held) :
    (∃ h ∈ s.java, h.ref = r) ∨ (∃ c v, s.ctxts.Live c v ∧ r = .sslCtx v.ctx) ∨
      (∃ i v, s.ssls.Live i v ∧ r ∈ v.refs) ∨
      (∃ i v, s.bios.Live i v ∧ ∃ d, r = .data d) ∨ (∃ d v, s.datas.Live d v ∧ ∃ i, r = .buffer i) := by
  simp only [State.held, List.mem_append, List.mem_map] at hr
  rcases hr with (((hjava | hctxt) | hssl) | hbio) | hdata
  · exact .inl hjava
  · obtain ⟨c, v, hlive, hv⟩ := Arena.mem_held_inv hctxt
    exact .inr (.inl ⟨c, v, hlive, by simpa [TcnSslCtxt.refs] using hv⟩)
  · obtain ⟨i, v, hlive, hv⟩ := Arena.mem_held_inv hssl
    exact .inr (.inr (.inl ⟨i, v, hlive, hv⟩))
  · obtain ⟨i, v, hlive, hv⟩ := Arena.mem_held_inv hbio
    refine .inr (.inr (.inr (.inl ⟨i, v, hlive, ?_⟩)))
    unfold Bio.refs at hv
    split at hv
    · cases hv
    · cases hv
    · exact ⟨_, List.mem_singleton.mp hv⟩
  · obtain ⟨d, v, hlive, hv⟩ := Arena.mem_held_inv hdata
    refine .inr (.inr (.inr (.inr ⟨d, v, hlive, ?_⟩)))
    obtain ⟨i, -, hi⟩ := Option.map_eq_some_iff.mp (Option.mem_toList.mp hv)
    exact ⟨i, hi.symm⟩

/-- Nothing is left of what Java has freed. -/
theorem all_freed (hs : Balanced s.count s.held) (hjava : s.java = []) : s.held = [] := by
  have hlive : ∀ r, 0 < s.count r → r ∈ s.held := fun r hr => by
    rw [hs r] at hr
    exact List.count_pos_iff.mp hr
  -- From what only Java holds, to what that held.
  have hctxt : ∀ c v, ¬ s.ctxts.Live c v := by
    intro c v hc
    have hmem := hlive (.ctxt c) (by simp [State.count, hc.count_eq])
    rcases held_cases hmem with ⟨h, hh, -⟩ | ⟨_, _, -, h⟩ | ⟨_, _, -, h⟩ | ⟨_, _, -, _, h⟩ |
      ⟨_, _, -, _, h⟩
    · simp [hjava] at hh
    · cases h
    · simp [Ssl.refs] at h
    · cases h
    · cases h
  have hssl : ∀ i v, ¬ s.ssls.Live i v := by
    intro i v hi
    have hmem := hlive (.ssl i) (by simp [State.count, hi.count_eq])
    rcases held_cases hmem with ⟨h, hh, -⟩ | ⟨_, _, -, h⟩ | ⟨_, _, -, h⟩ | ⟨_, _, -, _, h⟩ |
      ⟨_, _, -, _, h⟩
    · simp [hjava] at hh
    · cases h
    · simp [Ssl.refs] at h
    · cases h
    · cases h
  have hbio : ∀ i v, ¬ s.bios.Live i v := by
    intro i v hi
    have hmem := hlive (.bio i) (by simp [State.count, hi.count_eq])
    rcases held_cases hmem with ⟨h, hh, -⟩ | ⟨_, _, -, h⟩ | ⟨j, w, hj, -⟩ | ⟨_, _, -, _, h⟩ |
      ⟨_, _, -, _, h⟩
    · simp [hjava] at hh
    · cases h
    · exact hssl j w hj
    · cases h
    · cases h
  have hdata : ∀ d v, ¬ s.datas.Live d v := by
    intro d v hd
    have hmem := hlive (.data d) (by simp [State.count, hd.count_eq])
    rcases held_cases hmem with ⟨h, hh, -⟩ | ⟨_, _, -, h⟩ | ⟨j, w, hj, -⟩ | ⟨j, w, hj, -⟩ |
      ⟨_, _, -, _, h⟩
    · simp [hjava] at hh
    · cases h
    · exact hssl j w hj
    · exact hbio j w hj
    · cases h
  apply List.eq_nil_iff_forall_not_mem.mpr
  intro r hr
  rcases held_cases hr with ⟨h, hh, -⟩ | ⟨c, v, hc, -⟩ | ⟨i, v, hi, -⟩ | ⟨i, v, hi, -⟩ | ⟨d, v, hd, -⟩
  · simp [hjava] at hh
  · exact hctxt c v hc
  · exact hssl i v hi
  · exact hbio i v hi
  · exact hdata d v hd

/-- The call that frees what Java has a handle to. -/
def Handle.free : Handle → Event
  | .ctxt c => .freeContext (some c)
  | .ssl i => .freeSSL (some i)
  | .bio i => .freeBio (some i)

/-- Java gives back the handle that it passes. -/
theorem free_java {b : Build} {h : Handle} {reply : Reply}
    (hok : lifetimeStep b s h.free = .ok (reply, s')) : s'.java = s.java.erase h := by
  cases h with
  | ctxt c =>
    simp only [Handle.free, lifetimeStep, freeContext] at hok
    split at hok
    · cases hok
    split at hok
    · cases hok
    rename_i s₁ hctx
    obtain ⟨⟨sslCtxs, rfl⟩, -⟩ := sslCtxFree_inv hctx
    split at hok
    · cases hok
    · cases hok
      rfl
  | ssl i =>
    simp only [Handle.free, lifetimeStep, freeSSL] at hok
    split at hok
    · cases hok
    rename_i v hget
    split at hok
    · cases hok
    rename_i s₁ hstate
    obtain ⟨⟨states, rfl⟩, -⟩ := freeSslState_inv hstate
    split at hok
    · cases hok
    rename_i s₂ hfree
    obtain ⟨⟨sslCtxs, ssls, buffers, datas, bios, rfl⟩, -⟩ :=
      sslFree_inv (s := { s with states }) (Arena.get_inv hget) hfree
    cases hok
    rfl
  | bio i =>
    simp only [Handle.free, lifetimeStep, freeBio] at hok
    split at hok
    · cases hok
    rename_i s₁ hfree
    obtain ⟨⟨buffers, datas, bios, rfl⟩, -⟩ := bioFree_inv hfree
    cases hok
    rfl

/-- While anything is held, Java has something to free. -/
theorem lifetimeStep_releases {b : Build} (hs : Balanced s.count s.held) (hheld : s.held ≠ []) :
    ∃ event, Obeys b s event ∧ ∀ reply s', lifetimeStep b s event = .ok (reply, s') →
      s'.java.length < s.java.length := by
  cases hjava : s.java with
  | nil => exact absurd (all_freed hs hjava) hheld
  | cons h java =>
    have hmem : h ∈ s.java := hjava ▸ List.mem_cons_self
    refine ⟨h.free, ?_, fun reply s' hok => ?_⟩
    · cases h <;> simpa [Handle.free, Obeys] using hmem
    · rw [free_java hok, ← hjava, List.length_erase_of_mem hmem]
      have hpos := List.length_pos_of_mem hmem
      omega

end

/-- A connection that outlives its context. A second BIO for it takes the place of
the first, and one without memory changes nothing. -/
def outlivingConnection : List Event :=
  [.make 0x3c 1 ⟨true, "", true, true, true, ""⟩, .make 0x3c 1 ⟨true, "", true, false, true, "12"⟩,
    .newMemBio true, .newSSL (some 0) true ⟨true, true⟩, .newSSL (some 0) true ⟨true, false⟩,
    .bioNewByteBuffer (some 0) 2048 .created true, .bioNewByteBuffer (some 0) 4096 .created true,
    .bioNewByteBuffer (some 0) 4096 .created false, .useBio 2, .useContext 0, .useSsl 0,
    .callback 0, .freeContext (some 0), .useSsl 0, .getPeerCertChain 0, .freeBio (some 0),
    .freeSSL (some 0)]

-- A callback would find the context that is gone.
example : ¬ Machine.Meets (lifetimeStep openssl111) (Obeys openssl111) .start
    (outlivingConnection.take 13 ++ [.callback 0]) := by decide

end Lifetime
