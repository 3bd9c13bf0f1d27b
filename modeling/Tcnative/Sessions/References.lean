-- SUMMARY: Reference counts of sessions over any run of handshakes, callbacks and calls from Java.
import Tcnative.Base.Custody
import Tcnative.Sessions.Callbacks

/-!
# References to sessions

The counts agree with who holds what as long as Java keeps to the rules of
`SSLSessionCache`. The rules are exact: once Java breaks one of them, some
session will be used after it was freed before everybody has let go of it.
-/

namespace Sessions
open CMem Jni Tls
open Custody (Balanced Accounts Moves)

variable {b : Build}

/-! ## Calls from Java -/

/-- What a call does that does not fault: it keeps the references, takes one for
Java, or gives one up. -/
inductive CallEffect (b : Build) (s : State) (call : JavaCall) (s' : State) : Prop where
  | kept (count : ∀ j, s'.heap.count j = s.heap.count j) (java : s'.java = s.java)
      (obeys : ObeysCall b s call)
  | took (i : Nat) (count : ∀ j, s'.heap.count j = s.heap.count j + if j = i then 1 else 0)
      (java : s'.java = i :: s.java) (obeys : ObeysCall b s call)
  | gave (i : Nat) (count : ∀ j, s'.heap.count j + (if j = i then 1 else 0) = s.heap.count j)
      (java : s'.java = s.java.erase i) (obeys : ObeysCall b s call ↔ i ∈ s.java)

/-- A call from Java leaves the connections and the context alone. -/
structure SameConnections (s s' : State) : Prop where
  ssls : s'.ssls = s.ssls
  stored : s'.stored = s.stored
  cache : s'.cache = s.cache

theorem readSession_inv {f : SslSession → JavaValue} {session : Option Nat} {s s' : State}
    {r : JavaReply} (hok : readSession f session s = .ok (r, s')) :
    s' = s ∧ ∀ i ∈ session, 0 < s.heap.count i := by
  cases session with
  | none =>
    cases hok
    exact ⟨rfl, by simp⟩
  | some i =>
    simp only [readSession] at hok
    split at hok
    · cases hok
    · rename_i v hget
      cases hok
      refine ⟨rfl, ?_⟩
      rintro j ⟨⟩
      exact RefHeap.get_inv hget

theorem javaStep_inv {s s' : State} {call : JavaCall} {r : JavaReply}
    (hok : javaStep b s call = .ok (r, s')) :
    CallEffect b s call s' ∧ SameConnections s s' := by
  -- The four functions that only read.
  have hread : ∀ {f session}, readSession f session s = .ok (r, s') →
      ((∀ i ∈ session, 0 < s.heap.count i) → ObeysCall b s call) →
      CallEffect b s call s' ∧ SameConnections s s' := by
    intro f session hok hobeys
    obtain ⟨rfl, hpos⟩ := readSession_inv hok
    exact ⟨.kept (fun _ => rfl) rfl (hobeys hpos), ⟨rfl, rfl, rfl⟩⟩
  cases call with
  | upRef session succeeds =>
    cases session with
    | none =>
      cases hok
      exact ⟨.kept (fun _ => rfl) rfl trivial, ⟨rfl, rfl, rfl⟩⟩
    | some i =>
      simp only [javaStep, upRef] at hok
      split at hok
      · rename_i hlinked
        cases hok
        refine ⟨.kept (fun _ => rfl) rfl fun hup => ?_, ⟨rfl, rfl, rfl⟩⟩
        simp [hup] at hlinked
      split at hok
      · cases hok
      · rename_i heap hup
        have hinv := RefHeap.upRef_inv hup
        split at hok
        · cases hok
          exact ⟨.took i hinv.2 rfl fun _ => hinv.1, ⟨rfl, rfl, rfl⟩⟩
        · cases hok
          exact ⟨.kept (fun _ => rfl) rfl fun _ => hinv.1, ⟨rfl, rfl, rfl⟩⟩
  | free session =>
    cases session with
    | none =>
      cases hok
      exact ⟨.kept (fun _ => rfl) rfl trivial, ⟨rfl, rfl, rfl⟩⟩
    | some i =>
      simp only [javaStep, free] at hok
      split at hok
      · cases hok
      · rename_i heap hfree
        cases hok
        exact ⟨.gave i (RefHeap.free_inv hfree).2 rfl Iff.rfl, ⟨rfl, rfl, rfl⟩⟩
  | getTime session =>
    refine hread hok fun hpos => ?_
    cases session with
    | none => trivial
    | some i => exact hpos i rfl
  | getTimeout session =>
    refine hread hok fun hpos => ?_
    cases session with
    | none => trivial
    | some i => exact hpos i rfl
  | getSessionId session newByteArray =>
    refine hread hok fun hpos => ?_
    cases session with
    | none => trivial
    | some i => exact hpos i rfl
  | shouldBeSingleUse session =>
    simp only [javaStep, shouldBeSingleUse] at hok
    split at hok
    · refine hread hok fun hpos => ?_
      cases session with
      | none => trivial
      | some i => exact fun _ => hpos i rfl
    · rename_i hlib
      cases hok
      refine ⟨.kept (fun _ => rfl) rfl ?_, ⟨rfl, rfl, rfl⟩⟩
      cases session with
      | none => trivial
      | some i => exact fun hboring => absurd hboring hlib
  | setTimeout session seconds rv =>
    cases session with
    | none =>
      cases hok
      exact ⟨.kept (fun _ => rfl) rfl trivial, ⟨rfl, rfl, rfl⟩⟩
    | some i =>
      simp only [javaStep, setTimeout] at hok
      split at hok
      · cases hok
      · rename_i v hget
        cases hok
        exact ⟨.kept (RefHeap.count_update s.heap i (SslSession.withTimeout seconds)) rfl
          (RefHeap.get_inv hget), ⟨rfl, rfl, rfl⟩⟩

theorem readSession_ok {f : SslSession → JavaValue} {session : Option Nat} {s : State}
    (hpos : ∀ i ∈ session, 0 < s.heap.count i) : ∃ r, readSession f session s = .ok (r, s) := by
  cases session with
  | none => exact ⟨_, rfl⟩
  | some i =>
    obtain ⟨v, hget⟩ := RefHeap.get_ok (hpos i rfl)
    exact ⟨.ok (f v), by simp only [readSession, hget]⟩

/-- A call that obeys the rules does not fault, if Java's own sessions are not
freed. -/
theorem javaStep_ok {s : State} {call : JavaCall} (hjava : ∀ i ∈ s.java, 0 < s.heap.count i)
    (hobeys : ObeysCall b s call) : ∃ r s', javaStep b s call = .ok (r, s') := by
  have hread : ∀ {f session}, (∀ i ∈ session, 0 < s.heap.count i) →
      ∃ r s', readSession f session s = .ok (r, s') := fun {f session} hpos => by
    obtain ⟨r, hok⟩ := readSession_ok (f := f) hpos
    exact ⟨r, s, hok⟩
  cases call with
  | upRef session succeeds =>
    cases session with
    | none => exact ⟨_, _, rfl⟩
    | some i =>
      simp only [javaStep, upRef]
      split
      · exact ⟨_, _, rfl⟩
      · rename_i hlinked
        obtain ⟨heap, hup⟩ := RefHeap.upRef_ok (hobeys (by simpa using hlinked))
        simp only [hup]
        split <;> exact ⟨_, _, rfl⟩
  | free session =>
    cases session with
    | none => exact ⟨_, _, rfl⟩
    | some i =>
      obtain ⟨heap, hfree⟩ := RefHeap.free_ok (hjava i hobeys)
      exact ⟨.ok .void, { s.give i with heap }, by simp only [javaStep, free, hfree]⟩
  | getTime session | getTimeout session | getSessionId session newByteArray =>
    refine hread ?_
    rintro i ⟨⟩
    exact hobeys
  | shouldBeSingleUse session =>
    simp only [javaStep, shouldBeSingleUse]
    split
    · rename_i hlib
      refine hread ?_
      rintro i ⟨⟩
      exact hobeys hlib
    · exact ⟨_, _, rfl⟩
  | setTimeout session seconds rv =>
    cases session with
    | none => exact ⟨_, _, rfl⟩
    | some i =>
      obtain ⟨v, hget⟩ := RefHeap.get_ok hobeys
      exact ⟨.ok (.long rv), { s with heap := s.heap.update i (SslSession.withTimeout seconds) },
        by simp only [javaStep, setTimeout, hget]⟩

/-- What is owed where others hold `extra`. -/
abbrev State.owed (s : State) (extra : List Nat) : Nat → Int := Custody.owed s.heap.count (extra ++ s.held)

theorem State.owed_eq (s : State) (extra : List Nat) (j : Nat) :
    s.owed extra j = (extra.count j : Int) + (s.ssls.flatMap sslRefs).count j + s.stored.count j +
      s.java.count j - s.heap.count j := by
  simp only [State.owed, Custody.owed, State.held, List.count_append]
  omega

theorem CallEffect.moves {s s' : State} {call : JavaCall} (heffect : CallEffect b s call s')
    (hsame : SameConnections s s') (extra : List Nat) :
    Moves (ObeysCall b s call) (s.owed extra) (s'.owed extra) := by
  cases heffect with
  | kept count java obeys =>
    refine .of_eq obeys fun j => ?_
    rw [State.owed_eq, State.owed_eq, hsame.ssls, hsame.stored, java, count]
  | took i count java obeys =>
    refine .of_eq obeys fun j => ?_
    rw [State.owed_eq, State.owed_eq, hsame.ssls, hsame.stored, java, count, List.count_cons]
    grind
  | gave i count java obeys =>
    refine Moves.congr ⟨fun hmem j => ?_, fun j => ?_, fun hmem => ⟨i, ?_⟩⟩ obeys.symm
    · have hjava := Custody.count_erase_add hmem j
      have hheap := count j
      rw [State.owed_eq, State.owed_eq, hsame.ssls, hsame.stored, java]
      omega
    · have hheap := count j
      rw [State.owed_eq, State.owed_eq, hsame.ssls, hsame.stored, java]
      by_cases hmem : i ∈ s.java
      · have hjava := Custody.count_erase_add hmem j
        omega
      · rw [List.erase_of_not_mem hmem]
        omega
    · have hheap := count i
      rw [if_pos rfl] at hheap
      rw [State.owed_eq, State.owed_eq, hsame.ssls, hsame.stored, java, List.erase_of_not_mem hmem]
      omega

/-- Calls from Java account for the references they move, whatever others hold. -/
theorem javaStep_accounts (b : Build) (extra : List Nat) :
    Accounts (javaStep b) (fun s => s.heap.count) (fun s => extra ++ s.held) (fun _ => True)
      (ObeysCall b) where
  inv _ _ _ _ _ _ := trivial
  ok s call _ hs hobeys := by
    have hjava : ∀ i ∈ s.java, 0 < s.heap.count i := fun i hi =>
      hs.pos (List.mem_append_right _ (List.mem_append_right _ (List.mem_append_right _ hi)))
    exact javaStep_ok hjava hobeys
  moves s call r s' hok :=
    have hinv := javaStep_inv hok
    hinv.1.moves hinv.2 extra

theorem run_sameConnections {s s' : State} {calls : List JavaCall}
    {t : List (Machine.Entry State JavaCall JavaReply)}
    (hrun : Machine.run (javaStep b) s calls = .ok (t, s')) : SameConnections s s' := by
  refine Machine.run_traced (I := fun _ s' => SameConnections s s') (R := fun _ => True)
    ?_ ⟨rfl, rfl, rfl⟩ (fun _ _ => trivial) hrun
  intro _ s₁ call r s₂ h _ hok
  have hsame := (javaStep_inv hok).2
  exact ⟨hsame.ssls.trans h.ssls, hsame.stored.trans h.stored, hsame.cache.trans h.cache⟩

/-! ## The callbacks -/

theorem tcnNewSessionCb_inv {cb : NewCallback} {s s' : State} {r : Bool}
    (hok : tcnNewSessionCb b cb s = .ok (r, s')) (extra : List Nat) :
    Moves (cb.Obeys b s) (s.owed extra) (s'.owed extra) ∧ SameConnections s s' := by
  unfold tcnNewSessionCb at hok
  split at hok
  · rename_i hskip
    cases hok
    refine ⟨.of_eq (fun henv hcache => ?_) fun _ => rfl, ⟨rfl, rfl, rfl⟩⟩
    simp [henv, hcache] at hskip
  rename_i hcalled
  simp only [Bool.or_eq_true, Bool.not_eq_true', not_or, Bool.not_eq_false] at hcalled
  split at hok
  · cases hok
  · rename_i hrun
    cases hok
    refine ⟨((javaStep_accounts b extra).run_moves hrun).congr ?_, run_sameConnections hrun⟩
    exact ⟨fun h _ _ => h, fun h => h hcalled.1 hcalled.2⟩

theorem tcnNewSessionCb_ok {cb : NewCallback} {s : State} {extra : List Nat}
    (hs : Balanced s.heap.count (extra ++ s.held)) (hobeys : cb.Obeys b s) :
    ∃ r s', tcnNewSessionCb b cb s = .ok (r, s') := by
  unfold tcnNewSessionCb
  split
  · exact ⟨_, _, rfl⟩
  · rename_i hcalled
    simp only [Bool.or_eq_true, Bool.not_eq_true', not_or, Bool.not_eq_false] at hcalled
    obtain ⟨t, s', hrun, -⟩ :=
      (javaStep_accounts b extra).run_balanced trivial hs (hobeys hcalled.1 hcalled.2)
    exact ⟨cb.result.getD false, s', by simp only [hrun]⟩

/-- A session that Java hands over is the library's from then on, whether it was
Java's to give or not. -/
theorem give_moves (s : State) (i : Nat) (extra : List Nat) :
    Moves (i ∈ s.java) (s.owed extra) ((s.give i).owed (i :: extra)) := by
  by_cases hmem : i ∈ s.java
  · refine .of_eq hmem fun j => ?_
    have hjava := Custody.count_erase_add hmem j
    rw [State.owed_eq, State.owed_eq, List.count_cons]
    simp only [State.give]
    grind
  · have hsame : s.give i = s := by rw [State.give, List.erase_of_not_mem hmem]
    rw [hsame]
    refine ⟨fun h => absurd h hmem, fun j => ?_, fun _ => ⟨i, ?_⟩⟩
    · rw [State.owed_eq, State.owed_eq, List.count_cons]
      omega
    · rw [State.owed_eq, State.owed_eq, List.count_cons_self]
      omega

theorem tcnGetSessionCb_inv {cb : GetCallback} {s s' : State} {found : Option Nat}
    (hok : tcnGetSessionCb b cb s = .ok (found, s')) (extra : List Nat) :
    Moves (cb.Obeys b s) (s.owed extra)
      (found.elim (s'.owed extra) fun i => (s'.give i).owed (i :: extra)) ∧
    SameConnections s s' := by
  unfold tcnGetSessionCb at hok
  split at hok
  · rename_i hskip
    cases hok
    refine ⟨.of_eq (fun henv hcache harray => ?_) fun _ => rfl, ⟨rfl, rfl, rfl⟩⟩
    simp [henv, hcache, harray] at hskip
  rename_i hcalled
  simp only [Bool.or_eq_true, Bool.not_eq_true', not_or, Bool.not_eq_false] at hcalled
  obtain ⟨⟨henv, hcache⟩, harray⟩ := hcalled
  split at hok
  · cases hok
  rename_i t s₁ hrun
  have hcalls := (javaStep_accounts b extra).run_moves hrun
  have hsame := run_sameConnections hrun
  split at hok
  · rename_i hresult
    cases hok
    refine ⟨hcalls.congr ?_, hsame⟩
    simp [GetCallback.Obeys, Machine.Sat, Found.Owned, henv, hcache, harray, hrun, hresult]
  · rename_i hresult
    cases hok
    refine ⟨hcalls.congr ?_, hsame⟩
    simp [GetCallback.Obeys, Machine.Sat, Found.Owned, henv, hcache, harray, hrun, hresult]
  · rename_i hresult
    cases hok
    refine ⟨hcalls.congr ?_, hsame⟩
    simp [GetCallback.Obeys, Machine.Sat, Found.Owned, henv, hcache, harray, hrun, hresult]
  · rename_i i hresult
    cases hok
    refine ⟨(hcalls.trans (give_moves s' i extra)).congr ?_, hsame⟩
    simp [GetCallback.Obeys, Machine.Sat, Found.Owned, henv, hcache, harray, hresult, hrun]

theorem tcnGetSessionCb_ok {cb : GetCallback} {s : State} (extra : List Nat)
    (hs : Balanced s.heap.count (extra ++ s.held)) (hobeys : cb.Obeys b s) :
    ∃ found s', tcnGetSessionCb b cb s = .ok (found, s') := by
  unfold tcnGetSessionCb
  split
  · exact ⟨_, _, rfl⟩
  · rename_i hcalled
    simp only [Bool.or_eq_true, Bool.not_eq_true', not_or, Bool.not_eq_false] at hcalled
    obtain ⟨⟨henv, hcache⟩, harray⟩ := hcalled
    obtain ⟨t, s', hrun, -⟩ :=
      (javaStep_accounts b extra).run_balanced trivial hs (hobeys henv hcache harray).1
    simp only [hrun]
    split <;> exact ⟨_, _, rfl⟩

/-! ## The library -/

/-- A reference in hand is given up, or passes to an `SSL` in place of the one it
had. -/
theorem drop_inv {s s' : State} {i : Nat} (hok : s.drop i = .ok s') (extra : List Nat) :
    ∀ j, s'.owed extra j = s.owed (i :: extra) j := by
  unfold State.drop at hok
  split at hok
  · cases hok
  · rename_i heap hfree
    cases hok
    intro j
    have hheap := (RefHeap.free_inv hfree).2 j
    rw [State.owed_eq, State.owed_eq, List.count_cons]
    grind

theorem replaceSession_inv {s s' : State} {keeps : Bool} {ssl : Nat} {old : SslSessions}
    {session : Option Nat} (hssl : s.ssls[ssl]? = some (some old))
    (hok : s.replaceSession keeps ssl old session = .ok s') (extra : List Nat) :
    ∀ j, s'.owed extra j = s.owed (session.toList ++ extra) j := by
  have hheld := fun x => Custody.count_flatMap_set (f := sslRefs) hssl (some x)
  simp only [sslRefs, Option.elim_some, SslSessions.refs, List.count_append] at hheld
  unfold State.replaceSession at hok
  intro j
  split at hok
  · cases hok
    have hset := hheld ⟨session, old.refs⟩ j
    simp only [SslSessions.refs, List.count_append] at hset
    rw [State.owed_eq, State.owed_eq, List.count_append]
    simp only [SslSessions.refs]
    omega
  split at hok
  · cases hok
  · rename_i heap hfree
    cases hok
    have hheap := RefHeap.freeOpt_inv hfree j
    have hset := hheld ⟨session, old.others⟩ j
    simp only at hset
    rw [State.owed_eq, State.owed_eq, List.count_append]
    simp only
    omega

theorem freeSsl_inv {s s' : State} {ssl : Nat} (hok : s.freeSsl ssl = .ok s') :
    s.LiveSsl ssl ∧ (∀ extra j, s'.owed extra j = s.owed extra j) ∧
      s'.ssls = s.ssls.set ssl none ∧ s'.stored = s.stored ∧ s'.java = s.java := by
  unfold State.freeSsl at hok
  split at hok
  · rename_i old hssl
    split at hok
    · cases hok
    · rename_i heap hfree
      cases hok
      refine ⟨⟨old, hssl⟩, fun extra j => ?_, rfl, rfl, rfl⟩
      have hheap := RefHeap.freeAll_inv hfree j
      have hheld := Custody.count_flatMap_set (f := sslRefs) hssl none j
      simp only [sslRefs, Option.elim_some, Option.elim_none, List.count_nil] at hheld
      rw [State.owed_eq, State.owed_eq]
      simp only
      omega
  · cases hok

theorem refer_inv {s s' : State} {ssl : Nat} (hok : s.refer ssl = .ok s') :
    s.LiveSsl ssl ∧ ∀ extra j, s'.owed extra j = s.owed extra j := by
  unfold State.refer at hok
  split at hok
  · rename_i others hssl
    cases hok
    exact ⟨⟨_, hssl⟩, fun _ _ => rfl⟩
  · rename_i i others hssl
    split at hok
    · cases hok
    · rename_i heap hup
      cases hok
      refine ⟨⟨_, hssl⟩, fun extra j => ?_⟩
      have hheap := (RefHeap.upRef_inv hup).2 j
      have hheld := Custody.count_flatMap_set (f := sslRefs) hssl (some ⟨some i, i :: others⟩) j
      simp only [sslRefs, Option.elim_some, SslSessions.refs, List.count_append,
        List.count_cons] at hheld
      rw [State.owed_eq, State.owed_eq]
      grind
  · cases hok

theorem letGo_inv {s s' : State} {ssl i : Nat} (hok : s.letGo ssl i = .ok s') :
    s.LiveSsl ssl ∧ ∀ extra j, s'.owed extra j = s.owed extra j := by
  unfold State.letGo at hok
  split at hok
  · rename_i session others hssl
    split at hok
    · cases hok
      exact ⟨⟨_, hssl⟩, fun _ _ => rfl⟩
    rename_i hmem
    rw [not_not] at hmem
    split at hok
    · cases hok
    · rename_i heap hfree
      cases hok
      refine ⟨⟨_, hssl⟩, fun extra j => ?_⟩
      have hheap := (RefHeap.free_inv hfree).2 j
      have herase := Custody.count_erase_add hmem j
      have hheld := Custody.count_flatMap_set (f := sslRefs) hssl (some ⟨session, others.erase i⟩) j
      simp only [sslRefs, Option.elim_some, SslSessions.refs, List.count_append] at hheld
      rw [State.owed_eq, State.owed_eq]
      simp only
      omega
  · cases hok

/-! ## The cache of the library -/

/-- A session that is stored has a reference more. -/
theorem store_inv {s s' : State} {adds : Bool} {i : Nat} (hok : s.store adds i = .ok s') :
    (∀ extra j, s'.owed extra j = s.owed extra j) ∧ s'.ssls = s.ssls := by
  unfold State.store at hok
  split at hok
  · cases hok
    exact ⟨fun _ _ => rfl, rfl⟩
  unfold State.sslCtxAddSession at hok
  split at hok
  · cases hok
  · rename_i heap hup
    cases hok
    split
    · exact ⟨fun _ _ => rfl, rfl⟩
    · refine ⟨fun extra j => ?_, rfl⟩
      have hheap := (RefHeap.upRef_inv hup).2 j
      rw [State.owed_eq, State.owed_eq, List.count_cons]
      grind

theorem removeSession_inv {s s' : State} {i : Nat} (hok : s.removeSession i = .ok s') :
    (∀ extra j, s'.owed extra j = s.owed extra j) ∧
      (i ∈ s.stored → s'.held.length < s.held.length) := by
  unfold State.removeSession at hok
  split at hok
  · rename_i hmem
    cases hok
    exact ⟨fun _ _ => rfl, fun h => absurd h hmem⟩
  rename_i hmem
  rw [not_not] at hmem
  split at hok
  · cases hok
  · rename_i heap hfree
    cases hok
    refine ⟨fun extra j => ?_, fun _ => ?_⟩
    · have hheap := (RefHeap.free_inv hfree).2 j
      have herase := Custody.count_erase_add hmem j
      rw [State.owed_eq, State.owed_eq]
      simp only
      omega
    · have hpos := List.length_pos_of_mem hmem
      simp only [State.held, List.length_append, List.length_erase_of_mem hmem]
      omega

/-! ## New sessions -/

theorem install_inv {s s' : State} {ssl i : Nat} {old : SslSessions} {n : NewSession}
    (hssl : s.ssls[ssl]? = some (some old)) (hok : s.install ssl old n i = .ok s')
    (extra : List Nat) : ∀ j, s'.owed extra j = s.owed extra j := by
  unfold State.install at hok
  split at hok
  · cases hok
    exact fun _ => rfl
  split at hok
  · cases hok
  · rename_i heap hup
    intro j
    have hheap := (RefHeap.upRef_inv hup).2 j
    have hsession := replaceSession_inv (s := { s with heap }) hssl hok extra j
    rw [hsession, State.owed_eq, State.owed_eq]
    simp only [Option.toList_some, List.cons_append, List.nil_append, List.count_cons]
    grind

/-- The reference in hand is to the new session. -/
theorem establish_inv {s s' : State} {ssl : Nat} {n : NewSession}
    (hok : s.establish ssl n = .ok s') (extra : List Nat) :
    s.LiveSsl ssl ∧ ∀ j, s'.owed (s.heap.length :: extra) j = s.owed extra j := by
  unfold State.establish at hok
  split at hok
  · rename_i old hssl
    refine ⟨⟨old, hssl⟩, fun j => ?_⟩
    have hnew : State.owed { s with heap := s.heap.new n.session } (s.heap.length :: extra) j =
        s.owed extra j := by
      have hheap := RefHeap.count_new s.heap n.session j
      rw [State.owed_eq, State.owed_eq, List.count_cons]
      grind
    split at hok
    · cases hok
    rename_i s₁ hinstall
    have hinstalled := install_inv (s := { s with heap := s.heap.new n.session }) hssl hinstall
      (s.heap.length :: extra) j
    split at hok
    · rw [(store_inv hok).1, hinstalled, hnew]
    · cases hok
      rw [hinstalled, hnew]
  · cases hok

theorem established_moves {s s' : State} {ssl : Nat} {n : NewSession} {cb : NewCallback}
    (hok : established b ssl n cb s = .ok s') (extra : List Nat) :
    Moves (Obeys b s (.established ssl n cb)) (s.owed extra) (s'.owed extra) := by
  unfold established at hok
  split at hok
  · cases hok
  rename_i s₁ hestablish
  obtain ⟨hlive, howed⟩ := establish_inv hestablish extra
  have hfirst : Moves True (s.owed extra) (s₁.owed (s.heap.length :: extra)) :=
    .of_eq trivial howed
  split at hok
  · -- A session that the mode does not cover is not offered.
    rename_i hcaches
    have hobeys : Obeys b s (.established ssl n cb) :=
      ⟨hlive, fun h => by simp [h] at hcaches⟩
    refine (hfirst.trans (.of_eq trivial (drop_inv hok extra))).congr ?_
    exact iff_of_true ⟨trivial, trivial⟩ hobeys
  rename_i hcaches
  have hobeys : cb.Obeys b s₁ ↔ Obeys b s (.established ssl n cb) := by
    simp [Obeys, Machine.Sat, hlive, hestablish, (by simpa using hcaches : s.caches n = true)]
  split at hok
  · cases hok
  · -- Java keeps the reference.
    rename_i s₂ hcb
    cases hok
    have hcallback := (tcnNewSessionCb_inv hcb (s.heap.length :: extra)).1
    refine ((hfirst.trans hcallback).trans (.of_eq trivial fun j => ?_)).congr ?_
    · rw [State.owed_eq, State.owed_eq]
      simp only [List.count_cons]
      omega
    · simpa using hobeys
  · rename_i s₂ hcb
    have hcallback := (tcnNewSessionCb_inv hcb (s.heap.length :: extra)).1
    refine ((hfirst.trans hcallback).trans (.of_eq trivial (drop_inv hok extra))).congr ?_
    simpa using hobeys

/-! ## Resumption -/

/-- The reference in hand is the library's to give up. -/
theorem resume_inv {s s' : State} {ssl i : Nat} {old : SslSessions} {res : Resumption}
    (hssl : s.ssls[ssl]? = some (some old)) (hok : s.resume ssl old res i = .ok s')
    (extra : List Nat) : ∀ j, s'.owed extra j = s.owed (i :: extra) j := by
  unfold State.resume at hok
  split at hok
  · exact replaceSession_inv hssl hok extra
  · exact drop_inv hok extra

theorem lookup_moves {s s' : State} {ssl : Nat} {hit : Option Nat} {cb : GetCallback}
    {res : Resumption} (hok : lookup b ssl hit cb res s = .ok s') (extra : List Nat) :
    Moves (Obeys b s (.lookup ssl hit cb res)) (s.owed extra) (s'.owed extra) := by
  unfold lookup at hok
  split at hok
  · rename_i old hssl
    split at hok
    · -- The library takes a reference to a session of its own cache.
      rename_i i hhit
      split at hok
      · cases hok
      rename_i heap hup
      have hobeys : Obeys b s (.lookup ssl hit cb res) :=
        ⟨⟨old, hssl⟩, fun hnone => by cases hnone.symm.trans hhit⟩
      refine .of_eq hobeys fun j => ?_
      have hheap := (RefHeap.upRef_inv hup).2 j
      rw [resume_inv (s := { s with heap }) hssl hok extra j, State.owed_eq, State.owed_eq,
        List.count_cons]
      grind
    rename_i hmiss
    have hobeys : cb.Obeys b s ↔ Obeys b s (.lookup ssl hit cb res) :=
      ⟨fun h => ⟨⟨old, hssl⟩, fun _ => h⟩, fun h => h.2 hmiss⟩
    split at hok
    · cases hok
    · rename_i s₁ hcb
      cases hok
      exact (tcnGetSessionCb_inv hcb extra).1.congr hobeys
    · rename_i i s₁ hcb
      obtain ⟨hcallback, hsame⟩ := tcnGetSessionCb_inv hcb extra
      split at hok
      · cases hok
      split at hok
      · cases hok
      rename_i s₂ hstore
      obtain ⟨hstored, hssls⟩ := store_inv hstore
      have hssl₂ : s₂.ssls[ssl]? = some (some old) := by
        rw [hssls, State.give, hsame.ssls, hssl]
      refine (hcallback.trans (.of_eq trivial fun j => ?_)).congr ?_
      · rw [resume_inv hssl₂ hok extra, hstored]
        rfl
      · rw [and_true, hobeys]
  · cases hok

theorem setSession_moves {s s' : State} {ssl : Nat} {session : Option Nat} {succeeds keeps : Bool}
    {r : JavaReply} (hok : setSession ssl session succeeds keeps s = .ok (r, s'))
    (extra : List Nat) :
    Moves (Obeys b s (.setSession ssl session succeeds keeps)) (s.owed extra) (s'.owed extra) := by
  unfold setSession at hok
  split at hok
  · rename_i old hssl
    split at hok
    · cases hok
      exact .of_eq ⟨⟨old, hssl⟩, by simp⟩ fun _ => rfl
    rename_i i
    split at hok
    · split at hok
      · cases hok
      · rename_i v hget
        cases hok
        exact .of_eq ⟨⟨old, hssl⟩, by simpa using RefHeap.get_inv hget⟩ fun _ => rfl
    split at hok
    · cases hok
    rename_i heap hup
    obtain ⟨hpos, hcount⟩ := RefHeap.upRef_inv hup
    split at hok
    · cases hok
    · rename_i s₁ hreplace
      cases hok
      refine .of_eq ⟨⟨old, hssl⟩, by simpa using hpos⟩ fun j => ?_
      have hsession := replaceSession_inv (s := { s with heap }) hssl hreplace extra j
      have hheap := hcount j
      rw [hsession, State.owed_eq, State.owed_eq]
      simp only [Option.toList_some, List.cons_append, List.nil_append, List.count_cons]
      grind
  · cases hok

/-! ## Steps that obey the rules -/

theorem count_refs_le {s : State} {ssl : Nat} {old : SslSessions}
    (hssl : s.ssls[ssl]? = some (some old)) (j : Nat) : old.refs.count j ≤ s.held.count j := by
  have hset := Custody.count_flatMap_set (f := sslRefs) hssl none j
  simp only [sslRefs, Option.elim_some, Option.elim_none, List.count_nil] at hset
  rw [State.held, List.count_append]
  omega

theorem mem_held_of_ssl {s : State} {ssl : Nat} {old : SslSessions}
    (hssl : s.ssls[ssl]? = some (some old)) : ∀ i ∈ old.refs, i ∈ s.held := by
  intro i hi
  have hle := count_refs_le hssl i
  have hpos := List.count_pos_iff.mpr hi
  exact List.count_pos_iff.mp (by omega)

theorem SslSessions.mem_refs {sessions : SslSessions} : ∀ i ∈ sessions.session, i ∈ sessions.refs :=
  fun _ hi => List.mem_append_left _ (Option.mem_toList.mpr hi)

theorem replaceSession_ok {s : State} {old : SslSessions}
    (hpos : ∀ i ∈ old.session, 0 < s.heap.count i) (keeps : Bool) (ssl : Nat)
    (session : Option Nat) : ∃ s', s.replaceSession keeps ssl old session = .ok s' := by
  unfold State.replaceSession
  split
  · exact ⟨_, rfl⟩
  · obtain ⟨heap, hfree⟩ := RefHeap.freeOpt_ok hpos
    exact ⟨_, by rw [hfree]⟩

theorem freeSsl_ok {s : State} (hs : Balanced s.heap.count s.held) {ssl : Nat}
    (hlive : s.LiveSsl ssl) : ∃ s', s.freeSsl ssl = .ok s' := by
  obtain ⟨old, hssl⟩ := hlive
  have hle : ∀ j, old.refs.count j ≤ s.heap.count j := by
    intro j
    rw [hs j]
    exact count_refs_le hssl j
  obtain ⟨heap, hfree⟩ := RefHeap.freeAll_ok hle
  exact ⟨{ s with heap, ssls := s.ssls.set ssl none },
    by simp only [State.freeSsl, hssl, hfree]⟩

theorem refer_ok {s : State} (hs : Balanced s.heap.count s.held) {ssl : Nat}
    (hlive : s.LiveSsl ssl) : ∃ s', s.refer ssl = .ok s' := by
  obtain ⟨⟨session, others⟩, hssl⟩ := hlive
  cases session with
  | none => exact ⟨s, by simp only [State.refer, hssl]⟩
  | some i =>
    obtain ⟨heap, hup⟩ := RefHeap.upRef_ok
      (hs.pos (mem_held_of_ssl hssl i (SslSessions.mem_refs i rfl)))
    exact ⟨_, by simp only [State.refer, hssl, hup]; rfl⟩

theorem letGo_ok {s : State} (hs : Balanced s.heap.count s.held) {ssl : Nat}
    (hlive : s.LiveSsl ssl) (i : Nat) : ∃ s', s.letGo ssl i = .ok s' := by
  obtain ⟨⟨session, others⟩, hssl⟩ := hlive
  simp only [State.letGo, hssl]
  split
  · exact ⟨_, rfl⟩
  · rename_i hmem
    rw [not_not] at hmem
    obtain ⟨heap, hfree⟩ := RefHeap.free_ok
      (hs.pos (mem_held_of_ssl hssl i (List.mem_append_right _ hmem)))
    exact ⟨_, by rw [hfree]⟩

theorem removeSession_ok {s : State} (hs : Balanced s.heap.count s.held) (i : Nat) :
    ∃ s', s.removeSession i = .ok s' := by
  unfold State.removeSession
  split
  · exact ⟨_, rfl⟩
  · rename_i hmem
    rw [not_not] at hmem
    obtain ⟨heap, hfree⟩ := RefHeap.free_ok
      (hs.pos (List.mem_append_right _ (List.mem_append_left _ hmem)))
    exact ⟨_, by rw [hfree]⟩

theorem store_ok {s : State} {i : Nat} (hpos : 0 < s.heap.count i) (adds : Bool) :
    ∃ s', s.store adds i = .ok s' := by
  unfold State.store State.sslCtxAddSession
  split
  · exact ⟨_, rfl⟩
  · obtain ⟨heap, hup⟩ := RefHeap.upRef_ok hpos
    exact ⟨_, by rw [hup]⟩

theorem drop_ok {s : State} {i : Nat} (hpos : 0 < s.heap.count i) : ∃ s', s.drop i = .ok s' := by
  obtain ⟨heap, hfree⟩ := RefHeap.free_ok hpos
  exact ⟨{ s with heap }, by simp only [State.drop, hfree]⟩

/-- Behind a step the counts are in balance with what is in hand. -/
theorem balanced_of_owed {s s' : State} (extra : List Nat) {extra' : List Nat}
    (howed : ∀ j, s'.owed extra' j = s.owed extra j) (hs : Balanced s.heap.count (extra ++ s.held)) :
    Balanced s'.heap.count (extra' ++ s'.held) :=
  (Moves.of_eq (p := True) trivial howed).balanced trivial hs

/-- What is in hand is not freed. -/
theorem pos_of_inHand {s : State} {i : Nat} (hs : Balanced s.heap.count ([i] ++ s.held)) :
    0 < s.heap.count i :=
  hs.pos (List.mem_append_left _ (List.mem_singleton_self i))

theorem install_ok {s : State} {i : Nat} (hs : Balanced s.heap.count ([i] ++ s.held)) {ssl : Nat}
    {old : SslSessions} (hssl : s.ssls[ssl]? = some (some old)) (n : NewSession) :
    ∃ s', s.install ssl old n i = .ok s' := by
  unfold State.install
  split
  · exact ⟨_, rfl⟩
  · obtain ⟨heap, hup⟩ := RefHeap.upRef_ok (pos_of_inHand hs)
    have hold : ∀ j ∈ old.session, 0 < heap.count j := fun j hj => by
      have hlive := hs.pos
        (List.mem_append_right _ (mem_held_of_ssl hssl j (SslSessions.mem_refs j hj)))
      rw [(RefHeap.upRef_inv hup).2 j]
      omega
    rw [hup]
    exact replaceSession_ok (s := { s with heap }) hold n.keeps ssl (some i)

theorem establish_ok {s : State} (hs : Balanced s.heap.count s.held) {ssl : Nat}
    (hlive : s.LiveSsl ssl) (n : NewSession) : ∃ s', s.establish ssl n = .ok s' := by
  obtain ⟨old, hssl⟩ := hlive
  -- The new session is in hand.
  have hnew : Balanced (s.heap.new n.session).count ([s.heap.length] ++ s.held) := fun j => by
    rw [RefHeap.count_new, hs j, List.count_append, List.count_singleton]
    grind
  obtain ⟨s₁, hinstall⟩ := install_ok (s := { s with heap := s.heap.new n.session }) hnew hssl n
  have hs₁ : Balanced s₁.heap.count ([s.heap.length] ++ s₁.held) :=
    balanced_of_owed (s := { s with heap := s.heap.new n.session }) [s.heap.length]
      (install_inv (s := { s with heap := s.heap.new n.session }) hssl hinstall [s.heap.length])
      hnew
  simp only [State.establish, hssl, hinstall]
  split
  · exact store_ok (pos_of_inHand hs₁) n.adds
  · exact ⟨_, rfl⟩

theorem established_ok {s : State} (hs : Balanced s.heap.count s.held) {ssl : Nat}
    {n : NewSession} {cb : NewCallback} (hobeys : Obeys b s (.established ssl n cb)) :
    ∃ s', established b ssl n cb s = .ok s' := by
  obtain ⟨hlive, hcb⟩ := hobeys
  obtain ⟨s₁, hestablish⟩ := establish_ok hs hlive n
  have hs₁ : Balanced s₁.heap.count ([s.heap.length] ++ s₁.held) :=
    balanced_of_owed [] (establish_inv hestablish []).2 hs
  simp only [established, hestablish]
  split
  · exact drop_ok (pos_of_inHand hs₁)
  · rename_i hcaches
    have hcb := hcb (by simpa using hcaches)
    rw [hestablish] at hcb
    obtain ⟨r, s₂, hcallback⟩ := tcnNewSessionCb_ok hs₁ hcb
    rw [hcallback]
    cases r with
    | true => exact ⟨_, rfl⟩
    | false =>
      have hs₂ := (tcnNewSessionCb_inv hcallback [s.heap.length]).1.balanced hcb hs₁
      exact drop_ok (pos_of_inHand hs₂)

theorem resume_ok {s : State} {i : Nat} (hs : Balanced s.heap.count ([i] ++ s.held)) {ssl : Nat}
    {old : SslSessions} (hssl : s.ssls[ssl]? = some (some old)) (res : Resumption) :
    ∃ s', s.resume ssl old res i = .ok s' := by
  unfold State.resume
  split
  · exact replaceSession_ok (fun j hj => hs.pos
      (List.mem_append_right _ (mem_held_of_ssl hssl j (SslSessions.mem_refs j hj)))) res.keeps ssl
      (some i)
  · exact drop_ok (pos_of_inHand hs)

theorem lookup_ok {s : State} (hs : Balanced s.heap.count s.held) {ssl : Nat} {hit : Option Nat}
    {cb : GetCallback} {res : Resumption} (hobeys : Obeys b s (.lookup ssl hit cb res)) :
    ∃ s', lookup b ssl hit cb res s = .ok s' := by
  obtain ⟨⟨old, hssl⟩, hcb⟩ := hobeys
  simp only [lookup, hssl]
  cases hhit : hit.filter s.stores with
  | some i =>
    have hstored : i ∈ s.stored := by
      have hstores := (Option.filter_eq_some_iff.mp hhit).2
      simpa [State.stores] using (Bool.and_eq_true_iff.mp hstores).2
    obtain ⟨heap, hup⟩ := RefHeap.upRef_ok
      (hs.pos (List.mem_append_right _ (List.mem_append_left _ hstored)))
    have hs₁ : Balanced heap.count ([i] ++ s.held) := fun j => by
      rw [(RefHeap.upRef_inv hup).2 j, hs j, List.count_append, List.count_singleton]
      grind
    simp only [hup]
    exact resume_ok (s := { s with heap }) hs₁ hssl res
  | none =>
    have hcb := hcb hhit
    obtain ⟨found, s₁, hcallback⟩ := tcnGetSessionCb_ok [] hs hcb
    obtain ⟨hmoves, hsame⟩ := tcnGetSessionCb_inv hcallback []
    simp only [hcallback]
    cases found with
    | none => exact ⟨_, rfl⟩
    | some i =>
      have hs₁ : Balanced (s₁.give i).heap.count ([i] ++ (s₁.give i).held) :=
        hmoves.balanced hcb hs
      obtain ⟨v, hget⟩ := RefHeap.get_ok (pos_of_inHand hs₁)
      obtain ⟨s₂, hstore⟩ := store_ok (pos_of_inHand hs₁) res.adds
      obtain ⟨hstored, hssls⟩ := store_inv hstore
      have hssl₂ : s₂.ssls[ssl]? = some (some old) := by
        rw [hssls, State.give, hsame.ssls, hssl]
      have hget : s₁.heap.get i = .ok v := hget
      simp only [hget, hstore]
      exact resume_ok (balanced_of_owed [i] (hstored [i]) hs₁) hssl₂ res

theorem setSession_ok {s : State} (hs : Balanced s.heap.count s.held) {ssl : Nat}
    {session : Option Nat} {succeeds keeps : Bool}
    (hobeys : Obeys b s (.setSession ssl session succeeds keeps)) :
    ∃ r s', setSession ssl session succeeds keeps s = .ok (r, s') := by
  obtain ⟨⟨old, hssl⟩, hpos⟩ := hobeys
  simp only [setSession, hssl]
  split
  · exact ⟨_, _, rfl⟩
  rename_i i
  split
  · obtain ⟨v, hget⟩ := RefHeap.get_ok (hpos i rfl)
    exact ⟨.ok (.boolean false), s, by simp only [hget]⟩
  · obtain ⟨heap, hup⟩ := RefHeap.upRef_ok (hpos i rfl)
    have hold : ∀ j ∈ old.session, 0 < heap.count j := fun j hj => by
      have hlive := hs.pos (mem_held_of_ssl hssl j (SslSessions.mem_refs j hj))
      rw [(RefHeap.upRef_inv hup).2 j]
      omega
    obtain ⟨s', hreplace⟩ := replaceSession_ok (s := { s with heap }) hold keeps ssl (some i)
    exact ⟨.ok (.boolean true), s', by simp only [hup, hreplace]⟩

/-! ## Runs -/

theorem internal_ok {x : Except Fault State} {r : JavaReply} {s' : State}
    (hok : internal x = .ok (r, s')) : x = .ok s' := by
  cases x with
  | error fault => cases hok
  | ok s =>
    cases hok
    rfl

theorem sessionStep_moves {s s' : State} {event : Event} {r : JavaReply}
    (hok : sessionStep b s event = .ok (r, s')) :
    Moves (Obeys b s event) (s.owed []) (s'.owed []) := by
  cases event with
  | setSSLSessionCache cache =>
    cases hok
    exact .of_eq trivial fun _ => rfl
  | setSessionCacheMode mode =>
    cases hok
    exact .of_eq trivial fun _ => rfl
  | setSessionCacheSize size =>
    cases hok
    refine .of_eq trivial fun _ => ?_
    unfold setSessionCacheSize
    split <;> rfl
  | newSSL =>
    cases hok
    refine .of_eq trivial fun j => ?_
    rw [State.owed_eq, State.owed_eq]
    simp [State.newSsl, sslRefs, SslSessions.refs]
  | freeSSL ssl =>
    obtain ⟨hlive, howed, -⟩ := freeSsl_inv (internal_ok hok)
    exact .of_eq hlive (howed [])
  | established ssl n cb => exact established_moves (internal_ok hok) []
  | lookup ssl hit cb res => exact lookup_moves (internal_ok hok) []
  | refer ssl =>
    obtain ⟨hlive, howed⟩ := refer_inv (internal_ok hok)
    exact .of_eq hlive (howed [])
  | letGo ssl i =>
    obtain ⟨hlive, howed⟩ := letGo_inv (internal_ok hok)
    exact .of_eq hlive (howed [])
  | removeSession i => exact .of_eq trivial ((removeSession_inv (internal_ok hok)).1 [])
  | setSession ssl session succeeds keeps => exact setSession_moves hok []
  | getSession ssl =>
    simp only [sessionStep, getSession] at hok
    split at hok
    · rename_i sessions hssl
      cases hok
      exact .of_eq ⟨sessions, hssl⟩ fun _ => rfl
    · cases hok
  | java call =>
    have hinv := javaStep_inv (show javaStep b s call = .ok (r, s') from hok)
    exact hinv.1.moves hinv.2 []

theorem internal_eq {x : Except Fault State} {s' : State} (hok : x = .ok s') :
    ∃ r s', internal x = .ok (r, s') :=
  ⟨.ok .void, s', by rw [hok, internal]⟩

theorem sessionStep_ok {s : State} (hs : Balanced s.heap.count s.held) {event : Event}
    (hobeys : Obeys b s event) : ∃ r s', sessionStep b s event = .ok (r, s') := by
  cases event with
  | setSSLSessionCache cache => exact ⟨_, _, rfl⟩
  | setSessionCacheMode mode => exact ⟨_, _, rfl⟩
  | setSessionCacheSize size => exact ⟨_, _, rfl⟩
  | newSSL => exact ⟨_, _, rfl⟩
  | freeSSL ssl =>
    obtain ⟨s', hok⟩ := freeSsl_ok hs hobeys
    exact internal_eq hok
  | established ssl n cb =>
    obtain ⟨s', hok⟩ := established_ok hs hobeys
    exact internal_eq hok
  | lookup ssl hit cb res =>
    obtain ⟨s', hok⟩ := lookup_ok hs hobeys
    exact internal_eq hok
  | refer ssl =>
    obtain ⟨s', hok⟩ := refer_ok hs hobeys
    exact internal_eq hok
  | letGo ssl i =>
    obtain ⟨s', hok⟩ := letGo_ok hs hobeys i
    exact internal_eq hok
  | removeSession i =>
    obtain ⟨s', hok⟩ := removeSession_ok hs i
    exact internal_eq hok
  | setSession ssl session succeeds keeps => exact setSession_ok hs hobeys
  | getSession ssl =>
    obtain ⟨sessions, hssl⟩ := hobeys
    exact ⟨.ok (.long (sessions.session.elim (-1) fun i => i)), s,
      by simp only [sessionStep, getSession, hssl]⟩
  | java call => exact (javaStep_accounts b []).ok s call trivial hs hobeys

theorem sessionStep_accounts (b : Build) :
    Accounts (sessionStep b) (fun s => s.heap.count) State.held (fun _ => True) (Obeys b) where
  inv _ _ _ _ _ _ := trivial
  ok _ _ _ hs hobeys := sessionStep_ok hs hobeys
  moves _ _ _ _ hok := sessionStep_moves hok

/-- Somebody who holds a reference can give it up. -/
theorem sessionStep_releases {s : State} (hheld : s.held ≠ []) :
    ∃ event, Obeys b s event ∧
      ∀ r s', sessionStep b s event = .ok (r, s') → s'.held.length < s.held.length := by
  by_cases hjava : s.java = []
  · by_cases hstored : s.stored = []
    · have hssls : s.ssls.flatMap sslRefs ≠ [] := by simpa [State.held, hjava, hstored] using hheld
      obtain ⟨x, hx, hrefs⟩ : ∃ x ∈ s.ssls, sslRefs x ≠ [] := by
        by_contra hnone
        refine hssls (List.flatMap_eq_nil_iff.mpr fun x hx => ?_)
        by_contra hrefs
        exact hnone ⟨x, hx, hrefs⟩
      obtain ⟨ssl, hssl⟩ := List.getElem?_of_mem hx
      cases x with
      | none => exact absurd rfl hrefs
      | some sessions =>
        refine ⟨.freeSSL ssl, ⟨sessions, hssl⟩, fun r s' hok => ?_⟩
        obtain ⟨-, -, hset, hkept, hjava'⟩ := freeSsl_inv (internal_ok hok)
        have hless := Custody.length_flatMap_set (f := sslRefs) hssl none
        have hpos := List.length_pos_iff.mpr hrefs
        simp only [State.held, hset, hkept, hjava', List.length_append]
        rw [show sslRefs none = [] from rfl, List.length_nil] at hless
        omega
    · obtain ⟨i, stored, hcons⟩ := List.exists_cons_of_ne_nil hstored
      have hmem : i ∈ s.stored := hcons ▸ List.mem_cons_self
      exact ⟨.removeSession i, trivial, fun r s' hok => (removeSession_inv (internal_ok hok)).2 hmem⟩
  · obtain ⟨i, java, hcons⟩ := List.exists_cons_of_ne_nil hjava
    have hmem : i ∈ s.java := hcons ▸ List.mem_cons_self
    refine ⟨.java (.free (some i)), hmem, fun r s' hok => ?_⟩
    simp only [sessionStep, javaStep, free] at hok
    split at hok
    · cases hok
    · cases hok
      simp only [State.held, State.give, List.length_append, List.length_erase_of_mem hmem]
      have hpos := List.length_pos_of_mem hmem
      omega

/-- While no `SSL` is used after it was freed and Java keeps to the rules, no
session is used after it was freed, and each is freed exactly when neither an
`SSL` nor the `SSL_CTX` nor Java holds it any more. -/
theorem sessions_counted (b : Build) (events : List Event)
    (hobeys : Machine.Meets (sessionStep b) (Obeys b) .start events) :
    ∃ t s', Machine.run (sessionStep b) .start events = .ok (t, s') ∧
      ∀ x ∈ t, ∀ i, x.post.heap.count i = x.post.held.count i ∧
        (x.post.heap.count i = 0 ↔ i ∉ x.post.held) := by
  obtain ⟨t, s', hrun, -, hposts⟩ :=
    (sessionStep_accounts b).run_balanced trivial Custody.balanced_nil hobeys
  refine ⟨t, s', hrun, fun x hx i => ⟨(hposts x hx).2 i, ?_⟩⟩
  rw [(hposts x hx).2 i, List.count_eq_zero]

/-- A session that Java and the `SSL_CTX` keep. The `SSL_CTX` gives it up, Java hands it
out to a second connection, whereby it is stored again, and frees it when both
connections are gone. -/
def sharedSession : List Event :=
  [.newSSL, .setSSLSessionCache true, .setSessionCacheSize 0,
    .established 0 ⟨⟨[7], 0, 300, false⟩, true, true, false, true, true⟩
      ⟨true, [.getSessionId (some 0) true], some true⟩,
    .freeSSL 0, .removeSession 0, .newSSL,
    .lookup 1 (some 0) ⟨true, true, [.upRef (some 0) true], .session 0⟩ ⟨true, true, false⟩,
    .java (.free (some 0)), .refer 1, .freeSSL 1, .removeSession 0]

theorem sessions_counted_shared :
    ∃ t s', Machine.run (sessionStep ⟨.openssl, true⟩) .start sharedSession = .ok (t, s') ∧
      ∀ x ∈ t, ∀ i, x.post.heap.count i = x.post.held.count i ∧
        (x.post.heap.count i = 0 ↔ i ∉ x.post.held) :=
  sessions_counted ⟨.openssl, true⟩ sharedSession (by decide)

-- Without `SSL_SESSION_up_ref` the same cache breaks the rules.
example : ¬ Machine.Meets (sessionStep ⟨.openssl, false⟩) (Obeys ⟨.openssl, false⟩) .start
    sharedSession := by decide

/-- The rules are exact. They are kept throughout a run if and only if, from every
state of the run, all the holders can give up their references without a fault. -/
theorem sessions_closable_iff (b : Build) (events : List Event) :
    (∀ events₁, events₁ <+: events → ∃ t s', Machine.run (sessionStep b) .start events₁ = .ok (t, s') ∧
      Custody.Closable (sessionStep b) State.held s') ↔
    Machine.Meets (sessionStep b) (Obeys b) .start events :=
  (sessionStep_accounts b).closable_iff_meets (fun s => s.held.length)
    (fun _ _ _ hheld => sessionStep_releases hheld) trivial Custody.balanced_nil events

end Sessions
