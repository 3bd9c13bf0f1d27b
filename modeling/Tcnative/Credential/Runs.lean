-- SUMMARY: Runs of the credential API: what they keep, and which runs can be wound down.
import Tcnative.Credential.References
import Tcnative.Lifetime.Changes

/-!
# Runs of the credential API

A step does not fault if what it uses is alive. So the rules for Java are enough for
memory safety, and they are exact. Contexts and connections have their own account.
-/

namespace Credential
open CMem Jni Tls
open Custody (Balanced Accounts Moves)
open Lifetime (Build)

/-! ## Credentials of contexts and connections -/

section
variable {lives : Nat → Bool} {credentials credentials' : List (List Nat)} {h h' : Heap} {i k : Nat}

theorem count_kept_lost (lives : Nat → Bool) (credentials : List (List Nat)) (j : Nat) :
    (kept lives credentials).flatten.count j + (lost lives credentials).count j =
      credentials.flatten.count j := by
  induction credentials generalizing lives with
  | nil => rfl
  | cons cs credentials ih =>
    have hrest := ih fun i => lives (i + 1)
    simp only [kept, lost, List.mapIdx_cons, List.flatten_cons, List.count_append] at hrest ⊢
    split
    · rw [List.count_nil]
      omega
    · rw [List.count_nil]
      omega

theorem kept_getElem? (lives : Nat → Bool) (credentials : List (List Nat)) (i : Nat) :
    (kept lives credentials)[i]? = credentials[i]?.map fun cs => if lives i then cs else [] :=
  List.getElem?_mapIdx

theorem addCredential_inv (hok : addCredential h credentials i k = .ok (h', credentials')) :
    ∃ old, credentials[i]? = some old ∧ h.upRef k = .ok h' ∧
      credentials' = credentials.set i (old ++ [k]) := by
  unfold addCredential at hok
  split at hok
  · rename_i old h₁ hold hup
    cases hok
    exact ⟨old, hold, hup, rfl⟩
  · cases hok

theorem addCredential_ok (hi : i < credentials.length) (hk : 0 < h.count k) :
    ∃ h' credentials', addCredential h credentials i k = .ok (h', credentials') := by
  obtain ⟨h', hup⟩ := RefHeap.upRef_ok hk
  exact ⟨h', credentials.set i (credentials[i] ++ [k]), by
    simp only [addCredential, List.getElem?_eq_getElem hi, hup]⟩

/-- The credentials at one position change. -/
theorem count_flatten_set {old : List Nat} (hi : credentials[i]? = some old) (new : List Nat)
    (j : Nat) :
    (credentials.set i new).flatten.count j + old.count j =
      credentials.flatten.count j + new.count j := by
  have hset := Custody.count_flatMap_set (f := id) hi new j
  simpa only [List.flatMap_id, id_eq] using hset

/-- One credential more. -/
theorem count_addCredential {old : List Nat} (hi : credentials[i]? = some old) (j : Nat) :
    (credentials.set i (old ++ [k])).flatten.count j =
      credentials.flatten.count j + [k].count j := by
  have hset := count_flatten_set hi (old ++ [k]) j
  rw [List.count_append] at hset
  omega

theorem mem_flatten_set {new : List Nat} {j : Nat} (hj : j ∈ (credentials.set i new).flatten) :
    j ∈ credentials.flatten ∨ j ∈ new := by
  obtain ⟨cs, hcs, hj⟩ := List.mem_flatten.mp hj
  rcases List.mem_or_eq_of_mem_set hcs with hold | heq
  · exact .inl (List.mem_flatten.mpr ⟨cs, hold, hj⟩)
  · exact .inr (heq ▸ hj)

theorem mem_addCredential {old : List Nat} {j : Nat} (hi : credentials[i]? = some old)
    (hj : j ∈ (credentials.set i (old ++ [k])).flatten) : j ∈ credentials.flatten ∨ j = k := by
  rcases mem_flatten_set hj with hold | hnew
  · exact .inl hold
  rcases List.mem_append.mp hnew with hold | hnew
  · exact .inl (List.mem_flatten.mpr ⟨old, List.mem_of_getElem? hi, hold⟩)
  · exact .inr (List.mem_singleton.mp hnew)

end

/-! ## Steps -/

section
variable {b : Build} {s s' : State} {i : Nat} {o : Object} {r : Reply} {obeys : Prop}

/-- What is owed of the objects. -/
abbrev State.owes (s : State) : Nat → Int :=
  Custody.owed s.heap.count (s.holders ++ s.heap.edges Object.refs)

theorem State.owes_eq (s : State) (j : Nat) :
    s.owes j = s.holders.count j - s.heap.outside Object.refs j := by
  simp only [State.owes, Custody.owed, List.count_append, RefHeap.outside]
  omega

/-- What Java can own. -/
def Owned (b : Build) (shape : Shape) : Prop :=
  shape = .privateKey ∨ shape = .chain ∨ (shape = .credential ∧ b.library = .boringssl)

/-- What is held is of the right kind, and what is freed has no credentials. -/
structure Inv (b : Build) (s : State) : Prop where
  typed : Typed s.heap.values
  java : ∀ i ∈ s.java, ∃ shape, Owned b shape ∧ shapeAt s.heap.values i = some shape
  credentials : ∀ k ∈ s.credentials, shapeAt s.heap.values k = some .credential
  ctxs : s.ctxCredentials.length = s.connections.sslCtxs.length
  ssls : s.sslCredentials.length = s.connections.ssls.length
  selected : s.selected.length = s.connections.ssls.length
  ctxLives : ∀ i cs, s.ctxCredentials[i]? = some cs → cs ≠ [] → 0 < s.connections.sslCtxs.count i
  sslLives : ∀ i cs, s.sslCredentials[i]? = some cs → cs ≠ [] → 0 < s.connections.ssls.count i
  selectedLives : ∀ i cs, s.selected[i]? = some cs → cs ≠ [] → 0 < s.connections.ssls.count i

theorem inv_start (b : Build) : Inv b .start where
  typed := by simp [Typed, State.start, RefHeap.values]
  java := by simp [State.start]
  credentials := by simp [State.start, State.credentials]
  ctxs := rfl
  ssls := rfl
  selected := rfl
  ctxLives := by simp [State.start]
  sslLives := by simp [State.start]
  selectedLives := by simp [State.start]

/-- Objects are created and change, and Java gets or frees some. -/
theorem Inv.grow (hinv : Inv b s) {h : Heap} {java : List Nat} (hg : Grows s.heap.values h.values)
    (hjava : ∀ i ∈ java, i ∈ s.java ∨ ∃ shape, Owned b shape ∧ shapeAt h.values i = some shape) :
    Inv b { s with heap := h, java } where
  typed := hg.typed hinv.typed
  java i hi := by
    rcases hjava i hi with hold | hnew
    · obtain ⟨shape, howned, hshape⟩ := hinv.java i hold
      exact ⟨shape, howned, hg.shapes i shape hshape⟩
    · exact hnew
  credentials k hk := hg.shapes k _ (hinv.credentials k hk)
  ctxs := hinv.ctxs
  ssls := hinv.ssls
  selected := hinv.selected
  ctxLives := hinv.ctxLives
  sslLives := hinv.sslLives
  selectedLives := hinv.selectedLives

/-- What a step does with objects: others hold what is in hand afterwards, and have given up
what was in hand before. -/
structure Passes (s s' : State) (before after : List Nat) : Prop where
  takes : Takes s.heap s'.heap before after
  holders : ∀ j, s'.holders.count j + before.count j = s.holders.count j + after.count j

theorem Passes.moves {before after : List Nat} (hp : Passes s s' before after) (hobeys : obeys) :
    Moves obeys s.owes s'.owes := by
  refine .of_eq hobeys fun j => ?_
  have hout := hp.takes.outside j
  have hholders := hp.holders j
  rw [State.owes_eq, State.owes_eq]
  omega

/-- What a step does that leaves contexts and connections alone and does not fault: it leaves
who holds what, hands out an object, frees one for Java, adds a credential, or has another
one selected. -/
inductive Effect (b : Build) (s s' : State) (obeys : Prop) : Prop where
  | kept (h : Heap) (takes : Takes s.heap h [] []) (eq : s' = { s with heap := h })
      (hobeys : obeys)
  | took (h : Heap) (i : Nat) (takes : Takes s.heap h [] [i])
      (eq : s' = { s with heap := h, java := i :: s.java })
      (shape : ∃ shape, Owned b shape ∧ shapeAt h.values i = some shape) (hobeys : obeys)
  | gave (h : Heap) (i : Nat) (takes : Takes s.heap h [i] [])
      (eq : s' = { s with heap := h, java := s.java.erase i }) (hobeys : obeys ↔ i ∈ s.java)
  | toSsl (h : Heap) (i k : Nat) (old : List Nat) (takes : Takes s.heap h [] [k])
      (shape : shapeAt h.values k = some .credential) (lives : 0 < s.connections.ssls.count i)
      (position : s.sslCredentials[i]? = some old)
      (eq : s' = { s with heap := h, sslCredentials := s.sslCredentials.set i (old ++ [k]) })
      (hobeys : obeys)
  | toCtx (h : Heap) (i k : Nat) (old : List Nat) (takes : Takes s.heap h [] [k])
      (shape : shapeAt h.values k = some .credential) (lives : 0 < s.connections.sslCtxs.count i)
      (position : s.ctxCredentials[i]? = some old)
      (eq : s' = { s with heap := h, ctxCredentials := s.ctxCredentials.set i (old ++ [k]) })
      (hobeys : obeys)
  | selects (h : Heap) (i : Nat) (old new : List Nat) (takes : Takes s.heap h old new)
      (own : ∀ k ∈ new, k ∈ s.sslCredentials.flatten) (lives : 0 < s.connections.ssls.count i)
      (position : s.selected[i]? = some old)
      (eq : s' = { s with heap := h, selected := s.selected.set i new }) (hobeys : obeys)

theorem Effect.congr {p q : Prop} (he : Effect b s s' p) (hpq : p ↔ q) : Effect b s s' q := by
  cases he with
  | kept h takes eq hp => exact .kept h takes eq (hpq.mp hp)
  | took h i takes eq shape hp => exact .took h i takes eq shape (hpq.mp hp)
  | gave h i takes eq hp => exact .gave h i takes eq (hpq.symm.trans hp)
  | toSsl h i k old takes shape lives position eq hp =>
    exact .toSsl h i k old takes shape lives position eq (hpq.mp hp)
  | toCtx h i k old takes shape lives position eq hp =>
    exact .toCtx h i k old takes shape lives position eq (hpq.mp hp)
  | selects h i old new takes own lives position eq hp =>
    exact .selects h i old new takes own lives position eq (hpq.mp hp)

theorem Effect.connections (he : Effect b s s' obeys) : s'.connections = s.connections := by
  cases he with
  | _ => simp only [*]

/-- The credentials change of one that lives. -/
theorem forall_set_credentials {credentials : List (List Nat)} {new cs : List Nat} {j : Nat}
    {P : Nat → Prop} (hall : ∀ i cs, credentials[i]? = some cs → cs ≠ [] → P i) (hi : P i)
    (hj : (credentials.set i new)[j]? = some cs) (hne : cs ≠ []) : P j := by
  rcases eq_or_ne i j with rfl | hij
  · exact hi
  · rw [List.getElem?_set_ne hij] at hj
    exact hall j cs hj hne

theorem Effect.inv (he : Effect b s s' obeys) (hinv : Inv b s) : Inv b s' := by
  cases he with
  | kept h takes eq hobeys =>
    subst eq
    exact hinv.grow takes.grows fun i hi => .inl hi
  | took h i takes eq shape hobeys =>
    subst eq
    refine hinv.grow takes.grows fun j hj => ?_
    rcases List.mem_cons.mp hj with rfl | hj
    · exact .inr shape
    · exact .inl hj
  | gave h i takes eq hobeys =>
    subst eq
    exact hinv.grow takes.grows fun j hj => .inl (List.mem_of_mem_erase hj)
  | toSsl h i k old takes shape lives position eq hobeys =>
    subst eq
    have hgrown := hinv.grow takes.grows fun i hi => .inl hi
    refine { hgrown with credentials := fun j hj => ?_, ssls := ?_, sslLives := ?_ }
    · simp only [State.credentials, List.mem_append] at hj
      rcases hj with hctx | hssl | hselected
      · exact hgrown.credentials j (by simp [State.credentials, hctx])
      · rcases mem_addCredential position hssl with hold | rfl
        · exact hgrown.credentials j (by simp [State.credentials, hold])
        · exact shape
      · exact hgrown.credentials j (by simp [State.credentials, hselected])
    · rw [List.length_set, hinv.ssls]
    · exact fun j cs hj hne => forall_set_credentials
        (P := fun i => 0 < s.connections.ssls.count i) hinv.sslLives lives hj hne
  | toCtx h i k old takes shape lives position eq hobeys =>
    subst eq
    have hgrown := hinv.grow takes.grows fun i hi => .inl hi
    refine { hgrown with credentials := fun j hj => ?_, ctxs := ?_, ctxLives := ?_ }
    · simp only [State.credentials, List.mem_append] at hj
      rcases hj with hctx | hssl | hselected
      · rcases mem_addCredential position hctx with hold | rfl
        · exact hgrown.credentials j (by simp [State.credentials, hold])
        · exact shape
      · exact hgrown.credentials j (by simp [State.credentials, hssl])
      · exact hgrown.credentials j (by simp [State.credentials, hselected])
    · rw [List.length_set, hinv.ctxs]
    · exact fun j cs hj hne => forall_set_credentials
        (P := fun i => 0 < s.connections.sslCtxs.count i) hinv.ctxLives lives hj hne
  | selects h i old new takes own lives position eq hobeys =>
    subst eq
    have hgrown := hinv.grow takes.grows fun i hi => .inl hi
    refine { hgrown with credentials := fun j hj => ?_, selected := ?_, selectedLives := ?_ }
    · simp only [State.credentials, List.mem_append] at hj
      rcases hj with hctx | hssl | hselected
      · exact hgrown.credentials j (by simp [State.credentials, hctx])
      · exact hgrown.credentials j (by simp [State.credentials, hssl])
      · rcases mem_flatten_set hselected with hold | hnew
        · exact hgrown.credentials j (by simp [State.credentials, hold])
        · exact hgrown.credentials j (by simp only [State.credentials, List.mem_append, own j hnew,
            true_or, or_true])
    · rw [List.length_set, hinv.selected]
    · exact fun j cs hj hne => forall_set_credentials
        (P := fun i => 0 < s.connections.ssls.count i) hinv.selectedLives lives hj hne

theorem Effect.moves (he : Effect b s s' obeys) : Moves obeys s.owes s'.owes := by
  cases he with
  | kept h takes eq hobeys =>
    subst eq
    exact Passes.moves ⟨takes, fun _ => rfl⟩ hobeys
  | took h i takes eq shape hobeys =>
    subst eq
    refine Passes.moves ⟨takes, fun j => ?_⟩ hobeys
    simp only [State.holders, State.credentials, List.count_append, List.count_cons, List.count_nil]
    omega
  | toSsl h i k old takes shape lives position eq hobeys =>
    subst eq
    refine Passes.moves ⟨takes, fun j => ?_⟩ hobeys
    have hcount := count_addCredential (k := k) position j
    simp only [State.holders, State.credentials, List.count_append, List.count_nil] at hcount ⊢
    omega
  | toCtx h i k old takes shape lives position eq hobeys =>
    subst eq
    refine Passes.moves ⟨takes, fun j => ?_⟩ hobeys
    have hcount := count_addCredential (k := k) position j
    simp only [State.holders, State.credentials, List.count_append, List.count_nil] at hcount ⊢
    omega
  | selects h i old new takes own lives position eq hobeys =>
    subst eq
    refine Passes.moves ⟨takes, fun j => ?_⟩ hobeys
    have hcount := count_flatten_set position new j
    simp only [State.holders, State.credentials, List.count_append]
    omega
  | gave h i takes eq hobeys =>
    subst eq
    have hgiven : ∀ j, h.outside Object.refs j + [i].count j = s.heap.outside Object.refs j := by
      intro j
      have hout := takes.outside j
      rw [List.count_nil] at hout
      omega
    have hself : [i].count i = 1 := List.count_singleton_self
    refine Moves.congr ⟨fun hmem j => ?_, fun j => ?_, fun hmem => ⟨i, ?_⟩⟩ hobeys.symm
    · have hj := hgiven j
      have hjava := Custody.count_erase_add hmem j
      have hcount : [i].count j = if j = i then 1 else 0 := by
        rw [List.count_singleton]
        simp only [beq_iff_eq, eq_comm (a := i)]
      rw [State.owes_eq, State.owes_eq]
      simp only [State.holders, State.credentials, List.count_append]
      omega
    · have hj := hgiven j
      rw [State.owes_eq, State.owes_eq]
      simp only [State.holders, State.credentials, List.count_append]
      by_cases hmem : i ∈ s.java
      · have hjava := Custody.count_erase_add hmem j
        have hcount : [i].count j = if j = i then 1 else 0 := by
          rw [List.count_singleton]
          simp only [beq_iff_eq, eq_comm (a := i)]
        omega
      · rw [List.erase_of_not_mem hmem]
        omega
    · have hi := hgiven i
      rw [State.owes_eq, State.owes_eq]
      simp only [State.holders, State.credentials, List.count_append, List.erase_of_not_mem hmem]
      omega

theorem handOut_effect {h : Heap} (ht : Takes s.heap h [] o.refs)
    (ho : Typed h.values → ∀ p ∈ o.holds, shapeAt h.values p.1 = some p.2)
    (howned : Owned b o.shape) (hobeys : obeys) :
    Effect b s (State.handOut { s with heap := h } o).2 obeys := by
  refine .took (h.new o) h.length (ht.trans (new_takes h ho)) rfl ⟨o.shape, howned, ?_⟩ hobeys
  rw [shapeAt, (RefHeap.live_iff.mp (RefHeap.live_new_self h o)).1]
  rfl

theorem takeBack_inv {shape : Shape} (hok : s.takeBack i shape = .ok (r, s')) :
    Alive s.heap (i, shape) ∧ ∃ h, Takes s.heap h [i] [] ∧
      s' = { s with heap := h, java := s.java.erase i } := by
  simp only [State.takeBack] at hok
  obtain ⟨o, ho, hok⟩ := bind_ok hok
  obtain ⟨heap, hrelease, hok⟩ := bind_ok hok
  cases hok
  exact ⟨objectAt_inv ho, heap, release_takes hrelease, rfl⟩

theorem within_effect {f : Heap → Except Fault (Reply × Heap)} {uses : List (Nat × Shape)}
    (hf : ∀ r h', f s.heap = .ok (r, h') → Sets s.heap h' uses)
    (hok : s.within f = .ok (r, s')) :
    Effect b s s' (∀ p ∈ uses, Alive s.heap p) := by
  unfold State.within at hok
  split at hok
  · cases hok
  · rename_i heap hf'
    cases hok
    have hsets := hf _ heap hf'
    exact .kept heap hsets.takes rfl hsets.alive

/-- References are taken, and others given up. -/
theorem upRefs_drop_takes {h h' h'' : Heap} {new old : List Nat} (hup : h.upRefs new = .ok h')
    (hdrop : h'.drop Object.refs old = .ok h'') : Takes h h'' old new where
  outside j := by
    have hupj := (upRefs_takes hup).outside j
    have hdropj := RefHeap.outside_drop hdrop j
    rw [List.count_nil] at hupj
    omega
  grows := by
    rw [RefHeap.values_drop hdrop]
    exact (upRefs_takes hup).grows

theorem upRef_takes {h : Heap} (hup : s.heap.upRef i = .ok h) : Takes s.heap h [] [i] := by
  have hups : s.heap.upRefs [i] = .ok h := by simp only [RefHeap.upRefs, hup]
  exact upRefs_takes hups

/-- The connection and the credential are there. -/
theorem addToSsl_inv {k : Nat} {added : Bool} (hok : addToSsl (some i) (some k) added s = .ok (r, s')) :
    0 < s.connections.ssls.count i ∧ Alive s.heap (k, .credential) ∧ Effect b s s' True := by
  simp only [addToSsl] at hok
  obtain ⟨v, hssl, hok⟩ := bind_ok hok
  obtain ⟨c, hc, hok⟩ := bind_ok hok
  have hlives : 0 < s.connections.ssls.count i := by simp [(Arena.get_inv hssl).count_eq]
  have halive : Alive s.heap (k, .credential) := ⟨_, credentialAt_inv hc, rfl⟩
  refine ⟨hlives, halive, ?_⟩
  split at hok
  · obtain ⟨⟨h, credentials⟩, hadd, hok⟩ := bind_ok hok
    cases hok
    obtain ⟨old, hold, hup, rfl⟩ := addCredential_inv hadd
    have htakes := upRef_takes hup
    exact .toSsl h i k old htakes (htakes.grows.shapes k _ halive.shapeAt_eq) hlives hold rfl trivial
  · cases hok
    exact .kept s.heap (.refl _ _) rfl trivial

theorem ctxOf_inv {ctx : Nat} (hok : s.ctxOf ctx = .ok i) :
    (∃ v, s.connections.ctxts.Live ctx v ∧ v.ctx = i) ∧ 0 < s.connections.sslCtxs.count i := by
  unfold State.ctxOf at hok
  split at hok
  · cases hok
  rename_i v hctxt
  split at hok
  · cases hok
  rename_i w hctx
  cases hok
  exact ⟨⟨v, Arena.get_inv hctxt, rfl⟩, RefHeap.get_inv hctx⟩

/-- The context and the credential are there. -/
theorem addToCtx_inv {c k : Nat} {added : Bool} (hok : addToCtx (some c) (some k) added s = .ok (r, s')) :
    0 < s.connections.ctxts.count c ∧ Alive s.heap (k, .credential) ∧ Effect b s s' True := by
  simp only [addToCtx] at hok
  obtain ⟨i, hctx, hok⟩ := bind_ok hok
  obtain ⟨cred, hc, hok⟩ := bind_ok hok
  obtain ⟨⟨v, hlive, -⟩, hlives⟩ := ctxOf_inv hctx
  have halive : Alive s.heap (k, .credential) := ⟨_, credentialAt_inv hc, rfl⟩
  refine ⟨by simp [hlive.count_eq], halive, ?_⟩
  split at hok
  · obtain ⟨⟨h, credentials⟩, hadd, hok⟩ := bind_ok hok
    cases hok
    obtain ⟨old, hold, hup, rfl⟩ := addCredential_inv hadd
    have htakes := upRef_takes hup
    exact .toCtx h i k old htakes (htakes.grows.shapes k _ halive.shapeAt_eq) hlives hold rfl trivial
  · cases hok
    exact .kept s.heap (.refl _ _) rfl trivial

theorem getSelectedCredential_inv (hok : getSelectedCredential (some i) s = .ok (r, s')) :
    0 < s.connections.ssls.count i ∧ s' = s := by
  simp only [getSelectedCredential] at hok
  obtain ⟨v, hssl, hok⟩ := bind_ok hok
  cases hok
  exact ⟨by simp [(Arena.get_inv hssl).count_eq], rfl⟩

/-- The connection is there. -/
theorem handshake_inv {selection : Option Nat} (hok : handshake i selection s = .ok (r, s')) :
    0 < s.connections.ssls.count i ∧ Effect b s s' True := by
  unfold handshake at hok
  split at hok
  · cases hok
  rename_i v hssl
  have hlives : 0 < s.connections.ssls.count i := by simp [(Arena.get_inv hssl).count_eq]
  refine ⟨hlives, ?_⟩
  split at hok
  · rename_i credentials old hcredentials hold
    dsimp only at hok
    split at hok
    · cases hok
    rename_i h hup
    split at hok
    · cases hok
    rename_i heap hdrop
    cases hok
    have hnew : ∀ k ∈ (selection.bind fun k => credentials[k]?).toList,
        k ∈ s.sslCredentials.flatten := by
      intro k hk
      obtain ⟨n, -, hn⟩ := Option.bind_eq_some_iff.mp (Option.mem_toList.mp hk)
      exact List.mem_flatten.mpr
        ⟨credentials, List.mem_of_getElem? hcredentials, List.mem_of_getElem? hn⟩
    exact .selects heap i old _ (upRefs_drop_takes hup hdrop) hnew hlives hold rfl trivial
  · cases hok

theorem newBuffers_takes (certs : List (List Byte)) (h : Heap) :
    Takes h (newBuffers certs h).2 [] (newBuffers certs h).1 ∧
      ∀ j ∈ (newBuffers certs h).1, shapeAt (newBuffers certs h).2.values j = some .buffer := by
  induction certs generalizing h with
  | nil => exact ⟨.refl h [], by simp [newBuffers]⟩
  | cons bytes certs ih =>
    obtain ⟨htakes, hshapes⟩ := ih (h.new (.buffer bytes))
    have hnew : Takes h (h.new (.buffer bytes)) [] [h.length] := new_leaf_takes h rfl
    have hself : shapeAt (h.new (.buffer bytes)).values h.length = some .buffer := by
      rw [shapeAt, (RefHeap.live_iff.mp (RefHeap.live_new_self h _)).1]
      rfl
    simp only [newBuffers]
    constructor
    · refine ⟨fun j => ?_, hnew.grows.trans htakes.grows⟩
      have hfirst := hnew.outside j
      have hrest := htakes.outside j
      rw [List.count_nil] at hfirst hrest
      rw [← List.singleton_append, List.count_append, List.count_nil]
      omega
    · intro j hj
      rcases List.mem_cons.mp hj with rfl | hj
      · exact htakes.grows.shapes _ _ hself
      · exact hshapes j hj

/-- What a call of the API obeys. -/
abbrev Call.Obeys (b : Build) (s : State) (c : Call) : Prop :=
  (∀ p ∈ c.uses s.heap, Alive s.heap p) ∧ (∀ i ∈ Event.frees b (.call c), i ∈ s.java) ∧
    ∀ e ∈ c.connects, Lifetime.Obeys b s.connections e

theorem callStep_effect {c : Call} (hlib : b.library = .boringssl)
    (hok : callStep s c = .ok (r, s')) : Effect b s s' (c.Obeys b s) := by
  have hnone : c.uses s.heap = [] → Event.frees b (.call c) = none → c.connects = none →
      c.Obeys b s := fun huses hfrees hconnects => by simp [Call.Obeys, huses, hfrees, hconnects]
  -- A null pointer is refused, or there is nothing to do.
  have hkept : s' = s → c.uses s.heap = [] → Event.frees b (.call c) = none → c.connects = none →
      Effect b s s' (c.Obeys b s) := by
    rintro rfl huses hfrees hconnects
    exact .kept s'.heap (.refl _ _) rfl (hnone huses hfrees hconnects)
  have hnew : ∀ {kind : Kind}, s' = (s.handOut (.credential (.new kind))).2 →
      c.uses s.heap = [] → Event.frees b (.call c) = none → c.connects = none →
      Effect b s s' (c.Obeys b s) := by
    rintro kind rfl huses hfrees hconnects
    refine handOut_effect (h := s.heap) (.refl _ _) ?_ (.inr (.inr ⟨rfl, hlib⟩))
      (hnone huses hfrees hconnects)
    simp [Object.holds, SslCredential.new, BufferField.kept]
  -- Setters free nothing, and do nothing with connections.
  have hsets : ∀ {f : Heap → Except Fault (Reply × Heap)}, s.within f = .ok (r, s') →
      (∀ r h', f s.heap = .ok (r, h') → Sets s.heap h' (c.uses s.heap)) →
      Event.frees b (.call c) = none → c.connects = none → Effect b s s' (c.Obeys b s) := by
    intro f hok hf hfrees hconnects
    refine (within_effect hf hok).congr ?_
    simp [Call.Obeys, hfrees, hconnects]
  cases c with
  | newX509 created =>
    cases created with
    | false =>
      cases hok
      exact hkept rfl rfl rfl rfl
    | true =>
      cases hok
      exact hnew rfl rfl rfl rfl
  | newDelegated err =>
    cases err with
    | some err =>
      cases hok
      exact hkept rfl rfl rfl rfl
    | none =>
      cases hok
      exact hnew rfl rfl rfl rfl
  | upRef cred =>
    cases cred with
    | none =>
      cases hok
      exact hkept rfl rfl rfl rfl
    | some i =>
      simp only [callStep, upRef] at hok
      obtain ⟨c, hc, hok⟩ := bind_ok hok
      obtain ⟨heap, hup, hok⟩ := bind_ok hok
      cases hok
      have halive : Alive s.heap (i, .credential) := ⟨_, credentialAt_inv hc, rfl⟩
      have htakes := upRef_takes hup
      refine .took heap i htakes rfl ⟨.credential, .inr (.inr ⟨rfl, hlib⟩), ?_⟩ ?_
      · exact htakes.grows.shapes i _ halive.shapeAt_eq
      · simpa [Call.Obeys, Call.uses, Event.frees, Call.connects] using halive
  | free cred =>
    cases cred with
    | none =>
      cases hok
      exact hkept rfl rfl (by simp [Event.frees]) rfl
    | some i =>
      obtain ⟨halive, h, htakes, heq⟩ :=
        takeBack_inv (show s.takeBack i .credential = _ from hok)
      refine .gave h i htakes heq ?_
      simp [Call.Obeys, Call.uses, Event.frees, Call.connects, hlib, halive]
  | setPrivateKey cred key refused => exact hsets hok (fun _ _ => setPrivateKey_sets) rfl rfl
  | setCertChain cred stack malloc refused =>
    exact hsets hok (fun _ _ => setCertChain_sets) rfl rfl
  | setOcspResponse cred data calls => exact hsets hok (fun _ _ => setBuffer_sets) rfl rfl
  | setCertificateProperties cred data calls =>
    exact hsets hok (fun _ _ => setBuffer_sets) rfl rfl
  | setSignedCertTimestampList cred data calls =>
    exact hsets hok (fun _ _ => setBuffer_sets) rfl rfl
  | setDelegatedCredential cred data calls => exact hsets hok (fun _ _ => setBuffer_sets) rfl rfl
  | setSigningAlgorithmPrefs cred prefs malloc getElements refused =>
    exact hsets hok (fun _ _ => setSigningAlgorithmPrefs_sets) rfl rfl
  | setMustMatchIssuer cred mustMatch =>
    exact hsets hok (fun _ _ => setMustMatchIssuer_sets) rfl rfl
  | setTrustAnchorId cred id getElements refused =>
    exact hsets hok (fun _ _ => setTrustAnchorId_sets) rfl rfl
  | addToSsl ssl cred added =>
    rcases ssl with - | i
    · cases hok
      exact hkept rfl rfl rfl rfl
    rcases cred with - | k
    · cases hok
      exact hkept rfl rfl rfl rfl
    obtain ⟨hlives, halive, heffect⟩ := addToSsl_inv (b := b) hok
    refine heffect.congr ?_
    simpa [Call.Obeys, Call.uses, Event.frees, Call.connects, Lifetime.Obeys] using
      ⟨halive, hlives⟩
  | addToCtx ctx cred added =>
    rcases ctx with - | c
    · cases hok
      exact hkept rfl rfl rfl rfl
    rcases cred with - | k
    · cases hok
      exact hkept rfl rfl rfl rfl
    obtain ⟨hlives, halive, heffect⟩ := addToCtx_inv (b := b) hok
    refine heffect.congr ?_
    simpa [Call.Obeys, Call.uses, Event.frees, Call.connects, Lifetime.Obeys] using
      ⟨halive, hlives⟩
  | getSelectedCredential ssl =>
    cases ssl with
    | none =>
      cases hok
      exact hkept rfl rfl rfl rfl
    | some i =>
      obtain ⟨hlives, rfl⟩ := getSelectedCredential_inv hok
      refine .kept s'.heap (.refl _ _) rfl ?_
      simpa [Call.Obeys, Call.uses, Event.frees, Call.connects, Lifetime.Obeys] using hlives

/-! ## Contexts and connections change -/

/-- What a step of contexts and connections does with credentials. -/
theorem connect_inv {event : Lifetime.Event} (hok : connect b event s = .ok (r, s')) :
    ∃ reply h, Lifetime.lifetimeStep b s.connections event = .ok (reply, s'.connections) ∧
      s.heap.upRefs (s.inherited s'.connections).flatten = .ok h ∧
      h.drop Object.refs (s.givenUp s'.connections) = .ok s'.heap ∧ r = replyOf reply ∧
      s'.java = s.java ∧
      s'.ctxCredentials = kept (0 < s'.connections.sslCtxs.count ·) s.ctxCredentials ++
        List.replicate (s'.connections.sslCtxs.length - s.connections.sslCtxs.length) [] ∧
      s'.sslCredentials = kept (0 < s'.connections.ssls.count ·) s.sslCredentials ++
        s.inherited s'.connections ∧
      s'.selected = kept (0 < s'.connections.ssls.count ·) s.selected ++
        List.replicate (s'.connections.ssls.length - s.connections.ssls.length) [] := by
  unfold connect at hok
  split at hok
  · cases hok
  rename_i reply connections hstep
  split at hok
  · cases hok
  rename_i h hup
  split at hok
  · cases hok
  rename_i heap hdrop
  cases hok
  exact ⟨reply, h, hstep, hup, hdrop, rfl, rfl, rfl, rfl, rfl⟩

theorem connect_passes {event : Lifetime.Event} (hok : connect b event s = .ok (r, s')) :
    Passes s s' (s.givenUp s'.connections) (s.inherited s'.connections).flatten := by
  obtain ⟨reply, h, -, hup, hdrop, -, hjava, hctxs, hssls, hselected⟩ := connect_inv hok
  refine ⟨upRefs_drop_takes hup hdrop, fun j => ?_⟩
  -- What is not kept is given up, and what is new is inherited.
  have hctx := count_kept_lost (0 < s'.connections.sslCtxs.count ·) s.ctxCredentials j
  have hssl := count_kept_lost (0 < s'.connections.ssls.count ·) s.sslCredentials j
  have hold := count_kept_lost (0 < s'.connections.ssls.count ·) s.selected j
  simp only [State.holders, State.credentials, State.givenUp, hjava, hctxs, hssls, hselected,
    List.flatten_append, List.flatten_replicate_nil, List.count_append, List.count_nil]
  omega

theorem mem_inherited {connections : Lifetime.State} {cs : List Nat}
    (hmem : cs ∈ s.inherited connections) : cs = [] ∨ cs ∈ s.ctxCredentials := by
  obtain ⟨ssl, -, rfl⟩ := List.mem_map.mp hmem
  split
  · exact .inl rfl
  · cases hget : s.ctxCredentials[ssl.value.ctx]? with
    | none => exact .inl rfl
    | some cs => exact .inr (List.mem_of_getElem? hget)

theorem mem_flatten_inherited {connections : Lifetime.State} {k : Nat}
    (hk : k ∈ (s.inherited connections).flatten) : k ∈ s.ctxCredentials.flatten := by
  obtain ⟨cs, hcs, hk⟩ := List.mem_flatten.mp hk
  rcases mem_inherited hcs with rfl | hctx
  · cases hk
  · exact List.mem_flatten.mpr ⟨cs, hctx, hk⟩

theorem mem_flatten_kept {lives : Nat → Bool} {credentials : List (List Nat)} {k : Nat}
    (hk : k ∈ (kept lives credentials).flatten) : k ∈ credentials.flatten := by
  have hcount := count_kept_lost lives credentials k
  have hpos := List.count_pos_iff.mpr hk
  exact List.count_pos_iff.mp (by omega)

/-- What is kept is of one that lives. -/
theorem lives_of_kept {lives : Nat → Bool} {credentials : List (List Nat)} {cs : List Nat}
    (hi : (kept lives credentials)[i]? = some cs) (hne : cs ≠ []) : lives i = true := by
  rw [kept_getElem?] at hi
  obtain ⟨old, -, rfl⟩ := Option.map_eq_some_iff.mp hi
  by_contra hdead
  rw [if_neg hdead] at hne
  exact hne rfl

/-- What is new has nothing. -/
theorem lives_of_kept_append {lives : Nat → Bool} {credentials : List (List Nat)} {cs : List Nat}
    {n : Nat} (hi : (kept lives credentials ++ List.replicate n [])[i]? = some cs) (hne : cs ≠ []) :
    lives i = true := by
  rw [List.getElem?_append] at hi
  split at hi
  · exact lives_of_kept hi hne
  · exact absurd (List.eq_of_mem_replicate (List.mem_of_getElem? hi)) hne

/-- What is inherited is for one that lives. -/
theorem lives_of_inherited {connections : Lifetime.State} {cs : List Nat}
    (hi : (s.inherited connections)[i]? = some cs) (hne : cs ≠ []) :
    0 < connections.ssls.count (s.connections.ssls.length + i) := by
  simp only [State.inherited, List.getElem?_map, List.getElem?_drop] at hi
  obtain ⟨⟨v, released⟩, hget, rfl⟩ := Option.map_eq_some_iff.mp hi
  cases released with
  | true => exact absurd rfl hne
  | false => simp [(show connections.ssls.Live _ v from hget).count_eq]

theorem length_kept (lives : Nat → Bool) (credentials : List (List Nat)) :
    (kept lives credentials).length = credentials.length := List.length_mapIdx

theorem connect_keeps_inv {event : Lifetime.Event} (hinv : Inv b s)
    (hok : connect b event s = .ok (r, s')) : Inv b s' := by
  obtain ⟨reply, h, hstep, -, -, -, hjava, hctxs, hssls, hselected⟩ := connect_inv hok
  have hgrows := (connect_passes hok).takes.grows
  obtain ⟨hlectx, hlessl⟩ := (Lifetime.lifetimeStep_changes hstep).le
  refine ⟨hgrows.typed hinv.typed, fun i hi => ?_, fun k hk => ?_, ?_, ?_, ?_, fun i cs hi hne => ?_,
    fun i cs hi hne => ?_, fun i cs hi hne => ?_⟩
  · obtain ⟨shape, howned, hshape⟩ := hinv.java i (hjava ▸ hi)
    exact ⟨shape, howned, hgrows.shapes i shape hshape⟩
  · apply hgrows.shapes
    apply hinv.credentials
    simp only [State.credentials, hctxs, hssls, hselected, List.flatten_append,
      List.flatten_replicate_nil, List.append_nil, List.mem_append] at hk ⊢
    rcases hk with hctx | (hssl | hnew) | hold
    · exact .inl (mem_flatten_kept hctx)
    · exact .inr (.inl (mem_flatten_kept hssl))
    · exact .inl (mem_flatten_inherited hnew)
    · exact .inr (.inr (mem_flatten_kept hold))
  · rw [hctxs, List.length_append, length_kept, List.length_replicate, hinv.ctxs]
    omega
  · rw [hssls, List.length_append, length_kept, State.inherited, List.length_map, List.length_drop,
      hinv.ssls]
    omega
  · rw [hselected, List.length_append, length_kept, List.length_replicate, hinv.selected]
    omega
  · rw [hctxs] at hi
    simpa using lives_of_kept_append hi hne
  · rw [hssls, List.getElem?_append, length_kept] at hi
    split at hi
    · simpa using lives_of_kept hi hne
    · rename_i hge
      have hlives := lives_of_inherited hi hne
      rw [hinv.ssls] at hge hlives
      rwa [Nat.add_sub_cancel' (Nat.not_lt.mp hge)] at hlives
  · rw [hselected] at hi
    simpa using lives_of_kept_append hi hne

theorem sound_of_balanced (hb : Balanced s.heap.count (s.holders ++ s.heap.edges Object.refs)) :
    Sound s.heap := by
  intro j
  have hj := Custody.balanced_iff.mp hb j
  have heq := s.owes_eq j
  rw [State.owes] at heq
  omega

theorem outside_eq (hb : Balanced s.heap.count (s.holders ++ s.heap.edges Object.refs)) (j : Nat) :
    s.heap.outside Object.refs j = s.holders.count j := by
  have hj := Custody.balanced_iff.mp hb j
  have heq := s.owes_eq j
  rw [State.owes] at heq
  omega

theorem connect_ok {event : Lifetime.Event}
    (hb : Balanced s.heap.count (s.holders ++ s.heap.edges Object.refs))
    (hbs : Balanced s.connections.count s.connections.held)
    (hobeys : Lifetime.Obeys b s.connections event) :
    ∃ r s', connect b event s = .ok (r, s') := by
  obtain ⟨reply, connections, hstep⟩ := Lifetime.lifetimeStep_ok hbs hobeys
  -- The credentials of a context are there as long as it has them.
  have hpos : ∀ k ∈ (s.inherited connections).flatten, 0 < s.heap.count k := by
    intro k hk
    refine hb.pos (List.mem_append_left _ ?_)
    exact List.mem_append_right _ (List.mem_append_left _ (mem_flatten_inherited hk))
  obtain ⟨h, hup⟩ := RefHeap.upRefs_ok hpos
  have hheld : ∀ j, (s.givenUp connections).count j ≤ h.outside Object.refs j := by
    intro j
    have hout := RefHeap.outside_upRefs Object.refs hup j
    have hctx := count_kept_lost (0 < connections.sslCtxs.count ·) s.ctxCredentials j
    have hssl := count_kept_lost (0 < connections.ssls.count ·) s.sslCredentials j
    have hselected := count_kept_lost (0 < connections.ssls.count ·) s.selected j
    rw [outside_eq hb] at hout
    simp only [State.givenUp, State.holders, State.credentials, List.count_append] at hout ⊢
    omega
  obtain ⟨heap, hdrop⟩ := RefHeap.drop_ok hheld
  simp only [connect, hstep, hup, hdrop]
  exact ⟨_, _, rfl⟩

/-! ## Steps that obey the rules -/

/-- A step that leaves contexts and connections alone. -/
theorem credentialStep_effect {event : Event} (hok : credentialStep b s event = .ok (r, s'))
    (hevent : ∀ e, event ≠ .connect e) : Effect b s s' (Obeys b s event) := by
  -- A pointer that Java frees.
  have hfree : ∀ {i : Nat} {shape : Shape}, s.takeBack i shape = .ok (r, s') →
      event.uses b s.heap = [(i, shape)] → event.frees b = some i → event.connects b = none →
      Effect b s s' (Obeys b s event) := by
    intro i shape hok huses hfrees hconnects
    obtain ⟨halive, h, htakes, heq⟩ := takeBack_inv hok
    refine .gave h i htakes heq ⟨fun h => h.owned i hfrees, fun h => ⟨?_, ?_, ?_⟩⟩
    · simpa [huses] using halive
    · simpa [hfrees] using h
    · simp [hconnects]
  have hnone : event.uses b s.heap = [] → event.frees b = none → event.connects b = none →
      Obeys b s event :=
    fun huses hfrees hconnects => ⟨by simp [huses], by simp [hfrees], by simp [hconnects]⟩
  cases event with
  | call c =>
    simp only [credentialStep] at hok
    split at hok
    · rename_i hlib
      refine (callStep_effect hlib hok).congr ⟨fun h => ⟨?_, h.2.1, ?_⟩, fun h => ⟨?_, h.owned, ?_⟩⟩
      · simpa [Event.uses, hlib] using h.1
      · simpa [Event.connects, hlib] using h.2.2
      · simpa [Event.uses, hlib] using h.alive
      · simpa [Event.connects, hlib] using h.connects
    · rename_i hlib
      cases hok
      refine .kept s.heap (.refl _ _) rfl (hnone ?_ ?_ ?_)
      · simp [Event.uses, hlib]
      · cases c <;> simp [Event.frees, hlib]
      · simp [Event.connects, hlib]
  | parsePrivateKey =>
    cases hok
    exact handOut_effect (h := s.heap) (o := .privateKey) (.refl _ _) (by simp [Object.holds])
      (.inl rfl) (hnone rfl rfl rfl)
  | freePrivateKey key => exact hfree hok rfl rfl rfl
  | parseX509Chain certs =>
    obtain ⟨htakes, hshapes⟩ := newBuffers_takes certs s.heap
    cases hok
    refine handOut_effect (o := .chain _) htakes ?_ (.inr (.inl rfl)) (hnone rfl rfl rfl)
    intro _ p hp
    obtain ⟨j, hj, rfl⟩ := List.mem_map.mp hp
    exact hshapes j hj
  | freeX509Chain chain => exact hfree hok rfl rfl rfl
  | handshake i selection =>
    obtain ⟨hlives, heffect⟩ := handshake_inv (b := b) hok
    refine heffect.congr (iff_of_true trivial ⟨?_, ?_, ?_⟩)
    · simp [Event.uses]
    · simp [Event.frees]
    · simpa [Event.connects, Lifetime.Obeys] using hlives
  | connect e => exact absurd rfl (hevent e)

theorem credentialStep_inv {event : Event} (hinv : Inv b s)
    (hok : credentialStep b s event = .ok (r, s')) : Inv b s' := by
  cases event with
  | connect e => exact connect_keeps_inv hinv hok
  | _ => exact (credentialStep_effect hok nofun).inv hinv

theorem credentialStep_moves {event : Event} (hok : credentialStep b s event = .ok (r, s')) :
    Moves (Obeys b s event) (Custody.owed s.count s.held) (Custody.owed s'.count s'.held) := by
  simp only [State.count, State.held, Custody.owed_both]
  -- Other steps do nothing with contexts and connections.
  have hrest : Effect b s s' (Obeys b s event) →
      Moves (Obeys b s event)
        (Sum.elim (Custody.owed s.connections.count s.connections.held) s.owes)
        (Sum.elim (Custody.owed s'.connections.count s'.connections.held) s'.owes) := by
    intro he
    have hsame : Moves True (Custody.owed s.connections.count s.connections.held)
        (Custody.owed s'.connections.count s'.connections.held) :=
      .of_eq trivial fun _ => by rw [he.connections]
    exact (hsame.both he.moves).congr (iff_of_eq (true_and _))
  cases event with
  | connect e =>
    obtain ⟨reply, h, hstep, -⟩ := connect_inv hok
    have hobjects : Moves True s.owes s'.owes := (connect_passes hok).moves trivial
    refine ((Lifetime.lifetimeStep_moves hstep).both hobjects).congr ⟨fun h => ?_, fun h => ?_⟩
    · exact ⟨by simp [Event.uses], by simp [Event.frees], by simpa [Event.connects] using h.1⟩
    · exact ⟨h.connects e rfl, trivial⟩
  | _ => exact hrest (credentialStep_effect hok fun _ heq => by cases heq)

theorem within_ok {f : Heap → Except Fault (Reply × Heap)}
    (hf : ∃ r h', f s.heap = .ok (r, h')) : ∃ r s', s.within f = .ok (r, s') := by
  obtain ⟨r, h', hok⟩ := hf
  exact ⟨r, { s with heap := h' }, by simp only [State.within, hok]⟩

theorem takeBack_ok (hb : Balanced s.heap.count (s.holders ++ s.heap.edges Object.refs))
    {shape : Shape} (ha : Alive s.heap (i, shape)) (hi : i ∈ s.java) :
    ∃ r s', s.takeBack i shape = .ok (r, s') := by
  obtain ⟨o, ho⟩ := objectAt_ok ha
  have hdrop : ∃ heap, release s.heap i = .ok heap := by
    apply RefHeap.drop_ok
    intro j
    rw [outside_eq hb]
    have hmem : i ∈ s.holders := List.mem_append_left _ hi
    exact Int.ofNat_le.mpr ((List.singleton_sublist.mpr hmem).count_le j)
  obtain ⟨heap, hrelease⟩ := hdrop
  refine ⟨.ok .void, { s with heap, java := s.java.erase i }, ?_⟩
  simp only [State.takeBack, ho, hrelease, bind, Except.bind, pure, Except.pure]

theorem addToSsl_ok (hinv : Inv b s) {k : Nat} (hlives : 0 < s.connections.ssls.count i)
    (ha : Alive s.heap (k, .credential)) (added : Bool) :
    ∃ r s', addToSsl (some i) (some k) added s = .ok (r, s') := by
  obtain ⟨v, hssl⟩ := Arena.live_of_count_pos hlives
  obtain ⟨c, hc⟩ := credentialAt_ok ha
  have hlt : i < s.sslCredentials.length := hinv.ssls ▸ hssl.lt
  obtain ⟨h, credentials, hadd⟩ := addCredential_ok (h := s.heap) hlt ha.count_pos
  simp only [addToSsl, hssl.get_eq, hc, hadd, bind, Except.bind, pure, Except.pure]
  split <;> exact ⟨_, _, rfl⟩

theorem addToCtx_ok (hinv : Inv b s) (hbs : Balanced s.connections.count s.connections.held)
    {c k : Nat} (hlives : 0 < s.connections.ctxts.count c) (ha : Alive s.heap (k, .credential))
    (added : Bool) : ∃ r s', addToCtx (some c) (some k) added s = .ok (r, s') := by
  obtain ⟨v, hctxt⟩ := Arena.live_of_count_pos hlives
  have hpos := (Lifetime.sound_of_balanced hbs).ctxt hctxt
  obtain ⟨w, hctx⟩ := RefHeap.get_ok hpos
  obtain ⟨cred, hc⟩ := credentialAt_ok ha
  have hlt : v.ctx < s.ctxCredentials.length := by
    obtain ⟨w, n, hget⟩ := RefHeap.getElem?_of_count_pos hpos
    exact hinv.ctxs ▸ (List.getElem?_eq_some_iff.mp hget).1
  obtain ⟨h, credentials, hadd⟩ := addCredential_ok (h := s.heap) hlt ha.count_pos
  simp only [addToCtx, State.ctxOf, hctxt.get_eq, hctx, hc, hadd, bind, Except.bind, pure,
    Except.pure]
  split <;> exact ⟨_, _, rfl⟩

theorem handshake_ok (hinv : Inv b s)
    (hb : Balanced s.heap.count (s.holders ++ s.heap.edges Object.refs))
    (hlives : 0 < s.connections.ssls.count i) (selection : Option Nat) :
    ∃ r s', handshake i selection s = .ok (r, s') := by
  obtain ⟨v, hssl⟩ := Arena.live_of_count_pos hlives
  have hlt : i < s.sslCredentials.length := hinv.ssls ▸ hssl.lt
  have hlt' : i < s.selected.length := hinv.selected ▸ hssl.lt
  have hcredentials := List.getElem?_eq_getElem hlt
  have hold := List.getElem?_eq_getElem hlt'
  have hpos : ∀ k ∈ (selection.bind fun k => s.sslCredentials[i][k]?).toList,
      0 < s.heap.count k := by
    intro k hk
    obtain ⟨n, -, hn⟩ := Option.bind_eq_some_iff.mp (Option.mem_toList.mp hk)
    have hmem : k ∈ s.sslCredentials.flatten :=
      List.mem_flatten.mpr ⟨_, List.mem_of_getElem? hcredentials, List.mem_of_getElem? hn⟩
    exact hb.pos (by simp [State.holders, State.credentials, hmem])
  obtain ⟨h, hup⟩ := RefHeap.upRefs_ok hpos
  -- The handshake has what it gives up.
  have hheld : ∀ j, (s.selected[i].count j : Int) ≤ h.outside Object.refs j := by
    intro j
    have hout := RefHeap.outside_upRefs Object.refs hup j
    have hset := count_flatten_set hold [] j
    rw [outside_eq hb] at hout
    simp only [State.holders, State.credentials, List.count_append, List.count_nil] at hout hset
    omega
  obtain ⟨heap, hdrop⟩ := RefHeap.drop_ok hheld
  simp only [handshake, hssl.get_eq, hcredentials, hold, hup, hdrop]
  exact ⟨_, _, rfl⟩

theorem callStep_ok (hinv : Inv b s) (hlib : b.library = .boringssl)
    (hbs : Balanced s.connections.count s.connections.held)
    (hb : Balanced s.heap.count (s.holders ++ s.heap.edges Object.refs)) {c : Call}
    (hobeys : c.Obeys b s) : ∃ r s', callStep s c = .ok (r, s') := by
  have hs := sound_of_balanced hb
  obtain ⟨ha, hfrees, hconnects⟩ := hobeys
  cases c with
  | newX509 created | newDelegated err => exact ⟨_, _, rfl⟩
  | upRef cred =>
    cases cred with
    | none => exact ⟨_, _, rfl⟩
    | some i =>
      have hcred : Alive s.heap (i, .credential) := ha _ (by simp [Call.uses])
      obtain ⟨c, hc⟩ := credentialAt_ok hcred
      obtain ⟨heap, hup⟩ := RefHeap.upRef_ok hcred.count_pos
      refine ⟨.ok .void, { s with heap, java := i :: s.java }, ?_⟩
      simp only [callStep, upRef, hc, hup, bind, Except.bind, pure, Except.pure]
  | free cred =>
    cases cred with
    | none => exact ⟨_, _, rfl⟩
    | some i =>
      exact takeBack_ok hb (ha _ (by simp [Call.uses])) (hfrees i (by simp [Event.frees, hlib]))
  | setPrivateKey cred key refused => exact within_ok (setPrivateKey_ok hs ha)
  | setCertChain cred stack malloc refused => exact within_ok (setCertChain_ok hs hinv.typed ha)
  | setOcspResponse cred data calls => exact within_ok (setBuffer_ok hs ha)
  | setCertificateProperties cred data calls => exact within_ok (setBuffer_ok hs ha)
  | setSignedCertTimestampList cred data calls => exact within_ok (setBuffer_ok hs ha)
  | setDelegatedCredential cred data calls => exact within_ok (setBuffer_ok hs ha)
  | setSigningAlgorithmPrefs cred prefs malloc getElements refused =>
    exact within_ok (setSigningAlgorithmPrefs_ok hs ha)
  | setMustMatchIssuer cred mustMatch => exact within_ok (setMustMatchIssuer_ok hs ha)
  | setTrustAnchorId cred id getElements refused => exact within_ok (setTrustAnchorId_ok hs ha)
  | addToSsl ssl cred added =>
    cases ssl with
    | none => exact ⟨_, _, rfl⟩
    | some i =>
      cases cred with
      | none => exact ⟨_, _, rfl⟩
      | some k =>
        exact addToSsl_ok hinv (hconnects (.useSsl i) rfl) (ha (k, .credential) (by simp [Call.uses]))
          added
  | addToCtx ctx cred added =>
    cases ctx with
    | none => exact ⟨_, _, rfl⟩
    | some c =>
      cases cred with
      | none => exact ⟨_, _, rfl⟩
      | some k =>
        exact addToCtx_ok hinv hbs (hconnects (.useContext c) rfl)
          (ha (k, .credential) (by simp [Call.uses])) added
  | getSelectedCredential ssl =>
    cases ssl with
    | none => exact ⟨_, _, rfl⟩
    | some i =>
      have hlives : 0 < s.connections.ssls.count i := hconnects (.useSsl i) rfl
      obtain ⟨v, hssl⟩ := Arena.live_of_count_pos hlives
      simp only [callStep, getSelectedCredential, hssl.get_eq, bind, Except.bind, pure, Except.pure]
      exact ⟨_, _, rfl⟩

theorem credentialStep_ok (hinv : Inv b s) (hb : Balanced s.count s.held) {event : Event}
    (hobeys : Obeys b s event) : ∃ r s', credentialStep b s event = .ok (r, s') := by
  obtain ⟨hbs, hb⟩ := Custody.balanced_both.mp hb
  cases event with
  | call c =>
    simp only [credentialStep]
    split
    · rename_i hlib
      refine callStep_ok hinv hlib hbs hb ⟨?_, hobeys.owned, ?_⟩
      · simpa [Event.uses, hlib] using hobeys.alive
      · simpa [Event.connects, hlib] using hobeys.connects
    · exact ⟨_, _, rfl⟩
  | parsePrivateKey | parseX509Chain certs => exact ⟨_, _, rfl⟩
  | freePrivateKey i | freeX509Chain i =>
    exact takeBack_ok hb (hobeys.alive _ (by simp [Event.uses])) (hobeys.owned i rfl)
  | handshake i selection => exact handshake_ok hinv hb (hobeys.connects (.useSsl i) rfl) selection
  | connect e => exact connect_ok hb hbs (hobeys.connects e rfl)

theorem credentialStep_accounts (b : Build) :
    Accounts (credentialStep b) State.count State.held (Inv b) (Obeys b) where
  inv _ _ _ _ hinv hok := credentialStep_inv hinv hok
  ok _ _ hinv hb hobeys := credentialStep_ok hinv hb hobeys
  moves _ _ _ _ hok := credentialStep_moves hok

theorem balanced_start : Balanced State.start.count State.start.held := by
  refine Custody.balanced_both.mpr ⟨fun r => ?_, fun _ => rfl⟩
  cases r <;> rfl

/-! ## Winding down -/

/-- Java can free what it owns. -/
theorem frees_of_owned {shape : Shape} (howned : Owned b shape) (i : Nat) :
    ∃ event : Event, (∀ h, event.uses b h = [(i, shape)]) ∧ event.frees b = some i ∧
      event.connects b = none ∧ ∀ s, credentialStep b s event = s.takeBack i shape := by
  rcases howned with rfl | rfl | ⟨rfl, hlib⟩
  · exact ⟨.freePrivateKey i, fun _ => rfl, rfl, rfl, fun _ => rfl⟩
  · exact ⟨.freeX509Chain i, fun _ => rfl, rfl, rfl, fun _ => rfl⟩
  · refine ⟨.call (.free (some i)), fun h => ?_, ?_, ?_, fun s => ?_⟩
    · simp [Event.uses, Call.uses, hlib]
    · simp [Event.frees, hlib]
    · simp [Event.connects, Call.connects]
    · simp [credentialStep, callStep, free, hlib]

theorem ranked_of_typed {h : Heap} (ht : Typed h.values) :
    h.Ranked Object.refs fun o => o.shape.rank := by
  intro i o n hget j hj
  have hmem : o ∈ h.values := List.mem_map.mpr ⟨_, List.mem_of_getElem? hget, rfl⟩
  rw [refs_eq] at hj
  obtain ⟨p, hp, rfl⟩ := List.mem_map.mp hj
  obtain ⟨o', ho', hshape⟩ := Option.map_eq_some_iff.mp (ht o hmem p hp)
  rw [RefHeap.values, List.getElem?_map] at ho'
  obtain ⟨⟨w, m⟩, hget', rfl⟩ := Option.map_eq_some_iff.mp ho'
  refine ⟨w, m, hget', ?_⟩
  have hrank := (shape_of_holds hp).1
  rwa [← hshape] at hrank

/-- Without its owners no credential is left. -/
theorem flatten_eq_nil {credentials : List (List Nat)}
    (hall : ∀ (i : Nat) cs, credentials[i]? = some cs → cs = []) : credentials.flatten = [] := by
  rw [List.flatten_eq_nil_iff]
  intro cs hcs
  obtain ⟨i, hi⟩ := List.getElem?_of_mem hcs
  exact hall i cs hi

/-- Without what Java owns, and without contexts and connections, there is nothing. -/
theorem held_eq_nil (hinv : Inv b s) (hb : Balanced s.count s.held) (hjava : s.java = [])
    (hconnections : s.connections.held = []) : s.held = [] := by
  obtain ⟨hbs, hb⟩ := Custody.balanced_both.mp hb
  have hnone : ∀ r, s.connections.count r = 0 := by
    intro r
    rw [hbs r, hconnections]
    rfl
  have hctxs : s.ctxCredentials.flatten = [] := by
    refine flatten_eq_nil fun i cs hi => by_contra fun hne => ?_
    exact Nat.ne_of_gt (hinv.ctxLives i cs hi hne) (hnone (.sslCtx i))
  have hssls : s.sslCredentials.flatten = [] := by
    refine flatten_eq_nil fun i cs hi => by_contra fun hne => ?_
    exact Nat.ne_of_gt (hinv.sslLives i cs hi hne) (hnone (.ssl i))
  have hselected : s.selected.flatten = [] := by
    refine flatten_eq_nil fun i cs hi => by_contra fun hne => ?_
    exact Nat.ne_of_gt (hinv.selectedLives i cs hi hne) (hnone (.ssl i))
  have hholders : s.holders = [] := by
    rw [State.holders, State.credentials, hjava, hctxs, hssls, hselected]
    rfl
  have hedges : s.heap.edges Object.refs = [] := by
    apply RefHeap.edges_eq_nil (ranked_of_typed hinv.typed)
    intro j
    rw [outside_eq hb, hholders]
    rfl
  rw [State.held, hconnections, hholders, hedges]
  rfl

theorem credentialStep_releases (hinv : Inv b s) (hb : Balanced s.count s.held)
    (hheld : s.held ≠ []) :
    ∃ event, Obeys b s event ∧ ∀ r s', credentialStep b s event = .ok (r, s') →
      s'.java.length + s'.connections.java.length < s.java.length + s.connections.java.length := by
  obtain ⟨hbs, hbo⟩ := Custody.balanced_both.mp hb
  by_cases hconnections : s.connections.held = []
  · cases hjava : s.java with
    | nil => exact absurd (held_eq_nil hinv hb hjava hconnections) hheld
    | cons i java =>
      have hmem : i ∈ s.java := hjava ▸ List.mem_cons_self
      obtain ⟨shape, howned, hshape⟩ := hinv.java i hmem
      obtain ⟨event, huses, hfrees, hconnects, hstep⟩ := frees_of_owned howned i
      obtain ⟨o, ho, hos⟩ := Option.map_eq_some_iff.mp hshape
      have hpos := hbo.pos (List.mem_append_left _ (List.mem_append_left _ hmem))
      have halive : Alive s.heap (i, shape) := ⟨o, RefHeap.live_iff.mpr ⟨ho, hpos⟩, hos⟩
      refine ⟨event, ⟨?_, ?_, ?_⟩, fun r s' hok => ?_⟩
      · simpa [huses] using halive
      · simpa [hfrees] using hmem
      · simp [hconnects]
      · rw [hstep] at hok
        obtain ⟨-, h, -, rfl⟩ := takeBack_inv hok
        have herase : (s.java.erase i).length = s.java.length - 1 := List.length_erase_of_mem hmem
        have hlength := List.length_pos_of_mem hmem
        simp only [← hjava]
        omega
  · obtain ⟨e, hobeys, hless⟩ := Lifetime.lifetimeStep_releases (b := b) hbs hconnections
    refine ⟨.connect e, ⟨?_, ?_, ?_⟩, fun r s' hok => ?_⟩
    · simp [Event.uses]
    · simp [Event.frees]
    · simpa [Event.connects] using hobeys
    · obtain ⟨reply, h, hstep, -, -, -, hjava, -⟩ := connect_inv hok
      have hfewer := hless reply s'.connections hstep
      rw [hjava]
      omega

/-! ## Results -/

/-- Nothing temporary is left between steps. -/
theorem not_temporary_of_live (hinv : Inv b s) (hb : Balanced s.count s.held)
    (hlive : s.heap.Live i o) : o.shape.isTemporary = false := by
  obtain ⟨-, hbo⟩ := Custody.balanced_both.mp hb
  obtain ⟨hvalue, hpos⟩ := RefHeap.live_iff.mp hlive
  have hshape : shapeAt s.heap.values i = some o.shape := by rw [shapeAt, hvalue]; rfl
  rw [hbo i] at hpos
  rcases List.mem_append.mp (List.count_pos_iff.mp hpos) with hholder | hedge
  · rcases List.mem_append.mp hholder with hjava | hcredential
    · obtain ⟨shape, howned, hs⟩ := hinv.java i hjava
      cases hs.symm.trans hshape
      rcases howned with h | h | ⟨h, -⟩
      all_goals
        rw [h]
        rfl
    · have heq := (hinv.credentials i hcredential).symm.trans hshape
      rw [← Option.some.inj heq]
      rfl
  · obtain ⟨⟨w, m⟩, hw, hi⟩ := List.mem_flatMap.mp hedge
    cases m with
    | zero => exact absurd hi List.not_mem_nil
    | succ m =>
      have hmem : w ∈ s.heap.values := List.mem_map.mpr ⟨_, hw, rfl⟩
      simp only [RefHeap.Obj.edges, refs_eq] at hi
      obtain ⟨p, hp, rfl⟩ := List.mem_map.mp hi
      have heq : p.2 = o.shape := Option.some.inj ((hinv.typed w hmem p hp).symm.trans hshape)
      rw [← heq]
      exact (shape_of_holds hp).2

end

/-- A credential that a context and a connection keep, after Java has freed it together
with its key and its chain, and then the context. A second OCSP response takes the place
of the first. -/
def keptCredential : List Event :=
  [.call (.newX509 true), .parsePrivateKey, .parseX509Chain [[1], [2]],
    .call (.setPrivateKey (some 0) (some 1) none),
    .call (.setCertChain (some 0) (some 4) true none), .freePrivateKey 1, .freeX509Chain 4,
    .call (.setOcspResponse (some 0) (some ⟨[3], by decide⟩) ⟨true, true, none⟩),
    .call (.setOcspResponse (some 0) (some ⟨[4], by decide⟩) ⟨true, true, none⟩),
    .call (.setTrustAnchorId (some 0) (some ⟨[5], by decide⟩) true (some "no memory")),
    .connect (.make 0x3c 1 ⟨true, "", true, true, true, ""⟩),
    .call (.addToCtx (some 0) (some 0) true), .call (.free (some 0)),
    .connect (.newSSL (some 0) true ⟨true, true⟩), .connect (.freeContext (some 0)),
    .handshake 0 (some 0), .call (.getSelectedCredential (some 0)), .connect (.freeSSL (some 0))]

-- The `SSL` keeps the credential, but the context is gone.
example : ¬ Machine.Meets (credentialStep Lifetime.boringssl) (Obeys Lifetime.boringssl) .start
    (keptCredential.take 15 ++ [.call (.addToCtx (some 0) (some 0) true)]) := by decide

end Credential
