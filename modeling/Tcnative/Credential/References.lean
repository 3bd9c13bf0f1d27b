-- SUMMARY: What the setters of a credential do with references.
import Tcnative.Credential.Connections

/-!
# References to credentials

The objects of the credential API form a graph. The setters account for the references
that they take and give up, and leave no temporary memory behind.
-/

namespace Credential
open CMem Jni Tls
open Custody (Balanced Accounts Moves)

/-! ## Kinds of objects -/

/-- What an object holds, and what kind each of it is. -/
def Object.holds : Object → List (Nat × Shape)
  | .memory | .elements | .privateKey | .buffer _ => []
  | .chain certs => certs.map (·, .buffer)
  | .credential c => c.privateKey.toList.map (·, .privateKey) ++ c.certChain.map (·, .buffer) ++
      BufferField.kept.flatMap fun field => (c.buffers field).toList.map (·, .buffer)

theorem refs_eq (o : Object) : o.refs = o.holds.map Prod.fst := by
  cases o with
  | credential c =>
    simp [Object.refs, SslCredential.refs, Object.holds, Function.comp_def, List.map_flatMap]
  | _ => simp [Object.refs, Object.holds, Function.comp_def]

/-- An object holds such of lower ranks. -/
def Shape.rank : Shape → Nat
  | .memory | .elements | .privateKey | .buffer => 0
  | .chain | .credential => 1

/-- Objects that only exist during a call. -/
def Shape.isTemporary : Shape → Bool
  | .memory | .elements => true
  | .privateKey | .buffer | .chain | .credential => false

theorem shape_of_holds {o : Object} {p : Nat × Shape} (hp : p ∈ o.holds) :
    p.2.rank < o.shape.rank ∧ p.2.isTemporary = false := by
  cases o with
  | memory | elements | privateKey | buffer bytes => exact absurd hp List.not_mem_nil
  | chain certs =>
    obtain ⟨i, -, rfl⟩ := List.mem_map.mp hp
    exact ⟨Nat.zero_lt_one, rfl⟩
  | credential c =>
    simp only [Object.holds, List.mem_append, List.mem_map, List.mem_flatMap] at hp
    rcases hp with (⟨i, -, rfl⟩ | ⟨i, -, rfl⟩) | ⟨field, -, i, -, rfl⟩
    all_goals exact ⟨Nat.zero_lt_one, rfl⟩

/-- The kind of the object at an address. -/
def shapeAt (values : List Object) (i : Nat) : Option Shape := values[i]?.map Object.shape

/-- Whatever is held is of the right kind. -/
def Typed (values : List Object) : Prop :=
  ∀ o ∈ values, ∀ p ∈ o.holds, shapeAt values p.1 = some p.2

/-- Objects stay what they are. -/
structure Grows (values values' : List Object) : Prop where
  shapes : ∀ i shape, shapeAt values i = some shape → shapeAt values' i = some shape
  typed : Typed values → Typed values'

theorem Grows.refl (values : List Object) : Grows values values := ⟨fun _ _ h => h, id⟩

theorem Grows.trans {values values' values'' : List Object} (h : Grows values values')
    (h' : Grows values' values'') : Grows values values'' :=
  ⟨fun i shape hs => h'.shapes i shape (h.shapes i shape hs), fun ht => h'.typed (h.typed ht)⟩

theorem shapeAt_append {values : List Object} {i : Nat} {shape : Shape}
    (h : shapeAt values i = some shape) (values' : List Object) :
    shapeAt (values ++ values') i = some shape := by
  obtain ⟨o, ho, rfl⟩ := Option.map_eq_some_iff.mp h
  rw [shapeAt, List.getElem?_append_left (List.getElem?_eq_some_iff.mp ho).1, ho]
  rfl

theorem grows_new {values : List Object} {o : Object}
    (ho : Typed values → ∀ p ∈ o.holds, shapeAt values p.1 = some p.2) :
    Grows values (values ++ [o]) where
  shapes _ _ h := shapeAt_append h [o]
  typed ht o' ho' p hp := by
    apply shapeAt_append
    rcases List.mem_append.mp ho' with hold | hnew
    · exact ht o' hold p hp
    · rw [List.mem_singleton.mp hnew] at hp
      exact ho ht p hp

/-- An object gets another value of the same kind. -/
theorem grows_modify {values : List Object} {i : Nat} {o o' : Object} (hi : values[i]? = some o)
    (hshape : o'.shape = o.shape)
    (hholds : Typed values → ∀ p ∈ o'.holds, p ∈ o.holds ∨ shapeAt values p.1 = some p.2) :
    Grows values (values.modify i fun _ => o') := by
  have hshapes : ∀ j shape, shapeAt values j = some shape →
      shapeAt (values.modify i fun _ => o') j = some shape := by
    intro j shape hj
    rw [shapeAt, List.getElem?_modify]
    split
    · rename_i heq
      subst heq
      rw [shapeAt, hi] at hj
      rw [hi]
      simpa [hshape] using hj
    · simpa [shapeAt] using hj
  refine ⟨hshapes, fun ht x hx p hp => ?_⟩
  apply hshapes
  obtain ⟨j, hj⟩ := List.getElem?_of_mem hx
  rw [List.getElem?_modify] at hj
  split at hj
  · rename_i heq
    subst heq
    rw [hi] at hj
    cases hj
    rcases hholds ht p hp with hold | hnew
    · exact ht o (List.mem_of_getElem? hi) p hold
    · exact hnew
  · exact ht x (List.mem_of_getElem? (by simpa using hj)) p hp

/-! ## What an operation takes -/

/-- References are in hand before an operation, and others after it. -/
structure Takes (h h' : Heap) (before after : List Nat) : Prop where
  outside : ∀ j, h'.outside Object.refs j + before.count j =
    h.outside Object.refs j + after.count j
  grows : Grows h.values h'.values

variable {h h' h'' : Heap} {i j k : Nat} {o o' : Object} {before after later : List Nat}

theorem Takes.refl (h : Heap) (before : List Nat) : Takes h h before before :=
  ⟨fun _ => rfl, .refl _⟩

theorem Takes.trans (ht : Takes h h' before after) (ht' : Takes h' h'' after later) :
    Takes h h'' before later := by
  refine ⟨fun j => ?_, ht.grows.trans ht'.grows⟩
  have hfirst := ht.outside j
  have hsecond := ht'.outside j
  omega

/-- What an operation takes is in hand besides what was there. -/
theorem Takes.with (ht : Takes h h' before after) {taken : List Nat} (ht' : Takes h' h'' [] taken) :
    Takes h h'' before (taken ++ after) := by
  refine ⟨fun j => ?_, ht.grows.trans ht'.grows⟩
  have hfirst := ht.outside j
  have hsecond := ht'.outside j
  rw [List.count_nil] at hsecond
  rw [List.count_append]
  omega

theorem new_takes (h : Heap)
    (ho : Typed h.values → ∀ p ∈ o.holds, shapeAt h.values p.1 = some p.2) :
    Takes h (h.new o) o.refs [h.length] where
  outside j := by
    have hnew := RefHeap.outside_new Object.refs h o j
    rw [List.count_singleton]
    simp only [beq_iff_eq, eq_comm (a := h.length)]
    split at hnew <;> split <;> omega
  grows := by
    rw [RefHeap.values_new]
    exact grows_new ho

/-- An object that holds nothing. -/
theorem new_leaf_takes (h : Heap) (ho : o.holds = []) : Takes h (h.new o) [] [h.length] := by
  have htakes := new_takes (o := o) h (by simp [ho])
  rwa [refs_eq, ho] at htakes

theorem release_takes (hok : release h i = .ok h') : Takes h h' [i] [] where
  outside j := by
    have hdrop := RefHeap.outside_drop hok j
    simpa using hdrop
  grows := by
    rw [RefHeap.values_drop hok]
    exact .refl _

/-- One of the references in hand is given up. -/
theorem Takes.release {before₂ : List Nat} (front : List Nat)
    (ht : Takes h h' before (front ++ i :: before₂)) (hok : release h' i = .ok h'') :
    Takes h h'' before (front ++ before₂) := by
  refine ⟨fun j => ?_, ht.grows.trans (release_takes hok).grows⟩
  have hfirst := ht.outside j
  have hsecond := (release_takes hok).outside j
  rw [← List.singleton_append, List.count_append, List.count_append] at hfirst
  rw [List.count_nil] at hsecond
  rw [List.count_append]
  omega

theorem upRefs_takes {is : List Nat} (hok : h.upRefs is = .ok h') : Takes h h' [] is where
  outside j := by
    rw [RefHeap.outside_upRefs Object.refs hok, List.count_nil]
    omega
  grows := by
    rw [RefHeap.values_upRefs hok]
    exact .refl _

/-- The new value of an object accounts for what it takes and gives up, and what it
takes is of the right kind. -/
structure Assigns (values : List Object) (o o' : Object) (new gone : List Nat) : Prop where
  shape : o'.shape = o.shape
  refs : ∀ j, o'.refs.count j + gone.count j = o.refs.count j + new.count j
  holds : Typed values → ∀ p ∈ o'.holds, p ∈ o.holds ∨ shapeAt values p.1 = some p.2

theorem assign_takes {new gone : List Nat} (hlive : h.Live i o)
    (ha : Assigns h.values o o' new gone) (hok : assign h i o' new gone = .ok h') :
    Takes h h' [] [] := by
  unfold assign at hok
  split at hok
  · cases hok
  rename_i h₁ hup
  have hlive₁ := hlive.upRefs hup
  refine ⟨fun j => ?_, ?_⟩
  · have hnew := RefHeap.outside_upRefs Object.refs hup j
    have hassign := RefHeap.outside_update Object.refs hlive₁ (fun _ => o') j
    have hgone := RefHeap.outside_drop hok j
    have hrefs := ha.refs j
    omega
  · rw [RefHeap.values_drop hok, RefHeap.values_update, RefHeap.values_upRefs hup]
    exact grows_modify (RefHeap.live_iff.mp hlive).1 ha.shape ha.holds

/-! ## What does not fault -/

/-- No object is held more often than it has references. -/
def Sound (h : Heap) : Prop := ∀ j, 0 ≤ h.outside Object.refs j

theorem Takes.sound (ht : Takes h h' [] after) (hs : Sound h) : Sound h' := by
  intro j
  have hj := ht.outside j
  have hsj := hs j
  rw [List.count_nil] at hj
  omega

/-- What is in hand can be given up. -/
theorem release_ok (ht : Takes h h' [] after) (hs : Sound h) (hi : i ∈ after) :
    ∃ h'', release h' i = .ok h'' := by
  apply RefHeap.drop_ok
  intro j
  have hj := ht.outside j
  have hsj := hs j
  have hpos : [i].count j ≤ after.count j :=
    (List.singleton_sublist.mpr hi).count_le j
  rw [List.count_nil] at hj
  omega

theorem assign_ok {new gone : List Nat} (hs : Sound h) (hlive : h.Live i o)
    (hrefs : ∀ j, o'.refs.count j + gone.count j = o.refs.count j + new.count j)
    (hnew : ∀ j ∈ new, 0 < h.count j) : ∃ h', assign h i o' new gone = .ok h' := by
  obtain ⟨h₁, hup⟩ := RefHeap.upRefs_ok hnew
  simp only [assign, hup]
  apply RefHeap.drop_ok
  intro j
  have hnewj := RefHeap.outside_upRefs Object.refs hup j
  have hassign := RefHeap.outside_update Object.refs (hlive.upRefs hup) (fun _ => o') j
  have hrefsj := hrefs j
  have hsj := hs j
  omega

/-! ## Uses of objects -/

theorem Alive.shapeAt_eq {p : Nat × Shape} (ha : Alive h p) : shapeAt h.values p.1 = some p.2 := by
  obtain ⟨o, hlive, hshape⟩ := ha
  rw [shapeAt, (RefHeap.live_iff.mp hlive).1, Option.map_some, hshape]

theorem Alive.count_pos {p : Nat × Shape} (ha : Alive h p) : 0 < h.count p.1 := by
  obtain ⟨o, hlive, -⟩ := ha
  exact (RefHeap.live_iff.mp hlive).2

theorem objectAt_inv {shape : Shape} (hok : objectAt h i shape = .ok o) : Alive h (i, shape) := by
  unfold objectAt at hok
  split at hok
  · cases hok
  · rename_i o' hget
    split at hok
    · rename_i hshape
      exact ⟨o', RefHeap.live_of_get hget, hshape⟩
    · cases hok

theorem objectAt_ok {shape : Shape} (ha : Alive h (i, shape)) : ∃ o, objectAt h i shape = .ok o := by
  obtain ⟨o, hlive, hshape⟩ := ha
  exact ⟨o, by simp only [objectAt, hlive.get_eq, hshape, if_true]⟩

theorem credentialAt_inv {c : SslCredential} (hok : credentialAt h i = .ok c) :
    h.Live i (.credential c) := by
  unfold credentialAt at hok
  split at hok
  · rename_i c' hget
    cases hok
    exact RefHeap.live_of_get hget
  · cases hok

theorem credentialAt_ok (ha : Alive h (i, .credential)) : ∃ c, credentialAt h i = .ok c := by
  obtain ⟨o, hlive, hshape⟩ := ha
  cases o with
  | credential c => exact ⟨c, by simp only [credentialAt, hlive.get_eq]⟩
  | _ => cases hshape

theorem chainAt_inv {certs : List Nat} (hok : chainAt h i = .ok certs) :
    h.Live i (.chain certs) := by
  unfold chainAt at hok
  split at hok
  · rename_i certs' hget
    cases hok
    exact RefHeap.live_of_get hget
  · cases hok

theorem chainAt_ok (ha : Alive h (i, .chain)) : ∃ certs, chainAt h i = .ok certs := by
  obtain ⟨o, hlive, hshape⟩ := ha
  cases o with
  | chain certs => exact ⟨certs, by simp only [chainAt, hlive.get_eq]⟩
  | _ => cases hshape

/-- What an object that lives holds is alive. -/
theorem Sound.holds_alive (hs : Sound h) (ht : Typed h.values) (hlive : h.Live i o)
    {p : Nat × Shape} (hp : p ∈ o.holds) : Alive h p := by
  have hshape := ht o (List.mem_of_getElem? (RefHeap.live_iff.mp hlive).1) p hp
  have hpos : 0 < h.count p.1 := by
    have hmem : p.1 ∈ h.edges Object.refs := by
      obtain ⟨n, hget⟩ := hlive
      refine List.mem_flatMap.mpr ⟨_, List.mem_of_getElem? hget, ?_⟩
      simp only [RefHeap.Obj.edges, refs_eq]
      exact List.mem_map.mpr ⟨p, hp, rfl⟩
    have hcount := List.count_pos_iff.mpr hmem
    have hout := hs p.1
    simp only [RefHeap.outside] at hout
    omega
  obtain ⟨x, hx, hxs⟩ := Option.map_eq_some_iff.mp hshape
  exact ⟨x, RefHeap.live_iff.mpr ⟨hx, hpos⟩, hxs⟩

/-! ## Setters -/

section
variable {values : List Object} {c c' : SslCredential} {new gone : List Nat}
  {refused : Option String} {r : Reply}

/-- A part of a credential that holds nothing. -/
theorem assigns_rest (hkey : c'.privateKey = c.privateKey) (hchain : c'.certChain = c.certChain)
    (hbuffers : c'.buffers = c.buffers) :
    Assigns values (.credential c) (.credential c') [] [] where
  shape := rfl
  refs j := by simp only [Object.refs, SslCredential.refs, hkey, hchain, hbuffers]
  holds ht p hp := by
    left
    simpa only [Object.holds, hkey, hchain, hbuffers] using hp

theorem assigns_privateKey (hkey : shapeAt values k = some .privateKey) :
    Assigns values (.credential c) (.credential { c with privateKey := some k }) [k]
      c.privateKey.toList where
  shape := rfl
  refs j := by
    simp only [Object.refs, SslCredential.refs, List.count_append, Option.toList_some]
    omega
  holds ht p hp := by
    simp only [Object.holds, List.mem_append, Option.toList_some, List.map_cons, List.map_nil,
      List.mem_singleton] at hp ⊢
    rcases hp with (rfl | hp) | hp
    · exact .inr hkey
    · exact .inl (.inl (.inr hp))
    · exact .inl (.inr hp)

theorem assigns_certChain {certs : List Nat}
    (hcerts : Typed values → ∀ i ∈ certs, shapeAt values i = some .buffer)
    (refused : Option ChainRefused) :
    Assigns values (.credential c)
      (.credential { c with certChain := newChain c.certChain certs refused })
      (chainTaken certs refused) (chainGone c.certChain refused) where
  shape := rfl
  refs j := by
    simp only [Object.refs, SslCredential.refs, List.count_append]
    rcases refused with - | ⟨err, - | n⟩
    · simp only [newChain, chainTaken, chainGone]
      omega
    · simp only [newChain, chainTaken, chainGone, Option.elim_none, List.count_nil]
    · simp only [newChain, chainTaken, chainGone, Option.elim_some]
      omega
  holds ht p hp := by
    simp only [Object.holds, List.mem_append, List.mem_map] at hp ⊢
    rcases hp with (hp | ⟨i, hi, rfl⟩) | hp
    · exact .inl (.inl (.inl hp))
    · rcases refused with - | ⟨err, - | n⟩
      · exact .inr (hcerts ht i hi)
      · exact .inl (.inl (.inr ⟨i, hi, rfl⟩))
      · exact .inr (hcerts ht i (List.mem_of_mem_take hi))
    · exact .inl (.inr hp)

/-- What a credential is told does not change what it holds. -/
theorem assigns_tell (setting : Setting) :
    Assigns values (.credential c) (.credential (c.tell setting)) [] [] :=
  assigns_rest rfl rfl rfl

theorem assigns_give (field : BufferField) (bytes : List Byte)
    (hbuffer : shapeAt values k = some .buffer) :
    Assigns values (.credential c) (.credential (c.give field k bytes)) (field.taken k)
      (c.replaced field) := by
  unfold SslCredential.give BufferField.taken SslCredential.replaced
  split
  · rename_i hkept
    refine ⟨rfl, fun j => ?_, fun ht p hp => ?_⟩
    · simp only [Object.refs, SslCredential.refs, SslCredential.tell, List.count_append,
        BufferField.kept, List.flatMap_cons, List.flatMap_nil, List.append_nil]
      cases field <;> simp [Function.update, BufferField.kept] at hkept ⊢ <;> omega
    · simp only [Object.holds, SslCredential.tell, List.mem_append, List.mem_flatMap,
        List.mem_map] at hp ⊢
      rcases hp with hp | ⟨other, hall, i, hi, rfl⟩
      · exact .inl (.inl hp)
      · rcases eq_or_ne other field with rfl | hne
        · rw [Function.update_self, Option.toList_some, List.mem_singleton] at hi
          exact .inr (hi ▸ hbuffer)
        · rw [Function.update_of_ne hne] at hi
          exact .inl (.inr ⟨other, hall, i, hi, rfl⟩)
  · exact assigns_tell _

theorem set1_takes (hlive : h.Live i (.credential c))
    (ha : Assigns h.values (.credential c) (.credential c') new gone)
    (hok : set1 h refused i c' new gone = .ok h') : Takes h h' [] [] := by
  unfold set1 at hok
  split at hok
  · cases hok
    exact .refl h []
  · exact assign_takes hlive ha hok

theorem set1_ok (hs : Sound h) (hlive : h.Live i (.credential c))
    (ha : Assigns h.values (.credential c) (.credential c') new gone)
    (hnew : ∀ j ∈ new, 0 < h.count j) (refused : Option String) :
    ∃ h', set1 h refused i c' new gone = .ok h' := by
  unfold set1
  split
  · exact ⟨h, rfl⟩
  · exact assign_ok hs hlive ha.refs hnew

/-- What a setter does that does not fault: nothing is left in hand, and what it used
was alive. -/
structure Sets (h h' : Heap) (uses : List (Nat × Shape)) : Prop where
  takes : Takes h h' [] []
  alive : ∀ p ∈ uses, Alive h p

theorem sets_refl (h : Heap) : Sets h h [] := ⟨.refl h [], by simp⟩

/-- An object that is alive behind temporary ones was alive before. -/
theorem alive_of_new {p : Nat × Shape} (ha : Alive (h.new o) p) (hne : p.2 ≠ o.shape) :
    Alive h p := by
  obtain ⟨o', hlive, hshape⟩ := ha
  refine ⟨o', RefHeap.live_of_new hlive ?_, hshape⟩
  intro heq
  rw [heq] at hlive
  have hself := (RefHeap.live_iff.mp (RefHeap.live_new_self h o)).1
  have hval := (RefHeap.live_iff.mp hlive).1
  rw [hself] at hval
  cases hval
  exact hne hshape.symm

theorem alive_of_release {p : Nat × Shape} (hok : release h i = .ok h') (ha : Alive h' p) :
    Alive h p := by
  obtain ⟨o, hlive, hshape⟩ := ha
  exact ⟨o, RefHeap.live_of_drop hok hlive, hshape⟩

theorem setPrivateKey_sets {cred key : Option Nat}
    (hok : setPrivateKey cred key refused h = .ok (r, h')) :
    Sets h h' (Call.uses h (.setPrivateKey cred key refused)) := by
  cases cred with
  | none =>
    cases hok
    exact sets_refl h
  | some i =>
    cases key with
    | none =>
      cases hok
      exact sets_refl h
    | some k =>
      simp only [setPrivateKey] at hok
      obtain ⟨c, hc, hok⟩ := bind_ok hok
      obtain ⟨o, hk, hok⟩ := bind_ok hok
      obtain ⟨h₁, hset, hok⟩ := bind_ok hok
      cases hok
      have hlive := credentialAt_inv hc
      have hkey := objectAt_inv hk
      refine ⟨set1_takes hlive (assigns_privateKey hkey.shapeAt_eq) hset, ?_⟩
      simp only [Call.uses, List.mem_cons, List.not_mem_nil, or_false]
      rintro p (rfl | rfl)
      · exact ⟨_, hlive, rfl⟩
      · exact hkey

theorem setBuffer_sets {field : BufferField} {array buffer failure : String} {cred : Option Nat}
    {data : Option JByteArray} {calls : BufferCalls}
    (hok : setBuffer field array buffer failure cred data calls h = .ok (r, h')) :
    Sets h h' (Call.uses h (.setOcspResponse cred data calls)) := by
  cases cred with
  | none =>
    cases hok
    exact sets_refl h
  | some i =>
    cases data with
    | none =>
      cases hok
      exact sets_refl h
    | some a =>
      simp only [setBuffer] at hok
      simp only [Call.uses]
      split at hok
      · rename_i hempty
        cases hok
        rw [if_neg (by simp [hempty])]
        exact sets_refl h
      rename_i hnonempty
      split at hok
      · rename_i helements
        cases hok
        rw [if_neg (by simp_all)]
        exact sets_refl h
      rename_i helements
      have hnew : Takes h (h.new .elements) [] [h.length] := new_leaf_takes h rfl
      split at hok
      · rename_i hbuffer
        obtain ⟨h₁, hrelease, hok⟩ := bind_ok hok
        cases hok
        rw [if_neg (by simp_all)]
        exact ⟨hnew.trans (release_takes hrelease), by simp⟩
      · rename_i hbuffer
        obtain ⟨h₁, helem, hok⟩ := bind_ok hok
        obtain ⟨c, hc, hok⟩ := bind_ok hok
        obtain ⟨h₂, hset, hok⟩ := bind_ok hok
        obtain ⟨h₃, hrelease, hok⟩ := bind_ok hok
        cases hok
        -- The elements are released first, and the buffer at the end.
        have hboth := hnew.with (new_leaf_takes (o := .buffer a.bytes) (h.new .elements) rfl)
        have hbuf := hboth.release [(h.new .elements).length] helem
        have hlive := credentialAt_inv hc
        have hshape : shapeAt h₁.values (h.new .elements).length = some .buffer := by
          rw [RefHeap.values_drop helem, shapeAt,
            (RefHeap.live_iff.mp (RefHeap.live_new_self _ _)).1]
          rfl
        have hkept := hbuf.with (set1_takes hlive (assigns_give field a.bytes hshape) hset)
        have halive : Alive h (i, .credential) := by
          refine alive_of_new (alive_of_new (alive_of_release helem ⟨_, hlive, rfl⟩) ?_) ?_
          · exact Shape.noConfusion
          · exact Shape.noConfusion
        refine ⟨hkept.release [] hrelease, ?_⟩
        split
        · simpa using halive
        · simp

/-- The certificates of a stack are buffers. -/
theorem shapeAt_of_chain {stack : Nat} {certs : List Nat} (hlive : h.Live stack (.chain certs))
    (ht : Typed h.values) : ∀ i ∈ certs, shapeAt h.values i = some .buffer := by
  intro i hi
  have hmem := List.mem_of_getElem? (RefHeap.live_iff.mp hlive).1
  exact ht _ hmem (i, .buffer) (List.mem_map.mpr ⟨i, hi, rfl⟩)

theorem setCertChain_sets {cred certChainStack : Option Nat} {malloc : Bool}
    {refused : Option ChainRefused}
    (hok : setCertChain cred certChainStack malloc refused h = .ok (r, h')) :
    Sets h h' (Call.uses h (.setCertChain cred certChainStack malloc refused)) := by
  cases cred with
  | none =>
    cases hok
    exact sets_refl h
  | some i =>
    cases certChainStack with
    | none =>
      cases hok
      exact sets_refl h
    | some stack =>
      simp only [setCertChain] at hok
      obtain ⟨certs, hcerts, hok⟩ := bind_ok hok
      have hstack := chainAt_inv hcerts
      have hchain : Alive h (stack, .chain) := ⟨_, hstack, rfl⟩
      simp only [Call.uses, hcerts]
      split at hok
      · rename_i hempty
        cases hok
        refine ⟨.refl h [], ?_⟩
        simpa [List.length_eq_zero_iff.mp hempty] using hchain
      split at hok
      · rename_i hmalloc
        cases hok
        refine ⟨.refl h [], ?_⟩
        rw [if_neg (by simp_all)]
        simpa using hchain
      · obtain ⟨c, hc, hok⟩ := bind_ok hok
        obtain ⟨h₁, hassign, hok⟩ := bind_ok hok
        obtain ⟨h₂, hrelease, hok⟩ := bind_ok hok
        cases hok
        have hnew : Takes h (h.new .memory) [] [h.length] := new_leaf_takes h rfl
        have hlive := credentialAt_inv hc
        have hset := assign_takes hlive
          (assigns_certChain (shapeAt_of_chain (hstack.new .memory)) refused) hassign
        refine ⟨(hnew.with hset).release [] hrelease, ?_⟩
        have hcred : Alive h (i, .credential) := by
          apply alive_of_new ⟨_, hlive, rfl⟩
          exact Shape.noConfusion
        split
        · simpa using ⟨hchain, hcred⟩
        · simpa using hchain

theorem setSigningAlgorithmPrefs_sets {cred : Option Nat} {prefs : Option (List (BitVec 32))}
    {malloc getElements : Bool}
    (hok : setSigningAlgorithmPrefs cred prefs malloc getElements refused h = .ok (r, h')) :
    Sets h h' (Call.uses h (.setSigningAlgorithmPrefs cred prefs malloc getElements refused)) := by
  cases cred with
  | none =>
    cases hok
    exact sets_refl h
  | some i =>
    cases prefs with
    | none =>
      cases hok
      exact sets_refl h
    | some prefs =>
      simp only [setSigningAlgorithmPrefs] at hok
      simp only [Call.uses]
      split at hok
      · rename_i hempty
        cases hok
        rw [if_neg (by simp [hempty])]
        exact sets_refl h
      split at hok
      · cases hok
        rw [if_neg (by simp_all)]
        exact sets_refl h
      have hmemory : Takes h (h.new .memory) [] [h.length] := new_leaf_takes h rfl
      split at hok
      · obtain ⟨h₁, hrelease, hok⟩ := bind_ok hok
        cases hok
        rw [if_neg (by simp_all)]
        exact ⟨hmemory.release [] hrelease, by simp⟩
      · obtain ⟨c, hc, hok⟩ := bind_ok hok
        obtain ⟨h₁, hset, hok⟩ := bind_ok hok
        obtain ⟨h₂, helem, hok⟩ := bind_ok hok
        obtain ⟨h₃, hrelease, hok⟩ := bind_ok hok
        cases hok
        have hboth := hmemory.with (new_leaf_takes (o := .elements) (h.new .memory) rfl)
        have hlive := credentialAt_inv hc
        have hkept := hboth.with (set1_takes hlive (assigns_tell _) hset)
        have halive : Alive h (i, .credential) := by
          refine alive_of_new (alive_of_new ⟨_, hlive, rfl⟩ ?_) ?_
          · exact Shape.noConfusion
          · exact Shape.noConfusion
        refine ⟨(hkept.release [] helem).release [] hrelease, ?_⟩
        split
        · simpa using halive
        · simp

theorem setTrustAnchorId_sets {cred : Option Nat} {id : Option JByteArray} {getElements : Bool}
    (hok : setTrustAnchorId cred id getElements refused h = .ok (r, h')) :
    Sets h h' (Call.uses h (.setTrustAnchorId cred id getElements refused)) := by
  cases cred with
  | none =>
    cases hok
    exact sets_refl h
  | some i =>
    cases id with
    | none =>
      cases hok
      exact sets_refl h
    | some a =>
      simp only [setTrustAnchorId] at hok
      simp only [Call.uses]
      split at hok
      · rename_i hempty
        cases hok
        rw [if_neg (by simp [hempty])]
        exact sets_refl h
      split at hok
      · cases hok
        rw [if_neg (by simp_all)]
        exact sets_refl h
      · obtain ⟨c, hc, hok⟩ := bind_ok hok
        obtain ⟨h₁, hset, hok⟩ := bind_ok hok
        obtain ⟨h₂, hrelease, hok⟩ := bind_ok hok
        cases hok
        have hnew : Takes h (h.new .elements) [] [h.length] := new_leaf_takes h rfl
        have hlive := credentialAt_inv hc
        have hkept := hnew.with (set1_takes hlive (assigns_tell _) hset)
        have halive : Alive h (i, .credential) := by
          apply alive_of_new ⟨_, hlive, rfl⟩
          exact Shape.noConfusion
        refine ⟨hkept.release [] hrelease, ?_⟩
        split
        · simpa using halive
        · simp

theorem setMustMatchIssuer_sets {cred : Option Nat} {mustMatch : Bool}
    (hok : setMustMatchIssuer cred mustMatch h = .ok (r, h')) :
    Sets h h' (Call.uses h (.setMustMatchIssuer cred mustMatch)) := by
  cases cred with
  | none =>
    cases hok
    exact sets_refl h
  | some i =>
    simp only [setMustMatchIssuer] at hok
    obtain ⟨c, hc, hok⟩ := bind_ok hok
    obtain ⟨h₁, hassign, hok⟩ := bind_ok hok
    cases hok
    have hlive := credentialAt_inv hc
    refine ⟨assign_takes hlive (assigns_tell _) hassign, ?_⟩
    simp only [Call.uses, Option.toList_some, List.map_cons, List.map_nil, List.mem_singleton]
    rintro p rfl
    exact ⟨_, hlive, rfl⟩

end

/-! ## Setters that do not fault -/

section
variable {h h' : Heap} {i k : Nat} {o : Object} {r : Reply} {refused : Option String}

theorem alive_new {p : Nat × Shape} (ha : Alive h p) (o : Object) : Alive (h.new o) p := by
  obtain ⟨o', hlive, hshape⟩ := ha
  exact ⟨o', hlive.new o, hshape⟩

theorem setPrivateKey_ok (hs : Sound h) {cred key : Option Nat}
    (ha : ∀ p ∈ Call.uses h (.setPrivateKey cred key refused), Alive h p) :
    ∃ r h', setPrivateKey cred key refused h = .ok (r, h') := by
  cases cred with
  | none => exact ⟨_, _, rfl⟩
  | some i =>
    cases key with
    | none => exact ⟨_, _, rfl⟩
    | some k =>
      have hkey : Alive h (k, .privateKey) := ha _ (by simp [Call.uses])
      obtain ⟨c, hc⟩ := credentialAt_ok (ha (i, .credential) (by simp [Call.uses]))
      obtain ⟨o, ho⟩ := objectAt_ok hkey
      obtain ⟨h₁, hset⟩ := set1_ok hs (credentialAt_inv hc) (assigns_privateKey hkey.shapeAt_eq)
        (by simpa using hkey.count_pos) refused
      refine ⟨setReply "Failed to set private key" refused, h₁, ?_⟩
      simp only [setPrivateKey, hc, ho, hset, bind, Except.bind, pure, Except.pure]

theorem setBuffer_ok (hs : Sound h) {field : BufferField} {array buffer failure : String}
    {cred : Option Nat} {data : Option JByteArray} {calls : BufferCalls}
    (ha : ∀ p ∈ Call.uses h (.setOcspResponse cred data calls), Alive h p) :
    ∃ r h', setBuffer field array buffer failure cred data calls h = .ok (r, h') := by
  cases cred with
  | none => exact ⟨_, _, rfl⟩
  | some i =>
    cases data with
    | none => exact ⟨_, _, rfl⟩
    | some a =>
      simp only [setBuffer]
      split
      · exact ⟨_, _, rfl⟩
      rename_i hnonempty
      split
      · exact ⟨_, _, rfl⟩
      rename_i helements
      have hnew : Takes h (h.new .elements) [] [h.length] := new_leaf_takes h rfl
      split
      · obtain ⟨h₁, hrelease⟩ := release_ok hnew hs (List.mem_singleton_self _)
        refine ⟨nullPointer buffer, h₁, ?_⟩
        simp only [hrelease, bind, Except.bind, pure, Except.pure]
      rename_i hbuffer
      have hcred : Alive h (i, .credential) := by
        apply ha
        simp_all [Call.uses]
      have hboth := hnew.with (new_leaf_takes (o := .buffer a.bytes) (h.new .elements) rfl)
      -- The elements hold nothing, so that nothing else goes with them.
      have hleaf : Object.elements.refs = [] := rfl
      obtain ⟨h₁, helem, hkeeps⟩ :=
        ((RefHeap.live_new_self h .elements).new (.buffer a.bytes)).drop_leaf hleaf
      have hbuf := hboth.release [(h.new .elements).length] helem
      have hcred₁ : Alive h₁ (i, .credential) := by
        obtain ⟨o, hlive, hshape⟩ := hcred
        refine ⟨o, hkeeps i o ?_ ((hlive.new _).new _), hshape⟩
        exact Nat.ne_of_lt hlive.lt
      obtain ⟨c, hc⟩ := credentialAt_ok hcred₁
      have hbuffer₁ : Alive h₁ ((h.new .elements).length, .buffer) := by
        refine ⟨.buffer a.bytes, hkeeps _ _ ?_ (RefHeap.live_new_self _ _), rfl⟩
        simp [RefHeap.new]
      have hassigns := assigns_give (c := c) field a.bytes hbuffer₁.shapeAt_eq
      have htaken : ∀ j ∈ field.taken (h.new .elements).length, 0 < h₁.count j := by
        intro j hj
        have hself : j = (h.new .elements).length := by
          unfold BufferField.taken at hj
          split at hj
          · exact List.mem_singleton.mp hj
          · cases hj
        exact hself ▸ hbuffer₁.count_pos
      obtain ⟨h₂, hset⟩ :=
        set1_ok (hbuf.sound hs) (credentialAt_inv hc) hassigns htaken calls.refused
      have hkept := hbuf.with (set1_takes (credentialAt_inv hc) hassigns hset)
      obtain ⟨h₃, hrelease⟩ := release_ok hkept hs (List.mem_cons_self)
      refine ⟨setReply failure calls.refused, h₃, ?_⟩
      simp only [release] at hrelease
      simp only [release, helem, hc, hset, hrelease, bind, Except.bind, pure, Except.pure]

theorem setCertChain_ok (hs : Sound h) (ht : Typed h.values) {cred certChainStack : Option Nat}
    {malloc : Bool} {refused : Option ChainRefused}
    (ha : ∀ p ∈ Call.uses h (.setCertChain cred certChainStack malloc refused), Alive h p) :
    ∃ r h', setCertChain cred certChainStack malloc refused h = .ok (r, h') := by
  cases cred with
  | none => exact ⟨_, _, rfl⟩
  | some i =>
    cases certChainStack with
    | none => exact ⟨_, _, rfl⟩
    | some stack =>
      obtain ⟨certs, hcerts⟩ := chainAt_ok (ha (stack, .chain) (by simp [Call.uses]))
      have hstack := chainAt_inv hcerts
      simp only [setCertChain, hcerts, bind, Except.bind]
      split
      · exact ⟨_, _, rfl⟩
      split
      · exact ⟨_, _, rfl⟩
      rename_i hnonempty hmalloc
      have hcred : Alive h (i, .credential) := by
        apply ha
        simp only [Call.uses, hcerts]
        rw [if_pos ⟨by simpa using hmalloc, fun heq => hnonempty (by cases heq; rfl)⟩]
        simp
      have hnew : Takes h (h.new .memory) [] [h.length] := new_leaf_takes h rfl
      obtain ⟨c, hc⟩ := credentialAt_ok (alive_new hcred .memory)
      have hassigns := assigns_certChain (c := c) (shapeAt_of_chain (hstack.new .memory)) refused
      have hcount : ∀ j ∈ chainTaken certs refused, 0 < (h.new .memory).count j := by
        have hall : ∀ j ∈ certs, 0 < (h.new .memory).count j := by
          intro j hj
          have hheld : Alive h (j, .buffer) :=
            hs.holds_alive ht hstack (List.mem_map.mpr ⟨j, hj, rfl⟩)
          exact (alive_new hheld .memory).count_pos
        intro j hj
        rcases refused with - | ⟨err, - | n⟩
        · exact hall j hj
        · exact absurd hj List.not_mem_nil
        · exact hall j (List.mem_of_mem_take hj)
      obtain ⟨h₁, hassign⟩ := assign_ok (hnew.sound hs) (credentialAt_inv hc) hassigns.refs hcount
      have hkept := hnew.with (assign_takes (credentialAt_inv hc) hassigns hassign)
      obtain ⟨h₂, hrelease⟩ := release_ok hkept hs (List.mem_singleton_self _)
      refine ⟨setReply "Failed to set certificate chain" (refused.map (·.err)), h₂, ?_⟩
      simp only [hc, hassign, hrelease, pure, Except.pure]

theorem setSigningAlgorithmPrefs_ok (hs : Sound h) {cred : Option Nat}
    {prefs : Option (List (BitVec 32))} {malloc getElements : Bool}
    (ha : ∀ p ∈ Call.uses h (.setSigningAlgorithmPrefs cred prefs malloc getElements refused),
      Alive h p) :
    ∃ r h', setSigningAlgorithmPrefs cred prefs malloc getElements refused h = .ok (r, h') := by
  cases cred with
  | none => exact ⟨_, _, rfl⟩
  | some i =>
    cases prefs with
    | none => exact ⟨_, _, rfl⟩
    | some prefs =>
      simp only [setSigningAlgorithmPrefs]
      split
      · exact ⟨_, _, rfl⟩
      split
      · exact ⟨_, _, rfl⟩
      have hmemory : Takes h (h.new .memory) [] [h.length] := new_leaf_takes h rfl
      split
      · obtain ⟨h₁, hrelease⟩ := release_ok hmemory hs (List.mem_singleton_self _)
        refine ⟨.ok .void, h₁, ?_⟩
        simp only [hrelease, bind, Except.bind, pure, Except.pure]
      have hcred : Alive h (i, .credential) := by
        apply ha
        simp_all [Call.uses]
      have hboth := hmemory.with (new_leaf_takes (o := .elements) (h.new .memory) rfl)
      obtain ⟨c, hc⟩ := credentialAt_ok (alive_new (alive_new hcred .memory) .elements)
      have hassigns : Assigns ((h.new .memory).new .elements).values _ _ [] [] :=
        assigns_tell (c := c) (.signingAlgorithmPrefs (prefs.map fun p => p.setWidth 16))
      obtain ⟨h₁, hset⟩ :=
        set1_ok (hboth.sound hs) (credentialAt_inv hc) hassigns (by simp) refused
      have hkept := hboth.with (set1_takes (credentialAt_inv hc) hassigns hset)
      obtain ⟨h₂, helem⟩ := release_ok hkept hs List.mem_cons_self
      obtain ⟨h₃, hrelease⟩ := release_ok (hkept.release [] helem) hs (List.mem_singleton_self _)
      refine ⟨setReply "Failed to set signing algorithm preferences" refused, h₃, ?_⟩
      simp only [hc, hset, helem, hrelease, bind, Except.bind, pure, Except.pure]

theorem setTrustAnchorId_ok (hs : Sound h) {cred : Option Nat} {id : Option JByteArray}
    {getElements : Bool}
    (ha : ∀ p ∈ Call.uses h (.setTrustAnchorId cred id getElements refused), Alive h p) :
    ∃ r h', setTrustAnchorId cred id getElements refused h = .ok (r, h') := by
  cases cred with
  | none => exact ⟨_, _, rfl⟩
  | some i =>
    cases id with
    | none => exact ⟨_, _, rfl⟩
    | some a =>
      simp only [setTrustAnchorId]
      split
      · exact ⟨_, _, rfl⟩
      split
      · exact ⟨_, _, rfl⟩
      have hcred : Alive h (i, .credential) := by
        apply ha
        simp_all [Call.uses]
      have hnew : Takes h (h.new .elements) [] [h.length] := new_leaf_takes h rfl
      obtain ⟨c, hc⟩ := credentialAt_ok (alive_new hcred .elements)
      have hassigns : Assigns (h.new .elements).values _ _ [] [] :=
        assigns_tell (c := c) (.trustAnchorId a.bytes)
      obtain ⟨h₁, hset⟩ :=
        set1_ok (hnew.sound hs) (credentialAt_inv hc) hassigns (by simp) refused
      have hkept := hnew.with (set1_takes (credentialAt_inv hc) hassigns hset)
      obtain ⟨h₂, hrelease⟩ := release_ok hkept hs (List.mem_singleton_self _)
      refine ⟨setReply "Failed to set trust anchor ID" refused, h₂, ?_⟩
      simp only [hc, hset, hrelease, bind, Except.bind, pure, Except.pure]

theorem setMustMatchIssuer_ok (hs : Sound h) {cred : Option Nat} {mustMatch : Bool}
    (ha : ∀ p ∈ Call.uses h (.setMustMatchIssuer cred mustMatch), Alive h p) :
    ∃ r h', setMustMatchIssuer cred mustMatch h = .ok (r, h') := by
  cases cred with
  | none => exact ⟨_, _, rfl⟩
  | some i =>
    obtain ⟨c, hc⟩ := credentialAt_ok (ha (i, .credential) (by simp [Call.uses]))
    have hassigns : Assigns h.values _ _ [] [] := assigns_tell (c := c) (.mustMatchIssuer mustMatch)
    obtain ⟨h₁, hassign⟩ := assign_ok hs (credentialAt_inv hc) hassigns.refs (by simp)
    refine ⟨.ok .void, h₁, ?_⟩
    simp only [setMustMatchIssuer, hc, hassign, bind, Except.bind, pure, Except.pure]

end

end Credential
