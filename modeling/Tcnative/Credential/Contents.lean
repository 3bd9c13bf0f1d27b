-- SUMMARY: What credentials present: the values that Java has set, whatever happened to the objects it passed.
import Tcnative.Credential.Runs

/-!
# Contents of credentials

Seen without references, a credential is a record of values, and a setter replaces one
of them or adds to the settings. The credentials of contexts and connections are lists
of pointers. The API keeps to this view over any run.
-/

namespace Credential
open CMem Jni Tls
open Custody (Balanced)
open Lifetime (Build OwnsCtx)

/-! ## Values -/

/-- A credential as Java sets it up. The key stands for itself. -/
structure Config where
  kind : Kind
  privateKey : Option Nat
  certChain : List (List Byte)
  buffers : BufferField → Option (List Byte)
  settings : List Setting

def Config.new (kind : Kind) : Config := ⟨kind, none, [], fun _ => none, []⟩

def Config.tell (c : Config) (setting : Setting) : Config :=
  { c with settings := c.settings ++ [setting] }

def Config.give (c : Config) (field : BufferField) (bytes : List Byte) : Config :=
  let c := c.tell (.buffer field bytes)
  if field ∈ BufferField.kept then { c with buffers := Function.update c.buffers field (some bytes) }
  else c

/-- What Java knows behind a pointer. -/
inductive Value where
  | other
  | chain (certs : List (List Byte))
  | credential (c : Config)

/-- What is behind every pointer. -/
abbrev Values := Nat → Value

/-- A credential is changed. -/
def Values.configure (m : Values) (i : Nat) (f : Config → Config) : Values :=
  match m i with
  | .credential c => Function.update m i (.credential (f c))
  | _ => m

/-- There is something new behind a pointer that a call returned. -/
def Values.bind (m : Values) (r : Reply) (v : Value) : Values :=
  match r with
  | .ok (.pointer (some i)) => Function.update m i v
  | _ => m

/-- A buffer is set, unless the array is empty or something fails. -/
def Values.setBuffer (m : Values) (field : BufferField) (cred : Option Nat)
    (data : Option JByteArray) (calls : BufferCalls) : Values :=
  match cred, data with
  | some i, some a =>
    if a.bytes.length ≠ 0 ∧ calls.getElements = true ∧ calls.bufferNew = true ∧
        calls.refused = none then
      m.configure i (·.give field a.bytes)
    else m
  | _, _ => m

/-- What a call changes of a credential. A chain that is refused can leave its beginning
behind. -/
def Call.apply (m : Values) (r : Reply) : Call → Values
  | .newX509 _ => m.bind r (.credential (.new .x509))
  | .newDelegated _ => m.bind r (.credential (.new .delegated))
  | .upRef _ | .free _ | .addToSsl _ _ _ | .addToCtx _ _ _ | .getSelectedCredential _ => m
  | .setPrivateKey cred key refused =>
    match cred, key, refused with
    | some i, some k, none => m.configure i fun c => { c with privateKey := some k }
    | _, _, _ => m
  | .setCertChain cred certChainStack malloc refused =>
    match cred, certChainStack with
    | some i, some stack =>
      match m stack with
      | .chain certs =>
        if certs.length ≠ 0 ∧ malloc = true then
          m.configure i fun c => { c with certChain := newChain c.certChain certs refused }
        else m
      | _ => m
    | _, _ => m
  | .setOcspResponse cred data calls => m.setBuffer .ocspResponse cred data calls
  | .setCertificateProperties cred data calls => m.setBuffer .certificateProperties cred data calls
  | .setSignedCertTimestampList cred data calls =>
    m.setBuffer .signedCertTimestampList cred data calls
  | .setDelegatedCredential cred data calls => m.setBuffer .delegatedCredential cred data calls
  | .setSigningAlgorithmPrefs cred prefs malloc getElements refused =>
    match cred, prefs with
    | some i, some prefs =>
      if prefs.length ≠ 0 ∧ malloc = true ∧ getElements = true ∧ refused = none then
        m.configure i (·.tell (.signingAlgorithmPrefs (prefs.map fun p => p.setWidth 16)))
      else m
    | _, _ => m
  | .setMustMatchIssuer cred mustMatch =>
    match cred with
    | some i => m.configure i (·.tell (.mustMatchIssuer mustMatch))
    | none => m
  | .setTrustAnchorId cred id getElements refused =>
    match cred, id with
    | some i, some a =>
      if a.bytes.length ≠ 0 ∧ getElements = true ∧ refused = none then
        m.configure i (·.tell (.trustAnchorId a.bytes))
      else m
    | _, _ => m

/-- What Java knows: what is behind its pointers, and the credentials of its contexts
and connections. -/
structure Known where
  values : Values
  ctxs : Nat → List Nat
  ssls : Nat → List Nat

def Known.start : Known := ⟨fun _ => .other, fun _ => [], fun _ => []⟩

/-- A credential is added to a context or a connection. -/
def Known.add (m : Known) : Call → Known
  | .addToSsl (some i) (some k) true =>
    { m with ssls := Function.update m.ssls i (m.ssls i ++ [k]) }
  | .addToCtx (some c) (some k) true =>
    { m with ctxs := Function.update m.ctxs c (m.ctxs c ++ [k]) }
  | _ => m

/-- A new connection has the credentials of its context. -/
def Known.connect (m : Known) (r : Reply) : Lifetime.Event → Known
  | .make _ _ _ =>
    match r with
    | .ok (.pointer (some c)) => { m with ctxs := Function.update m.ctxs c [] }
    | _ => m
  | .newSSL (some c) _ _ =>
    match r with
    | .ok (.pointer (some i)) => { m with ssls := Function.update m.ssls i (m.ctxs c) }
    | _ => m
  | _ => m

/-- What a step changes. -/
def Event.apply (b : Build) (m : Known) (r : Reply) : Event → Known
  | .call c =>
    if b.library = .boringssl then { m.add c with values := c.apply m.values r } else m
  | .parseX509Chain certs => { m with values := m.values.bind r (.chain certs) }
  | .connect event => m.connect r event
  | .parsePrivateKey | .freePrivateKey _ | .freeX509Chain _ | .handshake _ _ => m

/-- What a run comes to. -/
def contents (b : Build) (t : List (Machine.Entry State Event Reply)) : Known :=
  t.foldl (fun m x => x.event.apply b m x.ret) .start

/-! ## The view of an object -/

/-- The bytes of a buffer. -/
def bytesOf (values : List Object) (i : Nat) : List Byte :=
  match values[i]? with
  | some (.buffer bytes) => bytes
  | _ => []

def SslCredential.config (values : List Object) (c : SslCredential) : Config where
  kind := c.kind
  privateKey := c.privateKey
  certChain := c.certChain.map (bytesOf values)
  buffers field :=
    if field ∈ BufferField.kept then (c.buffers field).map (bytesOf values) else none
  settings := c.settings

def Object.view (values : List Object) : Object → Value
  | .memory | .elements | .privateKey | .buffer _ => .other
  | .chain certs => .chain (certs.map (bytesOf values))
  | .credential c => .credential (c.config values)

def viewAt (values : List Object) : Values := fun i =>
  match values[i]? with
  | some o => o.view values
  | none => .other

section
variable {values : List Object} {i k : Nat} {o o' : Object} {h h' : Heap} {r : Reply}

theorem viewAt_eq (hi : values[i]? = some o) : viewAt values i = o.view values := by
  simp only [viewAt, hi]

theorem lt_of_shapeAt {shape : Shape} (hi : shapeAt values i = some shape) : i < values.length := by
  obtain ⟨o, ho, -⟩ := Option.map_eq_some_iff.mp hi
  exact (List.getElem?_eq_some_iff.mp ho).1

theorem bytesOf_append (hi : i < values.length) (values' : List Object) :
    bytesOf (values ++ values') i = bytesOf values i := by
  simp only [bytesOf, List.getElem?_append_left hi]

/-- The parts of an object stay what they are. -/
theorem view_append (ho : ∀ p ∈ o.holds, shapeAt values p.1 = some p.2) (values' : List Object) :
    o.view (values ++ values') = o.view values := by
  have hbytes : ∀ j, (j, .buffer) ∈ o.holds → bytesOf (values ++ values') j = bytesOf values j :=
    fun j hj => bytesOf_append (lt_of_shapeAt (ho _ hj)) values'
  cases o with
  | memory | elements | privateKey | buffer bytes => rfl
  | chain certs =>
    simp only [Object.view, Value.chain.injEq]
    exact List.map_congr_left fun j hj => hbytes j (List.mem_map.mpr ⟨j, hj, rfl⟩)
  | credential c =>
    have hchain : c.certChain.map (bytesOf (values ++ values')) = c.certChain.map (bytesOf values) := by
      refine List.map_congr_left fun j hj => hbytes j ?_
      simp only [Object.holds, List.mem_append, List.mem_map]
      exact .inl (.inr ⟨j, hj, rfl⟩)
    have hbuffers : (fun field => if field ∈ BufferField.kept then
          (c.buffers field).map (bytesOf (values ++ values')) else none) =
        fun field =>
          if field ∈ BufferField.kept then (c.buffers field).map (bytesOf values) else none := by
      funext field
      split
      · rename_i hkept
        refine Option.map_congr fun j hj => hbytes j ?_
        simp only [Object.holds, List.mem_append, List.mem_flatMap, List.mem_map]
        exact .inr ⟨field, hkept, j, by simpa using hj, rfl⟩
      · rfl
    simp only [Object.view, SslCredential.config, hchain, hbuffers]

theorem viewAt_new (ht : Typed values) (ho : ∀ p ∈ o.holds, shapeAt values p.1 = some p.2) :
    viewAt (values ++ [o]) = Function.update (viewAt values) values.length (o.view values) := by
  funext j
  rcases Nat.lt_trichotomy j values.length with hlt | rfl | hgt
  · rw [Function.update_of_ne (Nat.ne_of_lt hlt)]
    simp only [viewAt, List.getElem?_append_left hlt]
    split
    · rename_i o' ho'
      exact view_append (ht o' (List.mem_of_getElem? ho')) [o]
    · rfl
  · rw [Function.update_self]
    simp only [viewAt, List.getElem?_concat_length]
    exact view_append ho [o]
  · rw [Function.update_of_ne (Nat.ne_of_gt hgt)]
    have hout : (values ++ [o])[j]? = none :=
      List.getElem?_eq_none (by rw [List.length_append, List.length_singleton]; omega)
    simp only [viewAt, hout, List.getElem?_eq_none (Nat.le_of_lt hgt)]

/-- Something that Java does not see. -/
theorem viewAt_hidden (ht : Typed values) (ho : o.holds = []) (hview : o.view values = .other) :
    viewAt (values ++ [o]) = viewAt values ∧ Typed (values ++ [o]) := by
  refine ⟨?_, (grows_new (by simp [ho])).typed ht⟩
  rw [viewAt_new ht (by simp [ho]), hview]
  refine Function.update_eq_self_iff.mpr ?_
  simp only [viewAt, List.getElem?_length]

/-- An object that is no buffer gets another value. -/
theorem viewAt_modify (hi : values[i]? = some o) (hshape : o.shape ≠ .buffer)
    (hshape' : o'.shape = o.shape) :
    viewAt (values.modify i fun _ => o') = Function.update (viewAt values) i (o'.view values) := by
  have hbytes : bytesOf (values.modify i fun _ => o') = bytesOf values := by
    funext j
    rcases eq_or_ne i j with rfl | hne
    · simp only [bytesOf, List.getElem?_modify, hi, if_true]
      cases o with
      | buffer bytes => exact absurd rfl hshape
      | _ => cases o' <;> first | rfl | cases hshape'
    · simp [bytesOf, hne]
  have hview : ∀ x : Object, x.view (values.modify i fun _ => o') = x.view values := by
    intro x
    cases x <;> simp only [Object.view, SslCredential.config, hbytes]
  funext j
  rcases eq_or_ne j i with rfl | hne
  · rw [Function.update_self]
    simp only [viewAt, List.getElem?_modify, hi, if_true]
    exact hview o'
  · rw [Function.update_of_ne hne]
    simp only [viewAt, List.getElem?_modify, if_neg hne.symm]
    cases hj : values[j]? with
    | none => rfl
    | some x => exact hview x

theorem configure_eq {c : SslCredential} (hi : values[i]? = some (.credential c))
    (f : Config → Config) : (viewAt values).configure i f =
      Function.update (viewAt values) i (.credential (f (c.config values))) := by
  simp only [Values.configure, viewAt_eq hi, Object.view]

/-- An object that is no buffer is assigned. -/
theorem assign_object_view {new gone : List Nat} (hlive : h.Live i o) (hshape : o.shape ≠ .buffer)
    (hshape' : o'.shape = o.shape) (hok : assign h i o' new gone = .ok h') :
    viewAt h'.values = Function.update (viewAt h.values) i (o'.view h.values) := by
  unfold assign at hok
  split at hok
  · cases hok
  · rename_i h₁ hup
    rw [RefHeap.values_drop hok, RefHeap.values_update, RefHeap.values_upRefs hup,
      viewAt_modify (RefHeap.live_iff.mp hlive).1 hshape hshape']

/-- A credential is assigned. -/
theorem assign_view {c c' : SslCredential} {new gone : List Nat} {f : Config → Config}
    (hlive : h.Live i (.credential c)) (hf : c'.config h.values = f (c.config h.values))
    (hok : assign h i (.credential c') new gone = .ok h') :
    viewAt h'.values = (viewAt h.values).configure i f := by
  rw [assign_object_view hlive Shape.noConfusion (show (Object.credential c').shape = _ from rfl) hok,
    configure_eq (RefHeap.live_iff.mp hlive).1, Object.view, hf]

theorem set1_view {c c' : SslCredential} {new gone : List Nat} {f : Config → Config}
    {refused : Option String} (hlive : h.Live i (.credential c))
    (hf : c'.config h.values = f (c.config h.values))
    (hok : set1 h refused i c' new gone = .ok h') :
    viewAt h'.values = if refused = none then (viewAt h.values).configure i f
      else viewAt h.values := by
  unfold set1 at hok
  cases refused with
  | none => exact assign_view hlive hf hok
  | some err =>
    cases hok
    rfl

theorem release_view (hok : release h i = .ok h') : viewAt h'.values = viewAt h.values := by
  rw [RefHeap.values_drop hok]

theorem hidden_view (ht : Typed h.values) (ho : o.holds = []) (hview : o.view h.values = .other) :
    viewAt (h.new o).values = viewAt h.values ∧ Typed (h.new o).values := by
  rw [RefHeap.values_new]
  exact viewAt_hidden ht ho hview

/-! ## Setters -/

theorem setPrivateKey_view {cred key : Option Nat} {refused : Option String}
    (hok : setPrivateKey cred key refused h = .ok (r, h')) :
    viewAt h'.values = Call.apply (viewAt h.values) r (.setPrivateKey cred key refused) := by
  cases cred with
  | none =>
    cases hok
    rfl
  | some i =>
    cases key with
    | none =>
      cases hok
      rfl
    | some k =>
      simp only [setPrivateKey] at hok
      obtain ⟨c, hc, hok⟩ := bind_ok hok
      obtain ⟨o, hk, hok⟩ := bind_ok hok
      obtain ⟨h₁, hset, hok⟩ := bind_ok hok
      cases hok
      rw [set1_view (f := fun c => { c with privateKey := some k }) (credentialAt_inv hc) rfl hset]
      cases refused <;> rfl

/-- The bytes of a buffer are those that the credential is given. -/
theorem config_give {values : List Object} {k : Nat} {bytes : List Byte}
    (hk : bytesOf values k = bytes) (c : SslCredential) (field : BufferField) :
    (c.give field k bytes).config values = (c.config values).give field bytes := by
  unfold SslCredential.give Config.give
  split
  · rename_i hkept
    simp only [SslCredential.config, SslCredential.tell, Config.tell, Config.mk.injEq, true_and,
      and_true]
    funext other
    rcases eq_or_ne other field with rfl | hne
    · simp [hkept, hk]
    · simp [Function.update_of_ne hne]
  · rfl

theorem setBuffer_view (ht : Typed h.values) {field : BufferField}
    {array buffer failure : String} {cred : Option Nat} {data : Option JByteArray}
    {calls : BufferCalls}
    (hok : setBuffer field array buffer failure cred data calls h = .ok (r, h')) :
    viewAt h'.values = (viewAt h.values).setBuffer field cred data calls := by
  cases cred with
  | none =>
    cases hok
    rfl
  | some i =>
    cases data with
    | none =>
      cases hok
      rfl
    | some a =>
      simp only [setBuffer] at hok
      simp only [Values.setBuffer]
      split at hok
      · cases hok
        rw [if_neg (by simp_all)]
      split at hok
      · cases hok
        rw [if_neg (by simp_all)]
      obtain ⟨helements, htyped⟩ := hidden_view (o := .elements) ht rfl rfl
      split at hok
      · obtain ⟨h₁, hrelease, hok⟩ := bind_ok hok
        cases hok
        rw [if_neg (by simp_all), release_view hrelease, helements]
      · obtain ⟨h₁, helem, hok⟩ := bind_ok hok
        obtain ⟨c, hc, hok⟩ := bind_ok hok
        obtain ⟨h₂, hset, hok⟩ := bind_ok hok
        obtain ⟨h₃, hrelease, hok⟩ := bind_ok hok
        cases hok
        obtain ⟨hbuffer, -⟩ := hidden_view (o := .buffer a.bytes) htyped rfl rfl
        -- The credential gets the bytes of the array.
        have hbytes : bytesOf h₁.values (h.new .elements).length = a.bytes := by
          rw [RefHeap.values_drop helem, bytesOf,
            (RefHeap.live_iff.mp (RefHeap.live_new_self _ _)).1]
        rw [release_view hrelease, set1_view (f := (·.give field a.bytes)) (credentialAt_inv hc)
          (config_give hbytes c field) hset, release_view helem, hbuffer, helements]
        split
        · rw [if_pos (by simp_all)]
        · rw [if_neg (by simp_all)]

theorem map_newChain {α β : Type} (g : α → β) (old certs : List α) (refused : Option ChainRefused) :
    (newChain old certs refused).map g = newChain (old.map g) (certs.map g) refused := by
  rcases refused with - | ⟨err, - | n⟩
  · rfl
  · rfl
  · simp only [newChain, Option.elim_some, List.map_take]

theorem setCertChain_view (ht : Typed h.values) {cred certChainStack : Option Nat} {malloc : Bool}
    {refused : Option ChainRefused}
    (hok : setCertChain cred certChainStack malloc refused h = .ok (r, h')) :
    viewAt h'.values =
      Call.apply (viewAt h.values) r (.setCertChain cred certChainStack malloc refused) := by
  cases cred with
  | none =>
    cases hok
    rfl
  | some i =>
    cases certChainStack with
    | none =>
      cases hok
      rfl
    | some stack =>
      simp only [setCertChain] at hok
      obtain ⟨certs, hcerts, hok⟩ := bind_ok hok
      have hstack := chainAt_inv hcerts
      have hview : viewAt h.values stack = .chain (certs.map (bytesOf h.values)) :=
        viewAt_eq (RefHeap.live_iff.mp hstack).1
      simp only [Call.apply, hview, List.length_map]
      split at hok
      · cases hok
        rw [if_neg (by simp_all)]
      split at hok
      · cases hok
        rw [if_neg (by simp_all)]
      · obtain ⟨c, hc, hok⟩ := bind_ok hok
        obtain ⟨h₁, hassign, hok⟩ := bind_ok hok
        obtain ⟨h₂, hrelease, hok⟩ := bind_ok hok
        cases hok
        obtain ⟨hmemory, -⟩ := hidden_view (o := .memory) ht rfl rfl
        -- The buffers of the stack are not touched.
        have hbytes : certs.map (bytesOf (h.new .memory).values) = certs.map (bytesOf h.values) := by
          rw [RefHeap.values_new]
          refine List.map_congr_left fun j hj => bytesOf_append ?_ _
          exact lt_of_shapeAt (shapeAt_of_chain hstack ht j hj)
        rw [release_view hrelease, assign_view (f := fun config =>
            { config with
              certChain := newChain config.certChain (certs.map (bytesOf h.values)) refused })
          (credentialAt_inv hc) ?_ hassign, hmemory, if_pos (by simp_all)]
        simp only [SslCredential.config, map_newChain, hbytes]

theorem setSigningAlgorithmPrefs_view (ht : Typed h.values) {cred : Option Nat}
    {prefs : Option (List (BitVec 32))} {malloc getElements : Bool} {refused : Option String}
    (hok : setSigningAlgorithmPrefs cred prefs malloc getElements refused h = .ok (r, h')) :
    viewAt h'.values = Call.apply (viewAt h.values) r
      (.setSigningAlgorithmPrefs cred prefs malloc getElements refused) := by
  cases cred with
  | none =>
    cases hok
    rfl
  | some i =>
    cases prefs with
    | none =>
      cases hok
      rfl
    | some prefs =>
      simp only [setSigningAlgorithmPrefs] at hok
      simp only [Call.apply]
      split at hok
      · cases hok
        rw [if_neg (by simp_all)]
      split at hok
      · cases hok
        rw [if_neg (by simp_all)]
      obtain ⟨hmemory, htyped⟩ := hidden_view (o := .memory) ht rfl rfl
      split at hok
      · obtain ⟨h₁, hrelease, hok⟩ := bind_ok hok
        cases hok
        rw [if_neg (by simp_all), release_view hrelease, hmemory]
      · obtain ⟨c, hc, hok⟩ := bind_ok hok
        obtain ⟨h₁, hset, hok⟩ := bind_ok hok
        obtain ⟨h₂, helem, hok⟩ := bind_ok hok
        obtain ⟨h₃, hrelease, hok⟩ := bind_ok hok
        cases hok
        obtain ⟨helements, -⟩ := hidden_view (o := .elements) htyped rfl rfl
        rw [release_view hrelease, release_view helem, set1_view
          (f := (·.tell (.signingAlgorithmPrefs (prefs.map fun p => p.setWidth 16))))
          (credentialAt_inv hc) rfl hset, helements, hmemory]
        split
        · rw [if_pos (by simp_all)]
        · rw [if_neg (by simp_all)]

theorem setTrustAnchorId_view (ht : Typed h.values) {cred : Option Nat} {id : Option JByteArray}
    {getElements : Bool} {refused : Option String}
    (hok : setTrustAnchorId cred id getElements refused h = .ok (r, h')) :
    viewAt h'.values =
      Call.apply (viewAt h.values) r (.setTrustAnchorId cred id getElements refused) := by
  cases cred with
  | none =>
    cases hok
    rfl
  | some i =>
    cases id with
    | none =>
      cases hok
      rfl
    | some a =>
      simp only [setTrustAnchorId] at hok
      simp only [Call.apply]
      split at hok
      · cases hok
        rw [if_neg (by simp_all)]
      split at hok
      · cases hok
        rw [if_neg (by simp_all)]
      · obtain ⟨c, hc, hok⟩ := bind_ok hok
        obtain ⟨h₁, hset, hok⟩ := bind_ok hok
        obtain ⟨h₂, hrelease, hok⟩ := bind_ok hok
        cases hok
        obtain ⟨helements, -⟩ := hidden_view (o := .elements) ht rfl rfl
        rw [release_view hrelease, set1_view (f := (·.tell (.trustAnchorId a.bytes)))
          (credentialAt_inv hc) rfl hset, helements]
        split
        · rw [if_pos (by simp_all)]
        · rw [if_neg (by simp_all)]

theorem setMustMatchIssuer_view {cred : Option Nat} {mustMatch : Bool}
    (hok : setMustMatchIssuer cred mustMatch h = .ok (r, h')) :
    viewAt h'.values = Call.apply (viewAt h.values) r (.setMustMatchIssuer cred mustMatch) := by
  cases cred with
  | none =>
    cases hok
    rfl
  | some i =>
    simp only [setMustMatchIssuer] at hok
    obtain ⟨c, hc, hok⟩ := bind_ok hok
    obtain ⟨h₁, hassign, hok⟩ := bind_ok hok
    cases hok
    rw [assign_view (f := (·.tell (.mustMatchIssuer mustMatch))) (credentialAt_inv hc) rfl hassign]
    rfl

/-! ## Calls -/

section
variable {b : Build} {s s' : State}

theorem handOut_view (ht : Typed h.values) (ho : ∀ p ∈ o.holds, shapeAt h.values p.1 = some p.2) :
    viewAt (State.handOut { s with heap := h } o).2.heap.values =
      (viewAt h.values).bind (State.handOut { s with heap := h } o).1 (o.view h.values) := by
  simp only [State.handOut, Values.bind, RefHeap.values_new]
  rw [viewAt_new ht ho, RefHeap.values, List.length_map]

/-- A new credential has nothing. -/
theorem newCredential_view (ht : Typed s.heap.values) (kind : Kind) :
    viewAt (s.handOut (.credential (.new kind))).2.heap.values =
      (viewAt s.heap.values).bind (s.handOut (.credential (.new kind))).1
        (.credential (.new kind)) := by
  have hholds : (Object.credential (.new kind)).holds = [] := by
    simp [Object.holds, SslCredential.new, BufferField.kept]
  have hview : (Object.credential (.new kind)).view s.heap.values = .credential (.new kind) := by
    simp [Object.view, SslCredential.config, SslCredential.new, Config.new]
  rw [← hview]
  exact handOut_view (s := s) ht (by simp [hholds])

theorem takeBack_view {shape : Shape} (hok : s.takeBack i shape = .ok (r, s')) :
    viewAt s'.heap.values = viewAt s.heap.values := by
  simp only [State.takeBack] at hok
  obtain ⟨o, ho, hok⟩ := bind_ok hok
  obtain ⟨heap, hrelease, hok⟩ := bind_ok hok
  cases hok
  exact release_view hrelease

theorem within_view {f : Heap → Except Fault (Reply × Heap)} {g : Reply → Values}
    (hf : ∀ r h', f s.heap = .ok (r, h') → viewAt h'.values = g r)
    (hok : s.within f = .ok (r, s')) : viewAt s'.heap.values = g r := by
  unfold State.within at hok
  split at hok
  · cases hok
  · rename_i heap hf'
    cases hok
    exact hf _ heap hf'

/-- New buffers are not seen, and have the bytes that they are for. -/
theorem newBuffers_view (certs : List (List Byte)) (ht : Typed h.values) :
    viewAt (newBuffers certs h).2.values = viewAt h.values ∧
      (newBuffers certs h).1.map (bytesOf (newBuffers certs h).2.values) = certs ∧
      (∃ buffers, (newBuffers certs h).2.values = h.values ++ buffers) := by
  induction certs generalizing h with
  | nil => exact ⟨rfl, rfl, [], (List.append_nil _).symm⟩
  | cons bytes certs ih =>
    obtain ⟨hnew, htyped⟩ := hidden_view (o := .buffer bytes) ht rfl rfl
    obtain ⟨hview, hbytes, buffers, hvalues⟩ := ih htyped
    simp only [newBuffers]
    refine ⟨hview.trans hnew, ?_, .buffer bytes :: buffers, ?_⟩
    · rw [List.map_cons, hbytes, hvalues, bytesOf_append (by simp [RefHeap.values, RefHeap.new]),
        bytesOf, (RefHeap.live_iff.mp (RefHeap.live_new_self h _)).1]
    · rw [hvalues, RefHeap.values_new, List.append_assoc, List.singleton_append]

/-- References do not change contents. -/
theorem upRef_view (hok : h.upRef i = .ok h') : viewAt h'.values = viewAt h.values := by
  rw [RefHeap.values_upRef hok]

theorem addToSsl_view {ssl cred : Option Nat} {added : Bool}
    (hok : addToSsl ssl cred added s = .ok (r, s')) :
    viewAt s'.heap.values = viewAt s.heap.values := by
  cases ssl with
  | none =>
    cases hok
    rfl
  | some i =>
    cases cred with
    | none =>
      cases hok
      rfl
    | some k =>
      simp only [addToSsl] at hok
      obtain ⟨v, hssl, hok⟩ := bind_ok hok
      obtain ⟨c, hc, hok⟩ := bind_ok hok
      split at hok
      · obtain ⟨⟨h, credentials⟩, hadd, hok⟩ := bind_ok hok
        cases hok
        obtain ⟨old, hold, hup, rfl⟩ := addCredential_inv hadd
        exact upRef_view hup
      · cases hok
        rfl

theorem addToCtx_view {ctx cred : Option Nat} {added : Bool}
    (hok : addToCtx ctx cred added s = .ok (r, s')) :
    viewAt s'.heap.values = viewAt s.heap.values := by
  cases ctx with
  | none =>
    cases hok
    rfl
  | some c =>
    cases cred with
    | none =>
      cases hok
      rfl
    | some k =>
      simp only [addToCtx] at hok
      obtain ⟨i, hctx, hok⟩ := bind_ok hok
      obtain ⟨cred, hc, hok⟩ := bind_ok hok
      split at hok
      · obtain ⟨⟨h, credentials⟩, hadd, hok⟩ := bind_ok hok
        cases hok
        obtain ⟨old, hold, hup, rfl⟩ := addCredential_inv hadd
        exact upRef_view hup
      · cases hok
        rfl

theorem callStep_view (ht : Typed s.heap.values) {c : Call} (hok : callStep s c = .ok (r, s')) :
    viewAt s'.heap.values = c.apply (viewAt s.heap.values) r := by
  cases c with
  | newX509 created =>
    cases created with
    | false =>
      cases hok
      rfl
    | true =>
      cases hok
      exact newCredential_view ht .x509
  | newDelegated err =>
    cases err with
    | some err =>
      cases hok
      rfl
    | none =>
      cases hok
      exact newCredential_view ht .delegated
  | upRef cred =>
    cases cred with
    | none =>
      cases hok
      rfl
    | some i =>
      simp only [callStep, upRef] at hok
      obtain ⟨c, hc, hok⟩ := bind_ok hok
      obtain ⟨heap, hup, hok⟩ := bind_ok hok
      cases hok
      exact upRef_view hup
  | free cred =>
    cases cred with
    | none =>
      cases hok
      rfl
    | some i => exact takeBack_view hok
  | setPrivateKey cred key refused => exact within_view (fun _ _ => setPrivateKey_view) hok
  | setCertChain cred stack malloc refused => exact within_view (fun _ _ => setCertChain_view ht) hok
  | setOcspResponse cred data calls => exact within_view (fun _ _ => setBuffer_view ht) hok
  | setCertificateProperties cred data calls => exact within_view (fun _ _ => setBuffer_view ht) hok
  | setSignedCertTimestampList cred data calls => exact within_view (fun _ _ => setBuffer_view ht) hok
  | setDelegatedCredential cred data calls => exact within_view (fun _ _ => setBuffer_view ht) hok
  | setSigningAlgorithmPrefs cred prefs malloc getElements refused =>
    exact within_view (fun _ _ => setSigningAlgorithmPrefs_view ht) hok
  | setMustMatchIssuer cred mustMatch => exact within_view (fun _ _ => setMustMatchIssuer_view) hok
  | setTrustAnchorId cred id getElements refused =>
    exact within_view (fun _ _ => setTrustAnchorId_view ht) hok
  | addToSsl ssl cred added => exact addToSsl_view hok
  | addToCtx ctx cred added => exact addToCtx_view hok
  | getSelectedCredential ssl =>
    cases ssl with
    | none =>
      cases hok
      rfl
    | some i =>
      obtain ⟨-, rfl⟩ := getSelectedCredential_inv hok
      rfl

/-! ## Steps -/

/-- Java knows what is behind its pointers. -/
structure Shows (s : State) (m : Known) : Prop where
  values : viewAt s.heap.values = m.values
  ctxs : ∀ c v, s.connections.ctxts.Live c v → s.ctxCredentials[v.ctx]? = some (m.ctxs c)
  ssls : ∀ i v, s.connections.ssls.Live i v → s.sslCredentials[i]? = some (m.ssls i)
  selected : ∀ i v cs, s.connections.ssls.Live i v → s.selected[i]? = some cs → cs ⊆ m.ssls i

theorem shows_start : Shows .start .start where
  values := rfl
  ctxs _ _ hlive := by cases hlive
  ssls _ _ hlive := by cases hlive
  selected _ _ _ hlive := by cases hlive

/-- Only objects change. -/
theorem Shows.withValues {m : Known} (hs : Shows s m) {values : Values}
    (hview : viewAt s'.heap.values = values) (hconnections : s'.connections = s.connections)
    (hctxs : s'.ctxCredentials = s.ctxCredentials) (hssls : s'.sslCredentials = s.sslCredentials)
    (hselected : s'.selected = s.selected) : Shows s' { m with values } where
  values := hview
  ctxs c v hlive := hctxs ▸ hs.ctxs c v (hconnections ▸ hlive)
  ssls i v hlive := hssls ▸ hs.ssls i v (hconnections ▸ hlive)
  selected i v cs hlive hcs := hs.selected i v cs (hconnections ▸ hlive) (hselected ▸ hcs)

/-- A credential more for a connection. -/
theorem getElem?_addCredential {credentials : List (List Nat)} {old cs : List Nat} {j : Nat}
    (hold : credentials[i]? = some old) (hj : credentials[j]? = some cs) :
    (credentials.set i (old ++ [k]))[j]? = some (if j = i then cs ++ [k] else cs) := by
  rcases eq_or_ne j i with rfl | hne
  · cases hold.symm.trans hj
    rw [if_pos rfl, List.getElem?_set_self (List.getElem?_eq_some_iff.mp hj).1]
  · rw [if_neg hne, List.getElem?_set_ne hne.symm, hj]

theorem addToSsl_shows {m : Known} (hs : Shows s m) {ssl cred : Option Nat} {added : Bool}
    (hok : addToSsl ssl cred added s = .ok (r, s')) : Shows s' (m.add (.addToSsl ssl cred added)) := by
  cases ssl with
  | none =>
    cases hok
    exact hs
  | some i =>
    cases cred with
    | none =>
      cases hok
      exact hs
    | some k =>
      simp only [addToSsl] at hok
      obtain ⟨v, hssl, hok⟩ := bind_ok hok
      obtain ⟨c, hc, hok⟩ := bind_ok hok
      cases added with
      | false =>
        cases hok
        exact hs
      | true =>
        obtain ⟨⟨h, credentials⟩, hadd, hok⟩ := bind_ok hok
        cases hok
        obtain ⟨old, hold, hup, rfl⟩ := addCredential_inv hadd
        refine ⟨(upRef_view hup).trans hs.values, hs.ctxs, fun j w hlive => ?_,
          fun j w cs hlive hcs => ?_⟩
        · rw [getElem?_addCredential hold (hs.ssls j w hlive)]
          simp only [Known.add, Function.update_apply]
          split
          · rename_i heq
            rw [heq]
          · rfl
        · have hsub := hs.selected j w cs hlive hcs
          simp only [Known.add, Function.update_apply]
          split
          · rename_i heq
            exact List.subset_append_of_subset_left _ (heq ▸ hsub)
          · exact hsub

theorem addToCtx_shows {m : Known} (hs : Shows s m) (hown : OwnsCtx s.connections)
    {ctx cred : Option Nat} {added : Bool} (hok : addToCtx ctx cred added s = .ok (r, s')) :
    Shows s' (m.add (.addToCtx ctx cred added)) := by
  cases ctx with
  | none =>
    cases hok
    exact hs
  | some c =>
    cases cred with
    | none =>
      cases hok
      exact hs
    | some k =>
      simp only [addToCtx] at hok
      obtain ⟨i, hctx, hok⟩ := bind_ok hok
      obtain ⟨cred, hc, hok⟩ := bind_ok hok
      obtain ⟨⟨v, hlive, rfl⟩, -⟩ := ctxOf_inv hctx
      cases added with
      | false =>
        cases hok
        exact hs
      | true =>
        obtain ⟨⟨h, credentials⟩, hadd, hok⟩ := bind_ok hok
        cases hok
        obtain ⟨old, hold, hup, rfl⟩ := addCredential_inv hadd
        refine ⟨(upRef_view hup).trans hs.values, fun d w hlive' => ?_, hs.ssls, hs.selected⟩
        rw [getElem?_addCredential hold (hs.ctxs d w hlive')]
        simp only [Known.add, Function.update_apply]
        -- No other context has the `SSL_CTX`.
        rcases eq_or_ne d c with rfl | hne
        · rw [if_pos rfl, hlive'.unique hlive, if_pos rfl]
        · rw [if_neg hne, if_neg fun heq => hne (hown.unique d c w v hlive' hlive heq)]

theorem callStep_shows {m : Known} (hs : Shows s m) (ht : Typed s.heap.values)
    (hown : OwnsCtx s.connections) {c : Call} (hok : callStep s c = .ok (r, s')) :
    Shows s' { m.add c with values := c.apply m.values r } := by
  have hview := callStep_view ht hok
  rw [hs.values] at hview
  have hwithin : ∀ {f : Heap → Except Fault (Reply × Heap)}, s.within f = .ok (r, s') →
      Shows s' { m with values := c.apply m.values r } := by
    intro f hok
    unfold State.within at hok
    split at hok
    · cases hok
    · cases hok
      exact hs.withValues hview rfl rfl rfl rfl
  cases c with
  | newX509 created =>
    cases created with
    | true | false =>
      cases hok
      exact hs.withValues hview rfl rfl rfl rfl
  | newDelegated err =>
    cases err with
    | none | some err =>
      cases hok
      exact hs.withValues hview rfl rfl rfl rfl
  | upRef cred =>
    cases cred with
    | none =>
      cases hok
      exact hs.withValues hview rfl rfl rfl rfl
    | some i =>
      simp only [callStep, upRef] at hok
      obtain ⟨c, hc, hok⟩ := bind_ok hok
      obtain ⟨heap, hup, hok⟩ := bind_ok hok
      cases hok
      exact hs.withValues hview rfl rfl rfl rfl
  | free cred =>
    cases cred with
    | none =>
      cases hok
      exact hs.withValues hview rfl rfl rfl rfl
    | some i =>
      obtain ⟨-, h, -, rfl⟩ := takeBack_inv (show s.takeBack i .credential = _ from hok)
      exact hs.withValues hview rfl rfl rfl rfl
  | setPrivateKey _ _ _ | setCertChain _ _ _ _ | setOcspResponse _ _ _
  | setCertificateProperties _ _ _ | setSignedCertTimestampList _ _ _ | setDelegatedCredential _ _ _
  | setSigningAlgorithmPrefs _ _ _ _ _ | setMustMatchIssuer _ _ | setTrustAnchorId _ _ _ _ =>
    exact hwithin hok
  | addToSsl ssl cred added =>
    have hadded := addToSsl_shows hs hok
    exact ⟨hview, hadded.ctxs, hadded.ssls, hadded.selected⟩
  | addToCtx ctx cred added =>
    have hadded := addToCtx_shows hs hown hok
    exact ⟨hview, hadded.ctxs, hadded.ssls, hadded.selected⟩
  | getSelectedCredential ssl =>
    cases ssl with
    | none =>
      cases hok
      exact hs.withValues hview rfl rfl rfl rfl
    | some i =>
      obtain ⟨-, rfl⟩ := getSelectedCredential_inv hok
      exact hs.withValues hview rfl rfl rfl rfl

theorem known_connect_eq {m : Known} {event : Lifetime.Event} {reply : Lifetime.Reply}
    (hold : event.isNew reply = false) : m.connect (replyOf reply) event = m := by
  cases event with
  | make protocol mode calls =>
    rcases reply with t | _ | c
    · rfl
    · rfl
    · cases hold
  | newSSL ctx server calls =>
    rcases ctx with - | c
    · rfl
    rcases reply with t | _ | i
    · rfl
    · rfl
    · cases hold
  | _ => rfl

theorem connect_shows {m : Known} (hs : Shows s m) (hinv : Inv b s)
    {event : Lifetime.Event} (hok : connect b event s = .ok (r, s'))
    (hbs : Balanced s'.connections.count s'.connections.held) : Shows s' (m.connect r event) := by
  obtain ⟨reply, h, hstep, hup, hdrop, rfl, hjava, hctxs, hssls, hselected⟩ := connect_inv hok
  have hvalues : viewAt s'.heap.values = m.values := by
    rw [RefHeap.values_drop hdrop, RefHeap.values_upRefs hup, hs.values]
  -- What lives before and after the step keeps its credentials.
  have hctx : ∀ c v, s.connections.ctxts.Live c v → s'.connections.ctxts.Live c v →
      s'.ctxCredentials[v.ctx]? = some (m.ctxs c) := by
    intro c v hlive hlive'
    have hold := hs.ctxs c v hlive
    have hlives : 0 < s'.connections.sslCtxs.count v.ctx :=
      (Lifetime.sound_of_balanced hbs).ctxt hlive'
    have hlt := (List.getElem?_eq_some_iff.mp hold).1
    rw [hctxs, List.getElem?_append_left (by rwa [length_kept]), kept_getElem?, hold]
    simp [hlives]
  have hssl : ∀ i v w, s.connections.ssls.Live i w → s'.connections.ssls.Live i v →
      s'.sslCredentials[i]? = some (m.ssls i) := by
    intro i v w hlive hlive'
    have hold := hs.ssls i w hlive
    have hlt := (List.getElem?_eq_some_iff.mp hold).1
    rw [hssls, List.getElem?_append_left (by rwa [length_kept]), kept_getElem?, hold]
    simp [hlive'.count_eq]
  have hsel : ∀ i w cs, s.connections.ssls.Live i w → s'.selected[i]? = some cs → cs ⊆ m.ssls i := by
    intro i w cs hlive hcs
    have hlt : i < s.selected.length := hinv.selected ▸ hlive.lt
    rw [hselected, List.getElem?_append_left (by rwa [length_kept]), kept_getElem?] at hcs
    obtain ⟨old, hold, rfl⟩ := Option.map_eq_some_iff.mp hcs
    split
    · exact hs.selected i w old hlive hold
    · exact List.nil_subset _
  cases Lifetime.lifetimeStep_changes hstep with
  | made v hlength hctx' hmode hctxts hsame hstates =>
    refine ⟨hvalues, fun c w hlive => ?_, fun i w hlive => hssl i w w (hsame ▸ hlive) hlive,
      fun i w cs hlive hcs => hsel i w cs (hsame ▸ hlive) hcs⟩
    have hcases := Arena.live_iff_alloc.mp (hctxts ▸ hlive)
    simp only [Known.connect, replyOf]
    rcases hcases with hold | ⟨rfl, rfl⟩
    · rw [Function.update_of_ne (Nat.ne_of_lt hold.lt)]
      exact hctx c w hold hlive
    · rw [Function.update_self, hctxs, hlength, hctx', ← hinv.ctxs]
      rw [List.getElem?_append_right (by rw [length_kept]), length_kept]
      simp
  | created v hctxt hlength hctxts hnew hstates =>
    refine ⟨hvalues, fun c x hlive => hctx c x (hctxts ▸ hlive) hlive, fun i x hlive => ?_,
      fun i x cs hlive hcs => ?_⟩
    · have hcases := Arena.live_iff_alloc.mp (hnew ▸ hlive)
      simp only [Known.connect, replyOf]
      rcases hcases with hold | ⟨rfl, rfl⟩
      · rw [Function.update_of_ne (Nat.ne_of_lt hold.lt)]
        exact hssl i x x hold hlive
      · have hcredentials := hs.ctxs _ v hctxt
        rw [Function.update_self, hssls, ← hinv.ssls,
          List.getElem?_append_right (by rw [length_kept]), length_kept]
        simp [State.inherited, hnew, Arena.alloc, hcredentials]
    · have hcases := Arena.live_iff_alloc.mp (hnew ▸ hlive)
      simp only [Known.connect, replyOf]
      rcases hcases with hold | ⟨rfl, rfl⟩
      · rw [Function.update_of_ne (Nat.ne_of_lt hold.lt)]
        exact hsel i x cs hold hcs
      · -- The handshake has not begun.
        have hnone : cs = [] := by
          rw [hselected, ← hinv.selected, List.getElem?_append_right (by rw [length_kept])] at hcs
          exact List.eq_of_mem_replicate (List.mem_of_getElem? hcs)
        exact hnone ▸ List.nil_subset _
  | shrunk hshrinks hold =>
    rw [known_connect_eq hold]
    refine ⟨hvalues, fun c v hlive => hctx c v (hshrinks.ctxt c v hlive) hlive,
      fun i v hlive => ?_, fun i v cs hlive hcs => ?_⟩
    · obtain ⟨bio, hw⟩ := hshrinks.ssl i v hlive
      exact hssl i v _ hw hlive
    · obtain ⟨bio, hw⟩ := hshrinks.ssl i v hlive
      exact hsel i _ cs hw hcs

theorem handshake_shows {m : Known} (hs : Shows s m) {ssl : Nat} {selection : Option Nat}
    (hok : handshake ssl selection s = .ok (r, s')) : Shows s' m := by
  unfold handshake at hok
  split at hok
  · cases hok
  rename_i v hssl
  split at hok
  · rename_i credentials old hcredentials hold
    dsimp only at hok
    split at hok
    · cases hok
    rename_i h hup
    split at hok
    · cases hok
    rename_i heap hdrop
    cases hok
    have hview : viewAt heap.values = m.values := by
      rw [RefHeap.values_drop hdrop, RefHeap.values_upRefs hup, hs.values]
    refine ⟨hview, hs.ctxs, hs.ssls, fun i w cs hlive hcs => ?_⟩
    rcases eq_or_ne ssl i with rfl | hne
    · rw [List.getElem?_set_self (List.getElem?_eq_some_iff.mp hold).1] at hcs
      cases hcs
      cases hcredentials.symm.trans (hs.ssls ssl w hlive)
      intro k hk
      obtain ⟨n, -, hn⟩ := Option.bind_eq_some_iff.mp (Option.mem_toList.mp hk)
      exact List.mem_of_getElem? hn
    · rw [List.getElem?_set_ne hne] at hcs
      exact hs.selected i w cs hlive hcs
  · cases hok

theorem credentialStep_shows {m : Known} (hs : Shows s m) (hinv : Inv b s)
    (hown : OwnsCtx s.connections) {event : Event}
    (hok : credentialStep b s event = .ok (r, s'))
    (hb : Balanced s'.count s'.held) : Shows s' (event.apply b m r) := by
  have ht := hinv.typed
  cases event with
  | call c =>
    simp only [credentialStep] at hok
    simp only [Event.apply]
    split at hok
    · rename_i hlib
      rw [if_pos hlib]
      exact callStep_shows hs ht hown hok
    · rename_i hlib
      cases hok
      rwa [if_neg hlib]
  | parsePrivateKey =>
    cases hok
    refine hs.withValues ?_ rfl rfl rfl rfl
    rw [← hs.values]
    exact (hidden_view ht rfl rfl).1
  | freePrivateKey i | freeX509Chain i =>
    obtain ⟨-, h, -, heq⟩ := takeBack_inv hok
    have hview := (takeBack_view hok).trans hs.values
    subst heq
    exact hs.withValues hview rfl rfl rfl rfl
  | parseX509Chain certs =>
    obtain ⟨hview, hbytes, -⟩ := newBuffers_view certs ht
    obtain ⟨htakes, hshapes⟩ := newBuffers_takes certs s.heap
    cases hok
    have hhand := handOut_view (s := s) (o := .chain (newBuffers certs s.heap).1)
      (htakes.grows.typed ht) fun p hp => by
        obtain ⟨j, hj, rfl⟩ := List.mem_map.mp hp
        exact hshapes j hj
    rw [Object.view, hbytes, hview, hs.values] at hhand
    exact hs.withValues hhand rfl rfl rfl rfl
  | handshake ssl selection => exact handshake_shows hs hok
  | connect event => exact connect_shows hs hinv hok (Custody.balanced_both.mp hb).1

theorem credentialStep_ownsCtx (hown : OwnsCtx s.connections) {event : Event}
    (hok : credentialStep b s event = .ok (r, s')) : OwnsCtx s'.connections := by
  cases event with
  | connect event =>
    obtain ⟨reply, h, hstep, -⟩ := connect_inv hok
    exact hown.step (Lifetime.lifetimeStep_changes hstep)
  | _ => exact (credentialStep_effect hok nofun).connections ▸ hown

end

end

/-! ## Runs -/

/-- In every run in which Java keeps to the rules, whatever is alive has the contents
that the calls before have given it, and contexts and connections have the credentials
that were added to them, or that a connection took over. A handshake selects one of
these. All that an object has is alive, and so are these credentials. -/
theorem credential_contents (b : Build) (events : List Event)
    (hobeys : Machine.Meets (credentialStep b) (Obeys b) .start events) :
    ∃ t s', Machine.run (credentialStep b) .start events = .ok (t, s') ∧
      (∀ i o, s'.heap.Live i o → o.view s'.heap.values = (contents b t).values i ∧
        ∀ p ∈ o.holds, Alive s'.heap p) ∧
      (∀ c v, s'.connections.ctxts.Live c v →
        s'.ctxCredentials[v.ctx]? = some ((contents b t).ctxs c)) ∧
      (∀ i v, s'.connections.ssls.Live i v →
        s'.sslCredentials[i]? = some ((contents b t).ssls i)) ∧
      (∀ i v cs, s'.connections.ssls.Live i v → s'.selected[i]? = some cs →
        cs ⊆ (contents b t).ssls i) ∧
      ∀ k ∈ s'.credentials, Alive s'.heap (k, .credential) := by
  have hruns := Machine.run_sat_traced (F := fun _ => False) (Q := fun _ _ => True)
    (I := fun t s => (Inv b s ∧ Balanced s.count s.held) ∧ OwnsCtx s.connections ∧
      Shows s (contents b t)) ?_ ?_ hobeys
  · obtain ⟨t, s', hrun, -⟩ :=
      (credentialStep_accounts b).run_balanced (inv_start b) balanced_start hobeys
    rw [hrun] at hruns
    obtain ⟨⟨⟨hinv, hb⟩, -, hshows⟩, -⟩ := hruns
    obtain ⟨-, hbo⟩ := Custody.balanced_both.mp hb
    refine ⟨t, s', hrun, fun i o hlive => ⟨?_, fun p hp => ?_⟩, hshows.ctxs, hshows.ssls,
      hshows.selected, fun k hk => ?_⟩
    · rw [← hshows.values, viewAt_eq (RefHeap.live_iff.mp hlive).1]
    · exact (sound_of_balanced hbo).holds_alive hinv.typed hlive hp
    · obtain ⟨o, ho, hshape⟩ := Option.map_eq_some_iff.mp (hinv.credentials k hk)
      have hpos := hbo.pos (List.mem_append_left _ (List.mem_append_right _ hk))
      exact ⟨o, RefHeap.live_iff.mpr ⟨ho, hpos⟩, hshape⟩
  · rintro t s event ⟨⟨hinv, hb⟩, hown, hshows⟩ hobeys
    obtain ⟨r, s', hok⟩ := credentialStep_ok hinv hb hobeys
    have hb' := (credentialStep_moves hok).balanced hobeys hb
    rw [hok]
    refine ⟨⟨⟨credentialStep_inv hinv hok, hb'⟩, credentialStep_ownsCtx hown hok, ?_⟩, trivial⟩
    have hnext := credentialStep_shows hshows hinv hown hok hb'
    rw [contents, List.foldl_append]
    exact hnext
  · exact ⟨⟨inv_start b, balanced_start⟩, Lifetime.ownsCtx_start, shows_start⟩

/-- The credential of the connection is the one that was added to the context. -/
theorem credential_contents_kept :
    ∃ t s', Machine.run (credentialStep Lifetime.boringssl) .start (keptCredential.take 17) =
        .ok (t, s') ∧
      (∀ i o, s'.heap.Live i o →
        o.view s'.heap.values = (contents Lifetime.boringssl t).values i ∧
          ∀ p ∈ o.holds, Alive s'.heap p) ∧
      (∀ c v, s'.connections.ctxts.Live c v →
        s'.ctxCredentials[v.ctx]? = some ((contents Lifetime.boringssl t).ctxs c)) ∧
      (∀ i v, s'.connections.ssls.Live i v →
        s'.sslCredentials[i]? = some ((contents Lifetime.boringssl t).ssls i)) ∧
      (∀ i v cs, s'.connections.ssls.Live i v → s'.selected[i]? = some cs →
        cs ⊆ (contents Lifetime.boringssl t).ssls i) ∧
      ∀ k ∈ s'.credentials, Alive s'.heap (k, .credential) :=
  credential_contents Lifetime.boringssl (keptCredential.take 17) (by decide)

end Credential
