-- SUMMARY: Sequences of setter calls own exactly one global reference for each slot that is filled, and none after the clean-up.
import Tcnative.Base.Machine
import Tcnative.Context.Slots

/-!
# Ownership of global references

Every slot owns the reference that it points to, and nothing else does. A call
that succeeds passes one slot on to a new reference or to none, and a call that
fails leaves all of them as they are.
-/

namespace Context
open CMem Jni Tls

/-! ## Calls -/

/-- A call of a setter, with its argument and with what succeeds during it. -/
inductive Call where
  | setCertVerifyCallback (verifier : Option JObject) (calls : SetterCalls)
  | setCertRequestedCallback (callback : Option JObject) (calls : SetterCalls)
  | setCertificateCallback (callback : Option JObject) (calls : SetterCalls)
  | setSniHostnameMatcher (matcher : Option JObject) (calls : SetterCalls)
  | setSSLSessionCache (cache : Option JObject) (calls : SetterCalls)
  | setPrivateKeyMethod0 (method : Option JObject) (calls : SetterCalls)
  | setKeyLogCallback (callback : Option JObject) (calls : SetterCalls)
  | addCertificateCompressionAlgorithm0 (direction algorithmId : Int) (algorithm : Option JObject)
      (calls : SetterCalls) (added : Bool)

def callStep (b : Build) : Machine.Step Fault TcnSslCtxt Call Outcome :=
  fun c call =>
    match call with
    | .setCertVerifyCallback verifier calls => Context.setCertVerifyCallback b calls verifier c
    | .setCertRequestedCallback callback calls =>
      Context.setCertRequestedCallback b calls callback c
    | .setCertificateCallback callback calls => Context.setCertificateCallback b calls callback c
    | .setSniHostnameMatcher matcher calls => Context.setSniHostnameMatcher b calls matcher c
    | .setSSLSessionCache cache calls => Context.setSSLSessionCache b calls cache c
    | .setPrivateKeyMethod0 method calls => Context.setPrivateKeyMethod0 b calls method c
    | .setKeyLogCallback callback calls => Context.setKeyLogCallback b calls callback c
    | .addCertificateCompressionAlgorithm0 direction algorithmId algorithm calls added =>
      Context.addCertificateCompressionAlgorithm0 b calls added direction algorithmId algorithm c

/-- The slot that a call is about. An unknown algorithm has none, and is not
added to any. -/
def Call.slot : Call → SlotName
  | .setCertVerifyCallback _ _ => .verifier
  | .setCertRequestedCallback _ _ => .certRequestedCallback
  | .setCertificateCallback _ _ => .certificateCallback
  | .setSniHostnameMatcher _ _ => .sniHostnameMatcher
  | .setSSLSessionCache _ _ => .sslSessionCache
  | .setPrivateKeyMethod0 _ _ => .sslPrivateKeyMethod
  | .setKeyLogCallback _ _ => .keylogCallback
  | .addCertificateCompressionAlgorithm0 _ algorithmId _ _ _ =>
    (compressionSlot algorithmId).getD .sslCertCompressionZlibAlgorithm

/-- The object that a call passes. -/
def Call.object : Call → Option JObject
  | .setCertVerifyCallback object _ | .setCertRequestedCallback object _
  | .setCertificateCallback object _ | .setSniHostnameMatcher object _
  | .setSSLSessionCache object _ | .setPrivateKeyMethod0 object _ | .setKeyLogCallback object _
  | .addCertificateCompressionAlgorithm0 _ _ object _ _ => object

/-! ## The invariant -/

/-- The live references are those of the filled slots, one for each, the callback
of a slot is installed exactly if the slot is filled, and the slots that the
clean-up leaves out are empty. -/
structure Owned (b : Build) (c : TcnSslCtxt) : Prop where
  refs : c.refs.OwnedBy fun k => (c.slots k).object
  installed : ∀ k, c.ctx.installed k = (c.slots k).object.isSome
  unsupported : ∀ k, k ∉ cleanupOrder b → (c.slots k).object = none

theorem make_owned (b : Build) : Owned b .make where
  refs := Arena.ownedBy_nil
  installed _ := rfl
  unsupported _ _ := rfl

/-- What a call does: it fails, with at most a reference created and deleted
again, or it fills or clears its slot. -/
inductive Applied (b : Build) (c : TcnSslCtxt) (k : SlotName) (object : Option JObject) :
    Outcome → TcnSslCtxt → Prop where
  | failed (cause : Option Throwable) (refs : Arena JObject) :
    Applied b c k object (.failed cause) { c with refs }
  | put (slot : Slot) (refs : Arena JObject) (hobject : slot.object.isSome = object.isSome) :
    Applied b c k object .done (c.put b k slot refs)

/-! ## Filling and clearing a slot -/

section
variable {b : Build} {c : TcnSslCtxt} {k : SlotName} {slot : Slot} {refs : Arena JObject}

theorem put_slots : (c.put b k slot refs).slots = Function.update c.slots k slot := by
  unfold TcnSslCtxt.put TcnSslCtxt.install
  repeat' split
  all_goals rfl

theorem put_refs : (c.put b k slot refs).refs = refs := by
  unfold TcnSslCtxt.put TcnSslCtxt.install
  repeat' split
  all_goals rfl

theorem put_installed : (c.put b k slot refs).ctx.installed =
    Function.update c.ctx.installed k slot.object.isSome := by
  unfold TcnSslCtxt.put TcnSslCtxt.install
  split
  · rename_i hverifier
    rw [hverifier.1]
    split
    · rename_i hon
      rw [hon]
      rfl
    · rename_i hoff
      rw [Bool.not_eq_true] at hoff
      rw [hoff]
      rfl
  · rfl

/-- The object of each slot behind a change of one slot. -/
theorem update_object (slots : SlotName → Slot) (k : SlotName) (slot : Slot) :
    (fun k' => (Function.update slots k slot k').object) =
      Function.update (fun k' => (slots k').object) k slot.object := by
  funext k'
  rcases eq_or_ne k' k with rfl | hne
  · simp only [Function.update_self]
  · simp only [Function.update_of_ne hne]

theorem Owned.put (h : Owned b c) (hk : k ∈ cleanupOrder b)
    (hrefs : refs.OwnedBy (Function.update (fun k' => (c.slots k').object) k slot.object)) :
    Owned b (c.put b k slot refs) where
  refs := by
    rw [put_refs, put_slots, update_object]
    exact hrefs
  installed k' := by
    rw [put_installed, put_slots]
    rcases eq_or_ne k' k with rfl | hne
    · simp only [Function.update_self]
    · simp only [Function.update_of_ne hne, h.installed]
  unsupported k' hk' := by
    have hne : k' ≠ k := fun heq => hk' (heq ▸ hk)
    rw [put_slots, Function.update_of_ne hne]
    exact h.unsupported k' hk'

/-- What `deleteOld` does behind a change of the slot. -/
theorem deleteOld_put {old : Option Nat} {refs' : Arena JObject}
    (h : refs.releaseOpt old = .ok refs') :
    deleteOld (c.put b k slot refs) old = .ok (.done, c.put b k slot refs') := by
  have hput : { c.put b k slot refs with refs := refs' } = c.put b k slot refs' := by
    unfold TcnSslCtxt.put TcnSslCtxt.install
    split
    · split <;> rfl
    · rfl
  simp only [deleteOld, put_refs, h, hput]

/-- Fill a slot, and delete what was in it. -/
theorem Owned.fill (h : Owned b c) (hk : k ∈ cleanupOrder b) (o : JObject)
    (methods : List JMethod) :
    ∃ refs', deleteOld (c.put b k ⟨some c.refs.length, methods⟩ (c.refs.alloc o))
        (c.slots k).object = .ok (.done, c.put b k ⟨some c.refs.length, methods⟩ refs') ∧
      Owned b (c.put b k ⟨some c.refs.length, methods⟩ refs') := by
  obtain ⟨refs', hrelease, howned, -⟩ := h.refs.replace k o
  exact ⟨refs', deleteOld_put hrelease, h.put hk howned⟩

/-- Clear a slot, and delete what was in it. -/
theorem Owned.clear (h : Owned b c) (hk : k ∈ cleanupOrder b) :
    ∃ refs', deleteOld (c.put b k ⟨none, []⟩ c.refs) (c.slots k).object =
        .ok (.done, c.put b k ⟨none, []⟩ refs') ∧
      Owned b (c.put b k ⟨none, []⟩ refs') := by
  obtain ⟨refs', hrelease, howned⟩ := h.refs.clear k
  exact ⟨refs', deleteOld_put hrelease, h.put hk howned⟩

/-- A reference that is created and deleted again. -/
theorem Owned.deleteNew (h : Owned b c) (o : JObject) (text : String) :
    ∃ refs', deleteNew c o text =
        .ok (.failed (some (.exception text)), { c with refs := refs' }) ∧
      Owned b { c with refs := refs' } := by
  obtain ⟨refs', hrelease, howned, -⟩ := h.refs.discard o
  refine ⟨refs', ?_, howned, h.installed, h.unsupported⟩
  simp only [Context.deleteNew, hrelease]

end

/-! ## The cases of a call -/

theorem lookupMethods_eq {prefixed : Bool} {calls : SetterCalls} {ms found : List JMethod}
    (h : lookupMethods prefixed calls ms = .ok found) : found = ms := by
  induction ms generalizing found with
  | nil => cases h; rfl
  | cons m ms ih =>
    simp only [lookupMethods] at h
    split at h
    · cases h
    split at h
    · cases h
    · cases hrest : lookupMethods prefixed calls ms with
      | error cause =>
        rw [hrest] at h
        cases h
      | ok rest =>
        rw [hrest] at h
        cases h
        rw [ih hrest]

/-- A setter that gets so far has looked up every method. -/
theorem Lookup.resolve_eq {l : Lookup} {calls : SetterCalls} {found : List JMethod}
    (h : l.resolve calls = .ok found) : found = l.methods := by
  unfold Lookup.resolve at h
  split at h
  · cases h
  · split at h
    · cases h
    · rename_i hlookup
      split at h
      · cases h
      · cases h
        exact lookupMethods_eq hlookup

/-- The slots of algorithms are cleaned up where there is certificate compression. -/
theorem compressionSlot_mem {b : Build} (hlib : b.library.isBoringSSL = true) {algorithmId : Int}
    {k : SlotName} (hk : compressionSlot algorithmId = some k) : k ∈ cleanupOrder b := by
  unfold compressionSlot at hk
  split at hk
  · cases hk
    simp [cleanupOrder, hlib]
  split at hk
  · cases hk
    simp [cleanupOrder, hlib]
  split at hk
  · cases hk
    simp [cleanupOrder, hlib]
  · cases hk

/-- A registration is refused before or behind creating a reference, or it fills
the slot of its algorithm with both methods. -/
theorem addCertificateCompressionAlgorithm0_cases (b : Build) (calls : SetterCalls) (added : Bool)
    (direction algorithmId : Int) (algorithm : Option JObject) (c : TcnSslCtxt) :
    (∃ cause, Context.addCertificateCompressionAlgorithm0 b calls added direction algorithmId
      algorithm c = .ok (.failed cause, c)) ∨
    (∃ o text, Context.addCertificateCompressionAlgorithm0 b calls added direction algorithmId
      algorithm c = deleteNew c o text) ∨
    ∃ o k, algorithm = some o ∧ added = true ∧ compressionSlot algorithmId = some k ∧
      k ∈ cleanupOrder b ∧
      Context.addCertificateCompressionAlgorithm0 b calls added direction algorithmId algorithm c =
        deleteOld
          (c.put b k ⟨some c.refs.length, [⟨"compress", "(J[B)[B"⟩, ⟨"decompress", "(JI[B)[B"⟩]⟩
            (c.refs.alloc o)) (c.slots k).object := by
  unfold Context.addCertificateCompressionAlgorithm0
  cases algorithm with
  | none => exact .inl ⟨_, rfl⟩
  | some o =>
    dsimp only
    split
    · exact .inl ⟨_, rfl⟩
    split
    · exact .inl ⟨_, rfl⟩
    rename_i hlib
    simp only [Bool.not_eq_true', Bool.not_eq_false] at hlib
    split
    · exact .inl ⟨_, rfl⟩
    rename_i methods hresolve
    rw [Lookup.resolve_eq hresolve]
    cases hk : compressionSlot algorithmId with
    | none => exact .inr (.inl ⟨o, _, rfl⟩)
    | some k =>
      dsimp only
      split
      · rename_i hadded
        exact .inr (.inr ⟨o, k, rfl, hadded, rfl, compressionSlot_mem hlib hk, rfl⟩)
      · exact .inr (.inl ⟨o, _, rfl⟩)

/-- A call is refused, or it sets its slot, or it is a registration. -/
theorem callStep_cases (b : Build) (c : TcnSslCtxt) (call : Call) :
    (∃ cause, callStep b c call = .ok (.failed cause, c)) ∨
    (∃ l calls, call.slot ∈ cleanupOrder b ∧
      callStep b c call = setSlot call.slot l b calls call.object c) ∨
    ∃ direction algorithmId algorithm calls added,
      call = .addCertificateCompressionAlgorithm0 direction algorithmId algorithm calls added := by
  -- The slots that every build has are in the second part of the clean-up.
  have hcommon : ∀ k ∈ [SlotName.sslSessionCache, .verifier, .certRequestedCallback,
      .certificateCallback, .sniHostnameMatcher], k ∈ cleanupOrder b := by
    intro k hk
    exact List.mem_append_right _ hk
  cases call with
  | setCertVerifyCallback verifier calls =>
    exact .inr (.inl ⟨_, calls, hcommon _ (by simp [Call.slot]), rfl⟩)
  | setCertRequestedCallback callback calls =>
    simp only [callStep, Context.setCertRequestedCallback]
    split
    · exact .inl ⟨_, rfl⟩
    · exact .inr (.inl ⟨_, calls, hcommon _ (by simp [Call.slot]), rfl⟩)
  | setCertificateCallback callback calls =>
    simp only [callStep, Context.setCertificateCallback]
    split
    · exact .inl ⟨_, rfl⟩
    split
    · exact .inl ⟨_, rfl⟩
    · exact .inr (.inl ⟨_, calls, hcommon _ (by simp [Call.slot]), rfl⟩)
  | setSniHostnameMatcher matcher calls =>
    exact .inr (.inl ⟨_, calls, hcommon _ (by simp [Call.slot]), rfl⟩)
  | setSSLSessionCache cache calls =>
    exact .inr (.inl ⟨_, calls, hcommon _ (by simp [Call.slot]), rfl⟩)
  | setPrivateKeyMethod0 method calls =>
    simp only [callStep, Context.setPrivateKeyMethod0]
    split
    · exact .inl ⟨_, rfl⟩
    · rename_i hlib
      exact .inr (.inl ⟨_, calls, by simp_all [cleanupOrder, Call.slot], rfl⟩)
  | setKeyLogCallback callback calls =>
    simp only [callStep, Context.setKeyLogCallback]
    split
    · exact .inl ⟨_, rfl⟩
    · rename_i hlib
      exact .inr (.inl ⟨_, calls, by simp_all [cleanupOrder, Call.slot], rfl⟩)
  | addCertificateCompressionAlgorithm0 direction algorithmId algorithm calls added =>
    exact .inr (.inr ⟨direction, algorithmId, algorithm, calls, added, rfl⟩)

/-! ## What each call does -/

/-- A call ends in a context that owns its references, and did what it says. -/
def Ends (b : Build) (c : TcnSslCtxt) (k : SlotName) (object : Option JObject)
    (result : Except Fault (Outcome × TcnSslCtxt)) : Prop :=
  ∃ out c', result = .ok (out, c') ∧ Applied b c k object out c' ∧ Owned b c'

theorem Owned.refuse {b : Build} {c : TcnSslCtxt} (h : Owned b c) (k : SlotName)
    (object : Option JObject) (cause : Option Throwable) :
    Ends b c k object (.ok (.failed cause, c)) :=
  ⟨_, _, rfl, .failed cause c.refs, h⟩

theorem setSlot_ends {b : Build} {c : TcnSslCtxt} (h : Owned b c) {k : SlotName}
    (hk : k ∈ cleanupOrder b) (l : Lookup) (calls : SetterCalls) (object : Option JObject) :
    Ends b c k object (setSlot k l b calls object c) := by
  cases object with
  | none =>
    obtain ⟨refs', hok, howned⟩ := h.clear hk
    exact ⟨_, _, hok, .put _ refs' rfl, howned⟩
  | some o =>
    simp only [setSlot]
    cases l.resolve calls with
    | error cause => exact h.refuse k (some o) cause
    | ok methods =>
      obtain ⟨refs', hok, howned⟩ := h.fill hk o methods
      exact ⟨_, _, hok, .put _ refs' rfl, howned⟩

theorem addCertificateCompressionAlgorithm0_ends {b : Build} {c : TcnSslCtxt} (h : Owned b c)
    (calls : SetterCalls) (added : Bool) (direction algorithmId : Int)
    (algorithm : Option JObject) :
    Ends b c ((compressionSlot algorithmId).getD .sslCertCompressionZlibAlgorithm) algorithm
      (Context.addCertificateCompressionAlgorithm0 b calls added direction algorithmId algorithm
        c) := by
  rcases addCertificateCompressionAlgorithm0_cases b calls added direction algorithmId algorithm c
    with ⟨cause, heq⟩ | ⟨o, text, heq⟩ | ⟨o, k, rfl, -, hk, hmem, heq⟩
  · rw [heq]
    exact h.refuse _ _ cause
  · obtain ⟨refs', hok, howned⟩ := h.deleteNew o text
    rw [heq]
    exact ⟨_, _, hok, .failed _ refs', howned⟩
  · obtain ⟨refs', hok, howned⟩ := h.fill hmem o _
    rw [heq, hk]
    exact ⟨_, _, hok, .put _ refs' rfl, howned⟩

/-- Every call keeps the invariant, and does one of two things. -/
theorem callStep_ends {b : Build} {c : TcnSslCtxt} (h : Owned b c) (call : Call) :
    Ends b c call.slot call.object (callStep b c call) := by
  rcases callStep_cases b c call with ⟨cause, heq⟩ | ⟨l, calls, hmem, heq⟩ |
    ⟨direction, algorithmId, algorithm, calls, added, rfl⟩
  · rw [heq]
    exact h.refuse _ _ cause
  · rw [heq]
    exact setSlot_ends h hmem l calls call.object
  · exact addCertificateCompressionAlgorithm0_ends h calls added direction algorithmId algorithm

/-! ## What references stand for -/

section
variable {b : Build} {c c' : TcnSslCtxt} {calls : SetterCalls} {object : Option JObject}
  {out : Outcome}

theorem deleteOld_extends {old : Option Nat} (h : deleteOld c old = .ok (out, c')) :
    c.refs.Extends c'.refs := by
  unfold deleteOld at h
  split at h
  · cases h
  · rename_i hrelease
    cases h
    exact Arena.extends_releaseOpt hrelease

theorem deleteNew_extends {o : JObject} {text : String}
    (h : deleteNew c o text = .ok (out, c')) : c.refs.Extends c'.refs := by
  unfold deleteNew at h
  split at h
  · cases h
  · rename_i hrelease
    cases h
    exact (Arena.extends_alloc c.refs o).trans (Arena.extends_release hrelease)

/-- Fill a slot with a new reference, and delete what was in it. -/
theorem fill_extends {k : SlotName} {slot : Slot} {o : JObject} {old : Option Nat}
    (h : deleteOld (c.put b k slot (c.refs.alloc o)) old = .ok (out, c')) :
    c.refs.Extends c'.refs := by
  have hlater := deleteOld_extends h
  rw [put_refs] at hlater
  exact (Arena.extends_alloc c.refs o).trans hlater

theorem setSlot_extends {k : SlotName} {l : Lookup}
    (h : setSlot k l b calls object c = .ok (out, c')) : c.refs.Extends c'.refs := by
  unfold setSlot at h
  split at h
  · have hlater := deleteOld_extends h
    rwa [put_refs] at hlater
  · split at h
    · cases h
      exact .refl _
    · exact fill_extends h

/-- Whatever a call does, an old reference stands for the object that it was
created for. -/
theorem callStep_extends {call : Call} (h : callStep b c call = .ok (out, c')) :
    c.refs.Extends c'.refs := by
  rcases callStep_cases b c call with ⟨cause, heq⟩ | ⟨l, calls, -, heq⟩ |
    ⟨direction, algorithmId, algorithm, calls, added, rfl⟩
  · cases h.symm.trans heq
    exact .refl _
  · exact setSlot_extends (heq.symm.trans h)
  · rcases addCertificateCompressionAlgorithm0_cases b calls added direction algorithmId algorithm c
      with ⟨cause, heq⟩ | ⟨o, text, heq⟩ | ⟨o, k, -, -, -, -, heq⟩
    · cases h.symm.trans heq
      exact .refl _
    · exact deleteNew_extends (heq.symm.trans h)
    · exact fill_extends (heq.symm.trans h)

end

/-! ## Clean-up -/

/-- Clear slots one by one. What is not cleared stays owned. -/
theorem clearSlots_ok (ks : List SlotName) {c : TcnSslCtxt}
    (h : c.refs.OwnedBy fun k => (c.slots k).object) :
    ∃ c', clearSlots true ks c = .ok c' ∧ (c'.refs.OwnedBy fun k => (c'.slots k).object) ∧
      (∀ k ∈ ks, (c'.slots k).object = none) ∧
      ∀ k, (c.slots k).object = none → (c'.slots k).object = none := by
  induction ks generalizing c with
  | nil => exact ⟨c, rfl, h, by simp, fun _ hk => hk⟩
  | cons k ks ih =>
    obtain ⟨refs, hrelease, howned⟩ := h.clear k
    let methods := if k.resetsMethods then [] else (c.slots k).methods
    let slots := Function.update c.slots k ⟨none, methods⟩
    have hstep : clearSlot true k c = .ok { c with slots, refs } := by
      simp only [clearSlot, if_true, hrelease, slots, methods]
    rw [← update_object c.slots k ⟨none, methods⟩] at howned
    obtain ⟨c', hrest, howned', hcleared, hkept⟩ := ih (c := { c with slots, refs }) howned
    have hk : (slots k).object = none := by simp only [slots, Function.update_self]
    refine ⟨c', ?_, howned', ?_, ?_⟩
    · simp only [clearSlots, hstep, hrest]
    · intro k' hk'
      rcases List.mem_cons.mp hk' with rfl | hk'
      · exact hkept _ hk
      · exact hcleared k' hk'
    · intro k' hk'
      refine hkept k' ?_
      rcases eq_or_ne k' k with rfl | hne
      · exact hk
      · simpa only [slots, Function.update_of_ne hne] using hk'

/-- The clean-up empties every slot and leaves no reference behind. -/
theorem sslContextCleanup_ok {b : Build} {c : TcnSslCtxt} (h : Owned b c) :
    ∃ c', sslContextCleanup b true c = .ok c' ∧ (∀ k, (c'.slots k).object = none) ∧
      ∀ cell ∈ c'.refs, cell.released = true := by
  obtain ⟨c', hok, howned, hcleared, hkept⟩ :=
    clearSlots_ok (cleanupOrder b) (c := { c with ctx := TcnSslCtxt.make.ctx }) h.refs
  have hnone : ∀ k, (c'.slots k).object = none := by
    intro k
    by_cases hk : k ∈ cleanupOrder b
    · exact hcleared k hk
    · exact hkept k (h.unsupported k hk)
  exact ⟨c', hok, hnone, howned.all_released hnone⟩

/-! ## Runs -/

/-- A call that fails changes no slot and nothing that is installed. -/
theorem Applied.failed_unchanged {b : Build} {c c' : TcnSslCtxt} {k : SlotName}
    {object : Option JObject} {cause : Option Throwable}
    (h : Applied b c k object (.failed cause) c') : c'.slots = c.slots ∧ c'.ctx = c.ctx := by
  cases h with
  | failed cause refs => exact ⟨rfl, rfl⟩

/-- In every state that calls of the setters lead to there is one live reference
for each filled slot, whose callback is installed. A failed call changes nothing,
no reference is deleted twice, and the clean-up leaves none. -/
theorem callRun_owned (b : Build) (es : List Call) :
    Machine.Ends (callStep b)
      (fun t c =>
        (∀ x ∈ t, Owned b x.post ∧ ∀ cause, x.ret = .failed cause →
          x.post.slots = x.pre.slots ∧ x.post.ctx = x.pre.ctx) ∧
        Owned b c ∧
        ∃ c', sslContextCleanup b true c = .ok c' ∧ (∀ k, (c'.slots k).object = none) ∧
          ∀ cell ∈ c'.refs, cell.released = true)
      .make es := by
  have hstep : ∀ c call, Owned b c → ∃ r c', callStep b c call = .ok (r, c') ∧
      Owned b c' ∧ (Owned b c' ∧ ∀ cause, r = .failed cause →
        c'.slots = c.slots ∧ c'.ctx = c.ctx) := by
    intro c call hc
    obtain ⟨out, c', hok, happlied, howned⟩ := callStep_ends hc call
    refine ⟨out, c', hok, howned, howned, ?_⟩
    rintro cause rfl
    exact happlied.failed_unchanged
  obtain ⟨t, c, hrun, hc, ht⟩ :=
    Machine.run_invariant
      (Q := fun x : Machine.Entry TcnSslCtxt Call Outcome =>
        Owned b x.post ∧ ∀ cause, x.ret = .failed cause →
        x.post.slots = x.pre.slots ∧ x.post.ctx = x.pre.ctx)
      hstep (make_owned b) es
  exact ⟨t, c, hrun, ht, hc, sslContextCleanup_ok hc⟩

end Context
