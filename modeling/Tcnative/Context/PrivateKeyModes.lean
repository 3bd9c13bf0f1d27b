-- SUMMARY: Private key operations in direct mode and in task mode, with the descriptors of what they call.
import Tcnative.Base.Descriptor
import Tcnative.Context.Connections
import Tcnative.Tasks.Modes
import Tcnative.Tasks.PrivateKey

/-!
# Modes of private key operations

Without tasks an operation calls the private key method of the context itself.
With tasks it suspends, Java runs the task, and the operation is completed. The
method IDs are looked up when the method is set, far from where they are used.
-/

namespace Context
open CMem Jni Tls
open Tasks (JniCalls Java Thrown Notification)

/-! ## Method IDs -/

/-- The methods that `SSLContext.setPrivateKeyMethod0` looks up. -/
def privateKeyMethods (b : Build) : List JMethod :=
  let callback := b.packagePrefix ++ "io/netty/internal/tcnative/ResultCallback;)V"
  [⟨"sign", "(JI[BL" ++ callback⟩, ⟨"decrypt", "(J[BL" ++ callback⟩]

/-- A private key method in its slot has its method IDs with it. -/
def PrivateKeyResolved (b : Build) (c : TcnSslCtxt) : Prop :=
  (c.slots .sslPrivateKeyMethod).object = none ∨
    (c.slots .sslPrivateKeyMethod).methods = privateKeyMethods b

theorem deleteOld_slots {c c' : TcnSslCtxt} {old : Option Nat} {out : Outcome}
    (h : deleteOld c old = .ok (out, c')) : c'.slots = c.slots := by
  unfold deleteOld at h
  split at h
  · cases h
  · cases h
    rfl

/-- What a setter leaves in its slot: what was there, nothing, or an object with
the methods that were looked up. -/
theorem setSlot_slot {k : SlotName} {l : Lookup} {b : Build} {calls : SetterCalls}
    {object : Option JObject} {c c' : TcnSslCtxt} {out : Outcome}
    (h : setSlot k l b calls object c = .ok (out, c')) :
    c'.slots k = c.slots k ∨ (c'.slots k).object = none ∨ (c'.slots k).methods = l.methods := by
  unfold setSlot at h
  split at h
  · refine .inr (.inl ?_)
    rw [deleteOld_slots h, put_slots, Function.update_self]
  · split at h
    · cases h
      exact .inl rfl
    · rename_i hresolve
      refine .inr (.inr ?_)
      rw [deleteOld_slots h, put_slots, Function.update_self]
      exact Lookup.resolve_eq hresolve

theorem setPrivateKeyMethod0_resolved {b : Build} {calls : SetterCalls} {method : Option JObject}
    {c c' : TcnSslCtxt} {out : Outcome} (hc : PrivateKeyResolved b c)
    (h : setPrivateKeyMethod0 b calls method c = .ok (out, c')) : PrivateKeyResolved b c' := by
  unfold setPrivateKeyMethod0 at h
  dsimp only at h
  split at h
  · cases h
    exact hc
  · rcases setSlot_slot h with hkept | hnone | hmethods
    · rw [PrivateKeyResolved, hkept]
      exact hc
    · exact .inl hnone
    · exact .inr hmethods

/-- Only one setter is about the private key method. -/
theorem Call.slot_privateKey {call : Call} (h : call.slot = .sslPrivateKeyMethod) :
    ∃ method calls, call = .setPrivateKeyMethod0 method calls := by
  cases call with
  | setPrivateKeyMethod0 method calls => exact ⟨method, calls, rfl⟩
  | addCertificateCompressionAlgorithm0 direction algorithmId algorithm calls added =>
    simp only [Call.slot, compressionSlot] at h
    repeat' split at h
    all_goals cases h
  | _ => cases h

theorem Applied.other_slot {b : Build} {c c' : TcnSslCtxt} {k k' : SlotName}
    {object : Option JObject} {out : Outcome} (h : Applied b c k object out c') (hk : k' ≠ k) :
    c'.slots k' = c.slots k' := by
  cases h with
  | failed cause refs => rfl
  | put slot refs hobject => rw [put_slots, Function.update_of_ne hk]

theorem callStep_resolved {b : Build} {c c' : TcnSslCtxt} {call : Call} {out : Outcome}
    (howned : Owned b c) (hc : PrivateKeyResolved b c) (h : callStep b c call = .ok (out, c')) :
    PrivateKeyResolved b c' := by
  by_cases hslot : call.slot = .sslPrivateKeyMethod
  · obtain ⟨method, calls, rfl⟩ := Call.slot_privateKey hslot
    exact setPrivateKeyMethod0_resolved hc h
  · rw [PrivateKeyResolved, (callStep_applied howned h).1.other_slot (Ne.symm hslot)]
    exact hc

theorem setVerify_slots (b : Build) (level depth : Int) (c : TcnSslCtxt) :
    (setVerify b level depth c).slots = c.slots := by
  unfold setVerify
  dsimp only
  repeat' split
  all_goals rfl

theorem Stepped.resolved {b : Build} {s s' : Session} {event : Event} {r : Reply}
    (h : Stepped b s event r s') (howned : Owned b s.ctxt) (hs : PrivateKeyResolved b s.ctxt) :
    PrivateKeyResolved b s'.ctxt := by
  cases h with
  | call hcall => exact callStep_resolved howned hs hcall
  | setVerify =>
    rw [PrivateKeyResolved, setVerify_slots]
    exact hs
  | setUseTasks => exact hs
  | notCreated _ => exact hs
  | newSSL => exact hs
  | sslSetVerify _ => exact hs
  | noSsl _ => exact hs
  | freeSSL => exact hs
  | ran _ _ => exact hs
  | notInstalled _ => exact hs

/-- In every state of a context the slot is empty, or its method IDs are those of
`sign` and `decrypt`. -/
theorem contextRun_resolved (b : Build) (es : List Event) :
    Machine.Ends (contextStep b) (fun _ s => Owned b s.ctxt ∧ PrivateKeyResolved b s.ctxt)
      .start es := by
  have hstep : ∀ s event, Owned b s.ctxt ∧ PrivateKeyResolved b s.ctxt →
      ∃ r s', contextStep b s event = .ok (r, s') ∧
        (Owned b s'.ctxt ∧ PrivateKeyResolved b s'.ctxt) ∧ True := by
    rintro s event ⟨howned, hresolved⟩
    obtain ⟨r, s', hok⟩ := contextStep_ok howned event
    have hstepped := contextStep_stepped hok
    exact ⟨r, s', hok, ⟨hstepped.owned howned, hstepped.resolved howned hresolved⟩, trivial⟩
  have hstart : Owned b Session.start.ctxt ∧ PrivateKeyResolved b Session.start.ctxt :=
    ⟨make_owned b, .inl rfl⟩
  obtain ⟨t, s, hrun, hs, -⟩ :=
    Machine.run_invariant (Q := fun _ => True) hstep hstart es
  exact ⟨t, s, hrun, hs⟩

/-! ## The two modes -/

inductive PrivateKeyOperation where
  | sign (signatureAlgorithm : UInt16) (input : List Byte)
  | decrypt (input : List Byte)

namespace PrivateKeyOperation

/-- `tcn_private_key_sign_java` or `tcn_private_key_decrypt_java`. -/
def start (op : PrivateKeyOperation) (e : JniCalls) (maxOut : Nat)
    (direct : Except Thrown (Option (List Byte))) (s : Tasks.Conn) : Tasks.Result × Tasks.Conn :=
  match op with
  | sign signatureAlgorithm input =>
    Tasks.tcnPrivateKeySignJava e maxOut signatureAlgorithm input direct s
  | decrypt input => Tasks.tcnPrivateKeyDecryptJava e maxOut input direct s

/-- The position of its method ID in the slot. -/
def index : PrivateKeyOperation → Nat
  | sign _ _ => 0
  | decrypt _ => 1

/-- What it passes to `CallObjectMethod` behind the method ID. -/
def passed : PrivateKeyOperation → List Jvm.Kind
  -- P2J(ssl), signature_algorithm, inputArray
  | sign _ _ => [.long, .int, .reference]
  -- P2J(ssl), inArray
  | decrypt _ => [.long, .reference]

end PrivateKeyOperation

/-- `CallObjectMethod`. What a call does that does not fit its method is not defined. -/
def callObjectMethod {α : Type} (method : Option JMethod) (passed : List Jvm.Kind) (returned : α) :
    Option α :=
  match method.bind fun m => Jvm.parseDescriptor m.signature.toList with
  | none => none
  | some d => if d.Fits passed (some .reference) then some returned else none

/-- The Java object in a slot. -/
def TcnSslCtxt.object (c : TcnSslCtxt) (k : SlotName) : Option JObject :=
  (c.slots k).object.bind fun r => c.refs[r]?.map (·.value)

/-- A connection with the private key method of the context. -/
def TcnSslCtxt.conn (c : TcnSslCtxt) (s : Tasks.Conn) : Tasks.Conn :=
  { s with ctx := { s.ctx with sslPrivateKeyMethod := c.object .sslPrivateKeyMethod } }

/-- An operation gets to the point where it calls the method, or creates a task. -/
def ReachesMethod (e : JniCalls) (method : Option JObject) : Prop :=
  method ≠ none ∧ e.getEnv = true ∧ e.newByteArray 0 = true

instance (e : JniCalls) (method : Option JObject) : Decidable (ReachesMethod e method) :=
  inferInstanceAs (Decidable (_ ∧ _))

namespace PrivateKeyOperation
variable (op : PrivateKeyOperation) (e : JniCalls) (maxOut : Nat)

/-- An operation with `use_tasks` disabled. `returned` is what the method yields
where its call is defined, and the outcome is `none` where it is not. -/
def directly (returned : Except Thrown (Option (List Byte))) (c : TcnSslCtxt) (s : Tasks.Conn) :
    Option Tasks.Reply :=
  let run direct := (op.start e maxOut direct ((c.conn s).withTasks false)).1.reply
  if ReachesMethod e (c.object .sslPrivateKeyMethod) then
    (callObjectMethod (c.slots .sslPrivateKeyMethod).methods[op.index]? op.passed returned).map run
  else some (run returned)

/-- An operation with `use_tasks` enabled. If it suspends, the task that
`SSL.getTask` returns is run, and the operation is completed. -/
def throughTask (java : Java) (c : TcnSslCtxt) (s : Tasks.Conn) : Except Fault Tasks.Reply := do
  let (res, s) := op.start e maxOut (.ok none) ((c.conn s).withTasks true)
  if res.reply.asksRetry = some true then
    match ← Tasks.getTask s.store with
    | (none, _) => return res.reply
    | (some r, store) =>
      let s := { s with store := store.edit r (·.run java .noop) }
      let (res, _) ← Tasks.tcnPrivateKeyCompleteJava e maxOut s
      return res.reply
  else return res.reply

/-- Both modes are defined, and give the library the same verdict and bytes. -/
def Agree (java : Java) (returned : Except Thrown (Option (List Byte))) (c : TcnSslCtxt)
    (s : Tasks.Conn) : Prop :=
  ∃ reply, op.directly e maxOut returned c s = some reply ∧
    op.throughTask e maxOut java c s = .ok reply

end PrivateKeyOperation

/-! ## Where no Java is called -/

section
variable {op : PrivateKeyOperation} {e : JniCalls} {maxOut : Nat} {c : TcnSslCtxt} {s : Tasks.Conn}

/-- Where an operation does not get to the method, it fails in both modes. -/
theorem start_early (h : ¬ ReachesMethod e (c.object .sslPrivateKeyMethod))
    (direct : Except Thrown (Option (List Byte))) (useTasks : Bool) :
    op.start e maxOut direct ((c.conn s).withTasks useTasks) =
      (.of (.privateKey .failure none), (c.conn s).withTasks useTasks) := by
  have hshared : ∀ body, Tasks.privateKeyJava e maxOut body direct ((c.conn s).withTasks useTasks) =
      (.of (.privateKey .failure none), (c.conn s).withTasks useTasks) := by
    intro body
    unfold Tasks.privateKeyJava
    simp only [TcnSslCtxt.conn, Tasks.Conn.withTasks]
    cases hobject : c.object .sslPrivateKeyMethod with
    | none => rfl
    | some method =>
      have hcalls : (!e.getEnv || !e.newByteArray 0) = true := by
        simpa [ReachesMethod, hobject, ← Bool.not_eq_true, imp_iff_not_or] using h
      simp only [hcalls, if_true]
  cases op with
  | sign signatureAlgorithm input => exact hshared _
  | decrypt input => exact hshared _

theorem agree_early (h : ¬ ReachesMethod e (c.object .sslPrivateKeyMethod)) (java : Java)
    (returned : Except Thrown (Option (List Byte))) : op.Agree e maxOut java returned c s := by
  refine ⟨.privateKey .failure none, ?_, ?_⟩
  · simp only [PrivateKeyOperation.directly, if_neg h, start_early h]
    rfl
  · simp only [PrivateKeyOperation.throughTask, start_early h]
    rfl

/-- The callbacks of a connection call the same method, with the same condition. -/
theorem tcnPrivateKeyJava_call_iff {b : Build} (hc : Owned b c) (ssl : Ssl) :
    (∃ target, (tcnPrivateKeyJava op.index e { c with useTasks := false } ssl).1 =
        .call target (c.slots .sslPrivateKeyMethod).methods[op.index]?) ↔
      ReachesMethod e (c.object .sslPrivateKeyMethod) := by
  have hobject : (c.slots .sslPrivateKeyMethod).object.isNone = true ↔
      c.object .sslPrivateKeyMethod = none := by
    cases hslot : (c.slots .sslPrivateKeyMethod).object with
    | none => simp [TcnSslCtxt.object, hslot]
    | some r =>
      obtain ⟨v, hlive⟩ := hc.refs.live _ r hslot
      have href : c.refs[r]? = some ⟨v, false⟩ := hlive
      simp [TcnSslCtxt.object, hslot, href]
  simp only [tcnPrivateKeyJava, ReachesMethod, ne_eq, ← hobject]
  split
  · rename_i hnone
    simp [hnone]
  · split
    · rename_i hfails
      simp only [Bool.or_eq_true, Bool.not_eq_true'] at hfails
      refine iff_of_false (by simp) ?_
      rintro ⟨-, henv, harray⟩
      simp [henv, harray] at hfails
    · rename_i hfilled hcalls
      simp only [Bool.or_eq_true, Bool.not_eq_true', not_or, Bool.not_eq_false] at hcalls
      exact iff_of_true ⟨_, rfl⟩ ⟨hfilled, hcalls⟩

/-! ## The direct call -/

theorem callObjectMethod_void {α : Type} {method : Option JMethod}
    (h : ∀ m, method = some m → m.signature.toList.getLast? = some 'V') (passed : List Jvm.Kind)
    (returned : α) : callObjectMethod method passed returned = none := by
  unfold callObjectMethod
  split
  · rfl
  · rename_i d hparse
    obtain ⟨m, hm, hd⟩ := Option.bind_eq_some_iff.mp hparse
    have hvoid : d.result = none := Jvm.parseDescriptor_void hd (h m hm)
    rw [if_neg]
    rintro ⟨-, hresult⟩
    rw [hvoid] at hresult
    cases hresult

/-- Both methods are void, whatever the package prefix is. -/
theorem privateKeyMethods_void {b : Build} {m : JMethod} (h : m ∈ privateKeyMethods b) :
    m.signature.toList.getLast? = some 'V' := by
  have hcallback : ("io/netty/internal/tcnative/ResultCallback;)V").toList.getLast? = some 'V' := by
    decide
  simp only [privateKeyMethods, List.mem_cons, List.not_mem_nil, or_false] at h
  rcases h with rfl | rfl
  all_goals
    simp only [String.toList_append, List.getLast?_append, hcallback]
    rfl

theorem directly_undefined {b : Build} (hc : PrivateKeyResolved b c)
    (h : ReachesMethod e (c.object .sslPrivateKeyMethod))
    (returned : Except Thrown (Option (List Byte))) : op.directly e maxOut returned c s = none := by
  have hmethods : (c.slots .sslPrivateKeyMethod).methods = privateKeyMethods b := by
    refine hc.resolve_left fun hnone => h.1 ?_
    simp only [TcnSslCtxt.object, hnone, Option.bind_none]
  have hcall : callObjectMethod (c.slots .sslPrivateKeyMethod).methods[op.index]? op.passed
      returned = none := by
    refine callObjectMethod_void (fun m hm => ?_) op.passed returned
    rw [hmethods] at hm
    exact privateKeyMethods_void (List.mem_of_getElem? hm)
  simp only [PrivateKeyOperation.directly, if_pos h, hcall, Option.map_none]

theorem agree_iff {b : Build} (hc : PrivateKeyResolved b c) (java : Java)
    (returned : Except Thrown (Option (List Byte))) :
    op.Agree e maxOut java returned c s ↔ ¬ ReachesMethod e (c.object .sslPrivateKeyMethod) := by
  constructor
  · rintro ⟨reply, hdirectly, -⟩ hreaches
    rw [directly_undefined hc hreaches] at hdirectly
    cases hdirectly
  · exact fun h => agree_early h java returned

end

/-! ## The call through a task -/

section
variable {op : PrivateKeyOperation} {c : TcnSslCtxt} {s : Tasks.Conn}

/-- The task of an operation. -/
def PrivateKeyOperation.body (op : PrivateKeyOperation) (method : JObject) : Tasks.TaskBody :=
  match op with
  | .sign signatureAlgorithm input =>
    .sslPrivateKeyMethodSignTask signatureAlgorithm input method
  | .decrypt input => .sslPrivateKeyMethodDecryptTask input method

theorem start_suspends {method : JObject} (hmethod : c.object .sslPrivateKeyMethod = some method)
    (maxOut : Nat) (direct : Except Thrown (Option (List Byte))) :
    op.start .succeed maxOut direct ((c.conn s).withTasks true) =
      (.of (.privateKey .retry none),
        { (c.conn s).withTasks true with store := s.store.put (op.body method) }) := by
  cases op with
  | sign signatureAlgorithm input =>
    simp only [PrivateKeyOperation.start, Tasks.tcnPrivateKeySignJava, Tasks.privateKeyJava,
      TcnSslCtxt.conn, Tasks.Conn.withTasks, hmethod]
    rfl
  | decrypt input =>
    simp only [PrivateKeyOperation.start, Tasks.tcnPrivateKeyDecryptJava, Tasks.privateKeyJava,
      TcnSslCtxt.conn, Tasks.Conn.withTasks, hmethod]
    rfl

/-- With tasks, a method that notifies once before it returns decides the reply. -/
theorem throughTask_once {method : JObject} (hmethod : c.object .sslPrivateKeyMethod = some method)
    {java : Java} {n : Notification} (honce : (op.body method).reports java = [n]) (maxOut : Nat) :
    op.throughTask .succeed maxOut java c s =
      .ok (Tasks.copyOut .succeed maxOut n.resultBytes) := by
  obtain ⟨r, store, hget, p, holds⟩ := Tasks.getTask_put (op.body method) java s.store
  have hkind : (op.body method).kind.IsPrivateKey := by
    cases op with
    | sign signatureAlgorithm input => exact .inl rfl
    | decrypt input => exact .inr rfl
  let o := (Tasks.TaskObject.new (op.body method)).run java .noop
  have hreported : o.reported.getLast? = some n := by
    have hrun : o.reported = [] ++ (op.body method).reports java := rfl
    rw [hrun, honce]
    rfl
  obtain ⟨hcomplete, hbytes⟩ := (o.consistent.privateKey
    (by rw [Tasks.TaskObject.run_body]; exact hkind)).2 n hreported
  obtain ⟨res, s', hok, -, hreply⟩ := Tasks.tcnPrivateKeyCompleteJava_resumed
    (s := { (c.conn s).withTasks true with store := store.edit r (·.run java .noop) })
    (e := .succeed) holds rfl rfl maxOut
  rw [hcomplete, if_pos rfl, hbytes] at hreply
  simp only [PrivateKeyOperation.throughTask, start_suspends hmethod]
  have hfirst : (Tasks.Result.of (.privateKey .retry none)).reply.asksRetry = some true := rfl
  simp only [hfirst, if_true, hget, bind, Except.bind, hok, hreply, pure, Except.pure]

/-- It is the reply that the notification calls for, unless that is an error. -/
theorem throughTask_delivers_iff {method : JObject}
    (hmethod : c.object .sslPrivateKeyMethod = some method) {java : Java} {n : Notification}
    (honce : (op.body method).reports java = [n]) (maxOut : Nat) :
    op.throughTask .succeed maxOut java c s = .ok (n.reply maxOut) ↔ n ≠ .onError := by
  rw [throughTask_once hmethod honce, Except.ok.injEq]
  exact Tasks.copyOut_eq_reply_iff maxOut n

end

/-! ## What the descriptors ask for -/

/-- A descriptor of an operation, in front of the class of its last parameter. -/
def PrivateKeyOperation.opening : PrivateKeyOperation → String
  | .sign _ _ => "(JI[BL"
  | .decrypt _ => "(J[BL"

/-- The constructor of the task of an operation, as it is looked up. -/
def taskInit (b : Build) (op : PrivateKeyOperation) : JMethod :=
  ⟨"<init>", op.opening ++
    (b.packagePrefix ++ "io/netty/internal/tcnative/AsyncSSLPrivateKeyMethod;)V")⟩

/-- A descriptor of an operation asks for one object behind what the direct call
passes, and for no result. -/
theorem opening_fits (op : PrivateKeyOperation) {name : List Char} (h : ';' ∉ name) :
    ∃ d, Jvm.parseDescriptor (op.opening.toList ++ (name ++ [';', ')', 'V'])) = some d ∧
      d.Fits (op.passed ++ [.reference]) none := by
  cases op with
  | sign signatureAlgorithm input =>
    let d : Jvm.Descriptor :=
      ⟨[.primitive .long, .primitive .int, .array (.primitive .byte), .object ⟨name, h⟩], none⟩
    have htext : ("(JI[BL").toList = ['(', 'J', 'I', '[', 'B', 'L'] := by decide
    refine ⟨d, ?_, rfl, rfl⟩
    rw [← Jvm.parseDescriptor_text d, PrivateKeyOperation.opening, htext]
    simp [d, Jvm.Descriptor.text, Jvm.JType.text, Jvm.Primitive.letter, Jvm.resultText]
  | decrypt input =>
    let d : Jvm.Descriptor :=
      ⟨[.primitive .long, .array (.primitive .byte), .object ⟨name, h⟩], none⟩
    have htext : ("(J[BL").toList = ['(', 'J', '[', 'B', 'L'] := by decide
    refine ⟨d, ?_, rfl, rfl⟩
    rw [← Jvm.parseDescriptor_text d, PrivateKeyOperation.opening, htext]
    simp [d, Jvm.Descriptor.text, Jvm.JType.text, Jvm.Primitive.letter, Jvm.resultText]

theorem prefixed_fits {b : Build} (hplain : ';' ∉ b.packagePrefix.toList)
    (op : PrivateKeyOperation) {signature : String} {name : List Char} (hname : ';' ∉ name)
    (hsignature : signature.toList = name ++ [';', ')', 'V']) :
    ∃ d, Jvm.parseDescriptor (op.opening ++ (b.packagePrefix ++ signature)).toList = some d ∧
      d.Fits (op.passed ++ [.reference]) none := by
  have hclass : ';' ∉ b.packagePrefix.toList ++ name := by
    rw [List.mem_append, not_or]
    exact ⟨hplain, hname⟩
  obtain ⟨d, hd, hfits⟩ := opening_fits op hclass
  refine ⟨d, ?_, hfits⟩
  rw [← hd]
  simp only [String.toList_append, hsignature, List.append_assoc]

/-- The task mode passes the method behind the input, so its call of the
constructor fits. -/
theorem taskInit_fits {b : Build} (hplain : ';' ∉ b.packagePrefix.toList)
    (op : PrivateKeyOperation) :
    ∃ d, Jvm.parseDescriptor (taskInit b op).signature.toList = some d ∧
      d.Fits (op.passed ++ [.reference]) none := by
  have hsignature : ("io/netty/internal/tcnative/AsyncSSLPrivateKeyMethod;)V").toList =
      ("io/netty/internal/tcnative/AsyncSSLPrivateKeyMethod").toList ++ [';', ')', 'V'] := by
    decide
  exact prefixed_fits hplain op (by decide) hsignature

/-- A method ID asks for the callback behind the input, which the direct call
leaves out. -/
theorem privateKeyMethods_fit {b : Build} (hplain : ';' ∉ b.packagePrefix.toList)
    (op : PrivateKeyOperation) {m : JMethod} (hm : (privateKeyMethods b)[op.index]? = some m) :
    ∃ d, Jvm.parseDescriptor m.signature.toList = some d ∧
      d.Fits (op.passed ++ [.reference]) none := by
  have hm' : m.signature = op.opening ++
      (b.packagePrefix ++ "io/netty/internal/tcnative/ResultCallback;)V") := by
    cases op with
    | sign signatureAlgorithm input => cases hm; rfl
    | decrypt input => cases hm; rfl
  have hsignature : ("io/netty/internal/tcnative/ResultCallback;)V").toList =
      ("io/netty/internal/tcnative/ResultCallback").toList ++ [';', ')', 'V'] := by
    decide
  rw [hm']
  exact prefixed_fits hplain op (by decide) hsignature

/-! ## Both modes, in every state of a context -/

/-- The two modes agree exactly where an operation fails before it gets to the
method. Behind that point the direct call does not fit its method ID. -/
theorem privateKeyModes_agree_iff (b : Build) (es : List Event) (op : PrivateKeyOperation)
    (e : JniCalls) (maxOut : Nat) (java : Java) (returned : Except Thrown (Option (List Byte)))
    (conn : Tasks.Conn) :
    Machine.Ends (contextStep b)
      (fun _ s => op.Agree e maxOut java returned s.ctxt conn ↔
        ¬ ReachesMethod e (s.ctxt.object .sslPrivateKeyMethod))
      .start es := by
  obtain ⟨t, s, hrun, -, hresolved⟩ := contextRun_resolved b es
  exact ⟨t, s, hrun, agree_iff hresolved java returned⟩

/-- A method that is set and returns one signature. With tasks the signature is
delivered. The direct call leaves out the callback and reads a void result. -/
theorem privateKeyModes_disagree :
    (Tasks.succeedJava.sign 7 1025 [1]).length = 1 ∧
      Machine.Ends (contextStep ⟨.boringssl, true, false, ""⟩)
        (fun _ s =>
          (PrivateKeyOperation.sign 1025 [1]).throughTask .succeed 8 Tasks.succeedJava s.ctxt
              (.new Tasks.taskCtx 1) = .ok (.privateKey .success (some [7])) ∧
            ¬ (PrivateKeyOperation.sign 1025 [1]).Agree .succeed 8 Tasks.succeedJava
              (.ok (some [7])) s.ctxt (.new Tasks.taskCtx 1))
        .start [.call (.setPrivateKeyMethod0 (some 7) .succeed)] := by
  refine ⟨rfl, _, _, rfl, rfl, ?_⟩
  rintro ⟨reply, hdirectly, -⟩
  have hundefined : (none : Option Tasks.Reply) = some reply := hdirectly
  cases hundefined

end Context
