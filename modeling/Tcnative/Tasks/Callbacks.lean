-- SUMMARY: The native callbacks of a handshake that call Java, directly or through a task.
import Tcnative.Protocol.Config
import Tcnative.Tasks.Store

/-!
# Native callbacks

The functions that the TLS library calls during a handshake: certificate
verification for both kinds of library, certificate selection, and the three
private key functions. Each one says what it returns to the library and how it
leaves the connection. A JNI call on NULL is a fault.
-/

namespace Tasks
open CMem

/-! ## Data -/

/-- The fields of `tcn_ssl_ctxt_t` that the callbacks read. `none` is NULL. -/
structure TcnSslCtxt where
  mode : Int
  useTasks : Bool
  verifier : Option JObject
  certificateCallback : Option JObject
  sslPrivateKeyMethod : Option JObject

/-- What the library knows about the peer of a handshake. A chain is shorter
than `INT_MAX`. -/
structure Handshake where
  peerCertificates : Option (List (List Byte))
  authenticationMethod : String
  certificateTypes : List Byte
  requestedCAs : Option (List (List Byte))

/-- `tcn_ssl_state_t`, with the context and the tasks it points to. `newSSL`
returns no `SSL` without its state and no state without its context, so neither
pointer is NULL here. -/
structure Conn where
  ctx : TcnSslCtxt
  verifyDepth : Int
  taskArrayLen : Int
  taskChainNum : Int
  store : TaskStore

/-- `new_ssl_state`, called by `SSL.newSSL`. -/
def Conn.new (ctx : TcnSslCtxt) (verifyDepth : Int) : Conn := ⟨ctx, verifyDepth, 0, 0, .empty⟩

/-- `enum ssl_verify_result_t`. -/
inductive SslVerifyResult where
  | ok
  | invalid
  | retry
  deriving DecidableEq

/-- `enum ssl_private_key_result_t`. -/
inductive SslPrivateKeyResult where
  | success
  | retry
  | failure
  deriving DecidableEq

/-- What a call returns, with what it writes to `*out_alert`, or to `out` and
`*out_len`. -/
inductive Reply where
  | verify (ret : SslVerifyResult) (outAlert : Option UInt8)
  | certificate (ret : Int)
  | privateKey (ret : SslPrivateKeyResult) (out : Option (List Byte))
  | task (t : Option Nat)
  | void
  deriving DecidableEq

/-- A reply, the task whose outcome it was read from, and the direct call of the
verifier if there was one. -/
structure Result where
  reply : Reply
  took : Option Nat
  called : Option (List (List Byte) × Except Thrown Int)

def Result.of (reply : Reply) : Result := ⟨reply, none, none⟩

@[simp] theorem Result.of_reply (reply : Reply) : (Result.of reply).reply = reply := rfl

/-- The fault of a call on a Java object that is NULL. -/
def NullCall (object : Option JObject) (f : Fault) : Prop := object = none ∧ f = .nullPointer

def x509VOk : Int := 0
def x509VErrUnspecified : Int := 1
def x509VErrUnableToGetIssuerCertLocally : Int := 20
def x509VErrCertRejected : Int := 28

/-- The value of `TCN_X509_V_ERR_UNSPECIFIED` where the library has no
`X509_V_ERR_UNSPECIFIED`. -/
def tcnX509VErrUnspecified : Int := 99999

/-! ## Certificate verification -/

/-- The loop of `get_certs`, from the certificate at position `i` on. -/
def certArrays (e : JniCalls) (i : Nat) : List (List Byte) → Option (List (List Byte))
  | [] => some []
  | cert :: certs =>
    if cert.length ≤ 0 || !e.newByteArray i then none
    else (certArrays e (i + 1) certs).map (cert :: ·)

/-- `get_certs`. `NewObjectArray` fails for a negative length. -/
def getCerts (e : JniCalls) (verifyDepth : Int) (chain : List (List Byte)) :
    Option (List (List Byte)) :=
  let len := min verifyDepth chain.length
  if len < 0 || !e.newObjectArray then none else certArrays e 0 (chain.take len.toNat)

theorem certArrays_eq {e : JniCalls} {i : Nat} {certs array : List (List Byte)}
    (h : certArrays e i certs = some array) : array = certs := by
  induction certs generalizing i array with
  | nil => exact (Option.some.inj h).symm
  | cons cert certs ih =>
    simp only [certArrays] at h
    split at h
    · cases h
    · obtain ⟨rest, hrest, rfl⟩ := Option.map_eq_some_iff.mp h
      rw [ih hrest]

/-- Where `get_certs` succeeds, it copies the first certificates of the chain. -/
theorem getCerts_eq {e : JniCalls} {verifyDepth : Int} {chain array : List (List Byte)}
    (h : getCerts e verifyDepth chain = some array) : array = chain.take verifyDepth.toNat := by
  simp only [getCerts] at h
  split at h
  · cases h
  · rw [certArrays_eq h]
    rcases Int.le_total verifyDepth chain.length with hle | hle
    · rw [Int.min_eq_left hle]
    · have hlen : chain.length ≤ verifyDepth.toNat := by omega
      rw [Int.min_eq_right hle, Int.toNat_natCast, List.take_length, List.take_of_length_le hlen]

theorem certArrays_succeed {certs : List (List Byte)} (h : ∀ cert ∈ certs, cert ≠ []) (i : Nat) :
    certArrays .succeed i certs = some certs := by
  induction certs generalizing i with
  | nil => rfl
  | cons cert certs ih =>
    have hlen : ¬ cert.length ≤ 0 := by
      have hcert := List.length_pos_iff.mpr (h cert List.mem_cons_self)
      omega
    have hrest := ih (fun c hc => h c (List.mem_cons_of_mem _ hc)) (i + 1)
    simp [certArrays, JniCalls.succeed, hlen] at hrest ⊢
    exact hrest

/-- Where JNI does not fail, the array is cut off at the verify depth. -/
theorem getCerts_succeed {verifyDepth : Int} {chain : List (List Byte)} (hdepth : 0 ≤ verifyDepth)
    (h : ∀ cert ∈ chain, cert ≠ []) :
    getCerts .succeed verifyDepth chain = some (chain.take verifyDepth.toNat) := by
  have hlen : ¬ min verifyDepth (chain.length : Int) < 0 := by omega
  have htake : ∀ cert ∈ chain.take (min verifyDepth (chain.length : Int)).toNat, cert ≠ [] :=
    fun cert hcert => h cert (List.mem_of_mem_take hcert)
  have hall := certArrays_succeed htake 0
  have harray : getCerts .succeed verifyDepth chain =
      some (chain.take (min verifyDepth (chain.length : Int)).toNat) := by
    simp only [getCerts, decide_eq_false hlen, JniCalls.succeed] at hall ⊢
    exact hall
  rw [harray, getCerts_eq harray]

/-- An unspecified error with certificates left out becomes a missing issuer. -/
def missingIssuer (result len num : Int) : Int :=
  if result = x509VErrUnspecified ∧ len < num then x509VErrUnableToGetIssuerCertLocally
  else result

theorem missingIssuer_eq_ok {result len num : Int} :
    missingIssuer result len num = x509VOk ↔ result = x509VOk := by
  unfold missingIssuer
  split
  · rename_i h
    rw [h.1]
    decide
  · rfl

/-- The variables `ret` and `result` at the label `complete`: either `ret` is
`ssl_verify_retry`, or `result` decides. -/
inductive AtComplete where
  | retry
  | result (result : Int)

/-- The statements behind the label `complete`. -/
def AtComplete.reply (alert : Int → UInt8) : AtComplete → Reply
  | .retry => .verify .retry none
  | .result res => if res = x509VOk then .verify .ok none else .verify .invalid (some (alert res))

/-- `tcn_SSL_cert_custom_verify`. `alert` is `SSL_alert_from_verify_result`. -/
def tcnSSLCertCustomVerify (hs : Handshake) (alert : Int → UInt8) (e : JniCalls) (java : Java)
    (s : Conn) : Except Fault (Result × Conn) :=
  let complete (c : AtComplete) : Result := .of (c.reply alert)
  if !e.getEnv then .ok (complete (.result x509VErrUnspecified), s)
  else
    match s.store.sslTask with
    | some p => do
      match ← s.store.poll p with
      | (none, store) => return (complete .retry, { s with store })
      | (some (r, o), store) =>
        let result := missingIssuer o.task.returnValue s.taskArrayLen s.taskChainNum
        return ({ complete (.result result) with took := some r }, { s with store })
    | none =>
      match hs.peerCertificates with
      | none => .ok (complete (.result x509VErrUnspecified), s)
      | some chain =>
        match getCerts e s.verifyDepth chain with
        | none => .ok (complete (.result x509VErrUnspecified), s)
        | some array =>
          if !e.newStringUTF then .ok (complete (.result x509VErrUnspecified), s)
          else
            match s.ctx.verifier with
            | none =>
              .ok (complete (.result
                (missingIssuer x509VErrUnspecified array.length chain.length)), s)
            | some verifier =>
              if s.ctx.useTasks then
                match s.store.suspend e
                    (.certificateVerifierTask array hs.authenticationMethod verifier) with
                | (false, store) =>
                  .ok (complete (.result x509VErrUnspecified), { s with store })
                | (true, store) =>
                  -- Signal back that we want to suspend the handshake.
                  .ok (complete .retry,
                    { s with store, taskArrayLen := array.length, taskChainNum := chain.length })
              else
                let outcome := java.verify verifier array hs.authenticationMethod
                let result :=
                  match outcome with
                  | .error _ => x509VErrUnspecified
                  | .ok result => missingIssuer result array.length chain.length
                .ok ({ complete (.result result) with called := some (array, outcome) }, s)

/-- `SSL_cert_verify`, for a library with or without `X509_V_ERR_UNSPECIFIED`.
Returns the return value, the error that it sets, and the call of the verifier. -/
def sslCertVerify (hasUnspecified : Bool) (hs : Handshake) (e : JniCalls) (java : Java)
    (s : Conn) : Except Fault (Int × Int × Option (List (List Byte) × Except Thrown Int)) :=
  let initial := if hasUnspecified then x509VErrUnspecified else x509VErrCertRejected
  let complete (result : Int) (called : Option (List (List Byte) × Except Thrown Int)) :=
    (if result = x509VOk then 1 else 0, result, called)
  if !e.getEnv then .ok (complete initial none)
  else
    match hs.peerCertificates with
    | none => .ok (complete initial none)
    | some chain =>
      match getCerts e s.verifyDepth chain with
      | none => .ok (complete initial none)
      | some array =>
        if !e.newStringUTF then .ok (complete initial none)
        else
          match s.ctx.verifier with
          | none => .error .nullPointer
          | some verifier =>
            let outcome := java.verify verifier array hs.authenticationMethod
            let result :=
              match outcome with
              | .error _ => initial
              | .ok result =>
                if hasUnspecified then missingIssuer result array.length chain.length
                -- The library cannot report the value, so it is replaced.
                else if result = tcnX509VErrUnspecified then
                  if (array.length : Int) < chain.length then x509VErrUnableToGetIssuerCertLocally
                  else x509VErrCertRejected
                else result
            .ok (complete result (some (array, outcome)))

/-! ## Certificate selection -/

/-- `keyTypes`. -/
def keyTypes (e : JniCalls) (certificateTypes : List Byte) : Option (List Byte) :=
  if certificateTypes.length ≤ 0 || !e.newByteArray 0 then none else some certificateTypes

/-- The loop of `principalBytes`. -/
def principalArrays (e : JniCalls) (i : Nat) : List (List Byte) → Option (List (List Byte))
  | [] => some []
  | name :: names =>
    if !e.newByteArray i then none else (principalArrays e (i + 1) names).map (name :: ·)

/-- `principalBytes`. -/
def principalBytes (e : JniCalls) (names : Option (List (List Byte))) :
    Option (List (List Byte)) :=
  match names with
  | none => none
  | some names =>
    if names.length ≤ 0 || !e.newObjectArray then none else principalArrays e 1 names

/-- The local variable `types` of `certificate_cb`. A server leaves it NULL. -/
def Conn.types (hs : Handshake) (e : JniCalls) (s : Conn) : Option (List Byte) :=
  if s.ctx.mode = Protocol.sslModeServer then none else keyTypes e hs.certificateTypes

/-- The local variable `issuers` of `certificate_cb`. A server leaves it NULL. -/
def Conn.issuers (hs : Handshake) (e : JniCalls) (s : Conn) : Option (List (List Byte)) :=
  if s.ctx.mode = Protocol.sslModeServer then none else principalBytes e hs.requestedCAs

/-- `certificate_cb`. -/
def certificateCb (hs : Handshake) (e : JniCalls) (java : Java) (s : Conn) :
    Except Fault (Result × Conn) :=
  if !e.getEnv then .ok (.of (.certificate 0), s)
  else
    match s.store.sslTask with
    | some p => do
      match ← s.store.poll p with
      | (none, store) => return (.of (.certificate (-1)), { s with store })
      | (some (r, o), store) =>
        return ({ Result.of (.certificate o.task.returnValue) with took := some r },
          { s with store })
    | none =>
      if s.ctx.useTasks then
        match s.store.suspend e (.certificateCallbackTask (s.types hs e) (s.issuers hs e)
            s.ctx.certificateCallback) with
        | (false, store) => .ok (.of (.certificate 0), { s with store })
        | (true, store) => .ok (.of (.certificate (-1)), { s with store })
      else
        match s.ctx.certificateCallback with
        | none => .error .nullPointer
        | some callback =>
          match java.handle callback (s.types hs e) (s.issuers hs e) with
          | .error _ => .ok (.of (.certificate 0), s)
          | .ok () => .ok (.of (.certificate 1), s)

/-! ## Private key operations -/

/-- How the private key functions copy a Java array to `out`. -/
def copyOut (e : JniCalls) (maxOut : Nat) : Option (List Byte) → Reply
  | none => .privateKey .failure none
  | some bytes =>
    if maxOut < bytes.length || !e.getByteArrayElements then .privateKey .failure none
    else .privateKey .success (some bytes)

/-- The part that `tcn_private_key_sign_java` and `tcn_private_key_decrypt_java`
share. `direct` is what `CallObjectMethod` yields. -/
def privateKeyJava (e : JniCalls) (maxOut : Nat) (body : JObject → TaskBody)
    (direct : Except Thrown (Option (List Byte))) (s : Conn) : Result × Conn :=
  match s.ctx.sslPrivateKeyMethod with
  | none => (.of (.privateKey .failure none), s)
  | some method =>
    if !e.getEnv || !e.newByteArray 0 then (.of (.privateKey .failure none), s)
    else if s.ctx.useTasks then
      match s.store.suspend e (body method) with
      | (false, store) => (.of (.privateKey .failure none), { s with store })
      | (true, store) => (.of (.privateKey .retry none), { s with store })
    else
      match direct with
      | .error _ => (.of (.privateKey .failure none), s)
      | .ok resultBytes => (.of (copyOut e maxOut resultBytes), s)

/-- `tcn_private_key_sign_java`. -/
def tcnPrivateKeySignJava (e : JniCalls) (maxOut : Nat) (signatureAlgorithm : UInt16)
    (input : List Byte) (direct : Except Thrown (Option (List Byte))) (s : Conn) : Result × Conn :=
  privateKeyJava e maxOut (.sslPrivateKeyMethodSignTask signatureAlgorithm input) direct s

/-- `tcn_private_key_decrypt_java`. -/
def tcnPrivateKeyDecryptJava (e : JniCalls) (maxOut : Nat) (input : List Byte)
    (direct : Except Thrown (Option (List Byte))) (s : Conn) : Result × Conn :=
  privateKeyJava e maxOut (.sslPrivateKeyMethodDecryptTask input) direct s

/-- `tcn_private_key_complete_java`. -/
def tcnPrivateKeyCompleteJava (e : JniCalls) (maxOut : Nat) (s : Conn) :
    Except Fault (Result × Conn) :=
  -- No task is expected, so the slot is not looked at.
  if !s.ctx.useTasks then .ok (.of (.privateKey .success none), s)
  else
    match s.store.sslTask with
    | none => .ok (.of (.privateKey .failure none), s)
    | some p =>
      if !e.getEnv then .ok (.of (.privateKey .failure none), s)
      else do
        match ← s.store.poll p with
        | (none, store) => return (.of (.privateKey .retry none), { s with store })
        | (some (r, o), store) =>
          -- Only resultBytes decides, returnValue is not read.
          return ({ Result.of (copyOut e maxOut o.task.resultBytes) with took := some r },
            { s with store })

end Tasks
