-- SUMMARY: Session ticket keys: the Java packer, the native unpacker and its key array, and the ticket callback.
import Tcnative.Base.Jni

/-!
# Session ticket keys

`SSLContext.setSessionTicketKeys` packs its keys into one array of bytes, and
the native side unpacks them into an array of `tcn_ssl_ticket_key_t` that
replaces the one before. From OpenSSL 3.0 on an entry of the array points into
itself: its MAC parameters hold the address of its own HMAC key, and a copy of
the entry holds the address of the original.
-/

namespace Ticket
open CMem Jni

/-- The two builds: before OpenSSL 3.0, and from it on. -/
inductive Build where
  | before3
  | from3
  deriving DecidableEq, Repr

/-- `unsigned char[16]`, the type of a key name, an HMAC key and an AES key. -/
abbrev Bytes16 := { bs : List Byte // bs.length = 16 }

/-! ## The Java side -/

/-- `SessionTicketKey`. Its constructor refuses arrays of other lengths. -/
structure SessionTicketKey where
  name : Bytes16
  hmacKey : Bytes16
  aesKey : Bytes16
  deriving DecidableEq

/-- `SessionTicketKey.TICKET_KEY_SIZE`, and `SSL_SESSION_TICKET_KEY_SIZE` of the
native side. -/
def ticketKeySize : Nat := 48

/-- The loop of `setSessionTicketKeys`, with the array that it fills. -/
def packLoop (binaryKeys : List Byte) (i : Nat) : List SessionTicketKey → List Byte
  | [] => binaryKeys
  | key :: keys =>
    let dstCurPos := ticketKeySize * i
    let binaryKeys := splice binaryKeys dstCurPos key.name.val
    let binaryKeys := splice binaryKeys (dstCurPos + 16) key.hmacKey.val
    let binaryKeys := splice binaryKeys (dstCurPos + 16 + 16) key.aesKey.val
    packLoop binaryKeys (i + 1) keys

/-- The bytes that `setSessionTicketKeys` passes on. -/
def packKeys (keys : List SessionTicketKey) : List Byte :=
  packLoop (List.replicate (keys.length * ticketKeySize) 0) 0 keys

/-! ## The native array of keys -/

/-- The address of the HMAC key of an entry: the array and the index in it. -/
structure HmacPtr where
  block : Nat
  index : Nat
  deriving DecidableEq, Repr

/-- `tcn_ssl_ticket_key_t`. The first of the MAC parameters, which exist from
OpenSSL 3.0 on, is the address of an HMAC key; the others are constants. -/
structure TcnSslTicketKey where
  keyName : Bytes16
  hmacKey : Bytes16
  macParams : Option HmacPtr
  aesKey : Bytes16
  deriving DecidableEq

/-- The part of `tcn_ssl_ctxt_t` about tickets, and the arrays of keys that were
ever allocated. A freed array is `none`. -/
structure TcnSslCtxt where
  heap : List (Option (List TcnSslTicketKey))
  ticketKeys : Option Nat
  ticketKeysLen : Nat
  ticketKeysNew : UInt32
  ticketKeysResume : UInt32
  ticketKeysRenew : UInt32
  ticketKeysFail : UInt32
  deriving DecidableEq

/-- A context as `SSLContext.make` returns it. -/
def TcnSslCtxt.make : TcnSslCtxt := ⟨[], none, 0, 0, 0, 0, 0⟩

/-- The contents of an array of keys. -/
def TcnSslCtxt.load (c : TcnSslCtxt) (block : Nat) : Except Fault (List TcnSslTicketKey) :=
  match c.heap[block]? with
  | some (some keys) => .ok keys
  | _ => .error .useAfterFree

/-- `memcpy` of 16 bytes out of `b`. -/
def copy16 (b : List Byte) (i : Nat) : Except Fault Bytes16 :=
  if h : i + 16 ≤ b.length then .ok ⟨slice b i 16, by rw [slice_length]; omega⟩
  else .error .outOfBounds

/-- Fill entry `i` of a new array. -/
def unpackKey (build : Build) (block : Nat) (b : List Byte) (i : Nat) :
    Except Fault TcnSslTicketKey := do
  let keyName ← copy16 b (ticketKeySize * i)
  let hmacKey ← copy16 b (ticketKeySize * i + 16)
  let aesKey ← copy16 b (ticketKeySize * i + 32)
  return ⟨keyName, hmacKey, if build = .from3 then some ⟨block, i⟩ else none, aesKey⟩

/-- Fill the `n` entries from `i` on. -/
def unpackKeys (build : Build) (block : Nat) (b : List Byte) (i : Nat) :
    Nat → Except Fault (List TcnSslTicketKey)
  | 0 => .ok []
  | n + 1 => do
    let key ← unpackKey build block b i
    let keys ← unpackKeys build block b (i + 1) n
    return key :: keys

/-- The first part of `setSessionTicketKeys0`: allocate and fill the new array.
Nothing else can see it yet. -/
def allocKeys (build : Build) (c : TcnSslCtxt) (keys : List Byte) :
    Except Fault (Nat × TcnSslCtxt) := do
  let block := c.heap.length
  let ticketKeys ← unpackKeys build block keys 0 (keys.length / ticketKeySize)
  return (block, { c with heap := c.heap ++ [some ticketKeys] })

/-- The part of `setSessionTicketKeys0` under the write lock. -/
def installKeys (c : TcnSslCtxt) (block cnt : Nat) : TcnSslCtxt :=
  { c with
    -- Free the array that was installed.
    heap :=
      match c.ticketKeys with
      | some old => c.heap.set old none
      | none => c.heap
    ticketKeysLen := cnt
    ticketKeys := some block }

/-- `SSLContext.setSessionTicketKeys0`. `malloc` and `elements` are whether the
array and the bytes of `keys` can be had. -/
def setSessionTicketKeys0 (build : Build) (c : TcnSslCtxt) (keys : List Byte)
    (malloc elements : Bool) : Except Fault (Option Throwable × TcnSslCtxt) :=
  if !malloc then .ok (some (.exception "OPENSSL_malloc() returned null"), c)
  else if !elements then .ok (some (.exception "GetByteArrayElements() returned null"), c)
  else do
    let (block, c) ← allocKeys build c keys
    return (none, installKeys c block (keys.length / ticketKeySize))

/-- `SSLContext.setSessionTicketKeys`. -/
def setSessionTicketKeys (build : Build) (c : TcnSslCtxt) (keys : Option (List SessionTicketKey))
    (malloc elements : Bool) : Except Fault (Option Throwable × TcnSslCtxt) :=
  match keys with
  | none | some [] =>
    .ok (some (.illegalArgumentException "Length of the keys should be longer than 0."), c)
  | some keys => setSessionTicketKeys0 build c (packKeys keys) malloc elements

/-! ## The ticket callback -/

/-- `current_session_key`. -/
def currentSessionKey (c : TcnSslCtxt) : Except Fault (Option TcnSslTicketKey) :=
  if 0 < c.ticketKeysLen then
    match c.ticketKeys with
    | none => .error .nullPointer
    | some block => do
      match (← c.load block)[0]? with
      | none => .error .outOfBounds
      | some key => return some key
  else .ok none

/-- The loop of `find_session_key` from entry `i` on, with `n` entries to go. -/
def findLoop (keys : List TcnSslTicketKey) (keyName : Bytes16) (i : Nat) :
    Nat → Except Fault (Option (TcnSslTicketKey × Bool))
  | 0 => .ok none
  | n + 1 =>
    match keys[i]? with
    | none => .error .outOfBounds
    | some key =>
      if key.keyName = keyName then .ok (some (key, i == 0)) else findLoop keys keyName (i + 1) n

/-- `find_session_key`: the copy of the key, and `is_current_key`. -/
def findSessionKey (c : TcnSslCtxt) (keyName : Bytes16) :
    Except Fault (Option (TcnSslTicketKey × Bool)) :=
  if c.ticketKeysLen = 0 then .ok none
  else
    match c.ticketKeys with
    | none => .error .nullPointer
    | some block => do findLoop (← c.load block) keyName 0 c.ticketKeysLen

/-- The key that `HMAC_Init_ex` or `EVP_MAC_CTX_set_params` reads for the copy
of an entry: the bytes of the copy, or the memory its parameters point to. -/
def hmacInit (build : Build) (c : TcnSslCtxt) (key : TcnSslTicketKey) : Except Fault Bytes16 :=
  match build, key.macParams with
  | .before3, _ => .ok key.hmacKey
  | .from3, none => .error .nullPointer
  | .from3, some ptr => do
    match (← c.load ptr.block)[ptr.index]? with
    | none => .error .outOfBounds
    | some entry => return entry.hmacKey

/-- What the callback shares with the library: the name and the initialisation
vector of the ticket, and what it initialises the cipher (key and vector) and
the MAC with. -/
structure TicketCtx where
  keyName : Bytes16
  iv : List Byte
  cipher : Option (Bytes16 × List Byte)
  mac : Option Bytes16
  deriving DecidableEq

/-- `ssl_tlsext_ticket_key_cb`. `rand` is whether `RAND_bytes` succeeds and what
it leaves in `iv`. -/
def sslTlsextTicketKeyCb (build : Build) (c : TcnSslCtxt) (t : TicketCtx)
    (rand : Bool × List Byte) (enc : Bool) : Except Fault (Int × TicketCtx × TcnSslCtxt) :=
  if enc then do -- create new session
    match ← currentSessionKey c with
    | some key =>
      let t := { t with iv := rand.2 }
      if !rand.1 then return (-1, t, c) -- insufficient random
      else
        let t := { t with keyName := key.keyName, cipher := some (key.aesKey, t.iv) }
        let mac ← hmacInit build c key
        return (1, { t with mac := some mac }, { c with ticketKeysNew := c.ticketKeysNew + 1 })
    | none => return (0, t, c) -- no ticket configured
  else do -- retrieve session
    match ← findSessionKey c t.keyName with
    | some (key, isCurrentKey) =>
      let mac ← hmacInit build c key
      let t := { t with mac := some mac, cipher := some (key.aesKey, t.iv) }
      if !isCurrentKey then
        return (2, t, { c with ticketKeysRenew := c.ticketKeysRenew + 1 })
      else return (1, t, { c with ticketKeysResume := c.ticketKeysResume + 1 })
    | none =>
      -- No matching ticket.
      return (0, t, { c with ticketKeysFail := c.ticketKeysFail + 1 })

end Ticket
