-- SUMMARY: Contexts, connections and BIOs: the functions that create, pass on and free them.
import Tcnative.Base.Holding
import Tcnative.Base.RefCount
import Tcnative.Lifetime.Versions

/-!
# Contexts, connections and their memory

A `tcn_ssl_ctxt_t` lives in a pool of its own and has a reference to its `SSL_CTX`.
An `SSL` has one too, besides its state, which points back to the `tcn_ssl_ctxt_t`
without keeping it alive, and the BIO that it is given. Java gets pointers to all
of them.
-/

namespace Lifetime
open CMem Jni Tls

/-! ## Data -/

/-- `tcn_ssl_ctxt_t`. -/
structure TcnSslCtxt where
  protocol : BitVec 32
  mode : Int
  ctx : Nat

/-- An `SSL`, with its app data and its BIO. -/
structure Ssl where
  ctx : Nat
  state : Option Nat
  bio : Option Nat
  acceptState : Bool

/-- `tcn_ssl_state_t`. -/
structure TcnSslState where
  handshakeCount : Nat
  ctx : Nat

/-- A BIO of the library, or one of the native code with its data. -/
inductive Bio where
  | mem
  | byteBuffer (data : Option Nat)

/-- `TCN_bio_bytebuffer`, as far as it is about memory. -/
structure TcnBioBytebuffer where
  nonApplicationBuffer : Option Nat
  nonApplicationBufferSize : Int

/-- What is allocated and freed. A context stands for its pool. -/
inductive Ref where
  | sslCtx (i : Nat)
  | ctxt (i : Nat)
  | ssl (i : Nat)
  | state (i : Nat)
  | bio (i : Nat)
  | data (i : Nat)
  | buffer (i : Nat)
  deriving DecidableEq

/-- What Java has to free. -/
inductive Handle where
  | ctxt (i : Nat)
  | ssl (i : Nat)
  | bio (i : Nat)
  deriving DecidableEq

def Handle.ref : Handle → Ref
  | .ctxt i => .ctxt i
  | .ssl i => .ssl i
  | .bio i => .bio i

/-- All the memory. Buffers are given by their size. -/
structure State where
  sslCtxs : RefHeap SslCtx
  ctxts : Arena TcnSslCtxt
  ssls : Arena Ssl
  states : Arena TcnSslState
  bios : Arena Bio
  datas : Arena TcnBioBytebuffer
  buffers : Arena Int
  java : List Handle

def State.start : State := ⟨[], [], [], [], [], [], [], []⟩

/-! ## Who holds what -/

def TcnSslCtxt.refs (c : TcnSslCtxt) : List Ref := [.sslCtx c.ctx]

def Ssl.refs (ssl : Ssl) : List Ref :=
  .sslCtx ssl.ctx :: (ssl.state.map .state).toList ++ (ssl.bio.map .bio).toList

def Bio.refs : Bio → List Ref
  | .mem | .byteBuffer none => []
  | .byteBuffer (some data) => [.data data]

def TcnBioBytebuffer.refs (data : TcnBioBytebuffer) : List Ref :=
  (data.nonApplicationBuffer.map .buffer).toList

/-- The references that exist. -/
def State.count (s : State) : Ref → Nat
  | .sslCtx i => s.sslCtxs.count i
  | .ctxt i => s.ctxts.count i
  | .ssl i => s.ssls.count i
  | .state i => s.states.count i
  | .bio i => s.bios.count i
  | .data i => s.datas.count i
  | .buffer i => s.buffers.count i

/-- The references that somebody holds: Java, or memory that is not freed. -/
def State.held (s : State) : List Ref :=
  s.java.map Handle.ref ++ s.ctxts.held TcnSslCtxt.refs ++ s.ssls.held Ssl.refs ++ s.bios.held Bio.refs ++
    s.datas.held TcnBioBytebuffer.refs

/-- A handle that Java got. -/
def State.handOut (s : State) (h : Handle) : State := { s with java := h :: s.java }

/-- A handle that Java frees. -/
def State.takeBack (s : State) (h : Handle) : State := { s with java := s.java.erase h }

/-! ## The library -/

/-- `SSL_CTX_free`. -/
def State.sslCtxFree (s : State) (ctx : Nat) : Except Fault State :=
  match s.sslCtxs.free ctx with
  | .error fault => .error fault
  | .ok sslCtxs => .ok { s with sslCtxs }

/-- `OPENSSL_free` of a buffer that may be null. -/
def State.bufferFree (s : State) : Option Nat → Except Fault State
  | none => .ok s
  | some buffer =>
    match s.buffers.release buffer with
    | .error fault => .error fault
    | .ok buffers => .ok { s with buffers }

/-- `bio_java_bytebuffer_destroy`. -/
def State.bioJavaBytebufferDestroy (s : State) : Option Nat → Except Fault State
  | none => .ok s
  | some data =>
    match s.datas.get data with
    | .error fault => .error fault
    | .ok bioUserData =>
      match s.bufferFree bioUserData.nonApplicationBuffer with
      | .error fault => .error fault
      | .ok s =>
        match s.datas.release data with
        | .error fault => .error fault
        | .ok datas => .ok { s with datas }

/-- The `destroy` function of a BIO. -/
def State.bioDestroy (s : State) : Bio → Except Fault State
  | .mem => .ok s
  | .byteBuffer data => s.bioJavaBytebufferDestroy data

/-- `BIO_free`. Nobody takes a second reference to a BIO. -/
def State.bioFree (s : State) (bio : Nat) : Except Fault State :=
  match s.bios.get bio with
  | .error fault => .error fault
  | .ok v =>
    match s.bioDestroy v with
    | .error fault => .error fault
    | .ok s =>
      match s.bios.release bio with
      | .error fault => .error fault
      | .ok bios => .ok { s with bios }

/-- `BIO_free` of a pointer that may be null. -/
def State.bioFreeOpt (s : State) : Option Nat → Except Fault State
  | none => .ok s
  | some bio => s.bioFree bio

/-- `SSL_free`. -/
def State.sslFree (s : State) (ssl : Nat) : Except Fault State :=
  match s.ssls.get ssl with
  | .error fault => .error fault
  | .ok v =>
    match s.bioFreeOpt v.bio with
    | .error fault => .error fault
    | .ok s =>
      match s.sslCtxFree v.ctx with
      | .error fault => .error fault
      | .ok s =>
        match s.ssls.release ssl with
        | .error fault => .error fault
        | .ok ssls => .ok { s with ssls }

/-- `SSL_set_bio(ssl, bio, bio)`: the `SSL` gets the reference, and frees the BIO
that it had. -/
def State.sslSetBio (s : State) (ssl bio : Nat) : Except Fault State :=
  match s.ssls.get ssl with
  | .error fault => .error fault
  | .ok v =>
    match s.bioFreeOpt v.bio with
    | .error fault => .error fault
    | .ok s => .ok { s with ssls := s.ssls.update ssl fun v => { v with bio := some bio } }

/-! ## Contexts -/

/-- What a call returns to Java, or throws. Pointers are positions, and `none` is
0. -/
abbrev Reply := Except Throwable (Option Nat)

/-- Which calls succeed during `SSLContext.make`, and the error texts. -/
structure MakeCalls where
  sslCtxNew : Bool
  sslError : String
  poolCreate : Bool
  pcalloc : Bool
  rwlockCreate : Bool
  aprError : String

/-- The end of `SSLContext.make` when it fails: the pool is destroyed without a
clean-up, and the `SSL_CTX` is freed. -/
def makeCleanup (s : State) (pool : Option Nat) (ctx : Nat) (t : Throwable) :
    Except Fault (Reply × State) :=
  match s.ctxts.releaseOpt pool with
  | .error fault => .error fault
  | .ok ctxts =>
    match State.sslCtxFree { s with ctxts } ctx with
    | .error fault => .error fault
    | .ok s => .ok (.error t, s)

/-- `SSLContext.make`. The pool is there for the context only, whose fields are given
at once. With BoringSSL and AWS-LC the bounds are set before the `SSL_CTX` is checked
for NULL. -/
def make (b : Build) (protocol : BitVec 32) (mode : Int) (calls : MakeCalls) (s : State) :
    Except Fault (Reply × State) :=
  match newSslCtx b protocol mode with
  | .error t => .ok (.error t, s)
  | .ok none => .ok (.error (.exception s!"Failed to initialize SSL_CTX ({calls.sslError})"), s)
  | .ok (some sslCtx) =>
    if !calls.sslCtxNew then
      if b.library.isBoringSSL then .error .nullPointer
      else .ok (.error (.exception s!"Failed to initialize SSL_CTX ({calls.sslError})"), s)
    else
      let ctx := s.sslCtxs.length
      let pool := s.ctxts.length
      let s := { s with sslCtxs := s.sslCtxs.new (sslCtx.configure b protocol) }
      if !calls.poolCreate then makeCleanup s none ctx (.exception calls.aprError)
      else
        let s := { s with ctxts := s.ctxts.alloc ⟨protocol, mode, ctx⟩ }
        if !calls.pcalloc then
          makeCleanup s (some pool) ctx (.exception
            s!"Unable to allocate memory for tcn_ssl_ctxt_t via apr_pcalloc(...) ({calls.aprError})")
        else if !calls.rwlockCreate then
          makeCleanup s (some pool) ctx (.exception
            s!"Unable to create lock via to apr_thread_rwlock_create(...) ({calls.aprError})")
        else .ok (.ok (some pool), s.handOut (.ctxt pool))

/-- `SSLContext.free`, with the clean-up of the pool as far as it is about the
`SSL_CTX`. -/
def freeContext (ctx : Option Nat) (s : State) : Except Fault (Reply × State) :=
  match ctx with
  | none => .ok (.error (.nullPointerException "ctx"), s)
  | some c =>
    match s.ctxts.get c with
    | .error fault => .error fault
    | .ok v =>
      match s.sslCtxFree v.ctx with
      | .error fault => .error fault
      | .ok s =>
        match s.ctxts.release c with
        | .error fault => .error fault
        | .ok ctxts => .ok (.ok none, State.takeBack { s with ctxts } (.ctxt c))

/-! ## Connections -/

/-- Which calls succeed during `SSL.newSSL`. -/
structure NewSslCalls where
  sslNew : Bool
  malloc : Bool

/-- `SSL.newSSL`, with `new_ssl_state`. -/
def newSSL (ctx : Option Nat) (server : Bool) (calls : NewSslCalls) (s : State) :
    Except Fault (Reply × State) :=
  match ctx with
  | none => .ok (.error (.nullPointerException "ctx"), s)
  | some c =>
    match s.ctxts.get c with
    | .error fault => .error fault
    | .ok v =>
      if !calls.sslNew then .ok (.error (.exception "cannot create new ssl"), s)
      else
        match s.sslCtxs.upRef v.ctx with
        | .error fault => .error fault
        | .ok sslCtxs =>
          let ssl := s.ssls.length
          let s := { s with sslCtxs, ssls := s.ssls.alloc ⟨v.ctx, none, none, false⟩ }
          if !calls.malloc then
            match s.sslFree ssl with
            | .error fault => .error fault
            | .ok s => .ok (.error (.exception "cannot create new ssl state struct"), s)
          else
            let state := s.states.length
            let s := { s with
              states := s.states.alloc ⟨0, c⟩
              ssls := s.ssls.update ssl fun v =>
                { v with state := some state, acceptState := server } }
            .ok (.ok (some ssl), s.handOut (.ssl ssl))

/-- `free_ssl_state`, without the task. -/
def State.freeSslState (s : State) (state : Option Nat) : Except Fault State :=
  match s.states.releaseOpt state with
  | .error fault => .error fault
  | .ok states => .ok { s with states }

/-- `SSL.freeSSL`. -/
def freeSSL (ssl : Option Nat) (s : State) : Except Fault (Reply × State) :=
  match ssl with
  | none => .ok (.error (.nullPointerException "ssl"), s)
  | some i =>
    match s.ssls.get i with
    | .error fault => .error fault
    | .ok v =>
      match s.freeSslState v.state with
      | .error fault => .error fault
      | .ok s =>
        match s.sslFree i with
        | .error fault => .error fault
        | .ok s => .ok (.ok none, s.takeBack (.ssl i))

/-! ## BIOs -/

/-- What `BIO_new` comes to: there is no memory for the BIO, `bio_java_bytebuffer_create`
has none for its data, or neither. -/
inductive BioNew where
  | noBio
  | noData
  | created
  deriving DecidableEq

/-- `BIO_new(BIO_java_bytebuffer())`, with `bio_java_bytebuffer_create`. -/
def State.bioNew (s : State) : State :=
  { s with
    datas := s.datas.alloc ⟨none, 0⟩
    bios := s.bios.alloc (.byteBuffer (some s.datas.length)) }

/-- The internal buffer of a new BIO. -/
def State.bufferNew (s : State) (data : Nat) (nonApplicationBufferSize : Int) : State :=
  { s with
    buffers := s.buffers.alloc nonApplicationBufferSize
    datas := s.datas.update data fun _ => ⟨some s.buffers.length, nonApplicationBufferSize⟩ }

/-- `SSL.bioNewByteBuffer`. The data of a new BIO is never null. -/
def bioNewByteBuffer (ssl : Option Nat) (nonApplicationBufferSize : Int) (bioNew : BioNew)
    (malloc : Bool) (s : State) : Except Fault (Reply × State) :=
  match ssl with
  | none => .ok (.error (.nullPointerException "ssl"), s)
  | some i =>
    if nonApplicationBufferSize ≤ 0 then
      .ok (.error (.illegalArgumentException "nonApplicationBufferSize must be > 0"), s)
    else
      match bioNew with
      | .noBio | .noData => .ok (.error (.exception "BIO_new failed"), s)
      | .created =>
        let data := s.datas.length
        let bio := s.bios.length
        if !malloc then
          match s.bioNew.bioFree bio with
          | .error fault => .error fault
          | .ok s => .ok (.error (.exception
              s!"Failed to allocate internal buffer of size {nonApplicationBufferSize}"), s)
        else
          match (s.bioNew.bufferNew data nonApplicationBufferSize).sslSetBio i bio with
          | .error fault => .error fault
          | .ok s => .ok (.ok (some bio), s)

/-- `SSL.newMemBIO`. -/
def newMemBio (bioNew : Bool) (s : State) : Except Fault (Reply × State) :=
  if !bioNew then .ok (.error (.exception "Create BIO failed"), s)
  else
    let bio := s.bios.length
    .ok (.ok (some bio), State.handOut { s with bios := s.bios.alloc .mem } (.bio bio))

/-- `SSL.freeBIO`. -/
def freeBio (bio : Option Nat) (s : State) : Except Fault (Reply × State) :=
  match bio with
  | none => .ok (.ok none, s)
  | some i =>
    match s.bioFree i with
    | .error fault => .error fault
    | .ok s => .ok (.ok none, s.takeBack (.bio i))

/-! ## Uses -/

/-- The data of a BIO is read or written, and its buffer. -/
def useData (data : Option Nat) (s : State) : Except Fault Unit :=
  match data with
  | none => .ok ()
  | some data =>
    match s.datas.get data with
    | .error fault => .error fault
    | .ok bioUserData =>
      match bioUserData.nonApplicationBuffer with
      | none => .ok ()
      | some buffer =>
        match s.buffers.get buffer with
        | .error fault => .error fault
        | .ok _ => .ok ()

/-- The functions that take the data of a BIO, like `SSL.bioSetByteBuffer` and
`SSL.bioFlushByteBuffer`. A BIO of the library has other data. -/
def useBio (bio : Nat) (s : State) : Except Fault Unit :=
  match s.bios.get bio with
  | .error fault => .error fault
  | .ok .mem => .error .outOfBounds
  | .ok (.byteBuffer data) => useData data s

/-- The library reads from a BIO or writes to it. -/
def bioIo (bio : Option Nat) (s : State) : Except Fault Unit :=
  match bio with
  | none => .ok ()
  | some bio =>
    match s.bios.get bio with
    | .error fault => .error fault
    | .ok .mem => .ok ()
    | .ok (.byteBuffer data) => useData data s

/-- A function that uses a context, like `SSLContext.setVerify`. The `SSL_CTX` is behind
it. -/
def useContext (ctx : Nat) (s : State) : Except Fault Unit :=
  match s.ctxts.get ctx with
  | .error fault => .error fault
  | .ok v =>
    match s.sslCtxs.get v.ctx with
    | .error fault => .error fault
    | .ok _ => .ok ()

/-- A function that uses a connection with its state and its BIO, but not its context, like
`SSL.setVerify`, `SSL.getTask` and `SSL.doHandshake` up to its callbacks. -/
def useSsl (ssl : Nat) (s : State) : Except Fault Unit :=
  match s.ssls.get ssl with
  | .error fault => .error fault
  | .ok v =>
    match v.state with
    | none => bioIo v.bio s
    | some state =>
      match s.states.get state with
      | .error fault => .error fault
      | .ok _ => bioIo v.bio s

/-- `TCN_GET_SSL_CTX`. -/
def tcnGetSslCtx (ssl : Nat) (s : State) : Except Fault (Option Nat) :=
  match s.ssls.get ssl with
  | .error fault => .error fault
  | .ok v =>
    match v.state with
    | none => .ok none
    | some state =>
      match s.states.get state with
      | .error fault => .error fault
      | .ok state => .ok (some state.ctx)

/-- A callback reads the context of its connection, if it finds one. -/
def callback (ssl : Nat) (s : State) : Except Fault Unit :=
  match tcnGetSslCtx ssl s with
  | .error fault => .error fault
  | .ok none => .ok ()
  | .ok (some c) =>
    match s.ctxts.get c with
    | .error fault => .error fault
    | .ok _ => .ok ()

/-- `SSL.getPeerCertChain`, as far as it is about memory. With BoringSSL and AWS-LC the mode
of the context decides whether the leaf is left out. -/
def getPeerCertChain (b : Build) (ssl : Nat) (s : State) : Except Fault Unit :=
  if b.library.isBoringSSL then
    match tcnGetSslCtx ssl s with
    | .error fault => .error fault
    | .ok none => .error .nullPointer
    | .ok (some c) =>
      match s.ctxts.get c with
      | .error fault => .error fault
      | .ok _ => .ok ()
  else
    match s.ssls.get ssl with
    | .error fault => .error fault
    | .ok _ => .ok ()

/-! ## Runs -/

inductive Event where
  | make (protocol : BitVec 32) (mode : Int) (calls : MakeCalls)
  | freeContext (ctx : Option Nat)
  | newSSL (ctx : Option Nat) (server : Bool) (calls : NewSslCalls)
  | freeSSL (ssl : Option Nat)
  | bioNewByteBuffer (ssl : Option Nat) (nonApplicationBufferSize : Int) (bioNew : BioNew)
      (malloc : Bool)
  | newMemBio (bioNew : Bool)
  | freeBio (bio : Option Nat)
  | useBio (bio : Nat)
  | useContext (ctx : Nat)
  | useSsl (ssl : Nat)
  | getPeerCertChain (ssl : Nat)
  | callback (ssl : Nat)

/-- What a use replies does not matter here. -/
def reads (use : Except Fault Unit) (s : State) : Except Fault (Reply × State) :=
  match use with
  | .error fault => .error fault
  | .ok () => .ok (.ok none, s)

def lifetimeStep (b : Build) : Machine.Step Fault State Event Reply := fun s event =>
  match event with
  | .make protocol mode calls => make b protocol mode calls s
  | .freeContext ctx => freeContext ctx s
  | .newSSL ctx server calls => newSSL ctx server calls s
  | .freeSSL ssl => freeSSL ssl s
  | .bioNewByteBuffer ssl size bioNew malloc => bioNewByteBuffer ssl size bioNew malloc s
  | .newMemBio bioNew => newMemBio bioNew s
  | .freeBio bio => freeBio bio s
  | .useBio bio => reads (useBio bio s) s
  | .useContext ctx => reads (useContext ctx s) s
  | .useSsl ssl => reads (useSsl ssl s) s
  | .getPeerCertChain ssl => reads (getPeerCertChain b ssl s) s
  | .callback ssl => reads (callback ssl s) s

/-! ## The rules for Java -/

/-- The BIO is one that `SSL.bioNewByteBuffer` has made, and is not freed. -/
def State.isByteBuffer (s : State) (bio : Nat) : Bool :=
  match s.bios[bio]? with
  | some ⟨.byteBuffer _, false⟩ => true
  | _ => false

/-- The context that a connection was created with. -/
def State.contextOf (s : State) (ssl : Nat) : Option Nat :=
  match s.ssls[ssl]? with
  | some ⟨v, _⟩ => v.state.bind fun state => s.states[state]?.map fun c => c.value.ctx
  | none => none

/-- Java frees what it was handed out, once. It uses what is not freed, and frees no
context before the last callback of its connections. With BoringSSL and AWS-LC it also
asks for no peer chain after that, and there is memory for every `SSL_CTX`. -/
def Obeys (b : Build) (s : State) : Event → Prop
  | .make _ _ calls => b.library.isBoringSSL = true → calls.sslCtxNew = true
  | .freeContext ctx => ∀ c ∈ ctx, Handle.ctxt c ∈ s.java
  | .newSSL ctx _ _ => ∀ c ∈ ctx, 0 < s.ctxts.count c
  | .freeSSL ssl => ∀ i ∈ ssl, Handle.ssl i ∈ s.java
  | .bioNewByteBuffer ssl size bioNew malloc =>
    0 < size → bioNew = .created → malloc = true → ∀ i ∈ ssl, 0 < s.ssls.count i
  | .newMemBio _ => True
  | .freeBio bio => ∀ i ∈ bio, Handle.bio i ∈ s.java
  | .useBio bio => s.isByteBuffer bio = true
  | .useContext ctx => 0 < s.ctxts.count ctx
  | .useSsl ssl => 0 < s.ssls.count ssl
  | .getPeerCertChain ssl =>
    0 < s.ssls.count ssl ∧
      (b.library.isBoringSSL = true → ∃ c ∈ s.contextOf ssl, 0 < s.ctxts.count c)
  | .callback ssl => 0 < s.ssls.count ssl ∧ ∀ c ∈ s.contextOf ssl, 0 < s.ctxts.count c

instance (b : Build) (s : State) : (event : Event) → Decidable (Obeys b s event)
  | .make _ _ _ => inferInstanceAs (Decidable (_ → _))
  | .freeContext _ | .newSSL _ _ _ | .freeSSL _ | .freeBio _ =>
    inferInstanceAs (Decidable (∀ _ ∈ _, _))
  | .bioNewByteBuffer _ _ _ _ => inferInstanceAs (Decidable (_ → _ → _ → ∀ _ ∈ _, _))
  | .newMemBio _ => isTrue trivial
  | .useBio _ => inferInstanceAs (Decidable (_ = _))
  | .useContext _ | .useSsl _ => inferInstanceAs (Decidable (_ < _))
  | .getPeerCertChain _ => inferInstanceAs (Decidable (_ ∧ (_ → ∃ _ ∈ _, _)))
  | .callback _ => inferInstanceAs (Decidable (_ ∧ ∀ _ ∈ _, _))

/-! ## What `SSLContext.make` returns -/

/-- A context that `SSLContext.make` returns has an `SSL_CTX` of its own. On either side that
its mode is for, a connection can have exactly the implemented versions of the mask if and
only if the mask meets the condition. -/
theorem make_honours_iff {b : Build} {protocol : BitVec 32} {mode : Int} {calls : MakeCalls}
    {s s' : State} {pool : Nat} (hok : make b protocol mode calls s = .ok (.ok (some pool), s')) :
    ∃ c, s'.ctxts.Live pool ⟨protocol, mode, s.sslCtxs.length⟩ ∧
      s'.sslCtxs = s.sslCtxs.new c ∧ ∀ server, (roleOf mode).plays server = true →
        ((∀ v, b.supports v = true → c.allows b server v = v.isIn protocol) ↔
          b.Honours server protocol) := by
  have hcleanup : ∀ (s₁ : State) (p : Option Nat) (ctx : Nat) (t : Throwable),
      makeCleanup s₁ p ctx t ≠ .ok (.ok (some pool), s') := by
    intro s₁ p ctx t h
    unfold makeCleanup at h
    split at h
    · cases h
    split at h <;> cases h
  unfold make at hok
  split at hok
  · cases hok
  · cases hok
  rename_i c hnew
  split at hok
  · split at hok <;> cases hok
  split at hok
  · exact absurd hok (hcleanup _ _ _ _)
  split at hok
  · exact absurd hok (hcleanup _ _ _ _)
  split at hok
  · exact absurd hok (hcleanup _ _ _ _)
  · cases hok
    exact ⟨c.configure b protocol, Arena.live_alloc s.ctxts _, rfl,
      fun _ => newSslCtx_honours_iff hnew⟩

/-- With TLS 1.0 alone in the mask, a client can have nothing else: TLS 1.3, which is not
forbidden, is behind a gap. -/
theorem make_honours_tlsv1 : ∃ s' c,
    make openssl111 0x4 0 ⟨true, "", true, true, true, ""⟩ .start = .ok (.ok (some 0), s') ∧
      s'.sslCtxs = RefHeap.new [] c ∧
      ∀ v, openssl111.supports v = true → c.allows openssl111 false v = v.isIn 0x4 := by
  have hok : make openssl111 0x4 0 ⟨true, "", true, true, true, ""⟩ .start =
      .ok (.ok (some 0), _) := rfl
  obtain ⟨c, -, hctxs, hhonours⟩ := make_honours_iff hok
  exact ⟨_, c, hok, hctxs, (hhonours false rfl).mpr (by decide)⟩

-- A mask with TLS 1.2 only does not keep TLS 1.3 out, and a client loses what is above a gap.
example : ¬ openssl111.Honours true 0x10 ∧ ¬ openssl111.Honours false 0x34 ∧
    openssl111.Honours true 0x34 := by
  decide

end Lifetime
