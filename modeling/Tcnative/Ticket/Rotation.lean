-- SUMMARY: Key rotation: runs of installs and ticket callbacks, and what each callback answers.
import Tcnative.Base.Machine
import Tcnative.Ticket.Installed

/-!
# Rotation of ticket keys

A run is any sequence of `setSessionTicketKeys` calls and ticket callbacks, each
one atomic. A callback answers from the keys that were installed last.
-/

namespace Ticket
open CMem Jni

/-! ## Runs -/

/-- An argument of `setSessionTicketKeys`: at least one key, and few enough for
the packed size to be an `int`. -/
structure KeyArray where
  keys : List SessionTicketKey
  nonempty : keys ≠ []
  packed_lt : ticketKeySize * keys.length < 0x80000000

inductive TicketOp where
  | setSessionTicketKeys (keys : KeyArray)
  | ticketKeyCb (t : TicketCtx) (rand : Bool × List Byte) (enc : Bool)

inductive TicketResult where
  | set (thrown : Option Throwable)
  | ticket (ret : Int) (t : TicketCtx)
  deriving DecidableEq

/-- One operation. The allocations of `setSessionTicketKeys` succeed. -/
def ticketStep (build : Build) : Machine.Step Fault TcnSslCtxt TicketOp TicketResult
  | c, .setSessionTicketKeys keys => do
    let (thrown, c) ← Ticket.setSessionTicketKeys build c (some keys.keys) true true
    return (.set thrown, c)
  | c, .ticketKeyCb t rand enc => do
    let (ret, t, c) ← sslTlsextTicketKeyCb build c t rand enc
    return (.ticket ret t, c)

/-- Perform a sequence of operations on a fresh context. -/
def ticketRun (build : Build) (ops : List TicketOp) :=
  Machine.run (ticketStep build) .make ops

/-- The result of an operation behind a sequence of operations. -/
def answer (build : Build) (ops : List TicketOp) (op : TicketOp) : Except Fault TicketResult := do
  let (_, c) ← ticketRun build ops
  let (r, _) ← ticketStep build c op
  return r

/-- The keys that a sequence of operations leaves installed. -/
def installedBy (ops : List TicketOp) : List SessionTicketKey :=
  ops.foldl (fun keys op => match op with
    | .setSessionTicketKeys new => new.keys
    | .ticketKeyCb _ _ _ => keys) []

theorem installedBy_snoc (ops : List TicketOp) (op : TicketOp) :
    installedBy (ops ++ [op]) = match op with
      | .setSessionTicketKeys new => new.keys
      | .ticketKeyCb _ _ _ => installedBy ops := by
  simp only [installedBy, List.foldl_append, List.foldl_cons, List.foldl_nil]

/-! ## What an operation is to answer -/

/-- The statistics of a context. -/
structure Counters where
  new : UInt32
  resume : UInt32
  renew : UInt32
  fail : UInt32
  deriving DecidableEq

def TcnSslCtxt.counters (c : TcnSslCtxt) : Counters :=
  ⟨c.ticketKeysNew, c.ticketKeysResume, c.ticketKeysRenew, c.ticketKeysFail⟩

/-- The ticket with its cipher and its MAC initialised from a key. -/
def TicketCtx.under (t : TicketCtx) (key : SessionTicketKey) : TicketCtx :=
  { t with cipher := some (key.aesKey, t.iv), mac := some key.hmacKey }

/-- The answer to an operation when `keys` are installed, and what it does to
the statistics. -/
def expected (keys : List SessionTicketKey) : TicketOp → TicketResult × (Counters → Counters)
  | .setSessionTicketKeys _ => (.set none, id)
  | .ticketKeyCb t rand true =>
    match keys, rand with
    | [], _ => (.ticket 0 t, id)
    | _ :: _, (false, iv) => (.ticket (-1) { t with iv }, id)
    | key :: _, (true, iv) =>
      (.ticket 1 ({ t with iv, keyName := key.name }.under key),
        fun n => { n with new := n.new + 1 })
  | .ticketKeyCb t _ false =>
    match firstNamed keys t.keyName with
    | none => (.ticket 0 t, fun n => { n with fail := n.fail + 1 })
    | some (key, 0) => (.ticket 1 (t.under key), fun n => { n with resume := n.resume + 1 })
    | some (key, _ + 1) => (.ticket 2 (t.under key), fun n => { n with renew := n.renew + 1 })

section
variable {build : Build} {c : TcnSslCtxt} {keys : List SessionTicketKey}

/-- An encrypting callback uses the first of the installed keys. -/
theorem encrypt_ok (h : Installed build c keys) (t : TicketCtx) (rand : Bool × List Byte) :
    ∃ c', ticketStep build c (.ticketKeyCb t rand true) =
        .ok ((expected keys (.ticketKeyCb t rand true)).1, c') ∧
      Installed build c' keys ∧
      c'.counters = (expected keys (.ticketKeyCb t rand true)).2 c.counters := by
  have hcurrent := currentSessionKey_ok h
  cases keys with
  | nil =>
    refine ⟨c, ?_, h, rfl⟩
    simp only [ticketStep, sslTlsextTicketKeyCb, hcurrent, bind, Except.bind, if_true]
    rfl
  | cons key keys =>
    obtain ⟨block, hblock, harray⟩ := h.array (by simp)
    have hmac := hmacInit_ok harray (i := 0) rfl
    obtain ⟨ok, iv⟩ := rand
    rw [hblock, Option.getD_some] at hcurrent
    cases ok with
    | false =>
      refine ⟨c, ?_, h, rfl⟩
      simp only [ticketStep, sslTlsextTicketKeyCb, hcurrent, bind, Except.bind, if_true]
      rfl
    | true =>
      refine ⟨{ c with ticketKeysNew := c.ticketKeysNew + 1 }, ?_, ⟨h.len, h.nothing, h.array⟩, rfl⟩
      simp only [ticketStep, sslTlsextTicketKeyCb, hcurrent, hmac, bind, Except.bind, if_true]
      rfl

/-- A decrypting callback uses the first installed key with the name. -/
theorem decrypt_ok (h : Installed build c keys) (t : TicketCtx) (rand : Bool × List Byte) :
    ∃ c', ticketStep build c (.ticketKeyCb t rand false) =
        .ok ((expected keys (.ticketKeyCb t rand false)).1, c') ∧
      Installed build c' keys ∧
      c'.counters = (expected keys (.ticketKeyCb t rand false)).2 c.counters := by
  have hfind := findSessionKey_ok h t.keyName
  simp only [expected]
  cases hfirst : firstNamed keys t.keyName with
  | none =>
    rw [hfirst] at hfind
    refine ⟨{ c with ticketKeysFail := c.ticketKeysFail + 1 }, ?_, ⟨h.len, h.nothing, h.array⟩, rfl⟩
    simp only [ticketStep, sslTlsextTicketKeyCb, hfind, bind, Except.bind]
    rfl
  | some found =>
    obtain ⟨key, i⟩ := found
    obtain ⟨hkey, -⟩ := mem_of_firstNamed hfirst
    obtain ⟨block, hblock, harray⟩ := h.array (by rintro rfl; cases hkey)
    have hmac := hmacInit_ok harray hkey
    rw [hfirst, hblock, Option.getD_some] at hfind
    cases i with
    | zero =>
      refine ⟨{ c with ticketKeysResume := c.ticketKeysResume + 1 }, ?_,
        ⟨h.len, h.nothing, h.array⟩, rfl⟩
      simp only [ticketStep, sslTlsextTicketKeyCb, hfind, hmac, bind, Except.bind, Option.map_some]
      rfl
    | succ i =>
      refine ⟨{ c with ticketKeysRenew := c.ticketKeysRenew + 1 }, ?_,
        ⟨h.len, h.nothing, h.array⟩, rfl⟩
      simp only [ticketStep, sslTlsextTicketKeyCb, hfind, hmac, bind, Except.bind, Option.map_some]
      rfl

/-- An install replaces the installed keys and counts nothing. -/
theorem set_ok (h : Installed build c keys) (new : KeyArray) :
    ∃ c', ticketStep build c (.setSessionTicketKeys new) = .ok (.set none, c') ∧
      Installed build c' new.keys ∧ c'.counters = c.counters := by
  obtain ⟨heap, hset, harray⟩ := setSessionTicketKeys_ok h new.nonempty
  refine ⟨{ c with
    heap := heap
    ticketKeysLen := new.keys.length
    ticketKeys := some c.heap.length }, ?_,
    ⟨rfl, fun hnil => absurd hnil new.nonempty, fun _ => ⟨_, rfl, harray⟩⟩, rfl⟩
  simp only [ticketStep, hset, bind, Except.bind]
  rfl

end

/-- Every operation of a run answers from the keys installed last. -/
theorem ticketStep_ok {build : Build} {c : TcnSslCtxt} {ops : List TicketOp}
    (h : Installed build c (installedBy ops)) (op : TicketOp) :
    ∃ c', ticketStep build c op = .ok ((expected (installedBy ops) op).1, c') ∧
      Installed build c' (installedBy (ops ++ [op])) ∧
      c'.counters = (expected (installedBy ops) op).2 c.counters := by
  rw [installedBy_snoc]
  cases op with
  | setSessionTicketKeys new => exact set_ok h new
  | ticketKeyCb t rand enc =>
    cases enc with
    | true => exact encrypt_ok h t rand
    | false => exact decrypt_ok h t rand

theorem ticketRun_ok (build : Build) (ops : List TicketOp) :
    ∃ t c, ticketRun build ops = .ok (t, c) ∧ Installed build c (installedBy ops) := by
  -- Over the last operation, since the keys installed last are those behind all of them.
  induction ops using List.reverseRecOn with
  | nil => exact ⟨[], .make, rfl, installed_make build⟩
  | append_singleton ops op ih =>
    obtain ⟨t, c, hrun, hc⟩ := ih
    obtain ⟨c', hstep, hc', -⟩ := ticketStep_ok hc op
    exact ⟨_, c', Machine.run_snoc hrun hstep, hc'⟩

theorem answer_ok (build : Build) (ops : List TicketOp) (op : TicketOp) :
    answer build ops op = .ok (expected (installedBy ops) op).1 := by
  obtain ⟨t, c, hrun, hc⟩ := ticketRun_ok build ops
  obtain ⟨c', hstep, -, -⟩ := ticketStep_ok hc op
  simp only [answer, hrun, hstep, bind, Except.bind]
  rfl

/-! ## Tickets outlive rotations -/

/-- The first key with a name, if no earlier one has it. -/
theorem firstNamed_append {earlier later : List SessionTicketKey} {key : SessionTicketKey}
    (h : ∀ k ∈ earlier, k.name ≠ key.name) :
    firstNamed (earlier ++ key :: later) key.name = some (key, earlier.length) := by
  have hnone : earlier.zipIdx.find? (fun p => p.1.name = key.name) = none := by
    rw [List.find?_eq_none]
    rintro ⟨k, i⟩ hk
    simpa using h k (List.fst_mem_of_mem_zipIdx hk)
  rw [firstNamed, List.zipIdx_append, List.find?_append, hnone, List.zipIdx_cons]
  simp

/-- A ticket issued under a key is accepted with the same AES and HMAC keys in
every later run that keeps the key installed, behind no other key of its name. -/
def Accepted (build : Build) (ops : List TicketOp) (issue : TicketOp) (issued : TicketCtx) : Prop :=
  ∃ key rest, installedBy ops = key :: rest ∧ issued.keyName = key.name ∧
    issued.cipher = some (key.aesKey, issued.iv) ∧ issued.mac = some key.hmacKey ∧
    ∀ ops' earlier later, installedBy (ops ++ issue :: ops') = earlier ++ key :: later →
      (∀ k ∈ earlier, k.name ≠ key.name) → ∀ t rand, t.keyName = issued.keyName →
      ∃ ret, answer build (ops ++ issue :: ops') (.ticketKeyCb t rand false) =
          .ok (.ticket ret (t.under key)) ∧ (ret = 1 ∨ ret = 2)

/-- Every operation answers from the keys installed last and counts its outcome;
every ticket issued stays acceptable as long as its key is installed. -/
theorem ticketRun_rotates (build : Build) (ops : List TicketOp) (op : TicketOp) :
    (∃ t c c', ticketRun build ops = .ok (t, c) ∧
      ticketStep build c op = .ok ((expected (installedBy ops) op).1, c') ∧
      c'.counters = (expected (installedBy ops) op).2 c.counters) ∧
    (∀ t rand issued, op = .ticketKeyCb t rand true →
      answer build ops op = .ok (.ticket 1 issued) → Accepted build ops op issued) := by
  constructor
  · obtain ⟨t, c, hrun, hc⟩ := ticketRun_ok build ops
    obtain ⟨c', hstep, -, hcount⟩ := ticketStep_ok hc op
    exact ⟨t, c, c', hrun, hstep, hcount⟩
  · rintro t rand issued rfl hanswer
    rw [answer_ok] at hanswer
    obtain ⟨ok, iv⟩ := rand
    cases hkeys : installedBy ops with
    | nil => simp [expected, hkeys] at hanswer
    | cons key rest =>
      cases ok with
      | false => simp [expected, hkeys] at hanswer
      | true =>
        simp only [expected, hkeys, Except.ok.injEq, TicketResult.ticket.injEq, true_and] at hanswer
        subst hanswer
        refine ⟨key, rest, hkeys, rfl, rfl, rfl, ?_⟩
        intro ops' earlier later hlater hearlier t' rand' hname
        -- No earlier key has the name, so the lookup finds the key itself.
        have hfirst : firstNamed (earlier ++ key :: later) t'.keyName =
            some (key, earlier.length) := by
          rw [hname]
          exact firstNamed_append hearlier
        rw [answer_ok, hlater]
        simp only [expected, hfirst]
        cases earlier.length with
        | zero => exact ⟨1, rfl, .inl rfl⟩
        | succ n => exact ⟨2, rfl, .inr rfl⟩

/-! ## Two runs -/

/-- The sixteen bytes `b`. -/
def bytes16 (b : Byte) : Bytes16 := ⟨List.replicate 16 b, List.length_replicate⟩

/-- A key that is sixteen times one byte in each of its parts. -/
def plainKey (name hmac aes : Byte) : SessionTicketKey := ⟨bytes16 name, bytes16 hmac, bytes16 aes⟩

/-- A ticket issued under a key that is then moved to the second place is
accepted for renewal. -/
theorem ticketRun_rotates_once :
    Accepted .from3 [.setSessionTicketKeys ⟨[plainKey 1 2 3], by decide, by decide⟩]
      (.ticketKeyCb ⟨bytes16 0, [], none, none⟩ (true, [7]) true)
      ⟨bytes16 1, [7], some (bytes16 3, [7]), some (bytes16 2)⟩ :=
  (ticketRun_rotates .from3 _ _).2 _ _ _ rfl (by decide)

/-- Without any key installed, a decrypting callback counts a failure. -/
theorem ticketKeyCb_fail_without_keys :
    installedBy [] = [] ∧ TcnSslCtxt.make.counters = ⟨0, 0, 0, 0⟩ ∧
      ∀ build, ∃ c, ticketStep build .make
          (.ticketKeyCb ⟨bytes16 1, [], none, none⟩ (true, []) false) =
          .ok (.ticket 0 ⟨bytes16 1, [], none, none⟩, c) ∧
        c.counters = ⟨0, 0, 0, 1⟩ :=
  ⟨rfl, rfl, fun _ => ⟨_, rfl, rfl⟩⟩

end Ticket
