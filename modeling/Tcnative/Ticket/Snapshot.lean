-- SUMMARY: Ticket callbacks and rotations interleaved statement by statement, and when the copied keys stay usable.
import Tcnative.Ticket.Rotation

/-!
# Snapshots of ticket keys

A callback copies an entry of the key array under the read lock and uses the
copy after the unlock. A rotation frees the array under the write lock. The copy
holds its AES key, but from OpenSSL 3.0 on it only points to its HMAC key.
-/

namespace Ticket
open CMem

/-! ## One callback, statement by statement -/

/-- The next statement of a callback, with its local variables `key` and
`is_current_key` once they are set. -/
inductive Pc where
  /-- `current_session_key` or `find_session_key`, all of it under the lock. -/
  | copy
  | randBytes (key : TcnSslTicketKey)
  | writeName (key : TcnSslTicketKey)
  | encryptInit (key : TcnSslTicketKey)
  | encryptMac (key : TcnSslTicketKey)
  | incNew (key : TcnSslTicketKey)
  | decryptMac (key : TcnSslTicketKey) (isCurrentKey : Bool)
  | decryptInit (key : TcnSslTicketKey) (isCurrentKey : Bool)
  | incFound (key : TcnSslTicketKey) (isCurrentKey : Bool)
  | incFail
  | returned (key : Option TcnSslTicketKey) (ret : Int)
  deriving DecidableEq

/-- The local variable `key`. -/
def Pc.key : Pc → Option TcnSslTicketKey
  | .copy | .incFail => none
  | .randBytes key | .writeName key | .encryptInit key | .encryptMac key | .incNew key
  | .decryptMac key _ | .decryptInit key _ | .incFound key _ => some key
  | .returned key _ => key

/-- The key whose MAC parameters the next statement uses. -/
def Pc.macKey : Pc → Option TcnSslTicketKey
  | .encryptMac key | .decryptMac key _ => some key
  | _ => none

/-- A running `ssl_tlsext_ticket_key_cb`. -/
structure Callback where
  enc : Bool
  ticket : TicketCtx
  pc : Pc
  deriving DecidableEq

/-- The next statement of a callback. -/
def Callback.step (build : Build) (c : TcnSslCtxt) (rand : Bool × List Byte) (cb : Callback) :
    Except Fault (Callback × TcnSslCtxt) :=
  match cb.pc with
  | .copy =>
    if cb.enc then do
      match ← currentSessionKey c with
      | some key => return ({ cb with pc := .randBytes key }, c)
      | none => return ({ cb with pc := .returned none 0 }, c)
    else do
      match ← findSessionKey c cb.ticket.keyName with
      | some (key, isCurrentKey) => return ({ cb with pc := .decryptMac key isCurrentKey }, c)
      | none => return ({ cb with pc := .incFail }, c)
  | .randBytes key =>
    let t := { cb.ticket with iv := rand.2 }
    if !rand.1 then .ok ({ cb with ticket := t, pc := .returned (some key) (-1) }, c)
    else .ok ({ cb with ticket := t, pc := .writeName key }, c)
  | .writeName key =>
    .ok ({ cb with ticket := { cb.ticket with keyName := key.keyName }, pc := .encryptInit key }, c)
  | .encryptInit key =>
    let t := { cb.ticket with cipher := some (key.aesKey, cb.ticket.iv) }
    .ok ({ cb with ticket := t, pc := .encryptMac key }, c)
  | .encryptMac key => do
    let mac ← hmacInit build c key
    return ({ cb with ticket := { cb.ticket with mac := some mac }, pc := .incNew key }, c)
  | .incNew key =>
    .ok ({ cb with pc := .returned (some key) 1 }, { c with ticketKeysNew := c.ticketKeysNew + 1 })
  | .decryptMac key isCurrentKey => do
    let mac ← hmacInit build c key
    let t := { cb.ticket with mac := some mac }
    return ({ cb with ticket := t, pc := .decryptInit key isCurrentKey }, c)
  | .decryptInit key isCurrentKey =>
    let t := { cb.ticket with cipher := some (key.aesKey, cb.ticket.iv) }
    .ok ({ cb with ticket := t, pc := .incFound key isCurrentKey }, c)
  | .incFound key isCurrentKey =>
    if !isCurrentKey then
      .ok ({ cb with pc := .returned (some key) 2 },
        { c with ticketKeysRenew := c.ticketKeysRenew + 1 })
    else
      .ok ({ cb with pc := .returned (some key) 1 },
        { c with ticketKeysResume := c.ticketKeysResume + 1 })
  | .incFail =>
    .ok ({ cb with pc := .returned none 0 }, { c with ticketKeysFail := c.ticketKeysFail + 1 })
  | .returned _ _ => .ok (cb, c)

/-- The next `n` statements of a callback, with nothing in between. -/
def Callback.steps (build : Build) (rand : Bool × List Byte) :
    Nat → TcnSslCtxt → Callback → Except Fault (Callback × TcnSslCtxt)
  | 0, c, cb => .ok (cb, c)
  | n + 1, c, cb => do
    let (cb, c) ← cb.step build c rand
    Callback.steps build rand n c cb

/-- The return value of a callback that has returned. -/
def Pc.ret : Pc → Option Int
  | .returned _ ret => some ret
  | _ => none

/-- The statements of a callback, one after the other, are the callback. -/
theorem callback_alone (build : Build) (c : TcnSslCtxt) (t : TicketCtx) (rand : Bool × List Byte)
    (enc : Bool) :
    (Callback.steps build rand 6 c ⟨enc, t, .copy⟩).map
        (fun p => (p.1.pc.ret, p.1.ticket, p.2)) =
      (sslTlsextTicketKeyCb build c t rand enc).map (fun p => (some p.1, p.2.1, p.2.2)) := by
  cases enc with
  | true =>
    simp only [Callback.steps, Callback.step, sslTlsextTicketKeyCb, bind, Except.bind, if_true]
    cases currentSessionKey c with
    | error f => rfl
    | ok found =>
      cases found with
      | none => rfl
      | some key =>
        obtain ⟨ok, iv⟩ := rand
        cases ok with
        | false => rfl
        | true =>
          simp only [pure, Except.pure, Bool.not_true, Bool.false_eq_true, if_false]
          cases hmacInit build c key <;> rfl
  | false =>
    simp only [Callback.steps, Callback.step, sslTlsextTicketKeyCb, bind, Except.bind,
      Bool.false_eq_true, if_false]
    cases findSessionKey c t.keyName with
    | error f => rfl
    | ok found =>
      cases found with
      | none => rfl
      | some found =>
        obtain ⟨key, isCurrentKey⟩ := found
        simp only [pure, Except.pure]
        cases hmacInit build c key with
        | error f => rfl
        | ok mac => cases isCurrentKey <;> rfl

/-! ## Interleavings -/

/-- A call of `setSessionTicketKeys0`: its argument, the array it has filled,
and whether it has been through its locked section. -/
structure Rotation where
  keys : KeyArray
  block : Nat
  installed : Bool

/-- A context with all its callbacks and rotations. -/
structure World where
  ctx : TcnSslCtxt
  callbacks : List Callback
  rotations : List Rotation

/-- The library calls a callback, a callback executes its next statement, a
rotation fills its array, or a rotation enters its locked section. -/
inductive Event where
  | call (enc : Bool) (keyName : Bytes16) (iv : List Byte)
  | proceed (k : Nat) (rand : Bool × List Byte)
  | allocate (keys : KeyArray)
  | install (r : Nat)

def World.start : World := ⟨.make, [], []⟩

/-- One event, in the build for OpenSSL 3.0 and later. -/
def worldStep (w : World) : Event → Except Fault (Unit × World)
  | .call enc keyName iv =>
    .ok ((), { w with callbacks := w.callbacks ++ [⟨enc, ⟨keyName, iv, none, none⟩, .copy⟩] })
  | .proceed k rand =>
    match w.callbacks[k]? with
    | none => .ok ((), w)
    | some cb => do
      let (cb, ctx) ← cb.step .from3 w.ctx rand
      return ((), { w with ctx, callbacks := w.callbacks.set k cb })
  | .allocate keys => do
    let (block, ctx) ← allocKeys .from3 w.ctx (packKeys keys.keys)
    return ((), { w with ctx, rotations := w.rotations ++ [⟨keys, block, false⟩] })
  | .install r =>
    match w.rotations[r]? with
    | some ⟨keys, block, false⟩ =>
      .ok ((), { w with
        ctx := installKeys w.ctx block ((packKeys keys.keys).length / ticketKeySize)
        rotations := w.rotations.set r ⟨keys, block, true⟩ })
    | _ => .ok ((), w)

/-! ## What is to hold -/

/-- `key` is the copy of an entry that a rotation installed. -/
def Copied (rotations : List Rotation) (key : TcnSslTicketKey) : Prop :=
  ∃ (r : Nat) (rot : Rotation) (i : Nat) (k : SessionTicketKey), rotations[r]? = some rot ∧
    rot.installed = true ∧ rot.keys.keys[i]? = some k ∧ key = entry .from3 r k i

/-- The MAC and the cipher of a callback are initialised from the one entry that
it copied. -/
structure UsesCopy (rotations : List Rotation) (cb : Callback) : Prop where
  copied : ∀ key, cb.pc.key = some key → Copied rotations key
  mac : ∀ m, cb.ticket.mac = some m → ∃ key, cb.pc.key = some key ∧ m = key.hmacKey
  cipher : ∀ a iv, cb.ticket.cipher = some (a, iv) → ∃ key, cb.pc.key = some key ∧ a = key.aesKey

/-- No statement of the interleaving reads freed memory, and every callback uses
the one entry that it copied. -/
def SnapshotsSurvive (events : List Event) : Prop :=
  Machine.Ends worldStep (fun _ w => ∀ cb ∈ w.callbacks, UsesCopy w.rotations cb) .start events

/-- The condition on an event: a callback that is about to set its MAC
parameters copied its entry from the array that is installed now. -/
def Undisturbed (w : World) : Event → Prop
  | .proceed k _ => ∀ cb key, w.callbacks[k]? = some cb → cb.pc.macKey = some key →
    key.macParams.map (·.block) = w.ctx.ticketKeys
  | _ => True

/-! ## The arrays -/

/-- The arrays of all rotations: those that are not installed yet and the one
that is installed now are allocated, the others are freed. -/
structure Arrays (c : TcnSslCtxt) (rotations : List Rotation) : Prop where
  size : c.heap.length = rotations.length
  block : ∀ (r : Nat) rot, rotations[r]? = some rot → rot.block = r
  allocated : ∀ (r : Nat) rot, rotations[r]? = some rot →
    rot.installed = false ∨ c.ticketKeys = some r →
    c.heap[r]? = some (some (entries .from3 r rot.keys.keys))
  freed : ∀ (r : Nat) rot, rotations[r]? = some rot → rot.installed = true →
    c.ticketKeys ≠ some r → c.heap[r]? = some none
  nothing : c.ticketKeys = none → c.ticketKeysLen = 0
  current : ∀ r, c.ticketKeys = some r → ∃ rot, rotations[r]? = some rot ∧
    rot.installed = true ∧ c.ticketKeysLen = rot.keys.keys.length

section
variable {c : TcnSslCtxt} {rotations : List Rotation}

/-- The counters do not matter. -/
theorem Arrays.congr {c' : TcnSslCtxt} (h : Arrays c rotations) (hheap : c'.heap = c.heap)
    (hkeys : c'.ticketKeys = c.ticketKeys) (hlen : c'.ticketKeysLen = c.ticketKeysLen) :
    Arrays c' rotations := by
  obtain ⟨size, block, allocated, freed, nothing, current⟩ := h
  rw [← hheap] at size allocated freed
  rw [← hkeys] at allocated freed nothing current
  rw [← hlen] at nothing current
  exact ⟨size, block, allocated, freed, nothing, current⟩

/-- The installed keys are those of the rotation that is installed now. -/
theorem Arrays.installed (h : Arrays c rotations) :
    ∃ keys, Installed .from3 c keys ∧ ∀ (i : Nat) k, keys[i]? = some k →
      Copied rotations (entry .from3 (c.ticketKeys.getD 0) k i) := by
  cases hkeys : c.ticketKeys with
  | none =>
    exact ⟨[], ⟨h.nothing hkeys, fun _ => hkeys, fun hne => absurd rfl hne⟩, by simp⟩
  | some r =>
    obtain ⟨rot, hrot, hinstalled, hlen⟩ := h.current r hkeys
    have harray := h.allocated r rot hrot (.inr hkeys)
    refine ⟨rot.keys.keys, ⟨hlen, fun hnil => absurd hnil rot.keys.nonempty,
      fun _ => ⟨r, hkeys, harray⟩⟩, ?_⟩
    intro i k hk
    exact ⟨r, rot, i, k, hrot, hinstalled, hk, rfl⟩

theorem Arrays.currentSessionKey_copies (h : Arrays c rotations) :
    ∃ found, currentSessionKey c = .ok found ∧ ∀ key, found = some key → Copied rotations key := by
  obtain ⟨keys, hkeys, hcopied⟩ := h.installed
  refine ⟨_, currentSessionKey_ok hkeys, ?_⟩
  cases keys with
  | nil => rintro key ⟨⟩
  | cons k keys =>
    rintro key ⟨⟩
    exact hcopied 0 k rfl

theorem Arrays.findSessionKey_copies (h : Arrays c rotations) (name : Bytes16) :
    ∃ found, findSessionKey c name = .ok found ∧
      ∀ key isCurrentKey, found = some (key, isCurrentKey) → Copied rotations key := by
  obtain ⟨keys, hkeys, hcopied⟩ := h.installed
  refine ⟨_, findSessionKey_ok hkeys name, ?_⟩
  intro key isCurrentKey hfound
  obtain ⟨⟨k, i⟩, hfirst, heq⟩ := Option.map_eq_some_iff.mp hfound
  cases heq
  exact hcopied i k (mem_of_firstNamed hfirst).1

/-- The copy of an entry of the installed array leads to its own HMAC key. -/
theorem Arrays.hmacInit_copied (h : Arrays c rotations) {key : TcnSslTicketKey}
    (hcopied : Copied rotations key) (hcurrent : key.macParams.map (·.block) = c.ticketKeys) :
    hmacInit .from3 c key = .ok key.hmacKey := by
  obtain ⟨r, rot, i, k, hrot, -, hk, rfl⟩ := hcopied
  exact hmacInit_ok (h.allocated r rot hrot (.inr hcurrent.symm)) hk

/-- The copy of an entry of a replaced array leads to freed memory. -/
theorem Arrays.hmacInit_replaced (h : Arrays c rotations) {key : TcnSslTicketKey}
    (hcopied : Copied rotations key) (hreplaced : key.macParams.map (·.block) ≠ c.ticketKeys) :
    hmacInit .from3 c key = .error .useAfterFree := by
  obtain ⟨r, rot, i, k, hrot, hinstalled, -, rfl⟩ := hcopied
  -- The address in the copy leads to the array of its rotation, which was freed since.
  have hfreed := h.freed r rot hrot hinstalled (Ne.symm hreplaced)
  simp only [hmacInit, entry, if_true, TcnSslCtxt.load, hfreed, bind, Except.bind]

/-- A rotation that fills its array changes no other. -/
theorem Arrays.allocate (h : Arrays c rotations) (keys : KeyArray) :
    Arrays { c with heap := c.heap ++ [some (entries .from3 c.heap.length keys.keys)] }
      (rotations ++ [⟨keys, c.heap.length, false⟩]) := by
  constructor
  case size => simp [h.size]
  case block =>
    intro r rot hrot
    rcases getElem?_snoc hrot with hrot | ⟨rfl, rfl⟩
    · exact h.block r rot hrot
    · exact h.size
  case allocated =>
    intro r rot hrot hused
    rcases getElem?_snoc hrot with hrot | ⟨rfl, rfl⟩
    · exact getElem?_snoc_left (h.allocated r rot hrot hused)
    · simp [← h.size]
  case freed =>
    intro r rot hrot hinstalled hother
    rcases getElem?_snoc hrot with hrot | ⟨rfl, rfl⟩
    · exact getElem?_snoc_left (h.freed r rot hrot hinstalled hother)
    · cases hinstalled
  case nothing => exact h.nothing
  case current =>
    intro r hr
    obtain ⟨rot, hrot, hrest⟩ := h.current r hr
    exact ⟨rot, getElem?_snoc_left hrot, hrest⟩

/-- The locked section frees the array that was installed and no other. -/
private theorem installKeys_heap (c : TcnSslCtxt) (block cnt r : Nat) (hr : r < c.heap.length) :
    (installKeys c block cnt).heap[r]? =
      if c.ticketKeys = some r then some none else c.heap[r]? := by
  cases hold : c.ticketKeys with
  | none => simp [installKeys, hold]
  | some old =>
    simp only [installKeys, hold, List.getElem?_set, Option.some.injEq]
    split
    · rename_i heq
      rw [if_pos (heq ▸ hr)]
    · rfl

/-- The locked section frees the array that was installed and installs the new
one. -/
theorem Arrays.install (h : Arrays c rotations) {r : Nat} {keys : KeyArray} {block : Nat}
    (hrot : rotations[r]? = some ⟨keys, block, false⟩) :
    Arrays (installKeys c block ((packKeys keys.keys).length / ticketKeySize))
      (rotations.set r ⟨keys, block, true⟩) := by
  obtain rfl : block = r := h.block r _ hrot
  have hcnt : (packKeys keys.keys).length / ticketKeySize = keys.keys.length := by
    rw [packKeys_length]
    exact Nat.mul_div_cancel_left _ (by decide)
  have hlt : ∀ {i rot}, rotations[i]? = some rot → i < c.heap.length := by
    intro i rot hi
    rw [h.size]
    exact (List.getElem?_eq_some_iff.mp hi).1
  -- Only an array that was installed before can be the current one.
  have hpending : ∀ {i rot}, rotations[i]? = some rot → rot.installed = false →
      c.ticketKeys ≠ some i := by
    intro i rot hi hnot hcur
    obtain ⟨rot', hrot', hinstalled, -⟩ := h.current i hcur
    obtain rfl : rot = rot' := Option.some.inj (hi.symm.trans hrot')
    simp [hnot] at hinstalled
  have hcases : ∀ {i rot}, (rotations.set block ⟨keys, block, true⟩)[i]? = some rot →
      (i = block ∧ rot = ⟨keys, block, true⟩) ∨ (i ≠ block ∧ rotations[i]? = some rot) := by
    intro i rot hi
    by_cases heq : i = block
    · subst heq
      rw [List.getElem?_set_self (List.getElem?_eq_some_iff.mp hrot).1] at hi
      exact .inl ⟨rfl, (Option.some.inj hi).symm⟩
    · rw [List.getElem?_set_ne (Ne.symm heq)] at hi
      exact .inr ⟨heq, hi⟩
  constructor
  case size =>
    rw [List.length_set, ← h.size]
    simp only [installKeys]
    cases c.ticketKeys <;> simp
  case block =>
    intro i rot hi
    rcases hcases hi with ⟨rfl, rfl⟩ | ⟨-, hi⟩
    · rfl
    · exact h.block i rot hi
  case allocated =>
    intro i rot hi hused
    rcases hcases hi with ⟨rfl, rfl⟩ | ⟨hne, hi⟩
    · -- The array that is installed now was filled and not freed.
      rw [installKeys_heap c _ _ _ (hlt hrot), if_neg (hpending hrot rfl)]
      exact h.allocated i ⟨keys, i, false⟩ hrot (.inl rfl)
    · have hnot : rot.installed = false := by
        rcases hused with hnot | hcur
        · exact hnot
        · exact absurd (Option.some.inj hcur).symm hne
      rw [installKeys_heap c _ _ _ (hlt hi), if_neg (hpending hi hnot)]
      exact h.allocated i rot hi (.inl hnot)
  case freed =>
    intro i rot hi hinstalled hother
    rcases hcases hi with ⟨rfl, rfl⟩ | ⟨hne, hi⟩
    · exact absurd rfl hother
    · rw [installKeys_heap c _ _ _ (hlt hi)]
      split
      · rfl
      · rename_i hold
        exact h.freed i rot hi hinstalled hold
  case nothing => simp [installKeys]
  case current =>
    rintro i ⟨⟩
    exact ⟨_, List.getElem?_set_self (List.getElem?_eq_some_iff.mp hrot).1, rfl, hcnt⟩

/-! ## The callbacks -/

/-- Copies stay copies as rotations go on. -/
theorem Copied.mono {rotations' : List Rotation} {key : TcnSslTicketKey}
    (hrots : ∀ (r : Nat) rot, rotations[r]? = some rot → rot.installed = true →
      rotations'[r]? = some rot)
    (h : Copied rotations key) : Copied rotations' key := by
  obtain ⟨r, rot, i, k, hrot, hinstalled, hrest⟩ := h
  exact ⟨r, rot, i, k, hrots r rot hrot hinstalled, hinstalled, hrest⟩

theorem UsesCopy.mono {rotations' : List Rotation} {cb : Callback}
    (hrots : ∀ (r : Nat) rot, rotations[r]? = some rot → rot.installed = true →
      rotations'[r]? = some rot)
    (h : UsesCopy rotations cb) : UsesCopy rotations' cb :=
  ⟨fun key hkey => (h.copied key hkey).mono hrots, h.mac, h.cipher⟩

/-- A statement that keeps the local variable and what it initialises. -/
theorem UsesCopy.next {cb : Callback} (h : UsesCopy rotations cb) {pc : Pc} {t : TicketCtx}
    (hkey : pc.key = cb.pc.key) (hmac : t.mac = cb.ticket.mac)
    (hcipher : t.cipher = cb.ticket.cipher) :
    UsesCopy rotations { cb with ticket := t, pc := pc } := by
  obtain ⟨hcopied, hm, hc⟩ := h
  constructor <;> simp only [hkey, hmac, hcipher]
  case copied => exact hcopied
  case mac => exact hm
  case cipher => exact hc

/-- A statement that initialises the MAC from the local variable. -/
theorem UsesCopy.initMac {cb : Callback} (h : UsesCopy rotations cb) {pc : Pc}
    {key : TcnSslTicketKey} (hpc : cb.pc.key = some key) (hkey : pc.key = some key) :
    UsesCopy rotations
      { cb with ticket := { cb.ticket with mac := some key.hmacKey }, pc := pc } := by
  obtain ⟨hcopied, hm, hc⟩ := h
  constructor <;> simp only [hkey, hpc] at *
  case copied => exact hcopied
  case mac =>
    rintro m ⟨⟩
    exact ⟨key, rfl, rfl⟩
  case cipher => exact hc

/-- A statement that initialises the cipher from the local variable. -/
theorem UsesCopy.initCipher {cb : Callback} (h : UsesCopy rotations cb) {pc : Pc}
    {key : TcnSslTicketKey} {iv : List Byte} (hpc : cb.pc.key = some key)
    (hkey : pc.key = some key) :
    UsesCopy rotations
      { cb with ticket := { cb.ticket with cipher := some (key.aesKey, iv) }, pc := pc } := by
  obtain ⟨hcopied, hm, hc⟩ := h
  constructor <;> simp only [hkey, hpc] at *
  case copied => exact hcopied
  case mac => exact hm
  case cipher =>
    rintro a iv' ⟨⟩
    exact ⟨key, rfl, rfl⟩

/-- The statement that copies an entry into the local variable. -/
theorem UsesCopy.copy {cb : Callback} (h : UsesCopy rotations cb) (hpc : cb.pc.key = none) {pc : Pc}
    (hcopied : ∀ key, pc.key = some key → Copied rotations key) :
    UsesCopy rotations { cb with pc := pc } := by
  refine ⟨hcopied, ?_, ?_⟩
  · intro m hm
    obtain ⟨key, hkey, -⟩ := h.mac m hm
    simp [hpc] at hkey
  · intro a iv hc
    obtain ⟨key, hkey, -⟩ := h.cipher a iv hc
    simp [hpc] at hkey

/-- A statement of a callback does not fault if its entry was copied from the
array that is installed now, and changes nothing but its callback and a counter. -/
theorem Callback.step_ok (h : Arrays c rotations) {cb : Callback} (hcb : UsesCopy rotations cb)
    (hcurrent : ∀ key, cb.pc.macKey = some key → key.macParams.map (·.block) = c.ticketKeys)
    (rand : Bool × List Byte) :
    ∃ cb' c', cb.step .from3 c rand = .ok (cb', c') ∧ UsesCopy rotations cb' ∧
      Arrays c' rotations := by
  obtain ⟨enc, t, pc⟩ := cb
  cases pc with
  | copy =>
    cases enc with
    | true =>
      obtain ⟨found, hfound, hcopied⟩ := h.currentSessionKey_copies
      simp only [Callback.step, hfound, bind, Except.bind, if_true]
      cases found with
      | none => exact ⟨_, _, rfl, hcb.copy rfl (by rintro key ⟨⟩), h⟩
      | some key =>
        exact ⟨_, _, rfl, hcb.copy rfl (by rintro key' ⟨⟩; exact hcopied key rfl), h⟩
    | false =>
      obtain ⟨found, hfound, hcopied⟩ := h.findSessionKey_copies t.keyName
      simp only [Callback.step, hfound, bind, Except.bind, Bool.false_eq_true, if_false]
      cases found with
      | none => exact ⟨_, _, rfl, hcb.copy rfl (by rintro key ⟨⟩), h⟩
      | some found =>
        obtain ⟨key, isCurrentKey⟩ := found
        exact ⟨_, _, rfl,
          hcb.copy rfl (by rintro key' ⟨⟩; exact hcopied key isCurrentKey rfl), h⟩
  | randBytes key =>
    obtain ⟨ok, iv⟩ := rand
    cases ok with
    | false => exact ⟨_, _, rfl, hcb.next rfl rfl rfl, h⟩
    | true => exact ⟨_, _, rfl, hcb.next rfl rfl rfl, h⟩
  | writeName key => exact ⟨_, _, rfl, hcb.next rfl rfl rfl, h⟩
  | encryptInit key => exact ⟨_, _, rfl, hcb.initCipher rfl rfl, h⟩
  | encryptMac key =>
    have hmac := h.hmacInit_copied (hcb.copied key rfl) (hcurrent key rfl)
    simp only [Callback.step, hmac, bind, Except.bind]
    exact ⟨_, _, rfl, hcb.initMac rfl rfl, h⟩
  | incNew key => exact ⟨_, _, rfl, hcb.next rfl rfl rfl, h.congr rfl rfl rfl⟩
  | decryptMac key isCurrentKey =>
    have hmac := h.hmacInit_copied (hcb.copied key rfl) (hcurrent key rfl)
    simp only [Callback.step, hmac, bind, Except.bind]
    exact ⟨_, _, rfl, hcb.initMac rfl rfl, h⟩
  | decryptInit key isCurrentKey => exact ⟨_, _, rfl, hcb.initCipher rfl rfl, h⟩
  | incFound key isCurrentKey =>
    cases isCurrentKey with
    | false => exact ⟨_, _, rfl, hcb.next rfl rfl rfl, h.congr rfl rfl rfl⟩
    | true => exact ⟨_, _, rfl, hcb.next rfl rfl rfl, h.congr rfl rfl rfl⟩
  | incFail => exact ⟨_, _, rfl, hcb.next rfl rfl rfl, h.congr rfl rfl rfl⟩
  | returned key ret => exact ⟨_, _, rfl, hcb, h⟩

/-- Behind a rotation, the statement that sets the MAC parameters reads freed
memory. -/
theorem Callback.step_replaced (h : Arrays c rotations) {cb : Callback}
    (hcb : UsesCopy rotations cb) {key : TcnSslTicketKey} (hkey : cb.pc.macKey = some key)
    (hreplaced : key.macParams.map (·.block) ≠ c.ticketKeys) (rand : Bool × List Byte) :
    cb.step .from3 c rand = .error .useAfterFree := by
  obtain ⟨enc, t, pc⟩ := cb
  cases pc with
  | encryptMac key' =>
    cases hkey
    have hmac := h.hmacInit_replaced (hcb.copied key rfl) hreplaced
    simp only [Callback.step, hmac, bind, Except.bind]
  | decryptMac key' isCurrentKey =>
    cases hkey
    have hmac := h.hmacInit_replaced (hcb.copied key rfl) hreplaced
    simp only [Callback.step, hmac, bind, Except.bind]
  | copy | randBytes _ | writeName _ | encryptInit _ | incNew _ | decryptInit _ _ | incFound _ _
  | incFail | returned _ _ => cases hkey

end

/-! ## Interleavings keep their snapshots -/

/-- The invariant of an interleaving. -/
structure Coherent (w : World) : Prop where
  arrays : Arrays w.ctx w.rotations
  callbacks : ∀ cb ∈ w.callbacks, UsesCopy w.rotations cb

theorem coherent_start : Coherent .start := by
  refine ⟨?_, by simp [World.start]⟩
  constructor <;> simp [World.start, TcnSslCtxt.make]

theorem worldStep_ok {w : World} {e : Event} (h : Coherent w) (he : Undisturbed w e) :
    ∃ w', worldStep w e = .ok ((), w') ∧ Coherent w' := by
  cases e with
  | call enc keyName iv =>
    refine ⟨_, rfl, h.arrays, ?_⟩
    intro cb hcb
    rcases List.mem_append.mp hcb with hcb | hcb
    · exact h.callbacks cb hcb
    · obtain rfl := List.mem_singleton.mp hcb
      exact ⟨by rintro key ⟨⟩, by rintro m ⟨⟩, by rintro a iv ⟨⟩⟩
  | proceed k rand =>
    cases hk : w.callbacks[k]? with
    | none => exact ⟨w, by simp only [worldStep, hk], h⟩
    | some cb =>
      have hcb := h.callbacks cb (List.mem_of_getElem? hk)
      obtain ⟨cb', c', hstep, hcb', hc'⟩ :=
        Callback.step_ok h.arrays hcb (fun key => he cb key hk) rand
      refine ⟨_, by simp only [worldStep, hk, hstep, bind, Except.bind]; rfl, hc', ?_⟩
      intro cb₁ hmem
      rcases List.mem_or_eq_of_mem_set hmem with hmem | rfl
      · exact h.callbacks cb₁ hmem
      · exact hcb'
  | allocate keys =>
    refine ⟨_, by simp only [worldStep, allocKeys_ok, bind, Except.bind]; rfl,
      h.arrays.allocate keys, ?_⟩
    intro cb hcb
    exact (h.callbacks cb hcb).mono fun r rot hrot _ => getElem?_snoc_left hrot
  | install r =>
    cases hr : w.rotations[r]? with
    | none => exact ⟨w, by simp only [worldStep, hr], h⟩
    | some rot =>
      obtain ⟨keys, block, installed⟩ := rot
      cases installed with
      | true => exact ⟨w, by simp only [worldStep, hr], h⟩
      | false =>
        refine ⟨_, by simp only [worldStep, hr]; rfl, h.arrays.install hr, ?_⟩
        intro cb hcb
        refine (h.callbacks cb hcb).mono fun i rot hi hinstalled => ?_
        -- The rotation that is installed now was not installed before.
        have hne : r ≠ i := by
          rintro rfl
          cases hr.symm.trans hi
          cases hinstalled
        rw [List.getElem?_set_ne hne, hi]

theorem worldStep_disturbed {w : World} {e : Event} (h : Coherent w) (he : ¬ Undisturbed w e) :
    worldStep w e = .error .useAfterFree := by
  cases e with
  | call enc keyName iv => exact absurd trivial he
  | allocate keys => exact absurd trivial he
  | install r => exact absurd trivial he
  | proceed k rand =>
    simp only [Undisturbed, not_forall] at he
    obtain ⟨cb, key, hk, hkey, hreplaced⟩ := he
    have hcb := h.callbacks cb (List.mem_of_getElem? hk)
    have hstep := Callback.step_replaced h.arrays hcb hkey hreplaced rand
    simp only [worldStep, hk, hstep, bind, Except.bind]

private theorem worldRun_coherent {events : List Event}
    (h : Machine.Meets worldStep Undisturbed .start events) :
    ∃ t w, Machine.run worldStep .start events = .ok (t, w) ∧ Coherent w := by
  obtain ⟨t, w, hrun, hw, -⟩ := Machine.run_of_meets (P := Undisturbed) (I := Coherent)
    (Q := fun _ => True)
    (by
      intro w e hw he
      obtain ⟨w', hstep, hw'⟩ := worldStep_ok hw he
      exact ⟨(), w', hstep, hw', trivial⟩)
    coherent_start h
  exact ⟨t, w, hrun, hw⟩

/-- The snapshots survive in every state an interleaving reaches if and only if
every callback sets its MAC parameters while the array that it copied from is
still the installed one. -/
theorem snapshotsSurvive_iff (events : List Event) :
    (∀ events₁, events₁ <+: events → SnapshotsSurvive events₁) ↔
      Machine.Meets worldStep Undisturbed .start events := by
  refine Machine.forall_prefix_iff_meets (R := fun _ => True) (fun _ _ => trivial) ?_ ?_
  · intro events _ h
    obtain ⟨t, w, hrun, hw⟩ := worldRun_coherent h
    exact ⟨t, w, hrun, hw.callbacks⟩
  · intro events e _ _ h t w hrun he
    obtain ⟨t₁, w₁, hrun₁, hw⟩ := worldRun_coherent h
    obtain ⟨-, rfl⟩ : t₁ = t ∧ w₁ = w := by simpa [hrun] using hrun₁.symm
    exact Machine.not_ends_of_error
      (Machine.run_snoc_error hrun (worldStep_disturbed hw he))

/-- A rotation that gets between the copy of an entry and its MAC parameters. -/
def rotateInBetween : List Event :=
  [.allocate ⟨[plainKey 1 2 3], by decide, by decide⟩, .install 0,
    .call false (bytes16 1) [], .proceed 0 (true, []),
    .allocate ⟨[plainKey 4 5 6], by decide, by decide⟩, .install 1, .proceed 0 (true, [])]

/-- The decrypting callback reads the HMAC key from the array that was freed. -/
theorem rotateInBetween_fault : ¬ SnapshotsSurvive rotateInBetween :=
  Machine.not_ends_of_error (f := .useAfterFree) rfl

end Ticket
