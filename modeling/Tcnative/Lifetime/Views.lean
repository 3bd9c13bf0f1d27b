-- SUMMARY: Contexts and connections as settings, sessions and memory: the same calls create them, and the same are left.
import Tcnative.Context.Targets
import Tcnative.Lifetime.Changes
import Tcnative.Peer.Certificates
import Tcnative.Sessions.References

/-!
# Views of contexts and connections

`tcn_ssl_ctxt_t` and `SSL` have settings, sessions and memory. The memory has all of them.
Settings and sessions are looked at for one context with its connections, and what a
connection finds in its context for one connection. They come from the same calls of
`SSLContext.make`, `SSL.newSSL` and `SSL.freeSSL`.
-/

/-- A context has one more connection, or the one at a position is freed. -/
inductive ConnectionEvent where
  | created
  | freed (i : Nat)
  deriving DecidableEq

/-- Which connections of a context are there, in the order of their creation. -/
def ConnectionEvent.apply (there : List Bool) : ConnectionEvent → List Bool
  | .created => there ++ [true]
  | .freed i => there.set i false

/-- Something else is put where a connection is. -/
theorem there_set {α : Type} {ssls : List (Option α)} {i : Nat} {old : α}
    (hi : ssls[i]? = some (some old)) (new : α) :
    (ssls.set i (some new)).map Option.isSome = ssls.map Option.isSome := by
  have hget : (ssls.map Option.isSome)[i]? = some true := by
    rw [List.getElem?_map, hi]
    rfl
  obtain ⟨hlt, heq⟩ := List.getElem?_eq_some_iff.mp hget
  calc (ssls.set i (some new)).map Option.isSome
      = (ssls.map Option.isSome).set i true := List.map_set
    _ = (ssls.map Option.isSome).set i (ssls.map Option.isSome)[i] := by rw [heq]
    _ = ssls.map Option.isSome := List.set_getElem_self hlt

/-! ## The connections of a context, by their settings -/

namespace Context

def Session.there (s : Session) : List Bool := s.ssls.map Option.isSome

def Event.connection : Event → Option ConnectionEvent
  | .newSSL true true => some .created
  | .freeSSL i => some (.freed i)
  | _ => none

section
variable {b : Build} {s s' : Session}

theorem Stepped.there {event : Event} {r : Reply} (h : Stepped b s event r s') :
    s'.there = event.connection.toList.foldl ConnectionEvent.apply s.there := by
  cases h with
  | call _ => rfl
  | setVerify => rfl
  | setUseTasks => rfl
  | @notCreated sslNew malloc _ hfailed =>
    cases sslNew with
    | false => rfl
    | true =>
      cases malloc with
      | false => rfl
      | true => exact absurd ⟨rfl, rfl⟩ hfailed
  | newSSL => simp [Session.there, Event.connection, ConnectionEvent.apply]
  | sslSetVerify hi => exact there_set (Option.join_eq_some_iff.mp hi) _
  | noSsl _ => rfl
  | freeSSL => simp [Session.there, Session.setSsl, Event.connection, ConnectionEvent.apply]
  | ran hi _ => exact there_set (Option.join_eq_some_iff.mp hi) _
  | notInstalled _ => rfl

theorem contextRun_there {es : List Event} {t : List (Machine.Entry Session Event Reply)}
    (hrun : Machine.run (contextStep b) s es = .ok (t, s')) :
    s'.there = (es.filterMap Event.connection).foldl ConnectionEvent.apply s.there := by
  refine Machine.run_folds Session.there ?_ hrun
  intro s e r s' hok
  exact (contextStep_stepped hok).there

end

end Context

/-! ## The connections of a context, by their sessions -/

namespace Sessions

def State.there (s : State) : List Bool := s.ssls.map Option.isSome

def Event.connection : Event → Option ConnectionEvent
  | .newSSL => some .created
  | .freeSSL i => some (.freed i)
  | _ => none

section
variable {b : Build} {s s' : State} {ssl i : Nat} {old : SslSessions}

theorem drop_ssls (hok : s.drop i = .ok s') : s'.ssls = s.ssls := by
  unfold State.drop at hok
  split at hok
  · cases hok
  · cases hok
    rfl

theorem replaceSession_there {keeps : Bool} {session : Option Nat}
    (hssl : s.ssls[ssl]? = some (some old))
    (hok : s.replaceSession keeps ssl old session = .ok s') : s'.there = s.there := by
  unfold State.replaceSession at hok
  split at hok
  · cases hok
    exact there_set hssl _
  split at hok
  · cases hok
  · cases hok
    exact there_set hssl _

theorem refer_there (hok : s.refer ssl = .ok s') : s'.there = s.there := by
  unfold State.refer at hok
  split at hok
  · cases hok
    rfl
  · rename_i hssl
    split at hok
    · cases hok
    · cases hok
      exact there_set hssl _
  · cases hok

theorem letGo_there (hok : s.letGo ssl i = .ok s') : s'.there = s.there := by
  unfold State.letGo at hok
  split at hok
  · rename_i hssl
    split at hok
    · cases hok
      rfl
    split at hok
    · cases hok
    · cases hok
      exact there_set hssl _
  · cases hok

theorem establish_there {n : NewSession} (hok : s.establish ssl n = .ok s') :
    s'.there = s.there := by
  unfold State.establish at hok
  split at hok
  · rename_i old hssl
    split at hok
    · cases hok
    rename_i s₁ hinstall
    have hinstalled : s₁.there = s.there := by
      unfold State.install at hinstall
      split at hinstall
      · cases hinstall
        rfl
      split at hinstall
      · cases hinstall
      · rename_i heap hup
        exact replaceSession_there (s := { s with heap }) hssl hinstall
    split at hok
    · rw [State.there, (store_inv hok).2]
      exact hinstalled
    · cases hok
      exact hinstalled
  · cases hok

theorem established_there {n : NewSession} {cb : NewCallback}
    (hok : established b ssl n cb s = .ok s') : s'.there = s.there := by
  unfold established at hok
  split at hok
  · cases hok
  rename_i s₁ hestablish
  have hthere := establish_there hestablish
  split at hok
  · rw [State.there, drop_ssls hok]
    exact hthere
  split at hok
  · cases hok
  · rename_i s₂ hcb
    cases hok
    rw [State.there, (tcnNewSessionCb_inv hcb []).2.ssls]
    exact hthere
  · rename_i s₂ hcb
    rw [State.there, drop_ssls hok, (tcnNewSessionCb_inv hcb []).2.ssls]
    exact hthere

theorem resume_there {res : Resumption} (hssl : s.ssls[ssl]? = some (some old))
    (hok : s.resume ssl old res i = .ok s') : s'.there = s.there := by
  unfold State.resume at hok
  split at hok
  · exact replaceSession_there hssl hok
  · rw [State.there, drop_ssls hok]
    rfl

theorem lookup_there {hit : Option Nat} {cb : GetCallback} {res : Resumption}
    (hok : lookup b ssl hit cb res s = .ok s') : s'.there = s.there := by
  unfold lookup at hok
  split at hok
  · rename_i old hssl
    split at hok
    · split at hok
      · cases hok
      · rename_i heap hup
        exact resume_there (s := { s with heap }) hssl hok
    split at hok
    · cases hok
    · rename_i s₁ hcb
      cases hok
      rw [State.there, (tcnGetSessionCb_inv hcb []).2.ssls]
      rfl
    · rename_i i s₁ hcb
      have hsame := (tcnGetSessionCb_inv hcb []).2.ssls
      split at hok
      · cases hok
      split at hok
      · cases hok
      rename_i s₂ hstore
      have hssls : s₂.ssls = s.ssls := (store_inv hstore).2.trans hsame
      rw [resume_there (hssls ▸ hssl) hok, State.there, hssls]
      rfl
  · cases hok

theorem setSession_there {session : Option Nat} {succeeds keeps : Bool} {r : JavaReply}
    (hok : setSession ssl session succeeds keeps s = .ok (r, s')) : s'.there = s.there := by
  unfold setSession at hok
  split at hok
  · rename_i old hssl
    split at hok
    · cases hok
      rfl
    split at hok
    · split at hok
      · cases hok
      · cases hok
        rfl
    split at hok
    · cases hok
    split at hok
    · cases hok
    · rename_i heap hup _ s₁ hreplace
      cases hok
      exact replaceSession_there (s := { s with heap }) hssl hreplace
  · cases hok

theorem sessionStep_there {event : Event} {r : JavaReply}
    (hok : sessionStep b s event = .ok (r, s')) :
    s'.there = event.connection.toList.foldl ConnectionEvent.apply s.there := by
  cases event with
  | setSSLSessionCache _ | setSessionCacheMode _ =>
    cases hok
    rfl
  | setSessionCacheSize size =>
    cases hok
    unfold setSessionCacheSize
    split <;> rfl
  | newSSL =>
    cases hok
    simp [State.there, State.newSsl, Event.connection, ConnectionEvent.apply]
  | freeSSL ssl =>
    obtain ⟨-, -, hssls, -⟩ := freeSsl_inv (internal_ok hok)
    simp [State.there, hssls, Event.connection, ConnectionEvent.apply]
  | established ssl n cb => exact established_there (internal_ok hok)
  | lookup ssl hit cb res => exact lookup_there (internal_ok hok)
  | refer ssl => exact refer_there (internal_ok hok)
  | letGo ssl i => exact letGo_there (internal_ok hok)
  | removeSession i =>
    have hok := internal_ok hok
    unfold State.removeSession at hok
    split at hok
    · cases hok
      rfl
    split at hok
    · cases hok
    · cases hok
      rfl
  | setSession ssl session succeeds keeps => exact setSession_there hok
  | getSession ssl =>
    simp only [sessionStep, getSession] at hok
    split at hok
    · cases hok
      rfl
    · cases hok
  | java call => exact congrArg (List.map Option.isSome) (javaStep_inv hok).2.ssls

theorem sessionRun_there {es : List Event} {t : List (Machine.Entry State Event JavaReply)}
    (hrun : Machine.run (sessionStep b) s es = .ok (t, s')) :
    s'.there = (es.filterMap Event.connection).foldl ConnectionEvent.apply s.there := by
  refine Machine.run_folds State.there ?_ hrun
  intro s e r s' hok
  exact sessionStep_there hok

end

end Sessions

/-! ## The connections of a context, by their memory -/

namespace Lifetime
open CMem Jni Tls

def State.there (s : State) (i : Nat) : Bool := decide (0 < s.ssls.count i)

/-- The connection that a call has created from a context. -/
def createdFrom (c : Nat) : Event → Reply → Option Nat
  | .newSSL (some ctx) _ _, .ok (some i) => if ctx = c then some i else none
  | _, _ => none

/-- The connections that a run has created from a context, in order. -/
def connectionsOf (c : Nat) (t : List (Machine.Entry State Event Reply)) : List Nat :=
  t.filterMap fun x => createdFrom c x.event x.ret

/-- What a call does to the connections of a context, which are given by their pointers. -/
def connectionEvent (c : Nat) (before : List Nat) (event : Event) (reply : Reply) :
    Option ConnectionEvent :=
  match createdFrom c event reply with
  | some _ => some .created
  | none => (event.freesSsl.bind before.idxOf?).map .freed

/-- What a run does to the connections of a context, some of which were there before. -/
def connectionEvents (c : Nat) (before : List Nat) :
    List (Machine.Entry State Event Reply) → List ConnectionEvent
  | [] => []
  | x :: t =>
    (connectionEvent c before x.event x.ret).toList ++
      connectionEvents c (before ++ (createdFrom c x.event x.ret).toList) t

section
variable {b : Build} {s s' : State}

/-- The connection at a position goes, and the others stay. -/
theorem map_set_false {before : List Nat} (hnodup : before.Nodup) {i p : Nat}
    (hp : before.idxOf? i = some p) {there there' : Nat → Bool}
    (hthere : ∀ j, there' j = (there j && decide (i ≠ j))) :
    before.map there' = (before.map there).set p false := by
  obtain ⟨hlt, rfl, -⟩ := List.idxOf?_eq_some_iff.mp hp
  apply List.ext_getElem (by simp)
  intro k hk _
  rw [List.length_map] at hk
  have hpk : before[p] = before[k] ↔ p = k := hnodup.getElem_inj_iff
  simp only [List.getElem_map, List.getElem_set, hthere, ne_eq, hpk]
  by_cases h : p = k <;> simp [h]

/-- Only `SSL.newSSL` returns a connection. -/
theorem createdFrom_eq_none {event : Event} {reply : Reply} (hold : event.isNew reply = false)
    (c : Nat) : createdFrom c event reply = none := by
  cases event with
  | newSSL ctx server calls =>
    rcases ctx with - | ctx
    · rfl
    rcases reply with t | _ | i
    · rfl
    · rfl
    · cases hold
  | _ => rfl

theorem Changes.there {event : Event} {reply : Reply} (h : Changes s s' event reply) {c : Nat}
    {before : List Nat} (hnodup : before.Nodup) (hlt : ∀ i ∈ before, i < s.ssls.length) :
    (before ++ (createdFrom c event reply).toList).map s'.there =
      (connectionEvent c before event reply).toList.foldl ConnectionEvent.apply
        (before.map s.there) := by
  have hsame : (∀ i ∈ before, 0 < s'.ssls.count i ↔ 0 < s.ssls.count i) →
      before.map s'.there = before.map s.there := fun hlives =>
    List.map_congr_left fun i hi => decide_eq_decide.mpr (hlives i hi)
  cases h with
  | made v hlength hown hmode hctxts hssls hstates =>
    simpa [createdFrom, connectionEvent, Event.freesSsl] using
      hsame fun i _ => by rw [hssls]
  | @created ctx server v hctxt hlength hctxts hssls hstates =>
    have hold : before.map s'.there = before.map s.there := hsame fun i hi => by
      rw [hssls, Arena.count_alloc, if_neg (Nat.ne_of_lt (hlt i hi)), Nat.add_zero]
    by_cases hctx : ctx = c
    · have hnew : s'.there s.ssls.length = true := by
        rw [State.there, hssls, (Arena.live_alloc s.ssls _).count_eq]
        rfl
      simp [createdFrom, connectionEvent, hctx, ConnectionEvent.apply, hold, hnew]
    · simp [createdFrom, connectionEvent, hctx, Event.freesSsl, hold]
  | shrunk hs hnew =>
    rw [connectionEvent, createdFrom_eq_none hnew, Option.toList_none, List.append_nil]
    cases hfreed : event.freesSsl with
    | none => exact hsame fun j _ => by simp [hs.lives, hfreed]
    | some i =>
      cases hp : before.idxOf? i with
      | none =>
        -- The connection is one of another context.
        have hi : i ∉ before := List.idxOf?_eq_none_iff.mp hp
        simp only [Option.bind_some, hp, Option.map_none, Option.toList_none, List.foldl_nil]
        refine hsame fun j hj => ?_
        have hne : i ≠ j := fun heq => hi (heq ▸ hj)
        simp [hs.lives, hfreed, hne]
      | some p =>
        simp only [Option.bind_some, hp, Option.map_some, Option.toList_some, List.foldl_cons,
          List.foldl_nil, ConnectionEvent.apply]
        refine map_set_false hnodup hp fun j => ?_
        rw [State.there, State.there, ← Bool.decide_and, decide_eq_decide, hs.lives, hfreed]
        simp

/-- A new connection is behind those that were there. -/
theorem Changes.createdFrom_le {event : Event} {reply : Reply} (h : Changes s s' event reply)
    {c i : Nat} (hi : createdFrom c event reply = some i) :
    s.ssls.length ≤ i ∧ i < s'.ssls.length := by
  cases h with
  | made v hlength hown hmode hctxts hssls hstates => cases hi
  | created v hctxt hlength hctxts hssls hstates =>
    simp only [createdFrom] at hi
    split at hi
    · cases hi
      simp [hssls, Arena.alloc]
    · cases hi
  | shrunk hs hold => cases (createdFrom_eq_none hold c).symm.trans hi

theorem lifetimeRun_there {c : Nat} {es : List Event} {t : List (Machine.Entry State Event Reply)}
    (hrun : Machine.run (lifetimeStep b) s es = .ok (t, s')) {before : List Nat}
    (hnodup : before.Nodup) (hlt : ∀ i ∈ before, i < s.ssls.length) :
    (before ++ connectionsOf c t).map s'.there =
      (connectionEvents c before t).foldl ConnectionEvent.apply (before.map s.there) := by
  induction es generalizing s t before with
  | nil =>
    cases hrun
    simp [connectionsOf, connectionEvents]
  | cons e es ih =>
    obtain ⟨r, s₁, t', hok, hrun', rfl⟩ := Machine.run_cons_inv hrun
    have hchanges := lifetimeStep_changes hok
    have hnodup' : (before ++ (createdFrom c e r).toList).Nodup := by
      refine List.nodup_append.mpr ⟨hnodup, by cases createdFrom c e r <;> simp, ?_⟩
      rintro i hi j hj rfl
      have hle := (hchanges.createdFrom_le (Option.mem_toList.mp hj)).1
      exact absurd (hlt i hi) (Nat.not_lt_of_le hle)
    have hlt' : ∀ i ∈ before ++ (createdFrom c e r).toList, i < s₁.ssls.length := by
      intro i hi
      rcases List.mem_append.mp hi with hold | hnew
      · exact Nat.lt_of_lt_of_le (hlt i hold) hchanges.le.2
      · exact (hchanges.createdFrom_le (Option.mem_toList.mp hnew)).2
    have hof : connectionsOf c (⟨s, e, r, s₁⟩ :: t') =
        (createdFrom c e r).toList ++ connectionsOf c t' := by
      cases h : createdFrom c e r <;> simp [connectionsOf, h]
    rw [hof, ← List.append_assoc, ih hrun' hnodup' hlt', connectionEvents, List.foldl_append,
      hchanges.there hnodup hlt]

end

/-! ## The same connections -/

section
variable {b : Build} {c : Nat} {es : List Event} {t : List (Machine.Entry State Event Reply)}
  {s : State}

/-- Where the calls that create and free the connections of a context are the same, the
connections that its settings know are those that have memory. -/
theorem settings_agree (hrun : Machine.run (lifetimeStep b) .start es = .ok (t, s))
    {b' : Context.Build} {es' : List Context.Event}
    {t' : List (Machine.Entry Context.Session Context.Event Context.Reply)} {x : Context.Session}
    (hrun' : Machine.run (Context.contextStep b') .start es' = .ok (t', x))
    (hsame : es'.filterMap Context.Event.connection = connectionEvents c [] t) :
    x.there = (connectionsOf c t).map s.there := by
  have hmemory := lifetimeRun_there (c := c) hrun List.nodup_nil (by simp)
  rw [List.nil_append] at hmemory
  rw [hmemory, Context.contextRun_there hrun', hsame]
  rfl

/-- So are those that can have sessions. -/
theorem sessions_agree (hrun : Machine.run (lifetimeStep b) .start es = .ok (t, s))
    {b' : Sessions.Build} {es' : List Sessions.Event}
    {t' : List (Machine.Entry Sessions.State Sessions.Event Sessions.JavaReply)}
    {x : Sessions.State} (hrun' : Machine.run (Sessions.sessionStep b') .start es' = .ok (t', x))
    (hsame : es'.filterMap Sessions.Event.connection = connectionEvents c [] t) :
    x.there = (connectionsOf c t).map s.there := by
  have hmemory := lifetimeRun_there (c := c) hrun List.nodup_nil (by simp)
  rw [List.nil_append] at hmemory
  rw [hmemory, Sessions.sessionRun_there hrun', hsame]
  rfl

end

/-- What `SSL.newSSL` returns to Java, as a call on the settings of a context. -/
def outcomeOf : Reply → Context.Outcome
  | .ok _ => .done
  | .error t => .failed (some t)

/-- There is a new connection in the same cases, and in the others the same exception. -/
theorem newSSL_agree {c : Nat} {server : Bool} {calls : NewSslCalls} {s s' : State} {reply : Reply}
    (hok : newSSL (some c) server calls s = .ok (reply, s')) (x : Context.Session)
    (ctx : Peer.TcnSslCtxt) :
    (Context.newSSL calls.sslNew calls.malloc x).1 = .outcome (outcomeOf reply) ∧
      Peer.newSSL calls.sslNew calls.malloc (some ctx) server = reply.map fun _ => ⟨ctx, server⟩ := by
  obtain ⟨sslNew, malloc⟩ := calls
  simp only [newSSL] at hok
  split at hok
  · cases hok
  cases sslNew with
  | false =>
    cases hok
    exact ⟨rfl, rfl⟩
  | true =>
    simp only [Bool.not_true, Bool.false_eq_true, if_false] at hok
    split at hok
    · cases hok
    cases malloc with
    | false =>
      simp only [Bool.not_false, if_true] at hok
      split at hok
      · cases hok
      · cases hok
        exact ⟨rfl, rfl⟩
    | true =>
      cases hok
      exact ⟨rfl, rfl⟩

/-! ## What a connection finds in its context -/

/-- What `SSL.getPeerCertChain` reads with BoringSSL and AWS-LC: the context of the
connection and its role. -/
def peerSsl (ssl : Nat) (s : State) : Except Fault Peer.Ssl :=
  match tcnGetSslCtx ssl s with
  | .error fault => .error fault
  | .ok none => .error .nullPointer
  | .ok (some c) =>
    match s.ctxts.get c with
    | .error fault => .error fault
    | .ok ctx =>
      match s.ssls.get ssl with
      | .error fault => .error fault
      | .ok v => .ok ⟨⟨ctx.mode⟩, v.acceptState⟩

/-- Where there is something to read, `SSL.getPeerCertChain` does not fault. -/
theorem getPeerCertChain_boringSSL {b : Build} (hb : b.library.isBoringSSL = true) (ssl : Nat)
    (s : State) : getPeerCertChain b ssl s = (peerSsl ssl s).map fun _ => () := by
  unfold getPeerCertChain peerSsl
  rw [if_pos hb]
  cases hctx : tcnGetSslCtx ssl s with
  | error fault => rfl
  | ok ctx =>
    obtain ⟨v, hlive⟩ := Arena.live_of_count_pos (tcnGetSslCtx_inv hctx).1
    cases ctx with
    | none => rfl
    | some c =>
      cases hget : s.ctxts.get c with
      | error fault => simp only [hget, Except.map]
      | ok ctx => simp only [hget, hlive.get_eq, Except.map]

/-- Every context and every connection comes from a call, and has what was passed to it. -/
structure Traced (t : List (Machine.Entry State Event Reply)) (s : State) : Prop where
  ctxt : ∀ c v, s.ctxts.Live c v →
    ∃ x ∈ t, ∃ protocol calls, x.event = .make protocol v.mode calls ∧ x.ret = .ok (some c)
  ssl : ∀ i v, s.ssls.Live i v → ∃ c, s.contextOf i = some c ∧
    ∃ x ∈ t, x.event = .newSSL (some c) v.acceptState ⟨true, true⟩ ∧ x.ret = .ok (some i)

section
variable {b : Build} {t : List (Machine.Entry State Event Reply)} {s s' : State} {c i : Nat}

/-- A connection keeps its context, as its state is not written behind `SSL.newSSL`. -/
theorem contextOf_kept (hstates : s.states.Extends s'.states) {v v' : Ssl}
    (hlive : s.ssls.Live i v) (hlive' : s'.ssls.Live i v') (hstate : v'.state = v.state)
    (hc : s.contextOf i = some c) : s'.contextOf i = some c := by
  rw [contextOf_eq hlive] at hc
  obtain ⟨j, hj, hctx⟩ := Option.bind_eq_some_iff.mp hc
  obtain ⟨cell, hcell, rfl⟩ := Option.map_eq_some_iff.mp hctx
  have hvalue : (s.states.map (·.value))[j]? = some cell.value := by
    rw [List.getElem?_map, hcell]
    rfl
  have hvalue' : (s'.states.map (·.value))[j]? = some cell.value := by
    obtain ⟨added, hadded⟩ := hstates
    rw [← hadded, List.getElem?_append_left (List.getElem?_eq_some_iff.mp hvalue).1, hvalue]
  rw [List.getElem?_map] at hvalue'
  obtain ⟨cell', hcell', heq⟩ := Option.map_eq_some_iff.mp hvalue'
  rw [contextOf_eq hlive', hstate, hj, Option.bind_some, hcell', Option.map_some, heq]

theorem Traced.step (h : Traced t s) {event : Event} {reply : Reply}
    (hc : Changes s s' event reply) : Traced (t ++ [⟨s, event, reply, s'⟩]) s' := by
  have hold : ∀ {P : Machine.Entry State Event Reply → Prop}, (∃ x ∈ t, P x) →
      ∃ x ∈ t ++ [⟨s, event, reply, s'⟩], P x := by
    rintro P ⟨x, hx, hp⟩
    exact ⟨x, List.mem_append_left _ hx, hp⟩
  cases hc with
  | @made protocol mode calls v hlength hown hmode hctxts hssls hstates =>
    refine ⟨fun c w hw => ?_, fun i w hw => ?_⟩
    · rcases Arena.live_iff_alloc.mp (hctxts ▸ hw) with hw | ⟨rfl, rfl⟩
      · exact hold (h.ctxt c w hw)
      · exact ⟨_, List.mem_append_right _ List.mem_cons_self, protocol, calls, by rw [hmode], rfl⟩
    · obtain ⟨c, hctx, hx⟩ := h.ssl i w (hssls ▸ hw)
      exact ⟨c, contextOf_kept (hstates ▸ .refl _) (hssls ▸ hw) hw rfl hctx, hold hx⟩
  | @created c server v hctxt hlength hctxts hssls hstates =>
    refine ⟨fun c w hw => hold (h.ctxt c w (hctxts ▸ hw)), fun i w hw => ?_⟩
    rcases Arena.live_iff_alloc.mp (hssls ▸ hw) with hw' | ⟨rfl, rfl⟩
    · obtain ⟨c, hctx, hx⟩ := h.ssl i w hw'
      exact ⟨c, contextOf_kept (hstates ▸ Arena.extends_alloc _ _) hw' hw rfl hctx, hold hx⟩
    · refine ⟨c, ?_, _, List.mem_append_right _ List.mem_cons_self, rfl, rfl⟩
      rw [contextOf_eq hw, hstates]
      simp [Arena.alloc]
  | shrunk hs hnew =>
    refine ⟨fun c v hv => hold (h.ctxt c v (hs.ctxt c v hv)), fun i v hv => ?_⟩
    obtain ⟨bio, hbio⟩ := hs.ssl i v hv
    obtain ⟨c, hctx, hx⟩ := h.ssl i _ hbio
    exact ⟨c, contextOf_kept hs.states hbio hv rfl hctx, hold hx⟩

theorem lifetimeRun_traced {es : List Event}
    (hrun : Machine.run (lifetimeStep b) .start es = .ok (t, s)) : Traced t s := by
  refine Machine.run_traced (I := Traced) (R := fun _ => True)
    (fun t s e r s' h _ hok => h.step (lifetimeStep_changes hok)) ⟨?_, ?_⟩ (fun _ _ => trivial) hrun
  · intro c v hlive
    cases hlive
  · intro i v hlive
    cases hlive

/-- No connection that is not freed has lost the pointer to its context, or its state. -/
theorem tcnGetSslCtx_ne_null {es : List Event}
    (hrun : Machine.run (lifetimeStep b) .start es = .ok (t, s)) (ssl : Nat) :
    tcnGetSslCtx ssl s ≠ .ok none := by
  intro hctx
  obtain ⟨hpos, hnone⟩ := tcnGetSslCtx_inv hctx
  obtain ⟨v, hlive⟩ := Arena.live_of_count_pos hpos
  obtain ⟨c, hsome, -⟩ := (lifetimeRun_traced hrun).ssl ssl v hlive
  cases hnone.symm.trans hsome

/-- What a connection finds is what `SSL.newSSL` has made of it, with the mode that was passed
to `SSLContext.make` and the role that was passed to `SSL.newSSL`. -/
theorem peerSsl_traced {es : List Event} {ssl : Nat} {p : Peer.Ssl}
    (hrun : Machine.run (lifetimeStep b) .start es = .ok (t, s)) (hok : peerSsl ssl s = .ok p) :
    ∃ c protocol mode makeCalls server calls,
      (∃ x ∈ t, x.event = .make protocol mode makeCalls ∧ x.ret = .ok (some c)) ∧
      (∃ x ∈ t, x.event = .newSSL (some c) server calls ∧ x.ret = .ok (some ssl)) ∧
      Peer.newSSL calls.sslNew calls.malloc (some ⟨mode⟩) server = .ok p := by
  unfold peerSsl at hok
  split at hok
  · cases hok
  · cases hok
  rename_i c hctx
  split at hok
  · cases hok
  rename_i ctx hgetCtxt
  split at hok
  · cases hok
  rename_i v hgetSsl
  cases hok
  have htraced := lifetimeRun_traced hrun
  obtain ⟨x, hx, protocol, makeCalls, hmake, hmade⟩ := htraced.ctxt c ctx (Arena.get_inv hgetCtxt)
  obtain ⟨c', hctx', y, hy, hnew, hcreated⟩ := htraced.ssl ssl v (Arena.get_inv hgetSsl)
  obtain rfl : c' = c := Option.some.inj (hctx'.symm.trans (tcnGetSslCtx_inv hctx).2)
  exact ⟨c', protocol, ctx.mode, makeCalls, v.acceptState, ⟨true, true⟩, ⟨x, hx, hmake, hmade⟩,
    ⟨y, hy, hnew, hcreated⟩, rfl⟩

end

end Lifetime

/-! ## What the callbacks find in a context -/

namespace Context

/-- The part of a context that the detailed callbacks read. -/
def TcnSslCtxt.forCallbacks (c : TcnSslCtxt) (mode : Int) : Tasks.TcnSslCtxt where
  mode
  useTasks := c.useTasks
  verifier := (c.slots .verifier).object
  certificateCallback := (c.slots .certificateCallback).object
  sslPrivateKeyMethod := (c.slots .sslPrivateKeyMethod).object

/-- A new connection is the same to both. -/
theorem sees_new (c : TcnSslCtxt) (mode : Int) :
    Sees (.new (c.forCallbacks mode) c.verifyConfig.verifyDepth) c (.new c) where
  useTasks := rfl
  verifier := Iff.rfl
  certificateCallback := Iff.rfl
  verifyDepth := rfl
  stored := rfl
  sslTask := rfl

end Context
