-- SUMMARY: What the verify mode and depth of a context and of its connections are after any sequence of calls.
import Tcnative.Context.Connections

/-!
# Verify settings over whole runs

A level and a depth are recorded in a context and in each of its connections,
and installed in the library's objects for them. With OpenSSL and LibreSSL both
follow the calls. With BoringSSL and AWS-LC they can drift apart.
-/

namespace Context
open CMem Jni Tls

/-! ## Levels and modes -/

/-- The mode for a level. -/
def modeOf (level : Int) : VerifyMode :=
  if level = sslCverifyNone then .none
  else if level = sslCverifyOptional then .peer
  else .peerFailIfNoPeerCert

theorem modeOf_eq_none {level : Int} : modeOf level = .none ↔ level = sslCverifyNone := by
  unfold modeOf
  split
  · simp_all
  split
  · simp_all
  · simp_all

section
variable (c : VerifyConfig) (level depth : Int)

/-- The returned mode is always that of the level that is recorded. -/
theorem tcnSetVerifyConfig_mode :
    (tcnSetVerifyConfig c level depth).1 =
      modeOf (tcnSetVerifyConfig c level depth).2.verifyMode := by
  simp only [tcnSetVerifyConfig]
  -- The depth is set first, and the level is looked at behind that.
  generalize (if 0 ≤ depth then { c with verifyDepth := depth } else c) = c'
  unfold modeOf
  split
  · split
    · rfl
    split
    · rfl
    · rfl
  split
  · rfl
  split
  · rfl
  · rfl

theorem tcnSetVerifyConfig_level :
    modeOf (tcnSetVerifyConfig c level depth).2.verifyMode =
      if level = sslCverifyIgnored then modeOf c.verifyMode else modeOf level := by
  have hkept : (if 0 ≤ depth then { c with verifyDepth := depth } else c).verifyMode =
      c.verifyMode := by
    split <;> rfl
  simp only [tcnSetVerifyConfig]
  generalize (if 0 ≤ depth then { c with verifyDepth := depth } else c) = c' at hkept
  split
  · repeat' split
    all_goals rw [hkept]
  split
  · rename_i hnone
    rw [hnone]
  split
  · rename_i hoptional
    rw [hoptional]
  · rename_i hnone hoptional
    rw [show modeOf level = .peerFailIfNoPeerCert by rw [modeOf, if_neg hnone, if_neg hoptional]]
    rfl

theorem tcnSetVerifyConfig_depth :
    (tcnSetVerifyConfig c level depth).2.verifyDepth =
      if 0 ≤ depth then depth else c.verifyDepth := by
  have hset : (if 0 ≤ depth then { c with verifyDepth := depth } else c).verifyDepth =
      if 0 ≤ depth then depth else c.verifyDepth := by
    split <;> rfl
  simp only [tcnSetVerifyConfig]
  generalize (if 0 ≤ depth then { c with verifyDepth := depth } else c) = c' at hset
  repeat' split
  all_goals simp_all

end

/-! ## Settings of an object -/

/-- What is recorded for an object, and what is installed on it. -/
structure Settings where
  config : VerifyConfig
  mode : VerifyMode
  depth : Option Int

def TcnSslCtxt.settings (c : TcnSslCtxt) : Settings :=
  ⟨c.verifyConfig, c.ctx.verifyMode, c.ctx.verifyDepth⟩

def Ssl.settings (s : Ssl) : Settings := ⟨s.verifyConfig, s.verifyMode, s.verifyDepth⟩

/-- `setVerify` with OpenSSL and LibreSSL. -/
def Settings.set (level depth : Int) (s : Settings) : Settings :=
  let set := tcnSetVerifyConfig s.config level depth
  ⟨set.2, set.1, some set.2.verifyDepth⟩

/-! ## What a step does to the settings -/

theorem Session.setSsl_inv {s : Session} {i j : Nat} {ssl : Ssl} {x : Option Ssl}
    (h : (s.setSsl j x).ssl? i = some ssl) :
    (i = j ∧ x = some ssl) ∨ (i ≠ j ∧ s.ssl? i = some ssl) := by
  simp only [Session.ssl?, Session.setSsl, List.getElem?_set] at h
  rcases eq_or_ne j i with rfl | hne
  · left
    split at h
    · split at h
      · exact ⟨rfl, h⟩
      · cases h
    · contradiction
  · right
    rw [if_neg hne] at h
    exact ⟨hne.symm, h⟩

/-- Where an `SSL` comes from: it was just created, or it was there before. Only
`SSL.setVerify` on it changes its settings. -/
theorem Stepped.ssl {b : Build} {s s' : Session} {event : Event} {r : Reply}
    (h : Stepped b s event r s') {i : Nat} {ssl' : Ssl} (hi : s'.ssl? i = some ssl') :
    (i = s.ssls.length ∧ event = .newSSL true true ∧ ssl' = .new s.ctxt) ∨
    ∃ ssl, s.ssl? i = some ssl ∧
      ((∃ level depth, event = .sslSetVerify i level depth ∧
          ssl' = ssl.setVerify b level depth) ∨
        ((∀ level depth, event ≠ .sslSetVerify i level depth) ∧
          ssl'.settings = ssl.settings)) := by
  cases h with
  | call _ => exact .inr ⟨ssl', hi, .inr ⟨nofun, rfl⟩⟩
  | setVerify => exact .inr ⟨ssl', hi, .inr ⟨nofun, rfl⟩⟩
  | setUseTasks => exact .inr ⟨ssl', hi, .inr ⟨nofun, rfl⟩⟩
  | notCreated _ => exact .inr ⟨ssl', hi, .inr ⟨nofun, rfl⟩⟩
  | newSSL =>
    have hget : (s.ssls ++ [some (Ssl.new s.ctxt)])[i]? = some (some ssl') :=
      Option.join_eq_some_iff.mp hi
    rcases getElem?_snoc hget with hold | ⟨hlen, hnew⟩
    · exact .inr ⟨ssl', Option.join_eq_some_iff.mpr hold, .inr ⟨nofun, rfl⟩⟩
    · cases hnew
      exact .inl ⟨hlen, rfl, rfl⟩
  | sslSetVerify hj =>
    rename_i j level depth ssl
    rcases Session.setSsl_inv hi with ⟨rfl, hssl⟩ | ⟨hne, hold⟩
    · cases hssl
      exact .inr ⟨ssl, hj, .inl ⟨level, depth, rfl, rfl⟩⟩
    · refine .inr ⟨ssl', hold, .inr ⟨?_, rfl⟩⟩
      rintro _ _ heq
      cases heq
      exact hne rfl
  | noSsl hj =>
    refine .inr ⟨ssl', hi, .inr ⟨?_, rfl⟩⟩
    rintro _ _ heq
    cases heq
    cases hj.symm.trans hi
  | freeSSL =>
    rcases Session.setSsl_inv hi with ⟨-, hssl⟩ | ⟨-, hold⟩
    · cases hssl
    · exact .inr ⟨ssl', hold, .inr ⟨nofun, rfl⟩⟩
  | ran hj _ =>
    rename_i j k e complete ssl _
    rcases Session.setSsl_inv hi with ⟨rfl, hssl⟩ | ⟨-, hold⟩
    · cases hssl
      obtain ⟨sslTask, hkept⟩ := (k.run_ran b e complete s.ctxt ssl).kept
      exact .inr ⟨ssl, hj, .inr ⟨nofun, by rw [hkept]; rfl⟩⟩
    · exact .inr ⟨ssl', hold, .inr ⟨nofun, rfl⟩⟩
  | notInstalled _ => exact .inr ⟨ssl', hi, .inr ⟨nofun, rfl⟩⟩

/-- Whether an event creates an `SSL`. -/
def Event.creates : Event → Bool
  | .newSSL sslNew malloc => sslNew && malloc
  | _ => false

/-- How many `SSL`s the events create. -/
def created (es : List Event) : Nat := es.countP Event.creates

theorem Stepped.length {b : Build} {s s' : Session} {event : Event} {r : Reply}
    (h : Stepped b s event r s') : s'.ssls.length = s.ssls.length + created [event] := by
  cases h with
  | call _ => rfl
  | setVerify => rfl
  | setUseTasks => rfl
  | notCreated hfailed => simp [created, Event.creates, hfailed]
  | newSSL => simp [created, Event.creates]
  | sslSetVerify _ => exact List.length_set
  | noSsl _ => rfl
  | freeSSL => exact List.length_set
  | ran _ _ => exact List.length_set
  | notInstalled _ => rfl

/-! ## OpenSSL and LibreSSL -/

/-- The last value of a list that counts, or the one at the start. -/
def recent {α : Type} (counts : α → Bool) (start : α) (xs : List α) : α :=
  (xs.filter counts).getLast?.getD start

theorem recent_snoc {α : Type} (counts : α → Bool) (start : α) (xs : List α) (x : α) :
    recent counts start (xs ++ [x]) = if counts x then x else recent counts start xs := by
  unfold recent
  cases hx : counts x with
  | true => simp [hx]
  | false => simp [hx]

/-- The calls of `SSLContext.setVerify`, with their level and their depth. -/
def contextCalls (es : List Event) : List (Int × Int) :=
  es.filterMap fun
    | .setVerify level depth => some (level, depth)
    | _ => none

/-- The calls of `SSL.setVerify` on an `SSL`. -/
def sslCalls (i : Nat) (es : List Event) : List (Int × Int) :=
  es.filterMap fun
    | .sslSetVerify j level depth => if j = i then some (level, depth) else none
    | _ => none

/-- The most recent level that is not ignored, and the most recent depth that is
not negative. -/
def recentConfig (start : VerifyConfig) (calls : List (Int × Int)) : VerifyConfig where
  verifyDepth := recent (fun depth => 0 ≤ depth) start.verifyDepth (calls.map Prod.snd)
  verifyMode := recent (fun level => level ≠ sslCverifyIgnored) start.verifyMode
    (calls.map Prod.fst)

/-- The settings are the fold of the calls: the mode is that of the most recent
level, and the depth is the most recent one. `unset` is the installed depth of an
object without calls. -/
structure Follows (start : VerifyConfig) (unset : Option Int) (calls : List (Int × Int))
    (s : Settings) : Prop where
  mode : s.mode = modeOf (recentConfig start calls).verifyMode
  recorded : s.mode = modeOf s.config.verifyMode
  depth : s.config.verifyDepth = (recentConfig start calls).verifyDepth
  nonneg : 0 ≤ s.config.verifyDepth
  installed : s.depth = if calls = [] then unset else some s.config.verifyDepth

theorem Follows.set {start : VerifyConfig} {unset : Option Int} {calls : List (Int × Int)}
    {s : Settings} (h : Follows start unset calls s) (level depth : Int) :
    Follows start unset (calls ++ [(level, depth)]) (s.set level depth) where
  mode := by
    simp only [Settings.set, tcnSetVerifyConfig_mode, tcnSetVerifyConfig_level, recentConfig,
      List.map_append, List.map_cons, List.map_nil, recent_snoc]
    rcases eq_or_ne level sslCverifyIgnored with rfl | hne
    · rw [if_pos rfl, ← h.recorded, h.mode]
      simp [recentConfig]
    · rw [if_neg hne]
      simp [hne]
  recorded := tcnSetVerifyConfig_mode s.config level depth
  depth := by
    simp only [Settings.set, tcnSetVerifyConfig_depth, recentConfig, List.map_append,
      List.map_cons, List.map_nil, recent_snoc, h.depth, decide_eq_true_eq]
  nonneg := by
    simp only [Settings.set, tcnSetVerifyConfig_depth]
    split
    · assumption
    · exact h.nonneg
  installed := by simp [Settings.set]

/-- An object that starts where another one is. -/
theorem Follows.start {start : VerifyConfig} {unset : Option Int} {calls : List (Int × Int)}
    {s : Settings} (h : Follows start unset calls s) :
    Follows (recentConfig start calls) s.depth [] s where
  mode := h.mode
  recorded := h.recorded
  depth := h.depth
  nonneg := h.nonneg
  installed := rfl

/-- A setter does not touch the settings. -/
theorem Applied.settings {b : Build} (hlib : b.library.isBoringSSL = false) {c c' : TcnSslCtxt}
    {k : SlotName} {object : Option JObject} {out : Outcome} (h : Applied b c k object out c') :
    c'.settings = c.settings := by
  cases h with
  | failed cause refs => rfl
  | put slot refs hobject =>
    have hverifier : ¬ (k = .verifier ∧ b.library.isBoringSSL = true) := by simp [hlib]
    rw [TcnSslCtxt.put, TcnSslCtxt.install, if_neg hverifier]
    rfl

/-- Only `SSLContext.setVerify` changes the settings of the context. -/
theorem Stepped.settings {b : Build} (hlib : b.library.isBoringSSL = false) {s s' : Session}
    {event : Event} {r : Reply} (h : Stepped b s event r s') (hs : Owned b s.ctxt) :
    (∃ level depth, event = .setVerify level depth ∧
        s'.ctxt.settings = s.ctxt.settings.set level depth) ∨
      ((∀ level depth, event ≠ .setVerify level depth) ∧ s'.ctxt.settings = s.ctxt.settings) := by
  cases h with
  | call hcall => exact .inr ⟨nofun, (callStep_applied hs hcall).1.settings hlib⟩
  | setVerify =>
    refine .inl ⟨_, _, rfl, ?_⟩
    simp only [Context.setVerify, hlib]
    rfl
  | setUseTasks => exact .inr ⟨nofun, rfl⟩
  | notCreated _ => exact .inr ⟨nofun, rfl⟩
  | newSSL => exact .inr ⟨nofun, rfl⟩
  | sslSetVerify _ => exact .inr ⟨nofun, rfl⟩
  | noSsl _ => exact .inr ⟨nofun, rfl⟩
  | freeSSL => exact .inr ⟨nofun, rfl⟩
  | ran _ _ => exact .inr ⟨nofun, rfl⟩
  | notInstalled _ => exact .inr ⟨nofun, rfl⟩

/-- What a context starts with. -/
def initialConfig : VerifyConfig := ⟨100, sslCverifyNone⟩

/-- The depth that is installed on the context. -/
def contextDepth (calls : List (Int × Int)) : Option Int :=
  if calls = [] then none else some (recentConfig initialConfig calls).verifyDepth

/-- The settings of a context follow the calls on it, and those of an `SSL` start
where the context was when the `SSL` was created and follow the calls on it. -/
structure FollowsAll (es : List Event) (s : Session) : Prop where
  context : Follows initialConfig none (contextCalls es) s.ctxt.settings
  ssl : ∀ i ssl, s.ssl? i = some ssl → ∃ before after,
    es = before ++ .newSSL true true :: after ∧ created before = i ∧
      Follows (recentConfig initialConfig (contextCalls before))
        (contextDepth (contextCalls before)) (sslCalls i after) ssl.settings

theorem contextCalls_snoc (es : List Event) (event : Event) :
    contextCalls (es ++ [event]) = contextCalls es ++ contextCalls [event] :=
  List.filterMap_append

theorem sslCalls_snoc (i : Nat) (es : List Event) (event : Event) :
    sslCalls i (es ++ [event]) = sslCalls i es ++ sslCalls i [event] :=
  List.filterMap_append

theorem contextCalls_other {event : Event} (h : ∀ level depth, event ≠ .setVerify level depth) :
    contextCalls [event] = [] := by
  cases event with
  | setVerify level depth => exact absurd rfl (h level depth)
  | _ => rfl

theorem sslCalls_other {i : Nat} {event : Event}
    (h : ∀ level depth, event ≠ .sslSetVerify i level depth) : sslCalls i [event] = [] := by
  cases event with
  | sslSetVerify j level depth =>
    have hne : j ≠ i := by
      rintro rfl
      exact h level depth rfl
    simp [sslCalls, hne]
  | _ => rfl

/-- One step keeps the fold, with its event added to the calls. -/
theorem FollowsAll.step {b : Build} (hlib : b.library.isBoringSSL = false) {es : List Event}
    {s s' : Session} {event : Event} {r : Reply} (hs : Owned b s.ctxt)
    (hlen : s.ssls.length = created es) (h : FollowsAll es s)
    (hstep : Stepped b s event r s') : FollowsAll (es ++ [event]) s' where
  context := by
    rw [contextCalls_snoc]
    rcases hstep.settings hlib hs with ⟨level, depth, rfl, hset⟩ | ⟨hevent, hset⟩
    · rw [hset]
      exact h.context.set level depth
    · rw [hset, contextCalls_other hevent, List.append_nil]
      exact h.context
  ssl i ssl' hi := by
    rcases hstep.ssl hi with ⟨rfl, rfl, rfl⟩ | ⟨ssl, hold, hchanged⟩
    · -- A new SSL has the settings that the context has now.
      refine ⟨es, [], rfl, hlen.symm, ?_⟩
      have hstart := h.context.start
      rw [h.context.installed, h.context.depth] at hstart
      exact hstart
    · obtain ⟨before, after, rfl, hcreated, hfollows⟩ := h.ssl i ssl hold
      refine ⟨before, after ++ [event], by simp, hcreated, ?_⟩
      rw [sslCalls_snoc]
      rcases hchanged with ⟨level, depth, rfl, rfl⟩ | ⟨hevent, hsame⟩
      · have hcall : sslCalls i [.sslSetVerify i level depth] = [(level, depth)] := by
          simp [sslCalls]
        have hset : (ssl.setVerify b level depth).settings = ssl.settings.set level depth := by
          simp only [Ssl.setVerify, hlib]
          rfl
        rw [hcall, hset]
        exact hfollows.set level depth
      · rw [sslCalls_other hevent, List.append_nil, hsame]
        exact hfollows

/-- With OpenSSL and LibreSSL the verify settings are the fold of the calls, in
every run. -/
theorem contextRun_follows (b : Build) (hlib : b.library.isBoringSSL = false) (es : List Event) :
    Machine.Ends (contextStep b) (fun _ s => FollowsAll es s) .start es := by
  have hstart : FollowsAll [] .start :=
    ⟨⟨rfl, rfl, rfl, by decide, rfl⟩, fun i ssl hi => by simp [Session.ssl?, Session.start] at hi⟩
  have hstep : ∀ es s event,
      (Owned b s.ctxt ∧ s.ssls.length = created es ∧ FollowsAll es s) →
      ∃ r s', contextStep b s event = .ok (r, s') ∧
        Owned b s'.ctxt ∧ s'.ssls.length = created (es ++ [event]) ∧
        FollowsAll (es ++ [event]) s' := by
    rintro es s event ⟨hs, hlen, hfollows⟩
    obtain ⟨r, s', hok⟩ := contextStep_ok hs event
    have hstepped := contextStep_stepped hok
    refine ⟨r, s', hok, hstepped.owned hs, ?_, hfollows.step hlib hs hlen hstepped⟩
    rw [hstepped.length, hlen, created, created, created, List.countP_append]
  obtain ⟨t, s, hok, -, -, hfollows⟩ :=
    Machine.run_history hstep ⟨make_owned b, rfl, hstart⟩ es
  exact ⟨t, s, hok, hfollows⟩

/-- The context has the settings of its last call, and the `SSL` those of the call
before it was created, as its own is ignored. -/
theorem contextRun_follows_openssl :
    Machine.Ends (contextStep ⟨.openssl, true, false, ""⟩)
      (fun _ s =>
        FollowsAll
          [.setVerify sslCverifyRequired 3, .newSSL true true, .setVerify sslCverifyNone 1,
            .sslSetVerify 0 sslCverifyIgnored (-1)] s ∧
        s.ctxt.settings = ⟨⟨1, sslCverifyNone⟩, .none, some 1⟩ ∧
        (s.ssl? 0).map Ssl.settings =
          some ⟨⟨3, sslCverifyRequired⟩, .peerFailIfNoPeerCert, some 3⟩)
      .start
      [.setVerify sslCverifyRequired 3, .newSSL true true, .setVerify sslCverifyNone 1,
        .sslSetVerify 0 sslCverifyIgnored (-1)] := by
  obtain ⟨t, s, hrun, hfollows⟩ := contextRun_follows ⟨.openssl, true, false, ""⟩ rfl
    [.setVerify sslCverifyRequired 3, .newSSL true true, .setVerify sslCverifyNone 1,
      .sslSetVerify 0 sslCverifyIgnored (-1)]
  cases hrun
  exact ⟨_, _, rfl, hfollows, rfl, rfl⟩

/-! ## BoringSSL and AWS-LC -/

/-- The installed mode of an `SSL` is that of its own record. -/
def Ssl.Enforced (s : Ssl) : Prop := s.verifyMode = modeOf s.verifyConfig.verifyMode

instance (s : Ssl) : Decidable s.Enforced := inferInstanceAs (Decidable (_ = _))

/-- A call of `SSL.setVerify` that ignores the level leaves the mode. -/
def KeepsMode (x : Machine.Entry Session Event Reply) : Prop :=
  ∀ i depth ssl ssl', x.event = .sslSetVerify i sslCverifyIgnored depth →
    x.pre.ssl? i = some ssl → x.post.ssl? i = some ssl' → ssl'.verifyMode = ssl.verifyMode

/-- The levels are enforced after a run, and were kept where they had to be. -/
def Enforces (b : Build) (es : List Event) : Prop :=
  Machine.Ends (contextStep b)
    (fun t s => (∀ i ssl, s.ssl? i = some ssl → ssl.Enforced) ∧ ∀ x ∈ t, KeepsMode x) .start es

/-- A context with a verifier has the mode of its record installed, and one
without has none. -/
structure Recorded (b : Build) (s : Session) : Prop where
  owned : Owned b s.ctxt
  mode : s.ctxt.ctx.verifyMode =
    if (s.ctxt.slots .verifier).object.isSome then modeOf s.ctxt.verifyConfig.verifyMode else .none

theorem recorded_start (b : Build) : Recorded b .start := ⟨make_owned b, rfl⟩

theorem Applied.mode {b : Build} (hlib : b.library.isBoringSSL = true) {c c' : TcnSslCtxt}
    {k : SlotName} {object : Option JObject} {out : Outcome} (h : Applied b c k object out c')
    (hc : c.ctx.verifyMode = if (c.slots .verifier).object.isSome then
      modeOf c.verifyConfig.verifyMode else .none) :
    c'.ctx.verifyMode = if (c'.slots .verifier).object.isSome then
      modeOf c'.verifyConfig.verifyMode else .none := by
  cases h with
  | failed cause refs => exact hc
  | put slot refs hobject =>
    rw [put_slots]
    unfold TcnSslCtxt.put TcnSslCtxt.install
    split
    · rename_i hverifier
      rw [hverifier.1, Function.update_self]
      cases slot.object.isSome with
      | true => exact tcnSetVerifyConfig_mode _ _ _
      | false => rfl
    · rename_i hother
      have hne : SlotName.verifier ≠ k := fun heq => hother ⟨heq.symm, hlib⟩
      rw [Function.update_of_ne hne]
      exact hc

theorem Recorded.setVerify {b : Build} (hlib : b.library.isBoringSSL = true) {c : TcnSslCtxt}
    (h : c.ctx.verifyMode = if (c.slots .verifier).object.isSome then
      modeOf c.verifyConfig.verifyMode else .none) (level depth : Int) :
    (setVerify b level depth c).ctx.verifyMode =
      if ((setVerify b level depth c).slots .verifier).object.isSome then
        modeOf (setVerify b level depth c).verifyConfig.verifyMode
      else .none := by
  simp only [Context.setVerify, hlib, if_true]
  cases hverifier : (c.slots .verifier).object.isSome with
  | true =>
    simp only [hverifier, if_true]
    exact tcnSetVerifyConfig_mode _ _ _
  | false =>
    rw [hverifier] at h
    simp only [hverifier, Bool.false_eq_true, if_false]
    exact h

theorem Recorded.step {b : Build} (hlib : b.library.isBoringSSL = true) {s s' : Session}
    {event : Event} {r : Reply} (hs : Recorded b s) (h : Stepped b s event r s') :
    Recorded b s' where
  owned := h.owned hs.owned
  mode := by
    cases h with
    | call hcall => exact (callStep_applied hs.owned hcall).1.mode hlib hs.mode
    | setVerify => exact Recorded.setVerify hlib hs.mode _ _
    | setUseTasks => exact hs.mode
    | notCreated _ => exact hs.mode
    | newSSL => exact hs.mode
    | sslSetVerify _ => exact hs.mode
    | noSsl _ => exact hs.mode
    | freeSSL => exact hs.mode
    | ran _ _ => exact hs.mode
    | notInstalled _ => exact hs.mode

/-- The next `SSL` gets the mode of the recorded level: the context has a
verifier, or the level is `SSL_CVERIFY_NONE`. -/
def ModeIsRecorded (s : Session) (event : Event) : Prop :=
  event = .newSSL true true → (s.ctxt.slots .verifier).object.isSome ∨
    s.ctxt.verifyConfig.verifyMode = sslCverifyNone

instance (s : Session) : (event : Event) → Decidable (ModeIsRecorded s event)
  | .newSSL sslNew malloc =>
    decidable_of_iff (sslNew = true ∧ malloc = true → (s.ctxt.slots .verifier).object.isSome ∨
      s.ctxt.verifyConfig.verifyMode = sslCverifyNone) (by simp [ModeIsRecorded])
  | .call _ | .setVerify _ _ | .setUseTasks _ | .sslSetVerify _ _ _ | .freeSSL _
  | .callback _ _ _ _ => isTrue nofun

theorem Recorded.new_iff {b : Build} {s : Session} (h : Recorded b s) :
    (Ssl.new s.ctxt).Enforced ↔ (s.ctxt.slots .verifier).object.isSome ∨
      s.ctxt.verifyConfig.verifyMode = sslCverifyNone := by
  simp only [Ssl.Enforced, Ssl.new, h.mode]
  split
  · rename_i hverifier
    simp [hverifier]
  · rename_i hverifier
    simp only [hverifier, false_or, Bool.false_eq_true]
    rw [eq_comm, modeOf_eq_none]

theorem Ssl.setVerify_enforced (b : Build) (level depth : Int) (s : Ssl) :
    (s.setVerify b level depth).Enforced := by
  unfold Ssl.setVerify
  dsimp only
  split
  · exact tcnSetVerifyConfig_mode _ _ _
  · exact tcnSetVerifyConfig_mode _ _ _

/-- On an `SSL` whose level is enforced, ignoring the level keeps the mode. -/
theorem Ssl.Enforced.ignored {b : Build} {s : Ssl} (h : s.Enforced) (depth : Int) :
    (s.setVerify b sslCverifyIgnored depth).verifyMode = s.verifyMode := by
  have hmode := tcnSetVerifyConfig_mode s.verifyConfig sslCverifyIgnored depth
  rw [tcnSetVerifyConfig_level, if_pos rfl, ← h] at hmode
  unfold Ssl.setVerify
  dsimp only
  split
  · exact hmode
  · exact hmode

/-- The record of the context is installed, and that of every `SSL`. -/
structure Enforced (b : Build) (s : Session) : Prop extends Recorded b s where
  ssl : ∀ i ssl, s.ssl? i = some ssl → ssl.Enforced

theorem enforced_start (b : Build) : Enforced b .start where
  toRecorded := recorded_start b
  ssl i ssl hi := by simp [Session.ssl?, Session.start] at hi

/-- A step keeps all modes as recorded, provided that a new `SSL` gets the mode of
the recorded level. -/
theorem Enforced.step {b : Build} (hlib : b.library.isBoringSSL = true) {s s' : Session}
    {event : Event} {r : Reply} (hs : Enforced b s) (hmode : ModeIsRecorded s event)
    (h : Stepped b s event r s') : Enforced b s' where
  toRecorded := hs.toRecorded.step hlib h
  ssl i ssl' hi := by
    rcases h.ssl hi with ⟨-, hnew, rfl⟩ | ⟨ssl, hold, hchanged⟩
    · exact hs.new_iff.mpr (hmode hnew)
    rcases hchanged with ⟨level, depth, -, rfl⟩ | ⟨-, hsame⟩
    · exact ssl.setVerify_enforced b level depth
    · have hconfig : ssl'.verifyConfig = ssl.verifyConfig := congrArg Settings.config hsame
      have hinstalled : ssl'.verifyMode = ssl.verifyMode := congrArg Settings.mode hsame
      rw [Ssl.Enforced, hconfig, hinstalled]
      exact hs.ssl i ssl hold

theorem Enforced.keepsMode {b : Build} {s s' : Session} {event : Event} {r : Reply}
    (hs : Enforced b s) (h : Stepped b s event r s') : KeepsMode ⟨s, event, r, s'⟩ := by
  rintro i depth ssl ssl' rfl hpre hpost
  rcases h.ssl hpost with ⟨-, hnew, -⟩ | ⟨ssl₀, hold, hchanged⟩
  · cases hnew
  cases hpre.symm.trans hold
  rcases hchanged with ⟨level, depth', hevent, rfl⟩ | ⟨hother, -⟩
  · cases hevent
    exact (hs.ssl i ssl hold).ignored depth
  · exact absurd rfl (hother _ _)

theorem run_enforced {b : Build} (hlib : b.library.isBoringSSL = true) {es : List Event}
    (hes : Machine.Meets (contextStep b) ModeIsRecorded .start es) :
    ∃ t s, Machine.run (contextStep b) .start es = .ok (t, s) ∧ Enforced b s ∧
      ∀ x ∈ t, KeepsMode x := by
  refine Machine.run_of_meets ?_ (enforced_start b) hes
  intro s event hs hmode
  obtain ⟨r, s', hok⟩ := contextStep_ok hs.owned event
  have hstepped := contextStep_stepped hok
  exact ⟨r, s', hok, hs.step hlib hmode hstepped, hs.keepsMode hstepped⟩

/-- In every run every `SSL` has the mode of its own record, and ignored levels
leave it, exactly if each `SSL` is created while the context has a verifier or
while its recorded level is `SSL_CVERIFY_NONE`. -/
theorem contextRun_enforces_iff (b : Build) (hlib : b.library.isBoringSSL = true)
    (es : List Event) :
    (∀ es₁, es₁ <+: es → Enforces b es₁) ↔
      Machine.Meets (contextStep b) ModeIsRecorded .start es := by
  refine Machine.forall_prefix_iff_meets (R := fun _ => True) (fun _ _ => trivial) ?_ ?_
  · intro es _ hes
    obtain ⟨t, s, hok, hs, hkept⟩ := run_enforced hlib hes
    exact ⟨t, s, hok, hs.ssl, hkept⟩
  · intro es event _ _ hes t s hok hbad
    obtain ⟨t', s', hok', hs, -⟩ := run_enforced hlib hes
    cases hok.symm.trans hok'
    simp only [ModeIsRecorded, not_forall] at hbad
    obtain ⟨rfl, hdrift⟩ := hbad
    -- The new SSL has a mode that is not that of the level copied with it.
    rw [Enforces, Machine.ends_of_run (Machine.run_snoc hok rfl)]
    rintro ⟨henforced, -⟩
    refine hdrift (hs.new_iff.mp (henforced s.ssls.length _ ?_))
    simp [Session.ssl?]

/-- With a verifier on the context the `SSL` gets the mode of its level, and
ignoring the level leaves it. -/
theorem contextRun_enforces_verifier :
    Enforces ⟨.boringssl, true, false, ""⟩ [.call (.setCertVerifyCallback (some 1) .succeed),
      .setVerify sslCverifyRequired 3, .newSSL true true, .sslSetVerify 0 sslCverifyIgnored 5] :=
  (contextRun_enforces_iff _ rfl _).mpr (by decide) _ (List.prefix_refl _)

/-- A required level without a verifier: the `SSL` has no mode installed, and
ignoring the level changes that. -/
theorem contextRun_drifts :
    ¬ Enforces ⟨.boringssl, true, false, ""⟩ [.setVerify sslCverifyRequired 3, .newSSL true true] ∧
    ¬ Machine.Ends (contextStep ⟨.boringssl, true, false, ""⟩) (fun t _ => ∀ x ∈ t, KeepsMode x)
      .start [.setVerify sslCverifyRequired 3, .newSSL true true,
        .sslSetVerify 0 sslCverifyIgnored 5] := by
  constructor
  · rw [Enforces, Machine.ends_of_run rfl]
    rintro ⟨henforced, -⟩
    exact absurd (henforced 0 _ rfl) (by decide)
  · rw [Machine.ends_of_run rfl]
    intro hkept
    have hmode := hkept _ (List.mem_of_getElem? (i := 2) rfl) 0 5 _ _ rfl rfl rfl
    exact absurd hmode (by decide)

end Context
