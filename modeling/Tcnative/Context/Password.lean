-- SUMMARY: The password of an `SSLContext`: what the certificate setters store, restore and free.
import Tcnative.Base.Arena
import Tcnative.Base.Library
import Tcnative.Base.Machine

/-!
# The stored password

`SSLContext.setCertificate` and `setCertificateBio` replace the password of the
context first, and put the old one back in their clean-up when they fail. The
clean-up knows the old password by a local pointer that is NULL when there was
none, and also when no password was passed.
-/

namespace Context.Password
open CMem Jni Tls

variable {EvpPkey X509 : Type}

/-! ## Data -/

/-- A `BIO *` that Java holds. -/
abbrev Bio := Nat

/-- The part of `tcn_ssl_ctxt_t` that is about the password, with every string
that `strdup` ever returned for it. -/
structure TcnSslCtxt where
  password : Option Nat
  strings : Arena String

/-- A context as `SSLContext.make` returns it: its memory is zeroed. -/
def TcnSslCtxt.make : TcnSslCtxt := ⟨none, []⟩

/-- The string behind `c->password`. -/
def TcnSslCtxt.stored (c : TcnSslCtxt) : Except Fault (Option String) :=
  match c.password with
  | none => .ok none
  | some i => (c.strings.get i).map some

/-- What the allocator and the library answer during one call. The functions
that load take the password for decryption. -/
structure CertificateCalls (EvpPkey X509 : Type) where
  strdup : Bool
  loadPkcs12 : String → Option String → Option (Option EvpPkey × Option X509)
  loadPemKey : String → Option String → Option EvpPkey
  loadPemCert : String → Option String → Option X509
  loadPemKeyBio : Option Bio → Option String → Option EvpPkey
  loadPemCertBio : Option Bio → Option String → Option X509
  useCertificate : Option X509 → Int
  usePrivateKey : Option EvpPkey → Int
  checkPrivateKey : Int
  err : String

/-- A call of one of the two setters. `setCertificate` takes file names,
`setCertificateBio` takes BIOs, and a NULL pointer is `none`. -/
inductive Event (EvpPkey X509 : Type) where
  | setCertificate (cert key password : Option String) (calls : CertificateCalls EvpPkey X509)
  | setCertificateBio (cert key : Option Bio) (password : Option String)
      (calls : CertificateCalls EvpPkey X509)

/-- The password argument. -/
def Event.password : Event EvpPkey X509 → Option String
  | .setCertificate _ _ password _ => password
  | .setCertificateBio _ _ password _ => password

/-! ## The code -/

/-- `if (J2S(password)) { old_password = c->password; c->password = strdup(cpassword); … }`.
It returns `old_password`, and whether the call goes on. -/
def takePassword (c : TcnSslCtxt) (password : Option String) (strdup : Bool) :
    Option Nat × Bool × TcnSslCtxt :=
  match password with
  | none => (none, true, c)
  | some s =>
    if strdup then (c.password, true, ⟨some c.strings.length, c.strings.alloc s⟩)
    else (c.password, false, { c with password := none })

/-- `free_and_reset_pass`. -/
def freeAndResetPass (c : TcnSslCtxt) (oldPassword : Option Nat) (rv : Bool) :
    Except Fault TcnSslCtxt :=
  if !rv then
    match c.strings.releaseOpt c.password with
    | .error f => .error f
    | .ok strings => .ok ⟨oldPassword, strings⟩
  else
    match c.strings.releaseOpt oldPassword with
    | .error f => .error f
    | .ok strings => .ok { c with strings }

/-- `strrchr`: the part of the string from the last such character on. -/
def strrchr (s : String) (c : Char) : Option (List Char) :=
  if c ∈ s.toList then some (c :: (s.toList.reverse.takeWhile (· ≠ c)).reverse) else none

/-- The three calls on the `SSL_CTX` that both setters end with. -/
def useCredentials (calls : CertificateCalls EvpPkey X509) (pkey : Option EvpPkey)
    (xcert : Option X509) : Option Throwable :=
  if calls.useCertificate xcert ≤ 0 then
    some (.exception s!"Error setting certificate ({calls.err})")
  else if calls.usePrivateKey pkey ≤ 0 then
    some (.exception s!"Error setting private key ({calls.err})")
  else if calls.checkPrivateKey ≤ 0 then
    some (.exception
      s!"Private key does not match the certificate public key ({calls.err})")
  else none

/-- `setCertificate` behind the password: load the key and the certificate, and
use them. It returns what is thrown. -/
def loadFiles (calls : CertificateCalls EvpPkey X509) (cert key password : Option String) :
    Option Throwable :=
  match cert, key.or cert with
  | some certFile, some keyFile =>
    if strrchr certFile '.' = some ".pkcs12".toList then
      match calls.loadPkcs12 certFile password with
      | none => some (.exception s!"Unable to load certificate {certFile} ({calls.err})")
      | some (pkey, xcert) => useCredentials calls pkey xcert
    else
      match calls.loadPemKey keyFile password with
      | none => some (.exception s!"Unable to load certificate key {keyFile} ({calls.err})")
      | some pkey =>
        match calls.loadPemCert certFile password with
        | none => some (.exception s!"Unable to load certificate {certFile} ({calls.err})")
        | some xcert => useCredentials calls (some pkey) (some xcert)
  | _, _ => some (.exception "No Certificate file specified or invalid file format")

/-- `setCertificateBio` behind the password. `key_bio` is read before `key` is
replaced by `cert`, so a missing key is still loaded from NULL. -/
def loadBios (calls : CertificateCalls EvpPkey X509) (cert key : Option Bio)
    (password : Option String) : Option Throwable :=
  if cert.isNone || (key.or cert).isNone then
    some (.exception "No Certificate file specified or invalid file format")
  else
    match calls.loadPemKeyBio key password with
    | none => some (.exception s!"Unable to load certificate key ({calls.err})")
    | some pkey =>
      match calls.loadPemCertBio cert password with
      | none => some (.exception s!"Unable to load certificate ({calls.err}) ")
      | some xcert => useCredentials calls (some pkey) (some xcert)

/-- What both setters do around `load`. They return what is thrown, and the
return value. -/
def withPassword (lib : Library) (c : TcnSslCtxt) (password : Option String) (strdup : Bool)
    (load : Option String → Option Throwable) :
    Except Fault ((Option Throwable × Bool) × TcnSslCtxt) :=
  match lib.notSupported with
  | some cause => .ok ((some cause, false), c)
  | none =>
    match takePassword c password strdup with
    | (oldPassword, false, c) =>
      -- `strdup` failed: nothing is thrown.
      match freeAndResetPass c oldPassword false with
      | .error f => .error f
      | .ok c => .ok ((none, false), c)
    | (oldPassword, true, c) =>
      match c.stored with
      | .error f => .error f
      | .ok password =>
        let cause := load password
        match freeAndResetPass c oldPassword cause.isNone with
        | .error f => .error f
        | .ok c => .ok ((cause, cause.isNone), c)

/-- `SSLContext.setCertificate`. -/
def setCertificate (lib : Library) (c : TcnSslCtxt) (cert key password : Option String)
    (calls : CertificateCalls EvpPkey X509) :
    Except Fault ((Option Throwable × Bool) × TcnSslCtxt) :=
  withPassword lib c password calls.strdup (loadFiles calls cert key)

/-- `SSLContext.setCertificateBio`. -/
def setCertificateBio (lib : Library) (c : TcnSslCtxt) (cert key : Option Bio)
    (password : Option String) (calls : CertificateCalls EvpPkey X509) :
    Except Fault ((Option Throwable × Bool) × TcnSslCtxt) :=
  withPassword lib c password calls.strdup (loadBios calls cert key)

def passwordStep (lib : Library) :
    Machine.Step Fault TcnSslCtxt (Event EvpPkey X509) (Option Throwable × Bool) :=
  fun c event =>
    match event with
    | .setCertificate cert key password calls => setCertificate lib c cert key password calls
    | .setCertificateBio cert key password calls =>
      setCertificateBio lib c cert key password calls

/-- The part of `ssl_context_cleanup` that is about the password. -/
def sslContextCleanup (c : TcnSslCtxt) : Except Fault TcnSslCtxt :=
  match c.strings.releaseOpt c.password with
  | .error f => .error f
  | .ok strings => .ok ⟨none, strings⟩

/-! ## When a call succeeds -/

/-- The `SSL_CTX` takes the certificate and the key, and they belong together. -/
def CertificateCalls.Takes (calls : CertificateCalls EvpPkey X509) (pkey : Option EvpPkey)
    (xcert : Option X509) : Prop :=
  0 < calls.useCertificate xcert ∧ 0 < calls.usePrivateKey pkey ∧ 0 < calls.checkPrivateKey

/-- The key and the certificate that a call finds in its input, with the
password to decrypt them. -/
def Event.credentials (password : Option String) :
    Event EvpPkey X509 → Option (Option EvpPkey × Option X509)
  | .setCertificate cert key _ calls =>
    cert.bind fun certFile =>
      if strrchr certFile '.' = some ".pkcs12".toList then calls.loadPkcs12 certFile password
      else
        (calls.loadPemKey (key.getD certFile) password).bind fun pkey =>
          (calls.loadPemCert certFile password).map fun xcert => (some pkey, some xcert)
  | .setCertificateBio cert key _ calls =>
    cert.bind fun certBio =>
      (calls.loadPemKeyBio key password).bind fun pkey =>
        (calls.loadPemCertBio certBio password).map fun xcert => (some pkey, some xcert)

def Event.calls : Event EvpPkey X509 → CertificateCalls EvpPkey X509
  | .setCertificate _ _ _ calls => calls
  | .setCertificateBio _ _ _ calls => calls

/-- The input holds a key and a certificate that the `SSL_CTX` takes. -/
def Event.Acceptable (e : Event EvpPkey X509) (password : Option String) : Prop :=
  ∃ pkey xcert, e.credentials password = some (pkey, xcert) ∧ e.calls.Takes pkey xcert

/-- `load` of an event. -/
def Event.load (e : Event EvpPkey X509) : Option String → Option Throwable :=
  match e with
  | .setCertificate cert key _ calls => loadFiles calls cert key
  | .setCertificateBio cert key _ calls => loadBios calls cert key

theorem passwordStep_eq (lib : Library) (c : TcnSslCtxt) (e : Event EvpPkey X509) :
    passwordStep lib c e = withPassword lib c e.password e.calls.strdup e.load := by
  cases e <;> rfl

theorem useCredentials_eq_none (calls : CertificateCalls EvpPkey X509) (pkey : Option EvpPkey)
    (xcert : Option X509) : useCredentials calls pkey xcert = none ↔ calls.Takes pkey xcert := by
  unfold useCredentials CertificateCalls.Takes
  by_cases hcert : calls.useCertificate xcert ≤ 0
  · rw [if_pos hcert]
    exact iff_of_false nofun fun h => absurd h.1 (by omega)
  rw [if_neg hcert]
  by_cases hkey : calls.usePrivateKey pkey ≤ 0
  · rw [if_pos hkey]
    exact iff_of_false nofun fun h => absurd h.2.1 (by omega)
  rw [if_neg hkey]
  by_cases hcheck : calls.checkPrivateKey ≤ 0
  · rw [if_pos hcheck]
    exact iff_of_false nofun fun h => absurd h.2.2 (by omega)
  · rw [if_neg hcheck]
    exact iff_of_true rfl ⟨by omega, by omega, by omega⟩

/-- Credentials that are found decide by what the `SSL_CTX` says to them. -/
theorem Event.acceptable_of_credentials {e : Event EvpPkey X509} {password : Option String}
    {pkey : Option EvpPkey} {xcert : Option X509}
    (h : e.credentials password = some (pkey, xcert)) :
    e.Acceptable password ↔ e.calls.Takes pkey xcert := by
  constructor
  · rintro ⟨pkey', xcert', hfound, htakes⟩
    cases h.symm.trans hfound
    exact htakes
  · intro htakes
    exact ⟨pkey, xcert, h, htakes⟩

theorem Event.not_acceptable {e : Event EvpPkey X509} {password : Option String}
    (h : e.credentials password = none) : ¬ e.Acceptable password := by
  rintro ⟨pkey, xcert, hfound, -⟩
  cases h.symm.trans hfound

theorem loadFiles_eq_none (calls : CertificateCalls EvpPkey X509) (cert key p : Option String)
    (password : Option String) :
    loadFiles calls cert key password = none ↔
      (Event.setCertificate cert key p calls).Acceptable password := by
  cases cert with
  | none => exact iff_of_false (by cases key <;> nofun) (Event.not_acceptable rfl)
  | some certFile =>
    have hkey : key.or (some certFile) = some (key.getD certFile) := by cases key <;> rfl
    simp only [loadFiles, hkey]
    by_cases hpkcs12 : strrchr certFile '.' = some ".pkcs12".toList
    · rw [if_pos hpkcs12]
      have hcredentials : (Event.setCertificate (some certFile) key p calls).credentials password =
          calls.loadPkcs12 certFile password := if_pos hpkcs12
      cases hload : calls.loadPkcs12 certFile password with
      | none =>
        exact iff_of_false nofun (Event.not_acceptable (hcredentials.trans hload))
      | some found =>
        rw [Event.acceptable_of_credentials (hcredentials.trans hload)]
        exact useCredentials_eq_none ..
    · rw [if_neg hpkcs12]
      have hcredentials : (Event.setCertificate (some certFile) key p calls).credentials password =
          (calls.loadPemKey (key.getD certFile) password).bind fun pkey =>
            (calls.loadPemCert certFile password).map fun xcert => (some pkey, some xcert) :=
        if_neg hpkcs12
      cases hload : calls.loadPemKey (key.getD certFile) password with
      | none =>
        rw [hload] at hcredentials
        exact iff_of_false nofun (Event.not_acceptable hcredentials)
      | some pkey =>
        rw [hload] at hcredentials
        cases hcert : calls.loadPemCert certFile password with
        | none =>
          rw [hcert] at hcredentials
          exact iff_of_false nofun (Event.not_acceptable hcredentials)
        | some xcert =>
          rw [hcert] at hcredentials
          rw [Event.acceptable_of_credentials hcredentials]
          exact useCredentials_eq_none ..

theorem loadBios_eq_none (calls : CertificateCalls EvpPkey X509) (cert key : Option Bio)
    (p password : Option String) :
    loadBios calls cert key password = none ↔
      (Event.setCertificateBio cert key p calls).Acceptable password := by
  cases cert with
  | none => exact iff_of_false nofun (Event.not_acceptable rfl)
  | some certBio =>
    have hkey : (key.or (some certBio)).isNone = false := by cases key <;> rfl
    simp only [loadBios, hkey, Option.isNone_some, Bool.or_self, Bool.false_eq_true, if_false]
    have hcredentials : (Event.setCertificateBio (some certBio) key p calls).credentials password =
        (calls.loadPemKeyBio key password).bind fun pkey =>
          (calls.loadPemCertBio certBio password).map fun xcert => (some pkey, some xcert) := rfl
    cases hload : calls.loadPemKeyBio key password with
    | none =>
      rw [hload] at hcredentials
      exact iff_of_false nofun (Event.not_acceptable hcredentials)
    | some pkey =>
      rw [hload] at hcredentials
      cases hcert : calls.loadPemCertBio certBio password with
      | none =>
        rw [hcert] at hcredentials
        exact iff_of_false nofun (Event.not_acceptable hcredentials)
      | some xcert =>
        rw [hcert] at hcredentials
        rw [Event.acceptable_of_credentials hcredentials]
        exact useCredentials_eq_none ..

/-- A call throws nothing behind the password exactly if its input is
acceptable. -/
theorem Event.load_eq_none (e : Event EvpPkey X509) (password : Option String) :
    e.load password = none ↔ e.Acceptable password := by
  cases e with
  | setCertificate cert key p calls => exact loadFiles_eq_none ..
  | setCertificateBio cert key p calls => exact loadBios_eq_none ..

/-! ## What one call does -/

/-- The only live string is the one behind `c->password`. -/
def TcnSslCtxt.Owned (c : TcnSslCtxt) : Prop := c.strings.OwnedBy fun _ : Unit => c.password

theorem TcnSslCtxt.stored_of_live {c : TcnSslCtxt} {i : Nat} {s : String} (h : c.password = some i)
    (hlive : c.strings.Live i s) : c.stored = .ok (some s) := by
  simp only [TcnSslCtxt.stored, h, hlive.get_eq]
  rfl

/-- Where the string behind the pointer is live, it can be read. -/
theorem TcnSslCtxt.Owned.stored {c : TcnSslCtxt} (h : c.Owned) :
    ∃ password, c.stored = .ok password ∧ (password = none ↔ c.password = none) := by
  cases hp : c.password with
  | none => exact ⟨none, by simp only [TcnSslCtxt.stored, hp], by simp⟩
  | some i =>
    obtain ⟨s, hlive⟩ := h.live () i hp
    exact ⟨some s, TcnSslCtxt.stored_of_live hp hlive, by simp⟩

/-- The password is the same string as before, or there is none as before. -/
structure Unchanged (c c' : TcnSslCtxt) : Prop where
  password : c'.password = c.password
  stored : c'.stored = c.stored

theorem Unchanged.refl (c : TcnSslCtxt) : Unchanged c c := ⟨rfl, rfl⟩

/-- A failed call frees the string that it had allocated. -/
theorem TcnSslCtxt.Owned.discard {c : TcnSslCtxt} (h : c.Owned) (s : String) :
    ∃ c', freeAndResetPass ⟨some c.strings.length, c.strings.alloc s⟩ c.password false = .ok c' ∧
      c'.Owned ∧ Unchanged c c' := by
  obtain ⟨a', hrelease, howned, hkept⟩ := Arena.OwnedBy.discard h s
  refine ⟨⟨c.password, a'⟩, ?_, howned, rfl, ?_⟩
  · simp only [freeAndResetPass, Bool.not_false, if_true, Arena.releaseOpt, hrelease]
  · cases hp : c.password with
    | none => simp only [TcnSslCtxt.stored, hp]
    | some i =>
      obtain ⟨w, hlive⟩ := h.live () i hp
      rw [TcnSslCtxt.stored_of_live hp hlive]
      exact TcnSslCtxt.stored_of_live rfl (hkept i w hlive)

/-- A call that succeeds with a password frees the old one. -/
theorem TcnSslCtxt.Owned.replace {c : TcnSslCtxt} (h : c.Owned) (s : String) :
    ∃ c', freeAndResetPass ⟨some c.strings.length, c.strings.alloc s⟩ c.password true = .ok c' ∧
      c'.Owned ∧ c'.stored = .ok (some s) := by
  obtain ⟨a', hrelease, howned, hlive⟩ := Arena.OwnedBy.replace h () s
  refine ⟨⟨some c.strings.length, a'⟩, ?_, ?_, TcnSslCtxt.stored_of_live rfl hlive⟩
  · simp only [freeAndResetPass, Bool.not_true, Bool.false_eq_true, if_false, hrelease]
  · have hown : (fun _ : Unit => some c.strings.length) =
        Function.update (fun _ : Unit => c.password) () (some c.strings.length) := by
      funext u
      rw [Function.update_self]
    rw [TcnSslCtxt.Owned, hown]
    exact howned

/-- A call without a password that fails frees the one that is stored. -/
theorem TcnSslCtxt.Owned.clear {c : TcnSslCtxt} (h : c.Owned) :
    ∃ c', freeAndResetPass c none false = .ok c' ∧ c'.Owned ∧ c'.password = none ∧
      ∀ cell ∈ c'.strings, cell.released = true := by
  obtain ⟨a', hrelease, howned⟩ := Arena.OwnedBy.clear h ()
  have hnone : (fun _ : Unit => (none : Option Nat)) =
      Function.update (fun _ : Unit => c.password) () none := by
    funext u
    rw [Function.update_self]
  rw [← hnone] at howned
  refine ⟨⟨none, a'⟩, ?_, howned, rfl, howned.all_released fun _ => rfl⟩
  simp only [freeAndResetPass, Bool.not_false, if_true, hrelease]

/-- A password that was passed is stored by a call that returns true, and all
other calls leave the password as it was. -/
def Keeps (x : Machine.Entry TcnSslCtxt (Event EvpPkey X509) (Option Throwable × Bool)) : Prop :=
  match x.ret.2, x.event.password with
  | true, some s => x.post.stored = .ok (some s)
  | true, none => Unchanged x.pre x.post
  | false, _ => Unchanged x.pre x.post

/-- A call without a password whose input is not acceptable finds no password. -/
def Event.Safe (lib : Library) (c : TcnSslCtxt) (e : Event EvpPkey X509) : Prop :=
  lib.isBoringSSL = false → e.password = none →
    c.password = none ∨ ∃ password, c.stored = .ok password ∧ e.Acceptable password

theorem Event.safe_of_password {lib : Library} {c : TcnSslCtxt} {e : Event EvpPkey X509}
    {s : String} (h : e.password = some s) : e.Safe lib c := by
  intro _ hnone
  cases h.symm.trans hnone

/-- One call without a password. -/
theorem withPassword_none {lib : Library} (hlib : lib.notSupported = none) {c : TcnSslCtxt}
    (h : c.Owned) (strdup : Bool) (load : Option String → Option Throwable) :
    ∃ password c', c.stored = .ok password ∧
      withPassword lib c none strdup load =
        .ok ((load password, (load password).isNone), c') ∧
      c'.Owned ∧ (Unchanged c c' ↔ c.password = none ∨ load password = none) := by
  obtain ⟨password, hstored, hnone⟩ := h.stored
  cases hload : load password with
  | none =>
    refine ⟨password, c, hstored, ?_, h, iff_of_true (.refl c) (.inr hload)⟩
    simp only [withPassword, hlib, takePassword, hstored, hload]
    rfl
  | some cause =>
    obtain ⟨c', hfree, howned, hcleared, -⟩ := h.clear
    refine ⟨password, c', hstored, ?_, howned, ?_⟩
    · simp only [withPassword, hlib, takePassword, hstored, hload, Option.isNone_some, hfree]
    · constructor
      · intro hunchanged
        exact .inl (hunchanged.password.symm.trans hcleared)
      · rintro (hempty | hok)
        · refine ⟨hcleared.trans hempty.symm, ?_⟩
          simp only [TcnSslCtxt.stored, hcleared, hempty]
        · cases hload.symm.trans hok

/-- One call with a password. -/
theorem withPassword_some {lib : Library} (hlib : lib.notSupported = none) {c : TcnSslCtxt}
    (h : c.Owned) (s : String) (strdup : Bool) (load : Option String → Option Throwable) :
    ∃ cause rv c', withPassword lib c (some s) strdup load = .ok ((cause, rv), c') ∧ c'.Owned ∧
      if rv then c'.stored = .ok (some s) else Unchanged c c' := by
  cases strdup with
  | false =>
    refine ⟨none, false, c, ?_, h, .refl c⟩
    simp only [withPassword, hlib, takePassword, Bool.false_eq_true, if_false]
    rfl
  | true =>
    have hstored : TcnSslCtxt.stored ⟨some c.strings.length, c.strings.alloc s⟩ = .ok (some s) :=
      TcnSslCtxt.stored_of_live rfl (Arena.live_alloc c.strings s)
    cases hload : load (some s) with
    | none =>
      obtain ⟨c', hfree, howned, hnew⟩ := h.replace s
      refine ⟨none, true, c', ?_, howned, hnew⟩
      simp only [withPassword, hlib, takePassword, if_true, hstored, hload, Option.isNone_none,
        hfree]
    | some cause =>
      obtain ⟨c', hfree, howned, hunchanged⟩ := h.discard s
      refine ⟨some cause, false, c', ?_, howned, hunchanged⟩
      simp only [withPassword, hlib, takePassword, if_true, hstored, hload, Option.isNone_some,
        hfree]

/-- A call never frees a string twice, and keeps the password exactly if it is
safe. -/
theorem passwordStep_ok (lib : Library) {c : TcnSslCtxt} (h : c.Owned) (e : Event EvpPkey X509) :
    ∃ r c', passwordStep lib c e = .ok (r, c') ∧ c'.Owned ∧
      (Keeps ⟨c, e, r, c'⟩ ↔ e.Safe lib c) := by
  rw [passwordStep_eq]
  cases hlib : lib.notSupported with
  | some cause =>
    refine ⟨(some cause, false), c, ?_, h, iff_of_true (.refl c) ?_⟩
    · simp only [withPassword, hlib]
    · intro hboring
      rw [← lib.notSupported_eq_none, hlib] at hboring
      cases hboring
  | none =>
    cases hpassword : e.password with
    | some s =>
      obtain ⟨cause, rv, c', hok, howned, hkeeps⟩ :=
        withPassword_some hlib h s e.calls.strdup e.load
      refine ⟨(cause, rv), c', hok, howned, iff_of_true ?_ (Event.safe_of_password hpassword)⟩
      simp only [Keeps, hpassword]
      cases rv <;> exact hkeeps
    | none =>
      obtain ⟨password, c', hstored, hok, howned, hkeeps⟩ :=
        withPassword_none hlib h e.calls.strdup e.load
      refine ⟨_, c', hok, howned, ?_⟩
      -- The return value does not matter: without a password both keep what is stored.
      have hunchanged : Keeps ⟨c, e, (e.load password, (e.load password).isNone), c'⟩ ↔
          Unchanged c c' := by
        simp only [Keeps, hpassword]
        cases (e.load password).isNone <;> exact Iff.rfl
      rw [hunchanged, hkeeps, e.load_eq_none]
      constructor
      · rintro (hempty | haccept) _ _
        · exact .inl hempty
        · exact .inr ⟨password, hstored, haccept⟩
      · intro hsafe
        rcases hsafe (lib.notSupported_eq_none.mp hlib) hpassword with hempty | ⟨p, hp, haccept⟩
        · exact .inl hempty
        · cases hstored.symm.trans hp
          exact .inr haccept

/-! ## Runs -/

/-- What is true of every state: the stored password can be read, no other
string is left, and `SSLContext.free` leaves none. -/
structure Tidy (c : TcnSslCtxt) : Prop where
  owned : c.Owned
  freed : ∃ c', sslContextCleanup c = .ok c' ∧ c'.password = none ∧
    ∀ cell ∈ c'.strings, cell.released = true

theorem TcnSslCtxt.Owned.tidy {c : TcnSslCtxt} (h : c.Owned) : Tidy c := by
  refine ⟨h, ?_⟩
  obtain ⟨c', hfree, -, hnone, hreleased⟩ := h.clear
  refine ⟨c', ?_, hnone, hreleased⟩
  rw [← hfree]
  simp only [sslContextCleanup, freeAndResetPass, Bool.not_false, if_true]

theorem TcnSslCtxt.make_owned : TcnSslCtxt.make.Owned := Arena.ownedBy_nil

/-- The run frees no string twice, each of its calls keeps the password, and it
ends in a tidy state. -/
def EndsKept (lib : Library) (es : List (Event EvpPkey X509)) : Prop :=
  Machine.Ends (passwordStep lib) (fun t c => (∀ x ∈ t, Keeps x) ∧ Tidy c) .make es

/-- Whatever is called, no string is freed twice and none is left in the end. -/
theorem passwordRun_tidy (lib : Library) (es : List (Event EvpPkey X509)) :
    Machine.Ends (passwordStep lib) (fun _ c => Tidy c) .make es := by
  obtain ⟨t, c, hrun, howned, -⟩ := Machine.run_invariant (I := TcnSslCtxt.Owned)
    (Q := fun _ => True)
    (fun c e hc => by
      obtain ⟨r, c', hok, hc', -⟩ := passwordStep_ok lib hc e
      exact ⟨r, c', hok, hc', trivial⟩)
    TcnSslCtxt.make_owned es
  exact ⟨t, c, hrun, howned.tidy⟩

/-- Every call keeps the password if and only if no call without a password
fails while one is stored. -/
theorem passwordRun_keeps_iff (lib : Library) (es : List (Event EvpPkey X509)) :
    (∀ es₁, es₁ <+: es → EndsKept lib es₁) ↔
      Machine.Meets (passwordStep lib) (fun c e => e.Safe lib c) .make es := by
  refine Machine.forall_prefix_iff_meets (R := fun _ => True) (fun _ _ => trivial) ?_ ?_
  · intro es _ hmeets
    obtain ⟨t, c, hrun, howned, hkeeps⟩ := Machine.run_of_meets (I := TcnSslCtxt.Owned)
      (Q := Keeps)
      (fun c e hc hsafe => by
        obtain ⟨r, c', hok, hc', hiff⟩ := passwordStep_ok lib hc e
        exact ⟨r, c', hok, hc', hiff.mpr hsafe⟩)
      TcnSslCtxt.make_owned hmeets
    exact ⟨t, c, hrun, hkeeps, howned.tidy⟩
  · rintro es e - - - t c hrun hunsafe ⟨t', c', hrun', hkeeps, -⟩
    obtain ⟨t₁, c₁, hrun₁, htidy⟩ := passwordRun_tidy lib es
    cases hrun.symm.trans hrun₁
    obtain ⟨r, c₂, hok, -, hiff⟩ := passwordStep_ok lib htidy.owned e
    cases (Machine.run_snoc hrun hok).symm.trans hrun'
    exact hunsafe (hiff.mp (hkeeps _ (by simp)))

/-- A library that accepts every file. -/
def acceptAll : CertificateCalls Unit Unit where
  strdup := true
  loadPkcs12 _ _ := some (some (), some ())
  loadPemKey _ _ := some ()
  loadPemCert _ _ := some ()
  loadPemKeyBio _ _ := some ()
  loadPemCertBio _ _ := some ()
  useCertificate _ := 1
  usePrivateKey _ := 1
  checkPrivateKey := 1
  err := ""

/-- A certificate is set with a password. A second call, without a password and
without a file, fails, and the stored password is gone. -/
theorem passwordRun_lost :
    ¬ EndsKept .openssl [.setCertificate (some "cert.pem") none (some "secret") acceptAll,
      .setCertificate none none none acceptAll] := by
  rintro ⟨t, c, hrun, hkeeps, -⟩
  cases hrun
  have hlast := hkeeps _ (List.mem_cons_of_mem _ List.mem_cons_self)
  cases hlast.password

end Context.Password
