-- SUMMARY: The certificate and the key that `setCertificate` and `setCertificateBio` install, down to the contents they read.
import Tcnative.Chain.Pem
import Tcnative.Context.Password

/-!
# Credentials of a context

The two setters of `Context.Password` in detail: which bytes they read, with
which reader, and what the `SSL_CTX` is afterwards. One takes file names and the
other takes BIOs, and both are meant to take the key from the certificate input
where no key is given.
-/

namespace Context.Credentials
open CMem Jni Tls
open Password (TcnSslCtxt strrchr takePassword freeAndResetPass)
open Chain (ErrorCode pemRNoStartLine)

variable {σ EvpPkey X509 : Type}

/-! ## Data -/

/-- The functions of the library that the setters use. A reader is given the
bytes that it finds in front of it and the password, and those for certificates
say how many bytes they take. `σ` is the state of an `SSL_CTX`. -/
structure LibCrypto (σ EvpPkey X509 : Type) where
  pemReadBioPrivateKey : List Byte → Option String → Option EvpPkey
  pemReadBioX509Aux : List Byte → Option String → Except ErrorCode X509 × Nat
  d2iX509Bio : List Byte → Option X509 × Nat
  sslLoadPkcs12 : String → Option String → Option (Option EvpPkey × Option X509)
  useCertificate : σ → Option X509 → Int × σ
  usePrivateKey : σ → Option EvpPkey → Int × σ
  checkPrivateKey : σ → Int
  errErrorString : String

/-- A `BIO`: its content, and how much of it was read. -/
structure Bio where
  content : List Byte
  pos : Nat
  deriving DecidableEq, Repr

/-- What a reader of the BIO finds. -/
def Bio.rest (b : Bio) : List Byte := b.content.drop b.pos

/-- What `BIO_read_filename` opens. -/
abbrev Files := String → Option (List Byte)

/-- The BIOs that Java holds. -/
abbrev Bios := Password.Bio → Bio

/-- The `SSL_CTX` and the BIOs. -/
structure World (σ : Type) where
  ctx : σ
  bios : Bios

/-! ## Loading -/

/-- What `load_pem_cert` and `tcn_load_pem_cert_bio` do with an open BIO: read it
as PEM, and as DER from its beginning where there is no PEM block. -/
def readPemCert (lib : LibCrypto σ EvpPkey X509) (password : Option String) (bio : Bio) :
    Option X509 × Bio :=
  match lib.pemReadBioX509Aux bio.rest password with
  | (.ok cert, n) => (some cert, { bio with pos := bio.pos + n })
  | (.error err, n) =>
    -- The reason alone decides, whatever library reports it.
    if err.reason = pemRNoStartLine then
      match lib.d2iX509Bio bio.content with
      | (cert, n) => (cert, { bio with pos := n })
    else (none, { bio with pos := bio.pos + n })

/-- `load_pem_key`. -/
def loadPemKey (lib : LibCrypto σ EvpPkey X509) (files : Files) (password : Option String)
    (file : String) : Option EvpPkey :=
  (files file).bind fun content => lib.pemReadBioPrivateKey content password

/-- `load_pem_cert`. -/
def loadPemCert (lib : LibCrypto σ EvpPkey X509) (files : Files) (password : Option String)
    (file : String) : Option X509 :=
  (files file).bind fun content => (readPemCert lib password ⟨content, 0⟩).1

/-- `tcn_load_pem_key_bio`. Reading from NULL fails. -/
def tcnLoadPemKeyBio (lib : LibCrypto σ EvpPkey X509) (password : Option String)
    (bio : Option Password.Bio) (bios : Bios) : Option EvpPkey × Bios :=
  match bio with
  | none => (none, bios)
  | some i =>
    -- The BIO is rewound, whatever was read.
    (lib.pemReadBioPrivateKey (bios i).rest password,
      Function.update bios i { bios i with pos := 0 })

/-- `tcn_load_pem_cert_bio`. -/
def tcnLoadPemCertBio (lib : LibCrypto σ EvpPkey X509) (password : Option String)
    (i : Password.Bio) (bios : Bios) : Option X509 × Bios :=
  match readPemCert lib password (bios i) with
  | (cert, bio) => (cert, Function.update bios i bio)

/-- The three calls on the `SSL_CTX` that both setters end with. -/
def useCredentials (lib : LibCrypto σ EvpPkey X509) (ctx : σ) (pkey : Option EvpPkey)
    (xcert : Option X509) : Option Throwable × σ :=
  let certified := lib.useCertificate ctx xcert
  let keyed := lib.usePrivateKey certified.2 pkey
  if certified.1 ≤ 0 then
    (some (.exception s!"Error setting certificate ({lib.errErrorString})"), certified.2)
  else if keyed.1 ≤ 0 then
    (some (.exception s!"Error setting private key ({lib.errErrorString})"), keyed.2)
  else if lib.checkPrivateKey keyed.2 ≤ 0 then
    (some (.exception
      s!"Private key does not match the certificate public key ({lib.errErrorString})"), keyed.2)
  else (none, keyed.2)

/-- `setCertificate` behind the password. -/
def loadFiles (lib : LibCrypto σ EvpPkey X509) (files : Files) (cert key : Option String)
    (w : World σ) (password : Option String) : Option Throwable × World σ :=
  match cert, key.or cert with
  | some certFile, some keyFile =>
    if strrchr certFile '.' = some ".pkcs12".toList then
      match lib.sslLoadPkcs12 certFile password with
      | none =>
        (some (.exception s!"Unable to load certificate {certFile} ({lib.errErrorString})"), w)
      | some (pkey, xcert) =>
        match useCredentials lib w.ctx pkey xcert with
        | (cause, ctx) => (cause, { w with ctx })
    else
      match loadPemKey lib files password keyFile with
      | none =>
        (some (.exception s!"Unable to load certificate key {keyFile} ({lib.errErrorString})"), w)
      | some pkey =>
        match loadPemCert lib files password certFile with
        | none =>
          (some (.exception s!"Unable to load certificate {certFile} ({lib.errErrorString})"), w)
        | some xcert =>
          match useCredentials lib w.ctx (some pkey) (some xcert) with
          | (cause, ctx) => (cause, { w with ctx })
  | _, _ => (some (.exception "No Certificate file specified or invalid file format"), w)

/-- `setCertificateBio` behind the password. `key_bio` is read before `key` is
replaced by `cert`, so a missing key is still loaded from NULL. -/
def loadBios (lib : LibCrypto σ EvpPkey X509) (cert key : Option Password.Bio) (w : World σ)
    (password : Option String) : Option Throwable × World σ :=
  match cert, key.or cert with
  | some certBio, some _ =>
    match tcnLoadPemKeyBio lib password key w.bios with
    | (none, bios) =>
      (some (.exception s!"Unable to load certificate key ({lib.errErrorString})"), { w with bios })
    | (some pkey, bios) =>
      match tcnLoadPemCertBio lib password certBio bios with
      | (none, bios) =>
        (some (.exception s!"Unable to load certificate ({lib.errErrorString}) "), { w with bios })
      | (some xcert, bios) =>
        match useCredentials lib w.ctx (some pkey) (some xcert) with
        | (cause, ctx) => (cause, ⟨ctx, bios⟩)
  | _, _ => (some (.exception "No Certificate file specified or invalid file format"), w)

/-! ## The setters -/

/-- What a setter throws and returns, with the password, the `SSL_CTX` and the
BIOs as it leaves them. -/
abbrev Outcome (σ : Type) := Except Fault ((Option Throwable × Bool) × TcnSslCtxt × World σ)

/-- `Password.withPassword` around a `load` that changes the world. -/
def withPassword (lib : Library) (c : TcnSslCtxt) (w : World σ) (password : Option String)
    (strdup : Bool) (load : Option String → Option Throwable × World σ) : Outcome σ :=
  match lib.notSupported with
  | some cause => .ok ((some cause, false), c, w)
  | none =>
    match takePassword c password strdup with
    | (oldPassword, false, c) =>
      match freeAndResetPass c oldPassword false with
      | .error f => .error f
      | .ok c => .ok ((none, false), c, w)
    | (oldPassword, true, c) =>
      match c.stored with
      | .error f => .error f
      | .ok password =>
        match load password with
        | (cause, w) =>
          match freeAndResetPass c oldPassword cause.isNone with
          | .error f => .error f
          | .ok c => .ok ((cause, cause.isNone), c, w)

/-- `SSLContext.setCertificate`. -/
def setCertificate (lib : Library) (crypto : LibCrypto σ EvpPkey X509) (files : Files)
    (c : TcnSslCtxt) (w : World σ) (cert key password : Option String) (strdup : Bool) :
    Outcome σ :=
  withPassword lib c w password strdup (loadFiles crypto files cert key w)

/-- `SSLContext.setCertificateBio`. -/
def setCertificateBio (lib : Library) (crypto : LibCrypto σ EvpPkey X509) (c : TcnSslCtxt)
    (w : World σ) (cert key : Option Password.Bio) (password : Option String) (strdup : Bool) :
    Outcome σ :=
  withPassword lib c w password strdup (loadBios crypto cert key w)

/-! ## Without the contents -/

/-- The result of a setter without the world. -/
def Outcome.forget (out : Outcome σ) : Except Fault ((Option Throwable × Bool) × TcnSslCtxt) :=
  out.map fun (ret, c, _) => (ret, c)

theorem withPassword_forget (lib : Library) (c : TcnSslCtxt) (w : World σ)
    (password : Option String) (strdup : Bool)
    (load : Option String → Option Throwable × World σ) :
    (withPassword lib c w password strdup load).forget =
      Password.withPassword lib c password strdup fun password => (load password).1 := by
  unfold withPassword Password.withPassword Outcome.forget
  cases lib.notSupported with
  | some cause => rfl
  | none =>
    obtain ⟨oldPassword, goesOn, c⟩ := takePassword c password strdup
    cases goesOn with
    | false =>
      dsimp only
      cases freeAndResetPass c oldPassword false <;> rfl
    | true =>
      dsimp only
      cases c.stored with
      | error f => rfl
      | ok password =>
        dsimp only
        cases freeAndResetPass c oldPassword (load password).1.isNone <;> rfl

/-- Only the password that is stored for the call matters to `load`. -/
theorem withPassword_congr (lib : Library) {c : TcnSslCtxt} {password : Option String}
    {strdup : Bool} {load load' : Option String → Option Throwable}
    (h : ∀ p, (takePassword c password strdup).2.2.stored = .ok p → load p = load' p) :
    Password.withPassword lib c password strdup load =
      Password.withPassword lib c password strdup load' := by
  unfold Password.withPassword
  cases lib.notSupported with
  | some cause => rfl
  | none =>
    revert h
    obtain ⟨oldPassword, goesOn, c⟩ := takePassword c password strdup
    intro h
    cases goesOn with
    | false => rfl
    | true =>
      dsimp only at h ⊢
      cases hstored : c.stored with
      | error f => rfl
      | ok p => simp only [h p hstored]

/-- What the library answers in a call that uses these credentials. -/
def calls (lib : LibCrypto σ EvpPkey X509) (files : Files) (w : World σ) (strdup : Bool)
    (pkey : Option EvpPkey) (xcert : Option X509) : Password.CertificateCalls EvpPkey X509 where
  strdup := strdup
  loadPkcs12 := lib.sslLoadPkcs12
  loadPemKey file password := loadPemKey lib files password file
  loadPemCert file password := loadPemCert lib files password file
  loadPemKeyBio bio password := (tcnLoadPemKeyBio lib password bio w.bios).1
  -- The key is loaded before, from this BIO or from another one.
  loadPemCertBio _ _ := xcert
  useCertificate xcert := (lib.useCertificate w.ctx xcert).1
  usePrivateKey pkey := (lib.usePrivateKey (lib.useCertificate w.ctx xcert).2 pkey).1
  checkPrivateKey :=
    lib.checkPrivateKey (lib.usePrivateKey (lib.useCertificate w.ctx xcert).2 pkey).2
  err := lib.errErrorString

section
variable (lib : LibCrypto σ EvpPkey X509) (files : Files) (w : World σ) (strdup : Bool)
  (pkey : Option EvpPkey) (xcert : Option X509)

@[simp] theorem calls_loadPkcs12 :
    (calls lib files w strdup pkey xcert).loadPkcs12 = lib.sslLoadPkcs12 := rfl

@[simp] theorem calls_loadPemKey (file : String) (password : Option String) :
    (calls lib files w strdup pkey xcert).loadPemKey file password =
      loadPemKey lib files password file := rfl

@[simp] theorem calls_loadPemCert (file : String) (password : Option String) :
    (calls lib files w strdup pkey xcert).loadPemCert file password =
      loadPemCert lib files password file := rfl

@[simp] theorem calls_loadPemKeyBio (bio : Option Password.Bio) (password : Option String) :
    (calls lib files w strdup pkey xcert).loadPemKeyBio bio password =
      (tcnLoadPemKeyBio lib password bio w.bios).1 := rfl

theorem useCredentials_forget :
    Password.useCredentials (calls lib files w strdup pkey xcert) pkey xcert =
      (useCredentials lib w.ctx pkey xcert).1 := by
  simp only [Password.useCredentials, useCredentials, calls, apply_ite Prod.fst]
  rfl

theorem loadFiles_forget (cert key password : Option String) :
    ∃ pkey xcert, Password.loadFiles (calls lib files w strdup pkey xcert) cert key password =
      (loadFiles lib files cert key w password).1 := by
  cases cert with
  | none => exact ⟨none, none, by cases key <;> rfl⟩
  | some certFile =>
    have hkey : key.or (some certFile) = some (key.getD certFile) := by cases key <;> rfl
    simp only [Password.loadFiles, loadFiles, hkey]
    by_cases hpkcs12 : strrchr certFile '.' = some ".pkcs12".toList
    · simp only [if_pos hpkcs12, calls_loadPkcs12]
      cases hload : lib.sslLoadPkcs12 certFile password with
      | none => exact ⟨none, none, rfl⟩
      | some found =>
        exact ⟨found.1, found.2, useCredentials_forget lib files w strdup found.1 found.2⟩
    · simp only [if_neg hpkcs12, calls_loadPemKey, calls_loadPemCert]
      cases hload : loadPemKey lib files password (key.getD certFile) with
      | none => exact ⟨none, none, rfl⟩
      | some pkey =>
        cases hcert : loadPemCert lib files password certFile with
        | none => exact ⟨none, none, rfl⟩
        | some xcert =>
          exact ⟨some pkey, some xcert, useCredentials_forget lib files w strdup _ _⟩

theorem loadBios_forget (cert key : Option Password.Bio) (password : Option String) :
    ∃ pkey xcert, Password.loadBios (calls lib files w strdup pkey xcert) cert key password =
      (loadBios lib cert key w password).1 := by
  cases cert with
  | none => exact ⟨none, none, by cases key <;> rfl⟩
  | some certBio =>
    obtain ⟨keyBio, hkey⟩ : ∃ keyBio, key.or (some certBio) = some keyBio := by
      cases key <;> exact ⟨_, rfl⟩
    simp only [Password.loadBios, loadBios, hkey, Option.isNone_some, Bool.or_self,
      Bool.false_eq_true, if_false, calls_loadPemKeyBio]
    obtain ⟨found, bios⟩ := tcnLoadPemKeyBio lib password key w.bios
    cases found with
    | none => exact ⟨none, none, rfl⟩
    | some pkey =>
      dsimp only
      obtain ⟨found, bios⟩ := tcnLoadPemCertBio lib password certBio bios
      cases found with
      | none => exact ⟨none, none, rfl⟩
      | some xcert =>
        exact ⟨some pkey, some xcert, useCredentials_forget lib files w strdup _ _⟩

end

/-- One password is used, and the answers are those for the credentials that it
gives access to. -/
theorem withPassword_forget_load (lib : Library) (c : TcnSslCtxt) (w : World σ)
    (password : Option String) (strdup : Bool) {load : Option String → Option Throwable × World σ}
    {load' : Option EvpPkey → Option X509 → Option String → Option Throwable}
    (h : ∀ p, ∃ pkey xcert, load' pkey xcert p = (load p).1) :
    ∃ pkey xcert, (withPassword lib c w password strdup load).forget =
      Password.withPassword lib c password strdup (load' pkey xcert) := by
  rw [withPassword_forget]
  cases hstored : (takePassword c password strdup).2.2.stored with
  | error f =>
    refine ⟨none, none, withPassword_congr lib fun p hp => ?_⟩
    cases hstored.symm.trans hp
  | ok p =>
    obtain ⟨pkey, xcert, hload⟩ := h p
    refine ⟨pkey, xcert, withPassword_congr lib fun p' hp => ?_⟩
    cases hstored.symm.trans hp
    exact hload.symm

/-- Without the world, `setCertificate` is that of the stored password. -/
theorem setCertificate_forget (lib : Library) (crypto : LibCrypto σ EvpPkey X509) (files : Files)
    (c : TcnSslCtxt) (w : World σ) (cert key password : Option String) (strdup : Bool) :
    ∃ calls : Password.CertificateCalls EvpPkey X509,
      (setCertificate lib crypto files c w cert key password strdup).forget =
        Password.setCertificate lib c cert key password calls := by
  obtain ⟨pkey, xcert, hforget⟩ := withPassword_forget_load lib c w password strdup
    (loadFiles_forget crypto files w strdup cert key)
  exact ⟨calls crypto files w strdup pkey xcert, hforget⟩

/-- So is `setCertificateBio`. -/
theorem setCertificateBio_forget (lib : Library) (crypto : LibCrypto σ EvpPkey X509)
    (c : TcnSslCtxt) (w : World σ) (cert key : Option Password.Bio) (password : Option String)
    (strdup : Bool) :
    ∃ calls : Password.CertificateCalls EvpPkey X509,
      (setCertificateBio lib crypto c w cert key password strdup).forget =
        Password.setCertificateBio lib c cert key password calls := by
  obtain ⟨pkey, xcert, hforget⟩ := withPassword_forget_load lib c w password strdup
    (loadBios_forget crypto (fun _ => none) w strdup cert key)
  exact ⟨calls crypto (fun _ => none) w strdup pkey xcert, hforget⟩

/-! ## What a call does -/

/-- The call gets to its input: the build has the setters, and a password that is
passed can be copied. -/
def Reaches (lib : Library) (password : Option String) (strdup : Bool) : Prop :=
  lib.isBoringSSL = false ∧ (password.isSome = true → strdup = true)

/-- The password that a call decrypts with: the one that is passed, or else the
one that is stored. -/
def Decrypts (c : TcnSslCtxt) (password p : Option String) : Prop :=
  match password with
  | some s => p = some s
  | none => c.stored = .ok p

theorem Decrypts.unique {c : TcnSslCtxt} {password p q : Option String}
    (hp : Decrypts c password p) (hq : Decrypts c password q) : p = q := by
  cases password with
  | none => exact Except.ok.inj (hp.symm.trans hq)
  | some s => exact hp.trans hq.symm

theorem takePassword_stored {c c' : TcnSslCtxt} {password oldPassword p} {strdup : Bool}
    (h : takePassword c password strdup = (oldPassword, true, c')) (hp : c'.stored = .ok p) :
    (password.isSome = true → strdup = true) ∧ Decrypts c password p := by
  cases password with
  | none =>
    cases h
    exact ⟨by simp, hp⟩
  | some s =>
    cases strdup with
    | false => cases h
    | true =>
      cases h
      have hstored : TcnSslCtxt.stored ⟨some c.strings.length, c.strings.alloc s⟩ = .ok (some s) :=
        TcnSslCtxt.stored_of_live rfl (Arena.live_alloc c.strings s)
      cases hstored.symm.trans hp
      exact ⟨fun _ => rfl, rfl⟩

/-- A call that does not fault returned false and changed nothing, or it returned
what `load` says with its password. -/
theorem withPassword_inv {lib : Library} {c c' : TcnSslCtxt} {w w' : World σ}
    {password : Option String} {strdup : Bool} {load : Option String → Option Throwable × World σ}
    {ret : Option Throwable × Bool}
    (h : withPassword lib c w password strdup load = .ok (ret, c', w')) :
    (¬ Reaches lib password strdup ∧ ret.2 = false ∧ w' = w) ∨
    (Reaches lib password strdup ∧ ∃ p, Decrypts c password p ∧
      ret.2 = (load p).1.isNone ∧ w' = (load p).2) := by
  unfold withPassword at h
  split at h
  · rename_i cause hnot
    cases h
    refine .inl ⟨fun hreaches => ?_, rfl, rfl⟩
    cases hnot.symm.trans (lib.notSupported_eq_none.mpr hreaches.1)
  · rename_i hlib
    rw [Library.notSupported_eq_none] at hlib
    split at h
    · rename_i htake
      split at h
      · cases h
      · cases h
        refine .inl ⟨fun hreaches => ?_, rfl, rfl⟩
        cases password with
        | none => cases htake
        | some s =>
          rw [hreaches.2 rfl] at htake
          cases htake
    · rename_i oldPassword c₁ htake
      split at h
      · cases h
      · rename_i p hp
        obtain ⟨hstrdup, hdecrypts⟩ := takePassword_stored htake hp
        dsimp only at h
        split at h
        · cases h
        · cases h
          exact .inr ⟨⟨hlib, hstrdup⟩, p, hdecrypts, rfl, rfl⟩

/-- On a context whose password can be read no call faults. -/
theorem withPassword_ok (lib : Library) {c : TcnSslCtxt} (hc : c.Owned) (w : World σ)
    (password : Option String) (strdup : Bool)
    (load : Option String → Option Throwable × World σ) :
    ∃ ret c' w', withPassword lib c w password strdup load = .ok (ret, c', w') := by
  have hforget := withPassword_forget lib c w password strdup load
  obtain ⟨r, hr⟩ : ∃ r, Password.withPassword lib c password strdup (fun p => (load p).1) =
      .ok r := by
    cases hlib : lib.notSupported with
    | some cause => exact ⟨((some cause, false), c), by simp only [Password.withPassword, hlib]⟩
    | none =>
      cases password with
      | none =>
        obtain ⟨p, c', -, hok, -⟩ := Password.withPassword_none hlib hc strdup _
        exact ⟨_, hok⟩
      | some s =>
        obtain ⟨cause, rv, c', hok, -⟩ := Password.withPassword_some hlib hc s strdup _
        exact ⟨_, hok⟩
  rw [hr] at hforget
  cases hout : withPassword lib c w password strdup load with
  | error f =>
    rw [hout] at hforget
    cases hforget
  | ok out => exact ⟨out.1, out.2.1, out.2.2, rfl⟩

/-! ## What the setters install -/

/-- A file and a BIO with the same content. The BIO is at its beginning. -/
structure Input (files : Files) (bios : Bios) where
  file : String
  bio : Password.Bio
  content : List Byte
  file_eq : files file = some content
  bio_eq : bios bio = ⟨content, 0⟩

/-- The key and the certificate that the readers find in two contents. -/
def credentials (lib : LibCrypto σ EvpPkey X509) (password : Option String)
    (cert key : List Byte) : Option (EvpPkey × X509) :=
  (lib.pemReadBioPrivateKey key password).bind fun pkey =>
    (readPemCert lib password ⟨cert, 0⟩).1.map fun xcert => (pkey, xcert)

/-- Whether the `SSL_CTX` takes what was found, and what it is then. -/
def install (lib : LibCrypto σ EvpPkey X509) (ctx : σ) : Option (EvpPkey × X509) → Bool × σ
  | none => (false, ctx)
  | some (pkey, xcert) =>
    let used := useCredentials lib ctx (some pkey) (some xcert)
    (used.1.isNone, used.2)

section
variable (lib : LibCrypto σ EvpPkey X509) {files : Files} {w : World σ}

/-- `setCertificate` installs the credentials of its files. -/
theorem loadFiles_install (cert : Input files w.bios) (key : Option (Input files w.bios))
    (hname : strrchr cert.file '.' ≠ some ".pkcs12".toList) (password : Option String) :
    let loaded := loadFiles lib files (some cert.file) (key.map (·.file)) w password
    (loaded.1.isNone, loaded.2.ctx) =
      install lib w.ctx (credentials lib password cert.content (key.getD cert).content) := by
  have hkey : (key.map (·.file)).or (some cert.file) = some (key.getD cert).file := by
    cases key <;> rfl
  simp only [loadFiles, hkey, if_neg hname, loadPemKey, loadPemCert, Input.file_eq,
    Option.bind_some, credentials]
  cases lib.pemReadBioPrivateKey (key.getD cert).content password with
  | none => rfl
  | some pkey =>
    simp only [Option.bind_some]
    cases (readPemCert lib password ⟨cert.content, 0⟩).1 with
    | none => rfl
    | some xcert => rfl

/-- Rewinding a BIO at its beginning changes nothing. -/
theorem tcnLoadPemKeyBio_input (key : Input files w.bios) (password : Option String) :
    tcnLoadPemKeyBio lib password (some key.bio) w.bios =
      (lib.pemReadBioPrivateKey key.content password, w.bios) := by
  have hkept : Function.update w.bios key.bio ⟨key.content, 0⟩ = w.bios :=
    Function.update_eq_self_iff.mpr key.bio_eq.symm
  simp only [tcnLoadPemKeyBio, key.bio_eq, Bio.rest, List.drop_zero, hkept]

/-- `setCertificateBio` installs the credentials of its BIOs where a key is given. -/
theorem loadBios_install (cert key : Input files w.bios) (password : Option String) :
    let loaded := loadBios lib (some cert.bio) (some key.bio) w password
    (loaded.1.isNone, loaded.2.ctx) =
      install lib w.ctx (credentials lib password cert.content key.content) := by
  simp only [loadBios, Option.or_some, tcnLoadPemKeyBio_input, credentials]
  cases lib.pemReadBioPrivateKey key.content password with
  | none => rfl
  | some pkey =>
    have hcert : tcnLoadPemCertBio lib password cert.bio w.bios =
        ((readPemCert lib password ⟨cert.content, 0⟩).1,
          Function.update w.bios cert.bio (readPemCert lib password ⟨cert.content, 0⟩).2) := by
      rw [← cert.bio_eq]
      rfl
    simp only [hcert, Option.bind_some]
    cases (readPemCert lib password ⟨cert.content, 0⟩).1 with
    | none => rfl
    | some xcert => rfl

/-- It fails where none is given. -/
theorem loadBios_noKey (cert : Option Password.Bio) (password : Option String) :
    (loadBios lib cert none w password).1.isNone = false := by
  cases cert with
  | none => rfl
  | some cert => rfl

end

/-! ## Agreement -/

/-- The `SSL_CTX` takes the certificate and the key, and they belong together. -/
def Takes (lib : LibCrypto σ EvpPkey X509) (ctx : σ) (pkey : EvpPkey) (xcert : X509) : Prop :=
  let certified := lib.useCertificate ctx (some xcert)
  let keyed := lib.usePrivateKey certified.2 (some pkey)
  0 < certified.1 ∧ 0 < keyed.1 ∧ 0 < lib.checkPrivateKey keyed.2

/-- The content holds a certificate with its key, and the `SSL_CTX` takes them. -/
def SelfContained (lib : LibCrypto σ EvpPkey X509) (ctx : σ) (content : List Byte)
    (password : Option String) : Prop :=
  ∃ pkey xcert, lib.pemReadBioPrivateKey content password = some pkey ∧
    (readPemCert lib password ⟨content, 0⟩).1 = some xcert ∧ Takes lib ctx pkey xcert

theorem useCredentials_eq_none (lib : LibCrypto σ EvpPkey X509) (ctx : σ) (pkey : EvpPkey)
    (xcert : X509) :
    (useCredentials lib ctx (some pkey) (some xcert)).1 = none ↔ Takes lib ctx pkey xcert := by
  simp only [useCredentials, Takes, apply_ite Prod.fst]
  split
  · exact iff_of_false nofun fun h => absurd h.1 (by omega)
  split
  · exact iff_of_false nofun fun h => absurd h.2.1 (by omega)
  split
  · exact iff_of_false nofun fun h => absurd h.2.2 (by omega)
  · exact iff_of_true rfl ⟨by omega, by omega, by omega⟩

theorem install_selfContained (lib : LibCrypto σ EvpPkey X509) (ctx : σ) (content : List Byte)
    (password : Option String) :
    (install lib ctx (credentials lib password content content)).1 = true ↔
      SelfContained lib ctx content password := by
  unfold SelfContained credentials
  cases lib.pemReadBioPrivateKey content password with
  | none => simp [install]
  | some pkey =>
    cases (readPemCert lib password ⟨content, 0⟩).1 with
    | none => simp [install]
    | some xcert => simp [install, useCredentials_eq_none]

/-- Both calls return the same boolean, and when they return true they leave the
same `SSL_CTX`. -/
def Agree (out₁ out₂ : Outcome σ) : Prop :=
  ∃ ret₁ c₁ w₁ ret₂ c₂ w₂, out₁ = .ok (ret₁, c₁, w₁) ∧ out₂ = .ok (ret₂, c₂, w₂) ∧
    ret₁.2 = ret₂.2 ∧ (ret₁.2 = true → w₁.ctx = w₂.ctx)

/-- Two calls that get to their input agree as what they load does. -/
theorem agree_iff_load {lib : Library} {c : TcnSslCtxt} (hc : c.Owned) {w : World σ}
    {password : Option String} {strdup : Bool}
    {load₁ load₂ : Option String → Option Throwable × World σ} :
    Agree (withPassword lib c w password strdup load₁)
        (withPassword lib c w password strdup load₂) ↔
      (Reaches lib password strdup → ∀ p, Decrypts c password p →
        (load₁ p).1.isNone = (load₂ p).1.isNone ∧
          ((load₁ p).1.isNone = true → (load₁ p).2.ctx = (load₂ p).2.ctx)) := by
  obtain ⟨ret₁, c₁, w₁, hok₁⟩ := withPassword_ok lib hc w password strdup load₁
  obtain ⟨ret₂, c₂, w₂, hok₂⟩ := withPassword_ok lib hc w password strdup load₂
  have hagree : Agree (withPassword lib c w password strdup load₁)
      (withPassword lib c w password strdup load₂) ↔
      ret₁.2 = ret₂.2 ∧ (ret₁.2 = true → w₁.ctx = w₂.ctx) := by
    constructor
    · rintro ⟨ret₁', c₁', w₁', ret₂', c₂', w₂', h₁, h₂, hsame⟩
      cases hok₁.symm.trans h₁
      cases hok₂.symm.trans h₂
      exact hsame
    · intro hsame
      exact ⟨ret₁, c₁, w₁, ret₂, c₂, w₂, hok₁, hok₂, hsame⟩
  rw [hagree]
  rcases withPassword_inv hok₁ with ⟨hnot, hfalse₁, -⟩ | ⟨hreaches, p, hp, hret₁, rfl⟩
  · rcases withPassword_inv hok₂ with ⟨-, hfalse₂, -⟩ | ⟨hreaches, -⟩
    · refine iff_of_true ⟨hfalse₁.trans hfalse₂.symm, ?_⟩ fun hreaches => absurd hreaches hnot
      rw [hfalse₁]
      exact fun h => absurd h Bool.false_ne_true
    · exact absurd hreaches hnot
  · rcases withPassword_inv hok₂ with ⟨hnot, -, -⟩ | ⟨-, p', hp', hret₂, rfl⟩
    · exact absurd hreaches hnot
    · obtain rfl : p' = p := hp'.unique hp
      rw [hret₁, hret₂]
      constructor
      · intro hsame _ q hq
        obtain rfl : q = p' := hq.unique hp
        exact hsame
      · intro hall
        exact hall hreaches p' hp

/-- The two setters agree on a certificate and a key if and only if a key is
given, or the certificate input does not hold a usable key and certificate. -/
theorem setCertificate_agree_iff (lib : Library) (crypto : LibCrypto σ EvpPkey X509)
    {files : Files} {c : TcnSslCtxt} (hc : c.Owned) (w : World σ) (cert : Input files w.bios)
    (key : Option (Input files w.bios)) (hname : strrchr cert.file '.' ≠ some ".pkcs12".toList)
    (password : Option String) (strdup : Bool) :
    Agree
        (setCertificate lib crypto files c w (some cert.file) (key.map (·.file)) password strdup)
        (setCertificateBio lib crypto c w (some cert.bio) (key.map (·.bio)) password strdup) ↔
      (Reaches lib password strdup → ∀ p, Decrypts c password p →
        key.isSome = true ∨ ¬ SelfContained crypto w.ctx cert.content p) := by
  rw [setCertificate, setCertificateBio, agree_iff_load hc]
  refine forall_congr' fun _ => forall_congr' fun p => forall_congr' fun _ => ?_
  have hfiles := loadFiles_install crypto cert key hname p
  cases key with
  | some key =>
    have hbios := loadBios_install crypto cert key p
    have hsame := hfiles.trans hbios.symm
    refine iff_of_true ?_ (.inl rfl)
    exact ⟨congrArg Prod.fst hsame, fun _ => congrArg Prod.snd hsame⟩
  | none =>
    have hfailed := loadBios_noKey (w := w) crypto (some cert.bio) p
    have hfound := install_selfContained crypto w.ctx cert.content p
    rw [show install crypto w.ctx (credentials crypto p cert.content cert.content) = _ from
      hfiles.symm] at hfound
    rw [Option.map_none, Option.map_none, hfailed, ← hfound]
    constructor
    · rintro ⟨hfalse, -⟩
      refine .inr fun htrue => ?_
      cases hfalse.symm.trans htrue
    · rintro (hkey | hnot)
      · cases hkey
      · have hfalse := Bool.eq_false_iff.mpr hnot
        exact ⟨hfalse, fun htrue => absurd htrue hnot⟩

/-- An `SSL_CTX` that remembers what it was given. -/
abbrev Used := Option (List Byte) × Option (List Byte)

/-- Readers that take any content for a key and for a certificate. -/
def plainCrypto : LibCrypto Used (List Byte) (List Byte) where
  pemReadBioPrivateKey content _ := some content
  pemReadBioX509Aux content _ := (.ok content, content.length)
  d2iX509Bio content := (some content, content.length)
  sslLoadPkcs12 _ _ := none
  useCertificate ctx xcert := (1, (xcert, ctx.2))
  usePrivateKey ctx pkey := (1, (ctx.1, pkey))
  checkPrivateKey _ := 1
  errErrorString := ""

/-- One file, and a BIO with its content. -/
def combined (bios : Bios) (h : bios 0 = ⟨[1], 0⟩) :
    Input (fun file => if file = "cert.pem" then some [1] else none) bios :=
  ⟨"cert.pem", 0, [1], by simp, h⟩

/-- A certificate and a key that is given agree. -/
theorem setCertificate_agree_key :
    Agree
      (setCertificate .openssl plainCrypto
        (fun file => if file = "cert.pem" then some [1] else none) .make
        ⟨(none, none), fun _ => ⟨[1], 0⟩⟩ (some "cert.pem") (some "cert.pem") none true)
      (setCertificateBio .openssl plainCrypto .make ⟨(none, none), fun _ => ⟨[1], 0⟩⟩
        (some 0) (some 0) none true) :=
  (setCertificate_agree_iff .openssl plainCrypto Password.TcnSslCtxt.make_owned
    ⟨(none, none), fun _ => ⟨[1], 0⟩⟩ (combined _ rfl) (some (combined _ rfl)) (by decide) none
    true).mpr fun _ _ _ => .inl rfl

/-- A certificate with its key in one input, and no key given: `setCertificate`
installs both, and `setCertificateBio` loads a key from NULL. -/
theorem setCertificate_combined :
    ¬ Agree
      (setCertificate .openssl plainCrypto
        (fun file => if file = "cert.pem" then some [1] else none) .make
        ⟨(none, none), fun _ => ⟨[1], 0⟩⟩ (some "cert.pem") none none true)
      (setCertificateBio .openssl plainCrypto .make ⟨(none, none), fun _ => ⟨[1], 0⟩⟩
        (some 0) none none true) := by
  rintro ⟨ret₁, c₁, w₁, ret₂, c₂, w₂, hfiles, hbios, hsame, -⟩
  cases hfiles
  cases hbios
  cases hsame

end Context.Credentials
