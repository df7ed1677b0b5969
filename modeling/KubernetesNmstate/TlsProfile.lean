/-
# TLS profiles

`pkg/tls`: how a TLS security profile, lists of cipher and curve names and a minimum version,
becomes a `tls.Config`.

Go knows only some of the names, takes no cipher list for TLS 1.3, and falls back to its own
defaults wherever a list is missing, so a careless translation would admit more than the
profile does.  `tls_profile_not_exceeded` says that `newTLSConfigFromProfile` either refuses a
profile, or configures at most what it lists and reports everything else.  It may also admit
less: `tls_versions_usable` says which profiles leave every version they admit with a cipher.
-/
import Mathlib.Data.List.Basic
import Mathlib.Tactic.Common

/-! ## Versions, ciphers and curves -/

/-- `tls.VersionTLS12`. -/
def versionTLS12 : UInt16 := 0x0303

/-- `tls.VersionTLS13`. -/
def versionTLS13 : UInt16 := 0x0304

/-- `tlsVersions`. -/
def tlsVersions : List (String × UInt16) :=
  [("VersionTLS10", 0x0301), ("VersionTLS11", 0x0302), ("VersionTLS12", versionTLS12),
    ("VersionTLS13", versionTLS13)]

/-- `ianaCiphers`. -/
def ianaCiphers : List (String × UInt16) :=
  [("TLS_RSA_WITH_RC4_128_SHA", 0x0005),
    ("TLS_RSA_WITH_3DES_EDE_CBC_SHA", 0x000a),
    ("TLS_RSA_WITH_AES_128_CBC_SHA", 0x002f),
    ("TLS_RSA_WITH_AES_256_CBC_SHA", 0x0035),
    ("TLS_RSA_WITH_AES_128_CBC_SHA256", 0x003c),
    ("TLS_RSA_WITH_AES_128_GCM_SHA256", 0x009c),
    ("TLS_RSA_WITH_AES_256_GCM_SHA384", 0x009d),
    ("TLS_ECDHE_ECDSA_WITH_RC4_128_SHA", 0xc007),
    ("TLS_ECDHE_ECDSA_WITH_AES_128_CBC_SHA", 0xc009),
    ("TLS_ECDHE_ECDSA_WITH_AES_256_CBC_SHA", 0xc00a),
    ("TLS_ECDHE_RSA_WITH_RC4_128_SHA", 0xc011),
    ("TLS_ECDHE_RSA_WITH_3DES_EDE_CBC_SHA", 0xc012),
    ("TLS_ECDHE_RSA_WITH_AES_128_CBC_SHA", 0xc013),
    ("TLS_ECDHE_RSA_WITH_AES_256_CBC_SHA", 0xc014),
    ("TLS_ECDHE_ECDSA_WITH_AES_128_CBC_SHA256", 0xc023),
    ("TLS_ECDHE_RSA_WITH_AES_128_CBC_SHA256", 0xc027),
    ("TLS_ECDHE_RSA_WITH_AES_128_GCM_SHA256", 0xc02f),
    ("TLS_ECDHE_ECDSA_WITH_AES_128_GCM_SHA256", 0xc02b),
    ("TLS_ECDHE_RSA_WITH_AES_256_GCM_SHA384", 0xc030),
    ("TLS_ECDHE_ECDSA_WITH_AES_256_GCM_SHA384", 0xc02c),
    ("TLS_ECDHE_RSA_WITH_CHACHA20_POLY1305", 0xcca8),
    ("TLS_ECDHE_ECDSA_WITH_CHACHA20_POLY1305", 0xcca9),
    ("TLS_ECDHE_RSA_WITH_CHACHA20_POLY1305_SHA256", 0xcca8),
    ("TLS_ECDHE_ECDSA_WITH_CHACHA20_POLY1305_SHA256", 0xcca9),
    ("TLS_AES_128_GCM_SHA256", 0x1301),
    ("TLS_AES_256_GCM_SHA384", 0x1302),
    ("TLS_CHACHA20_POLY1305_SHA256", 0x1303)]

/-- `openSSLToIANA`. -/
def openSSLToIANA : List (String × String) :=
  [("TLS_AES_128_GCM_SHA256", "TLS_AES_128_GCM_SHA256"),
    ("TLS_AES_256_GCM_SHA384", "TLS_AES_256_GCM_SHA384"),
    ("TLS_CHACHA20_POLY1305_SHA256", "TLS_CHACHA20_POLY1305_SHA256"),
    ("ECDHE-ECDSA-AES128-GCM-SHA256", "TLS_ECDHE_ECDSA_WITH_AES_128_GCM_SHA256"),
    ("ECDHE-RSA-AES128-GCM-SHA256", "TLS_ECDHE_RSA_WITH_AES_128_GCM_SHA256"),
    ("ECDHE-ECDSA-AES256-GCM-SHA384", "TLS_ECDHE_ECDSA_WITH_AES_256_GCM_SHA384"),
    ("ECDHE-RSA-AES256-GCM-SHA384", "TLS_ECDHE_RSA_WITH_AES_256_GCM_SHA384"),
    ("ECDHE-ECDSA-CHACHA20-POLY1305", "TLS_ECDHE_ECDSA_WITH_CHACHA20_POLY1305_SHA256"),
    ("ECDHE-RSA-CHACHA20-POLY1305", "TLS_ECDHE_RSA_WITH_CHACHA20_POLY1305_SHA256"),
    ("ECDHE-ECDSA-AES128-SHA256", "TLS_ECDHE_ECDSA_WITH_AES_128_CBC_SHA256"),
    ("ECDHE-RSA-AES128-SHA256", "TLS_ECDHE_RSA_WITH_AES_128_CBC_SHA256"),
    ("AES128-GCM-SHA256", "TLS_RSA_WITH_AES_128_GCM_SHA256"),
    ("AES256-GCM-SHA384", "TLS_RSA_WITH_AES_256_GCM_SHA384"),
    ("AES128-SHA256", "TLS_RSA_WITH_AES_128_CBC_SHA256"),
    ("ECDHE-ECDSA-AES128-SHA", "TLS_ECDHE_ECDSA_WITH_AES_128_CBC_SHA"),
    ("ECDHE-RSA-AES128-SHA", "TLS_ECDHE_RSA_WITH_AES_128_CBC_SHA"),
    ("ECDHE-ECDSA-AES256-SHA", "TLS_ECDHE_ECDSA_WITH_AES_256_CBC_SHA"),
    ("ECDHE-RSA-AES256-SHA", "TLS_ECDHE_RSA_WITH_AES_256_CBC_SHA"),
    ("AES128-SHA", "TLS_RSA_WITH_AES_128_CBC_SHA"),
    ("AES256-SHA", "TLS_RSA_WITH_AES_256_CBC_SHA"),
    ("DES-CBC3-SHA", "TLS_RSA_WITH_3DES_EDE_CBC_SHA"),
    ("ECDHE-RSA-DES-CBC3-SHA", "TLS_ECDHE_RSA_WITH_3DES_EDE_CBC_SHA")]

/-- `curveIDs`. -/
def curveIDs : List (String × UInt16) :=
  [("X25519MLKEM768", 4588), ("X25519", 29), ("x25519", 29), ("secp256r1", 23),
    ("prime256v1", 23), ("P-256", 23), ("secp384r1", 24), ("P-384", 24), ("secp521r1", 25),
    ("P-521", 25)]

/-- `tls13CipherSuiteNames`. -/
def tls13CipherSuiteNames : List String :=
  ["TLS_AES_128_GCM_SHA256", "TLS_AES_256_GCM_SHA384", "TLS_CHACHA20_POLY1305_SHA256"]

/-- `tls13CipherSuiteIDs`. -/
def tls13CipherSuiteIDs : List UInt16 := [0x1301, 0x1302, 0x1303]

/-- The errors of the package. -/
inductive TlsErr : Type where
  | unknownVersion (versionName : String) : TlsErr
  | unknownCipher (cipherName : String) : TlsErr
  | noSupportedCiphers : TlsErr
  | noSupportedCurves : TlsErr
  deriving DecidableEq, Repr, Inhabited

/-- `tlsVersion`. -/
def tlsVersion (versionName : String) : Except TlsErr UInt16 :=
  if versionName = "" then .ok versionTLS12
  else
    match tlsVersions.lookup versionName with
    | some version => .ok version
    | none => .error (.unknownVersion versionName)

/-- `cipherSuite`. -/
def cipherSuite (cipherName : String) : Except TlsErr UInt16 :=
  match ianaCiphers.lookup cipherName with
  | some cipher => .ok cipher
  | none => .error (.unknownCipher cipherName)

/-- `openSSLToIANACipherSuites`. -/
def openSSLToIANACipherSuites (ciphers : List String) : List String :=
  ciphers.filterMap fun c => openSSLToIANA.lookup c

/-- `cipherCode`: the code of an OpenSSL or IANA name, zero when Go has none. -/
def cipherCode (cipher : String) : UInt16 :=
  match cipherSuite cipher with
  | .ok code => code
  | .error _ =>
    match openSSLToIANACipherSuites [cipher] with
    | [iana] =>
      match cipherSuite iana with
      | .ok code => code
      | .error _ => 0
    | _ => 0

/-- The loop of `cipherCodes` and `curveCodes`: the codes of the known names and the names
without one, both in the order of the list. -/
def codesOf (code : String → Option UInt16) : List String → List UInt16 × List String
  | [] => ([], [])
  | name :: rest =>
    let (codes, unsupported) := codesOf code rest
    match code name with
    | some c => (c :: codes, unsupported)
    | none => (codes, name :: unsupported)

/-- `cipherCodes`. -/
def cipherCodes (ciphers : List String) : List UInt16 × List String :=
  codesOf (fun cipher => if cipherCode cipher = 0 then none else some (cipherCode cipher)) ciphers

/-- `curveCodes`. -/
def curveCodes (curves : List String) : List UInt16 × List String :=
  codesOf (fun name => curveIDs.lookup name) curves

/-- `tls12CipherCodes`. -/
def tls12CipherCodes (codes : List UInt16) : List UInt16 :=
  codes.filter fun code => code ∉ tls13CipherSuiteIDs

/-! ## Profiles and configurations -/

/-- `TLSProfileSpec`. -/
structure TLSProfileSpec where
  ciphers : List String
  minTLSVersion : String
  curves : List String
  deriving DecidableEq, Repr, Inhabited

/-- `UnsupportedEntries`. -/
structure UnsupportedEntries where
  ciphers : List String := []
  curves : List String := []
  unenforceableCiphers : List String := []
  deriving DecidableEq, Repr, Inhabited

/-- The fields of a `tls.Config` a profile decides; `none` is the nil slice, which stands for
Go's defaults. -/
structure TlsConfig where
  minVersion : UInt16 := 0
  cipherSuites : Option (List UInt16) := none
  curvePreferences : Option (List UInt16) := none
  deriving DecidableEq, Repr, Inhabited

/-- `unenforceableTLS13Ciphers`. -/
def unenforceableTLS13Ciphers (profileCiphers : List String) : List String :=
  if profileCiphers = [] then []
  else tls13CipherSuiteNames.filter fun c => c ∉ profileCiphers

/-- The function `NewTLSConfigFromProfile` returns. -/
def configure (minVersion : UInt16) (tls12CipherSuites curves : List UInt16)
    (tlsConf : TlsConfig) : TlsConfig where
  minVersion := minVersion
  cipherSuites :=
    if minVersion ≠ versionTLS13 then some tls12CipherSuites else tlsConf.cipherSuites
  curvePreferences := if curves ≠ [] then some curves else tlsConf.curvePreferences

/-- `NewTLSConfigFromProfile`. -/
def newTLSConfigFromProfile (profile : TLSProfileSpec) :
    UnsupportedEntries × Except TlsErr (TlsConfig → TlsConfig) :=
  match tlsVersion profile.minTLSVersion with
  | .error err => ({}, .error err)
  | .ok minVersion =>
    let (cipherSuites, unsupportedCiphers) := cipherCodes profile.ciphers
    let (curves, unsupportedCurves) := curveCodes profile.curves
    let unsupported : UnsupportedEntries :=
      { ciphers := unsupportedCiphers
        curves := unsupportedCurves
        unenforceableCiphers := unenforceableTLS13Ciphers profile.ciphers }
    if profile.ciphers ≠ [] ∧ cipherSuites = [] ∧ minVersion < versionTLS13 then
      (unsupported, .error .noSupportedCiphers)
    else if profile.curves ≠ [] ∧ curves = [] then (unsupported, .error .noSupportedCurves)
    else
      let tls12CipherSuites := tls12CipherCodes cipherSuites
      -- without a TLS 1.2 cipher the profile is served with TLS 1.3 only
      let minVersion :=
        if profile.ciphers ≠ [] ∧ tls12CipherSuites = [] ∧ minVersion < versionTLS13 then
          versionTLS13
        else minVersion
      (unsupported, .ok (configure minVersion tls12CipherSuites curves))

/-! ## Known names -/

/-- What a profile asks for with the name of its minimum version: TLS 1.2 if it names none, and
nothing Go knows with any other name than these. -/
inductive Requests : String → UInt16 → Prop where
  | unnamed : Requests "" 0x0303
  | tls10 : Requests "VersionTLS10" 0x0301
  | tls11 : Requests "VersionTLS11" 0x0302
  | tls12 : Requests "VersionTLS12" 0x0303
  | tls13 : Requests "VersionTLS13" 0x0304

theorem tlsVersion_eq_ok_iff {versionName : String} {version : UInt16} :
    tlsVersion versionName = .ok version ↔ Requests versionName version := by
  constructor
  · intro h
    unfold tlsVersion at h
    split at h
    · rename_i hempty
      obtain rfl := Except.ok.inj h
      exact hempty ▸ .unnamed
    · split at h
      · rename_i listed hlookup
        obtain rfl := Except.ok.inj h
        obtain ⟨before, after, heq, -⟩ := List.lookup_eq_some_iff.mp hlookup
        have hentry : (versionName, listed) ∈ tlsVersions := by simp [heq]
        simp only [tlsVersions, List.mem_cons, Prod.mk.injEq, List.not_mem_nil, or_false]
          at hentry
        rcases hentry with ⟨rfl, rfl⟩ | ⟨rfl, rfl⟩ | ⟨rfl, rfl⟩ | ⟨rfl, rfl⟩
        · exact .tls10
        · exact .tls11
        · exact .tls12
        · exact .tls13
      · cases h
  · intro h
    cases h <;> rfl

/-- The minimum version of a profile with the minimum `version`: TLS 1.3 when nothing below it
is left. -/
def servedVersion (profile : TLSProfileSpec) (version : UInt16) : UInt16 :=
  if profile.ciphers ≠ [] ∧ tls12CipherCodes (cipherCodes profile.ciphers).1 = [] ∧
      version < versionTLS13 then versionTLS13
  else version

/-- Below TLS 1.3 there is a cipher to serve. -/
theorem tls12CipherCodes_ne_nil {profile : TLSProfileSpec} {version : UInt16}
    (hlisted : profile.ciphers ≠ []) (h : servedVersion profile version < versionTLS13) :
    tls12CipherCodes (cipherCodes profile.ciphers).1 ≠ [] := by
  intro hnil
  unfold servedVersion at h
  split at h
  · exact absurd h (UInt16.lt_irrefl _)
  · rename_i hraise
    exact hraise ⟨hlisted, hnil, h⟩

/-- **What an accepted profile becomes.** -/
theorem newTLSConfigFromProfile_ok {profile : TLSProfileSpec} {unsupported : UnsupportedEntries}
    {f : TlsConfig → TlsConfig} (h : newTLSConfigFromProfile profile = (unsupported, .ok f)) :
    ∃ version, tlsVersion profile.minTLSVersion = .ok version ∧
      (profile.curves ≠ [] → (curveCodes profile.curves).1 ≠ []) ∧
      unsupported = ⟨(cipherCodes profile.ciphers).2, (curveCodes profile.curves).2,
        unenforceableTLS13Ciphers profile.ciphers⟩ ∧
      f = configure (servedVersion profile version)
        (tls12CipherCodes (cipherCodes profile.ciphers).1) (curveCodes profile.curves).1 := by
  unfold newTLSConfigFromProfile at h
  split at h
  · cases h
  · rename_i version hversion
    dsimp only at h
    split at h
    · cases h
    · split at h
      · cases h
      · rename_i hcurves
        obtain ⟨rfl, hf⟩ := Prod.mk.inj h
        refine ⟨version, hversion, fun hlisted hnil => hcurves ⟨hlisted, hnil⟩, rfl, ?_⟩
        exact (Except.ok.inj hf).symm

/-- Below TLS 1.3 there are cipher suites to choose from: Go's defaults or a list that is not
empty, and the defaults when the profile does not restrict them.  Go takes a list that is empty
without being nil for no suite at all. -/
def Usable (profile : TLSProfileSpec) (tlsConf : TlsConfig) : Prop :=
  tlsConf.minVersion < versionTLS13 →
    tlsConf.cipherSuites ≠ some [] ∧ (profile.ciphers = [] → tlsConf.cipherSuites = none)

theorem tlsVersion_le {versionName : String} {version : UInt16}
    (h : tlsVersion versionName = .ok version) : version ≤ versionTLS13 := by
  cases tlsVersion_eq_ok_iff.mp h <;> decide

/-- A profile without ciphers is served from the version it names. -/
theorem servedVersion_of_nil {profile : TLSProfileSpec} (h : profile.ciphers = [])
    (version : UInt16) : servedVersion profile version = version := by
  unfold servedVersion
  rw [if_neg fun hraise => hraise.1 h]

/-- **When every admitted version is usable.**  What an accepted profile makes of the empty
configuration is usable exactly when the profile lists ciphers or starts at TLS 1.3. -/
theorem tls_versions_usable {profile : TLSProfileSpec} {unsupported : UnsupportedEntries}
    {f : TlsConfig → TlsConfig} (h : newTLSConfigFromProfile profile = (unsupported, .ok f)) :
    Usable profile (f {}) ↔
      profile.ciphers ≠ [] ∨ tlsVersion profile.minTLSVersion = .ok versionTLS13 := by
  obtain ⟨version, hversion, -, -, rfl⟩ := newTLSConfigFromProfile_ok h
  rw [hversion]
  constructor
  · intro husable
    by_contra hneither
    obtain ⟨hciphers, hold⟩ := not_or.mp hneither
    have hnil : profile.ciphers = [] := not_not.mp hciphers
    have hne : version ≠ versionTLS13 := fun heq => hold (by rw [heq])
    have hserved := servedVersion_of_nil hnil version
    have hlt : servedVersion profile version < versionTLS13 := by
      rw [hserved]
      exact UInt16.lt_of_le_of_ne (tlsVersion_le hversion) hne
    -- the list is empty, but it is set
    have hempty : (if servedVersion profile version ≠ versionTLS13 then
        some (tls12CipherCodes (cipherCodes profile.ciphers).1) else none) = none :=
      (husable hlt).2 hnil
    rw [hserved, if_pos hne] at hempty
    cases hempty
  · rintro hwhy hlt
    have hne : servedVersion profile version ≠ versionTLS13 := UInt16.ne_of_lt hlt
    have hlisted : profile.ciphers ≠ [] := by
      intro hnil
      rcases hwhy with hlisted | hlatest
      · exact hlisted hnil
      · rw [servedVersion_of_nil hnil, Except.ok.inj hlatest] at hne
        exact hne rfl
    refine ⟨fun hempty => ?_, fun hnil => absurd hnil hlisted⟩
    have hsuites : some (tls12CipherCodes (cipherCodes profile.ciphers).1) = some [] := by
      rw [← hempty]
      exact (if_pos hne).symm
    exact tls12CipherCodes_ne_nil hlisted hlt (Option.some.inj hsuites)

/-- A profile with one cipher of TLS 1.2. -/
theorem tls_versions_usable_listed : ∃ unsupported f,
    newTLSConfigFromProfile ⟨["ECDHE-RSA-AES128-GCM-SHA256"], "VersionTLS12", []⟩ =
      (unsupported, .ok f) ∧
    Usable ⟨["ECDHE-RSA-AES128-GCM-SHA256"], "VersionTLS12", []⟩ (f {}) :=
  ⟨_, _, rfl, (tls_versions_usable rfl).mpr (Or.inl (by decide))⟩

/-- A profile that restricts no cipher switches TLS 1.2 off, which it admits. -/
theorem tls_unrestricted_unusable : ∃ profile unsupported f,
    newTLSConfigFromProfile profile = (unsupported, .ok f) ∧ profile.ciphers = [] ∧
    (f {}).minVersion = versionTLS12 ∧ (f {}).cipherSuites = some [] ∧
    ¬ Usable profile (f {}) := by
  refine ⟨⟨[], "VersionTLS12", []⟩, _, _, rfl, rfl, by decide, by decide, ?_⟩
  intro husable
  exact absurd ((husable (by decide)).2 rfl) (by decide)
