import Mathlib.Data.List.Basic

/-! The git credential resolver (`internal/git/auth.go`, `internal/git/githubapp.go`):
`ResolveAuth` takes the first configured method of a `GitAuthSpec` (SSH key, token, GitHub App)
and builds its transport auth from a Secret; the GitHub App method exchanges the app's private
key for an installation token. Beside it, the agent's own file-mounted credentials
(`resolveFileAuth`). What the API server's `Get`, the PEM and x509 parsers, JWT signing, the HTTP
round trip and the JSON decoder answer are functions of their inputs, given as an `AuthWorld`. -/
namespace IgnitionSync.Git

/-- Modelled from the spec: a `SecretRef` of the CRD's auth types. -/
structure SecretKeyRef where
  name : String
  key : String
deriving DecidableEq, Repr

/-- Modelled from the spec: `stokerv1alpha1.GitHubAppAuth`, the fields the resolver reads. -/
structure GitHubAppAuth where
  appID : Int
  installationID : Int
  privateKeySecretRef : SecretKeyRef
  apiBaseURL : String
deriving DecidableEq, Repr

/-- Modelled from the spec: `stokerv1alpha1.GitAuthSpec` with its three methods. -/
structure GitAuthSpec where
  sshKey : Option SecretKeyRef
  token : Option SecretKeyRef
  gitHubApp : Option GitHubAppAuth
deriving DecidableEq, Repr

/-- The go-git `transport.AuthMethod`s the resolver builds. -/
inductive AuthMethod where
  | publicKeys (user pem : String)
  | basicAuth (username password : String)
deriving DecidableEq, Repr

structure JwtClaims where
  issuedAt : Int
  expiresAt : Int
  issuer : String
deriving DecidableEq, Repr

structure TokenRequest where
  method : String
  url : String
  authorization : String
  accept : String
deriving DecidableEq, Repr

/-- `GitHubAppTokenResult`. -/
structure TokenResult where
  token : String
  expiresAt : String
deriving DecidableEq, Repr

/-- What the Secret `Get`, the key parsers, JWT signing, HTTP, JSON and the clock answer. -/
structure AuthWorld where
  getSecret : String → String → Except String (List (String × String))
  sshKeyError : String → Option String
  pemDecode : String → Option (String × String)
  pkcs1Error : String → Option String
  pkcs8 : String → Except String Bool
  sign : String → JwtClaims → Except String String
  requestError : String → Option String
  send : TokenRequest → Except String Nat
  body : TokenRequest → Except String String
  decode : String → Except String (String × String)
  now : Int

/-- `defaultGitHubAPIURL`. -/
def defaultGitHubAPIURL : String := "https://api.github.com"

/-- `%q` of a text with no character Go escapes. -/
def quote (s : String) : String := "\"" ++ s ++ "\""

/-- `ParseRSAPrivateKey`: its error, if any. -/
def parseRSAPrivateKey (w : AuthWorld) (pemBytes : String) : Option String :=
  match w.pemDecode pemBytes with
  | none => some "no PEM block found"
  | some (type, bytes) =>
    if type = "RSA PRIVATE KEY" then w.pkcs1Error bytes
    else if type = "PRIVATE KEY" then
      match w.pkcs8 bytes with
      | .error err => some err
      | .ok isRSA => if isRSA then none else some "PKCS#8 key is not RSA"
    else some ("unsupported PEM block type: " ++ type)

def tokenURL (apiURL : String) (installationID : Int) : String :=
  apiURL ++ "/app/installations/" ++ toString installationID ++ "/access_tokens"

def appClaims (now appID : Int) : JwtClaims := ⟨now - 60, now + 600, toString appID⟩

def tokenRequest (apiURL : String) (installationID : Int) (jwtStr : String) : TokenRequest :=
  ⟨"POST", tokenURL apiURL installationID, "Bearer " ++ jwtStr, "application/vnd.github+json"⟩

/-- `ExchangeGitHubAppToken`: the request it sends, if any, and its result. -/
def exchangeGitHubAppToken (w : AuthWorld) (pemBytes : String) (appID installationID : Int)
    (apiURL : String) : Option TokenRequest × Except String TokenResult :=
  let apiURL := if apiURL = "" then defaultGitHubAPIURL else apiURL
  match parseRSAPrivateKey w pemBytes with
  | some err => (none, .error ("parsing PEM key: " ++ err))
  | none =>
    match w.sign pemBytes (appClaims w.now appID) with
    | .error err => (none, .error ("signing JWT: " ++ err))
    | .ok jwtStr =>
      match w.requestError (tokenURL apiURL installationID) with
      | some err => (none, .error ("creating request: " ++ err))
      | none =>
        let req := tokenRequest apiURL installationID jwtStr
        match w.send req, w.body req with
        | .error err, _ => (some req, .error ("exchanging token: " ++ err))
        | .ok _, .error err => (some req, .error ("reading response: " ++ err))
        | .ok status, .ok body =>
          if status ≠ 201 then
            (some req, .error ("GitHub API returned " ++ toString status ++ ": " ++ body))
          else
            match w.decode body with
            | .error err => (some req, .error ("parsing response: " ++ err))
            | .ok (token, expiresAt) => (some req, .ok ⟨token, expiresAt⟩)

/-- The Secret read the three resolvers share. -/
def secretValue (w : AuthWorld) (what ns : String) (ref : SecretKeyRef) : Except String String :=
  match w.getSecret ns ref.name with
  | .error err => .error ("getting " ++ what ++ " secret " ++ ns ++ "/" ++ ref.name ++ ": " ++ err)
  | .ok data =>
    match data.lookup ref.key with
    | none => .error ("key " ++ quote ref.key ++ " not found in secret " ++ ns ++ "/" ++ ref.name)
    | some value => .ok value

/-- `resolveSSHAuth`. -/
def resolveSSHAuth (w : AuthWorld) (ns : String) (ref : SecretKeyRef) : Except String AuthMethod :=
  match secretValue w "SSH key" ns ref with
  | .error err => .error err
  | .ok pemBytes =>
    match w.sshKeyError pemBytes with
    | some err => .error ("parsing SSH private key: " ++ err)
    | none => .ok (.publicKeys "git" pemBytes)

/-- `resolveTokenAuth`. -/
def resolveTokenAuth (w : AuthWorld) (ns : String) (ref : SecretKeyRef) :
    Except String AuthMethod :=
  match secretValue w "token" ns ref with
  | .error err => .error err
  | .ok token => .ok (.basicAuth "x-access-token" token)

/-- `resolveGitHubAppAuth`. -/
def resolveGitHubAppAuth (w : AuthWorld) (ns : String) (app : GitHubAppAuth) :
    Except String AuthMethod :=
  match secretValue w "GitHub App PEM" ns app.privateKeySecretRef with
  | .error err => .error err
  | .ok pemBytes =>
    match (exchangeGitHubAppToken w pemBytes app.appID app.installationID app.apiBaseURL).2 with
    | .error err => .error ("exchanging GitHub App token: " ++ err)
    | .ok result => .ok (.basicAuth "x-access-token" result.token)

/-- `ResolveAuth`. -/
def resolveAuth (w : AuthWorld) (ns : String) : Option GitAuthSpec → Except String (Option AuthMethod)
  | none => .ok none
  | some spec =>
    match spec.sshKey, spec.token, spec.gitHubApp with
    | some ref, _, _ => (resolveSSHAuth w ns ref).map some
    | none, some ref, _ => (resolveTokenAuth w ns ref).map some
    | none, none, some app => (resolveGitHubAppAuth w ns app).map some
    | none, none, none => .ok none

/-- `Agent.resolveFileAuth` (`internal/agent/agent.go`). -/
def resolveFileAuth (w : AuthWorld) (sshKey token : String) : Option AuthMethod :=
  if sshKey ≠ "" ∧ w.sshKeyError sshKey = none then some (.publicKeys "git" sshKey)
  else if token ≠ "" then some (.basicAuth "x-access-token" token)
  else none

section Lemmas

variable {w : AuthWorld}

theorem secretValue_eq_ok {what ns : String} {ref : SecretKeyRef} {v : String} :
    secretValue w what ns ref = .ok v ↔
      ∃ data, w.getSecret ns ref.name = .ok data ∧ data.lookup ref.key = some v := by
  unfold secretValue
  cases w.getSecret ns ref.name with
  | error err => simp
  | ok data => cases h : data.lookup ref.key <;> simp [h]

/-- Every error of a Secret read names the Secret, as `namespace/name`. -/
theorem secretValue_error_names_secret {what ns : String} {ref : SecretKeyRef} {e : String}
    (h : secretValue w what ns ref = .error e) :
    (" secret " ++ ns ++ "/" ++ ref.name).data <:+: e.data := by
  unfold secretValue at h
  split at h
  · rename_i err _
    cases h
    exact ⟨("getting " ++ what).data, (": " ++ err).data, by simp⟩
  · split at h
    · cases h
      exact ⟨("key " ++ quote ref.key ++ " not found in").data, [], by simp⟩
    · cases h

/-- `ParseRSAPrivateKey` accepts exactly an RSA key: a PKCS#1 block that parses, or a PKCS#8
block whose key is RSA. -/
theorem parseRSAPrivateKey_eq_none {pemBytes : String} :
    parseRSAPrivateKey w pemBytes = none ↔ ∃ type bytes, w.pemDecode pemBytes = some (type, bytes) ∧
      (type = "RSA PRIVATE KEY" ∧ w.pkcs1Error bytes = none ∨
        type = "PRIVATE KEY" ∧ w.pkcs8 bytes = .ok true) := by
  unfold parseRSAPrivateKey
  cases hd : w.pemDecode pemBytes with
  | none => simp
  | some block =>
    obtain ⟨type, bytes⟩ := block
    simp only [Option.some.injEq, Prod.mk.injEq, exists_and_left, exists_eq_left', and_assoc,
      exists_eq_left]
    by_cases h1 : type = "RSA PRIVATE KEY"
    · simp [h1]
    · by_cases h2 : type = "PRIVATE KEY"
      · cases h : w.pkcs8 bytes with
        | error err => simp [h1, h2, h]
        | ok isRSA => cases isRSA <;> simp [h1, h2, h]
      · simp [h1, h2]

theorem resolveSSHAuth_error {ns : String} {ref : SecretKeyRef} {e : String}
    (h : resolveSSHAuth w ns ref = .error e) :
    (" secret " ++ ns ++ "/" ++ ref.name).data <:+: e.data ∨ ∃ err, e = "parsing SSH private key: " ++ err := by
  unfold resolveSSHAuth at h
  cases hv : secretValue w "SSH key" ns ref with
  | error err =>
    rw [hv] at h
    cases h
    exact .inl (secretValue_error_names_secret hv)
  | ok pem =>
    rw [hv] at h
    cases hk : w.sshKeyError pem <;> simp only [hk, Except.error.injEq, reduceCtorEq] at h
    exact .inr ⟨_, h.symm⟩

theorem resolveTokenAuth_error {ns : String} {ref : SecretKeyRef} {e : String}
    (h : resolveTokenAuth w ns ref = .error e) : (" secret " ++ ns ++ "/" ++ ref.name).data <:+: e.data := by
  unfold resolveTokenAuth at h
  cases hv : secretValue w "token" ns ref with
  | error err =>
    rw [hv] at h
    cases h
    exact secretValue_error_names_secret hv
  | ok token => simp only [hv, reduceCtorEq] at h

theorem resolveGitHubAppAuth_error {ns : String} {app : GitHubAppAuth} {e : String}
    (h : resolveGitHubAppAuth w ns app = .error e) :
    (" secret " ++ ns ++ "/" ++ app.privateKeySecretRef.name).data <:+: e.data ∨
      ∃ err, e = "exchanging GitHub App token: " ++ err := by
  unfold resolveGitHubAppAuth at h
  cases hv : secretValue w "GitHub App PEM" ns app.privateKeySecretRef with
  | error err =>
    rw [hv] at h
    cases h
    exact .inl (secretValue_error_names_secret hv)
  | ok pem =>
    rw [hv] at h
    cases hx : (exchangeGitHubAppToken w pem app.appID app.installationID app.apiBaseURL).2 <;>
      simp only [hx, Except.error.injEq, reduceCtorEq] at h
    exact .inr ⟨_, h.symm⟩

theorem map_some_eq_error {x : Except String AuthMethod} {e : String} (h : x.map some = .error e) :
    x = .error e := by
  cases x <;> cases h
  rfl

/-- Every error `ResolveAuth` returns says where it failed: it names, as `namespace/name`, a
Secret of the spec it read, or it is the SSH key's parse error or the token exchange's. -/
theorem resolveAuth_error {ns : String} {spec : GitAuthSpec} {e : String}
    (h : resolveAuth w ns (some spec) = .error e) :
    (∃ ref, (spec.sshKey = some ref ∨ spec.token = some ref ∨
        spec.gitHubApp.map (·.privateKeySecretRef) = some ref) ∧
      (" secret " ++ ns ++ "/" ++ ref.name).data <:+: e.data) ∨
      (∃ err, e = "parsing SSH private key: " ++ err) ∨ ∃ err, e = "exchanging GitHub App token: " ++ err := by
  obtain ⟨ssh, token, app⟩ := spec
  rcases ssh with _ | ref
  · rcases token with _ | ref
    · rcases app with _ | app
      · cases h
      · rcases resolveGitHubAppAuth_error (map_some_eq_error h) with h | h
        · exact .inl ⟨_, .inr (.inr rfl), h⟩
        · exact .inr (.inr h)
    · exact .inl ⟨ref, .inr (.inl rfl), resolveTokenAuth_error (map_some_eq_error h)⟩
  · rcases resolveSSHAuth_error (map_some_eq_error h) with h | h
    · exact .inl ⟨ref, .inl rfl, h⟩
    · exact .inr (.inl h)

end Lemmas

end IgnitionSync.Git
