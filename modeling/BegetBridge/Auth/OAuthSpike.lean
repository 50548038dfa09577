import BegetBridge.Auth.AuthStore
import BegetBridge.Auth.ClientRegistry

/-!
# The OAuth endpoints

`OAuthSpike` as programs over the statements of the auth database with a private memory: pending
transactions, authorization codes and access tokens, each keyed by the digest of the secret that
the client holds. A call takes the readings of the clock in the order in which the source takes
them, and the random values it would draw.

`beginAuthorization` awaits the client registry. It is cut there into the call, the answer of the
registry and the resumption, so that other calls may run in between.

## Main definitions

* `OAuthSpike`: what the constructor fixes
* `Memory`: the maps of the process
* `OAuthSpike.beginAuthorization`, `approve`, `exchange`, `revoke`, `authenticate`: the endpoints
* `OAuthCall`, `OAuthReply`: a call and what it returns
-/

namespace BegetBridge.Auth

open Core Relational Interleaving

/-- What the constructor fixes. `ownerId` is `none` without a durable store: the source asks for
the store and the owner together. -/
structure OAuthSpike where
  store : AuthStore
  ownerId : Option String
  issuer : String
  resource : String
  approvalSecret : String
  scopes : List String := ["files:read"]
  registry : CimdRegistry := {}
  transactionTtlMs : Int := 5 * 60 * 1000
  codeTtlMs : Int := 2 * 60 * 1000
  accessTokenTtlMs : Int := 10 * 60 * 1000
  refreshTokenTtlMs : Int := 30 * 24 * 60 * 60 * 1000
  grantTtlMs : Int := 24 * 60 * 60 * 1000
  maxPendingTransactions : Nat := 128
  executionProfile : String := "files-read"

/-! ## Memory -/

structure Transaction where
  clientId : String
  redirectUri : String
  resource : String
  codeChallenge : String
  scopes : List String
  state : String
  expiresAt : Instant
  deriving DecidableEq, Repr

structure CodeRecord extends Transaction where
  grantId : Option String
  ownerId : Option String
  executionProfile : Option String
  deriving DecidableEq, Repr

structure TokenRecord where
  clientId : String
  resource : String
  scopes : List String
  grantId : Option String
  ownerId : Option String
  executionProfile : Option String
  grantExpiresAt : Option Instant
  tokenFamilyId : Option String
  expiresAt : Instant
  deriving DecidableEq, Repr

/-- A begun authorization that awaits the registry; `verdict` is the registry's answer. -/
structure Awaiting where
  clientId : String
  redirectUri : String
  resource : String
  codeChallenge : String
  scope : Option String
  state : String
  verdict : Option (Except Thrown Unit)

/-- The maps of the process, the cache of the registry, and the client of the DCR registry. -/
structure Memory where
  transactions : KeyedMap String Transaction
  codes : KeyedMap String CodeRecord
  tokens : KeyedMap String TokenRecord
  cache : KeyedMap String Metadata
  awaiting : KeyedMap Nat Awaiting
  begun : Nat
  dcrClientId : String

/-- The maps of a new process. -/
def Memory.initial (dcrClientId : String) : Memory := ⟨∅, ∅, ∅, ∅, ∅, 0, dcrClientId⟩

/-- The maps without their expired entries. -/
def Memory.sweep (m : Memory) (now : Instant) : Memory :=
  { m with
    transactions := m.transactions.retain fun t => decide (now < t.expiresAt)
    codes := m.codes.retain fun c => decide (now < c.expiresAt)
    tokens := m.tokens.retain fun t => decide (now < t.expiresAt) }

/-- The random values a call would draw: four of `randomToken()` and two of `randomUUID()`. -/
structure Draws where
  transactionId : String
  code : String
  accessToken : String
  refreshToken : String
  grantId : String
  familyId : String
  token_pattern : ∀ t ∈ [transactionId, code, accessToken, refreshToken],
    within idChar 43 43 t = true
  uuid_pattern : ∀ id ∈ [grantId, familyId], within idChar 36 36 id = true

/-- What the environment gives a call: `clock k` is its `k`-th reading of the clock, which is a
date. -/
structure Env where
  clock : Nat → Instant
  dated : ∀ k, (clock k).natAbs ≤ maxTime
  draws : Draws

theorem Env.isoText_clock (env : Env) (k : Nat) : isoText (env.clock k) = some (env.clock k) :=
  if_pos (env.dated k)

/-- Programs of the process. -/
abbrev SpikeM (α : Type) := Process Sql SqlError Thrown Memory α

/-- `throw oauthError(code, description, status)`, unless the condition holds. -/
def require (c : Prop) [Decidable c] (e : OAuthError) : SpikeM Unit :=
  if c then pure () else throw (.oauth e)

/-- A pure check that may throw. -/
def SpikeM.check {α : Type} : Except Thrown α → SpikeM α
  | .ok a => pure a
  | .error e => throw e

/-- An operation of the store within `try { … } catch (error) { … }`. -/
def tryStore {α : Type} (p : AuthM α) : SpikeM (Except Failure α) := Process.perform p.run

/-- `try { … } catch { throw oauthError("temporarily_unavailable", description, 503) }`. -/
def storeOr {α : Type} (p : AuthM α) (description : String) : SpikeM α := do
  match ← tryStore p with
  | .ok a => return a
  | .error _ => throw (.oauth (oauthError .temporarilyUnavailable description 503))

/-- An operation whose argument `new Date(ms).toISOString()` throws where there is no such
date. -/
def withDate {α : Type} (ms : Instant) (p : Option Instant → AuthM α) : AuthM α :=
  match isoText ms with
  | some t => p (some t)
  | none => throw (.auth (authError .invalidAuthRecord "Invalid time value"))

/-! ## Replies -/

/-- What `beginAuthorization` returns. -/
structure TransactionPage where
  id : String
  clientId : String
  resource : String
  scopes : List String
  executionProfile : String
  deriving DecidableEq, Repr

/-- The redirect of `approve`: the registered URI with `code`, `state` and `iss` set. -/
structure Redirect where
  target : Url
  code : String
  state : Option String
  iss : String
  deriving DecidableEq, Repr

structure TokenResponse where
  accessToken : String
  expiresIn : Int
  scope : String
  refreshToken : Option String
  deriving DecidableEq, Repr

/-- What `authenticate` returns, its `kind` left out. -/
structure Authorization where
  clientId : String
  scopes : List String
  ownerId : Option String
  grantId : Option String
  executionProfile : Option String
  grantExpiresAt : Option Instant
  deriving DecidableEq, Repr

/-- What `register` of the DCR registry returns. -/
structure Registration where
  clientId : String
  redirectUri : String
  scope : String
  deriving DecidableEq, Repr

namespace OAuthSpike

variable (O : OAuthSpike)

/-- `digest(value)` -/
def digest (value : String) : String := O.store.platform.sha256Hex value

/-- `cleanup()` -/
def cleanup (env : Env) : SpikeM Unit := modify fun m => m.sweep (env.clock 0)

/-- The client of the DCR registry: a durable one with its prefix, or the derived one. -/
def dcrClient : AuthM String := do
  let derived := "dcr_" ++ O.store.platform.hmacBase64Url O.approvalSecret
    "DP-012 ChatGPT DCR public client v1"
  match O.ownerId with
  | none => return derived
  | some ownerId =>
    let durable ← O.store.findActiveClient ownerId defaultChatGptRedirectUri "dcr_"
    return (durable.map (·.clientId)).getD derived

/-! ## Clients -/

/-- `persistClient`; it reads the clock as reading 1. -/
def persistClient (env : Env) (clientId redirectUri : String) : SpikeM Unit :=
  match O.ownerId with
  | none => pure ()
  | some ownerId => do
    let _ ← storeOr (withDate (env.clock 1) fun createdAt =>
      O.store.registerClient clientId ownerId redirectUri createdAt)
      "OAuth client state could not be persisted"
    return ()

/-- `registerClient(document)` -/
def registerClient (env : Env) (document : RegistrationDocument) : SpikeM Registration := do
  require (dcrAccepts document) (oauthError .invalidClientMetadata
    "Only the ChatGPT public authorization-code client is supported")
  let m ← get
  persistClient O env m.dcrClientId defaultChatGptRedirectUri
  return ⟨m.dcrClientId, defaultChatGptRedirectUri, " ".intercalate O.scopes⟩

/-! ## Begin -/

/-- The transaction of a begun authorization. -/
def transaction (env : Env) (a : Awaiting) (scopes : List String) : Transaction :=
  ⟨a.clientId, a.redirectUri, a.resource, a.codeChallenge, scopes, a.state,
    env.clock 2 + O.transactionTtlMs⟩

/-- What `beginAuthorization` does after the registry has accepted the client. -/
def finishBegin (env : Env) (a : Awaiting) : SpikeM TransactionPage := do
  persistClient O env a.clientId a.redirectUri
  let scopes ← SpikeM.check (parseScope a.scope O.scopes)
  let m ← get
  require (m.transactions.size < O.maxPendingTransactions)
    (oauthError .temporarilyUnavailable "Too many pending authorization transactions" 503)
  let id := env.draws.transactionId
  modify fun m => { m with
    transactions := m.transactions.insert (O.digest id) (O.transaction env a scopes) }
  return ⟨id, a.clientId, a.resource, scopes, O.executionProfile⟩

/-- `beginAuthorization(params)` up to the registry: a page for a DCR client, and for a client
with a metadata document the number under which the call awaits the registry. -/
def beginAuthorization (env : Env) (params : Params) : SpikeM (Nat ⊕ TransactionPage) := do
  cleanup env
  let responseType ← SpikeM.check (requireString params "response_type")
  require (responseType = "code")
    (oauthError .unsupportedResponseType "Only response_type=code is supported")
  let clientId ← SpikeM.check (requireString params "client_id")
  let redirectUri ← SpikeM.check (requireString params "redirect_uri")
  let resource ← SpikeM.check (requireString params "resource")
  require (resource = O.resource)
    (oauthError .invalidTarget "resource does not match this MCP server")
  let codeChallenge ← SpikeM.check (requireString params "code_challenge")
  let method ← SpikeM.check (requireString params "code_challenge_method")
  require (method = "S256") (oauthError .invalidRequest "PKCE S256 is required")
  require (codeChallengePattern codeChallenge)
    (oauthError .invalidRequest "code_challenge is not a valid S256 challenge")
  let m ← get
  let call : Awaiting := ⟨clientId, redirectUri, resource, codeChallenge, params.get "scope",
    (params.get "state").getD "", none⟩
  if startsWith clientId "dcr_" then
    SpikeM.check (dcrValidate m.dcrClientId clientId redirectUri)
    return .inr (← finishBegin O env call)
  else
    SpikeM.check (O.registry.admits O.store.platform clientId)
    -- a fresh document in the cache decides at once, before the call resumes
    let cached := (m.cache.lookup clientId).filter fun metadata =>
      decide (env.clock 1 < metadata.expiresAt)
    let verdict := cached.map fun metadata => listsRedirect metadata.redirectUris redirectUri
    modify fun m => { m with
      awaiting := m.awaiting.insert m.begun { call with verdict := verdict }, begun := m.begun + 1 }
    return .inl m.begun

/-- The rest of `validate` once the metadata document of an awaiting call has been fetched. -/
def registryAnswers (env : Env) (n : Nat) (fetched : Fetched) : SpikeM Unit := do
  let m ← get
  match m.awaiting.lookup n with
  | none => return ()
  | some a =>
    if a.verdict.isSome then return ()
    else
      match O.registry.checkResponse a.clientId fetched with
      | .error e =>
        modify fun m => { m with
          awaiting := m.awaiting.insert n { a with verdict := some (.error e) } }
      | .ok uris =>
        modify fun m => { m with
          cache := m.cache.insert a.clientId ⟨uris, env.clock 0 + O.registry.cacheTtlMs⟩
          awaiting := m.awaiting.insert n
            { a with verdict := some (listsRedirect uris a.redirectUri) } }

/-- The rest of `beginAuthorization` once the registry has answered. -/
def resume (env : Env) (n : Nat) : SpikeM (Option TransactionPage) := do
  let m ← get
  match m.awaiting.lookup n with
  | none => return none
  | some a =>
    match a.verdict with
    | none => return none
    | some verdict =>
      modify fun m => { m with awaiting := m.awaiting.erase n }
      SpikeM.check verdict
      return some (← finishBegin O env a)

/-! ## Approve -/

/-- The grant `approve` creates in a durable store. -/
def approvedGrant (env : Env) (t : Transaction) : SpikeM (Option GrantRow) :=
  match O.ownerId with
  | none => pure none
  | some ownerId =>
    storeOr (withDate (env.clock 1) fun grantedAt => withDate (env.clock 1 + O.grantTtlMs)
      fun expiresAt => O.store.createGrant env.draws.grantId ownerId t.clientId t.resource t.scopes
        O.executionProfile grantedAt expiresAt)
      "Authorization grant could not be persisted"

/-- The record of an authorization code. -/
def codeRecord (env : Env) (t : Transaction) (grant : Option GrantRow) : CodeRecord :=
  { t with
    grantId := grant.map (·.id)
    ownerId := grant.map (·.ownerId)
    executionProfile := grant.map (·.executionProfile)
    expiresAt := env.clock 1 + O.codeTtlMs }

/-- `approve({ transactionId, approvalSecret })` -/
def approve (env : Env) (transactionId approvalSecret : Option String) : SpikeM Redirect := do
  cleanup env
  let key := O.digest (transactionId.getD "")
  let m ← get
  match m.transactions.lookup key with
  | none => throw (.oauth (oauthError .invalidRequest
      "Authorization transaction is invalid or expired"))
  | some transaction =>
    modify fun m => { m with transactions := m.transactions.erase key }
    require (approvalSecret.getD "" = O.approvalSecret)
      (oauthError .accessDenied "Owner approval was not accepted" 403)
    let durableGrant ← approvedGrant O env transaction
    let code := env.draws.code
    modify fun m => { m with
      codes := m.codes.insert (O.digest code) (O.codeRecord env transaction durableGrant) }
    match O.store.platform.parseUrl transaction.redirectUri with
    | none => throw (.native "Invalid URL")
    | some url =>
      return ⟨url, code, if transaction.state = "" then none else some transaction.state, O.issuer⟩

/-! ## Exchange -/

/-- The record of an access token. -/
def tokenRecord (clientId resource : String) (scopes : List String) (grant : Option GrantRow)
    (family : Option FamilyRow) (expiresAt : Instant) : TokenRecord where
  clientId := clientId
  resource := resource
  scopes := scopes
  grantId := grant.map (·.id)
  ownerId := grant.map (·.ownerId)
  executionProfile := grant.map (·.executionProfile)
  grantExpiresAt := grant.map (·.expiresAt)
  tokenFamilyId := family.map (·.id)
  expiresAt := expiresAt

/-- `issueAccessToken` -/
def issueAccessToken (env : Env) (clientId resource : String) (scopes : List String)
    (grant : Option GrantRow) (family : Option FamilyRow) (issuedAt : Instant)
    (refreshToken : Option String) : SpikeM TokenResponse := do
  let expiresAt := match grant with
    | some grant => min (issuedAt + O.accessTokenTtlMs) grant.expiresAt
    | none => issuedAt + O.accessTokenTtlMs
  require (issuedAt < expiresAt) (oauthError .invalidGrant "Authorization grant has expired")
  let accessToken := env.draws.accessToken
  modify fun m => { m with
    tokens := m.tokens.insert (O.digest accessToken)
      (tokenRecord clientId resource scopes grant family expiresAt) }
  return ⟨accessToken, (expiresAt - issuedAt) / 1000, " ".intercalate scopes, refreshToken⟩

/-- The durable grant behind a code, still as the code records it. -/
def redeemedGrant (env : Env) (ownerId : String) (code : CodeRecord) : SpikeM GrantRow := do
  let inactive := oauthError .invalidGrant
    "Authorization grant is inactive or does not match the authorization code"
  -- `id = NULL` matches no row
  let found ← storeOr (withDate (env.clock 1) fun now =>
    match code.grantId with
    | none => pure none
    | some id => AuthStore.getGrant id now) "Authorization grant state is unavailable"
  match found with
  | none => throw (.oauth inactive)
  | some grant =>
    require (grant.status = .active ∧ grant.ownerId = ownerId ∧ grant.clientId = code.clientId ∧
      grant.resource = code.resource ∧ sameStrings grant.scopes code.scopes) inactive
    return grant

/-- The family and first refresh token of a redeemed code. -/
def openFamily (env : Env) (grant : GrantRow) : SpikeM (Option FamilyRow) :=
  let issuedAt := env.clock 2
  storeOr (withDate issuedAt fun createdAt =>
    withDate (min (issuedAt + O.refreshTokenTtlMs) grant.expiresAt) fun expiresAt =>
      O.store.createTokenFamily env.draws.familyId grant.id grant.ownerId grant.clientId
        grant.resource env.draws.refreshToken createdAt expiresAt)
    "Refresh token state could not be persisted"

/-- The checks of `exchangeAuthorizationCode` against the code's record. -/
def checkCode (params : Params) (code : CodeRecord) : Except Thrown Unit := do
  let exact (name expected : String) (e : OAuthError) : Except Thrown Unit := do
    let actual ← requireString params name
    if actual = expected then pure () else throw (.oauth e)
  exact "client_id" code.clientId
    (oauthError .invalidGrant "client_id does not match authorization code")
  exact "redirect_uri" code.redirectUri
    (oauthError .invalidGrant "redirect_uri does not match authorization code")
  exact "resource" code.resource
    (oauthError .invalidTarget "resource does not match authorization code")
  let verifier ← requireString params "code_verifier"
  if pkceVerifierPattern verifier then
    if O.store.platform.sha256Base64Url verifier = code.codeChallenge then pure ()
    else throw (.oauth (oauthError .invalidGrant "PKCE verification failed"))
  else throw (.oauth (oauthError .invalidGrant "PKCE code_verifier is invalid"))

/-- `exchangeAuthorizationCode(params)` -/
def exchangeAuthorizationCode (env : Env) (params : Params) : SpikeM TokenResponse := do
  let value ← SpikeM.check (requireString params "code")
  let key := O.digest value
  let m ← get
  match m.codes.lookup key with
  | none => throw (.oauth (oauthError .invalidGrant "Authorization code is invalid or expired"))
  | some code =>
    modify fun m => { m with codes := m.codes.erase key }
    SpikeM.check (O.checkCode params code)
    match O.ownerId with
    | none => issueAccessToken O env code.clientId code.resource code.scopes none none (env.clock 2) none
    | some ownerId =>
      let grant ← redeemedGrant env ownerId code
      let family ← openFamily O env grant
      issueAccessToken O env code.clientId code.resource code.scopes (some grant) family (env.clock 2)
        (some env.draws.refreshToken)

/-- The failure of a rotation, as the client sees it. -/
def rotationError : Failure → OAuthError
  | .auth e =>
    if e.code ∈ [.invalidRefreshToken, .refreshInactive, .refreshReuseDetected] then
      oauthError .invalidGrant "Refresh token is invalid, expired, revoked or reused"
    else oauthError .temporarilyUnavailable "Refresh token state is unavailable" 503
  | .sql _ => oauthError .temporarilyUnavailable "Refresh token state is unavailable" 503

/-- `exchangeRefreshToken(params)` -/
def exchangeRefreshToken (env : Env) (params : Params) : SpikeM TokenResponse := do
  require O.ownerId.isSome
    (oauthError .unsupportedGrantType "Durable refresh tokens are unavailable")
  let refreshToken ← SpikeM.check (requireString params "refresh_token")
  let clientId ← SpikeM.check (requireString params "client_id")
  let resource ← SpikeM.check (requireString params "resource")
  require (resource = O.resource)
    (oauthError .invalidTarget "resource does not match this MCP server")
  let nextRefreshToken := env.draws.refreshToken
  match ← tryStore (withDate (env.clock 1) fun now =>
    O.store.rotateRefreshToken refreshToken nextRefreshToken clientId resource now) with
  | .error e => throw (.oauth (rotationError e))
  | .ok rotated =>
    match rotated.family, rotated.grant with
    | some family, some grant =>
      require (family.status = .active ∧ grant.status = .active)
        (oauthError .invalidGrant "Refresh token family is inactive")
      let scopes ← match (params.get "scope").filter (· ≠ "") with
        | some scope => SpikeM.check (parseScope (some scope) O.scopes)
        | none => pure grant.scopes
      require (sameStrings scopes grant.scopes)
        (oauthError .invalidScope "Refresh cannot change the approved scope set")
      issueAccessToken O env grant.clientId grant.resource grant.scopes (some grant) (some family)
        (env.clock 2) (some nextRefreshToken)
    | _, _ => throw (.oauth (oauthError .invalidGrant "Refresh token family is inactive"))

/-- `exchange(params, { authorizationHeader })` -/
def exchange (env : Env) (params : Params) (authorizationHeader : Option String) :
    SpikeM TokenResponse := do
  cleanup env
  require (authorizationHeader.all (· = "")) (oauthError .invalidClient
    "Token endpoint client authentication is not supported" 401)
  let grantType ← SpikeM.check (requireString params "grant_type")
  if grantType = "authorization_code" then exchangeAuthorizationCode O env params
  else if grantType = "refresh_token" then exchangeRefreshToken O env params
  else throw (.oauth (oauthError .unsupportedGrantType
    "Only authorization_code and refresh_token are supported"))

/-! ## Revoke and authenticate -/

/-- `revoke(params)` -/
def revoke (env : Env) (params : Params) : SpikeM Unit := do
  cleanup env
  let token ← SpikeM.check (requireString params "token")
  let clientId := (params.get "client_id").filter (· ≠ "")
  let accessKey := O.digest token
  let m ← get
  match (m.tokens.lookup accessKey).filter fun access => clientId.all (access.clientId = ·) with
  | some access =>
    modify fun m => { m with tokens := m.tokens.erase accessKey }
    match O.ownerId, access.tokenFamilyId with
    | some _, some familyId =>
      let _ ← storeOr (withDate (env.clock 1) fun revokedAt =>
        AuthStore.revokeTokenFamily familyId (access.ownerId.getD "") revokedAt "client_revoke")
        "Token revocation state is unavailable"
      return ()
    | _, _ => return ()
  | none =>
    match O.ownerId with
    | none => return ()
    | some _ =>
      let _ ← storeOr (withDate (env.clock 1) fun revokedAt =>
        O.store.revokeRefreshToken token clientId revokedAt "client_revoke")
        "Token revocation state is unavailable"
      return ()

/-- The live check of the grant behind an access token; a failing store fails the check. -/
def grantStands (env : Env) (record : TokenRecord) : SpikeM Bool := do
  match ← tryStore (withDate (env.clock 2) fun now =>
    match record.grantId with
    | none => pure none
    | some id => AuthStore.getGrant id now) with
  | .ok (some grant) =>
    return decide (grant.status = .active ∧ some grant.ownerId = record.ownerId ∧
      grant.clientId = record.clientId ∧ grant.resource = record.resource ∧
      some grant.executionProfile = record.executionProfile) &&
      sameStrings grant.scopes record.scopes
  | _ => return false

/-- The live check of the token family; a failing store fails the check. -/
def familyStands (env : Env) (record : TokenRecord) (familyId : String) : SpikeM Bool := do
  match ← tryStore (withDate (env.clock 3) fun now =>
    AuthStore.getTokenFamily .check familyId now) with
  | .ok (some family) =>
    return decide (family.status = .active ∧ some family.grantId = record.grantId ∧
      some family.ownerId = record.ownerId ∧ family.clientId = record.clientId ∧
      family.resource = record.resource)
  | _ => return false

/-- The live checks behind an access token, with a durable store. -/
def recordStands (env : Env) (record : TokenRecord) : SpikeM Bool :=
  match O.ownerId with
  | none => pure true
  | some _ => do
    if ← grantStands env record then
      match record.tokenFamilyId with
      | none => return true
      | some familyId => familyStands env record familyId
    else return false

/-- `authenticate(authorizationHeader)` -/
def authenticate (env : Env) (header : Option String) : SpikeM (Option Authorization) := do
  cleanup env
  match bearerToken header with
  | none => return none
  | some token =>
    let m ← get
    match m.tokens.lookup (O.digest token) with
    | none => return none
    | some record =>
      if record.resource ≠ O.resource ∨ record.expiresAt ≤ env.clock 1 then return none
      else if ← recordStands O env record then
        return some ⟨record.clientId, record.scopes, record.ownerId, record.grantId,
          record.executionProfile, record.grantExpiresAt⟩
      else return none

end OAuthSpike

/-! ## Calls -/

/-- A call of the endpoints, or an answer that a suspended call receives. -/
inductive OAuthCall
  | registerClient (document : RegistrationDocument)
  | beginAuthorization (params : Params)
  | registryAnswers (n : Nat) (fetched : Fetched)
  | resume (n : Nat)
  | approve (transactionId approvalSecret : Option String)
  | exchange (params : Params) (authorizationHeader : Option String)
  | revoke (params : Params)
  | authenticate (header : Option String)
  deriving DecidableEq, Repr

inductive OAuthReply
  | registered (registration : Registration)
  | suspended (n : Nat)
  | page (page : TransactionPage)
  | redirect (redirect : Redirect)
  | tokens (response : TokenResponse)
  | authorized (authorization : Option Authorization)
  | done
  deriving DecidableEq, Repr

/-- The program of a call. -/
def OAuthCall.program (O : OAuthSpike) (env : Env) : OAuthCall → SpikeM OAuthReply
  | .registerClient document => .registered <$> O.registerClient env document
  | .beginAuthorization params => do
    match ← O.beginAuthorization env params with
    | .inl n => return .suspended n
    | .inr page => return .page page
  | .registryAnswers n fetched => do
    O.registryAnswers env n fetched
    return .done
  | .resume n => do
    match ← O.resume env n with
    | some page => return .page page
    | none => return .done
  | .approve transactionId approvalSecret =>
    .redirect <$> O.approve env transactionId approvalSecret
  | .exchange params header => .tokens <$> O.exchange env params header
  | .revoke params => do
    O.revoke env params
    return .done
  | .authenticate header => .authorized <$> O.authenticate env header

end BegetBridge.Auth
