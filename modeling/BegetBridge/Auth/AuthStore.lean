import BegetBridge.Auth.Statements

/-!
# The auth store

The operations of `AuthStore` as programs over the statements of its database, in the order in
which the source performs them. A date argument is the result of `Date.parse`; an optional one
that the source fills from the clock is passed by the caller, and so are random identifiers.

## Main definitions

* `AuthM`: programs over the statements that may throw
* `AuthStore`: the platform and the supported scopes
* `AuthStore.createTokenFamily`, `AuthStore.rotateRefreshToken`, `AuthStore.resetOwnerAccess`, …:
  the operations
* `StoreCall`: an operation with its arguments
-/

namespace BegetBridge.Auth

open Relational Interleaving Core

/-- What an operation throws: an `AuthStoreError`, or the error of a statement. -/
inductive Failure
  | auth (e : AuthStoreError)
  | sql (e : SqlError)
  deriving DecidableEq, Repr

/-- Programs over the statements of the store that may throw. -/
abbrev AuthM (α : Type) := ExceptT Failure (Prog Sql SqlError) α

/-- `if (!c) throw e` -/
def ensure (c : Prop) [Decidable c] (e : AuthStoreError) : AuthM Unit :=
  if c then pure () else throw (.auth e)

/-- A pure check that may throw. -/
def checked {α : Type} : Except AuthStoreError α → AuthM α
  | .ok a => pure a
  | .error e => throw (.auth e)

/-- A statement whose error the caller handles. -/
def attempt {β : Type} (op : Sql β) : AuthM (Except SqlError β) :=
  ExceptT.mk (.call op fun r => .done (.ok r))

/-- A statement whose error propagates. -/
def query {β : Type} (op : Sql β) : AuthM β :=
  ExceptT.mk (.call op fun r => .done (r.mapError .sql))

/-- A transaction whose error is rolled back and reported as a storage failure. -/
def transaction {β : Type} (op : Sql β) (message : String) : AuthM β :=
  ExceptT.mk (.call op fun r =>
    .done (r.mapError fun _ => .auth (authError .authStorageFailure message 503)))

/-- `ownerFromRow`: the row without the digest of the secret. -/
structure Owner where
  id : String
  createdAt : Instant
  bootstrapExpiresAt : Instant
  bootstrapConsumedAt : Option Instant
  status : EntryStatus
  deriving DecidableEq, Repr

def ownerFromRow (row : OwnerRow) : Owner :=
  ⟨row.id, row.createdAt, row.bootstrapExpiresAt, row.bootstrapConsumedAt, row.status⟩

/-- `owner && owner.status === "ACTIVE" && owner.bootstrapConsumedAt` -/
def Owner.bootstrapped (owner : Owner) : Bool :=
  owner.status == .active && owner.bootstrapConsumedAt.isSome

/-- What `rotateRefreshToken` returns. -/
structure Rotated where
  family : Option FamilyRow
  grant : Option GrantRow

/-- What `ownerAccessSummary` returns, less the fixed text on running tasks. -/
structure AccessSummary where
  ownerId : String
  ownerStatus : EntryStatus
  bootstrapPending : Bool
  activeClients : Nat
  activeGrants : Nat
  activeTokenFamilies : Nat
  deriving DecidableEq, Repr

structure AuthStore where
  platform : Platform
  supportedScopes : List String :=
    ["terminal:read", "terminal:execute", "terminal:input", "terminal:close",
      "files:read", "files:write", "files:delete"]

namespace AuthStore

variable (S : AuthStore)

/-! ## Owners -/

def getOwner (ownerId : String) : AuthM (Option Owner) := do
  let row ← query (.selectOwner ownerId)
  return row.map ownerFromRow

def createOwnerBootstrap (ownerId secret : String) (createdAt expiresAt : Option Instant) :
    AuthM (Option Owner) := do
  ensure (ownerIdPattern ownerId) (authError .invalidOwner "Owner ID is invalid")
  ensure (32 ≤ utf16Length secret) (authError .invalidBootstrap
    "Owner bootstrap secret must contain at least 32 characters")
  let created ← checked (isoTime "createdAt" createdAt)
  let expires ← checked (isoTime "expiresAt" expiresAt)
  ensure (created < expires) (authError .invalidBootstrap
    "Owner bootstrap expiry must be after creation")
  let row : OwnerRow :=
    ⟨ownerId, created, hashSecret S.platform secret, expires, none, .active⟩
  match ← attempt (.insertOwner row) with
  | .ok () => getOwner ownerId
  | .error .unique =>
    throw (.auth (authError .ownerAlreadyExists "This Direct installation already has an owner" 409))
  | .error e => throw (.sql e)

def consumeOwnerBootstrap (secret : String) (now : Option Instant) : AuthM (Option Owner) := do
  let current ← checked (isoTime "now" now)
  match ← query .selectPendingOwner with
  | none => throw (.auth (authError .bootstrapUnavailable "Owner bootstrap is unavailable" 409))
  | some row =>
    ensure (current < row.bootstrapExpiresAt)
      (authError .bootstrapExpired "Owner bootstrap has expired" 410)
    ensure (hashSecret S.platform secret = row.bootstrapDigest)
      (authError .bootstrapDenied "Owner bootstrap proof was not accepted" 403)
    let changes ← query (.consumeOwner row.id current)
    ensure (changes = 1) (authError .bootstrapUnavailable "Owner bootstrap is unavailable" 409)
    getOwner row.id

/-! ## Clients -/

def getClient (site : ReadSite) (clientId : String) : AuthM (Option ClientRow) :=
  query (.selectClient site clientId)

/-- The `UNIQUE` branch of `registerClient`. -/
def reactivate (clientId ownerId callback : String) (created : Instant) :
    AuthM (Option ClientRow) := do
  let conflict := Failure.auth (authError .clientConflict
    "OAuth client registration conflicts with existing state" 409)
  match ← getClient .conflict clientId with
  | none => throw conflict
  | some existing =>
    if existing.ownerId = ownerId ∧ existing.redirectUri = callback then
      if existing.status = .active then return some existing
      else
        let changes ← query (.reactivateClient clientId ownerId callback created)
        if changes = 1 then getClient .after clientId else throw conflict
    else throw conflict

def registerClient (clientId ownerId redirectUri : String) (createdAt : Option Instant) :
    AuthM (Option ClientRow) := do
  let normalizedClientId ← checked (clientIdentifier S.platform clientId)
  let owner ← getOwner ownerId
  ensure (owner.any Owner.bootstrapped)
    (authError .ownerNotBootstrapped "Owner bootstrap must be completed first" 403)
  let created ← checked (isoTime "createdAt" createdAt)
  let callback ← checked (exactHttpsUrl S.platform "redirectUri" redirectUri)
  match ← attempt (.insertClient ⟨normalizedClientId, ownerId, callback, created, .active⟩) with
  | .ok () => getClient .after normalizedClientId
  | .error .unique => reactivate normalizedClientId ownerId callback created
  | .error e => throw (.sql e)

def findActiveClient (ownerId redirectUri clientIdPrefix : String) : AuthM (Option ClientRow) := do
  let callback ← checked (exactHttpsUrl S.platform "redirectUri" redirectUri)
  let rows ← query (.selectActiveClients ownerId callback)
  return rows.find? fun row => clientIdPrefix.toList.isPrefixOf row.clientId.toList

/-! ## Grants -/

def getGrant (id : String) (now : Option Instant) : AuthM (Option GrantRow) := do
  let current ← checked (isoTime "now" now)
  match ← query (.selectGrant id) with
  | none => return none
  | some row =>
    if row.status = .active ∧ row.expiresAt ≤ current then
      query (.expireGrant id)
      query (.selectGrant id)
    else return some row

def createGrant (id ownerId clientId resource : String) (scopes : List String)
    (executionProfile : String) (grantedAt expiresAt : Option Instant) :
    AuthM (Option GrantRow) := do
  ensure (grantIdPattern id) (authError .invalidGrant "Grant ID is invalid")
  let client ← getClient .check clientId
  ensure (client.any fun c => c.status == .active && c.ownerId == ownerId)
    (authError .invalidClient "OAuth client is not active for this owner" 403)
  ensure (scopes ≠ []) (authError .invalidScope "At least one scope is required")
  let normalizedScopes := sortTexts scopes.eraseDups
  ensure (∀ scope ∈ normalizedScopes, scopePattern scope ∧ scope ∈ S.supportedScopes)
    (authError .invalidScope "Grant includes an unsupported scope")
  let granted ← checked (isoTime "grantedAt" grantedAt)
  let expires ← checked (isoTime "expiresAt" expiresAt)
  ensure (granted < expires) (authError .invalidGrant "Grant expiry must be after grant time")
  ensure (executionProfilePattern executionProfile)
    (authError .invalidGrant "Execution profile is invalid")
  let resource ← checked (exactHttpsUrl S.platform "resource" resource)
  query (.insertGrant ⟨id, ownerId, clientId, resource, normalizedScopes, executionProfile, granted,
    expires, .active⟩)
  getGrant id (some granted)

/-! ## Token families -/

def getTokenFamily (site : ReadSite) (id : String) (now : Option Instant) :
    AuthM (Option FamilyRow) := do
  let current ← checked (isoTime "now" now)
  match ← query (.selectFamily site id) with
  | none => return none
  | some row =>
    if row.status = .active ∧ row.expiresAt ≤ current then
      transaction (.expireFamily site id current) "Token family expiry could not be persisted"
      query (.selectFamily site id)
    else return some row

def createTokenFamily (id grantId ownerId clientId resource refreshToken : String)
    (createdAt expiresAt : Option Instant) : AuthM (Option FamilyRow) := do
  ensure (tokenFamilyIdPattern id) (authError .invalidTokenFamily "Token family ID is invalid")
  let created ← checked (isoTime "createdAt" createdAt)
  let expires ← checked (isoTime "expiresAt" expiresAt)
  let normalizedResource ← checked (exactHttpsUrl S.platform "resource" resource)
  let refreshDigest ← checked (hashRefreshToken S.platform refreshToken)
  match ← getGrant grantId (some created) with
  | none =>
    throw (.auth (authError .invalidGrant "Token family grant is inactive or does not match"))
  | some grant =>
    ensure (grant.status = .active ∧ grant.ownerId = ownerId ∧ grant.clientId = clientId ∧
        grant.resource = normalizedResource)
      (authError .invalidGrant "Token family grant is inactive or does not match")
    ensure (created < expires ∧ expires ≤ grant.expiresAt) (authError .invalidTokenFamily
      "Token family expiry must be after creation and within grant expiry")
    transaction (.insertFamily ⟨id, grantId, ownerId, clientId, normalizedResource, created, expires,
      refreshDigest⟩) "Token family could not be persisted"
    getTokenFamily .after id (some created)

def rotateRefreshToken (refreshToken nextRefreshToken clientId resource : String)
    (now : Option Instant) : AuthM Rotated := do
  let current ← checked (isoTime "now" now)
  let digest ← checked (hashRefreshToken S.platform refreshToken)
  let nextDigest ← checked (hashRefreshToken S.platform nextRefreshToken)
  ensure (digest ≠ nextDigest)
    (authError .invalidRefreshToken "Refresh rotation must replace the token")
  let normalizedClientId ← checked (clientIdentifier S.platform clientId)
  let normalizedResource ← checked (exactHttpsUrl S.platform "resource" resource)
  let outcome ← transaction
    (.rotate ⟨digest, nextDigest, normalizedClientId, normalizedResource, current⟩)
    "Refresh rotation state could not be committed"
  match outcome with
  | .refused failure => throw (.auth failure)
  | .rotated familyId grantId =>
    let family ← getTokenFamily .check familyId (some current)
    let grant ← getGrant grantId (some current)
    return ⟨family, grant⟩

/-! ## Revocation -/

def revokeTokenFamily (familyId ownerId : String) (revokedAt : Option Instant) (reason : String) :
    AuthM Bool := do
  let revoked ← checked (isoTime "revokedAt" revokedAt)
  match ← query (.selectFamily .check familyId) with
  | none => return false
  | some family =>
    if family.ownerId ≠ ownerId then return false
    else
      transaction (.revokeFamily familyId ownerId revoked reason)
        "Token family revocation could not be committed"
      return true

/-- `clientId` is `none` where the source passes a falsy value. -/
def revokeRefreshToken (refreshToken : String) (clientId : Option String)
    (revokedAt : Option Instant) (reason : String) : AuthM Bool := do
  let revoked ← checked (isoTime "revokedAt" revokedAt)
  let digest ← checked (hashRefreshToken S.platform refreshToken)
  match ← query (.selectTokenFamily digest) with
  | none => return false
  | some row =>
    match clientId with
    | none => revokeTokenFamily row.id row.ownerId (some revoked) reason
    | some clientId =>
      let normalized ← checked (clientIdentifier S.platform clientId)
      if row.clientId ≠ normalized then return false
      else revokeTokenFamily row.id row.ownerId (some revoked) reason

def revokeGrant (grantId ownerId : String) (revokedAt : Option Instant) (reason : String) :
    AuthM (Option GrantRow) := do
  let revoked ← checked (isoTime "revokedAt" revokedAt)
  let grant ← query (.selectGrant grantId)
  ensure (grant.any fun g => g.ownerId == ownerId)
    (authError .invalidGrant "Grant is unavailable" 404)
  transaction (.revokeGrant grantId ownerId revoked reason)
    "Grant revocation could not be committed"
  getGrant grantId (some revoked)

def ownerAccessSummary (ownerId : String) : AuthM AccessSummary := do
  match ← getOwner ownerId with
  | none => throw (.auth (authError .invalidOwner "Owner is unavailable" 404))
  | some owner =>
    let clients ← query (.countActive .clients ownerId)
    let grants ← query (.countActive .grants ownerId)
    let families ← query (.countActive .families ownerId)
    return ⟨ownerId, owner.status, owner.bootstrapConsumedAt.isNone, clients, grants, families⟩

def revokeOwnerAccess (ownerId : String) (revokedAt : Option Instant) (reason : String) :
    AuthM AccessSummary := do
  let revoked ← checked (isoTime "revokedAt" revokedAt)
  let owner ← getOwner ownerId
  ensure owner.isSome (authError .invalidOwner "Owner is unavailable" 404)
  transaction (.revokeOwner ownerId revoked reason) "Owner revocation could not be committed"
  ownerAccessSummary ownerId

def resetOwnerAccess (ownerId bootstrapSecret : String)
    (resetAt bootstrapExpiresAt : Option Instant) : AuthM (Option Owner) := do
  ensure (32 ≤ utf16Length bootstrapSecret) (authError .invalidBootstrap
    "Owner bootstrap secret must contain at least 32 characters")
  let reset ← checked (isoTime "resetAt" resetAt)
  let expires ← checked (isoTime "bootstrapExpiresAt" bootstrapExpiresAt)
  ensure (reset < expires) (authError .invalidBootstrap "Owner bootstrap expiry must be after reset")
  let owner ← getOwner ownerId
  ensure owner.isSome (authError .invalidOwner "Owner is unavailable" 404)
  transaction (.resetOwner ownerId (hashSecret S.platform bootstrapSecret) reset expires)
    "Owner access reset could not be committed"
  getOwner ownerId

end AuthStore

/-- An operation of the store with its arguments, those with defaults included. -/
inductive StoreCall
  | createOwnerBootstrap (ownerId secret : String) (createdAt expiresAt : Option Instant)
  | consumeOwnerBootstrap (secret : String) (now : Option Instant)
  | getOwner (ownerId : String)
  | registerClient (clientId ownerId redirectUri : String) (createdAt : Option Instant)
  | getClient (clientId : String)
  | findActiveClient (ownerId redirectUri clientIdPrefix : String)
  | createGrant (id ownerId clientId resource : String) (scopes : List String)
      (executionProfile : String) (grantedAt expiresAt : Option Instant)
  | getGrant (id : String) (now : Option Instant)
  | createTokenFamily (id grantId ownerId clientId resource refreshToken : String)
      (createdAt expiresAt : Option Instant)
  | getTokenFamily (id : String) (now : Option Instant)
  | rotateRefreshToken (refreshToken nextRefreshToken clientId resource : String)
      (now : Option Instant)
  | revokeTokenFamily (familyId ownerId : String) (revokedAt : Option Instant) (reason : String)
  | revokeRefreshToken (refreshToken : String) (clientId : Option String)
      (revokedAt : Option Instant) (reason : String)
  | revokeGrant (grantId ownerId : String) (revokedAt : Option Instant) (reason : String)
  | revokeOwnerAccess (ownerId : String) (revokedAt : Option Instant) (reason : String)
  | resetOwnerAccess (ownerId bootstrapSecret : String) (resetAt bootstrapExpiresAt : Option Instant)
  | ownerAccessSummary (ownerId : String)

/-- The operation, its value dropped. -/
def StoreCall.program (S : AuthStore) : StoreCall → AuthM Unit
  | .createOwnerBootstrap ownerId secret createdAt expiresAt =>
    discard (S.createOwnerBootstrap ownerId secret createdAt expiresAt)
  | .consumeOwnerBootstrap secret now => discard (S.consumeOwnerBootstrap secret now)
  | .getOwner ownerId => discard (AuthStore.getOwner ownerId)
  | .registerClient clientId ownerId redirectUri createdAt =>
    discard (S.registerClient clientId ownerId redirectUri createdAt)
  | .getClient clientId => discard (AuthStore.getClient .check clientId)
  | .findActiveClient ownerId redirectUri clientIdPrefix =>
    discard (S.findActiveClient ownerId redirectUri clientIdPrefix)
  | .createGrant id ownerId clientId resource scopes executionProfile grantedAt expiresAt =>
    discard (S.createGrant id ownerId clientId resource scopes executionProfile grantedAt expiresAt)
  | .getGrant id now => discard (AuthStore.getGrant id now)
  | .createTokenFamily id grantId ownerId clientId resource refreshToken createdAt expiresAt =>
    discard (S.createTokenFamily id grantId ownerId clientId resource refreshToken createdAt
      expiresAt)
  | .getTokenFamily id now => discard (AuthStore.getTokenFamily .check id now)
  | .rotateRefreshToken refreshToken nextRefreshToken clientId resource now =>
    discard (S.rotateRefreshToken refreshToken nextRefreshToken clientId resource now)
  | .revokeTokenFamily familyId ownerId revokedAt reason =>
    discard (AuthStore.revokeTokenFamily familyId ownerId revokedAt reason)
  | .revokeRefreshToken refreshToken clientId revokedAt reason =>
    discard (S.revokeRefreshToken refreshToken clientId revokedAt reason)
  | .revokeGrant grantId ownerId revokedAt reason =>
    discard (AuthStore.revokeGrant grantId ownerId revokedAt reason)
  | .revokeOwnerAccess ownerId revokedAt reason =>
    discard (AuthStore.revokeOwnerAccess ownerId revokedAt reason)
  | .resetOwnerAccess ownerId bootstrapSecret resetAt bootstrapExpiresAt =>
    discard (S.resetOwnerAccess ownerId bootstrapSecret resetAt bootstrapExpiresAt)
  | .ownerAccessSummary ownerId => discard (AuthStore.ownerAccessSummary ownerId)

end BegetBridge.Auth
