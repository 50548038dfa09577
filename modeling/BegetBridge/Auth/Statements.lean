import BegetBridge.Auth.Platform
import BegetBridge.Interleaving.Program
import BegetBridge.Relational.Table

/-!
# The auth database and its statements

The five tables of `auth.sqlite` and every SQL statement the store issues, each as one operation.
A statement outside a transaction is atomic by itself; the statements between `BEGIN IMMEDIATE`
and `COMMIT` are one operation, whose body is their composition. A failing operation leaves the
database as it was: SQLite rolls it back.

## Main definitions

* `OwnerRow`, `ClientRow`, `GrantRow`, `FamilyRow`, `RefreshRow`, `AuthDb`: the tables
* `Sql`, `Sql.exec`: the statements and their effect
* `AuthDb.rotate`: the transaction of `rotateRefreshToken`
* `authBackend`: the statements as operations of a program
-/

namespace BegetBridge.Auth

open Relational Interleaving

/-- `owners.status` and `oauth_clients.status`. -/
inductive EntryStatus
  | active
  | disabled
  deriving DecidableEq, Repr

/-- `authorization_grants.status`. -/
inductive GrantStatus
  | active
  | expired
  | revoked
  deriving DecidableEq, Repr

/-- `oauth_token_families.status`. -/
inductive FamilyStatus
  | active
  | expired
  | revoked
  | compromised
  | reset
  deriving DecidableEq, Repr

/-- `oauth_refresh_tokens.status`. -/
inductive RefreshStatus
  | active
  | consumed
  | revoked
  deriving DecidableEq, Repr

structure OwnerRow where
  id : String
  createdAt : Instant
  bootstrapDigest : String
  bootstrapExpiresAt : Instant
  bootstrapConsumedAt : Option Instant
  status : EntryStatus
  deriving DecidableEq, Repr

structure ClientRow where
  clientId : String
  ownerId : String
  redirectUri : String
  createdAt : Instant
  status : EntryStatus
  deriving DecidableEq, Repr

structure GrantRow where
  id : String
  ownerId : String
  clientId : String
  resource : String
  scopes : List String
  executionProfile : String
  grantedAt : Instant
  expiresAt : Instant
  status : GrantStatus
  deriving DecidableEq, Repr

structure FamilyRow where
  id : String
  grantId : String
  ownerId : String
  clientId : String
  resource : String
  createdAt : Instant
  expiresAt : Instant
  status : FamilyStatus
  revokedAt : Option Instant
  revokeReason : Option String
  currentGeneration : Nat
  deriving DecidableEq, Repr

structure RefreshRow where
  digest : String
  familyId : String
  generation : Nat
  issuedAt : Instant
  expiresAt : Instant
  consumedAt : Option Instant
  status : RefreshStatus
  deriving DecidableEq, Repr

/-- `singleton INTEGER NOT NULL DEFAULT 1 UNIQUE CHECK (singleton = 1)`: one row at most. -/
instance : RowKind OwnerRow := ⟨fun _ _ => true, fun _ => rfl, fun _ _ => rfl⟩

instance : RowKind ClientRow :=
  ⟨fun r r' => r.clientId == r'.clientId, fun _ => beq_self_eq_true _, fun _ _ => BEq.comm⟩

instance : RowKind GrantRow :=
  ⟨fun r r' => r.id == r'.id, fun _ => beq_self_eq_true _, fun _ _ => BEq.comm⟩

instance : RowKind FamilyRow :=
  ⟨fun r r' => r.id == r'.id, fun _ => beq_self_eq_true _, fun _ _ => BEq.comm⟩

/-- `digest TEXT PRIMARY KEY` and `UNIQUE(family_id, generation)`. -/
instance : RowKind RefreshRow :=
  ⟨fun r r' => r.digest == r'.digest || (r.familyId == r'.familyId && r.generation == r'.generation),
    fun _ => by simp, fun r r' => by
      rw [BEq.comm (a := r.digest), BEq.comm (a := r.familyId), BEq.comm (a := r.generation)]⟩

/-- The tables of `auth.sqlite`. -/
structure AuthDb where
  owners : Table OwnerRow
  clients : Table ClientRow
  grants : Table GrantRow
  families : Table FamilyRow
  tokens : Table RefreshRow

/-- The database a migration from nothing leaves. -/
def AuthDb.empty : AuthDb := ⟨.empty, .empty, .empty, .empty, .empty⟩

/-- Why a statement fails: a uniqueness or foreign-key constraint, or a storage fault. -/
inductive SqlError
  | unique
  | foreignKey
  | storage
  deriving DecidableEq, Repr

/-! ## Updates of the tables -/

/-- `UPDATE authorization_grants SET status` of the `ACTIVE` rows in `which`. -/
def AuthDb.endGrants (db : AuthDb) (which : GrantRow → Bool) (status : GrantStatus) : AuthDb :=
  { db with
    grants := db.grants.rewrite (fun g => which g && g.status == .active)
      (f := fun g => { g with status := status }) ⟨fun _ _ => rfl⟩ }

/-- The two updates that end token families: the families in `which` whose status is in `during`
get the new status, and the `ACTIVE` refresh tokens of the families in `tokensOf` are `REVOKED`. -/
def AuthDb.endFamilies (db : AuthDb) (which : FamilyRow → Bool) (during : List FamilyStatus)
    (status : FamilyStatus) (revokedAt : Instant) (reason : String) (tokensOf : String → Bool) :
    AuthDb :=
  { db with
    families := db.families.rewrite (fun f => which f && decide (f.status ∈ during))
      (f := fun f => { f with
        status := status, revokedAt := some revokedAt, revokeReason := some reason })
      ⟨fun _ _ => rfl⟩
    tokens := db.tokens.rewrite (fun t => tokensOf t.familyId && t.status == .active)
      (f := fun t => { t with status := .revoked }) ⟨fun _ _ => rfl⟩ }

/-- `status = 'EXPIRED', revoke_reason = 'expired'` of one family and its tokens. -/
def AuthDb.expireFamily (db : AuthDb) (id : String) (now : Instant) : AuthDb :=
  db.endFamilies (fun f => f.id == id) [.active] .expired now "expired" (· == id)

/-- `status = 'COMPROMISED', revoke_reason = 'refresh_reuse'` of one family and its tokens. -/
def AuthDb.compromiseFamily (db : AuthDb) (id : String) (now : Instant) : AuthDb :=
  db.endFamilies (fun f => f.id == id) [.active] .compromised now "refresh_reuse" (· == id)

def AuthDb.revokeFamily (db : AuthDb) (id ownerId : String) (at_ : Instant) (reason : String) :
    AuthDb :=
  db.endFamilies (fun f => f.id == id && f.ownerId == ownerId) [.active] .revoked at_ reason
    (· == id)

/-- The ids `SELECT id FROM oauth_token_families WHERE …` yields. -/
def AuthDb.familyIds (db : AuthDb) (which : FamilyRow → Bool) (id : String) : Bool :=
  db.families.rows.any fun f => which f && f.id == id

def AuthDb.revokeGrant (db : AuthDb) (grantId ownerId : String) (at_ : Instant) (reason : String) :
    AuthDb :=
  (db.endGrants (fun g => g.id == grantId && g.ownerId == ownerId) .revoked).endFamilies
    (fun f => f.grantId == grantId) [.active, .compromised] .revoked at_ reason
    (db.familyIds fun f => f.grantId == grantId)

/-- The grants, families and tokens of an owner end: `REVOKED` or `RESET`. -/
def AuthDb.endOwnerAccess (db : AuthDb) (ownerId : String) (status : FamilyStatus) (at_ : Instant)
    (reason : String) : AuthDb :=
  (db.endGrants (fun g => g.ownerId == ownerId) .revoked).endFamilies
    (fun f => f.ownerId == ownerId) [.active, .compromised] status at_ reason
    (db.familyIds fun f => f.ownerId == ownerId)

/-- The transaction of `resetOwnerAccess`. -/
def AuthDb.resetOwner (db : AuthDb) (ownerId bootstrapDigest : String)
    (resetAt bootstrapExpiresAt : Instant) : Except SqlError (Unit × AuthDb) :=
  let db' := db.endOwnerAccess ownerId .reset resetAt "owner_reset"
  if db.owners.changes (fun o => o.id == ownerId) = 1 then
    .ok ((), { db' with
      clients := db.clients.rewrite (fun c => c.ownerId == ownerId)
        (f := fun c => { c with status := .disabled }) ⟨fun _ _ => rfl⟩
      owners := db.owners.rewrite (fun o => o.id == ownerId)
        (f := fun o => { o with
          bootstrapDigest := bootstrapDigest, bootstrapExpiresAt := bootstrapExpiresAt
          bootstrapConsumedAt := none, status := .active }) ⟨fun _ _ => rfl⟩ })
  else .error .storage

/-! ## Inserts -/

def AuthDb.insertOwner (db : AuthDb) (row : OwnerRow) : Except SqlError (Unit × AuthDb) :=
  match db.owners.insert row with
  | some owners => .ok ((), { db with owners := owners })
  | none => .error .unique

def AuthDb.insertClient (db : AuthDb) (row : ClientRow) : Except SqlError (Unit × AuthDb) :=
  match db.clients.insert row with
  | none => .error .unique
  | some clients =>
    if (db.owners.select (·.id == row.ownerId)).isSome then .ok ((), { db with clients := clients })
    else .error .foreignKey

def AuthDb.insertGrant (db : AuthDb) (row : GrantRow) : Except SqlError (Unit × AuthDb) :=
  match db.grants.insert row with
  | none => .error .unique
  | some grants =>
    if (db.owners.select (·.id == row.ownerId)).isSome &&
        (db.clients.select (·.clientId == row.clientId)).isSome then
      .ok ((), { db with grants := grants })
    else .error .foreignKey

/-- A token family as `createTokenFamily` inserts it. -/
structure NewFamily where
  id : String
  grantId : String
  ownerId : String
  clientId : String
  resource : String
  createdAt : Instant
  expiresAt : Instant
  refreshDigest : String

def NewFamily.row (f : NewFamily) : FamilyRow :=
  ⟨f.id, f.grantId, f.ownerId, f.clientId, f.resource, f.createdAt, f.expiresAt, .active, none, none,
    0⟩

def NewFamily.tokenRow (f : NewFamily) : RefreshRow :=
  ⟨f.refreshDigest, f.id, 0, f.createdAt, f.expiresAt, none, .active⟩

/-- The transaction of `createTokenFamily`. -/
def AuthDb.insertFamily (db : AuthDb) (f : NewFamily) : Except SqlError (Unit × AuthDb) :=
  match db.families.insert f.row with
  | none => .error .unique
  | some families =>
    if (db.grants.select (·.id == f.grantId)).isSome &&
        (db.owners.select (·.id == f.ownerId)).isSome &&
        (db.clients.select (·.clientId == f.clientId)).isSome then
      match db.tokens.insert f.tokenRow with
      | none => .error .unique
      | some tokens => .ok ((), { db with families := families, tokens := tokens })
    else .error .foreignKey

/-! ## The rotation transaction -/

/-- The inputs of `rotateRefreshToken`, checked and normalised. -/
structure Rotation where
  digest : String
  nextDigest : String
  clientId : String
  resource : String
  now : Instant

/-- What the rotation transaction commits: a refusal, or the family and grant it rotated. -/
inductive RotationOutcome
  | refused (e : AuthStoreError)
  | rotated (familyId grantId : String)

/-- The joined row of `SELECT … FROM oauth_refresh_tokens rt JOIN … WHERE rt.digest = ?`. -/
def AuthDb.joined (db : AuthDb) (digest : String) : Option (RefreshRow × FamilyRow × GrantRow) := do
  let token ← db.tokens.select (·.digest == digest)
  let family ← db.families.select (·.id == token.familyId)
  let grant ← db.grants.select (·.id == family.grantId)
  return (token, family, grant)

/-- The `ACTIVE` token row with the presented digest. -/
def Rotation.presents (r : Rotation) (t : RefreshRow) : Bool :=
  t.digest == r.digest && t.status == .active

/-- The token row an accepted rotation issues. -/
def Rotation.nextRow (r : Rotation) (family : FamilyRow) : RefreshRow :=
  ⟨r.nextDigest, family.id, family.currentGeneration + 1, r.now, family.expiresAt, none, .active⟩

/-- `UPDATE oauth_refresh_tokens SET status = 'CONSUMED'` of the presented token. -/
def AuthDb.consumed (db : AuthDb) (r : Rotation) : Table RefreshRow :=
  db.tokens.rewrite r.presents
    (f := fun t => { t with status := .consumed, consumedAt := some r.now }) ⟨fun _ _ => rfl⟩

/-- `UPDATE oauth_token_families SET current_generation` of the rotated family. -/
def AuthDb.advanced (db : AuthDb) (family : FamilyRow) : Table FamilyRow :=
  db.families.rewrite (fun f => f.id == family.id && f.status == .active &&
      f.currentGeneration == family.currentGeneration)
    (f := fun f => { f with currentGeneration := family.currentGeneration + 1 }) ⟨fun _ _ => rfl⟩

/-- The three writes of an accepted rotation: consume, issue, advance. -/
def AuthDb.advance (db : AuthDb) (r : Rotation) (family : FamilyRow) : Except SqlError AuthDb :=
  if db.tokens.changes r.presents = 1 then
    match (db.consumed r).insert (r.nextRow family) with
    | none => .error .unique
    | some tokens => .ok { db with tokens := tokens, families := db.advanced family }
  else .error .storage

/-- The transaction of `rotateRefreshToken`. -/
def AuthDb.rotate (db : AuthDb) (r : Rotation) : Except SqlError (RotationOutcome × AuthDb) :=
  match db.joined r.digest with
  | none => .ok (.refused (authError .invalidRefreshToken "Refresh token is invalid"), db)
  | some (token, family, grant) =>
    if family.clientId ≠ r.clientId ∨ family.resource ≠ r.resource then
      .ok (.refused (authError .invalidRefreshToken "Refresh token binding does not match"), db)
    else if family.status ≠ .active ∨ grant.status ≠ .active ∨ family.expiresAt ≤ r.now ∨
        grant.expiresAt ≤ r.now ∨ token.expiresAt ≤ r.now then
      .ok (.refused (authError .refreshInactive "Refresh token family is inactive"),
        if family.status = .active ∧ family.expiresAt ≤ r.now then db.expireFamily family.id r.now
        else db)
    else if token.status ≠ .active ∨ token.generation ≠ family.currentGeneration then
      -- the failure is recorded: this branch commits
      .ok (.refused (authError .refreshReuseDetected
          "Refresh token reuse compromised the token family"),
        db.compromiseFamily family.id r.now)
    else
      match db.advance r family with
      | .ok db' => .ok (.rotated family.id grant.id, db')
      | .error e => .error e

/-! ## The statements -/

/-- Where in the source a read stands: before the write it licenses, between a failed insert and
the update that follows it, or after the write. -/
inductive ReadSite
  | check
  | conflict
  | after
  deriving DecidableEq, Repr

/-- The tables `ownerAccessSummary` counts. -/
inductive CountedTable
  | clients
  | grants
  | families
  deriving DecidableEq, Repr

/-- The statements of the store, by the type of their result. -/
inductive Sql : Type → Type
  | insertOwner (row : OwnerRow) : Sql Unit
  | selectPendingOwner : Sql (Option OwnerRow)
  | consumeOwner (id : String) (at_ : Instant) : Sql Nat
  | selectOwner (id : String) : Sql (Option OwnerRow)
  | insertClient (row : ClientRow) : Sql Unit
  | selectClient (site : ReadSite) (clientId : String) : Sql (Option ClientRow)
  | reactivateClient (clientId ownerId redirectUri : String) (createdAt : Instant) : Sql Nat
  | selectActiveClients (ownerId redirectUri : String) : Sql (List ClientRow)
  | insertGrant (row : GrantRow) : Sql Unit
  | selectGrant (id : String) : Sql (Option GrantRow)
  | expireGrant (id : String) : Sql Unit
  | insertFamily (family : NewFamily) : Sql Unit
  | selectFamily (site : ReadSite) (id : String) : Sql (Option FamilyRow)
  | expireFamily (site : ReadSite) (id : String) (now : Instant) : Sql Unit
  | rotate (r : Rotation) : Sql RotationOutcome
  | selectTokenFamily (digest : String) : Sql (Option FamilyRow)
  | revokeFamily (id ownerId : String) (at_ : Instant) (reason : String) : Sql Unit
  | revokeGrant (grantId ownerId : String) (at_ : Instant) (reason : String) : Sql Unit
  | revokeOwner (ownerId : String) (at_ : Instant) (reason : String) : Sql Unit
  | resetOwner (ownerId bootstrapDigest : String) (resetAt bootstrapExpiresAt : Instant) : Sql Unit
  | countActive (table : CountedTable) (ownerId : String) : Sql Nat

/-- `ORDER BY created_at, client_id`. -/
def clientOrder (c c' : ClientRow) : Prop :=
  c.createdAt < c'.createdAt ∨ c.createdAt = c'.createdAt ∧ c.clientId ≤ c'.clientId

instance : DecidableRel clientOrder := fun _ _ => inferInstanceAs (Decidable (_ ∨ _))

/-- The effect of a statement. -/
def Sql.exec {β : Type} : Sql β → AuthDb → Except SqlError (β × AuthDb)
  | .insertOwner row, db => db.insertOwner row
  | .selectPendingOwner, db =>
    .ok (db.owners.select fun o => o.status == .active && o.bootstrapConsumedAt.isNone, db)
  | .consumeOwner id at_, db =>
    let sel := fun o : OwnerRow => o.id == id && o.bootstrapConsumedAt.isNone && o.status == .active
    .ok (db.owners.changes sel, { db with
      owners := db.owners.rewrite sel (f := fun o => { o with bootstrapConsumedAt := some at_ })
        ⟨fun _ _ => rfl⟩ })
  | .selectOwner id, db => .ok (db.owners.select (·.id == id), db)
  | .insertClient row, db => db.insertClient row
  | .selectClient _ clientId, db => .ok (db.clients.select (·.clientId == clientId), db)
  | .reactivateClient clientId ownerId redirectUri createdAt, db =>
    let sel := fun c : ClientRow => c.clientId == clientId && c.ownerId == ownerId &&
      c.redirectUri == redirectUri && c.status == .disabled
    .ok (db.clients.changes sel, { db with
      clients := db.clients.rewrite sel
        (f := fun c => { c with status := .active, createdAt := createdAt }) ⟨fun _ _ => rfl⟩ })
  | .selectActiveClients ownerId redirectUri, db =>
    .ok ((db.clients.rows.filter fun c => c.ownerId == ownerId && c.redirectUri == redirectUri &&
      c.status == .active).insertionSort clientOrder, db)
  | .insertGrant row, db => db.insertGrant row
  | .selectGrant id, db => .ok (db.grants.select (·.id == id), db)
  | .expireGrant id, db => .ok ((), db.endGrants (·.id == id) .expired)
  | .insertFamily family, db => db.insertFamily family
  | .selectFamily _ id, db => .ok (db.families.select (·.id == id), db)
  | .expireFamily _ id now, db => .ok ((), db.expireFamily id now)
  | .rotate r, db => db.rotate r
  | .selectTokenFamily digest, db =>
    .ok ((db.tokens.select (·.digest == digest)).bind fun t => db.families.select (·.id == t.familyId),
      db)
  | .revokeFamily id ownerId at_ reason, db => .ok ((), db.revokeFamily id ownerId at_ reason)
  | .revokeGrant grantId ownerId at_ reason, db => .ok ((), db.revokeGrant grantId ownerId at_ reason)
  | .revokeOwner ownerId at_ reason, db =>
    .ok ((), db.endOwnerAccess ownerId .revoked at_ reason)
  | .resetOwner ownerId digest resetAt expiresAt, db => db.resetOwner ownerId digest resetAt expiresAt
  | .countActive .clients ownerId, db =>
    .ok (db.clients.changes fun c => c.ownerId == ownerId && c.status == .active, db)
  | .countActive .grants ownerId, db =>
    .ok (db.grants.changes fun g => g.ownerId == ownerId && g.status == .active, db)
  | .countActive .families ownerId, db =>
    .ok (db.families.changes fun f => f.ownerId == ownerId && f.status == .active, db)

/-- The statements as the operations of a program. -/
def authBackend : Backend Sql SqlError AuthDb := ⟨Sql.exec⟩

/-- A fault rolls the statement or transaction back. -/
def StorageFault : SqlError → Prop := (· = .storage)

instance : DecidablePred StorageFault := fun e => inferInstanceAs (Decidable (e = .storage))

end BegetBridge.Auth
