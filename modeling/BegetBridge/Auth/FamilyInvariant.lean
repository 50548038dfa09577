import BegetBridge.Auth.StoreSpecs

/-!
# The token-family invariant

Runs of the store: any operations, with any arguments and clock values, any storage faults, and
cut by a crash after any statement. In every database a run reaches from the empty one, the
refresh tokens of a family follow its generations, and a family that has ended has ended for good.

## Main definitions

* `StoreRun`: finite sequences of operations
* `AuthDb.FamilyInvariant`: what holds of a family and its refresh tokens

## Main results

* `StoreCall.licensed`: every operation owes no more than it has checked
* `storeRun_integrity`, `storeRun_evolves`: what holds along a run
* `tokenFamily_invariant`: the token-family invariant
-/

namespace BegetBridge.Auth

open Relational Interleaving

/-- One operation, possibly cut. -/
def StoreStep (S : AuthStore) (db db' : AuthDb) : Prop :=
  ∃ (call : StoreCall) (trace : List (Entry Sql SqlError)),
    Visits authBackend StorageFault (call.program S).run db trace db'

/-- Finite sequences of operations. -/
def StoreRun (S : AuthStore) : AuthDb → AuthDb → Prop := Relation.ReflTransGen (StoreStep S)

/-! ## Licences -/

/-- The program owes only what is met, from any database. -/
def Safe (C : Setting Sql SqlError AuthDb) {α : Type} (p : AuthM α) : Prop :=
  ∀ s, wpThrow C p (fun _ _ => True) s

namespace Safe

variable {C : Setting Sql SqlError AuthDb} {α β : Type}

theorem pure {a : α} : Safe C (pure a : AuthM α) := fun _ => trivial

theorem throw {e : Failure} : Safe C (throw e : AuthM α) := fun _ => trivial

theorem bind {p : AuthM α} {f : α → AuthM β} (hp : Safe C p) (hf : ∀ a, Safe C (f a)) :
    Safe C (p >>= f) := by
  intro s
  rw [wpThrow_bind]
  refine wpThrow_mono (fun r s' _ => ?_) (hp s)
  cases r with
  | ok a => exact hf a s'
  | error e => trivial

theorem discard {p : AuthM α} (hp : Safe C p) : Safe C (discard p) := by
  intro s
  show wp C (p.run.bind _) _ s
  rw [wp_bind]
  exact wp_mono (fun r s' _ => by cases r <;> trivial) (hp s)

theorem ensure {c : Prop} [Decidable c] {e : AuthStoreError} : Safe C (ensure c e) := by
  unfold Auth.ensure
  split
  · exact Safe.pure
  · exact Safe.throw

theorem checked {x : Except AuthStoreError α} : Safe C (checked x) := by
  cases x
  · exact Safe.throw
  · exact Safe.pure

variable (hC : Tame C)

include hC

theorem owing {op : Sql α} (howes : ∀ s, C.oblige op s) : Safe C (query op) := fun _ =>
  hC.wp_query (fun _ _ => howes _) (fun _ _ _ => trivial) fun _ _ _ _ _ => trivial

theorem query {op : Sql α} (hfree : op.Free) : Safe C (query op) :=
  owing hC fun _ => hC.free hfree

theorem transaction {op : Sql α} {message : String} (hfree : op.Free) :
    Safe C (transaction op message) := fun _ =>
  hC.wp_transaction (fun _ _ => hC.free hfree) (fun _ _ _ => trivial) fun _ _ _ _ _ => trivial

theorem attempt {op : Sql α} (hfree : op.Free) : Safe C (attempt op) := fun _ =>
  hC.wp_call (fun _ _ => hC.free hfree) (fun _ _ _ _ _ => trivial) fun _ _ _ => trivial

theorem getOwner {id : String} : Safe C (AuthStore.getOwner id) := fun _ =>
  getOwner_spec hC (fun _ _ _ => trivial) fun _ _ => trivial

theorem getGrant (hread : ∀ id s, GrantReadable C id s) {id : String} {now : Option Instant} :
    Safe C (AuthStore.getGrant id now) := fun _ =>
  getGrant_spec hC (fun s' _ => hread id s') (fun _ _ _ => trivial) (fun _ _ _ => trivial)
    fun _ _ _ _ _ _ => trivial

theorem ownerAccessSummary {id : String} : Safe C (AuthStore.ownerAccessSummary id) := by
  refine (getOwner hC).bind fun owner => ?_
  cases owner with
  | none => exact Safe.throw
  | some owner =>
    exact (query hC (by trivial)).bind fun _ => (query hC (by trivial)).bind fun _ =>
      (query hC (by trivial)).bind fun _ => Safe.pure

end Safe

/-- A family stays within its grant while the grant lives on. -/
theorem within_of_evolves {s₁ s₂ : AuthDb} (h : Evolves s₁ s₂) {f : FamilyRow} {g : GrantRow}
    (hg : g ∈ s₁.grants) (hw : f.Within g) : ∃ g' ∈ s₂.grants, f.Within g' := by
  obtain ⟨g', hg', hlater⟩ := h.grants g hg
  refine ⟨g', hg', ?_⟩
  rw [hlater.1]
  exact ⟨hw.id, hw.owner, hw.client, hw.resource, hw.expiry⟩

theorem client_of_evolves {s₁ s₂ : AuthDb} (h : Evolves s₁ s₂) {c : ClientRow}
    (hc : c ∈ s₁.clients) : ∃ c' ∈ s₂.clients, c'.clientId = c.clientId ∧ c'.ownerId = c.ownerId := by
  obtain ⟨c', hc', hlater⟩ := h.clients c hc
  exact ⟨c', hc', hlater.1, hlater.2.1⟩

/-- The owner of a family does not change. -/
theorem owner_of_evolves {s₁ s₂ : AuthDb} (h : Evolves s₁ s₂) {f : FamilyRow}
    (hf : f ∈ s₁.families) : ∀ f' ∈ s₂.families, f'.id = f.id → f'.ownerId = f.ownerId := by
  intro f' hf' hid
  rw [(h.family_of_id hf hf' hid).kept]

/-- The owing statements that an operation may issue. -/
def StoreCall.Issues {β : Type} : StoreCall → Sql β → Prop
  | _, .selectGrant _ => True
  | _, .expireGrant _ => True
  | .registerClient .., .insertClient _ => True
  | .registerClient .., .reactivateClient .. => True
  | .createGrant .., .insertGrant _ => True
  | .createTokenFamily .., .insertFamily _ => True
  | .rotateRefreshToken .., .rotate _ => True
  | .revokeTokenFamily .., .revokeFamily .. => True
  | .revokeRefreshToken .., .revokeFamily .. => True
  | _, _ => False

section

variable {C : Setting Sql SqlError AuthDb} (hC : Tame C) {S : AuthStore}

include hC

theorem revokeTokenFamily_licensed
    (hob : ∀ {id ownerId at_ reason s}, (Sql.revokeFamily id ownerId at_ reason).Licensed S.platform s →
      C.oblige (.revokeFamily id ownerId at_ reason) s)
    (familyId ownerId : String) (revokedAt : Option Instant) (reason : String) :
    Safe C (AuthStore.revokeTokenFamily familyId ownerId revokedAt reason) := by
  intro s
  refine revokeTokenFamily_spec hC (fun f s₁ s₂ at_ _ hf hid howner hrely => hob ?_)
    fun _ _ _ => trivial
  subst hid howner
  exact owner_of_evolves (hC.rely hrely) hf

/-- **Every operation owes no more than it has checked.** -/
theorem StoreCall.licensed (call : StoreCall)
    (hob : ∀ {β : Type} {op : Sql β} {s : AuthDb}, call.Issues op → op.Licensed S.platform s →
      C.oblige op s) : Safe C (call.program S) := by
  have hread : ∀ id s, GrantReadable C id s := fun id s => by
    constructor <;> exact hob (by cases call <;> trivial) trivial
  cases call with
  | createOwnerBootstrap ownerId secret createdAt expiresAt =>
    refine .discard (Safe.ensure.bind fun _ => Safe.ensure.bind fun _ => Safe.checked.bind fun _ =>
      Safe.checked.bind fun _ => Safe.ensure.bind fun _ => (Safe.attempt hC (by trivial)).bind fun r => ?_)
    rcases r with (_ | _ | _) | ⟨⟩
    · exact .throw
    · exact .throw
    · exact .throw
    · exact .getOwner hC
  | consumeOwnerBootstrap secret now =>
    refine .discard (Safe.checked.bind fun _ => (Safe.query hC (by trivial)).bind fun row => ?_)
    cases row with
    | none => exact .throw
    | some row =>
      exact Safe.ensure.bind fun _ => Safe.ensure.bind fun _ => (Safe.query hC (by trivial)).bind
        fun _ => Safe.ensure.bind fun _ => .getOwner hC
  | getOwner ownerId => exact .discard (.getOwner hC)
  | registerClient clientId ownerId redirectUri createdAt =>
    refine .discard fun s => registerClient_spec hC (fun row s₁ s₂ _ _ _ hid _ => hob trivial ⟨_, hid⟩)
      (fun _ _ _ _ _ _ _ _ _ _ _ => hob trivial trivial) fun _ _ _ => trivial
  | getClient clientId => exact .discard (.query hC (by trivial))
  | findActiveClient ownerId redirectUri clientIdPrefix =>
    exact .discard (Safe.checked.bind fun _ => (Safe.query hC (by trivial)).bind fun _ => .pure)
  | createGrant id ownerId clientId resource scopes executionProfile grantedAt expiresAt =>
    refine .discard fun s => createGrant_spec hC
      (fun c s₁ s₂ resource' granted expires _ hc hid howner _ _ _ hres _ _ _ hrely => hob trivial ?_)
      (fun _ s' _ _ => hread id s') (fun _ _ _ => trivial)
      fun _ _ _ _ _ _ _ _ _ _ _ _ _ => trivial
    obtain ⟨c', hc', hid', howner'⟩ := client_of_evolves (hC.rely hrely) hc
    exact ⟨⟨c', hc', hid'.trans hid, howner'.trans howner⟩, _, hres⟩
  | getGrant id now => exact .discard (.getGrant hC hread)
  | createTokenFamily id grantId ownerId clientId resource refreshToken createdAt expiresAt =>
    exact .discard fun s => createTokenFamily_spec hC (hread grantId)
      (fun f g s₁ s₂ _ hg _ _ _ _ _ _ _ hw hrely => hob trivial (within_of_evolves (hC.rely hrely) hg hw))
      (fun _ _ _ => trivial) fun _ _ _ _ _ _ _ _ _ _ _ _ _ _ _ _ _ _ => trivial
  | getTokenFamily id now =>
    exact .discard fun s => getTokenFamily_spec hC (fun _ _ _ => trivial) (fun _ _ _ => trivial)
      fun _ _ _ _ _ _ => trivial
  | rotateRefreshToken refreshToken nextRefreshToken clientId resource now =>
    exact .discard fun s => rotateRefreshToken_spec hC hread (fun _ _ _ _ _ _ _ _ => hob trivial trivial)
      (fun _ _ _ => trivial) fun _ _ _ _ _ _ _ _ _ _ _ _ _ _ _ _ => trivial
  | revokeTokenFamily familyId ownerId revokedAt reason =>
    exact .discard (revokeTokenFamily_licensed hC (fun h => hob trivial h) familyId ownerId revokedAt reason)
  | revokeRefreshToken refreshToken clientId revokedAt reason =>
    exact .discard fun s => revokeRefreshToken_spec hC
      (fun f s₁ s₂ at_ _ hf hrely => hob trivial (owner_of_evolves (hC.rely hrely) hf)) fun _ _ _ => trivial
  | revokeGrant grantId ownerId revokedAt reason =>
    exact .discard (Safe.checked.bind fun _ => (Safe.owing hC fun s => (hread grantId s).1).bind fun _ =>
      Safe.ensure.bind fun _ => (Safe.transaction hC (by trivial)).bind fun _ => .getGrant hC hread)
  | revokeOwnerAccess ownerId revokedAt reason =>
    exact .discard (Safe.checked.bind fun _ => (Safe.getOwner hC).bind fun _ =>
      Safe.ensure.bind fun _ => (Safe.transaction hC (by trivial)).bind fun _ => .ownerAccessSummary hC)
  | resetOwnerAccess ownerId bootstrapSecret resetAt bootstrapExpiresAt =>
    exact .discard (Safe.ensure.bind fun _ => Safe.checked.bind fun _ => Safe.checked.bind fun _ =>
      Safe.ensure.bind fun _ => (Safe.getOwner hC).bind fun _ => Safe.ensure.bind fun _ =>
      (Safe.transaction hC (by trivial)).bind fun _ => .getOwner hC)
  | ownerAccessSummary ownerId => exact .discard (.ownerAccessSummary hC)

end

/-! ## What holds along a run -/

/-- The store alone: no interference, and every statement owes its licence. -/
def licensedSetting (P : Platform) : Setting Sql SqlError AuthDb where
  toBackend := authBackend
  Fault := StorageFault
  rely _ s s' := s = s'
  oblige op s := op.Licensed P s

theorem licensedSetting_tame (P : Platform) : Tame (licensedSetting P) where
  exec := rfl
  rely h := h ▸ .refl _
  free {_ op _} hfree := by cases op <;> trivial

/-- The database after operations that meet no fault. -/
def evalCalls (S : AuthStore) : List StoreCall → AuthDb → AuthDb
  | [], db => db
  | call :: calls, db => evalCalls S calls ((call.program S).run.eval authBackend db).2

section

variable {S : AuthStore} {db db' : AuthDb}

theorem storeRun_evalCalls (calls : List StoreCall) (db : AuthDb) :
    StoreRun S db (evalCalls S calls db) := by
  induction calls generalizing db with
  | nil => exact .refl
  | cons call calls ih =>
    exact .head ⟨call, _, (eval_runs _ db).visits⟩ (ih _)

theorem storeStep_integrity (h : StoreStep S db db') (hdb : Integrity S.platform db) :
    Integrity S.platform db' := by
  obtain ⟨call, _, hvisit⟩ := h
  have hsafe := StoreCall.licensed (licensedSetting_tame S.platform) call (fun _ h => h) db
  exact wp_invariant (C := licensedSetting S.platform) (fun _ _ => rfl)
    (fun hi hop hans => integrity_answer hi hop hans) hsafe hdb hvisit

theorem storeStep_evolves (h : StoreStep S db db') : Evolves db db' := by
  obtain ⟨call, _, hvisit⟩ := h
  exact hvisit.related .refl .trans answer_evolves

theorem storeRun_integrity (h : StoreRun S .empty db) : Integrity S.platform db := by
  induction h with
  | refl => exact integrity_empty
  | tail _ hstep ih => exact storeStep_integrity hstep ih

theorem storeRun_evolves (h : StoreRun S db db') : Evolves db db' := by
  induction h with
  | refl => exact .refl _
  | tail _ hstep ih => exact ih.trans (storeStep_evolves hstep)

end

/-! ## The invariant of a family -/

/-- The refresh-token rows of a family. -/
def AuthDb.tokensOf (db : AuthDb) (familyId : String) : List RefreshRow :=
  db.tokens.rows.filter fun t => t.familyId == familyId

/-- What holds of a family and its refresh tokens. -/
structure AuthDb.FamilyInvariant (db : AuthDb) (f : FamilyRow) : Prop where
  one_active : f.status = .active → ∃ t, (db.tokensOf f.id).filter (·.status == .active) = [t] ∧
    t.generation = f.currentGeneration
  generations : f.status = .active →
    ((db.tokensOf f.id).map (·.generation)).Perm (List.range (f.currentGeneration + 1))
  lower_consumed : f.status = .active → ∀ t ∈ db.tokensOf f.id,
    t.generation < f.currentGeneration → t.status = .consumed
  none_active : f.status ≠ .active → ∀ t ∈ db.tokensOf f.id, t.status ≠ .active
  token_expiry : ∀ t ∈ db.tokensOf f.id, t.expiresAt = f.expiresAt
  grant_expiry : ∃ g ∈ db.grants, g.id = f.grantId ∧ f.expiresAt ≤ g.expiresAt

section

variable {P : Platform} {db : AuthDb} {f : FamilyRow}

theorem mem_tokensOf {id : String} {t : RefreshRow} :
    t ∈ db.tokensOf id ↔ t ∈ db.tokens ∧ t.familyId = id := by
  simp [AuthDb.tokensOf]

theorem tokensOf_nodup (id : String) : (db.tokensOf id).Nodup :=
  db.tokens.nodup.sublist List.filter_sublist

/-- Two rows of one family have different generations. -/
theorem generations_nodup (id : String) : ((db.tokensOf id).map (·.generation)).Nodup := by
  refine (List.nodup_map_iff_inj_on (tokensOf_nodup id)).mpr fun t ht t' ht' hgen => ?_
  obtain ⟨hmem, hid⟩ := mem_tokensOf.mp ht
  obtain ⟨hmem', hid'⟩ := mem_tokensOf.mp ht'
  exact token_eq_of_generation hmem hmem' (hid.trans hid'.symm) hgen

theorem Integrity.familyInvariant (h : Integrity P db) (hf : f ∈ db.families) :
    db.FamilyInvariant f where
  one_active hactive := by
    obtain ⟨t, ht, hid, hgen⟩ := (h.generations f hf _).mpr le_rfl
    refine ⟨t, List.perm_singleton.mp ?_, hgen⟩
    refine (List.perm_ext_iff_of_nodup ((tokensOf_nodup _).sublist List.filter_sublist)
      (List.nodup_singleton t)).mpr fun x => ?_
    simp only [List.mem_filter, mem_tokensOf, beq_iff_eq, List.mem_singleton]
    constructor
    · rintro ⟨⟨hx, hxid⟩, hxa⟩
      have hxgen := ((h.token_status f hf x hx hxid).active_iff.mp hxa).2
      exact token_eq_of_generation hx ht (hxid.trans hid.symm) (hxgen.trans hgen.symm)
    · rintro rfl
      exact ⟨⟨ht, hid⟩, (h.token_status f hf x ht hid).active_iff.mpr ⟨hactive, hgen⟩⟩
  generations _ := by
    refine (List.perm_ext_iff_of_nodup (generations_nodup _) List.nodup_range).mpr fun n => ?_
    rw [List.mem_range, Nat.lt_succ_iff, ← h.generations f hf n, List.mem_map]
    exact exists_congr fun t => by rw [mem_tokensOf, and_assoc]
  lower_consumed hactive t ht hlt := by
    obtain ⟨ht, hid⟩ := mem_tokensOf.mp ht
    exact (h.token_status f hf t ht hid).consumed hactive hlt.ne
  none_active hdead t ht hactive := by
    obtain ⟨ht, hid⟩ := mem_tokensOf.mp ht
    exact hdead ((h.token_status f hf t ht hid).active_iff.mp hactive).1
  token_expiry t ht := by
    obtain ⟨ht, hid⟩ := mem_tokensOf.mp ht
    obtain ⟨x, hx, hxid, hexp⟩ := h.token_family t ht
    exact family_eq_of_id hx hf (hxid.trans hid) ▸ hexp
  grant_expiry := by
    obtain ⟨g, hg, hw⟩ := h.family_grant f hf
    exact ⟨g, hg, hw.id, hw.expiry⟩

end

/-- **The token-family invariant** holds of every family in every database that a run reaches;
and a family that has left `ACTIVE` stays so, whatever follows, with the expiry it has. -/
theorem tokenFamily_invariant (S : AuthStore) {db db' : AuthDb} (h : StoreRun S .empty db)
    (h' : StoreRun S db db') :
    (∀ f ∈ db.families, db.FamilyInvariant f) ∧
      ∀ f ∈ db.families, ∀ f' ∈ db'.families, f'.id = f.id →
        (f.status ≠ .active → f'.status ≠ .active) ∧ f'.expiresAt = f.expiresAt := by
  refine ⟨fun f hf => (storeRun_integrity h).familyInvariant hf, fun f hf f' hf' hid => ?_⟩
  have hlater := (storeRun_evolves h').family_of_id hf hf' hid
  exact ⟨fun hdead => (hlater.ended hdead).1, by rw [hlater.kept]⟩

/-- A store to compute with. -/
def sampleStore : AuthStore := { platform := samplePlatform }

/-- An owner, a client, a grant, a family and one rotation. -/
def samplePairing : List StoreCall :=
  [.createOwnerBootstrap "owner" (sampleToken 's') (some 0) (some 100),
    .consumeOwnerBootstrap (sampleToken 's') (some 1),
    .registerClient "https://chatgpt.com/oauth/client.json" "owner"
      "https://chatgpt.com/aip/callback" (some 2),
    .createGrant "grant-01" "owner" "https://chatgpt.com/oauth/client.json"
      "https://bridge.example/mcp" ["files:read"] "files-read" (some 3) (some 1000),
    .createTokenFamily "family-1" "grant-01" "owner" "https://chatgpt.com/oauth/client.json"
      "https://bridge.example/mcp" (sampleToken 'a') (some 4) (some 900),
    .rotateRefreshToken (sampleToken 'a') (sampleToken 'b') "https://chatgpt.com/oauth/client.json"
      "https://bridge.example/mcp" (some 5)]

/-- The consumed token is presented again. -/
def sampleReplay : List StoreCall :=
  [.rotateRefreshToken (sampleToken 'a') (sampleToken 'c') "https://chatgpt.com/oauth/client.json"
    "https://bridge.example/mcp" (some 6)]

/-- Nothing is paired by a bootstrap that is consumed after its time. -/
example : (evalCalls sampleStore [.createOwnerBootstrap "owner" (sampleToken 's') (some 0) (some 100),
    .consumeOwnerBootstrap (sampleToken 's') (some 101)] .empty).owners.rows.map (·.bootstrapConsumedAt) = [none] := by
  decide +kernel

/-- A run with a rotation and a replay, where the invariant is not vacuous. -/
theorem tokenFamily_invariant_pairing :
    let db := evalCalls sampleStore samplePairing .empty
    let db' := evalCalls sampleStore sampleReplay db
    (db.families.rows.map fun f => (f.status, f.currentGeneration)) = [(.active, 1)] ∧
      (db'.families.rows.map (·.status)) = [.compromised] ∧
      (∀ f ∈ db.families, db.FamilyInvariant f) ∧ ∀ f ∈ db'.families, db'.FamilyInvariant f := by
  have h := storeRun_evalCalls (S := sampleStore) samplePairing .empty
  have h' := storeRun_evalCalls (S := sampleStore) sampleReplay
    (evalCalls sampleStore samplePairing .empty)
  exact ⟨by decide +kernel, by decide +kernel, (tokenFamily_invariant sampleStore h h').1,
    (tokenFamily_invariant sampleStore (h.trans h') .refl).1⟩

end BegetBridge.Auth
