import BegetBridge.Auth.StoreSpecs

/-!
# Where the rows of the auth database come from

`Evolves` follows rows forward. Here a row is followed back over one statement: it was there
before, or the statement is one of the few that add such a row. The same for what is `ACTIVE`:
clients, and the bootstrap of the owner.

## Main definitions

* `Sql.Activates`, `Sql.AddsGrant`, `Sql.AddsFamily`, `Sql.AddsToken`: what a statement may add
* `Origin`: where everything after a statement comes from

## Main results

* `exec_origin`, `answer_origin`: every statement has this origin
-/

namespace BegetBridge.Auth

open Relational Interleaving

/-- The statement consumes a bootstrap, or inserts an owner with a consumed one. -/
def Sql.Consumes {β : Type} : Sql β → Prop
  | .insertOwner row => row.bootstrapConsumedAt.isSome
  | .consumeOwner .. => True
  | _ => False

/-- The statement may leave a client `ACTIVE` that was not. -/
def Sql.Activates {β : Type} : Sql β → ClientRow → Prop
  | .insertClient row, c => c = row
  | .reactivateClient clientId .., c => c.clientId = clientId
  | _, _ => False

def Sql.AddsGrant {β : Type} : Sql β → GrantRow → Prop
  | .insertGrant row, g => g = row
  | _, _ => False

def Sql.AddsFamily {β : Type} : Sql β → FamilyRow → Prop
  | .insertFamily f, row => row = f.row
  | _, _ => False

/-- The first token of a new family, or the token that follows the presented one in its family. -/
def Sql.AddsToken {β : Type} (db : AuthDb) : Sql β → RefreshRow → Prop
  | .insertFamily f, t => t = f.tokenRow ∧ ∀ x ∈ db.families, x.id ≠ f.id
  | .rotate r, t => r.digest ≠ r.nextDigest ∧ ∃ family ∈ db.families, t = r.nextRow family ∧
      db.HasToken r.digest family.id
  | _, _ => False

/-- Where what `db'` has comes from, after `op` at `db`. -/
structure Origin {β : Type} (op : Sql β) (db db' : AuthDb) : Prop where
  owners : ∀ ownerId, db'.Bootstrapped ownerId → db.Bootstrapped ownerId ∨ op.Consumes
  clients : ∀ c' ∈ db'.clients, c'.status = .active →
    (∃ c ∈ db.clients, c.Later c' ∧ c.status = .active) ∨ op.Activates c'
  grants : ∀ g' ∈ db'.grants, (∃ g ∈ db.grants, g.Later g') ∨ op.AddsGrant g'
  families : ∀ f' ∈ db'.families, (∃ f ∈ db.families, f.Later f') ∨ op.AddsFamily f'
  tokens : ∀ t' ∈ db'.tokens, (∃ t ∈ db.tokens, t.Later t') ∨ op.AddsToken db t'

section

variable {β : Type} {op : Sql β} {db db' : AuthDb}

namespace Origin

theorem refl : Origin op db db where
  owners _ h := .inl h
  clients c hc ha := .inl ⟨c, hc, .refl c, ha⟩
  grants g hg := .inl ⟨g, hg, .refl g⟩
  families f hf := .inl ⟨f, hf, .refl f⟩
  tokens t ht := .inl ⟨t, ht, .refl t⟩

/-- A statement that keeps every key has changed only rows that were there. -/
theorem of_evolves (h : Evolves db db')
    (ho : ∀ ownerId, db'.Bootstrapped ownerId → db.Bootstrapped ownerId)
    (hc : ∀ c' ∈ db'.clients, c'.status = .active →
      ∃ c ∈ db.clients, c.clientId = c'.clientId ∧ c.status = .active)
    (hg : ∀ g' ∈ db'.grants, ∃ g ∈ db.grants, g'.id = g.id)
    (hf : ∀ f' ∈ db'.families, ∃ f ∈ db.families, f'.id = f.id)
    (ht : ∀ t' ∈ db'.tokens, ∃ t ∈ db.tokens, t'.digest = t.digest) : Origin op db db' where
  owners ownerId hb := .inl (ho ownerId hb)
  clients c' hc' ha := by
    obtain ⟨c, hmem, hid, hactive⟩ := hc c' hc' ha
    exact .inl ⟨c, hmem, h.client_of_id hmem hc' hid.symm, hactive⟩
  grants g' hg' := by
    obtain ⟨g, hmem, hid⟩ := hg g' hg'
    exact .inl ⟨g, hmem, h.grant_of_id hmem hg' hid⟩
  families f' hf' := by
    obtain ⟨f, hmem, hid⟩ := hf f' hf'
    exact .inl ⟨f, hmem, h.family_of_id hmem hf' hid⟩
  tokens t' ht' := by
    obtain ⟨t, hmem, hid⟩ := ht t' ht'
    exact .inl ⟨t, hmem, h.token_of_digest hmem ht' hid⟩

end Origin

/-! ## Ending access adds nothing -/

theorem endGrants_grants {which : GrantRow → Bool} {status : GrantStatus} :
    ∀ g' ∈ (db.endGrants which status).grants, ∃ g ∈ db.grants, g'.id = g.id := by
  intro g' hg'
  obtain ⟨g, hg, rfl⟩ := mem_endGrants.mp hg'
  refine ⟨g, hg, ?_⟩
  split <;> rfl

theorem endFamilies_families {which : FamilyRow → Bool} {during : List FamilyStatus}
    {status : FamilyStatus} {revokedAt : Instant} {reason : String} {tokensOf : String → Bool} :
    ∀ f' ∈ (db.endFamilies which during status revokedAt reason tokensOf).families,
      ∃ f ∈ db.families, f'.id = f.id := by
  intro f' hf'
  obtain ⟨f, hf, rfl⟩ := mem_endFamilies_families.mp hf'
  refine ⟨f, hf, ?_⟩
  split <;> rfl

theorem endFamilies_tokens {which : FamilyRow → Bool} {during : List FamilyStatus}
    {status : FamilyStatus} {revokedAt : Instant} {reason : String} {tokensOf : String → Bool} :
    ∀ t' ∈ (db.endFamilies which during status revokedAt reason tokensOf).tokens,
      ∃ t ∈ db.tokens, t'.digest = t.digest := by
  intro t' ht'
  obtain ⟨t, ht, rfl⟩ := mem_endFamilies_tokens.mp ht'
  refine ⟨t, ht, ?_⟩
  split <;> rfl

theorem keep_clients : ∀ c' ∈ db.clients, c'.status = .active →
    ∃ c ∈ db.clients, c.clientId = c'.clientId ∧ c.status = .active :=
  fun c hc ha => ⟨c, hc, rfl, ha⟩

theorem origin_endGrants {which : GrantRow → Bool} {status : GrantStatus} :
    Origin op db (db.endGrants which status) :=
  .of_evolves (endGrants_evolves _ _) (fun _ h => h) keep_clients endGrants_grants
    (fun f hf => ⟨f, hf, rfl⟩) fun t ht => ⟨t, ht, rfl⟩

theorem origin_endFamilies {which : FamilyRow → Bool} {during : List FamilyStatus}
    {status : FamilyStatus} (hstatus : status ≠ .active) {revokedAt : Instant} {reason : String}
    {tokensOf : String → Bool} :
    Origin op db (db.endFamilies which during status revokedAt reason tokensOf) :=
  .of_evolves (endFamilies_evolves _ _ hstatus _ _ _) (fun _ h => h) keep_clients
    (fun g hg => ⟨g, hg, rfl⟩) endFamilies_families endFamilies_tokens

theorem origin_endBoth {whichGrants : GrantRow → Bool} {grantStatus : GrantStatus}
    {which : FamilyRow → Bool} {during : List FamilyStatus} {status : FamilyStatus}
    (hstatus : status ≠ .active) {revokedAt : Instant} {reason : String} {tokensOf : String → Bool} :
    Origin op db ((db.endGrants whichGrants grantStatus).endFamilies which during status revokedAt
      reason tokensOf) :=
  .of_evolves ((endGrants_evolves _ _).trans (endFamilies_evolves _ _ hstatus _ _ _))
    (fun _ h => h) keep_clients endGrants_grants endFamilies_families endFamilies_tokens

/-- A reset leaves the owner without a bootstrap and the owner's clients disabled. -/
theorem resetOwner_owners {ownerId digest : String} {resetAt expiresAt : Instant} {u : Unit}
    (h : db.resetOwner ownerId digest resetAt expiresAt = .ok (u, db')) {o' : OwnerRow}
    (ho' : o' ∈ db'.owners) : ∃ o ∈ db.owners,
      o'.id = o.id ∧ (o.id = ownerId → o'.bootstrapConsumedAt = none) ∧ (o.id ≠ ownerId → o' = o) := by
  obtain rfl := resetOwner_eq_ok h
  obtain ⟨o, ho, rfl⟩ := (@Table.mem_rewrite _ _ _ _ _ (by exact ⟨fun _ _ => rfl⟩) _).mp ho'
  refine ⟨o, ho, ?_⟩
  split
  · exact ⟨rfl, fun _ => rfl, fun hne => absurd (beq_iff_eq.mp ‹_›) hne⟩
  · exact ⟨rfl, fun he => absurd (beq_iff_eq.mpr he) ‹_›, fun _ => rfl⟩

theorem resetOwner_clients {ownerId digest : String} {resetAt expiresAt : Instant} {u : Unit}
    (h : db.resetOwner ownerId digest resetAt expiresAt = .ok (u, db')) {c' : ClientRow}
    (hc' : c' ∈ db'.clients) : (c'.ownerId = ownerId → c'.status = .disabled) ∧
      (c'.ownerId ≠ ownerId → c' ∈ db.clients) := by
  obtain rfl := resetOwner_eq_ok h
  obtain ⟨c, hc, rfl⟩ := (@Table.mem_rewrite _ _ _ _ _ (by exact ⟨fun _ _ => rfl⟩) _).mp hc'
  split
  · exact ⟨fun _ => rfl, fun hne => absurd (beq_iff_eq.mp ‹_›) hne⟩
  · exact ⟨fun he => absurd (beq_iff_eq.mpr he) ‹_›, fun _ => hc⟩

theorem origin_resetOwner {ownerId digest : String} {resetAt expiresAt : Instant} {u : Unit}
    (h : db.resetOwner ownerId digest resetAt expiresAt = .ok (u, db')) : Origin op db db' := by
  have hev := resetOwner_evolves h
  have hend : Origin op db (db.endOwnerAccess ownerId .reset resetAt "owner_reset") :=
    origin_endBoth (by decide)
  have howners : ∀ id, db'.Bootstrapped id → db.Bootstrapped id := by
    rintro id ⟨o', ho', hid, hactive, hconsumed⟩
    obtain ⟨o, ho, hoid, hreset, hkept⟩ := resetOwner_owners h ho'
    by_cases hown : o.id = ownerId
    · rw [hreset hown] at hconsumed
      cases hconsumed
    · obtain rfl := hkept hown
      exact ⟨o', ho, hid, hactive, hconsumed⟩
  have hclients : ∀ c' ∈ db'.clients, c'.status = .active →
      ∃ c ∈ db.clients, c.Later c' ∧ c.status = .active := by
    intro c' hc' ha
    obtain ⟨hdisabled, hkept⟩ := resetOwner_clients h hc'
    by_cases hown : c'.ownerId = ownerId
    · rw [hdisabled hown] at ha
      cases ha
    · exact ⟨c', hkept hown, .refl c', ha⟩
  obtain rfl := resetOwner_eq_ok h
  exact ⟨fun id hb => .inl (howners id hb), fun c' hc' ha => .inl (hclients c' hc' ha), hend.grants,
    hend.families, hend.tokens⟩

/-! ## Inserts and rotations -/

theorem origin_insertFamily {f : NewFamily} {u : Unit} (h : db.insertFamily f = .ok (u, db')) :
    Origin (.insertFamily f) db db' := by
  obtain ⟨families, tokens, hf, ht, rfl⟩ := insertFamily_eq_ok h
  refine ⟨fun _ h => .inl h, fun c hc ha => .inl ⟨c, hc, .refl c, ha⟩,
    fun g hg => .inl ⟨g, hg, .refl g⟩, fun x hx => ?_, fun x hx => ?_⟩
  · exact ((Table.mem_insert hf).mp hx).imp (fun hx => ⟨x, hx, .refl x⟩) id
  · refine ((Table.mem_insert ht).mp hx).imp (fun hx => ⟨x, hx, .refl x⟩) fun he => ⟨he, ?_⟩
    exact fun y hy => beq_eq_false_iff_ne.mp ((Table.insert_eq_some hf).2 y hy)

theorem origin_advance {r : Rotation} {token : RefreshRow} {family : FamilyRow} {grant : GrantRow}
    (hj : db.joined r.digest = some (token, family, grant)) (h : db.advance r family = .ok db') :
    Origin (.rotate r) db db' := by
  have hev := advance_evolves h
  obtain ⟨tokens, ht, rfl⟩ := advance_eq_ok h
  obtain ⟨⟨htoken, hdigest⟩, ⟨hfamily, hid⟩, -⟩ := joined_eq_some hj
  refine ⟨fun _ h => .inl h, fun c hc ha => .inl ⟨c, hc, .refl c, ha⟩,
    fun g hg => .inl ⟨g, hg, .refl g⟩, fun x hx => ?_, fun x hx => ?_⟩
  · obtain ⟨f, hf, rfl⟩ := mem_advanced.mp hx
    exact .inl ⟨f, hf, hev.family_of_id hf hx (by split <;> rfl)⟩
  · rcases (Table.mem_insert ht).mp hx with hold | rfl
    · obtain ⟨t, hmem, rfl⟩ := mem_consumed.mp hold
      exact .inl ⟨t, hmem, hev.token_of_digest hmem hx (by split <;> rfl)⟩
    · refine .inr ⟨fun heq => ?_, family, hfamily, rfl, token, htoken, hdigest, hid.symm⟩
      -- the consumed row holds the digest of the presented token
      have hold := (Table.insert_eq_some ht).2 _ (mem_consumed.mpr ⟨token, htoken, rfl⟩)
      refine absurd ?_ (Bool.eq_false_iff.mp hold)
      show (_ == _ || _) = true
      rw [Bool.or_eq_true, beq_iff_eq]
      refine .inl ?_
      split <;> exact hdigest.trans heq

theorem origin_rotate {r : Rotation} {out : RotationOutcome} (h : db.rotate r = .ok (out, db')) :
    Origin (.rotate r) db db' := by
  obtain ⟨_, _, rfl⟩ | ⟨_, _, _, _, _, _, rfl⟩ | ⟨_, _, _, _, _, _, rfl⟩ |
    ⟨_, _, _, _, hj, _, _, _, _, _, _, _, _, hadv⟩ := rotate_cases h
  · exact .refl
  · exact origin_endFamilies (by decide)
  · exact origin_endFamilies (by decide)
  · exact origin_advance hj hadv

/-- An accepted rotation presents the current token of a live family and leaves the next one. -/
structure Accepted (db db' : AuthDb) (r : Rotation) (familyId grantId : String) : Prop where
  family : ∃ f ∈ db.families, f.id = familyId ∧ f.status = .active ∧ f.grantId = grantId
  presented : ∃ t ∈ db.tokens, t.digest = r.digest ∧ t.familyId = familyId ∧ t.status = .active
  consumed : ∃ t ∈ db'.tokens, t.digest = r.digest ∧ t.status = .consumed
  next : db'.HasToken r.nextDigest familyId

theorem rotate_eq_rotated {r : Rotation} {familyId grantId : String}
    (h : db.rotate r = .ok (.rotated familyId grantId, db')) : Accepted db db' r familyId grantId := by
  obtain ⟨_, hout, _⟩ | ⟨_, _, _, _, hout, _⟩ | ⟨_, _, _, _, hout, _⟩ |
    ⟨token, family, grant, hout, hj, _, _, hfa, _, _, _, hta, _, hadv⟩ := rotate_cases h
  · cases hout
  · cases hout
  · cases hout
  · obtain ⟨rfl, rfl⟩ := RotationOutcome.rotated.inj hout
    obtain ⟨⟨ht, hd⟩, ⟨hf, hid⟩, -, hgid⟩ := joined_eq_some hj
    obtain ⟨tokens, hins, rfl⟩ := advance_eq_ok hadv
    refine ⟨⟨family, hf, rfl, hfa, hgid.symm⟩, ⟨token, ht, hd, hid.symm, hta⟩, ?_, ?_⟩
    · refine ⟨_, (Table.mem_insert hins).mpr (.inl (mem_consumed.mpr ⟨token, ht, rfl⟩)), ?_⟩
      have hsel : r.presents token = true := by simp [Rotation.presents, hd, hta]
      rw [if_pos hsel]
      exact ⟨hd, rfl⟩
    · exact ⟨_, (Table.mem_insert hins).mpr (.inr rfl), rfl, rfl⟩

theorem origin_insertClient {row : ClientRow} {u : Unit} (h : db.insertClient row = .ok (u, db')) :
    Origin (.insertClient row) db db' := by
  obtain ⟨clients, hc, rfl⟩ := insertClient_eq_ok h
  refine ⟨fun _ h => .inl h, fun c hmem ha => ?_, fun g hg => .inl ⟨g, hg, .refl g⟩,
    fun f hf => .inl ⟨f, hf, .refl f⟩, fun t ht => .inl ⟨t, ht, .refl t⟩⟩
  exact ((Table.mem_insert hc).mp hmem).imp (fun hold => ⟨c, hold, .refl c, ha⟩) id

theorem origin_insertGrant {row : GrantRow} {u : Unit} (h : db.insertGrant row = .ok (u, db')) :
    Origin (.insertGrant row) db db' := by
  obtain ⟨grants, hg, rfl⟩ := insertGrant_eq_ok h
  refine ⟨fun _ h => .inl h, fun c hc ha => .inl ⟨c, hc, .refl c, ha⟩, fun g hmem => ?_,
    fun f hf => .inl ⟨f, hf, .refl f⟩, fun t ht => .inl ⟨t, ht, .refl t⟩⟩
  exact ((Table.mem_insert hg).mp hmem).imp (fun hold => ⟨g, hold, .refl g⟩) id

theorem origin_insertOwner {row : OwnerRow} {u : Unit} (h : db.insertOwner row = .ok (u, db')) :
    Origin (.insertOwner row) db db' := by
  obtain ⟨owners, ho, rfl⟩ := insertOwner_eq_ok h
  refine ⟨fun id hb => ?_, fun c hc ha => .inl ⟨c, hc, .refl c, ha⟩,
    fun g hg => .inl ⟨g, hg, .refl g⟩, fun f hf => .inl ⟨f, hf, .refl f⟩,
    fun t ht => .inl ⟨t, ht, .refl t⟩⟩
  obtain ⟨o, hmem, hid, hactive, hconsumed⟩ := hb
  rcases (Table.mem_insert ho).mp hmem with hold | rfl
  · exact .inl ⟨o, hold, hid, hactive, hconsumed⟩
  · exact .inr hconsumed

theorem origin_reactivate {clientId ownerId redirectUri : String} {createdAt : Instant} {n : Nat}
    (h : (Sql.reactivateClient clientId ownerId redirectUri createdAt).exec db = .ok (n, db')) :
    Origin (.reactivateClient clientId ownerId redirectUri createdAt) db db' := by
  have hev := exec_evolves h
  obtain ⟨-, rfl⟩ := Prod.mk.inj (Except.ok.inj h)
  refine ⟨fun _ h => .inl h, fun c hmem ha => ?_, fun g hg => .inl ⟨g, hg, .refl g⟩,
    fun f hf => .inl ⟨f, hf, .refl f⟩, fun t ht => .inl ⟨t, ht, .refl t⟩⟩
  obtain ⟨c₀, hc₀, rfl⟩ := (@Table.mem_rewrite _ _ _ _ _ (by exact ⟨fun _ _ => rfl⟩) _).mp hmem
  split at hmem
  · rename_i hsel
    refine .inr ?_
    rw [if_pos hsel]
    simp only [Bool.and_eq_true, beq_iff_eq] at hsel
    exact hsel.1.1.1
  · rename_i hsel
    rw [if_neg hsel] at ha ⊢
    exact .inl ⟨c₀, hc₀, .refl c₀, ha⟩

theorem origin_consumeOwner {id : String} {at_ : Instant} {n : Nat}
    (h : (Sql.consumeOwner id at_).exec db = .ok (n, db')) :
    Origin (.consumeOwner id at_) db db' := by
  obtain ⟨-, rfl⟩ := Prod.mk.inj (Except.ok.inj h)
  exact ⟨fun _ _ => .inr trivial, fun c hc ha => .inl ⟨c, hc, .refl c, ha⟩,
    fun g hg => .inl ⟨g, hg, .refl g⟩, fun f hf => .inl ⟨f, hf, .refl f⟩,
    fun t ht => .inl ⟨t, ht, .refl t⟩⟩

/-- **Where the rows come from.** -/
theorem exec_origin {b : β} (h : op.exec db = .ok (b, db')) :
    Origin op db db' := by
  have hread : ∀ {γ : Type} {x : γ} {b : γ}, Except.ok (x, db) = (.ok (b, db') : Except SqlError _) →
      Origin op db db' := fun h => (Prod.mk.inj (Except.ok.inj h)).2 ▸ .refl
  have hwrite : ∀ {γ : Type} {x : γ} {b : γ} {db₁ : AuthDb},
      Except.ok (x, db₁) = (.ok (b, db') : Except SqlError _) → Origin op db db₁ → Origin op db db' :=
    fun h he => (Prod.mk.inj (Except.ok.inj h)).2 ▸ he
  cases op with
  | insertOwner row => exact origin_insertOwner h
  | insertClient row => exact origin_insertClient h
  | insertGrant row => exact origin_insertGrant h
  | insertFamily f => exact origin_insertFamily h
  | consumeOwner id at_ => exact origin_consumeOwner h
  | reactivateClient clientId ownerId redirectUri createdAt => exact origin_reactivate h
  | expireGrant id => exact hwrite h origin_endGrants
  | expireFamily site id now => exact hwrite h (origin_endFamilies (by decide))
  | revokeFamily id ownerId at_ reason => exact hwrite h (origin_endFamilies (by decide))
  | revokeGrant grantId ownerId at_ reason => exact hwrite h (origin_endBoth (by decide))
  | revokeOwner ownerId at_ reason => exact hwrite h (origin_endBoth (by decide))
  | resetOwner ownerId digest resetAt expiresAt => exact origin_resetOwner h
  | rotate r => exact origin_rotate h
  | countActive table ownerId => cases table <;> exact hread h
  | selectPendingOwner => exact hread h
  | selectOwner id => exact hread h
  | selectClient site clientId => exact hread h
  | selectActiveClients ownerId redirectUri => exact hread h
  | selectGrant id => exact hread h
  | selectFamily site id => exact hread h
  | selectTokenFamily digest => exact hread h

theorem answer_origin {Fault : SqlError → Prop} {r : Except SqlError β}
    (h : Answer authBackend Fault op db r db') : Origin op db db' := by
  cases h with
  | effect he => exact exec_origin he
  | refusal => exact .refl
  | fault => exact .refl

end

end BegetBridge.Auth
