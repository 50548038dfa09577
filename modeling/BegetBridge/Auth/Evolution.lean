import BegetBridge.Auth.Statements

/-!
# How the auth database evolves

No statement deletes a row or changes what a row is bound to; what has ended stays ended, and a
consumed or revoked refresh token stays so. `Evolves` says this of two databases. It is a
preorder that every statement respects, so it relates any two databases of a run, whoever ran
the statements between them.

## Main definitions

* `GrantRow.Later`, `FamilyRow.Later`, `RefreshRow.Later`: what may change in a row
* `Evolves`: every table grows by such changes

## Main results

* `exec_evolves`, `answer_evolves`: every statement makes the database evolve
* `Evolves.grant_of_id`, `Evolves.family_of_id`: the row with the same key is the later one
-/

namespace BegetBridge.Auth

open Relational Interleaving

/-- An owner stays; the bootstrap may be replaced or consumed. -/
def OwnerRow.Later (o o' : OwnerRow) : Prop := o'.id = o.id ∧ o'.createdAt = o.createdAt

/-- A client keeps its owner and its redirect URI. -/
def ClientRow.Later (c c' : ClientRow) : Prop :=
  c'.clientId = c.clientId ∧ c'.ownerId = c.ownerId ∧ c'.redirectUri = c.redirectUri

/-- A grant keeps all but its status, and leaves `ACTIVE` for good. -/
def GrantRow.Later (g g' : GrantRow) : Prop :=
  g' = { g with status := g'.status } ∧ (g.status ≠ .active → g'.status = g.status)

/-- A family keeps its binding and its expiry. It leaves `ACTIVE` for good, and rotates only
before that. -/
structure FamilyRow.Later (f f' : FamilyRow) : Prop where
  kept : f' = { f with
    status := f'.status, revokedAt := f'.revokedAt, revokeReason := f'.revokeReason
    currentGeneration := f'.currentGeneration }
  generation_le : f.currentGeneration ≤ f'.currentGeneration
  ended : f.status ≠ .active → f'.status ≠ .active ∧ f'.currentGeneration = f.currentGeneration

/-- A refresh token keeps its family, generation and expiry, and leaves `ACTIVE` for good. -/
def RefreshRow.Later (t t' : RefreshRow) : Prop :=
  t' = { t with consumedAt := t'.consumedAt, status := t'.status } ∧
    (t.status ≠ .active → t'.status = t.status)

section Rows

theorem OwnerRow.Later.refl (o : OwnerRow) : o.Later o := ⟨rfl, rfl⟩

theorem OwnerRow.Later.trans {a b c : OwnerRow} (h : a.Later b) (h' : b.Later c) : a.Later c :=
  ⟨h'.1.trans h.1, h'.2.trans h.2⟩

theorem ClientRow.Later.refl (c : ClientRow) : c.Later c := ⟨rfl, rfl, rfl⟩

theorem ClientRow.Later.trans {a b c : ClientRow} (h : a.Later b) (h' : b.Later c) : a.Later c :=
  ⟨h'.1.trans h.1, h'.2.1.trans h.2.1, h'.2.2.trans h.2.2⟩

theorem GrantRow.Later.refl (g : GrantRow) : g.Later g := ⟨rfl, fun _ => rfl⟩

theorem GrantRow.Later.trans {a b c : GrantRow} (h : a.Later b) (h' : b.Later c) : a.Later c := by
  obtain ⟨hb, hab⟩ := h
  obtain ⟨hc, hbc⟩ := h'
  refine ⟨?_, fun ha => ?_⟩
  · rw [hc, hb]
  · rw [hbc (hab ha ▸ ha), hab ha]

theorem FamilyRow.Later.refl (f : FamilyRow) : f.Later f :=
  ⟨rfl, le_rfl, fun h => ⟨h, rfl⟩⟩

theorem FamilyRow.Later.trans {a b c : FamilyRow} (h : a.Later b) (h' : b.Later c) : a.Later c := by
  refine ⟨?_, h.generation_le.trans h'.generation_le, fun ha => ?_⟩
  · rw [h'.kept, h.kept]
  · obtain ⟨hb, hgen⟩ := h.ended ha
    exact ⟨(h'.ended hb).1, (h'.ended hb).2.trans hgen⟩

theorem RefreshRow.Later.refl (t : RefreshRow) : t.Later t := ⟨rfl, fun _ => rfl⟩

theorem RefreshRow.Later.trans {a b c : RefreshRow} (h : a.Later b) (h' : b.Later c) :
    a.Later c := by
  obtain ⟨hb, hab⟩ := h
  obtain ⟨hc, hbc⟩ := h'
  refine ⟨?_, fun ha => ?_⟩
  · rw [hc, hb]
  · rw [hbc (hab ha ▸ ha), hab ha]

end Rows

/-- Every row lives on, changed only as its kind allows. -/
structure Evolves (db db' : AuthDb) : Prop where
  owners : db.owners.Grows OwnerRow.Later db'.owners
  clients : db.clients.Grows ClientRow.Later db'.clients
  grants : db.grants.Grows GrantRow.Later db'.grants
  families : db.families.Grows FamilyRow.Later db'.families
  tokens : db.tokens.Grows RefreshRow.Later db'.tokens

/-- The family `id` has the token with digest `d`. -/
def AuthDb.HasToken (db : AuthDb) (d id : String) : Prop :=
  ∃ t ∈ db.tokens, t.digest = d ∧ t.familyId = id

namespace Evolves

variable {db db' db'' : AuthDb}

theorem refl (db : AuthDb) : Evolves db db :=
  ⟨.refl .refl, .refl .refl, .refl .refl, .refl .refl, .refl .refl⟩

theorem trans (h : Evolves db db') (h' : Evolves db' db'') : Evolves db db'' :=
  ⟨h.owners.trans .trans h'.owners, h.clients.trans .trans h'.clients,
    h.grants.trans .trans h'.grants, h.families.trans .trans h'.families,
    h.tokens.trans .trans h'.tokens⟩

theorem with_owners {owners : Table OwnerRow} (h : db.owners.Grows OwnerRow.Later owners) :
    Evolves db { db with owners := owners } :=
  ⟨h, .refl .refl, .refl .refl, .refl .refl, .refl .refl⟩

theorem with_clients {clients : Table ClientRow} (h : db.clients.Grows ClientRow.Later clients) :
    Evolves db { db with clients := clients } :=
  ⟨.refl .refl, h, .refl .refl, .refl .refl, .refl .refl⟩

theorem with_grants {grants : Table GrantRow} (h : db.grants.Grows GrantRow.Later grants) :
    Evolves db { db with grants := grants } :=
  ⟨.refl .refl, .refl .refl, h, .refl .refl, .refl .refl⟩

theorem with_families {families : Table FamilyRow} {tokens : Table RefreshRow}
    (hf : db.families.Grows FamilyRow.Later families)
    (ht : db.tokens.Grows RefreshRow.Later tokens) :
    Evolves db { db with families := families, tokens := tokens } :=
  ⟨.refl .refl, .refl .refl, .refl .refl, hf, ht⟩

theorem client_of_id (h : Evolves db db') {c c' : ClientRow} (hc : c ∈ db.clients)
    (hc' : c' ∈ db'.clients) (hid : c'.clientId = c.clientId) : c.Later c' := by
  obtain ⟨x, hx, hlater⟩ := h.clients c hc
  have : c' = x := Table.eq_of_clash hc' hx (beq_iff_eq.mpr (hid.trans hlater.1.symm))
  exact this ▸ hlater

theorem grant_of_id (h : Evolves db db') {g g' : GrantRow} (hg : g ∈ db.grants)
    (hg' : g' ∈ db'.grants) (hid : g'.id = g.id) : g.Later g' := by
  obtain ⟨x, hx, hlater⟩ := h.grants g hg
  have hxid : x.id = g.id := by rw [hlater.1]
  have : g' = x := Table.eq_of_clash hg' hx (beq_iff_eq.mpr (hid.trans hxid.symm))
  exact this ▸ hlater

theorem family_of_id (h : Evolves db db') {f f' : FamilyRow} (hf : f ∈ db.families)
    (hf' : f' ∈ db'.families) (hid : f'.id = f.id) : f.Later f' := by
  obtain ⟨x, hx, hlater⟩ := h.families f hf
  have hxid : x.id = f.id := by rw [hlater.kept]
  have : f' = x := Table.eq_of_clash hf' hx (beq_iff_eq.mpr (hid.trans hxid.symm))
  exact this ▸ hlater

theorem token_of_digest (h : Evolves db db') {t t' : RefreshRow} (ht : t ∈ db.tokens)
    (ht' : t' ∈ db'.tokens) (hd : t'.digest = t.digest) : t.Later t' := by
  obtain ⟨x, hx, hlater⟩ := h.tokens t ht
  have hxd : x.digest = t.digest := by rw [hlater.1]
  have hclash : clash t' x = true := by
    show (t'.digest == x.digest || _) = true
    rw [beq_iff_eq.mpr (hd.trans hxd.symm), Bool.true_or]
  exact Table.eq_of_clash ht' hx hclash ▸ hlater

/-- A token lives on under its digest, in its family. -/
theorem hasToken (h : Evolves db db') {d id : String} (ht : db.HasToken d id) : db'.HasToken d id := by
  obtain ⟨t, ht, hd, hid⟩ := ht
  obtain ⟨t', ht', hlater⟩ := h.tokens t ht
  refine ⟨t', ht', ?_⟩
  rw [hlater.1]
  exact ⟨hd, hid⟩

end Evolves

/-! ## The rows after a statement -/

section Statements

variable {db db' : AuthDb}

theorem mem_endGrants {which : GrantRow → Bool} {status : GrantStatus} {g' : GrantRow} :
    g' ∈ (db.endGrants which status).grants ↔ ∃ g ∈ db.grants,
      g' = if which g && g.status == .active then { g with status := status } else g :=
  @Table.mem_rewrite _ _ _ _ _ (by exact ⟨fun _ _ => rfl⟩) _

theorem mem_endFamilies_families {which : FamilyRow → Bool} {during : List FamilyStatus}
    {status : FamilyStatus} {revokedAt : Instant} {reason : String} {tokensOf : String → Bool}
    {f' : FamilyRow} :
    f' ∈ (db.endFamilies which during status revokedAt reason tokensOf).families ↔
      ∃ f ∈ db.families, f' = if which f && decide (f.status ∈ during) then
        { f with status := status, revokedAt := some revokedAt, revokeReason := some reason }
      else f :=
  @Table.mem_rewrite _ _ _ _ _ (by exact ⟨fun _ _ => rfl⟩) _

theorem mem_endFamilies_tokens {which : FamilyRow → Bool} {during : List FamilyStatus}
    {status : FamilyStatus} {revokedAt : Instant} {reason : String} {tokensOf : String → Bool}
    {t' : RefreshRow} :
    t' ∈ (db.endFamilies which during status revokedAt reason tokensOf).tokens ↔
      ∃ t ∈ db.tokens, t' = if tokensOf t.familyId && t.status == .active then
        { t with status := .revoked } else t :=
  @Table.mem_rewrite _ _ _ _ _ (by exact ⟨fun _ _ => rfl⟩) _

theorem mem_consumed {r : Rotation} {t' : RefreshRow} :
    t' ∈ db.consumed r ↔ ∃ t ∈ db.tokens, t' = if r.presents t then
      { t with status := .consumed, consumedAt := some r.now } else t :=
  @Table.mem_rewrite _ _ _ _ _ (by exact ⟨fun _ _ => rfl⟩) _

theorem mem_advanced {family f' : FamilyRow} :
    f' ∈ db.advanced family ↔ ∃ f ∈ db.families,
      f' = if f.id == family.id && f.status == .active &&
          f.currentGeneration == family.currentGeneration then
        { f with currentGeneration := family.currentGeneration + 1 } else f :=
  @Table.mem_rewrite _ _ _ _ _ (by exact ⟨fun _ _ => rfl⟩) _

/-! ## Every statement makes the database evolve -/

theorem endGrants_evolves (which : GrantRow → Bool) (status : GrantStatus) :
    Evolves db (db.endGrants which status) := by
  refine .with_grants (.rewrite _ .refl fun g hsel => ⟨rfl, fun hne => ?_⟩)
  simp only [Bool.and_eq_true, beq_iff_eq] at hsel
  exact absurd hsel.2 hne

theorem endFamilies_evolves (which : FamilyRow → Bool) (during : List FamilyStatus)
    {status : FamilyStatus} (hstatus : status ≠ .active) (revokedAt : Instant) (reason : String)
    (tokensOf : String → Bool) :
    Evolves db (db.endFamilies which during status revokedAt reason tokensOf) := by
  refine .with_families (.rewrite _ .refl fun f _ => ⟨rfl, le_rfl, fun _ => ⟨hstatus, rfl⟩⟩)
    (.rewrite _ .refl fun t hsel => ⟨rfl, fun hne => ?_⟩)
  simp only [Bool.and_eq_true, beq_iff_eq] at hsel
  exact absurd hsel.2 hne

theorem expireFamily_evolves (id : String) (now : Instant) :
    Evolves db (db.expireFamily id now) :=
  endFamilies_evolves _ _ (by decide) _ _ _

theorem compromiseFamily_evolves (id : String) (now : Instant) :
    Evolves db (db.compromiseFamily id now) :=
  endFamilies_evolves _ _ (by decide) _ _ _

theorem endOwnerAccess_evolves (ownerId : String) {status : FamilyStatus}
    (hstatus : status ≠ .active) (at_ : Instant) (reason : String) :
    Evolves db (db.endOwnerAccess ownerId status at_ reason) :=
  (endGrants_evolves _ _).trans (endFamilies_evolves _ _ hstatus _ _ _)

theorem revokeGrant_evolves (grantId ownerId : String) (at_ : Instant) (reason : String) :
    Evolves db (db.revokeGrant grantId ownerId at_ reason) :=
  (endGrants_evolves _ _).trans (endFamilies_evolves _ _ (by decide) _ _ _)

/-- What `resetOwner` leaves. -/
theorem resetOwner_eq_ok {ownerId digest : String} {resetAt expiresAt : Instant} {u : Unit}
    (h : db.resetOwner ownerId digest resetAt expiresAt = .ok (u, db')) :
    db' = { db.endOwnerAccess ownerId .reset resetAt "owner_reset" with
      clients := db.clients.rewrite (fun c => c.ownerId == ownerId)
        (f := fun c => { c with status := .disabled }) ⟨fun _ _ => rfl⟩
      owners := db.owners.rewrite (fun o => o.id == ownerId)
        (f := fun o => { o with
          bootstrapDigest := digest, bootstrapExpiresAt := expiresAt
          bootstrapConsumedAt := none, status := .active }) ⟨fun _ _ => rfl⟩ } := by
  simp only [AuthDb.resetOwner] at h
  split at h
  · exact (Prod.mk.inj (Except.ok.inj h)).2.symm
  · exact absurd h (by simp)

theorem resetOwner_evolves {ownerId digest : String} {resetAt expiresAt : Instant} {u : Unit}
    (h : db.resetOwner ownerId digest resetAt expiresAt = .ok (u, db')) : Evolves db db' := by
  obtain rfl := resetOwner_eq_ok h
  have hend : Evolves db (db.endOwnerAccess ownerId .reset resetAt "owner_reset") :=
    endOwnerAccess_evolves ownerId (by decide) _ _
  refine ⟨?_, ?_, hend.grants, hend.families, hend.tokens⟩ <;> dsimp only
  · exact .rewrite _ .refl fun _ _ => ⟨rfl, rfl⟩
  · exact .rewrite _ .refl fun _ _ => ⟨rfl, rfl, rfl⟩

/-- What `insertFamily` leaves: one family and one token more. -/
theorem insertFamily_eq_ok {f : NewFamily} {u : Unit} (h : db.insertFamily f = .ok (u, db')) :
    ∃ families tokens, db.families.insert f.row = some families ∧
      db.tokens.insert f.tokenRow = some tokens ∧
      db' = { db with families := families, tokens := tokens } := by
  unfold AuthDb.insertFamily at h
  split at h
  · exact absurd h (by simp)
  · rename_i families hfam
    split at h
    · split at h
      · exact absurd h (by simp)
      · rename_i tokens htok
        exact ⟨families, tokens, hfam, htok, (Prod.mk.inj (Except.ok.inj h)).2.symm⟩
    · exact absurd h (by simp)

theorem insertClient_eq_ok {row : ClientRow} {u : Unit} (h : db.insertClient row = .ok (u, db')) :
    ∃ clients, db.clients.insert row = some clients ∧ db' = { db with clients := clients } := by
  unfold AuthDb.insertClient at h
  split at h
  · exact absurd h (by simp)
  · split at h
    · exact ⟨_, ‹_›, (Prod.mk.inj (Except.ok.inj h)).2.symm⟩
    · exact absurd h (by simp)

theorem insertGrant_eq_ok {row : GrantRow} {u : Unit} (h : db.insertGrant row = .ok (u, db')) :
    ∃ grants, db.grants.insert row = some grants ∧ db' = { db with grants := grants } := by
  unfold AuthDb.insertGrant at h
  split at h
  · exact absurd h (by simp)
  · split at h
    · exact ⟨_, ‹_›, (Prod.mk.inj (Except.ok.inj h)).2.symm⟩
    · exact absurd h (by simp)

theorem insertOwner_eq_ok {row : OwnerRow} {u : Unit} (h : db.insertOwner row = .ok (u, db')) :
    ∃ owners, db.owners.insert row = some owners ∧ db' = { db with owners := owners } := by
  unfold AuthDb.insertOwner at h
  split at h
  · exact ⟨_, ‹_›, (Prod.mk.inj (Except.ok.inj h)).2.symm⟩
  · exact absurd h (by simp)

/-- What `advance` leaves: the presented token consumed, the next one issued, the family at the
next generation. -/
theorem advance_eq_ok {r : Rotation} {family : FamilyRow} (h : db.advance r family = .ok db') :
    ∃ tokens, (db.consumed r).insert (r.nextRow family) = some tokens ∧
      db' = { db with tokens := tokens, families := db.advanced family } := by
  simp only [AuthDb.advance] at h
  split at h
  · split at h
    · exact absurd h (by simp)
    · rename_i tokens htok
      exact ⟨tokens, htok, (Except.ok.inj h).symm⟩
  · exact absurd h (by simp)

theorem advance_evolves {r : Rotation} {family : FamilyRow} (h : db.advance r family = .ok db') :
    Evolves db db' := by
  obtain ⟨tokens, htok, rfl⟩ := advance_eq_ok h
  refine .with_families (.rewrite _ .refl fun f hsel => ?_)
    (.trans .trans (.rewrite _ .refl fun t hsel => ⟨rfl, fun hne => ?_⟩) (.insert .refl htok))
  · simp only [Bool.and_eq_true, beq_iff_eq] at hsel
    exact ⟨rfl, by simp only [hsel.2, Nat.le_succ], fun hne => absurd hsel.1.2 hne⟩
  · simp only [Rotation.presents, Bool.and_eq_true, beq_iff_eq] at hsel
    exact absurd hsel.2 hne

/-- What the rotation transaction does: it refuses and leaves the database, expires the family or
compromises it; or it rotates the current token of a live family. -/
theorem rotate_cases {r : Rotation} {out : RotationOutcome} (h : db.rotate r = .ok (out, db')) :
    (∃ e, out = .refused e ∧ db' = db) ∨
    (∃ e token family grant, out = .refused e ∧ db.joined r.digest = some (token, family, grant) ∧
      db' = db.expireFamily family.id r.now) ∨
    (∃ e token family grant, out = .refused e ∧ db.joined r.digest = some (token, family, grant) ∧
      db' = db.compromiseFamily family.id r.now) ∨
    (∃ token family grant, out = .rotated family.id grant.id ∧
      db.joined r.digest = some (token, family, grant) ∧
      family.clientId = r.clientId ∧ family.resource = r.resource ∧
      family.status = .active ∧ grant.status = .active ∧ r.now < family.expiresAt ∧
      r.now < grant.expiresAt ∧ token.status = .active ∧
      token.generation = family.currentGeneration ∧ db.advance r family = .ok db') := by
  unfold AuthDb.rotate at h
  split at h
  · obtain ⟨rfl, rfl⟩ := Prod.mk.inj (Except.ok.inj h)
    exact .inl ⟨_, rfl, rfl⟩
  · rename_i token family grant hjoined
    split at h
    · obtain ⟨rfl, rfl⟩ := Prod.mk.inj (Except.ok.inj h)
      exact .inl ⟨_, rfl, rfl⟩
    · rename_i hbinding
      split at h
      · obtain ⟨rfl, rfl⟩ := Prod.mk.inj (Except.ok.inj h)
        split
        · exact .inr (.inl ⟨_, token, family, grant, rfl, hjoined, rfl⟩)
        · exact .inl ⟨_, rfl, rfl⟩
      · rename_i hlive
        split at h
        · obtain ⟨rfl, rfl⟩ := Prod.mk.inj (Except.ok.inj h)
          exact .inr (.inr (.inl ⟨_, token, family, grant, rfl, hjoined, rfl⟩))
        · rename_i hcurrent
          split at h
          · rename_i hadv
            obtain ⟨rfl, rfl⟩ := Prod.mk.inj (Except.ok.inj h)
            simp only [not_or, not_not, not_le, ne_eq] at hbinding hlive hcurrent
            exact .inr (.inr (.inr ⟨token, family, grant, rfl, hjoined, hbinding.1, hbinding.2,
              hlive.1, hlive.2.1, hlive.2.2.1, hlive.2.2.2.1, hcurrent.1, hcurrent.2, hadv⟩))
          · exact absurd h (by simp)

theorem rotate_evolves {r : Rotation} {out : RotationOutcome} (h : db.rotate r = .ok (out, db')) :
    Evolves db db' := by
  obtain ⟨_, _, rfl⟩ | ⟨_, _, _, _, _, _, rfl⟩ | ⟨_, _, _, _, _, _, rfl⟩ |
    ⟨_, _, _, _, _, _, _, _, _, _, _, _, _, hadv⟩ := rotate_cases h
  · exact .refl _
  · exact expireFamily_evolves _ _
  · exact compromiseFamily_evolves _ _
  · exact advance_evolves hadv

/-- **Every statement makes the database evolve.** -/
theorem exec_evolves {β : Type} {op : Sql β} {b : β} (h : op.exec db = .ok (b, db')) :
    Evolves db db' := by
  have hread : ∀ {γ : Type} {x : γ} {b : γ}, Except.ok (x, db) = (.ok (b, db') : Except SqlError _) →
      Evolves db db' := fun h => (Prod.mk.inj (Except.ok.inj h)).2 ▸ .refl _
  have hwrite : ∀ {γ : Type} {x : γ} {b : γ} {db₁ : AuthDb},
      Except.ok (x, db₁) = (.ok (b, db') : Except SqlError _) → Evolves db db₁ → Evolves db db' :=
    fun h he => (Prod.mk.inj (Except.ok.inj h)).2 ▸ he
  cases op with
  | insertOwner row =>
    obtain ⟨owners, ho, rfl⟩ := insertOwner_eq_ok h
    exact .with_owners (.insert .refl ho)
  | insertClient row =>
    obtain ⟨clients, hc, rfl⟩ := insertClient_eq_ok h
    exact .with_clients (.insert .refl hc)
  | insertGrant row =>
    obtain ⟨grants, hg, rfl⟩ := insertGrant_eq_ok h
    exact .with_grants (.insert .refl hg)
  | insertFamily f =>
    obtain ⟨families, tokens, hf, ht, rfl⟩ := insertFamily_eq_ok h
    exact .with_families (.insert .refl hf) (.insert .refl ht)
  | consumeOwner id at_ =>
    exact hwrite h (.with_owners (.rewrite _ .refl fun _ _ => ⟨rfl, rfl⟩))
  | reactivateClient clientId ownerId redirectUri createdAt =>
    exact hwrite h (.with_clients (.rewrite _ .refl fun _ _ => ⟨rfl, rfl, rfl⟩))
  | expireGrant id => exact hwrite h (endGrants_evolves _ _)
  | expireFamily site id now => exact hwrite h (expireFamily_evolves _ _)
  | revokeFamily id ownerId at_ reason =>
    exact hwrite h (endFamilies_evolves _ _ (by decide) _ _ _)
  | revokeGrant grantId ownerId at_ reason => exact hwrite h (revokeGrant_evolves _ _ _ _)
  | revokeOwner ownerId at_ reason => exact hwrite h (endOwnerAccess_evolves _ (by decide) _ _)
  | resetOwner ownerId digest resetAt expiresAt => exact resetOwner_evolves h
  | rotate r => exact rotate_evolves h
  | countActive table ownerId => cases table <;> exact hread h
  | selectPendingOwner => exact hread h
  | selectOwner id => exact hread h
  | selectClient site clientId => exact hread h
  | selectActiveClients ownerId redirectUri => exact hread h
  | selectGrant id => exact hread h
  | selectFamily site id => exact hread h
  | selectTokenFamily digest => exact hread h

theorem answer_evolves {Fault : SqlError → Prop} {β : Type} {op : Sql β} {r : Except SqlError β}
    (h : Answer authBackend Fault op db r db') : Evolves db db' := by
  cases h with
  | effect he => exact exec_evolves he
  | refusal => exact .refl _
  | fault => exact .refl _

end Statements

end BegetBridge.Auth
