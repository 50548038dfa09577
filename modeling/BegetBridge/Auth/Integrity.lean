import BegetBridge.Auth.Evolution

/-!
# Integrity of the auth database

Most statements keep the integrity of the database by themselves. Four of them keep it only when
the program has checked something before: `Sql.Licensed` says what. `Integrity` ties the refresh
tokens of a family to the family's generation and status, the family to its grant, and the grant
to its client.

## Main definitions

* `RefreshRow.FollowsFrom`: the status a refresh token has, given its family
* `Integrity`: the invariant of the database
* `Sql.Licensed`: what a statement owes

## Main results

* `integrity_endFamilies`: ending families together with their tokens
* `integrity_advance`: an accepted rotation
* `integrity_exec`: every licensed statement keeps the integrity
-/

namespace BegetBridge.Auth

open Relational Interleaving

/-- The family is bound as its grant is, and ends no later. -/
structure FamilyRow.Within (f : FamilyRow) (g : GrantRow) : Prop where
  id : g.id = f.grantId
  owner : g.ownerId = f.ownerId
  client : g.clientId = f.clientId
  resource : g.resource = f.resource
  expiry : f.expiresAt ≤ g.expiresAt

/-- A refresh token is `ACTIVE` exactly when it is the current one of an `ACTIVE` family; the
earlier ones of an `ACTIVE` family are `CONSUMED`. -/
structure RefreshRow.FollowsFrom (t : RefreshRow) (f : FamilyRow) : Prop where
  active_iff : t.status = .active ↔ f.status = .active ∧ t.generation = f.currentGeneration
  consumed : f.status = .active → t.generation ≠ f.currentGeneration → t.status = .consumed

/-- The database has a token of family `id` and generation `n`. -/
def AuthDb.HasGeneration (db : AuthDb) (id : String) (n : Nat) : Prop :=
  ∃ t ∈ db.tokens, t.familyId = id ∧ t.generation = n

/-- The invariant of the database. -/
structure Integrity (P : Platform) (db : AuthDb) : Prop where
  client_normal : ∀ c ∈ db.clients, ∃ value, clientIdentifier P value = .ok c.clientId
  grant_client : ∀ g ∈ db.grants, ∃ c ∈ db.clients, c.clientId = g.clientId ∧ c.ownerId = g.ownerId
  grant_resource : ∀ g ∈ db.grants, ∃ value, exactHttpsUrl P "resource" value = .ok g.resource
  family_grant : ∀ f ∈ db.families, ∃ g ∈ db.grants, f.Within g
  token_family : ∀ t ∈ db.tokens, ∃ f ∈ db.families, f.id = t.familyId ∧ t.expiresAt = f.expiresAt
  generations : ∀ f ∈ db.families, ∀ n, db.HasGeneration f.id n ↔ n ≤ f.currentGeneration
  token_status : ∀ f ∈ db.families, ∀ t ∈ db.tokens, t.familyId = f.id → t.FollowsFrom f

/-- What a statement owes to the integrity of the database. -/
def Sql.Licensed (P : Platform) {β : Type} : Sql β → AuthDb → Prop
  | .insertClient row, _ => ∃ value, clientIdentifier P value = .ok row.clientId
  | .insertGrant row, db =>
    (∃ c ∈ db.clients, c.clientId = row.clientId ∧ c.ownerId = row.ownerId) ∧
      ∃ value, exactHttpsUrl P "resource" value = .ok row.resource
  | .insertFamily f, db => ∃ g ∈ db.grants, f.row.Within g
  | .revokeFamily id ownerId _ _, db => ∀ f ∈ db.families, f.id = id → f.ownerId = ownerId
  | _, _ => True

section

variable {P : Platform} {db db' : AuthDb}

theorem grant_eq_of_id {g g' : GrantRow} (hg : g ∈ db.grants) (hg' : g' ∈ db.grants)
    (h : g.id = g'.id) : g = g' :=
  Table.eq_of_clash hg hg' (beq_iff_eq.mpr h)

theorem family_eq_of_id {f f' : FamilyRow} (hf : f ∈ db.families) (hf' : f' ∈ db.families)
    (h : f.id = f'.id) : f = f' :=
  Table.eq_of_clash hf hf' (beq_iff_eq.mpr h)

theorem token_eq_of_digest {t t' : RefreshRow} (ht : t ∈ db.tokens) (ht' : t' ∈ db.tokens)
    (h : t.digest = t'.digest) : t = t' :=
  Table.eq_of_clash ht ht' (by
    show (t.digest == t'.digest || _) = true
    rw [beq_iff_eq.mpr h, Bool.true_or])

theorem token_eq_of_generation {t t' : RefreshRow} (ht : t ∈ db.tokens) (ht' : t' ∈ db.tokens)
    (hf : t.familyId = t'.familyId) (hg : t.generation = t'.generation) : t = t' :=
  Table.eq_of_clash ht ht' (by
    show (_ || (t.familyId == t'.familyId && t.generation == t'.generation)) = true
    rw [beq_iff_eq.mpr hf, beq_iff_eq.mpr hg, Bool.and_self, Bool.or_true])

/-- The rows a join finds belong together. -/
theorem joined_eq_some {digest : String} {t : RefreshRow} {f : FamilyRow} {g : GrantRow}
    (h : db.joined digest = some (t, f, g)) :
    (t ∈ db.tokens ∧ t.digest = digest) ∧ (f ∈ db.families ∧ f.id = t.familyId) ∧
      g ∈ db.grants ∧ g.id = f.grantId := by
  simp only [AuthDb.joined, Option.bind_eq_bind, Option.bind_eq_some_iff, Option.pure_def,
    Option.some.injEq, Prod.mk.injEq] at h
  obtain ⟨t', ht, f', hf, g', hg, rfl, rfl, rfl⟩ := h
  have key : ∀ {a b : String}, (a == b) = true → a = b := fun h => beq_iff_eq.mp h
  exact ⟨(Table.mem_of_select ht).imp_right key, (Table.mem_of_select hf).imp_right key,
    (Table.mem_of_select hg).imp_right key⟩

/-- A family records its client as `clientIdentifier` normalises it. -/
theorem Integrity.family_client (h : Integrity P db) (hP : P.Lawful) {f : FamilyRow}
    (hf : f ∈ db.families) : clientIdentifier P f.clientId = .ok f.clientId := by
  obtain ⟨g, hg, hw⟩ := h.family_grant f hf
  obtain ⟨c, hc, hid, -⟩ := h.grant_client g hg
  obtain ⟨value, hvalue⟩ := h.client_normal c hc
  rw [← hw.client, ← hid]
  exact clientIdentifier_idem hP hvalue

/-- A family records its resource as `exactHttpsUrl` normalises it. -/
theorem Integrity.family_resource (h : Integrity P db) (hP : P.Lawful) {f : FamilyRow}
    (hf : f ∈ db.families) : exactHttpsUrl P "resource" f.resource = .ok f.resource := by
  obtain ⟨g, hg, hw⟩ := h.family_grant f hf
  obtain ⟨value, hvalue⟩ := h.grant_resource g hg
  rw [← hw.resource]
  exact exactHttpsUrl_idem hP hvalue

theorem integrity_empty : Integrity P AuthDb.empty := by
  constructor <;> intro _ h <;> exact absurd h Table.not_mem_empty

/-! ## Ending grants and families -/

theorem integrity_endGrants (h : Integrity P db) (which : GrantRow → Bool) (status : GrantStatus) :
    Integrity P (db.endGrants which status) := by
  have hback : ∀ g' ∈ (db.endGrants which status).grants, ∃ g ∈ db.grants,
      g'.clientId = g.clientId ∧ g'.ownerId = g.ownerId ∧ g'.resource = g.resource := by
    intro g' hg'
    obtain ⟨g, hg, rfl⟩ := mem_endGrants.mp hg'
    refine ⟨g, hg, ?_⟩
    split <;> exact ⟨rfl, rfl, rfl⟩
  refine { h with grant_client := ?_, grant_resource := ?_, family_grant := ?_ }
  · intro g' hg'
    obtain ⟨g, hg, hc, ho, -⟩ := hback g' hg'
    rw [hc, ho]
    exact h.grant_client g hg
  · intro g' hg'
    obtain ⟨g, hg, -, -, hr⟩ := hback g' hg'
    rw [hr]
    exact h.grant_resource g hg
  · intro f hf
    obtain ⟨g, hg, hw⟩ := h.family_grant f hf
    refine ⟨_, mem_endGrants.mpr ⟨g, hg, rfl⟩, ?_⟩
    split
    · exact ⟨hw.id, hw.owner, hw.client, hw.resource, hw.expiry⟩
    · exact hw

/-- A rewrite that keeps family and generation of a token keeps the generations. -/
theorem hasGeneration_rewrite (db : AuthDb) (sel : RefreshRow → Bool) (id : String) (n : Nat)
    {u : RefreshRow → RefreshRow} (hu : KeepsKeys u)
    (hkeep : ∀ t, (u t).familyId = t.familyId ∧ (u t).generation = t.generation) :
    (∃ t ∈ db.tokens.rewrite sel hu, t.familyId = id ∧ t.generation = n) ↔
      db.HasGeneration id n := by
  have hif : ∀ t, (if sel t then u t else t).familyId = t.familyId ∧
      (if sel t then u t else t).generation = t.generation := fun t => by
    split
    · exact hkeep t
    · exact ⟨rfl, rfl⟩
  constructor
  · rintro ⟨_, ht', hid, hn⟩
    obtain ⟨t, ht, rfl⟩ := Table.mem_rewrite.mp ht'
    exact ⟨t, ht, (hif t).1 ▸ hid, (hif t).2 ▸ hn⟩
  · rintro ⟨t, ht, hid, hn⟩
    exact ⟨_, Table.mem_rewrite_of_mem _ ht, (hif t).1.trans hid, (hif t).2.trans hn⟩

/-- **Ending families together with their tokens**: every ended family loses its `ACTIVE` token,
and no family that stays `ACTIVE` does. -/
theorem integrity_endFamilies (h : Integrity P db) {which : FamilyRow → Bool}
    {during : List FamilyStatus} {status : FamilyStatus} (hstatus : status ≠ .active)
    (revokedAt : Instant) (reason : String) {tokensOf : String → Bool}
    (hended : ∀ f ∈ db.families, which f = true → tokensOf f.id = true)
    (hactive : ∀ f ∈ db.families, tokensOf f.id = true → f.status = .active →
      which f = true ∧ .active ∈ during) :
    Integrity P (db.endFamilies which during status revokedAt reason tokensOf) := by
  refine { h with family_grant := ?_, token_family := ?_, generations := ?_, token_status := ?_ }
  · intro f' hf'
    obtain ⟨f, hf, rfl⟩ := mem_endFamilies_families.mp hf'
    obtain ⟨g, hg, hw⟩ := h.family_grant f hf
    refine ⟨g, hg, ?_⟩
    split
    · exact ⟨hw.id, hw.owner, hw.client, hw.resource, hw.expiry⟩
    · exact hw
  · intro t' ht'
    obtain ⟨t, ht, rfl⟩ := mem_endFamilies_tokens.mp ht'
    obtain ⟨f, hf, hid, he⟩ := h.token_family t ht
    refine ⟨_, mem_endFamilies_families.mpr ⟨f, hf, rfl⟩, ?_⟩
    constructor <;> split <;> split <;> assumption
  · intro f' hf' n
    obtain ⟨f, hf, rfl⟩ := mem_endFamilies_families.mp hf'
    have hgen := (hasGeneration_rewrite db (fun t => tokensOf t.familyId && t.status == .active)
      f.id n (u := fun t => { t with status := .revoked }) ⟨fun _ _ => rfl⟩ fun _ => ⟨rfl, rfl⟩).trans
      (h.generations f hf n)
    split <;> exact hgen
  · intro f' hf' t' ht' hid
    obtain ⟨f, hf, rfl⟩ := mem_endFamilies_families.mp hf'
    obtain ⟨t, ht, rfl⟩ := mem_endFamilies_tokens.mp ht'
    have hid : t.familyId = f.id := by
      split at hid <;> split at hid <;> exact hid
    have hfol := h.token_status f hf t ht hid
    by_cases hsel : (which f && decide (f.status ∈ during)) = true
    · -- the family ends: its token is revoked, or was not active
      have htok : tokensOf t.familyId = true :=
        hid ▸ hended f hf (Bool.and_eq_true _ _ ▸ hsel).1
      have hdead : (if (tokensOf t.familyId && t.status == .active) = true then
          { t with status := .revoked } else t).status ≠ .active := by
        split
        · exact RefreshStatus.noConfusion
        · rename_i hne
          simpa [htok] using hne
      rw [if_pos hsel]
      exact ⟨⟨fun ha => absurd ha hdead, fun ha => absurd ha.1 hstatus⟩,
        fun ha => absurd ha hstatus⟩
    · rw [if_neg hsel, if_neg]
      · exact hfol
      · intro hrev
        simp only [Bool.and_eq_true, beq_iff_eq] at hrev
        obtain ⟨hw, hd⟩ := hactive f hf (hid ▸ hrev.1) (hfol.active_iff.mp hrev.2).1
        have hfa := (hfol.active_iff.mp hrev.2).1
        exact hsel (by simp [hw, hfa, hd])

theorem familyIds_eq_true {which : FamilyRow → Bool} {id : String} :
    db.familyIds which id = true ↔ ∃ f ∈ db.families, which f = true ∧ f.id = id := by
  simp [AuthDb.familyIds, List.any_eq_true]

/-- The tokens of the families in `which` are those of the ended families. -/
theorem integrity_endFamilyIds (h : Integrity P db) {which : FamilyRow → Bool}
    {during : List FamilyStatus} (hduring : .active ∈ during) {status : FamilyStatus}
    (hstatus : status ≠ .active) (revokedAt : Instant) (reason : String) :
    Integrity P (db.endFamilies which during status revokedAt reason (db.familyIds which)) := by
  refine integrity_endFamilies h hstatus _ _ (fun f hf hw => ?_) fun f hf hid _ => ?_
  · exact familyIds_eq_true.mpr ⟨f, hf, hw, rfl⟩
  · obtain ⟨x, hx, hw, hxf⟩ := familyIds_eq_true.mp hid
    exact ⟨family_eq_of_id hx hf hxf ▸ hw, hduring⟩

theorem integrity_endFamily (h : Integrity P db) {which : FamilyRow → Bool} {id : String}
    (hwhich : ∀ f ∈ db.families, which f = true ↔ f.id = id) {status : FamilyStatus}
    (hstatus : status ≠ .active) (revokedAt : Instant) (reason : String) :
    Integrity P (db.endFamilies which [.active] status revokedAt reason (· == id)) := by
  refine integrity_endFamilies h hstatus _ _ (fun f hf hw => ?_) fun f hf hid _ => ?_
  · exact beq_iff_eq.mpr ((hwhich f hf).mp hw)
  · exact ⟨(hwhich f hf).mpr (beq_iff_eq.mp hid), List.mem_singleton.mpr rfl⟩

theorem integrity_endOwnerAccess (h : Integrity P db) (ownerId : String) {status : FamilyStatus}
    (hstatus : status ≠ .active) (at_ : Instant) (reason : String) :
    Integrity P (db.endOwnerAccess ownerId status at_ reason) :=
  integrity_endFamilyIds (integrity_endGrants h _ _) (by simp) hstatus _ _

/-! ## Inserts -/

theorem integrity_insertFamily {f : NewFamily} (h : Integrity P db)
    (hgrant : ∃ g ∈ db.grants, f.row.Within g) {u : Unit}
    (hins : db.insertFamily f = .ok (u, db')) : Integrity P db' := by
  obtain ⟨families, tokens, hf, ht, rfl⟩ := insertFamily_eq_ok hins
  have hnew : ∀ x ∈ db.families, x.id ≠ f.id := fun x hx =>
    beq_eq_false_iff_ne.mp ((Table.insert_eq_some hf).2 x hx)
  have hnone : ∀ t ∈ db.tokens, t.familyId ≠ f.id := by
    intro t htok heq
    obtain ⟨x, hx, hid, -⟩ := h.token_family t htok
    exact hnew x hx (hid.trans heq)
  refine { h with family_grant := ?_, token_family := ?_, generations := ?_, token_status := ?_ }
  · intro x hx
    rcases (Table.mem_insert hf).mp hx with hx | rfl
    · exact h.family_grant x hx
    · exact hgrant
  · intro t htok
    rcases (Table.mem_insert ht).mp htok with htok | rfl
    · obtain ⟨x, hx, hid⟩ := h.token_family t htok
      exact ⟨x, (Table.mem_insert hf).mpr (.inl hx), hid⟩
    · exact ⟨f.row, (Table.mem_insert hf).mpr (.inr rfl), rfl, rfl⟩
  · intro x hx n
    simp only [AuthDb.HasGeneration, Table.mem_insert ht, or_and_right, exists_or, exists_eq_left]
    rcases (Table.mem_insert hf).mp hx with hx | rfl
    · rw [← h.generations x hx n]
      exact or_iff_left fun hrow => hnew x hx hrow.1.symm
    · constructor
      · rintro (⟨t, htok, hid, -⟩ | ⟨-, rfl⟩)
        · exact absurd hid (hnone t htok)
        · exact le_rfl
      · intro hn
        exact .inr ⟨rfl, (Nat.le_zero.mp hn).symm⟩
  · intro x hx t htok hid
    rcases (Table.mem_insert hf).mp hx with hx | rfl <;>
      rcases (Table.mem_insert ht).mp htok with htok | rfl
    · exact h.token_status x hx t htok hid
    · exact absurd hid.symm (hnew x hx)
    · exact absurd hid (hnone t htok)
    · exact ⟨⟨fun _ => ⟨rfl, rfl⟩, fun _ => rfl⟩, fun _ hne => absurd rfl hne⟩

/-! ## Rotation -/

/-- **An accepted rotation** consumes the current token, issues the next one and advances the
family by one generation. -/
theorem integrity_advance (h : Integrity P db) {r : Rotation} {token : RefreshRow}
    {family : FamilyRow} (htoken : token ∈ db.tokens) (hdigest : token.digest = r.digest)
    (hfamily : family ∈ db.families) (hid : family.id = token.familyId)
    (hactive : family.status = .active) (hstatus : token.status = .active)
    (hgen : token.generation = family.currentGeneration) (hadv : db.advance r family = .ok db') :
    Integrity P db' := by
  obtain ⟨tokens, hins, rfl⟩ := advance_eq_ok hadv
  have hpresents : ∀ t ∈ db.tokens, r.presents t = true ↔ t = token := by
    intro t ht
    simp only [Rotation.presents, Bool.and_eq_true, beq_iff_eq]
    constructor
    · rintro ⟨hd, -⟩
      exact token_eq_of_digest ht htoken (hd.trans hdigest.symm)
    · rintro rfl
      exact ⟨hdigest, hstatus⟩
  have hsel : ∀ f ∈ db.families, (f.id == family.id && f.status == .active &&
      f.currentGeneration == family.currentGeneration) = true ↔ f = family := by
    intro f hf
    simp only [Bool.and_eq_true, beq_iff_eq]
    constructor
    · rintro ⟨⟨hfid, -⟩, -⟩
      exact family_eq_of_id hf hfamily hfid
    · rintro rfl
      exact ⟨⟨rfl, hactive⟩, rfl⟩
  refine { h with family_grant := ?_, token_family := ?_, generations := ?_, token_status := ?_ }
  · intro f' hf'
    obtain ⟨f, hf, rfl⟩ := mem_advanced.mp hf'
    obtain ⟨g, hg, hw⟩ := h.family_grant f hf
    refine ⟨g, hg, ?_⟩
    split
    · exact ⟨hw.id, hw.owner, hw.client, hw.resource, hw.expiry⟩
    · exact hw
  · have hback : ∀ f ∈ db.families, ∃ f' ∈ db.advanced family, f'.id = f.id ∧ f'.expiresAt = f.expiresAt := by
      intro f hf
      refine ⟨_, mem_advanced.mpr ⟨f, hf, rfl⟩, ?_⟩
      split <;> exact ⟨rfl, rfl⟩
    intro t' ht'
    rcases (Table.mem_insert hins).mp ht' with ht' | rfl
    · obtain ⟨t, ht, rfl⟩ := mem_consumed.mp ht'
      obtain ⟨f, hf, hfid, he⟩ := h.token_family t ht
      obtain ⟨f', hf', hid', he'⟩ := hback f hf
      refine ⟨f', hf', ?_⟩
      split <;> exact ⟨hid'.trans hfid, he.trans he'.symm⟩
    · obtain ⟨f', hf', hid', he'⟩ := hback family hfamily
      exact ⟨f', hf', hid', he'.symm⟩
  · intro f' hf' n
    obtain ⟨f, hf, rfl⟩ := mem_advanced.mp hf'
    have hold := (hasGeneration_rewrite db r.presents f.id n
      (u := fun t => { t with status := .consumed, consumedAt := some r.now }) ⟨fun _ _ => rfl⟩
      fun _ => ⟨rfl, rfl⟩).trans (h.generations f hf n)
    have hnext : db.HasGeneration f.id n ∨ (family.id = f.id ∧ family.currentGeneration + 1 = n) ↔
        n ≤ (if (f.id == family.id && f.status == .active &&
          f.currentGeneration == family.currentGeneration) = true then
          family.currentGeneration + 1 else f.currentGeneration) := by
      rw [h.generations f hf n]
      by_cases hff : f = family
      · subst hff
        rw [if_pos ((hsel f hf).mpr rfl)]
        simp only [true_and]
        omega
      · rw [if_neg (mt (hsel f hf).mp hff)]
        exact or_iff_left fun hx => hff (family_eq_of_id hf hfamily hx.1.symm)
    simp only [AuthDb.HasGeneration, Table.mem_insert hins, or_and_right, exists_or,
      exists_eq_left]
    have hids : ∀ c : Prop, [Decidable c] → (if c then { f with
        currentGeneration := family.currentGeneration + 1 } else f).id = f.id := fun c _ => by
      split <;> rfl
    have hcur : ∀ c : Prop, [Decidable c] → (if c then { f with
        currentGeneration := family.currentGeneration + 1 } else f).currentGeneration =
        if c then family.currentGeneration + 1 else f.currentGeneration := fun c _ => by
      split <;> rfl
    rw [hids, hcur, ← hnext, h.generations f hf n, ← hold]
    exact Iff.rfl
  · intro f' hf' t' ht' hof
    obtain ⟨f, hf, rfl⟩ := mem_advanced.mp hf'
    rcases (Table.mem_insert hins).mp ht' with ht' | rfl
    · obtain ⟨t, ht, rfl⟩ := mem_consumed.mp ht'
      have hfol : t.familyId = f.id := by
        split at hof <;> split at hof <;> exact hof
      have hold := h.token_status f hf t ht hfol
      by_cases hff : f = family
      · subst hff
        rw [if_pos ((hsel f hf).mpr rfl)]
        have hle : t.generation ≤ f.currentGeneration :=
          (h.generations f hf _).mp ⟨t, ht, hfol, rfl⟩
        by_cases htt : t = token
        · rw [if_pos ((hpresents t ht).mpr htt)]
          exact ⟨⟨fun hc => absurd hc (by simp), fun hc => by have := hc.2; simp at this; omega⟩,
            fun _ _ => rfl⟩
        · rw [if_neg (mt (hpresents t ht).mp htt)]
          have hne : t.generation ≠ f.currentGeneration := fun heq =>
            htt (token_eq_of_generation ht htoken (hfol.trans hid) (heq.trans hgen.symm))
          have hcons := hold.consumed hactive hne
          exact ⟨⟨fun hc => by rw [hcons] at hc; exact absurd hc (by decide),
            fun hc => by have := hc.2; simp at this; omega⟩, fun _ _ => hcons⟩
      · rw [if_neg (mt (hsel f hf).mp hff), if_neg]
        · exact hold
        · intro hp
          obtain rfl := (hpresents t ht).mp hp
          exact hff (family_eq_of_id hf hfamily (hfol.symm.trans hid.symm))
    · have hff : f = family := by
        refine family_eq_of_id hf hfamily ?_
        split at hof <;> exact hof.symm
      subst hff
      rw [if_pos ((hsel f hf).mpr rfl)]
      exact ⟨⟨fun _ => ⟨hactive, rfl⟩, fun _ => rfl⟩, fun _ hne => absurd rfl hne⟩

theorem integrity_expireFamily (h : Integrity P db) (id : String) (now : Instant) :
    Integrity P (db.expireFamily id now) :=
  integrity_endFamily h (fun _ _ => beq_iff_eq) (by decide) _ _

theorem integrity_rotate (h : Integrity P db) {r : Rotation} {out : RotationOutcome}
    (hrot : db.rotate r = .ok (out, db')) : Integrity P db' := by
  obtain ⟨_, _, rfl⟩ | ⟨_, _, _, _, _, _, rfl⟩ | ⟨_, _, _, _, _, _, rfl⟩ |
    ⟨t, f, g, _, hj, _, _, hfa, _, _, _, hta, hgen, hadv⟩ := rotate_cases hrot
  · exact h
  · exact integrity_expireFamily h _ _
  · exact integrity_endFamily h (fun _ _ => beq_iff_eq) (by decide) _ _
  · obtain ⟨⟨ht, hd⟩, ⟨hf, hid⟩, -, -⟩ := joined_eq_some hj
    exact integrity_advance h ht hd hf hid hfa hta hgen hadv

/-! ## All statements -/

/-- A new client table with the same clients, up to status and creation time. -/
theorem integrity_clients (h : Integrity P db) {clients : Table ClientRow}
    (hgrow : db.clients.Grows ClientRow.Later clients)
    (hnormal : ∀ c ∈ clients, ∃ value, clientIdentifier P value = .ok c.clientId) :
    Integrity P { db with clients := clients } := by
  refine { h with client_normal := hnormal, grant_client := ?_ }
  intro g hg
  obtain ⟨c, hc, hid, ho⟩ := h.grant_client g hg
  obtain ⟨c', hc', hlater⟩ := hgrow c hc
  exact ⟨c', hc', hlater.1.trans hid, hlater.2.1.trans ho⟩

theorem integrity_rewriteClients (h : Integrity P db) (sel : ClientRow → Bool)
    {u : ClientRow → ClientRow} (hu : KeepsKeys u) (hlater : ∀ c : ClientRow, c.Later (u c)) :
    Integrity P { db with clients := db.clients.rewrite sel hu } := by
  refine integrity_clients h (.rewrite _ ClientRow.Later.refl fun c _ => hlater c) fun c' hc' => ?_
  obtain ⟨c, hc, rfl⟩ := Table.mem_rewrite.mp hc'
  split
  · rw [(hlater c).1]
    exact h.client_normal c hc
  · exact h.client_normal c hc

theorem integrity_insertClient (h : Integrity P db) {row : ClientRow}
    (hrow : ∃ value, clientIdentifier P value = .ok row.clientId) {u : Unit}
    (hins : db.insertClient row = .ok (u, db')) : Integrity P db' := by
  obtain ⟨clients, hc, rfl⟩ := insertClient_eq_ok hins
  refine integrity_clients h (.insert .refl hc) fun c hmem => ?_
  rcases (Table.mem_insert hc).mp hmem with hmem | rfl
  · exact h.client_normal c hmem
  · exact hrow

theorem integrity_insertGrant (h : Integrity P db) {row : GrantRow}
    (hclient : ∃ c ∈ db.clients, c.clientId = row.clientId ∧ c.ownerId = row.ownerId)
    (hres : ∃ value, exactHttpsUrl P "resource" value = .ok row.resource) {u : Unit}
    (hins : db.insertGrant row = .ok (u, db')) : Integrity P db' := by
  obtain ⟨grants, hg, rfl⟩ := insertGrant_eq_ok hins
  refine { h with grant_client := ?_, grant_resource := ?_, family_grant := ?_ }
  · intro g hmem
    rcases (Table.mem_insert hg).mp hmem with hmem | rfl
    · exact h.grant_client g hmem
    · exact hclient
  · intro g hmem
    rcases (Table.mem_insert hg).mp hmem with hmem | rfl
    · exact h.grant_resource g hmem
    · exact hres
  · intro f hf
    obtain ⟨g, hmem, hw⟩ := h.family_grant f hf
    exact ⟨g, (Table.mem_insert hg).mpr (.inl hmem), hw⟩

theorem integrity_resetOwner (h : Integrity P db) {ownerId digest : String}
    {resetAt expiresAt : Instant} {u : Unit}
    (hres : db.resetOwner ownerId digest resetAt expiresAt = .ok (u, db')) : Integrity P db' := by
  obtain rfl := resetOwner_eq_ok hres
  have hend := integrity_endOwnerAccess h ownerId (show FamilyStatus.reset ≠ .active by decide)
    resetAt "owner_reset"
  exact { integrity_rewriteClients hend (fun c => c.ownerId == ownerId)
    (u := fun c => { c with status := .disabled }) ⟨fun _ _ => rfl⟩ fun _ => ⟨rfl, rfl, rfl⟩ with }

/-- **Every licensed statement keeps the integrity of the database.** -/
theorem integrity_exec (h : Integrity P db) {β : Type} {op : Sql β} (hop : op.Licensed P db)
    {b : β} (hexec : op.exec db = .ok (b, db')) : Integrity P db' := by
  have hread : ∀ {γ : Type} {x : γ} {b : γ}, Except.ok (x, db) = (.ok (b, db') : Except SqlError _) →
      Integrity P db' := fun he => (Prod.mk.inj (Except.ok.inj he)).2 ▸ h
  have hwrite : ∀ {γ : Type} {x : γ} {b : γ} {db₁ : AuthDb},
      Except.ok (x, db₁) = (.ok (b, db') : Except SqlError _) → Integrity P db₁ →
      Integrity P db' := fun he hi => (Prod.mk.inj (Except.ok.inj he)).2 ▸ hi
  cases op with
  | insertOwner row =>
    obtain ⟨owners, -, rfl⟩ := insertOwner_eq_ok hexec
    exact { h with }
  | insertClient row => exact integrity_insertClient h hop hexec
  | insertGrant row => exact integrity_insertGrant h hop.1 hop.2 hexec
  | insertFamily f => exact integrity_insertFamily h hop hexec
  | consumeOwner id at_ => exact hwrite hexec { h with }
  | reactivateClient clientId ownerId redirectUri createdAt =>
    exact hwrite hexec (integrity_rewriteClients h _ _ fun _ => ⟨rfl, rfl, rfl⟩)
  | expireGrant id => exact hwrite hexec (integrity_endGrants h _ _)
  | expireFamily site id now => exact hwrite hexec (integrity_expireFamily h _ _)
  | revokeFamily id ownerId at_ reason =>
    refine hwrite hexec (integrity_endFamily h (fun f hf => ?_) (by decide) _ _)
    rw [Bool.and_eq_true, beq_iff_eq, beq_iff_eq]
    exact and_iff_left_of_imp (hop f hf)
  | revokeGrant grantId ownerId at_ reason =>
    exact hwrite hexec
      (integrity_endFamilyIds (integrity_endGrants h _ _) (by simp) (by decide) _ _)
  | revokeOwner ownerId at_ reason =>
    exact hwrite hexec (integrity_endOwnerAccess h _ (by decide) _ _)
  | resetOwner ownerId digest resetAt expiresAt => exact integrity_resetOwner h hexec
  | rotate r => exact integrity_rotate h hexec
  | countActive table ownerId => cases table <;> exact hread hexec
  | selectPendingOwner => exact hread hexec
  | selectOwner id => exact hread hexec
  | selectClient site clientId => exact hread hexec
  | selectActiveClients ownerId redirectUri => exact hread hexec
  | selectGrant id => exact hread hexec
  | selectFamily site id => exact hread hexec
  | selectTokenFamily digest => exact hread hexec

theorem integrity_answer {Fault : SqlError → Prop} (h : Integrity P db) {β : Type} {op : Sql β}
    (hop : op.Licensed P db) {r : Except SqlError β} (hans : Answer authBackend Fault op db r db') :
    Integrity P db' := by
  cases hans with
  | effect he => exact integrity_exec h hop he
  | refusal => exact h
  | fault => exact h

end

end BegetBridge.Auth
