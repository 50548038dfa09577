import BegetBridge.Auth.AuthStore
import BegetBridge.Auth.Integrity

/-!
# Specifications of the store's operations

One rule for each operation, under any interference that lets the database evolve and any
obligations at the statements that create or reactivate rows, rotate, or end a family by id. The
rule of an operation says what holds at each such statement, from the checks before it, and what
the operation returns.

## Main definitions

* `Sql.Free`: the statements that owe nothing
* `Tame`: settings whose interference evolves the database and whose free statements owe nothing
* `GrantReadable`: what a read of a grant owes is met

## Main results

* `getGrant_spec`, `createGrant_spec`, `createTokenFamily_spec`, `rotateRefreshToken_spec`, …: the
  rules
-/

namespace BegetBridge.Auth

open Relational Interleaving Core

/-- The statements that read, end access or touch the owner owe nothing; a read of a grant may owe
what is known of the grant. -/
def Sql.Free {β : Type} : Sql β → Prop
  | .insertClient _ => False
  | .reactivateClient .. => False
  | .insertGrant _ => False
  | .selectGrant _ => False
  | .expireGrant _ => False
  | .insertFamily _ => False
  | .rotate _ => False
  | .revokeFamily .. => False
  | _ => True

/-- Settings of the store: the others let the database evolve, and free statements owe nothing. -/
structure Tame (C : Setting Sql SqlError AuthDb) : Prop where
  exec : C.toBackend = authBackend
  rely : ∀ {β : Type} {op : Sql β} {s s' : AuthDb}, C.rely op s s' → Evolves s s'
  free : ∀ {β : Type} {op : Sql β} {s : AuthDb}, op.Free → C.oblige op s

/-- What `getGrant` owes is met. -/
def GrantReadable (C : Setting Sql SqlError AuthDb) (id : String) (s : AuthDb) : Prop :=
  C.oblige (.selectGrant id) s ∧ C.oblige (.expireGrant id) s

section

variable {C : Setting Sql SqlError AuthDb} {s : AuthDb} {α β : Type}
  {Q : Except Failure α → AuthDb → Prop}

/-! ## Steps -/

theorem wpThrow_ensure_bind {c : Prop} [Decidable c] {e : AuthStoreError} {f : Unit → AuthM α} :
    wpThrow C (ensure c e >>= f) Q s ↔
      (c → wpThrow C (f ()) Q s) ∧ (¬c → Q (.error (.auth e)) s) := by
  unfold ensure
  by_cases hc : c
  · rw [if_pos hc, wpThrow_bind]
    simp [hc]
  · rw [if_neg hc, wpThrow_bind]
    simp [hc]

theorem wpThrow_checked_bind {x : Except AuthStoreError β} {f : β → AuthM α} :
    wpThrow C (checked x >>= f) Q s ↔ (∀ a, x = .ok a → wpThrow C (f a) Q s) ∧
      ∀ e, x = .error e → Q (.error (.auth e)) s := by
  cases x with
  | ok a => simp [checked, wpThrow_bind]
  | error e => simp [checked, wpThrow_bind]

theorem wpThrow_checked_ok {a : β} {f : β → AuthM α} (h : wpThrow C (f a) Q s) :
    wpThrow C (checked (.ok a) >>= f) Q s :=
  wpThrow_checked_bind.mpr ⟨fun _ ha => Except.ok.inj ha ▸ h, nofun⟩

variable (hC : Tame C)

include hC

theorem Tame.answer {op : Sql β} {s s₁ s₂ : AuthDb} {r : Except SqlError β}
    (hrely : C.rely op s s₁) (hans : Answer C.toBackend C.Fault op s₁ r s₂) : Evolves s s₂ :=
  (hC.rely hrely).trans (answer_evolves (hC.exec ▸ hans))

/-- What a statement does in a setting: it owes what the setting asks, it takes effect, or it
fails and leaves the database. -/
theorem Tame.wp_call {op : Sql β} {k : Except SqlError β → Prog Sql SqlError α}
    {Q : α → AuthDb → Prop}
    (howes : ∀ s₁, C.rely op s s₁ → C.oblige op s₁)
    (hok : ∀ b s₁ s₂, C.rely op s s₁ → op.exec s₁ = .ok (b, s₂) → wp C (k (.ok b)) Q s₂)
    (herr : ∀ e s₁, C.rely op s s₁ → wp C (k (.error e)) Q s₁) : wp C (.call op k) Q s := by
  intro s₁ hrely
  refine ⟨howes s₁ hrely, fun r s₂ hans => ?_⟩
  rw [hC.exec] at hans
  cases hans with
  | effect he => exact hok _ _ _ hrely he
  | refusal => exact herr _ _ hrely
  | fault => exact herr _ _ hrely

theorem Tame.wp_query {op : Sql α} (howes : ∀ s₁, C.rely op s s₁ → C.oblige op s₁)
    (herr : ∀ e s', Evolves s s' → Q (.error e) s')
    (hok : ∀ b s₁ s₂, C.rely op s s₁ → op.exec s₁ = .ok (b, s₂) → Q (.ok b) s₂) :
    wpThrow C (query op) Q s :=
  hC.wp_call howes hok fun _ s₁ hrely => herr _ s₁ (hC.rely hrely)

theorem Tame.wp_transaction {op : Sql α} {message : String}
    (howes : ∀ s₁, C.rely op s s₁ → C.oblige op s₁)
    (herr : ∀ e s', Evolves s s' → Q (.error e) s')
    (hok : ∀ b s₁ s₂, C.rely op s s₁ → op.exec s₁ = .ok (b, s₂) → Q (.ok b) s₂) :
    wpThrow C (transaction op message) Q s :=
  hC.wp_call howes hok fun _ s₁ hrely => herr _ s₁ (hC.rely hrely)

/-- A read returns what it finds and changes nothing. -/
theorem Tame.wp_read {op : Sql α} {find : AuthDb → α}
    (howes : ∀ s₁, C.rely op s s₁ → C.oblige op s₁)
    (hexec : ∀ db, op.exec db = .ok (find db, db))
    (herr : ∀ e s', Evolves s s' → Q (.error e) s')
    (hok : ∀ s', C.rely op s s' → Q (.ok (find s')) s') : wpThrow C (query op) Q s := by
  refine hC.wp_query howes herr fun b s₁ s₂ hrely he => ?_
  rw [hexec] at he
  obtain ⟨rfl, rfl⟩ := Prod.mk.inj (Except.ok.inj he)
  exact hok _ hrely

end

/-! ## Owners and clients -/

section

variable {C : Setting Sql SqlError AuthDb} (hC : Tame C) {S : AuthStore} {s : AuthDb}

include hC

theorem getOwner_spec {ownerId : String} {Q : Except Failure (Option Owner) → AuthDb → Prop}
    (herr : ∀ e s', Evolves s s' → Q (.error e) s')
    (hok : ∀ s', C.rely (.selectOwner ownerId) s s' →
      Q (.ok ((s'.owners.select (·.id == ownerId)).map ownerFromRow)) s') :
    wpThrow C (AuthStore.getOwner ownerId) Q s := by
  rw [AuthStore.getOwner, wpThrow_bind]
  exact hC.wp_read (fun _ _ => hC.free trivial) (fun _ => rfl) herr fun s' hrely => hok s' hrely

theorem getClient_spec {site : ReadSite} {clientId : String}
    {Q : Except Failure (Option ClientRow) → AuthDb → Prop}
    (herr : ∀ e s', Evolves s s' → Q (.error e) s')
    (hok : ∀ s', C.rely (.selectClient site clientId) s s' →
      Q (.ok (s'.clients.select (·.clientId == clientId))) s') :
    wpThrow C (AuthStore.getClient site clientId) Q s :=
  hC.wp_read (fun _ _ => hC.free trivial) (fun _ => rfl) herr hok

/-- The owner with this id has completed the bootstrap. -/
def AuthDb.Bootstrapped (db : AuthDb) (ownerId : String) : Prop :=
  ∃ o ∈ db.owners, o.id = ownerId ∧ o.status = .active ∧ o.bootstrapConsumedAt.isSome

omit hC in
theorem bootstrapped_of_select {db : AuthDb} {ownerId : String}
    (h : (((db.owners.select (·.id == ownerId)).map ownerFromRow).any Owner.bootstrapped) = true) :
    db.Bootstrapped ownerId := by
  cases hsel : db.owners.select (·.id == ownerId) with
  | none => simp [hsel] at h
  | some o =>
    obtain ⟨hmem, hid⟩ := Table.mem_of_select hsel
    simp only [hsel, Option.map_some, Option.any_some, Owner.bootstrapped, ownerFromRow,
      Bool.and_eq_true, beq_iff_eq] at h
    exact ⟨o, hmem, beq_iff_eq.mp hid, h.1, h.2⟩

/-- `registerClient` writes only after it has seen a bootstrapped owner. -/
theorem registerClient_spec {clientId ownerId redirectUri : String} {createdAt : Option Instant}
    {Q : Except Failure (Option ClientRow) → AuthDb → Prop}
    (hinsert : ∀ row s₁ s₂, Evolves s s₁ → s₁.Bootstrapped ownerId → row.ownerId = ownerId →
      clientIdentifier S.platform clientId = .ok row.clientId →
      C.rely (.insertClient row) s₁ s₂ → C.oblige (.insertClient row) s₂)
    (hreactivate : ∀ row s₁ s₂ s₃ s₄, Evolves s s₁ → s₁.Bootstrapped ownerId →
      row.ownerId = ownerId → C.rely (.insertClient row) s₁ s₂ →
      C.rely (.selectClient .conflict row.clientId) s₂ s₃ →
      C.rely (.reactivateClient row.clientId ownerId row.redirectUri row.createdAt) s₃ s₄ →
      C.oblige (.reactivateClient row.clientId ownerId row.redirectUri row.createdAt) s₄)
    (hend : ∀ r s', Evolves s s' → Q r s') :
    wpThrow C (S.registerClient clientId ownerId redirectUri createdAt) Q s := by
  rw [AuthStore.registerClient, wpThrow_checked_bind]
  refine ⟨fun id hid => ?_, fun e _ => hend _ _ (.refl s)⟩
  rw [wpThrow_bind]
  refine getOwner_spec hC (fun e s' h => hend _ _ h) fun s₁ hrely₁ => ?_
  have h₁ := hC.rely hrely₁
  rw [onOk_ok, wpThrow_ensure_bind]
  refine ⟨fun hboot => ?_, fun _ => hend _ _ h₁⟩
  have hboot := bootstrapped_of_select hboot
  rw [wpThrow_checked_bind]
  refine ⟨fun created _ => ?_, fun e _ => hend _ _ h₁⟩
  rw [wpThrow_checked_bind]
  refine ⟨fun callback _ => ?_, fun e _ => hend _ _ h₁⟩
  have hfinal : ∀ s₂, Evolves s s₂ → wpThrow C (AuthStore.getClient .after id) Q s₂ :=
    fun s₂ h₂ => getClient_spec hC (fun e s' h => hend _ _ (h₂.trans h))
      fun s' h => hend _ _ (h₂.trans (hC.rely h))
  refine hC.wp_call (fun s₂ => hinsert _ s₁ s₂ h₁ hboot rfl hid)
    (fun _ s₂ s₃ hrely₂ he => hfinal s₃ ?_) fun e s₂ hrely₂ => ?_
  · exact (h₁.trans (hC.rely hrely₂)).trans (exec_evolves he)
  · have h₂ := h₁.trans (hC.rely hrely₂)
    cases e with
    | foreignKey => exact hend _ _ h₂
    | storage => exact hend _ _ h₂
    | unique =>
      show wpThrow C (AuthStore.reactivate id ownerId callback created) Q s₂
      rw [AuthStore.reactivate, wpThrow_bind]
      refine getClient_spec hC (fun e s' h => hend _ _ (h₂.trans h)) fun s₃ hrely₃ => ?_
      have h₃ := h₂.trans (hC.rely hrely₃)
      rw [onOk_ok]
      split
      · exact hend _ _ h₃
      · split
        · split
          · exact hend _ _ h₃
          · rw [wpThrow_bind]
            refine hC.wp_query (fun s₄ hrely₄ => ?_) (fun e s' h => hend _ _ (h₃.trans h))
              fun changes s₄ s₅ hrely₄ he => ?_
            · exact hreactivate ⟨id, ownerId, callback, created, .active⟩ s₁ s₂ s₃ s₄ h₁ hboot rfl
                hrely₂ hrely₃ hrely₄
            · have h₅ := (h₃.trans (hC.rely hrely₄)).trans (exec_evolves he)
              rw [onOk_ok]
              split
              · exact hfinal _ h₅
              · exact hend _ _ h₅
        · exact hend _ _ h₃

/-! ## Grants -/

omit hC in
theorem grant_ne_of_select {db : AuthDb} {id : String}
    (h : db.grants.select (·.id == id) = none) : ∀ g ∈ db.grants, g.id ≠ id :=
  fun g hg => beq_eq_false_iff_ne.mp (Table.select_eq_none.mp h g hg)

omit hC in
theorem family_ne_of_select {db : AuthDb} {id : String}
    (h : db.families.select (·.id == id) = none) : ∀ f ∈ db.families, f.id ≠ id :=
  fun f hf => beq_eq_false_iff_ne.mp (Table.select_eq_none.mp h f hf)

omit hC in
/-- A grant lives on under its id. -/
theorem exists_grant_of_evolves {db db' : AuthDb} (h : Evolves db db') {g : GrantRow}
    (hg : g ∈ db.grants) : ∃ g' ∈ db'.grants, g'.id = g.id := by
  obtain ⟨g', hg', hlater⟩ := h.grants g hg
  exact ⟨g', hg', by rw [hlater.1]⟩

omit hC in
/-- A family lives on under its id. -/
theorem exists_family_of_evolves {db db' : AuthDb} (h : Evolves db db') {f : FamilyRow}
    (hf : f ∈ db.families) : ∃ f' ∈ db'.families, f'.id = f.id := by
  obtain ⟨f', hf', hlater⟩ := h.families f hf
  exact ⟨f', hf', by rw [hlater.kept]⟩

/-- A grant read as `ACTIVE` is in the database and has not expired. -/
theorem getGrant_spec {id : String} {now : Option Instant}
    {Q : Except Failure (Option GrantRow) → AuthDb → Prop}
    (howes : ∀ s', Evolves s s' → GrantReadable C id s')
    (herr : ∀ e s', Evolves s s' → Q (.error e) s')
    (hnone : ∀ s', Evolves s s' → (∀ g ∈ s'.grants, g.id ≠ id) → Q (.ok none) s')
    (hsome : ∀ g s', Evolves s s' → g ∈ s'.grants → g.id = id →
      (g.status = .active → ∃ current, now = some current ∧ current < g.expiresAt) →
      Q (.ok (some g)) s') :
    wpThrow C (AuthStore.getGrant id now) Q s := by
  rw [AuthStore.getGrant, wpThrow_checked_bind]
  refine ⟨fun current hnow => ?_, fun e _ => herr _ _ (.refl s)⟩
  have hnow := isoTime_eq_ok.mp hnow
  rw [wpThrow_bind]
  refine hC.wp_read (fun s₁ h => (howes s₁ (hC.rely h)).1) (fun _ => rfl) herr fun s₁ hrely₁ => ?_
  have h₁ := hC.rely hrely₁
  rw [onOk_ok]
  cases hsel : s₁.grants.select (·.id == id) with
  | none => exact hnone _ h₁ (grant_ne_of_select hsel)
  | some row =>
    obtain ⟨hrow, hid⟩ := Table.mem_of_select hsel
    have hid := beq_iff_eq.mp hid
    dsimp only
    split
    · rw [wpThrow_bind]
      refine hC.wp_query (fun s₂ h => (howes s₂ (h₁.trans (hC.rely h))).2)
        (fun e s' h => herr _ _ (h₁.trans h))
        fun _ s₂ s₃ hrely₂ he => ?_
      have h₂ := hC.rely hrely₂
      obtain rfl : s₂.endGrants (·.id == id) .expired = s₃ := (Prod.mk.inj (Except.ok.inj he)).2
      have h₃ := (h₁.trans h₂).trans (@endGrants_evolves s₂ (·.id == id) .expired)
      rw [onOk_ok]
      refine hC.wp_read (fun s₄ h => (howes s₄ (h₃.trans (hC.rely h))).1) (fun _ => rfl)
        (fun e s' h => herr _ _ (h₃.trans h)) fun s₄ hrely₄ => ?_
      have h₄ := hC.rely hrely₄
      cases hsel' : s₄.grants.select (·.id == id) with
      | none => exact hnone _ (h₃.trans h₄) (grant_ne_of_select hsel')
      | some row' =>
        obtain ⟨hrow', hid'⟩ := Table.mem_of_select hsel'
        have hid' := beq_iff_eq.mp hid'
        refine hsome row' s₄ (h₃.trans h₄) hrow' hid' fun hactive => ?_
        -- the row was expired just before, and stays so
        obtain ⟨x, hx, hlater⟩ := h₂.grants row hrow
        have hxid : x.id = id := by rw [hlater.1, hid]
        have hdead : (if (x.id == id && x.status == .active) = true then
            { x with status := .expired } else x).status ≠ .active := by
          split
          · exact GrantStatus.noConfusion
          · rename_i hne
            simpa [hxid] using hne
        have hlater' := h₄.grant_of_id (mem_endGrants.mpr ⟨x, hx, rfl⟩) hrow' (by
          split <;> exact hid'.trans hxid.symm)
        exact absurd (hlater'.2 hdead ▸ hactive) hdead
    · rename_i hlive
      refine hsome row s₁ h₁ hrow hid fun hactive => ⟨current, hnow, ?_⟩
      exact not_le.mp fun hle => hlive ⟨hactive, hle⟩

/-- `createGrant` inserts only after it has seen the client `ACTIVE`. -/
theorem createGrant_spec {id ownerId clientId resource : String} {scopes : List String}
    {executionProfile : String} {grantedAt expiresAt : Option Instant}
    {Q : Except Failure (Option GrantRow) → AuthDb → Prop}
    (hinsert : ∀ c s₁ s₂ resource' granted expires, C.rely (.selectClient .check clientId) s s₁ →
      c ∈ s₁.clients → c.clientId = clientId → c.ownerId = ownerId → c.status = .active →
      scopes ≠ [] → (∀ scope ∈ scopes, scope ∈ S.supportedScopes) →
      exactHttpsUrl S.platform "resource" resource = .ok resource' →
      grantedAt = some granted → expiresAt = some expires → granted < expires →
      C.rely (.insertGrant ⟨id, ownerId, clientId, resource', sortTexts scopes.eraseDups,
        executionProfile, granted, expires, .active⟩) s₁ s₂ →
      C.oblige (.insertGrant ⟨id, ownerId, clientId, resource', sortTexts scopes.eraseDups,
        executionProfile, granted, expires, .active⟩) s₂)
    (hread : ∀ g s', g ∈ s'.grants → g.id = id → GrantReadable C id s')
    (herr : ∀ e s', Evolves s s' → Q (.error e) s')
    (hsome : ∀ (g g' : GrantRow) s' resource' granted expires, Evolves s s' →
      exactHttpsUrl S.platform "resource" resource = .ok resource' →
      grantedAt = some granted → expiresAt = some expires →
      g = ⟨id, ownerId, clientId, resource', sortTexts scopes.eraseDups, executionProfile, granted,
        expires, .active⟩ → g.Later g' → g' ∈ s'.grants → Q (.ok (some g')) s') :
    wpThrow C (S.createGrant id ownerId clientId resource scopes executionProfile grantedAt expiresAt)
      Q s := by
  have hself := Evolves.refl s
  rw [AuthStore.createGrant, wpThrow_ensure_bind]
  refine ⟨fun _ => ?_, fun _ => herr _ _ hself⟩
  rw [wpThrow_bind]
  refine getClient_spec hC herr fun s₁ hrely₁ => ?_
  have h₁ := hC.rely hrely₁
  rw [onOk_ok, wpThrow_ensure_bind]
  refine ⟨fun hclient => ?_, fun _ => herr _ _ h₁⟩
  rw [wpThrow_ensure_bind]
  refine ⟨fun hscopes => ?_, fun _ => herr _ _ h₁⟩
  dsimp only
  rw [wpThrow_ensure_bind]
  refine ⟨fun hsupported => ?_, fun _ => herr _ _ h₁⟩
  rw [wpThrow_checked_bind]
  refine ⟨fun granted hgranted => ?_, fun e _ => herr _ _ h₁⟩
  rw [wpThrow_checked_bind]
  refine ⟨fun expires hexpires => ?_, fun e _ => herr _ _ h₁⟩
  rw [wpThrow_ensure_bind]
  refine ⟨fun hlt => ?_, fun _ => herr _ _ h₁⟩
  rw [wpThrow_ensure_bind]
  refine ⟨fun _ => ?_, fun _ => herr _ _ h₁⟩
  rw [wpThrow_checked_bind]
  refine ⟨fun resource' hres => ?_, fun e _ => herr _ _ h₁⟩
  rw [wpThrow_bind]
  have hgranted := isoTime_eq_ok.mp hgranted
  have hexpires := isoTime_eq_ok.mp hexpires
  refine hC.wp_query (fun s₂ hrely₂ => ?_) (fun e s' h => herr _ _ (h₁.trans h))
    fun _ s₂ s₃ hrely₂ he => ?_
  · cases hsel : s₁.clients.select (·.clientId == clientId) with
    | none => simp [hsel] at hclient
    | some c =>
      obtain ⟨hc, hcid⟩ := Table.mem_of_select hsel
      simp only [hsel, Option.any_some, Bool.and_eq_true, beq_iff_eq] at hclient
      refine hinsert c s₁ s₂ _ _ _ hrely₁ hc (beq_iff_eq.mp hcid) hclient.2 hclient.1 hscopes ?_ hres
        hgranted hexpires hlt hrely₂
      intro scope hscope
      exact (hsupported scope (by simpa using hscope)).2
  · have h₃ := (h₁.trans (hC.rely hrely₂)).trans (exec_evolves he)
    obtain ⟨grants, hins, rfl⟩ := insertGrant_eq_ok he
    rw [onOk_ok]
    have hnew : _ ∈ grants := (Table.mem_insert hins).mpr (.inr rfl)
    refine getGrant_spec hC (fun s' h => ?_) (fun e s' h => herr _ _ (h₃.trans h))
      (fun s' h hne => ?_) fun g s' h hg hid _ => ?_
    · obtain ⟨g, hg, hid⟩ := exists_grant_of_evolves h hnew
      exact hread g s' hg hid
    · obtain ⟨g, hg, hid⟩ := exists_grant_of_evolves h hnew
      exact absurd hid (hne g hg)
    have hlater := h.grant_of_id hnew hg hid
    exact hsome _ g s' _ _ _ (h₃.trans h) hres hgranted hexpires rfl hlater hg

/-! ## Token families -/

/-- A family read as `ACTIVE` is in the database and has not expired. -/
theorem getTokenFamily_spec {site : ReadSite} {id : String} {now : Option Instant}
    {Q : Except Failure (Option FamilyRow) → AuthDb → Prop}
    (herr : ∀ e s', Evolves s s' → Q (.error e) s')
    (hnone : ∀ s', Evolves s s' → (∀ f ∈ s'.families, f.id ≠ id) → Q (.ok none) s')
    (hsome : ∀ f s', Evolves s s' → f ∈ s'.families → f.id = id →
      (f.status = .active → C.rely (.selectFamily site id) s s' ∧
        ∃ current, now = some current ∧ current < f.expiresAt) →
      Q (.ok (some f)) s') :
    wpThrow C (AuthStore.getTokenFamily site id now) Q s := by
  rw [AuthStore.getTokenFamily, wpThrow_checked_bind]
  refine ⟨fun current hnow => ?_, fun e _ => herr _ _ (.refl s)⟩
  have hnow := isoTime_eq_ok.mp hnow
  rw [wpThrow_bind]
  refine hC.wp_read (fun _ _ => hC.free trivial) (fun _ => rfl) herr fun s₁ hrely₁ => ?_
  have h₁ := hC.rely hrely₁
  rw [onOk_ok]
  cases hsel : s₁.families.select (·.id == id) with
  | none => exact hnone _ h₁ (family_ne_of_select hsel)
  | some row =>
    obtain ⟨hrow, hid⟩ := Table.mem_of_select hsel
    have hid := beq_iff_eq.mp hid
    dsimp only
    split
    · rw [wpThrow_bind]
      refine hC.wp_transaction (fun _ _ => hC.free trivial) (fun e s' h => herr _ _ (h₁.trans h))
        fun _ s₂ s₃ hrely₂ he => ?_
      have h₂ := hC.rely hrely₂
      obtain rfl : s₂.expireFamily id current = s₃ := (Prod.mk.inj (Except.ok.inj he)).2
      have h₃ := (h₁.trans h₂).trans (@expireFamily_evolves s₂ id current)
      rw [onOk_ok]
      refine hC.wp_read (fun _ _ => hC.free trivial) (fun _ => rfl) (fun e s' h => herr _ _ (h₃.trans h)) fun s₄ hrely₄ => ?_
      have h₄ := hC.rely hrely₄
      cases hsel' : s₄.families.select (·.id == id) with
      | none => exact hnone _ (h₃.trans h₄) (family_ne_of_select hsel')
      | some row' =>
        obtain ⟨hrow', hid'⟩ := Table.mem_of_select hsel'
        have hid' := beq_iff_eq.mp hid'
        refine hsome row' s₄ (h₃.trans h₄) hrow' hid' fun hactive => ?_
        -- the family was expired just before, and stays so
        obtain ⟨x, hx, hlater⟩ := h₂.families row hrow
        have hxid : x.id = id := by rw [hlater.kept, hid]
        have hdead : (if (x.id == id && decide (x.status ∈ [FamilyStatus.active])) = true then
            { x with status := .expired, revokedAt := some current, revokeReason := some "expired" }
            else x).status ≠ .active := by
          split
          · exact FamilyStatus.noConfusion
          · rename_i hne
            simpa [hxid] using hne
        have hlater' := h₄.family_of_id (mem_endFamilies_families.mpr ⟨x, hx, rfl⟩) hrow' (by
          split <;> exact hid'.trans hxid.symm)
        exact absurd hactive (hlater'.ended hdead).1
    · rename_i hlive
      refine hsome row s₁ h₁ hrow hid fun hactive => ⟨hrely₁, current, hnow, ?_⟩
      exact not_le.mp fun hle => hlive ⟨hactive, hle⟩

/-- `createTokenFamily` inserts a family within a grant it has seen `ACTIVE`. -/
theorem createTokenFamily_spec {id grantId ownerId clientId resource refreshToken : String}
    {createdAt expiresAt : Option Instant} {Q : Except Failure (Option FamilyRow) → AuthDb → Prop}
    (hread : ∀ s', GrantReadable C grantId s')
    (hinsert : ∀ f g s₁ s₂, Evolves s s₁ → g ∈ s₁.grants → g.status = .active →
      f.id = id → f.grantId = grantId → f.ownerId = ownerId → f.clientId = clientId →
      exactHttpsUrl S.platform "resource" resource = .ok f.resource →
      hashRefreshToken S.platform refreshToken = .ok f.refreshDigest → f.row.Within g →
      C.rely (.insertFamily f) s₁ s₂ → C.oblige (.insertFamily f) s₂)
    (herr : ∀ e s', Evolves s s' → Q (.error e) s')
    (hsome : ∀ f f' s₁ s₂ s', Evolves s s₁ → C.rely (.insertFamily f) s₁ s₂ → f.id = id →
      f.grantId = grantId → f.ownerId = ownerId → f.clientId = clientId →
      exactHttpsUrl S.platform "resource" resource = .ok f.resource →
      hashRefreshToken S.platform refreshToken = .ok f.refreshDigest → f.row.Later f' →
      f' ∈ s'.families → s'.HasToken f.refreshDigest f.id → Evolves s₂ s' → (∀ x ∈ s₂.families, x.id ≠ id) → Q (.ok (some f')) s') :
    wpThrow C (S.createTokenFamily id grantId ownerId clientId resource refreshToken createdAt
      expiresAt) Q s := by
  have hself := Evolves.refl s
  rw [AuthStore.createTokenFamily, wpThrow_ensure_bind]
  refine ⟨fun _ => ?_, fun _ => herr _ _ hself⟩
  rw [wpThrow_checked_bind]
  refine ⟨fun created _ => ?_, fun e _ => herr _ _ hself⟩
  rw [wpThrow_checked_bind]
  refine ⟨fun expires _ => ?_, fun e _ => herr _ _ hself⟩
  rw [wpThrow_checked_bind]
  refine ⟨fun resource' hres => ?_, fun e _ => herr _ _ hself⟩
  rw [wpThrow_checked_bind]
  refine ⟨fun digest hdigest => ?_, fun e _ => herr _ _ hself⟩
  rw [wpThrow_bind]
  refine getGrant_spec hC (fun s' _ => hread s') herr (fun s' h _ => herr _ _ h) fun g s₁ h₁ hg hgid _ => ?_
  rw [onOk_ok]
  dsimp only
  rw [wpThrow_ensure_bind]
  refine ⟨fun hmatch => ?_, fun _ => herr _ _ h₁⟩
  rw [wpThrow_ensure_bind]
  refine ⟨fun hexp => ?_, fun _ => herr _ _ h₁⟩
  rw [wpThrow_bind]
  obtain ⟨hactive, howner, hclient, hresource⟩ := hmatch
  refine hC.wp_transaction (fun s₂ hrely₂ => ?_) (fun e s' h => herr _ _ (h₁.trans h))
    fun _ s₂ s₃ hrely₂ he => ?_
  · exact hinsert _ g s₁ s₂ h₁ hg hactive rfl rfl rfl rfl hres hdigest
      ⟨hgid, howner, hclient, hresource, hexp.2⟩ hrely₂
  · have h₂₃ := exec_evolves he
    have h₃ := (h₁.trans (hC.rely hrely₂)).trans h₂₃
    obtain ⟨families, tokens, hf, ht, rfl⟩ := insertFamily_eq_ok he
    rw [onOk_ok]
    have hnew : _ ∈ families := (Table.mem_insert hf).mpr (.inr rfl)
    refine getTokenFamily_spec hC (fun e s' h => herr _ _ (h₃.trans h)) (fun s' h hne => ?_)
      fun f' s' h hf' hid' _ => ?_
    · obtain ⟨f', hf', hid'⟩ := exists_family_of_evolves h hnew
      exact absurd hid' (hne f' hf')
    · have hlater := h.family_of_id hnew hf' hid'
      have htoken := h.hasToken ⟨_, (Table.mem_insert ht).mpr (.inr rfl), rfl, rfl⟩
      exact hsome _ f' s₁ s₂ s' h₁ hrely₂ rfl rfl rfl rfl hres hdigest hlater hf' htoken
        (h₂₃.trans h)
        fun x hx => beq_eq_false_iff_ne.mp ((Table.insert_eq_some hf).2 x hx)

/-- `rotateRefreshToken` performs one rotation; a family and a grant it returns as `ACTIVE` are
those it rotated, read again. -/
theorem rotateRefreshToken_spec {refreshToken nextRefreshToken clientId resource : String}
    {now : Option Instant} {Q : Except Failure Rotated → AuthDb → Prop}
    (hread : ∀ id s', GrantReadable C id s')
    (hrotate : ∀ r s₁, hashRefreshToken S.platform refreshToken = .ok r.digest →
      hashRefreshToken S.platform nextRefreshToken = .ok r.nextDigest →
      clientIdentifier S.platform clientId = .ok r.clientId →
      exactHttpsUrl S.platform "resource" resource = .ok r.resource → now = some r.now →
      C.rely (.rotate r) s s₁ → C.oblige (.rotate r) s₁)
    (herr : ∀ e s', Evolves s s' → Q (.error e) s')
    (hok : ∀ r s₁ s₂ s₃ s' f g,
      hashRefreshToken S.platform refreshToken = .ok r.digest →
      hashRefreshToken S.platform nextRefreshToken = .ok r.nextDigest →
      now = some r.now → C.rely (.rotate r) s s₁ → s₁.rotate r = .ok (.rotated f.id g.id, s₂) →
      Evolves s₂ s₃ → Evolves s₃ s' → f ∈ s₃.families → g ∈ s'.grants →
      Q (.ok ⟨some f, some g⟩) s') :
    wpThrow C (S.rotateRefreshToken refreshToken nextRefreshToken clientId resource now) Q s := by
  have hself := Evolves.refl s
  rw [AuthStore.rotateRefreshToken, wpThrow_checked_bind]
  refine ⟨fun current hnow => ?_, fun e _ => herr _ _ hself⟩
  rw [wpThrow_checked_bind]
  refine ⟨fun digest hdigest => ?_, fun e _ => herr _ _ hself⟩
  rw [wpThrow_checked_bind]
  refine ⟨fun nextDigest hnext => ?_, fun e _ => herr _ _ hself⟩
  rw [wpThrow_ensure_bind]
  refine ⟨fun _ => ?_, fun _ => herr _ _ hself⟩
  rw [wpThrow_checked_bind]
  refine ⟨fun client hclient => ?_, fun e _ => herr _ _ hself⟩
  rw [wpThrow_checked_bind]
  refine ⟨fun resource' hres => ?_, fun e _ => herr _ _ hself⟩
  rw [wpThrow_bind]
  have hnow := isoTime_eq_ok.mp hnow
  refine hC.wp_transaction (fun s₁ => hrotate _ s₁ hdigest hnext hclient hres hnow) herr
    fun outcome s₁ s₂ hrely₁ he => ?_
  have h₁ := hC.rely hrely₁
  have h₂ := h₁.trans (exec_evolves he)
  rw [onOk_ok]
  cases outcome with
  | refused failure => exact herr _ _ h₂
  | rotated familyId grantId =>
    obtain ⟨family, grant, hfamily, hgrant⟩ : ∃ family grant,
        (family ∈ s₂.families ∧ family.id = familyId) ∧ grant ∈ s₂.grants ∧ grant.id = grantId := by
      obtain ⟨_, h, _⟩ | ⟨_, _, _, _, h, _⟩ | ⟨_, _, _, _, h, _⟩ | ⟨t, f, g, hout, hj, _⟩ :=
        rotate_cases he
      · cases h
      · cases h
      · cases h
      · obtain ⟨rfl, rfl⟩ := RotationOutcome.rotated.inj hout
        obtain ⟨-, ⟨hf, -⟩, hg, -⟩ := joined_eq_some hj
        obtain ⟨f', hf', hfid⟩ := exists_family_of_evolves (exec_evolves he) hf
        obtain ⟨g', hg', hgid⟩ := exists_grant_of_evolves (exec_evolves he) hg
        exact ⟨f', g', ⟨hf', hfid⟩, hg', hgid⟩
    show wpThrow C (AuthStore.getTokenFamily .check familyId (some current) >>= _) Q s₂
    rw [wpThrow_bind]
    refine getTokenFamily_spec hC (fun e s' h => herr _ _ (h₂.trans h)) (fun s₃ h hne => ?_)
      fun f s₃ h hf hfid _ => ?_
    · obtain ⟨f', hf', hid'⟩ := exists_family_of_evolves h hfamily.1
      exact absurd (hid'.trans hfamily.2) (hne f' hf')
    · rw [onOk_ok, wpThrow_bind]
      refine getGrant_spec hC (fun s' _ => hread grantId s')
        (fun e s' h' => herr _ _ (h₂.trans (h.trans h'))) (fun s' h' hne => ?_)
        fun g s' h' hg hgid _ => ?_
      · obtain ⟨g', hg', hid'⟩ := exists_grant_of_evolves (h.trans h') hgrant.1
        exact absurd (hid'.trans hgrant.2) (hne g' hg')
      · subst hfid hgid
        exact hok _ s₁ s₂ s₃ s' f g hdigest hnext hnow hrely₁ he h h' hf hg

/-! ## Revocation -/

/-- `revokeTokenFamily` ends a family only after it has seen the family's owner. -/
theorem revokeTokenFamily_spec {familyId ownerId : String} {revokedAt : Option Instant}
    {reason : String} {Q : Except Failure Bool → AuthDb → Prop}
    (hrevoke : ∀ f s₁ s₂ at_, Evolves s s₁ → f ∈ s₁.families → f.id = familyId →
      f.ownerId = ownerId → C.rely (.revokeFamily familyId ownerId at_ reason) s₁ s₂ →
      C.oblige (.revokeFamily familyId ownerId at_ reason) s₂)
    (hend : ∀ r s', Evolves s s' → Q r s') :
    wpThrow C (AuthStore.revokeTokenFamily familyId ownerId revokedAt reason) Q s := by
  rw [AuthStore.revokeTokenFamily, wpThrow_checked_bind]
  refine ⟨fun revoked _ => ?_, fun e _ => hend _ _ (.refl s)⟩
  rw [wpThrow_bind]
  refine hC.wp_read (fun _ _ => hC.free trivial) (fun _ => rfl) (fun _ => hend _) fun s₁ hrely₁ => ?_
  have h₁ := hC.rely hrely₁
  rw [onOk_ok]
  cases hsel : s₁.families.select (·.id == familyId) with
  | none => exact hend _ _ h₁
  | some f =>
    obtain ⟨hf, hid⟩ := Table.mem_of_select hsel
    dsimp only
    split
    · exact hend _ _ h₁
    · rename_i howner
      rw [wpThrow_bind]
      refine hC.wp_transaction (fun s₂ hrely₂ => ?_) (fun e s' h => hend _ _ (h₁.trans h))
        fun _ s₂ s₃ hrely₂ he => ?_
      · exact hrevoke f s₁ s₂ revoked h₁ hf (beq_iff_eq.mp hid) (not_not.mp howner) hrely₂
      · exact hend _ _ ((h₁.trans (hC.rely hrely₂)).trans (exec_evolves he))

theorem revokeRefreshToken_spec {refreshToken : String} {clientId : Option String}
    {revokedAt : Option Instant} {reason : String} {Q : Except Failure Bool → AuthDb → Prop}
    (hrevoke : ∀ f s₁ s₂ at_, Evolves s s₁ → f ∈ s₁.families →
      C.rely (.revokeFamily f.id f.ownerId at_ reason) s₁ s₂ →
      C.oblige (.revokeFamily f.id f.ownerId at_ reason) s₂)
    (hend : ∀ r s', Evolves s s' → Q r s') :
    wpThrow C (S.revokeRefreshToken refreshToken clientId revokedAt reason) Q s := by
  rw [AuthStore.revokeRefreshToken, wpThrow_checked_bind]
  refine ⟨fun revoked _ => ?_, fun e _ => hend _ _ (.refl s)⟩
  rw [wpThrow_checked_bind]
  refine ⟨fun digest _ => ?_, fun e _ => hend _ _ (.refl s)⟩
  rw [wpThrow_bind]
  refine hC.wp_read (fun _ _ => hC.free trivial) (fun _ => rfl) (fun _ => hend _) fun s₁ hrely₁ => ?_
  have h₁ := hC.rely hrely₁
  have hfinal : ∀ id ownerId, wpThrow C
      (AuthStore.revokeTokenFamily id ownerId (some revoked) reason) Q s₁ := by
    intro id ownerId
    refine revokeTokenFamily_spec hC (fun f s₂ s₃ at_ h₂ hf hid howner hrely => ?_) fun r s' h =>
      hend _ _ (h₁.trans h)
    subst hid howner
    exact hrevoke f s₂ s₃ at_ (h₁.trans h₂) hf hrely
  rw [onOk_ok]
  split
  · exact hend _ _ h₁
  · split
    · exact hfinal _ _
    · rw [wpThrow_checked_bind]
      refine ⟨fun normalized _ => ?_, fun e _ => hend _ _ h₁⟩
      split
      · exact hend _ _ h₁
      · exact hfinal _ _

end

end BegetBridge.Auth
