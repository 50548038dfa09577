import BegetBridge.Auth.OAuthSpike
import BegetBridge.Auth.StoreSpecs

/-!
# Specifications of the OAuth endpoints

One rule for each endpoint, under the interference and obligations of the store's rules. A rule
lists the memories in which the endpoint can end, and for each what it has checked by then.

## Main definitions

* `OAuthSpike.GrantFor`: the grant row that an approval inserts
* `OAuthSpike.RedeemedBy`: a grant that a code stands for

## Main results

* `approve_spec`, `exchangeAuthorizationCode_spec`, `exchangeRefreshToken_spec`,
  `authenticate_spec`, …: the rules
-/

namespace BegetBridge.Auth

open Relational Interleaving Core

section

variable {C : Setting Sql SqlError AuthDb} {m : Memory} {s : AuthDb} {α β : Type}
  {Q : Except Thrown α → Memory → AuthDb → Prop}

/-! ## Steps -/

theorem wpProcess_require_bind {c : Prop} [Decidable c] {e : OAuthError} {f : Unit → SpikeM α} :
    wpProcess C (require c e >>= f) Q m s ↔
      (c → wpProcess C (f ()) Q m s) ∧ (¬c → Q (.error (.oauth e)) m s) := by
  unfold require
  by_cases hc : c
  · rw [if_pos hc, wpProcess_bind]
    simp [hc]
  · rw [if_neg hc, wpProcess_bind]
    simp [hc]

theorem wpProcess_check_bind {x : Except Thrown β} {f : β → SpikeM α} :
    wpProcess C (SpikeM.check x >>= f) Q m s ↔ (∀ a, x = .ok a → wpProcess C (f a) Q m s) ∧
      ∀ e, x = .error e → Q (.error e) m s := by
  cases x <;> simp [SpikeM.check, wpProcess_bind]

theorem wpProcess_check_ok {a : β} {f : β → SpikeM α} (h : wpProcess C (f a) Q m s) :
    wpProcess C (SpikeM.check (.ok a) >>= f) Q m s :=
  wpProcess_check_bind.mpr ⟨fun _ ha => Except.ok.inj ha ▸ h, nofun⟩

theorem wpProcess_modify_bind {u : Memory → Memory} {f : PUnit → SpikeM α} :
    wpProcess C ((modify u : SpikeM PUnit) >>= f) Q m s ↔ wpProcess C (f ⟨⟩) Q (u m) s := by
  rw [wpProcess_bind, wpProcess_modify, andThen_ok]

theorem wpProcess_get_bind {f : Memory → SpikeM α} :
    wpProcess C ((get : SpikeM Memory) >>= f) Q m s ↔ wpProcess C (f m) Q m s := by
  rw [wpProcess_bind, wpProcess_get, andThen_ok]

theorem wpProcess_tryStore {p : AuthM α} {Q : Except Thrown (Except Failure α) → Memory → AuthDb → Prop} :
    wpProcess C (tryStore p) Q m s ↔ wpThrow C p (fun r s' => Q (.ok r) m s') s :=
  wpProcess_perform

/-- Every failure of the store becomes an OAuth error. -/
theorem wpProcess_storeOr {p : AuthM α} {description : String}
    (h : wpThrow C p (fun r s' => (∀ a, r = .ok a → Q (.ok a) m s') ∧
      ∀ e, r = .error e → ∀ e', Q (.error e') m s') s) : wpProcess C (storeOr p description) Q m s := by
  rw [storeOr, wpProcess_bind, wpProcess_tryStore]
  refine wpThrow_mono (fun r s' hr => ?_) h
  cases r with
  | ok a => exact hr.1 a rfl
  | error e => exact hr.2 e rfl _

theorem wpThrow_withDate {ms : Instant} {p : Option Instant → AuthM α}
    {Q : Except Failure α → AuthDb → Prop} (herr : ∀ e, Q (.error e) s)
    (hok : wpThrow C (p (some ms)) Q s) : wpThrow C (withDate ms p) Q s := by
  unfold withDate isoText
  split_ifs
  · exact hok
  · exact herr _

end

namespace OAuthSpike

variable {C : Setting Sql SqlError AuthDb} (hC : Tame C) {O : OAuthSpike} {env : Env} {m : Memory}
  {s : AuthDb}

/-! ## Begin -/

/-- What `registerClient` owes for this client is met. -/
structure ClientOwed (C : Setting Sql SqlError AuthDb) (O : OAuthSpike) (clientId : String)
    (s : AuthDb) : Prop where
  insert : ∀ ownerId row s₁ s₂, O.ownerId = some ownerId → Evolves s s₁ →
    s₁.Bootstrapped ownerId → row.ownerId = ownerId →
    clientIdentifier O.store.platform clientId = .ok row.clientId →
    C.rely (.insertClient row) s₁ s₂ → C.oblige (.insertClient row) s₂
  reactivate : ∀ ownerId row s₁ s₂ s₃ s₄, O.ownerId = some ownerId → Evolves s s₁ →
    s₁.Bootstrapped ownerId → row.ownerId = ownerId → C.rely (.insertClient row) s₁ s₂ →
    C.rely (.selectClient .conflict row.clientId) s₂ s₃ →
    C.rely (.reactivateClient row.clientId ownerId row.redirectUri row.createdAt) s₃ s₄ →
    C.oblige (.reactivateClient row.clientId ownerId row.redirectUri row.createdAt) s₄

include hC

theorem persistClient_spec {clientId redirectUri : String}
    {Q : Except Thrown Unit → Memory → AuthDb → Prop} (howed : ClientOwed C O clientId s)
    (hend : ∀ r s', Evolves s s' → Q r m s') :
    wpProcess C (O.persistClient env clientId redirectUri) Q m s := by
  unfold persistClient
  split
  · exact hend _ _ (.refl s)
  · rename_i ownerId howner
    rw [wpProcess_bind]
    refine wpProcess_storeOr (wpThrow_withDate (fun e => ?_) ?_)
    · exact ⟨nofun, fun _ _ _ => hend _ _ (.refl s)⟩
    · refine registerClient_spec hC (fun row s₁ s₂ => howed.insert ownerId row s₁ s₂ howner)
        (fun row s₁ s₂ s₃ s₄ => howed.reactivate ownerId row s₁ s₂ s₃ s₄ howner) fun r s' h => ?_
      exact ⟨fun _ _ => hend _ _ h, fun _ _ _ => hend _ _ h⟩

theorem registerClient_spec {document : RegistrationDocument}
    {Q : Except Thrown Registration → Memory → AuthDb → Prop}
    (howed : ClientOwed C O m.dcrClientId s) (hend : ∀ r s', Evolves s s' → Q r m s') :
    wpProcess C (O.registerClient env document) Q m s := by
  rw [registerClient, wpProcess_require_bind]
  refine ⟨fun _ => ?_, fun _ => hend _ _ (.refl s)⟩
  rw [wpProcess_get_bind, wpProcess_bind]
  refine persistClient_spec hC howed fun r s' h => ?_
  cases r <;> exact hend _ _ h

/-- The page of a begun transaction. -/
def page (O : OAuthSpike) (env : Env) (a : Awaiting) (scopes : List String) : TransactionPage :=
  ⟨env.draws.transactionId, a.clientId, a.resource, scopes, O.executionProfile⟩

theorem finishBegin_spec {a : Awaiting} {Q : Except Thrown TransactionPage → Memory → AuthDb → Prop}
    (howed : ClientOwed C O a.clientId s) (hfail : ∀ e s', Evolves s s' → Q (.error e) m s')
    (hok : ∀ scopes s', Evolves s s' → parseScope a.scope O.scopes = .ok scopes →
      Q (.ok (O.page env a scopes)) { m with
        transactions := m.transactions.insert (O.digest env.draws.transactionId)
          (O.transaction env a scopes) } s') :
    wpProcess C (O.finishBegin env a) Q m s := by
  rw [finishBegin, wpProcess_bind]
  refine persistClient_spec hC howed fun r s' h => ?_
  cases r with
  | error e => exact hfail _ _ h
  | ok u =>
    rw [andThen_ok, wpProcess_check_bind]
    refine ⟨fun scopes hscopes => ?_, fun e _ => hfail _ _ h⟩
    rw [wpProcess_get_bind, wpProcess_require_bind]
    refine ⟨fun _ => ?_, fun _ => hfail _ _ h⟩
    dsimp only
    rw [wpProcess_modify_bind]
    exact hok scopes s' h hscopes

/-- The parameters of an authorization that passed the checks before the registry. -/
structure BegunWith (O : OAuthSpike) (params : Params) (a : Awaiting) : Prop where
  client : params.get "client_id" = some a.clientId
  redirect : params.get "redirect_uri" = some a.redirectUri
  resource : a.resource = O.resource
  challenge : params.get "code_challenge" = some a.codeChallenge
  scope : a.scope = params.get "scope"
  client_ne : a.clientId ≠ ""
  resource_ne : a.resource ≠ ""

theorem beginAuthorization_spec {params : Params}
    {Q : Except Thrown (Nat ⊕ TransactionPage) → Memory → AuthDb → Prop}
    (howed : ∀ clientId, ClientOwed C O clientId s)
    (hfail : ∀ e s', Evolves s s' → Q (.error e) (m.sweep (env.clock 0)) s')
    (hpage : ∀ a scopes s', Evolves s s' → O.BegunWith params a →
      startsWith a.clientId "dcr_" = true → a.clientId = m.dcrClientId →
      a.redirectUri = defaultChatGptRedirectUri → parseScope a.scope O.scopes = .ok scopes →
      Q (.ok (.inr (O.page env a scopes))) { m.sweep (env.clock 0) with
        transactions := (m.sweep (env.clock 0)).transactions.insert
          (O.digest env.draws.transactionId) (O.transaction env a scopes) } s')
    (hsuspend : ∀ a, O.BegunWith params a → a.clientId ∈ O.registry.allowedClientIds →
      (∀ v, a.verdict = some v → ∃ metadata, m.cache.lookup a.clientId = some metadata ∧
        v = listsRedirect metadata.redirectUris a.redirectUri) →
      Q (.ok (.inl m.begun)) { m.sweep (env.clock 0) with
        awaiting := m.awaiting.insert m.begun a, begun := m.begun + 1 } s) :
    wpProcess C (O.beginAuthorization env params) Q m s := by
  have hself := Evolves.refl s
  have hbad : ∀ e, Q (.error e) (m.sweep (env.clock 0)) s := fun e => hfail e s hself
  rw [beginAuthorization, cleanup, wpProcess_modify_bind, wpProcess_check_bind]
  refine ⟨fun _ _ => ?_, fun e _ => hbad e⟩
  rw [wpProcess_require_bind]
  refine ⟨fun _ => ?_, fun _ => hbad _⟩
  rw [wpProcess_check_bind]
  refine ⟨fun clientId hclient => ?_, fun e _ => hbad e⟩
  rw [wpProcess_check_bind]
  refine ⟨fun redirectUri hredirect => ?_, fun e _ => hbad e⟩
  rw [wpProcess_check_bind]
  refine ⟨fun resource hgiven => ?_, fun e _ => hbad e⟩
  rw [wpProcess_require_bind]
  refine ⟨fun hresource => ?_, fun _ => hbad _⟩
  rw [wpProcess_check_bind]
  refine ⟨fun challenge hchallenge => ?_, fun e _ => hbad e⟩
  rw [wpProcess_check_bind]
  refine ⟨fun _ _ => ?_, fun e _ => hbad e⟩
  rw [wpProcess_require_bind]
  refine ⟨fun _ => ?_, fun _ => hbad _⟩
  rw [wpProcess_require_bind]
  refine ⟨fun _ => ?_, fun _ => hbad _⟩
  rw [wpProcess_get_bind]
  dsimp only
  split
  · rename_i hdcr
    rw [wpProcess_check_bind]
    refine ⟨fun _ hvalid => ?_, fun e _ => hbad e⟩
    obtain ⟨hid, huri⟩ := dcrValidate_eq_ok.mp hvalid
    rw [wpProcess_bind]
    refine finishBegin_spec hC (howed _) (fun e s' h => hfail e s' h) fun scopes s' h hscopes => ?_
    exact hpage _ scopes s' h ⟨(requireString_eq_ok hclient).1, (requireString_eq_ok hredirect).1,
      hresource, (requireString_eq_ok hchallenge).1, rfl, (requireString_eq_ok hclient).2,
      (requireString_eq_ok hgiven).2⟩ hdcr hid huri hscopes
  · rw [wpProcess_check_bind]
    refine ⟨fun _ hadmits => ?_, fun e _ => hbad e⟩
    rw [wpProcess_modify_bind]
    refine hsuspend _ ⟨(requireString_eq_ok hclient).1, (requireString_eq_ok hredirect).1, hresource,
      (requireString_eq_ok hchallenge).1, rfl, (requireString_eq_ok hclient).2,
      (requireString_eq_ok hgiven).2⟩ (admits_eq_ok hadmits) fun v hv => ?_
    obtain ⟨metadata, hmeta, rfl⟩ := Option.map_eq_some_iff.mp hv
    exact ⟨metadata, (Option.filter_eq_some_iff.mp hmeta).1, rfl⟩

omit hC in
theorem registryAnswers_spec {n : Nat} {fetched : Fetched}
    {Q : Except Thrown Unit → Memory → AuthDb → Prop} (hsame : Q (.ok ()) m s)
    (hrefused : ∀ a e, m.awaiting.lookup n = some a → Q (.ok ()) { m with
      awaiting := m.awaiting.insert n { a with verdict := some (.error e) } } s)
    (hfetched : ∀ a uris, m.awaiting.lookup n = some a →
      O.registry.checkResponse a.clientId fetched = .ok uris → Q (.ok ()) { m with
        cache := m.cache.insert a.clientId ⟨uris, env.clock 0 + O.registry.cacheTtlMs⟩
        awaiting := m.awaiting.insert n
          { a with verdict := some (listsRedirect uris a.redirectUri) } } s) :
    wpProcess C (O.registryAnswers env n fetched) Q m s := by
  rw [registryAnswers, wpProcess_get_bind]
  split
  · exact hsame
  · rename_i a ha
    split
    · exact hsame
    · split
      · exact hrefused a _ ha
      · exact hfetched a _ ha ‹_›

theorem resume_spec {n : Nat} {Q : Except Thrown (Option TransactionPage) → Memory → AuthDb → Prop}
    (howed : ∀ clientId, ClientOwed C O clientId s) (hsame : Q (.ok none) m s)
    (hfail : ∀ a e s', m.awaiting.lookup n = some a → Evolves s s' →
      Q (.error e) { m with awaiting := m.awaiting.erase n } s')
    (hpage : ∀ a scopes s', m.awaiting.lookup n = some a → a.verdict = some (.ok ()) →
      Evolves s s' → parseScope a.scope O.scopes = .ok scopes →
      Q (.ok (some (O.page env a scopes))) { m with
        awaiting := m.awaiting.erase n
        transactions := m.transactions.insert (O.digest env.draws.transactionId)
          (O.transaction env a scopes) } s') :
    wpProcess C (O.resume env n) Q m s := by
  rw [resume, wpProcess_get_bind]
  split
  · exact hsame
  · rename_i a ha
    split
    · exact hsame
    · rename_i verdict hv
      rw [wpProcess_modify_bind, wpProcess_check_bind]
      refine ⟨fun u hu => ?_, fun e _ => hfail a e s ha (.refl s)⟩
      rw [wpProcess_bind]
      refine finishBegin_spec hC (howed _) (fun e s' h => hfail a e s' ha h)
        fun scopes s' h hscopes => ?_
      exact hpage a scopes s' ha (hv.trans (congrArg some hu)) h hscopes

/-! ## Approve -/

omit hC in
/-- The row that an approval of `t` inserts for `ownerId`. -/
structure GrantFor (O : OAuthSpike) (env : Env) (t : Transaction) (ownerId : String)
    (row : GrantRow) : Prop where
  id : row.id = env.draws.grantId
  owner : row.ownerId = ownerId
  client : row.clientId = t.clientId
  resource : exactHttpsUrl O.store.platform "resource" t.resource = .ok row.resource
  scopes : row.scopes = sortTexts t.scopes.eraseDups
  profile : row.executionProfile = O.executionProfile
  expires : row.expiresAt = env.clock 1 + O.grantTtlMs
  status : row.status = .active

/-- What an approval leaves in the store: nothing without one, else its grant, read again. -/
def ApprovedAs (O : OAuthSpike) (env : Env) (t : Transaction) (grant : Option GrantRow)
    (s' : AuthDb) : Prop :=
  (O.ownerId = none ∧ grant = none) ∨ ∃ ownerId row g', O.ownerId = some ownerId ∧
    O.GrantFor env t ownerId row ∧ row.Later g' ∧ g' ∈ s'.grants ∧ grant = some g'

theorem approvedGrant_spec {t : Transaction} {Q : Except Thrown (Option GrantRow) → Memory → AuthDb → Prop}
    (hinsert : ∀ ownerId c row s₁ s₂, O.ownerId = some ownerId →
      C.rely (.selectClient .check t.clientId) s s₁ → c ∈ s₁.clients → c.clientId = t.clientId →
      c.ownerId = ownerId → c.status = .active → O.GrantFor env t ownerId row →
      C.rely (.insertGrant row) s₁ s₂ → C.oblige (.insertGrant row) s₂)
    (hread : ∀ g s', g ∈ s'.grants → g.id = env.draws.grantId →
      GrantReadable C env.draws.grantId s')
    (hfail : ∀ e s', Evolves s s' → Q (.error e) m s')
    (hok : ∀ grant s', Evolves s s' → ApprovedAs O env t grant s' → Q (.ok grant) m s') :
    wpProcess C (O.approvedGrant env t) Q m s := by
  unfold approvedGrant
  split
  · exact hok none s (.refl s) (.inl ⟨‹_›, rfl⟩)
  · rename_i ownerId howner
    refine wpProcess_storeOr (wpThrow_withDate (fun e => ?_) (wpThrow_withDate (fun e => ?_) ?_))
    · exact ⟨nofun, fun _ _ _ => hfail _ _ (.refl s)⟩
    · exact ⟨nofun, fun _ _ _ => hfail _ _ (.refl s)⟩
    · refine createGrant_spec hC ?_ hread (fun e s' h => ?_) ?_
      · intro c s₁ s₂ resource' granted expires hrely hc hid hco hca _ _ hres hg he _ hrely'
        obtain rfl := Option.some.inj he
        exact hinsert ownerId c _ s₁ s₂ howner hrely hc hid hco hca
          ⟨rfl, rfl, rfl, hres, rfl, rfl, rfl, rfl⟩ hrely'
      · exact ⟨nofun, fun _ _ _ => hfail _ _ h⟩
      · intro g g' s' resource' granted expires h hres hg he hrow hlater hg'
        obtain rfl := Option.some.inj he
        subst hrow
        refine ⟨fun a ha => ?_, nofun⟩
        obtain rfl := Except.ok.inj ha
        exact hok _ s' h (.inr ⟨ownerId, _, g', howner, ⟨rfl, rfl, rfl, hres, rfl, rfl, rfl, rfl⟩,
          hlater, hg', rfl⟩)

theorem approve_spec {transactionId approvalSecret : Option String}
    {Q : Except Thrown Redirect → Memory → AuthDb → Prop}
    (hinsert : ∀ t ownerId c row s₁ s₂,
      (m.sweep (env.clock 0)).transactions.lookup (O.digest (transactionId.getD "")) = some t →
      approvalSecret.getD "" = O.approvalSecret → O.ownerId = some ownerId →
      C.rely (.selectClient .check t.clientId) s s₁ → c ∈ s₁.clients → c.clientId = t.clientId →
      c.ownerId = ownerId → c.status = .active → O.GrantFor env t ownerId row →
      C.rely (.insertGrant row) s₁ s₂ → C.oblige (.insertGrant row) s₂)
    (hread : ∀ g s', g ∈ s'.grants → g.id = env.draws.grantId →
      GrantReadable C env.draws.grantId s')
    (hmissing : (m.sweep (env.clock 0)).transactions.lookup
        (O.digest (transactionId.getD "")) = none →
      ∀ e, Q (.error e) (m.sweep (env.clock 0)) s)
    (hfail : ∀ t e s',
      (m.sweep (env.clock 0)).transactions.lookup (O.digest (transactionId.getD "")) = some t →
      Evolves s s' → Q (.error e) { m.sweep (env.clock 0) with
        transactions := (m.sweep (env.clock 0)).transactions.erase
          (O.digest (transactionId.getD "")) } s')
    (hcode : ∀ t grant r s',
      (m.sweep (env.clock 0)).transactions.lookup (O.digest (transactionId.getD "")) = some t →
      approvalSecret.getD "" = O.approvalSecret → Evolves s s' → ApprovedAs O env t grant s' →
      (∀ redirect, r = .ok redirect → redirect.code = env.draws.code) →
      Q r { m.sweep (env.clock 0) with
        transactions := (m.sweep (env.clock 0)).transactions.erase
          (O.digest (transactionId.getD ""))
        codes := (m.sweep (env.clock 0)).codes.insert (O.digest env.draws.code)
          (O.codeRecord env t grant) } s') :
    wpProcess C (O.approve env transactionId approvalSecret) Q m s := by
  rw [approve, cleanup, wpProcess_modify_bind]
  dsimp only
  rw [wpProcess_get_bind]
  split
  · exact hmissing ‹_› _
  · rename_i t ht
    rw [wpProcess_modify_bind, wpProcess_require_bind]
    refine ⟨fun hsecret => ?_, fun _ => hfail t _ s ht (.refl s)⟩
    rw [wpProcess_bind]
    refine approvedGrant_spec hC (fun ownerId c row s₁ s₂ => hinsert t ownerId c row s₁ s₂ ht hsecret)
      hread (fun e s' h => hfail t e s' ht h) fun grant s' h hgrant => ?_
    dsimp only [andThen]
    rw [wpProcess_modify_bind]
    split
    · exact hcode t grant _ s' ht hsecret h hgrant fun _ h => by cases h
    · exact hcode t grant _ s' ht hsecret h hgrant fun _ h => by cases h; rfl

/-! ## Exchange -/

omit hC in
theorem issueAccessToken_spec {clientId resource : String} {scopes : List String}
    {grant : Option GrantRow} {family : Option FamilyRow} {issuedAt : Instant}
    {refreshToken : Option String} {Q : Except Thrown TokenResponse → Memory → AuthDb → Prop}
    (hfail : ∀ e, Q (.error e) m s)
    (hok : ∀ expiresAt response, issuedAt < expiresAt → (∀ g, grant = some g → expiresAt ≤ g.expiresAt) →
      response.accessToken = env.draws.accessToken → response.refreshToken = refreshToken →
      Q (.ok response) { m with
        tokens := m.tokens.insert (O.digest env.draws.accessToken)
          (tokenRecord clientId resource scopes grant family expiresAt) } s) :
    wpProcess C (O.issueAccessToken env clientId resource scopes grant family issuedAt refreshToken)
      Q m s := by
  unfold issueAccessToken
  dsimp only
  rw [wpProcess_require_bind]
  refine ⟨fun hlt => ?_, fun _ => hfail _⟩
  rw [wpProcess_modify_bind]
  refine hok _ _ hlt (fun g hg => ?_) rfl rfl
  subst hg
  exact min_le_right _ _

omit hC in
/-- The grant that a code stands for: the one recorded with it, bound as it is. -/
structure RedeemedBy (g : GrantRow) (c : CodeRecord) (ownerId : String) : Prop where
  id : c.grantId = some g.id
  owner : g.ownerId = ownerId
  client : g.clientId = c.clientId
  resource : g.resource = c.resource
  scopes : sameStrings g.scopes c.scopes = true

omit hC in
theorem RedeemedBy.later {g g' : GrantRow} {c : CodeRecord} {ownerId : String}
    (h : RedeemedBy g c ownerId) (hlater : g.Later g') : RedeemedBy g' c ownerId := by
  rw [hlater.1]
  exact ⟨h.id, h.owner, h.client, h.resource, h.scopes⟩

theorem redeemedGrant_spec {ownerId : String} {c : CodeRecord}
    {Q : Except Thrown GrantRow → Memory → AuthDb → Prop}
    (hread : ∀ id s', GrantReadable C id s') (hfail : ∀ e s', Evolves s s' → Q (.error e) m s')
    (hok : ∀ g s', Evolves s s' → g ∈ s'.grants → g.status = .active → RedeemedBy g c ownerId →
      Q (.ok g) m s') : wpProcess C (redeemedGrant env ownerId c) Q m s := by
  rw [redeemedGrant, wpProcess_bind]
  refine wpProcess_storeOr (wpThrow_withDate (fun e => ?_) ?_)
  · exact ⟨nofun, fun _ _ _ => hfail _ _ (.refl s)⟩
  · split
    · rw [wpThrow_pure]
      refine ⟨fun a ha => ?_, nofun⟩
      obtain rfl := Except.ok.inj ha
      exact hfail _ _ (.refl s)
    · rename_i id hid
      refine getGrant_spec hC (fun s' _ => hread id s')
        (fun e s' h => ⟨nofun, fun _ _ _ => hfail _ _ h⟩) (fun s' h _ => ?_)
        fun g s' h hg hgid _ => ?_
      · refine ⟨fun a ha => ?_, nofun⟩
        obtain rfl := Except.ok.inj ha
        exact hfail _ _ h
      · refine ⟨fun a ha => ?_, nofun⟩
        obtain rfl := Except.ok.inj ha
        rw [andThen_ok]
        dsimp only
        rw [wpProcess_require_bind]
        refine ⟨fun hmatch => ?_, fun _ => hfail _ _ h⟩
        obtain ⟨hactive, howner, hclient, hres, hsc⟩ := hmatch
        exact hok g s' h hg hactive ⟨hgid ▸ hid, howner, hclient, hres, hsc⟩

/-- What redeeming a code owes at the insertion of the family. -/
def FamilyOwed (C : Setting Sql SqlError AuthDb) (O : OAuthSpike) (env : Env) (c : CodeRecord)
    (s : AuthDb) : Prop :=
  ∀ ownerId g f s₁ s₂, O.ownerId = some ownerId → Evolves s s₁ → g ∈ s₁.grants →
    g.status = .active → RedeemedBy g c ownerId → f.id = env.draws.familyId → f.row.Within g →
    hashRefreshToken O.store.platform env.draws.refreshToken = .ok f.refreshDigest →
    C.rely (.insertFamily f) s₁ s₂ → C.oblige (.insertFamily f) s₂

omit hC in
/-- The family of a redeemed code. -/
structure OpenedFor (O : OAuthSpike) (env : Env) (g : GrantRow) (f : FamilyRow) (s' : AuthDb) :
    Prop where
  mem : f ∈ s'.families
  id : f.id = env.draws.familyId
  grant : f.grantId = g.id
  client : f.clientId = g.clientId
  owner : f.ownerId = g.ownerId
  token : ∃ d, hashRefreshToken O.store.platform env.draws.refreshToken = .ok d ∧
    s'.HasToken d f.id

theorem openFamily_spec {g : GrantRow} {c : CodeRecord} {ownerId : String}
    {Q : Except Thrown (Option FamilyRow) → Memory → AuthDb → Prop}
    (hread : ∀ id s', GrantReadable C id s') (howner : O.ownerId = some ownerId)
    (howed : FamilyOwed C O env c s) (hg : g ∈ s.grants) (hred : RedeemedBy g c ownerId)
    (hfail : ∀ e s', Evolves s s' → Q (.error e) m s')
    (hok : ∀ f s', Evolves s s' → O.OpenedFor env g f s' → Q (.ok (some f)) m s') :
    wpProcess C (O.openFamily env g) Q m s := by
  unfold openFamily
  refine wpProcess_storeOr (wpThrow_withDate (fun e => ?_) (wpThrow_withDate (fun e => ?_) ?_))
  · exact ⟨nofun, fun _ _ _ => hfail _ _ (.refl s)⟩
  · exact ⟨nofun, fun _ _ _ => hfail _ _ (.refl s)⟩
  · refine createTokenFamily_spec hC (hread _) ?_ (fun e s' h => ?_) ?_
    · intro f g' s₁ s₂ h hg' hactive hid hgid _ _ _ hdigest hw hrely
      have hlater := h.grant_of_id hg hg' (hw.id.trans hgid)
      exact howed ownerId g' f s₁ s₂ howner h hg' hactive (hred.later hlater) hid hw hdigest hrely
    · exact ⟨nofun, fun _ _ _ => hfail _ _ h⟩
    · intro f f' s₁ s₂ s' h₁ hrely hid hgid ho hc _ hdigest hlater hf' htoken h₂ _
      refine ⟨fun a ha => ?_, nofun⟩
      obtain rfl := Except.ok.inj ha
      have hfid : f'.id = f.id := by rw [hlater.kept]; rfl
      refine hok f' s' ((h₁.trans (hC.rely hrely)).trans h₂)
        ⟨hf', hfid.trans hid, ?_, ?_, ?_, f.refreshDigest, hdigest, hfid ▸ htoken⟩ <;>
        rw [hlater.kept] <;> assumption

omit hC in
/-- What `checkCode` has seen when it passes. -/
structure PresentedWith (O : OAuthSpike) (params : Params) (c : Transaction) : Prop where
  client : params.get "client_id" = some c.clientId
  redirect : params.get "redirect_uri" = some c.redirectUri
  resource : params.get "resource" = some c.resource
  verifier : ∃ v, params.get "code_verifier" = some v ∧ pkceVerifierPattern v = true ∧
    O.store.platform.sha256Base64Url v = c.codeChallenge

omit hC in
theorem checkCode_eq_ok {params : Params} {c : CodeRecord} (h : O.checkCode params c = .ok ()) :
    O.PresentedWith params c.toTransaction := by
  have hexact : ∀ {name expected : String} {e : OAuthError} {f : Unit → Except Thrown Unit},
      ((do
        let actual ← requireString params name
        if actual = expected then pure () else throw (.oauth e)) >>= f) = .ok () →
      params.get name = some expected ∧ f () = .ok () := by
    intro name expected e f hf
    cases hr : requireString params name with
    | error e => rw [hr] at hf; cases hf
    | ok value =>
      rw [hr] at hf
      by_cases heq : value = expected
      · subst heq
        exact ⟨(requireString_eq_ok hr).1, by simpa [bind, Except.bind, pure, Except.pure] using hf⟩
      · simp [bind, Except.bind, heq, throw, throwThe, MonadExceptOf.throw] at hf
  rw [checkCode] at h
  dsimp only at h
  obtain ⟨hclient, h⟩ := hexact h
  obtain ⟨hredirect, h⟩ := hexact h
  obtain ⟨hresource, h⟩ := hexact h
  cases hr : requireString params "code_verifier" with
  | error e => rw [hr] at h; cases h
  | ok v =>
    simp only [hr, bind, Except.bind] at h
    split at h
    · split at h
      · exact ⟨hclient, hredirect, hresource, v, (requireString_eq_ok hr).1, ‹_›, ‹_›⟩
      · cases h
    · cases h

theorem exchangeAuthorizationCode_spec {params : Params}
    {Q : Except Thrown TokenResponse → Memory → AuthDb → Prop}
    (hread : ∀ id s', GrantReadable C id s')
    (howed : ∀ value c, params.get "code" = some value → m.codes.lookup (O.digest value) = some c →
      O.PresentedWith params c.toTransaction → FamilyOwed C O env c s)
    (hmissing : (∀ value, params.get "code" = some value → value ≠ "" →
      m.codes.lookup (O.digest value) = none) → ∀ e, Q (.error e) m s)
    (hfail : ∀ value c e s', params.get "code" = some value →
      m.codes.lookup (O.digest value) = some c → Evolves s s' →
      Q (.error e) { m with codes := m.codes.erase (O.digest value) } s')
    (hok : ∀ value c grant family expiresAt response s', params.get "code" = some value →
      m.codes.lookup (O.digest value) = some c → O.PresentedWith params c.toTransaction → Evolves s s' →
      (O.ownerId = none ∧ grant = none ∧ family = none ∨ ∃ ownerId g f s₁, O.ownerId = some ownerId ∧
        grant = some g ∧ family = some f ∧ Evolves s s₁ ∧ Evolves s₁ s' ∧ g ∈ s₁.grants ∧
        RedeemedBy g c ownerId ∧ O.OpenedFor env g f s') →
      (∀ g, grant = some g → expiresAt ≤ g.expiresAt) →
      response.accessToken = env.draws.accessToken →
      response.refreshToken = grant.map (fun _ => env.draws.refreshToken) →
      Q (.ok response) { m with
        codes := m.codes.erase (O.digest value)
        tokens := m.tokens.insert (O.digest env.draws.accessToken)
          (tokenRecord c.clientId c.resource c.scopes grant family expiresAt) } s') :
    wpProcess C (O.exchangeAuthorizationCode env params) Q m s := by
  rw [exchangeAuthorizationCode, wpProcess_check_bind]
  refine ⟨fun value hvalue => ?_, fun e he => hmissing (fun value hget hne => ?_) e⟩
  swap
  · simp [requireString, hget, hne] at he
  have hvalue := requireString_eq_ok hvalue
  dsimp only
  rw [wpProcess_get_bind]
  split
  · rename_i hnone
    refine hmissing (fun v hv _ => ?_) _
    rw [hvalue.1] at hv
    exact Option.some.inj hv ▸ hnone
  · rename_i c hc
    rw [wpProcess_modify_bind, wpProcess_check_bind]
    refine ⟨fun _ hcheck => ?_, fun e _ => hfail value c e s hvalue.1 hc (.refl s)⟩
    have hpres := checkCode_eq_ok hcheck
    split
    · rename_i howner
      refine issueAccessToken_spec (fun e => hfail value c e s hvalue.1 hc (.refl s)) ?_
      intro expiresAt response _ hle hacc href
      exact hok value c none none expiresAt response s hvalue.1 hc hpres (.refl s)
        (.inl ⟨howner, rfl, rfl⟩) hle hacc href
    · rename_i ownerId howner
      rw [wpProcess_bind]
      refine redeemedGrant_spec hC hread (fun e s' h => hfail value c e s' hvalue.1 hc h)
        fun g s₁ h₁ hg hactive hred => ?_
      rw [andThen_ok, wpProcess_bind]
      have howed₁ : FamilyOwed C O env c s₁ := fun ownerId g f s₂ s₃ ho h =>
        howed value c hvalue.1 hc hpres ownerId g f s₂ s₃ ho (h₁.trans h)
      refine openFamily_spec hC hread howner howed₁ hg hred
        (fun e s' h => hfail value c e s' hvalue.1 hc (h₁.trans h)) fun f s' h hopen => ?_
      refine issueAccessToken_spec (fun e => hfail value c e s' hvalue.1 hc (h₁.trans h)) ?_
      intro expiresAt response _ hle hacc href
      exact hok value c (some g) (some f) expiresAt response s' hvalue.1 hc hpres (h₁.trans h)
        (.inr ⟨ownerId, g, f, s₁, howner, rfl, rfl, h₁, h, hg, hred, hopen⟩) hle hacc href

/-- What a rotation by this call owes. -/
def RotationOwed (C : Setting Sql SqlError AuthDb) (O : OAuthSpike) (env : Env) (params : Params)
    (s : AuthDb) : Prop :=
  ∀ presented r s₁, O.ownerId.isSome → params.get "refresh_token" = some presented →
    hashRefreshToken O.store.platform presented = .ok r.digest →
    hashRefreshToken O.store.platform env.draws.refreshToken = .ok r.nextDigest →
    C.rely (.rotate r) s s₁ → C.oblige (.rotate r) s₁

theorem exchangeRefreshToken_spec {params : Params}
    {Q : Except Thrown TokenResponse → Memory → AuthDb → Prop}
    (hread : ∀ id s', GrantReadable C id s') (howed : RotationOwed C O env params s)
    (hfail : ∀ e s', Evolves s s' → Q (.error e) m s')
    (hok : ∀ presented r s₁ s₂ s₃ s' f g expiresAt response, O.ownerId.isSome →
      params.get "refresh_token" = some presented →
      hashRefreshToken O.store.platform presented = .ok r.digest →
      hashRefreshToken O.store.platform env.draws.refreshToken = .ok r.nextDigest →
      C.rely (.rotate r) s s₁ → s₁.rotate r = .ok (.rotated f.id g.id, s₂) → Evolves s₂ s₃ →
      Evolves s₃ s' → f ∈ s₃.families → f.status = .active → g ∈ s'.grants → g.status = .active →
      expiresAt ≤ g.expiresAt → response.accessToken = env.draws.accessToken →
      response.refreshToken = some env.draws.refreshToken →
      Q (.ok response) { m with
        tokens := m.tokens.insert (O.digest env.draws.accessToken)
          (tokenRecord g.clientId g.resource g.scopes (some g) (some f) expiresAt) } s') :
    wpProcess C (O.exchangeRefreshToken env params) Q m s := by
  have hbad : ∀ e, Q (.error e) m s := fun e => hfail e s (.refl s)
  rw [exchangeRefreshToken, wpProcess_require_bind]
  refine ⟨fun howner => ?_, fun _ => hbad _⟩
  rw [wpProcess_check_bind]
  refine ⟨fun presented hpres => ?_, fun e _ => hbad e⟩
  rw [wpProcess_check_bind]
  refine ⟨fun clientId _ => ?_, fun e _ => hbad e⟩
  rw [wpProcess_check_bind]
  refine ⟨fun resource _ => ?_, fun e _ => hbad e⟩
  rw [wpProcess_require_bind]
  refine ⟨fun _ => ?_, fun _ => hbad _⟩
  dsimp only
  rw [wpProcess_bind, wpProcess_tryStore]
  have hpres := (requireString_eq_ok hpres).1
  refine wpThrow_withDate (fun e => hbad _) (rotateRefreshToken_spec hC hread ?_ ?_ ?_)
  · intro r s₁ hd hn _ _ _ hrely
    exact howed presented r s₁ howner hpres hd hn hrely
  · exact fun e s' h => hfail _ s' h
  · intro r s₁ s₂ s₃ s' f g hd hn _ hrely hrot h₂₃ h₃ hf hg
    have hev : Evolves s s' :=
      ((hC.rely hrely).trans (rotate_evolves hrot)).trans (h₂₃.trans h₃)
    rw [andThen_ok]
    dsimp only
    rw [wpProcess_require_bind]
    refine ⟨fun hactive => ?_, fun _ => hfail _ s' hev⟩
    have hissue : ∀ scopes : List String, wpProcess C
        (require (sameStrings scopes g.scopes = true) (oauthError .invalidScope
          "Refresh cannot change the approved scope set") >>= fun _ =>
          O.issueAccessToken env g.clientId g.resource g.scopes (some g) (some f) (env.clock 2)
            (some env.draws.refreshToken)) Q m s' := by
      intro scopes
      rw [wpProcess_require_bind]
      refine ⟨fun _ => ?_, fun _ => hfail _ s' hev⟩
      refine issueAccessToken_spec (fun e => hfail e s' hev) fun expiresAt response _ hle hacc href => ?_
      exact hok presented r s₁ s₂ s₃ s' f g expiresAt response howner hpres hd hn hrely hrot h₂₃ h₃ hf
        hactive.1 hg hactive.2 (hle g rfl) hacc href
    split
    · rw [wpProcess_check_bind]
      exact ⟨fun scopes _ => hissue scopes, fun e _ => hfail e s' hev⟩
    · exact hissue g.scopes

/-! ## Revoke and authenticate -/

theorem revoke_spec {params : Params} {Q : Except Thrown Unit → Memory → AuthDb → Prop}
    (hrevoke : ∀ f s₁ s₂ at_, Evolves s s₁ → f ∈ s₁.families →
      C.rely (.revokeFamily f.id f.ownerId at_ "client_revoke") s₁ s₂ →
      C.oblige (.revokeFamily f.id f.ownerId at_ "client_revoke") s₂)
    (hkeep : ∀ r s', Evolves s s' → Q r (m.sweep (env.clock 0)) s')
    (hdrop : ∀ token r s', params.get "token" = some token → Evolves s s' →
      Q r { m.sweep (env.clock 0) with
        tokens := (m.sweep (env.clock 0)).tokens.erase (O.digest token) } s') :
    wpProcess C (O.revoke env params) Q m s := by
  have hself := Evolves.refl s
  rw [revoke, cleanup, wpProcess_modify_bind, wpProcess_check_bind]
  refine ⟨fun token htoken => ?_, fun e _ => hkeep _ s hself⟩
  have htoken := (requireString_eq_ok htoken).1
  dsimp only
  rw [wpProcess_get_bind]
  split
  · rw [wpProcess_modify_bind]
    split
    · rename_i access _ _ familyId _ _
      rw [wpProcess_bind]
      refine wpProcess_storeOr (wpThrow_withDate (fun e => ?_) ?_)
      · exact ⟨nofun, fun _ _ _ => hdrop token _ s htoken hself⟩
      · refine revokeTokenFamily_spec hC (fun f s₁ s₂ at_ h hf hid howner hrely => ?_) fun r s' h => ?_
        · rw [← howner, ← hid] at hrely ⊢
          exact hrevoke f s₁ s₂ at_ h hf hrely
        · exact ⟨fun _ _ => hdrop token _ s' htoken h, fun _ _ _ => hdrop token _ s' htoken h⟩
    · exact hdrop token _ s htoken hself
  · split
    · exact hkeep _ s hself
    · rw [wpProcess_bind]
      refine wpProcess_storeOr (wpThrow_withDate (fun e => ?_) ?_)
      · exact ⟨nofun, fun _ _ _ => hkeep _ s hself⟩
      · refine revokeRefreshToken_spec hC hrevoke fun r s' h => ?_
        exact ⟨fun _ _ => hkeep _ s' h, fun _ _ _ => hkeep _ s' h⟩

omit hC in
/-- A grant that stands behind an access token at a clock reading. -/
structure GrantStands (g : GrantRow) (record : TokenRecord) (now : Instant) : Prop where
  id : record.grantId = some g.id
  active : g.status = .active
  live : now < g.expiresAt
  owner : record.ownerId = some g.ownerId
  client : g.clientId = record.clientId
  resource : g.resource = record.resource
  profile : record.executionProfile = some g.executionProfile
  scopes : sameStrings g.scopes record.scopes = true

omit hC in
/-- A family that stands behind an access token at a clock reading. -/
structure FamilyStands (f : FamilyRow) (record : TokenRecord) (familyId : String) (now : Instant) :
    Prop where
  id : f.id = familyId
  active : f.status = .active
  live : now < f.expiresAt
  grant : record.grantId = some f.grantId

/-- The live checks behind an access token: the grant is read at `s₁`, the family at `s'`. -/
def StandsAt (O : OAuthSpike) (env : Env) (record : TokenRecord) (s s' : AuthDb) : Prop :=
  O.ownerId.isSome → ∃ g s₁, Evolves s s₁ ∧ Evolves s₁ s' ∧ g ∈ s₁.grants ∧
    GrantStands g record (env.clock 2) ∧ ∀ familyId, record.tokenFamilyId = some familyId →
      ∃ f ∈ s'.families, FamilyStands f record familyId (env.clock 3)

theorem grantStands_spec {record : TokenRecord} {Q : Except Thrown Bool → Memory → AuthDb → Prop}
    (hread : ∀ id s', GrantReadable C id s') (hno : ∀ s', Evolves s s' → Q (.ok false) m s')
    (hyes : ∀ g s', Evolves s s' → g ∈ s'.grants → GrantStands g record (env.clock 2) →
      Q (.ok true) m s') : wpProcess C (grantStands env record) Q m s := by
  rw [grantStands, wpProcess_bind, wpProcess_tryStore]
  refine wpThrow_withDate (fun e => hno s (.refl s)) ?_
  split
  · exact hno s (.refl s)
  · rename_i id hid
    refine getGrant_spec hC (fun s' _ => hread id s') (fun e s' h => hno s' h) (fun s' h _ => hno s' h)
      fun g s' h hg hgid hlive => ?_
    rw [andThen_ok]
    dsimp only
    rw [wpProcess_pure]
    cases hb : decide (g.status = .active ∧ some g.ownerId = record.ownerId ∧
      g.clientId = record.clientId ∧ g.resource = record.resource ∧
      some g.executionProfile = record.executionProfile) && sameStrings g.scopes record.scopes with
    | false => exact hno s' h
    | true =>
      rw [Bool.and_eq_true, decide_eq_true_eq] at hb
      obtain ⟨⟨ha, ho, hc, hr, hp⟩, hs⟩ := hb
      obtain ⟨current, hcur, hlt⟩ := hlive ha
      obtain rfl := Option.some.inj hcur
      exact hyes g s' h hg ⟨hgid ▸ hid, ha, hlt, ho.symm, hc, hr, hp.symm, hs⟩

theorem familyStands_spec {record : TokenRecord} {familyId : String}
    {Q : Except Thrown Bool → Memory → AuthDb → Prop}
    (hno : ∀ s', Evolves s s' → Q (.ok false) m s')
    (hyes : ∀ f s', Evolves s s' → f ∈ s'.families → FamilyStands f record familyId (env.clock 3) →
      Q (.ok true) m s') : wpProcess C (familyStands env record familyId) Q m s := by
  rw [familyStands, wpProcess_bind, wpProcess_tryStore]
  refine wpThrow_withDate (fun e => hno s (.refl s)) ?_
  refine getTokenFamily_spec hC (fun e s' h => hno s' h) (fun s' h _ => hno s' h)
    fun f s' h hf hid hlive => ?_
  rw [andThen_ok]
  dsimp only
  rw [wpProcess_pure]
  by_cases hb : f.status = .active ∧ some f.grantId = record.grantId ∧
      some f.ownerId = record.ownerId ∧ f.clientId = record.clientId ∧ f.resource = record.resource
  · rw [decide_eq_true hb]
    obtain ⟨-, current, hcur, hlt⟩ := hlive hb.1
    obtain rfl := Option.some.inj hcur
    exact hyes f s' h hf ⟨hid, hb.1, hlt, hb.2.1.symm⟩
  · rw [decide_eq_false hb]
    exact hno s' h

theorem authenticate_spec {header : Option String}
    {Q : Except Thrown (Option Authorization) → Memory → AuthDb → Prop}
    (hread : ∀ id s', GrantReadable C id s')
    (hnone : ∀ s', Evolves s s' → Q (.ok none) (m.sweep (env.clock 0)) s')
    (hsome : ∀ token record s', bearerToken header = some token → Evolves s s' →
      (m.sweep (env.clock 0)).tokens.lookup (O.digest token) = some record →
      record.resource = O.resource → env.clock 1 < record.expiresAt →
      StandsAt O env record s s' →
      Q (.ok (some ⟨record.clientId, record.scopes, record.ownerId, record.grantId,
        record.executionProfile, record.grantExpiresAt⟩)) (m.sweep (env.clock 0)) s') :
    wpProcess C (O.authenticate env header) Q m s := by
  have hself := Evolves.refl s
  rw [authenticate, cleanup, wpProcess_modify_bind]
  split
  · exact hnone s hself
  · rename_i token htoken
    rw [wpProcess_get_bind]
    split
    · exact hnone s hself
    · rename_i record hrecord
      split
      · exact hnone s hself
      · rename_i hlive
        rw [not_or, not_not, not_le] at hlive
        rw [wpProcess_bind]
        have hyes := fun s' h => hsome token record s' htoken h hrecord hlive.1 hlive.2
        unfold recordStands
        split
        · rename_i howner
          exact hyes s hself fun h => by rw [howner] at h; cases h
        · rw [wpProcess_bind]
          refine grantStands_spec hC hread (fun s' h => hnone s' h) fun g s₁ h₁ hg hstands => ?_
          rw [andThen_ok, if_pos rfl]
          split
          · rename_i hfam
            refine hyes s₁ h₁ fun _ => ⟨g, s₁, h₁, .refl s₁, hg, hstands, fun familyId hid => ?_⟩
            rw [hfam] at hid
            cases hid
          · rename_i familyId hfam
            refine familyStands_spec hC (fun s' h => hnone s' (h₁.trans h)) fun f s' h hf hfs => ?_
            refine hyes s' (h₁.trans h) fun _ => ⟨g, s₁, h₁, h, hg, hstands, fun id hid => ?_⟩
            rw [hfam] at hid
            exact ⟨f, hf, Option.some.inj hid ▸ hfs⟩

end OAuthSpike

end BegetBridge.Auth
