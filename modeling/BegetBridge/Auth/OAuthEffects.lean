import BegetBridge.Auth.FamilyInvariant
import BegetBridge.Auth.OAuthSpecs
import BegetBridge.Auth.Origin

/-!
# What a call of the OAuth endpoints can do

Every undisturbed run of a call ends in one of the outcomes listed here, and the rows it adds to
the auth database are of the kinds listed here. All that is proved of runs of the endpoints
follows from these two lists.

## Main definitions

* `Outcome`: the memory and the reply that a call ends with, and what it has checked
* `Redeems`, `Rotates`: an exchange that redeems a code, or presents a refresh token
* `Additions`: where the families and tokens of the database come from

## Main results

* `call_outcome`: every call has an outcome
* `call_additions`: every family and token is an old one or comes from the call
-/

namespace BegetBridge.Auth

open Relational Interleaving Core

/-! ## Exchanges -/

/-- The call reaches the exchange of this grant type. -/
def OAuthCall.Exchanges (call : OAuthCall) (grantType : String) (params : Params) : Prop :=
  ∃ header, call = .exchange params header ∧ header.all (· = "") = true ∧
    params.get "grant_type" = some grantType

/-- The call presents a code to the authorization-code exchange. -/
def OAuthCall.PresentsCode (call : OAuthCall) (value : String) : Prop :=
  ∃ params, call.Exchanges "authorization_code" params ∧ params.get "code" = some value

/-- The call presents a refresh token to the refresh exchange. -/
def OAuthCall.PresentsRefresh (call : OAuthCall) (token : String) : Prop :=
  ∃ params, call.Exchanges "refresh_token" params ∧ params.get "refresh_token" = some token

/-- The call presents a transaction for approval. -/
def OAuthCall.PresentsTransaction (call : OAuthCall) (id : String) : Prop :=
  ∃ transactionId approvalSecret, call = .approve transactionId approvalSecret ∧
    transactionId.getD "" = id

theorem OAuthCall.Exchanges.unique {call : OAuthCall} {t t' : String} {params params' : Params}
    (h : call.Exchanges t params) (h' : call.Exchanges t' params') : t = t' ∧ params = params' := by
  obtain ⟨header, rfl, -, ht⟩ := h
  obtain ⟨header', he, -, ht'⟩ := h'
  obtain ⟨rfl, -⟩ := OAuthCall.exchange.inj he
  exact ⟨Option.some.inj (ht.symm.trans ht'), rfl⟩

theorem OAuthCall.PresentsCode.unique {call : OAuthCall} {v v' : String} (h : call.PresentsCode v)
    (h' : call.PresentsCode v') : v = v' := by
  obtain ⟨params, hex, hv⟩ := h
  obtain ⟨params', hex', hv'⟩ := h'
  obtain ⟨-, rfl⟩ := hex.unique hex'
  exact Option.some.inj (hv.symm.trans hv')

theorem OAuthCall.PresentsRefresh.unique {call : OAuthCall} {v v' : String}
    (h : call.PresentsRefresh v) (h' : call.PresentsRefresh v') : v = v' := by
  obtain ⟨params, hex, hv⟩ := h
  obtain ⟨params', hex', hv'⟩ := h'
  obtain ⟨-, rfl⟩ := hex.unique hex'
  exact Option.some.inj (hv.symm.trans hv')

theorem OAuthCall.PresentsTransaction.unique {call : OAuthCall} {v v' : String}
    (h : call.PresentsTransaction v) (h' : call.PresentsTransaction v') : v = v' := by
  obtain ⟨id, secret, rfl, hv⟩ := h
  obtain ⟨id', secret', he, hv'⟩ := h'
  obtain ⟨rfl, -⟩ := OAuthCall.approve.inj he
  exact hv.symm.trans hv'

/-- An exchange is of one grant type. -/
theorem OAuthCall.PresentsCode.not_refresh {call : OAuthCall} {v v' : String}
    (h : call.PresentsCode v) (h' : call.PresentsRefresh v') : False := by
  obtain ⟨params, hex, -⟩ := h
  obtain ⟨params', hex', -⟩ := h'
  exact absurd (hex.unique hex').1 (by decide)

section

variable (O : OAuthSpike) (env : Env) (m : Memory)

/-- The memory as a call finds it after its sweep. -/
abbrev swept : Memory := m.sweep (env.clock 0)

/-- The call redeems `value`: it is recorded as `c`, and the parameters pass the checks. -/
structure Redeems (call : OAuthCall) (value : String) (c : CodeRecord) : Prop where
  presents : call.PresentsCode value
  found : (swept env m).codes.lookup (O.digest value) = some c
  checked : ∃ params, call.Exchanges "authorization_code" params ∧ O.PresentedWith params c.toTransaction

/-- The call presents the refresh token of rotation `r`, whose next token it draws. -/
structure Rotates (call : OAuthCall) (r : Rotation) : Prop where
  presents : ∃ token, call.PresentsRefresh token ∧
    hashRefreshToken O.store.platform token = .ok r.digest
  next : hashRefreshToken O.store.platform env.draws.refreshToken = .ok r.nextDigest
  durable : O.ownerId.isSome

/-- The family opened for a redeemed code, within the grant behind the code. -/
structure FamilyFor (c : CodeRecord) (g : GrantRow) (f : NewFamily) : Prop where
  owner : ∃ ownerId, O.ownerId = some ownerId ∧ OAuthSpike.RedeemedBy g c ownerId
  id : f.id = env.draws.familyId
  within : f.row.Within g
  digest : hashRefreshToken O.store.platform env.draws.refreshToken = .ok f.refreshDigest

/-! ## Outcomes -/

/-- The tables behind the access token of a redeemed code. -/
def BackedBy (c : CodeRecord) (grant : Option GrantRow) (family : Option FamilyRow) (s s' : AuthDb) :
    Prop :=
  (O.ownerId = none ∧ grant = none ∧ family = none) ∨
    ∃ ownerId g f s₁, O.ownerId = some ownerId ∧ grant = some g ∧ family = some f ∧ Evolves s s₁ ∧
      Evolves s₁ s' ∧ g ∈ s₁.grants ∧ OAuthSpike.RedeemedBy g c ownerId ∧
      O.OpenedFor env g f s'

/-- How a call from memory `m` and database `s` ends: with which reply, which memory and, for the
database `s'` it leaves, after which checks. -/
inductive Outcome (s s' : AuthDb) : OAuthCall → Except Thrown OAuthReply → Memory → Prop
  | registration (document : RegistrationDocument) (r : Except Thrown Registration) :
    Outcome s s' (.registerClient document) (r.map .registered) m
  | notBegun (params : Params) (e : Thrown) :
    Outcome s s' (.beginAuthorization params) (.error e) (swept env m)
  | begun {params : Params} {a : Awaiting} {scopes : List String} (hbegun : O.BegunWith params a)
      (hclient : a.clientId = m.dcrClientId) (hredirect : a.redirectUri = defaultChatGptRedirectUri)
      (hscopes : parseScope a.scope O.scopes = .ok scopes) :
    Outcome s s' (.beginAuthorization params) (.ok (.page (O.page env a scopes)))
      { swept env m with
        transactions := (swept env m).transactions.insert (O.digest env.draws.transactionId)
          (O.transaction env a scopes) }
  | suspended {params : Params} {a : Awaiting} (hbegun : O.BegunWith params a)
      (hallowed : a.clientId ∈ O.registry.allowedClientIds)
      (hcached : ∀ v, a.verdict = some v → ∃ metadata, m.cache.lookup a.clientId = some metadata ∧
        v = listsRedirect metadata.redirectUris a.redirectUri) :
    Outcome s s' (.beginAuthorization params) (.ok (.suspended m.begun))
      { swept env m with awaiting := m.awaiting.insert m.begun a, begun := m.begun + 1 }
  | notAnswered (n : Nat) (fetched : Fetched) :
    Outcome s s' (.registryAnswers n fetched) (.ok .done) m
  | refused {n : Nat} (fetched : Fetched) {a : Awaiting} (e : Thrown)
      (ha : m.awaiting.lookup n = some a) :
    Outcome s s' (.registryAnswers n fetched) (.ok .done)
      { m with awaiting := m.awaiting.insert n { a with verdict := some (.error e) } }
  | fetched {n : Nat} {fetched : Fetched} {a : Awaiting} {uris : List (Option String)}
      (ha : m.awaiting.lookup n = some a)
      (hdoc : O.registry.checkResponse a.clientId fetched = .ok uris) :
    Outcome s s' (.registryAnswers n fetched) (.ok .done)
      { m with
        cache := m.cache.insert a.clientId ⟨uris, env.clock 0 + O.registry.cacheTtlMs⟩
        awaiting := m.awaiting.insert n
          { a with verdict := some (listsRedirect uris a.redirectUri) } }
  | notResumed (n : Nat) : Outcome s s' (.resume n) (.ok .done) m
  | resumeFailed (n : Nat) (e : Thrown) :
    Outcome s s' (.resume n) (.error e) { m with awaiting := m.awaiting.erase n }
  | resumed {n : Nat} {a : Awaiting} {scopes : List String} (ha : m.awaiting.lookup n = some a)
      (hverdict : a.verdict = some (.ok ())) (hscopes : parseScope a.scope O.scopes = .ok scopes) :
    Outcome s s' (.resume n) (.ok (.page (O.page env a scopes)))
      { m with
        awaiting := m.awaiting.erase n
        transactions := m.transactions.insert (O.digest env.draws.transactionId)
          (O.transaction env a scopes) }
  | noTransaction {id secret : Option String} (e : Thrown)
      (hnone : (swept env m).transactions.lookup (O.digest (id.getD "")) = none) :
    Outcome s s' (.approve id secret) (.error e) (swept env m)
  | notApproved (id secret : Option String) (e : Thrown) :
    Outcome s s' (.approve id secret) (.error e)
      { swept env m with
        transactions := (swept env m).transactions.erase (O.digest (id.getD "")) }
  | approved {id secret : Option String} {t : Transaction} {grant : Option GrantRow}
      {r : Except Thrown Redirect}
      (ht : (swept env m).transactions.lookup (O.digest (id.getD "")) = some t)
      (hsecret : secret.getD "" = O.approvalSecret) (hgrant : O.ApprovedAs env t grant s')
      (hcode : ∀ redirect, r = .ok redirect → redirect.code = env.draws.code) :
    Outcome s s' (.approve id secret) (r.map .redirect)
      { swept env m with
        transactions := (swept env m).transactions.erase (O.digest (id.getD ""))
        codes := (swept env m).codes.insert (O.digest env.draws.code) (O.codeRecord env t grant) }
  | notExchanged {params : Params} {header : Option String} (e : Thrown)
      (hnone : ∀ value, (OAuthCall.exchange params header).PresentsCode value → value ≠ "" →
        (swept env m).codes.lookup (O.digest value) = none) :
    Outcome s s' (.exchange params header) (.error e) (swept env m)
  | notRedeemed {params : Params} {header : Option String} {value : String} (e : Thrown)
      (hpresents : (OAuthCall.exchange params header).PresentsCode value) :
    Outcome s s' (.exchange params header) (.error e)
      { swept env m with codes := (swept env m).codes.erase (O.digest value) }
  | redeemed {params : Params} {header : Option String} {value : String} {c : CodeRecord}
      {grant : Option GrantRow} {family : Option FamilyRow} {expiresAt : Instant}
      {response : TokenResponse} (hredeems : Redeems O env m (.exchange params header) value c)
      (hbacked : BackedBy O env c grant family s s')
      (haccess : response.accessToken = env.draws.accessToken)
      (hrefresh : response.refreshToken = grant.map fun _ => env.draws.refreshToken) :
    Outcome s s' (.exchange params header) (.ok (.tokens response))
      { swept env m with
        codes := (swept env m).codes.erase (O.digest value)
        tokens := (swept env m).tokens.insert (O.digest env.draws.accessToken)
          (OAuthSpike.tokenRecord c.clientId c.resource c.scopes grant family expiresAt) }
  | refreshed {params : Params} {header : Option String} {r : Rotation} {f : FamilyRow}
      {g : GrantRow} {s₁ s₂ : AuthDb} {expiresAt : Instant} {response : TokenResponse}
      (hrotates : Rotates O env (.exchange params header) r) (h₁ : Evolves s s₁)
      (hrotate : s₁.rotate r = .ok (.rotated f.id g.id, s₂)) (h₂ : Evolves s₂ s')
      (hg : g ∈ s'.grants)
      (haccess : response.accessToken = env.draws.accessToken)
      (hrefresh : response.refreshToken = some env.draws.refreshToken) :
    Outcome s s' (.exchange params header) (.ok (.tokens response))
      { swept env m with
        tokens := (swept env m).tokens.insert (O.digest env.draws.accessToken)
          (OAuthSpike.tokenRecord g.clientId g.resource g.scopes (some g) (some f) expiresAt) }
  | revokeKept (params : Params) (r : Except Thrown Unit) :
    Outcome s s' (.revoke params) (r.map fun _ => .done) (swept env m)
  | revokeDropped (params : Params) (token : String) (r : Except Thrown Unit) :
    Outcome s s' (.revoke params) (r.map fun _ => .done)
      { swept env m with tokens := (swept env m).tokens.erase (O.digest token) }
  | notAuthorized (header : Option String) :
    Outcome s s' (.authenticate header) (.ok (.authorized none)) (swept env m)
  | authorized {header : Option String} {token : String} {record : TokenRecord}
      (htoken : bearerToken header = some token)
      (hfound : (swept env m).tokens.lookup (O.digest token) = some record)
      (hresource : record.resource = O.resource) (hlive : env.clock 1 < record.expiresAt)
      (hstands : O.StandsAt env record s s') :
    Outcome s s' (.authenticate header)
      (.ok (.authorized (some ⟨record.clientId, record.scopes, record.ownerId, record.grantId,
        record.executionProfile, record.grantExpiresAt⟩))) (swept env m)

/-- What the statements of a call owe: a licence, and for a new family or a rotation the exchange
that asks for it. -/
def Owed (call : OAuthCall) {β : Type} : Sql β → AuthDb → Prop
  | .insertFamily f, s => ∃ value c, Redeems O env m call value c ∧
      ∃ g ∈ s.grants, FamilyFor O env c g f
  | .rotate r, _ => Rotates O env call r
  | _, _ => True

/-- A call alone: no interference, and every statement owes a licence and its reason. -/
def callSetting (call : OAuthCall) : Setting Sql SqlError AuthDb where
  toBackend := authBackend
  Fault := StorageFault
  rely _ s s' := s = s'
  oblige op s := op.Licensed O.store.platform s ∧ Owed O env m call op s

theorem callSetting_tame (call : OAuthCall) : Tame (callSetting O env m call) where
  exec := rfl
  rely h := h ▸ .refl _
  free {_ op _} hfree := by cases op <;> first | exact ⟨trivial, trivial⟩ | exact hfree.elim

end

/-! ## Every call has an outcome -/

section

variable {O : OAuthSpike} {env : Env} {m : Memory} {s : AuthDb}

theorem callSetting_read (call : OAuthCall) (id : String) (s : AuthDb) :
    GrantReadable (callSetting O env m call) id s :=
  ⟨⟨trivial, trivial⟩, trivial, trivial⟩

theorem callSetting_client (call : OAuthCall) (clientId : String) (s : AuthDb) :
    OAuthSpike.ClientOwed (callSetting O env m call) O clientId s where
  insert _ _ _ _ _ _ _ _ hid _ := ⟨⟨_, hid⟩, trivial⟩
  reactivate _ _ _ _ _ _ _ _ _ _ _ _ _ := ⟨trivial, trivial⟩

theorem exchange_spec {params : Params} {header : Option String} :
    wpProcess (callSetting O env m (.exchange params header)) (O.exchange env params header)
      (fun r m' s' => Outcome O env m s s' (.exchange params header) (r.map .tokens) m') m s := by
  have hC := callSetting_tame O env m (.exchange params header)
  have hread : ∀ id s', GrantReadable (callSetting O env m (.exchange params header)) id s' :=
    callSetting_read (.exchange params header)
  have hnot : ∀ e s', (∀ value, (OAuthCall.exchange params header).PresentsCode value → value ≠ "" →
      (swept env m).codes.lookup (O.digest value) = none) →
      Outcome O env m s s' (.exchange params header) (.error e) (swept env m) :=
    fun e s' hnone => .notExchanged e hnone
  -- what is presented must be presented to the exchange of codes
  have hother : ∀ {value}, (OAuthCall.exchange params header).PresentsCode value →
      header.all (· = "") = true ∧ params.get "grant_type" = some "authorization_code" := by
    rintro value ⟨params', ⟨header', he, hhead, htype⟩, -⟩
    obtain ⟨rfl, rfl⟩ := OAuthCall.exchange.inj he
    exact ⟨hhead, htype⟩
  rw [OAuthSpike.exchange, OAuthSpike.cleanup, wpProcess_modify_bind, wpProcess_require_bind]
  refine ⟨fun hhead => ?_, fun hhead => hnot _ s fun v hv _ => absurd (hother hv).1 hhead⟩
  rw [wpProcess_check_bind]
  refine ⟨fun grantType htype => ?_, fun e he => hnot _ s fun v hv _ => ?_⟩
  swap
  · have := (hother hv).2
    simp [requireString, this] at he
  have htype := (requireString_eq_ok htype).1
  split
  · rename_i hcode
    subst hcode
    have hexch : (OAuthCall.exchange params header).Exchanges "authorization_code" params :=
      ⟨header, rfl, hhead, htype⟩
    have hredeems : ∀ {value c}, params.get "code" = some value →
        (swept env m).codes.lookup (O.digest value) = some c → O.PresentedWith params c.toTransaction →
        Redeems O env m (.exchange params header) value c :=
      fun hvalue hc hpres => ⟨⟨params, hexch, hvalue⟩, hc, params, hexch, hpres⟩
    refine OAuthSpike.exchangeAuthorizationCode_spec hC hread ?_ ?_ ?_ ?_
    · rintro value c hvalue hc hpres ownerId g f s₁ _ howner _ hg _ hred hid hwithin hdigest rfl
      exact ⟨⟨g, hg, hwithin⟩, value, c, hredeems hvalue hc hpres, g, hg,
        ⟨ownerId, howner, hred⟩, hid, hwithin, hdigest⟩
    · intro hmissing e
      refine hnot e s fun value hv hne => hmissing value ?_ hne
      obtain ⟨params', hex', hvalue⟩ := hv
      obtain ⟨-, rfl⟩ := hex'.unique hexch
      exact hvalue
    · intro value c e s' hvalue _ _
      exact .notRedeemed e ⟨params, hexch, hvalue⟩
    · intro value c grant family expiresAt response s' hvalue hc hpres _ hbacked _ hacc href
      exact .redeemed (hredeems hvalue hc hpres) hbacked hacc href
  · rename_i hcode
    have hnone : ∀ e s', Outcome O env m s s' (.exchange params header) (.error e) (swept env m) :=
      fun e s' => hnot e s' fun v hv _ =>
        absurd (Option.some.inj (htype.symm.trans (hother hv).2)) hcode
    split
    · rename_i hrefresh
      subst hrefresh
      have hrotates : ∀ {token r}, O.ownerId.isSome → params.get "refresh_token" = some token →
          hashRefreshToken O.store.platform token = .ok r.digest →
          hashRefreshToken O.store.platform env.draws.refreshToken = .ok r.nextDigest →
          Rotates O env (.exchange params header) r :=
        fun howner htoken hd hn =>
          ⟨⟨_, ⟨params, ⟨header, rfl, hhead, htype⟩, htoken⟩, hd⟩, hn, howner⟩
      refine OAuthSpike.exchangeRefreshToken_spec hC hread ?_ (fun e s' _ => hnone e s') ?_
      · rintro token r s₁ howner htoken hd hn -
        exact ⟨trivial, hrotates howner htoken hd hn⟩
      · rintro token r s₁ s₂ s₃ s' f g expiresAt response howner htoken hd hn rfl hrot h₂₃ h₃ _ _ hg
          _ _ hacc href
        exact .refreshed (hrotates howner htoken hd hn) (.refl _) hrot (h₂₃.trans h₃) hg hacc href
    · exact hnone _ s

/-- A call owes no more than it has checked, and ends in an outcome. -/
theorem call_spec (call : OAuthCall) :
    wpProcess (callSetting O env m call) (call.program O env)
      (fun r m' s' => Outcome O env m s s' call r m') m s := by
  have hC := callSetting_tame O env m call
  cases call with
  | registerClient document =>
    rw [OAuthCall.program, wpProcess_map]
    exact OAuthSpike.registerClient_spec hC (callSetting_client _ _ _) fun r s' _ =>
      .registration document r
  | beginAuthorization params =>
    rw [OAuthCall.program, wpProcess_bind]
    refine OAuthSpike.beginAuthorization_spec hC (fun _ => callSetting_client _ _ _)
      (fun e s' _ => .notBegun params e) ?_ ?_
    · intro a scopes s' _ hbegun _ hclient hredirect hscopes
      exact .begun hbegun hclient hredirect hscopes
    · intro a hbegun hallowed hcached
      exact .suspended hbegun hallowed hcached
  | registryAnswers n fetched =>
    rw [OAuthCall.program, wpProcess_bind]
    refine OAuthSpike.registryAnswers_spec (.notAnswered n fetched) ?_ ?_
    · intro a e ha
      exact .refused fetched e ha
    · intro a uris ha hdoc
      exact .fetched ha hdoc
  | resume n =>
    rw [OAuthCall.program, wpProcess_bind]
    refine OAuthSpike.resume_spec hC (fun _ => callSetting_client _ _ _) (.notResumed n) ?_ ?_
    · intro a e s' ha _
      exact .resumeFailed n e
    · intro a scopes s' ha hverdict _ hscopes
      exact .resumed ha hverdict hscopes
  | approve id secret =>
    rw [OAuthCall.program, wpProcess_map]
    refine OAuthSpike.approve_spec hC ?_ (fun _ _ _ _ => callSetting_read _ _ _)
      (fun hnone e => .noTransaction e hnone) ?_ ?_
    · rintro t ownerId c row s₁ _ _ _ _ _ hc hid howner _ hrow rfl
      exact ⟨⟨⟨c, hc, hid.trans hrow.client.symm, howner.trans hrow.owner.symm⟩, _, hrow.resource⟩,
        trivial⟩
    · intro t e s' _ _
      exact .notApproved id secret e
    · intro t grant r s' ht hsecret _ hgrant hcode
      exact .approved ht hsecret hgrant hcode
  | exchange params header =>
    rw [OAuthCall.program, wpProcess_map]
    exact exchange_spec
  | revoke params =>
    rw [OAuthCall.program, wpProcess_bind]
    have hkept : ∀ (r : Except Thrown Unit) s', andThen
        (fun r m' s' => Outcome O env m s s' (.revoke params) r m')
        (fun _ => wpProcess (callSetting O env m (.revoke params)) (pure OAuthReply.done)
          fun r m' s' => Outcome O env m s s' (.revoke params) r m') r (swept env m) s' := by
      intro r s'
      cases r with
      | ok u => exact .revokeKept params (.ok u)
      | error e => exact .revokeKept params (.error e)
    have hdropped : ∀ (token : String) (r : Except Thrown Unit) s', andThen
        (fun r m' s' => Outcome O env m s s' (.revoke params) r m')
        (fun _ => wpProcess (callSetting O env m (.revoke params)) (pure OAuthReply.done)
          fun r m' s' => Outcome O env m s s' (.revoke params) r m') r
        { swept env m with tokens := (swept env m).tokens.erase (O.digest token) } s' := by
      intro token r s'
      cases r with
      | ok u => exact .revokeDropped params token (.ok u)
      | error e => exact .revokeDropped params token (.error e)
    refine OAuthSpike.revoke_spec hC ?_ (fun r s' _ => hkept r s') fun token r s' _ _ =>
      hdropped token r s'
    rintro f s₁ _ at_ _ hf rfl
    exact ⟨fun f' hf' hid => congrArg FamilyRow.ownerId (family_eq_of_id hf' hf hid), trivial⟩
  | authenticate header =>
    rw [OAuthCall.program, wpProcess_map]
    refine OAuthSpike.authenticate_spec hC (fun _ _ => callSetting_read _ _ _)
      (fun s' _ => .notAuthorized header) ?_
    intro token record s' htoken _ hfound hresource hlive hstands
    exact .authorized htoken hfound hresource hlive hstands

/-- **Every call has an outcome.** -/
theorem call_outcome {call : OAuthCall} {tr : List (Entry Sql SqlError)}
    {r : Except Thrown OAuthReply} {m' : Memory} {s' : AuthDb}
    (h : Runs authBackend StorageFault ((call.program O env).run.run m) s tr (r, m') s') :
    Outcome O env m s s' call r m' :=
  wp_sound (C := callSetting O env m call) (fun _ _ => rfl) (call_spec call) h

/-! ## The rows a call adds -/

/-- Where the families and tokens of `db` come from, for a call that started at `db₀`. -/
structure Additions (O : OAuthSpike) (env : Env) (m : Memory) (call : OAuthCall) (db₀ db : AuthDb) :
    Prop where
  families : ∀ f ∈ db.families, (∃ f₀ ∈ db₀.families, f₀.Later f) ∨
    ∃ value c n, Redeems O env m call value c ∧ (∃ g ∈ db.grants, FamilyFor O env c g n) ∧
      n.row.Later f
  tokens : ∀ t ∈ db.tokens, (∃ t₀ ∈ db₀.tokens, t₀.Later t) ∨
    (∃ value c n, Redeems O env m call value c ∧ (∃ g ∈ db.grants, FamilyFor O env c g n) ∧
      t.digest = n.refreshDigest ∧ t.familyId = n.id ∧ ∀ f₀ ∈ db₀.families, f₀.id ≠ n.id) ∨
    ∃ r, Rotates O env call r ∧ t.digest = r.nextDigest ∧ r.digest ≠ r.nextDigest ∧
      db.HasToken r.digest t.familyId

theorem additions_refl {call : OAuthCall} : Additions O env m call s s where
  families f hf := .inl ⟨f, hf, .refl f⟩
  tokens t ht := .inl ⟨t, ht, .refl t⟩

/-- A grant that a family stands for stays the same but for its status. -/
theorem FamilyFor.later {c : CodeRecord} {g g' : GrantRow} {n : NewFamily}
    (h : FamilyFor O env c g n) (hlater : g.Later g') : FamilyFor O env c g' n where
  owner := by
    obtain ⟨ownerId, howner, hred⟩ := h.owner
    exact ⟨ownerId, howner, hred.later hlater⟩
  id := h.id
  within := by
    have hw := h.within
    rw [hlater.1]
    exact ⟨hw.id, hw.owner, hw.client, hw.resource, hw.expiry⟩
  digest := h.digest

theorem familyFor_of_evolves {s' : AuthDb} (h : Evolves s s') {c : CodeRecord} {n : NewFamily}
    (hg : ∃ g ∈ s.grants, FamilyFor O env c g n) : ∃ g ∈ s'.grants, FamilyFor O env c g n := by
  obtain ⟨g, hg, hfor⟩ := hg
  obtain ⟨g', hg', hlater⟩ := h.grants g hg
  exact ⟨g', hg', hfor.later hlater⟩

/-- One statement: what it adds, it owes a reason for. -/
theorem additions_answer {call : OAuthCall} {db₀ s' : AuthDb} {β : Type} {op : Sql β}
    {x : Except SqlError β} (h₀ : Evolves db₀ s) (h : Additions O env m call db₀ s) (hop : Owed O env m call op s)
    (hans : Answer authBackend StorageFault op s x s') :
    Additions O env m call db₀ s' := by
  have hev := answer_evolves hans
  have horigin := answer_origin hans
  constructor
  · intro f' hf'
    obtain ⟨f, hf, hlater⟩ | hadd := horigin.families f' hf'
    · obtain ⟨f₀, hf₀, h₀⟩ | ⟨value, c, n, hred, hg, hn⟩ := h.families f hf
      · exact .inl ⟨f₀, hf₀, h₀.trans hlater⟩
      · exact .inr ⟨value, c, n, hred, familyFor_of_evolves hev hg, hn.trans hlater⟩
    · cases op with
      | insertFamily n =>
        obtain rfl : f' = n.row := hadd
        obtain ⟨value, c, hred, hg⟩ := hop
        exact .inr ⟨value, c, n, hred, familyFor_of_evolves hev hg, .refl _⟩
      | _ => exact hadd.elim
  · intro t' ht'
    obtain ⟨t, ht, hlater⟩ | hadd := horigin.tokens t' ht'
    · obtain ⟨t₀, ht₀, h₀⟩ | ⟨value, c, n, hred, hg, hd, hid, hnew⟩ | ⟨r, hrot, hd, hne, hold⟩ :=
        h.tokens t ht
      · exact .inl ⟨t₀, ht₀, h₀.trans hlater⟩
      · refine .inr (.inl ⟨value, c, n, hred, familyFor_of_evolves hev hg, ?_⟩)
        rw [hlater.1]
        exact ⟨hd, hid, hnew⟩
      · refine .inr (.inr ⟨r, hrot, ?_⟩)
        rw [hlater.1]
        exact ⟨hd, hne, hev.hasToken hold⟩
    · cases op with
      | insertFamily n =>
        obtain ⟨rfl, hnew⟩ := hadd
        obtain ⟨value, c, hred, hg⟩ := hop
        refine .inr (.inl ⟨value, c, n, hred, familyFor_of_evolves hev hg, rfl, rfl, fun f₀ hf₀ => ?_⟩)
        obtain ⟨f, hf, hid⟩ := exists_family_of_evolves h₀ hf₀
        exact hid ▸ hnew f hf
      | rotate r =>
        obtain ⟨hne, family, -, rfl, hold⟩ := hadd
        exact .inr (.inr ⟨r, hop, rfl, hne, hev.hasToken hold⟩)
      | _ => exact hadd.elim

/-- **What a call adds**, and what it keeps: wherever it passes, the database has evolved, keeps its
integrity, and every row it has more comes from the call. -/
theorem call_additions {call : OAuthCall} {s' : AuthDb} (hs : Integrity O.store.platform s)
    {trace : List (Entry Sql SqlError)}
    (h : Visits authBackend StorageFault ((call.program O env).run.run m) s trace s') :
    Evolves s s' ∧ Integrity O.store.platform s' ∧ Additions O env m call s s' := by
  exact wp_invariant (C := callSetting O env m call)
    (I := fun db => Evolves s db ∧ Integrity O.store.platform db ∧ Additions O env m call s db)
    (fun _ _ => rfl)
    (fun hi hop hans => ⟨hi.1.trans (answer_evolves hans), integrity_answer hi.2.1 hop.1 hans,
      additions_answer hi.1 hi.2.2 hop.2 hans⟩)
    (call_spec call) ⟨.refl s, hs, additions_refl⟩ h

end

end BegetBridge.Auth
