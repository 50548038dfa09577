import BegetBridge.Auth.OAuthMemory
import BegetBridge.Auth.OAuthRuns

/-!
# Where access tokens come from

Along every run, each entry in the memory of the process and each family and refresh token in the
database goes back to events of the history: a transaction begun for a registered client, its
approval with the owner's secret, the redemption of its code, and a chain of refreshes.

## Main definitions

* `Registered`, `BegunAt`, `ApprovedAt`, `Lineage`, `Carries`: the stages, as events of a history
* `MemoryOrigin`, `FamilyOrigin`: the invariants

## Main results

* `run_origin`: the invariants hold along every run
-/

namespace BegetBridge.Auth

open Relational Interleaving Core

/-! ## Stages -/

/-- A document that the client published lists the redirect URI. -/
def DocumentLists (O : OAuthSpike) (h : History) (clientId uri : String) : Prop :=
  ∃ j n fetched env uris, MadeAt h j (.registryAnswers n fetched) env ∧
    O.registry.checkResponse clientId fetched = .ok uris ∧ some uri ∈ uris

/-- The client with this redirect URI is known at place `i`: it is the registered one, or it is
allowlisted and its document was fetched before. -/
inductive Registered (O : OAuthSpike) (h : History) (i : Nat) (clientId uri : String) : Prop
  | dcr {e : Event} {w : World} (hx : h[i]? = some (e, w)) (hid : clientId = w.memory.dcrClientId)
      (huri : uri = defaultChatGptRedirectUri)
  | document (hallowed : clientId ∈ O.registry.allowedClientIds)
      (hdoc : DocumentLists O (h.take i) clientId uri)

/-- The call at place `i` answers with the page of an authorization begun with `params`: it is the
`beginAuthorization` itself, or the resumption of one that the process has suspended since it
started. -/
inductive BegunBy (h : History) (i : Nat) (env : Env) (params : Params) (page : TransactionPage) : Prop
  | here {trace : List (Entry Sql SqlError)} {w : World}
      (hx : h[i]? = some (.call (.beginAuthorization params) env (.ok (.page page)) trace, w))
  | resumed {n j : Nat} {trace trace' : List (Entry Sql SqlError)} {w w' : World} {env' : Env}
      (hx : h[i]? = some (.call (.resume n) env (.ok (.page page)) trace, w)) (hj : j < i)
      (hsuspended : h[j]? =
        some (.call (.beginAuthorization params) env' (.ok (.suspended n)) trace', w'))
      (hlives : ∀ k x, j < k → k < i → h[k]? = some x → x.1.Lives)

/-- Transaction `t` was begun at place `i`, for a registered client and redirect URI. -/
structure BegunAt (O : OAuthSpike) (h : History) (i : Nat) (env : Env) (t : Transaction) : Prop where
  begun : ∃ params page, BegunBy h i env params page ∧ page.id = env.draws.transactionId ∧
    page.scopes = t.scopes ∧ params.get "client_id" = some t.clientId ∧
    params.get "redirect_uri" = some t.redirectUri ∧
    params.get "code_challenge" = some t.codeChallenge ∧
    parseScope (params.get "scope") O.scopes = .ok t.scopes
  registered : Registered O h i t.clientId t.redirectUri
  resource : t.resource = O.resource
  client_ne : t.clientId ≠ ""
  resource_ne : t.resource ≠ ""
  expires : t.expiresAt = env.clock 2 + O.transactionTtlMs

/-- Transaction `t`, begun at `i`, was approved at `j` with the owner's secret before its expiry,
when it was first presented. -/
structure ApprovedAt (O : OAuthSpike) (h : History) (t : Transaction) (i : Nat) (eᵢ : Env) (j : Nat)
    (eⱼ : Env) : Prop where
  begun : BegunAt O h i eᵢ t
  after : i < j
  first : ∀ k call env, i < k → k < j → MadeAt h k call env →
    ¬call.PresentsTransaction eᵢ.draws.transactionId
  approved : ∃ id secret, MadeAt h j (.approve id secret) eⱼ ∧
    id.getD "" = eᵢ.draws.transactionId ∧ secret.getD "" = O.approvalSecret
  in_time : eⱼ.clock 0 < t.expiresAt

/-- A transaction with the places at which it is begun, approved and redeemed, and what the
environment gave the three calls. -/
structure Flow where
  transaction : Transaction
  begun : Nat
  beginEnv : Env
  approved : Nat
  approveEnv : Env
  redeemed : Nat
  redeemEnv : Env

/-- The flow is in the history: when its code was first presented, it was with the client, redirect
URI and resource of the transaction and a verifier of its challenge. -/
structure Lineage (O : OAuthSpike) (h : History) (φ : Flow) : Prop where
  approved : ApprovedAt O h φ.transaction φ.begun φ.beginEnv φ.approved φ.approveEnv
  after : φ.approved < φ.redeemed
  first : ∀ k call env, φ.approved < k → k < φ.redeemed → MadeAt h k call env →
    ¬call.PresentsCode φ.approveEnv.draws.code
  redeemed : ∃ call params, MadeAt h φ.redeemed call φ.redeemEnv ∧
    call.PresentsCode φ.approveEnv.draws.code ∧ call.Exchanges "authorization_code" params ∧
    O.PresentedWith params φ.transaction

/-- The call at `l` is the exchange at `k`, or refreshes what such a call was to issue. -/
inductive Carries (h : History) (k : Nat) : Nat → Prop
  | root : Carries h k k
  | next {l₀ l : Nat} {call₀ call : OAuthCall} {env₀ env : Env} (hc : Carries h k l₀)
      (h₀ : MadeAt h l₀ call₀ env₀) (hl : MadeAt h l call env)
      (hp : call.PresentsRefresh env₀.draws.refreshToken) : Carries h k l

/-! ## Longer histories -/

section Append

variable {O : OAuthSpike} {h h' : History} {i j k l : Nat} {t : Transaction} {eᵢ eⱼ env : Env}
  {φ : Flow}

theorem DocumentLists.append {clientId uri : String} (hd : DocumentLists O h clientId uri) :
    DocumentLists O (h ++ h') clientId uri := by
  obtain ⟨j, n, fetched, env, uris, hj, hdoc, hmem⟩ := hd
  exact ⟨j, n, fetched, env, uris, hj.append, hdoc, hmem⟩

theorem BegunBy.lt {params : Params} {page : TransactionPage} (hb : BegunBy h i env params page) :
    i < h.length := by
  cases hb with
  | here hx => exact (List.getElem?_eq_some_iff.mp hx).1
  | resumed hx => exact (List.getElem?_eq_some_iff.mp hx).1

theorem BegunBy.append {params : Params} {page : TransactionPage} (hb : BegunBy h i env params page) :
    BegunBy (h ++ h') i env params page := by
  have hlt := hb.lt
  cases hb with
  | here hx => exact .here (getElem?_append_some hx)
  | resumed hx hj hs hlives =>
    refine .resumed (getElem?_append_some hx) hj (getElem?_append_some hs) fun k x hjk hki hk => ?_
    rw [List.getElem?_append_left (hki.trans hlt)] at hk
    exact hlives k x hjk hki hk

theorem BegunBy.made {params : Params} {page : TransactionPage} (hb : BegunBy h i env params page) :
    ∃ call, MadeAt h i call env := by
  cases hb with
  | here hx => exact ⟨_, _, _, hx, rfl⟩
  | resumed hx => exact ⟨_, _, _, hx, rfl⟩

theorem BegunAt.append (hb : BegunAt O h i env t) : BegunAt O (h ++ h') i env t := by
  obtain ⟨params, page, hby, hid, hscopes, hclient, hredirect, hchallenge, hparse⟩ := hb.begun
  refine ⟨⟨params, page, hby.append, hid, hscopes, hclient, hredirect, hchallenge, hparse⟩, ?_,
    hb.resource, hb.client_ne, hb.resource_ne, hb.expires⟩
  cases hb.registered with
  | dcr hx hid huri => exact .dcr (getElem?_append_some hx) hid huri
  | document hallowed hdoc =>
    refine .document hallowed ?_
    rwa [List.take_append_of_le_length hby.lt.le]

theorem BegunAt.made (hb : BegunAt O h i env t) : ∃ call, MadeAt h i call env := by
  obtain ⟨params, page, hby, -⟩ := hb.begun
  exact hby.made

theorem ApprovedAt.append (ha : ApprovedAt O h t i eᵢ j eⱼ) :
    ApprovedAt O (h ++ h') t i eᵢ j eⱼ := by
  obtain ⟨id, secret, hm, hid, hsecret⟩ := ha.approved
  exact ⟨ha.begun.append, ha.after, fun k call env hik hkj hk =>
    ha.first k call env hik hkj (hk.of_append (hkj.trans hm.lt)),
    ⟨id, secret, hm.append, hid, hsecret⟩, ha.in_time⟩

theorem Lineage.append (hl : Lineage O h φ) : Lineage O (h ++ h') φ := by
  obtain ⟨call, params, hm, hrest⟩ := hl.redeemed
  exact ⟨hl.approved.append, hl.after, fun k call env hik hkj hk =>
    hl.first k call env hik hkj (hk.of_append (hkj.trans hm.lt)), call, params, hm.append, hrest⟩

theorem Carries.append (hc : Carries h k l) : Carries (h ++ h') k l := by
  induction hc with
  | root => exact .root
  | next _ h₀ hl hp ih => exact .next ih h₀.append hl.append hp

end Append

/-! ## The invariants -/

/-- Where the entries of the memory come from. What a call uses up has not been presented since. -/
structure MemoryOrigin (O : OAuthSpike) (h : History) (w : World) : Prop where
  cache : ∀ clientId metadata, w.memory.cache.lookup clientId = some metadata →
    ∀ uri, some uri ∈ metadata.redirectUris → DocumentLists O h clientId uri
  awaiting : ∀ n a, w.memory.awaiting.lookup n = some a →
    ∃ (b : Nat) (params : Params) (env : Env) (trace : List (Entry Sql SqlError)) (w' : World),
    h[b]? = some (.call (.beginAuthorization params) env (.ok (.suspended n)) trace, w') ∧
    (∀ k x, b < k → h[k]? = some x → x.1.Lives) ∧ O.BegunWith params a ∧
    a.clientId ∈ O.registry.allowedClientIds ∧
    (a.verdict = some (.ok ()) → DocumentLists O h a.clientId a.redirectUri)
  transactions : ∀ key t, w.memory.transactions.lookup key = some t → ∃ i eᵢ,
    BegunAt O h i eᵢ t ∧ key = O.digest eᵢ.draws.transactionId ∧
    ∀ j call env, i < j → MadeAt h j call env → ¬call.PresentsTransaction eᵢ.draws.transactionId
  codes : ∀ key c, w.memory.codes.lookup key = some c → ∃ t i eᵢ j eⱼ,
    ApprovedAt O h t i eᵢ j eⱼ ∧ key = O.digest eⱼ.draws.code ∧
    c.toTransaction = { t with expiresAt := c.expiresAt } ∧
    ∀ k call env, j < k → MadeAt h k call env → ¬call.PresentsCode eⱼ.draws.code
  tokens : ∀ key record, w.memory.tokens.lookup key = some record → ∃ φ l call eₗ,
    Lineage O h φ ∧ Carries h φ.redeemed l ∧ MadeAt h l call eₗ ∧
    key = O.digest eₗ.draws.accessToken ∧ (∀ s, s ∈ record.scopes ↔ s ∈ φ.transaction.scopes) ∧
    (O.ownerId.isSome → ∃ d id, hashRefreshToken O.store.platform eₗ.draws.refreshToken = .ok d ∧
      w.db.HasToken d id ∧ record.tokenFamilyId = some id)

/-- Where a family and its refresh tokens come from. -/
structure FamilyOrigin (O : OAuthSpike) (h : History) (db : AuthDb) (f : FamilyRow) (φ : Flow) :
    Prop where
  durable : O.ownerId.isSome
  lineage : Lineage O h φ
  client : f.clientId = φ.transaction.clientId
  resource : f.resource = φ.transaction.resource
  grant : ∃ g ∈ db.grants, g.id = f.grantId ∧ sameStrings g.scopes φ.transaction.scopes = true
  tokens : ∀ d, db.HasToken d f.id → ∃ l call eₗ, Carries h φ.redeemed l ∧ MadeAt h l call eₗ ∧
    hashRefreshToken O.store.platform eₗ.draws.refreshToken = .ok d

/-- The invariant: every entry and every family has an origin. -/
structure RunOrigin (O : OAuthSpike) (h : History) (w : World) : Prop where
  integrity : Integrity O.store.platform w.db
  memory : MemoryOrigin O h w
  families : ∀ f ∈ w.db.families, ∃ φ, FamilyOrigin O h w.db f φ

/-! ## Every event keeps them -/

section

variable {O : OAuthSpike} (hP : O.store.platform.Lawful) {h : History} {w w' : World} {e : Event}
  {call : OAuthCall} {env : Env}

theorem hasToken_back {db : AuthDb} {t : RefreshRow} (ht : t ∈ db.tokens) {t' : RefreshRow}
    (ht' : t.Later t') : db.HasToken t'.digest t'.familyId := by
  rw [ht'.1]
  exact ⟨t, ht, rfl, rfl⟩

include hP

/-- A code that is redeemed goes back to an approved transaction. -/
theorem redeems_lineage (w' : World) (ho : RunOrigin O h w) (hm : e.made = some (call, env)) {value : String}
    {c : CodeRecord} (hr : Redeems O env w.memory call value c) :
    ∃ φ, Lineage O (h ++ [(e, w')]) φ ∧ φ.redeemed = h.length ∧
      c.toTransaction = { φ.transaction with expiresAt := c.expiresAt } := by
  obtain ⟨t, i, eᵢ, j, eⱼ, happ, hkey, hc, hsince⟩ :=
    ho.memory.codes _ c (swept_codes.mp hr.found).1
  have hvalue : value = eⱼ.draws.code := hP.hex_injective hkey
  obtain ⟨id, secret, hj, -⟩ := happ.approved
  obtain ⟨params, hex, hpres⟩ := hr.checked
  refine ⟨⟨t, i, eᵢ, j, eⱼ, h.length, env⟩, ⟨happ.append, hj.lt,
    fun k call' env' hjk hk hmade => hsince k call' env' hjk (hmade.of_append hk), call, params,
    madeAt_last hm, hvalue ▸ hr.presents, hex, ?_⟩, rfl, hc⟩
  rw [hc] at hpres
  exact ⟨hpres.client, hpres.redirect, hpres.resource, hpres.verifier⟩

/-- A refreshed token carries the lineage of the token presented. -/
theorem carries_next {k : Nat} {r : Rotation} (hm : e.made = some (call, env))
    (hr : Rotates O env call r)
    (hold : ∃ l₀ call₀ e₀, Carries (h ++ [(e, w')]) k l₀ ∧ MadeAt (h ++ [(e, w')]) l₀ call₀ e₀ ∧
      hashRefreshToken O.store.platform e₀.draws.refreshToken = .ok r.digest) :
    Carries (h ++ [(e, w')]) k h.length := by
  obtain ⟨l₀, call₀, e₀, hcar, hmade, hash⟩ := hold
  obtain ⟨token, hpres, hdigest⟩ := hr.presents
  obtain rfl := hashRefreshToken_injective hP hdigest hash
  exact hcar.next hmade (madeAt_last hm) hpres

omit hP in
/-- A family keeps its origin while its tokens carry it. -/
theorem FamilyOrigin.later (hev : Evolves w.db w'.db) {f f' : FamilyRow} {φ : Flow}
    (ho : FamilyOrigin O h w.db f φ) (hlater : f.Later f')
    (htokens : ∀ d, w'.db.HasToken d f'.id → w.db.HasToken d f.id ∨ ∃ l call eₗ,
      Carries (h ++ [(e, w')]) φ.redeemed l ∧ MadeAt (h ++ [(e, w')]) l call eₗ ∧
      hashRefreshToken O.store.platform eₗ.draws.refreshToken = .ok d) :
    FamilyOrigin O (h ++ [(e, w')]) w'.db f' φ where
  durable := ho.durable
  lineage := ho.lineage.append
  client := by rw [hlater.kept, ← ho.client]
  resource := by rw [hlater.kept, ← ho.resource]
  grant := by
    obtain ⟨g, hg, hgid, hscopes⟩ := ho.grant
    obtain ⟨g', hg', hgl⟩ := hev.grants g hg
    refine ⟨g', hg', ?_⟩
    rw [hgl.1, hlater.kept]
    exact ⟨hgid, hscopes⟩
  tokens d hd := by
    obtain hold | hnew := htokens d hd
    · obtain ⟨l, call, eₗ, hcar, hmade, hash⟩ := ho.tokens d hold
      exact ⟨l, call, eₗ, hcar.append, hmade.append, hash⟩
    · exact hnew

/-- A family that was there keeps its origin; its new tokens carry it on. -/
theorem familyOrigin_old (hm : e.made = some (call, env)) (hev : Evolves w.db w'.db)
    (ha : Additions O env w.memory call w.db w'.db) {f f' : FamilyRow} {φ : Flow}
    (hf : f ∈ w.db.families) (hlater : f.Later f') (ho : FamilyOrigin O h w.db f φ) :
    FamilyOrigin O (h ++ [(e, w')]) w'.db f' φ := by
  have hid : f'.id = f.id := by rw [hlater.kept]
  refine ho.later hev hlater ?_
  rw [hid]
  rintro d ⟨t', ht', rfl, htid⟩
  obtain ⟨t, ht, htl⟩ | ⟨_, _, n, _, _, _, hnid, hnew⟩ | ⟨r, hrot, hd, hne, t₀, ht₀, hd₀, hid₀⟩ :=
    ha.tokens t' ht'
  · exact .inl (htid ▸ hasToken_back ht htl)
  · exact absurd (htid.symm.trans hnid) (hnew f hf)
  · -- the token presented was there before the call
    have hold : w.db.HasToken r.digest f.id := by
      obtain ⟨t, ht, htl⟩ | ⟨_, _, n, _, _, _, hnid, hnew⟩ | ⟨r', hrot', hd', -⟩ := ha.tokens t₀ ht₀
      · have := hasToken_back ht htl
        rwa [hd₀, hid₀, htid] at this
      · exact absurd (htid.symm.trans (hid₀.symm.trans hnid)) (hnew f hf)
      · have heq := Except.ok.inj (hrot.next.symm.trans hrot'.next)
        exact absurd (hd₀.symm.trans (hd'.trans heq.symm)) hne
    obtain ⟨l, call₀, e₀, hcar, hmade, hash⟩ := ho.tokens _ hold
    exact .inr ⟨h.length, call, env, carries_next hP hm hrot
      ⟨l, call₀, e₀, hcar.append, hmade.append, hash⟩, madeAt_last hm, hd ▸ hrot.next⟩

/-- A family that was not there comes from the redeemed code. -/
theorem familyOrigin_new (ho : RunOrigin O h w) (hm : e.made = some (call, env))
    (ha : Additions O env w.memory call w.db w'.db) {f' : FamilyRow}
    (hnew : ∀ f ∈ w.db.families, f.id ≠ f'.id) {value : String} {c : CodeRecord} {n : NewFamily}
    (hr : Redeems O env w.memory call value c) (hg : ∃ g ∈ w'.db.grants, FamilyFor O env c g n)
    (hlater : n.row.Later f') : ∃ φ, FamilyOrigin O (h ++ [(e, w')]) w'.db f' φ := by
  obtain ⟨φ, hlin, hk, hc⟩ := redeems_lineage hP w' ho hm hr
  obtain ⟨g, hg, hfor⟩ := hg
  obtain ⟨ownerId, howner, hred⟩ := hfor.owner
  have hcclient : c.clientId = φ.transaction.clientId := (congrArg Transaction.clientId hc :)
  have hcresource : c.resource = φ.transaction.resource := (congrArg Transaction.resource hc :)
  have hcscopes : c.scopes = φ.transaction.scopes := (congrArg Transaction.scopes hc :)
  refine ⟨φ, howner ▸ rfl, hlin, ?_, ?_, ⟨g, hg, ?_, ?_⟩, ?_⟩
  · rw [hlater.kept, ← hcclient, ← hred.client, hfor.within.client]
  · rw [hlater.kept, ← hcresource, ← hred.resource, hfor.within.resource]
  · rw [hlater.kept, hfor.within.id]
  · rw [← hcscopes]
    exact hred.scopes
  · rintro d ⟨t', ht', rfl, htid⟩
    obtain ⟨t, ht, htl⟩ | ⟨_, _, n', _, ⟨g', _, hfor'⟩, hd, _⟩ | ⟨r, hrot, _⟩ := ha.tokens t' ht'
    · obtain ⟨f, hf, hfid, -⟩ := ho.integrity.token_family t ht
      have : t'.familyId = t.familyId := by rw [htl.1]
      exact absurd (hfid.trans (this.symm.trans htid)) (hnew f hf)
    · rw [hk]
      exact ⟨h.length, call, env, .root, madeAt_last hm, hd ▸ hfor'.digest⟩
    · obtain ⟨token, htoken, -⟩ := hrot.presents
      exact (hr.presents.not_refresh htoken).elim

theorem families_step (ho : RunOrigin O h w) (hs : OAuthStep O w e w') :
    ∀ f ∈ w'.db.families, ∃ φ, FamilyOrigin O (h ++ [(e, w')]) w'.db f φ := by
  have hev := step_evolves hs
  intro f' hf'
  obtain ⟨-, ⟨call, env, hm, ha⟩ | ⟨-, hf, ht⟩⟩ := step_additions ho.integrity hs
  · by_cases hold : ∃ f ∈ w.db.families, f'.id = f.id
    · obtain ⟨f, hf, hid⟩ := hold
      obtain ⟨φ, hφ⟩ := ho.families f hf
      exact ⟨φ, familyOrigin_old hP hm hev ha hf (hev.family_of_id hf hf' hid) hφ⟩
    · have hnew : ∀ f ∈ w.db.families, f.id ≠ f'.id := fun f hf hid => hold ⟨f, hf, hid.symm⟩
      obtain ⟨f, hf, hlater⟩ | ⟨value, c, n, hr, hg, hlater⟩ := ha.families f' hf'
      · exact absurd (by rw [hlater.kept]) (hnew f hf)
      · exact familyOrigin_new hP ho hm ha hnew hr hg hlater
  · obtain ⟨f, hf, hlater⟩ := hf f' hf'
    obtain ⟨φ, hφ⟩ := ho.families f hf
    refine ⟨φ, hφ.later hev hlater fun d ⟨t', ht', hd, htid⟩ => ?_⟩
    obtain ⟨t, hmem, htl⟩ := ht t' ht'
    have hold := hasToken_back hmem htl
    rw [hd, htid, hlater.kept] at hold
    exact .inl hold

/-- An access token that a call issues has an origin. -/
theorem tokens_issue (ho : RunOrigin O h w) (hm : e.made = some (call, env))
    (hfam : ∀ f ∈ w'.db.families, ∃ φ, FamilyOrigin O (h ++ [(e, w')]) w'.db f φ)
    {record : TokenRecord} (hi : IssuesAs O env w.memory call w.db w'.db record) :
    ∃ φ, Lineage O (h ++ [(e, w')]) φ ∧ Carries (h ++ [(e, w')]) φ.redeemed h.length ∧
      (∀ s, s ∈ record.scopes ↔ s ∈ φ.transaction.scopes) ∧
      (O.ownerId.isSome → ∃ d id, hashRefreshToken O.store.platform env.draws.refreshToken = .ok d ∧
        w'.db.HasToken d id ∧ record.tokenFamilyId = some id) := by
  cases hi with
  | @redeemed value c grant family expiresAt hr hbacked =>
    obtain ⟨φ, hlin, hk, hc⟩ := redeems_lineage hP w' ho hm hr
    have hcscopes : c.scopes = φ.transaction.scopes := (congrArg Transaction.scopes hc :)
    refine ⟨φ, hlin, hk ▸ .root, fun s => by rw [← hcscopes]; rfl, fun howner => ?_⟩
    obtain ⟨hnone, -⟩ | ⟨_, g, f, s₁, _, rfl, rfl, _, _, _, _, hopen⟩ := hbacked
    · rw [hnone] at howner
      cases howner
    · obtain ⟨d, hash, htoken⟩ := hopen.token
      exact ⟨d, f.id, hash, htoken, rfl⟩
  | @refreshed rot f g s₁ s₂ expiresAt hrot h₁ hrotate h₂ hg =>
    have hacc := rotate_eq_rotated hrotate
    have h₁₂ : Evolves s₁ w'.db := (rotate_evolves hrotate).trans h₂
    obtain ⟨f₁, hf₁, hid₁, -, hgrant₁⟩ := hacc.family
    obtain ⟨f', hf', hlater⟩ := h₁₂.families f₁ hf₁
    have hid' : f'.id = f.id := by rw [hlater.kept, hid₁]
    obtain ⟨φ, hφ⟩ := hfam f' hf'
    obtain ⟨t₁, ht₁, hd₁, htid₁, -⟩ := hacc.presented
    have hpres : w'.db.HasToken rot.digest f'.id := hid' ▸ h₁₂.hasToken ⟨t₁, ht₁, hd₁, htid₁⟩
    refine ⟨φ, hφ.lineage, carries_next hP hm hrot (hφ.tokens _ hpres), fun s => ?_, fun _ => ?_⟩
    · obtain ⟨g', hg', hgid, hscopes⟩ := hφ.grant
      have hgid' : g'.id = g.id := by rw [hgid, hlater.kept, hgrant₁]
      obtain rfl := grant_eq_of_id hg' hg hgid'
      exact (sameStrings_iff.mp hscopes).mem_iff
    · exact ⟨rot.nextDigest, f.id, hrot.next, h₂.hasToken hacc.next, rfl⟩

omit hP in
/-- A transaction that a call begins has an origin. -/
theorem begunAt_call (ho : RunOrigin O h w) {reply : Except Thrown OAuthReply}
    {trace : List (Entry Sql SqlError)} {a : Awaiting} {scopes : List String}
    (hid : w'.memory.dcrClientId = w.memory.dcrClientId) (hb : BeginsAs O w.memory call a)
    (hscopes : parseScope a.scope O.scopes = .ok scopes)
    (hreply : reply = .ok (.page (O.page env a scopes))) :
    BegunAt O (h ++ [(.call call env reply trace, w')]) h.length env (O.transaction env a scopes) := by
  subst hreply
  have hlast : ∀ x : Event × World, (h ++ [x])[h.length]? = some x :=
    fun x => List.getElem?_concat_length
  cases hb with
  | registered hbegun hclient hredirect =>
    refine ⟨⟨_, _, .here (hlast _), rfl, rfl, hbegun.client, hbegun.redirect, hbegun.challenge, ?_⟩,
      .dcr (hlast _) (hclient.trans hid.symm) hredirect, hbegun.resource, hbegun.client_ne,
      hbegun.resource_ne, rfl⟩
    rw [← hbegun.scope]
    exact hscopes
  | resumed ha hverdict =>
    obtain ⟨b, params, env', trace', w'', hsuspended, hlives, hbegun, hallowed, hdoc⟩ :=
      ho.memory.awaiting _ _ ha
    have hlt := (List.getElem?_eq_some_iff.mp hsuspended).1
    refine ⟨⟨params, _, .resumed (hlast _) hlt (getElem?_append_some hsuspended) ?_, rfl, rfl,
      hbegun.client, hbegun.redirect, hbegun.challenge, ?_⟩, .document hallowed ?_, hbegun.resource,
      hbegun.client_ne, hbegun.resource_ne, rfl⟩
    · intro k x hbk hk hx
      rw [List.getElem?_append_left hk] at hx
      exact hlives k x hbk hx
    · rw [← hbegun.scope]
      exact hscopes
    · rw [List.take_left' rfl]
      exact hdoc hverdict

/-- A call keeps the origins of the memory. -/
theorem memory_call (ho : RunOrigin O h w) {reply : Except Thrown OAuthReply}
    {trace : List (Entry Sql SqlError)} (hev : Evolves w.db w'.db)
    (hfam : ∀ f ∈ w'.db.families, ∃ φ,
      FamilyOrigin O (h ++ [(.call call env reply trace, w')]) w'.db f φ)
    (hout : Outcome O env w.memory w.db w'.db call reply w'.memory) :
    MemoryOrigin O (h ++ [(.call call env reply trace, w')]) w' where
  cache clientId metadata hm uri huri := by
    obtain hold | ⟨n, fetched, rfl, hdoc⟩ := outcome_cache hout hm
    · exact (ho.memory.cache _ _ hold uri huri).append
    · exact ⟨h.length, n, fetched, env, _, madeAt_last rfl, hdoc, huri⟩
  awaiting n a ha := by
    obtain hold | ⟨params, rfl, rfl, hbegun, hallowed, hcached⟩ | ⟨fetched, a₀, v, rfl, ha₀, rfl, hv⟩ :=
      outcome_awaiting hout ha
    · obtain ⟨b, params, env', trace', w'', hb, hlives, hrest, hallowed, hdoc⟩ :=
        ho.memory.awaiting n a hold
      refine ⟨b, params, env', trace', w'', getElem?_append_some hb, fun k x hbk hx => ?_, hrest,
        hallowed, fun hv => (hdoc hv).append⟩
      obtain hx | ⟨-, rfl⟩ := getElem?_snoc_eq_some.mp hx
      · exact hlives k x hbk hx
      · trivial
    · refine ⟨h.length, params, env, trace, w', List.getElem?_concat_length, fun k x hk hx => ?_,
        hbegun, hallowed, fun hv => ?_⟩
      · obtain hx | ⟨-, rfl⟩ := getElem?_snoc_eq_some.mp hx
        · exact absurd (List.getElem?_eq_some_iff.mp hx).1 (by omega)
        · trivial
      · obtain ⟨metadata, hmeta, hlists⟩ := hcached _ hv
        exact (ho.memory.cache _ _ hmeta _ (listsRedirect_eq_ok.mp hlists.symm)).append
    · obtain ⟨b, params, env', trace', w'', hb, hlives, hrest, hallowed, -⟩ :=
        ho.memory.awaiting n a₀ ha₀
      refine ⟨b, params, env', trace', w'', getElem?_append_some hb, fun k x hbk hx => ?_,
        ⟨hrest.client, hrest.redirect, hrest.resource, hrest.challenge, hrest.scope, hrest.client_ne,
          hrest.resource_ne⟩, hallowed, fun hok => ?_⟩
      · obtain hx | ⟨-, rfl⟩ := getElem?_snoc_eq_some.mp hx
        · exact hlives k x hbk hx
        · trivial
      · obtain ⟨uris, hdoc, hmem⟩ := hv (Option.some.inj hok)
        exact ⟨h.length, n, fetched, env, uris, madeAt_last rfl, hdoc, hmem⟩
  transactions key t ht := by
    obtain ⟨hold, hunused⟩ | ⟨a, scopes, rfl, hb, hscopes, rfl, hreply⟩ := outcome_transactions hout ht
    · obtain ⟨i, eᵢ, hbegun, rfl, hsince⟩ := ho.memory.transactions key t hold
      refine ⟨i, eᵢ, hbegun.append, rfl, fun j call' env' hij hj hpres => ?_⟩
      obtain hj | ⟨-, hlast⟩ := madeAt_snoc.mp hj
      · exact hsince j call' env' hij hj hpres
      · obtain ⟨rfl, rfl⟩ := Prod.mk.inj (Option.some.inj hlast)
        exact hunused _ hpres rfl
    · refine ⟨h.length, env, begunAt_call ho (outcome_dcrClientId hout) hb hscopes hreply, rfl,
        fun j call' env' hj hm => ?_⟩
      have := hm.lt
      rw [List.length_append, List.length_singleton] at this
      omega
  codes key c hc := by
    obtain ⟨hold, hunused⟩ | ⟨t, grant, rfl, happ, rfl⟩ := outcome_codes hout hc
    · obtain ⟨t, i, eᵢ, j, eⱼ, happ, rfl, hrec, hsince⟩ := ho.memory.codes key c hold
      refine ⟨t, i, eᵢ, j, eⱼ, happ.append, rfl, hrec, fun k call' env' hjk hk hpres => ?_⟩
      obtain hk | ⟨-, hlast⟩ := madeAt_snoc.mp hk
      · exact hsince k call' env' hjk hk hpres
      · obtain ⟨rfl, rfl⟩ := Prod.mk.inj (Option.some.inj hlast)
        exact hunused _ hpres (draw_ne_empty eⱼ (Draws.code_mem _)) rfl
    · obtain ⟨⟨id, secret, rfl, hsecret, hfound⟩, htime⟩ := happ
      obtain ⟨i, eᵢ, hbegun, hkey, hsince⟩ := ho.memory.transactions _ t hfound
      obtain ⟨_, hi⟩ := hbegun.made
      refine ⟨t, i, eᵢ, h.length, env, ⟨hbegun.append, hi.lt, fun k call' env' hik hk hmade =>
        hsince k call' env' hik (hmade.of_append hk), ⟨id, secret, madeAt_last rfl,
        hP.hex_injective hkey, hsecret⟩, htime⟩, rfl, rfl, fun k call' env' hk hm => ?_⟩
      have := hm.lt
      rw [List.length_append, List.length_singleton] at this
      omega
  tokens key record hr := by
    obtain hold | ⟨rfl, hissue⟩ := outcome_tokens hout hr
    · obtain ⟨φ, l, call', eₗ, hlin, hcar, hmade, hkey, hscopes, hfamily⟩ := ho.memory.tokens key record hold
      refine ⟨φ, l, call', eₗ, hlin.append, hcar.append, hmade.append, hkey, hscopes, fun howner => ?_⟩
      obtain ⟨d, id, hash, htoken, hid⟩ := hfamily howner
      exact ⟨d, id, hash, hev.hasToken htoken, hid⟩
    · obtain ⟨φ, hlin, hcar, hscopes, hfamily⟩ := tokens_issue hP ho rfl hfam hissue
      exact ⟨φ, h.length, call, env, hlin, hcar, madeAt_last rfl, rfl, hscopes, hfamily⟩

omit hP in
/-- A new process has an empty memory. -/
theorem memory_initial {id : String} {db : AuthDb} : MemoryOrigin O h ⟨.initial id, db⟩ := by
  constructor <;> intro _ _ hx <;> cases hx

omit hP in
/-- What the owner does leaves the memory. -/
theorem memory_admin {call : StoreCall} {m : Memory} {db db' : AuthDb} (hm : MemoryOrigin O h ⟨m, db⟩)
    (hev : Evolves db db') : MemoryOrigin O (h ++ [(.admin call, ⟨m, db'⟩)]) ⟨m, db'⟩ where
  cache clientId metadata hc uri huri := (hm.cache _ _ hc uri huri).append
  awaiting n a ha := by
    obtain ⟨b, params, env', trace', w'', hb, hlives, hrest, hallowed, hdoc⟩ := hm.awaiting n a ha
    refine ⟨b, params, env', trace', w'', getElem?_append_some hb, fun k x hbk hx => ?_, hrest,
      hallowed, fun hv => (hdoc hv).append⟩
    obtain hx | ⟨-, rfl⟩ := getElem?_snoc_eq_some.mp hx
    · exact hlives k x hbk hx
    · trivial
  transactions key t ht := by
    obtain ⟨i, eᵢ, hbegun, hkey, hsince⟩ := hm.transactions key t ht
    refine ⟨i, eᵢ, hbegun.append, hkey, fun j call' env' hij hj => ?_⟩
    obtain hj | ⟨-, hlast⟩ := madeAt_snoc.mp hj
    · exact hsince j call' env' hij hj
    · cases hlast
  codes key c hc := by
    obtain ⟨t, i, eᵢ, j, eⱼ, happ, hkey, hrec, hsince⟩ := hm.codes key c hc
    refine ⟨t, i, eᵢ, j, eⱼ, happ.append, hkey, hrec, fun k call' env' hjk hk => ?_⟩
    obtain hk | ⟨-, hlast⟩ := madeAt_snoc.mp hk
    · exact hsince k call' env' hjk hk
    · cases hlast
  tokens key record hr := by
    obtain ⟨φ, l, call', eₗ, hlin, hcar, hmade, hkey, hscopes, hfamily⟩ := hm.tokens key record hr
    refine ⟨φ, l, call', eₗ, hlin.append, hcar.append, hmade.append, hkey, hscopes, fun howner => ?_⟩
    obtain ⟨d, id, hash, htoken, hid⟩ := hfamily howner
    exact ⟨d, id, hash, hev.hasToken htoken, hid⟩

theorem origin_step (ho : RunOrigin O h w) (hs : OAuthStep O w e w') :
    RunOrigin O (h ++ [(e, w')]) w' := by
  have hfam := families_step hP ho hs
  have hev := step_evolves hs
  refine ⟨(step_additions ho.integrity hs).1, ?_, hfam⟩
  cases hs with
  | call hrun => exact memory_call hP ho hev hfam (call_outcome hrun)
  | crash => exact memory_initial
  | restart => exact memory_initial
  | admin => exact memory_admin ho.memory hev

/-- **Along every run, all that the process knows has an origin.** -/
theorem run_origin (hr : OAuthRun O h w) : RunOrigin O h w := by
  obtain ⟨id, hp⟩ := hr
  exact hp.history (I := RunOrigin O)
    ⟨integrity_empty, memory_initial, fun f hf => absurd hf (by exact List.not_mem_nil)⟩
    fun _ ho hs => origin_step hP ho hs

end

end BegetBridge.Auth
