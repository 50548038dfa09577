import BegetBridge.Auth.OAuthEffects

/-!
# What a call leaves in memory

An outcome seen through one map at a time: an entry that the map has after a call was there
before, and was not used up by the call, or the call put it there. And an outcome seen through its
reply: what a call answers with, it has found.

## Main results

* `outcome_transactions`, `outcome_codes`, `outcome_tokens`, `outcome_awaiting`, `outcome_cache`:
  the entries of a map after a call
* `outcome_authorized`, `outcome_approve`, `outcome_redeems`: what a reply stands for
-/

namespace BegetBridge.Auth

open Relational Interleaving Core

variable {O : OAuthSpike} {env : Env} {m m' : Memory} {s s' : AuthDb} {call : OAuthCall}
  {r : Except Thrown OAuthReply}

section Sweep

theorem swept_transactions {key : String} {t : Transaction} :
    (swept env m).transactions.lookup key = some t ↔
      m.transactions.lookup key = some t ∧ env.clock 0 < t.expiresAt :=
  KeyedMap.lookup_retain.trans (and_congr_right fun _ => decide_eq_true_iff)

theorem swept_codes {key : String} {c : CodeRecord} :
    (swept env m).codes.lookup key = some c ↔
      m.codes.lookup key = some c ∧ env.clock 0 < c.expiresAt :=
  KeyedMap.lookup_retain.trans (and_congr_right fun _ => decide_eq_true_iff)

theorem swept_tokens {key : String} {t : TokenRecord} :
    (swept env m).tokens.lookup key = some t ↔
      m.tokens.lookup key = some t ∧ env.clock 0 < t.expiresAt :=
  KeyedMap.lookup_retain.trans (and_congr_right fun _ => decide_eq_true_iff)

end Sweep

/-! ## The maps -/

theorem outcome_dcrClientId (h : Outcome O env m s s' call r m') :
    m'.dcrClientId = m.dcrClientId := by
  cases h <;> rfl

/-- A begun authorization with what the process knows of its client. -/
inductive BeginsAs (O : OAuthSpike) (m : Memory) : OAuthCall → Awaiting → Prop
  | registered {params : Params} {a : Awaiting} (hbegun : O.BegunWith params a)
      (hclient : a.clientId = m.dcrClientId) (hredirect : a.redirectUri = defaultChatGptRedirectUri) :
    BeginsAs O m (.beginAuthorization params) a
  | resumed {n : Nat} {a : Awaiting} (ha : m.awaiting.lookup n = some a)
      (hverdict : a.verdict = some (.ok ())) : BeginsAs O m (.resume n) a

/-- A transaction after a call: an old one that the call did not present, or the one begun. -/
theorem outcome_transactions (h : Outcome O env m s s' call r m') {key : String} {t : Transaction}
    (ht : m'.transactions.lookup key = some t) :
    (m.transactions.lookup key = some t ∧ ∀ id, call.PresentsTransaction id → O.digest id ≠ key) ∨
      ∃ a scopes, key = O.digest env.draws.transactionId ∧ BeginsAs O m call a ∧
        parseScope a.scope O.scopes = .ok scopes ∧ t = O.transaction env a scopes ∧
        r = .ok (.page (O.page env a scopes)) := by
  have hswept : ∀ {key t}, (swept env m).transactions.lookup key = some t →
      m.transactions.lookup key = some t := fun h => (swept_transactions.mp h).1
  cases h with
  | begun hbegun hclient hredirect hscopes =>
    obtain ⟨rfl, rfl⟩ | ⟨-, hold⟩ := KeyedMap.lookup_insert_iff.mp ht
    · exact .inr ⟨_, _, rfl, .registered hbegun hclient hredirect, hscopes, rfl, rfl⟩
    · exact .inl ⟨hswept hold, by rintro id ⟨_, _, he, _⟩; cases he⟩
  | resumed ha hverdict hscopes =>
    obtain ⟨rfl, rfl⟩ | ⟨-, hold⟩ := KeyedMap.lookup_insert_iff.mp ht
    · exact .inr ⟨_, _, rfl, .resumed ha hverdict, hscopes, rfl, rfl⟩
    · exact .inl ⟨hold, by rintro id ⟨_, _, he, _⟩; cases he⟩
  | noTransaction e hnone =>
    refine .inl ⟨hswept ht, ?_⟩
    rintro _ ⟨_, _, he, rfl⟩ rfl
    obtain ⟨rfl, -⟩ := OAuthCall.approve.inj he
    rw [hnone] at ht
    cases ht
  | notApproved id secret e =>
    obtain ⟨hne, hold⟩ := KeyedMap.lookup_erase_iff.mp ht
    refine .inl ⟨hswept hold, ?_⟩
    rintro _ ⟨_, _, he, rfl⟩ rfl
    obtain ⟨rfl, -⟩ := OAuthCall.approve.inj he
    exact hne rfl
  | approved _ _ _ _ =>
    obtain ⟨hne, hold⟩ := KeyedMap.lookup_erase_iff.mp ht
    refine .inl ⟨hswept hold, ?_⟩
    rintro _ ⟨_, _, he, rfl⟩ rfl
    obtain ⟨rfl, -⟩ := OAuthCall.approve.inj he
    exact hne rfl
  | _ =>
    exact .inl ⟨by first | exact ht | exact hswept ht, by rintro id ⟨_, _, he, _⟩; cases he⟩

/-- An approval of the transaction under which a code is recorded. -/
structure ApprovesAs (O : OAuthSpike) (env : Env) (m : Memory) (call : OAuthCall) (t : Transaction) :
    Prop where
  call : ∃ id secret, call = .approve id secret ∧ secret.getD "" = O.approvalSecret ∧
    m.transactions.lookup (O.digest (id.getD "")) = some t
  in_time : env.clock 0 < t.expiresAt

/-- A code after a call: an old one that the call did not present, or the one approved. -/
theorem outcome_codes (h : Outcome O env m s s' call r m') {key : String} {c : CodeRecord}
    (hc : m'.codes.lookup key = some c) :
    (m.codes.lookup key = some c ∧ ∀ v, call.PresentsCode v → v ≠ "" → O.digest v ≠ key) ∨
      ∃ t grant, key = O.digest env.draws.code ∧ ApprovesAs O env m call t ∧
        c = O.codeRecord env t grant := by
  have hswept : ∀ {key c}, (swept env m).codes.lookup key = some c →
      m.codes.lookup key = some c := fun h => (swept_codes.mp h).1
  cases h with
  | approved ht hsecret _ _ =>
    obtain ⟨rfl, rfl⟩ | ⟨-, hold⟩ := KeyedMap.lookup_insert_iff.mp hc
    · obtain ⟨hfound, hlive⟩ := swept_transactions.mp ht
      exact .inr ⟨_, _, rfl, ⟨⟨_, _, rfl, hsecret, hfound⟩, hlive⟩, rfl⟩
    · exact .inl ⟨hswept hold, by rintro v ⟨_, ⟨_, he, _⟩, _⟩; cases he⟩
  | notExchanged e hnone =>
    refine .inl ⟨hswept hc, ?_⟩
    rintro v hv hne rfl
    rw [hnone v hv hne] at hc
    cases hc
  | notRedeemed e hpresents =>
    obtain ⟨hne, hold⟩ := KeyedMap.lookup_erase_iff.mp hc
    refine .inl ⟨hswept hold, ?_⟩
    rintro v hv - rfl
    exact hne (hv.unique hpresents ▸ rfl)
  | redeemed hredeems _ _ _ =>
    obtain ⟨hne, hold⟩ := KeyedMap.lookup_erase_iff.mp hc
    refine .inl ⟨hswept hold, ?_⟩
    rintro v hv - rfl
    exact hne (hv.unique hredeems.presents ▸ rfl)
  | refreshed hrotates _ _ _ _ _ _ =>
    refine .inl ⟨hswept hc, fun v hv _ => ?_⟩
    obtain ⟨token, htoken, -⟩ := hrotates.presents
    exact (hv.not_refresh htoken).elim
  | _ =>
    exact .inl ⟨by first | exact hc | exact hswept hc, by rintro v ⟨_, ⟨_, he, _⟩, _⟩; cases he⟩

/-- An access token issued for a redeemed code, or for a rotated refresh token. -/
inductive IssuesAs (O : OAuthSpike) (env : Env) (m : Memory) (call : OAuthCall) (s s' : AuthDb) :
    TokenRecord → Prop
  | redeemed {value : String} {c : CodeRecord} {grant : Option GrantRow} {family : Option FamilyRow}
      {expiresAt : Instant} (hredeems : Redeems O env m call value c)
      (hbacked : BackedBy O env c grant family s s') :
    IssuesAs O env m call s s'
      (OAuthSpike.tokenRecord c.clientId c.resource c.scopes grant family expiresAt)
  | refreshed {rot : Rotation} {f : FamilyRow} {g : GrantRow} {s₁ s₂ : AuthDb} {expiresAt : Instant}
      (hrotates : Rotates O env call rot) (h₁ : Evolves s s₁)
      (hrotate : s₁.rotate rot = .ok (.rotated f.id g.id, s₂)) (h₂ : Evolves s₂ s')
      (hg : g ∈ s'.grants) :
    IssuesAs O env m call s s'
      (OAuthSpike.tokenRecord g.clientId g.resource g.scopes (some g) (some f) expiresAt)

/-- An access token after a call: an old one, or the one issued. -/
theorem outcome_tokens (h : Outcome O env m s s' call r m') {key : String} {t : TokenRecord}
    (ht : m'.tokens.lookup key = some t) :
    m.tokens.lookup key = some t ∨
      key = O.digest env.draws.accessToken ∧ IssuesAs O env m call s s' t := by
  have hswept : ∀ {key t}, (swept env m).tokens.lookup key = some t →
      m.tokens.lookup key = some t := fun h => (swept_tokens.mp h).1
  cases h with
  | redeemed hredeems hbacked _ _ =>
    obtain ⟨rfl, rfl⟩ | ⟨-, hold⟩ := KeyedMap.lookup_insert_iff.mp ht
    · exact .inr ⟨rfl, .redeemed hredeems hbacked⟩
    · exact .inl (hswept hold)
  | refreshed hrotates h₁ hrotate h₂ hg _ _ =>
    obtain ⟨rfl, rfl⟩ | ⟨-, hold⟩ := KeyedMap.lookup_insert_iff.mp ht
    · exact .inr ⟨rfl, .refreshed hrotates h₁ hrotate h₂ hg⟩
    · exact .inl (hswept hold)
  | revokeDropped params token r => exact .inl (hswept (KeyedMap.lookup_erase_iff.mp ht).2)
  | _ => exact .inl (by first | exact ht | exact hswept ht)

/-- An awaiting authorization after a call: an old one, the one suspended, or one that the
registry has answered. -/
theorem outcome_awaiting (h : Outcome O env m s s' call r m') {n : Nat} {a : Awaiting}
    (ha : m'.awaiting.lookup n = some a) :
    m.awaiting.lookup n = some a ∨
      (∃ params, call = .beginAuthorization params ∧ r = .ok (.suspended n) ∧ O.BegunWith params a ∧
        a.clientId ∈ O.registry.allowedClientIds ∧ ∀ v, a.verdict = some v → ∃ metadata,
          m.cache.lookup a.clientId = some metadata ∧
          v = listsRedirect metadata.redirectUris a.redirectUri) ∨
      ∃ fetched a₀ v, call = .registryAnswers n fetched ∧ m.awaiting.lookup n = some a₀ ∧
        a = { a₀ with verdict := some v } ∧ (v = .ok () → ∃ uris,
          O.registry.checkResponse a₀.clientId fetched = .ok uris ∧ some a₀.redirectUri ∈ uris) := by
  cases h with
  | suspended hbegun hallowed hcached =>
    obtain ⟨rfl, rfl⟩ | ⟨-, hold⟩ := KeyedMap.lookup_insert_iff.mp ha
    · exact .inr (.inl ⟨_, rfl, rfl, hbegun, hallowed, hcached⟩)
    · exact .inl hold
  | refused fetched e ha₀ =>
    obtain ⟨rfl, rfl⟩ | ⟨-, hold⟩ := KeyedMap.lookup_insert_iff.mp ha
    · exact .inr (.inr ⟨fetched, _, _, rfl, ha₀, rfl, nofun⟩)
    · exact .inl hold
  | fetched ha₀ hdoc =>
    obtain ⟨rfl, rfl⟩ | ⟨-, hold⟩ := KeyedMap.lookup_insert_iff.mp ha
    · exact .inr (.inr ⟨_, _, _, rfl, ha₀, rfl, fun hv => ⟨_, hdoc, listsRedirect_eq_ok.mp hv⟩⟩)
    · exact .inl hold
  | resumeFailed n e => exact .inl (KeyedMap.lookup_erase_iff.mp ha).2
  | resumed _ _ _ => exact .inl (KeyedMap.lookup_erase_iff.mp ha).2
  | _ => exact .inl ha

/-- A cached document after a call: an old one, or the one fetched. -/
theorem outcome_cache (h : Outcome O env m s s' call r m') {clientId : String} {metadata : Metadata}
    (hm : m'.cache.lookup clientId = some metadata) :
    m.cache.lookup clientId = some metadata ∨ ∃ n fetched, call = .registryAnswers n fetched ∧
      O.registry.checkResponse clientId fetched = .ok metadata.redirectUris := by
  cases h with
  | fetched _ hdoc =>
    obtain ⟨rfl, rfl⟩ | ⟨-, hold⟩ := KeyedMap.lookup_insert_iff.mp hm
    · exact .inr ⟨_, _, rfl, hdoc⟩
    · exact .inl hold
  | _ => exact .inl hm

/-! ## The replies -/

/-- A request that is authorized presented a live access token that stands. -/
theorem outcome_authorized {header : Option String} {a : Authorization}
    (h : Outcome O env m s s' (.authenticate header) (.ok (.authorized (some a))) m') :
    ∃ token record, bearerToken header = some token ∧
      m.tokens.lookup (O.digest token) = some record ∧ record.resource = O.resource ∧
      env.clock 1 < record.expiresAt ∧ O.StandsAt env record s s' ∧
      a = ⟨record.clientId, record.scopes, record.ownerId, record.grantId, record.executionProfile,
        record.grantExpiresAt⟩ := by
  cases h with
  | authorized htoken hfound hresource hlive hstands =>
    exact ⟨_, _, htoken, (swept_tokens.mp hfound).1, hresource, hlive, hstands, rfl⟩

/-- An approval that answers has found its transaction. -/
theorem outcome_approve {id secret : Option String} {reply : OAuthReply}
    (h : Outcome O env m s s' (.approve id secret) (.ok reply) m') :
    ∃ t, m.transactions.lookup (O.digest (id.getD "")) = some t := by
  generalize hr : (.ok reply : Except Thrown OAuthReply) = r at h
  cases h with
  | noTransaction => cases hr
  | notApproved => cases hr
  | approved ht => exact ⟨_, (swept_transactions.mp ht).1⟩

/-- An exchange of a code that answers has found the code. -/
theorem outcome_redeems {value : String} {reply : OAuthReply} (hv : call.PresentsCode value)
    (h : Outcome O env m s s' call (.ok reply) m') :
    ∃ c, m.codes.lookup (O.digest value) = some c := by
  obtain ⟨params, ⟨header, rfl, hhead, htype⟩, hvalue⟩ := hv
  have hv : (OAuthCall.exchange params header).PresentsCode value :=
    ⟨params, ⟨header, rfl, hhead, htype⟩, hvalue⟩
  cases h with
  | redeemed hredeems =>
    obtain rfl := hv.unique hredeems.presents
    exact ⟨_, (swept_codes.mp hredeems.found).1⟩
  | refreshed hrotates =>
    obtain ⟨token, htoken, -⟩ := hrotates.presents
    exact (hv.not_refresh htoken).elim

end BegetBridge.Auth
