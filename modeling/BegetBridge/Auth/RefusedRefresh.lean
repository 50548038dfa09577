import BegetBridge.Auth.RefreshReplay

/-!
# Refused refreshes

A refresh exchange checks its request at two places: the parameters, the client and the resource before
the rotation or inside its transaction, and the scope when the rotation is committed. So a request that
is refused leaves the database as it was, and the presented token usable, exactly where it is not refused
for its scope.

## Main definitions

* `OAuthSpike.Asks`: the rotation that a request asks the store for
* `Current`: what the store rotates
* `OAuthSpike.RefusedForScope`, `OAuthSpike.RequestAtFault`: what is wrong with a request
* `Correct`, `Harmless`: a request that is answered, and a refusal after which it still is

## Main results

* `rotate_current`: the rotation of a current token
* `exchange_correct`: a correct request is answered
* `refused_refresh`: which refusals are harmless
-/

namespace BegetBridge.Auth

open Relational Interleaving Core

/-! ## Requests -/

namespace OAuthSpike

variable (O : OAuthSpike) (env : Env) (params : Params)

/-- The request asks the store for this rotation: its parameters are there and have their form, and the
resource is that of the server. -/
structure Asks (r : Rotation) : Prop where
  durable : O.ownerId.isSome
  token : ∃ token, requireString params "refresh_token" = .ok token ∧
    hashRefreshToken O.store.platform token = .ok r.digest
  client : ∃ clientId, requireString params "client_id" = .ok clientId ∧
    clientIdentifier O.store.platform clientId = .ok r.clientId
  resource : requireString params "resource" = .ok O.resource ∧
    exactHttpsUrl O.store.platform "resource" O.resource = .ok r.resource
  next : hashRefreshToken O.store.platform env.draws.refreshToken = .ok r.nextDigest
  replaces : r.digest ≠ r.nextDigest
  now : r.now = env.clock 1

/-- The request gives a scope that is not supported, or not the one that was granted. -/
def OtherScope (granted : List String) : Prop :=
  ∃ scope, (params.get "scope").filter (· ≠ "") = some scope ∧
    ∀ asked, parseScope (some scope) O.scopes = .ok asked → sameStrings asked granted = false

end OAuthSpike

/-- The token with the presented digest is the current one of a living family, which is of the client
and the resource presented. -/
structure Current (db : AuthDb) (r : Rotation) (t : RefreshRow) (f : FamilyRow) (g : GrantRow) :
    Prop where
  joined : db.joined r.digest = some (t, f, g)
  client : f.clientId = r.clientId
  resource : f.resource = r.resource
  family : f.status = .active
  grant : g.status = .active
  family_lives : r.now < f.expiresAt
  grant_lives : r.now < g.expiresAt
  token_lives : r.now < t.expiresAt
  token : t.status = .active
  generation : t.generation = f.currentGeneration

namespace OAuthSpike

variable (O : OAuthSpike) (db : AuthDb) (env : Env) (params : Params)

/-- Nothing is wrong with the request but its scope. -/
def RefusedForScope : Prop :=
  ∃ r t f g, O.Asks env params r ∧ Current db r t f g ∧ O.OtherScope params g.scopes

/-- What is wrong concerns the request only: a parameter that is missing or has no form, another
resource; a token that is not known, or is of another client; a scope that is not the granted one. -/
inductive RequestAtFault : Prop
  | malformed (h : ∀ r, ¬O.Asks env params r)
  | unbound {r : Rotation} (h : O.Asks env params r)
    (hbinding : ∀ t f g, db.joined r.digest = some (t, f, g) →
      f.clientId ≠ r.clientId ∨ f.resource ≠ r.resource)
  | scope (h : O.RefusedForScope db env params)

end OAuthSpike

/-- A correct request: the token it presents is the current one, its scope the granted one, and what it
is to be given is new and lives when it is issued. -/
structure Correct (O : OAuthSpike) (db : AuthDb) (env : Env) (params : Params) (r : Rotation)
    (t : RefreshRow) (f : FamilyRow) (g : GrantRow) : Prop where
  asks : O.Asks env params r
  current : Current db r t f g
  scope : ¬O.OtherScope params g.scopes
  fresh : ∀ t' ∈ db.tokens, t'.digest ≠ r.nextDigest
  ttl : 0 < O.accessTokenTtlMs
  issued : env.clock 2 < g.expiresAt

/-- After the step, the database is as before it, and whatever token was current before is still good
for a correct request. -/
structure Harmless (O : OAuthSpike) (w w' : World) : Prop where
  unchanged : w'.db = w.db
  usable : ∀ call env params r t f g reply trace w'', call.Exchanges "refresh_token" params →
    Correct O w.db env params r t f g → OAuthStep O w' (.call call env reply trace) w'' →
    Faultless StorageFault trace → ∃ response, reply = .ok (.tokens response)

/-! ## The rotation of a current token -/

section Rotation

variable {P : Platform} {db : AuthDb} {r : Rotation} {t : RefreshRow} {f : FamilyRow} {g : GrantRow}

/-- **A current token is rotated**: it is consumed, and the family and its grant live on. -/
theorem rotate_current (hi : Integrity P db) (hc : Current db r t f g)
    (hfresh : ∀ t' ∈ db.tokens, t'.digest ≠ r.nextDigest) :
    ∃ db', db.rotate r = .ok (.rotated f.id g.id, db') ∧ db'.Spent r.digest ∧
      db'.families.select (·.id == f.id) = some { f with currentGeneration := f.currentGeneration + 1 } ∧
      db'.grants.select (·.id == g.id) = some g := by
  obtain ⟨⟨ht, hdigest⟩, ⟨hf, -⟩, hg, -⟩ := joined_eq_some hc.joined
  -- one row is consumed
  have hchanges : db.tokens.changes r.presents = 1 := by
    refine Table.changes_of_mem ht (by simp [Rotation.presents, hdigest, hc.token]) fun t' _ ht' => ?_
    simp only [Rotation.presents, Bool.and_eq_true, beq_iff_eq] at ht'
    show (t'.digest == t.digest || _) = true
    rw [ht'.1, hdigest, beq_self_eq_true, Bool.true_or]
  -- the next generation is new
  obtain ⟨tokens, htokens⟩ : ∃ tokens, (db.consumed r).insert (r.nextRow f) = some tokens := by
    refine Table.exists_insert fun x hx => ?_
    obtain ⟨t', ht', rfl⟩ := mem_consumed.mp hx
    have hkeys : (if r.presents t' then { t' with status := .consumed, consumedAt := some r.now }
        else t').digest = t'.digest ∧ (if r.presents t' then
          { t' with status := .consumed, consumedAt := some r.now } else t').familyId = t'.familyId ∧
        (if r.presents t' then { t' with status := .consumed, consumedAt := some r.now }
          else t').generation = t'.generation := by
      split
      · exact ⟨rfl, rfl, rfl⟩
      · exact ⟨rfl, rfl, rfl⟩
    show (_ == r.nextDigest || (_ == f.id && _ == f.currentGeneration + 1)) = false
    rw [hkeys.1, hkeys.2.1, hkeys.2.2, Bool.or_eq_false_iff, beq_eq_false_iff_ne,
      Bool.and_eq_false_iff, beq_eq_false_iff_ne, beq_eq_false_iff_ne]
    refine ⟨hfresh t' ht', ?_⟩
    by_contra hboth
    simp only [ne_eq, not_or, not_not] at hboth
    have hle := (hi.generations f hf (f.currentGeneration + 1)).mp ⟨t', ht', hboth⟩
    omega
  have hadvance : db.advance r f = .ok { db with tokens := tokens, families := db.advanced f } := by
    rw [AuthDb.advance, if_pos hchanges, htokens]
  refine ⟨{ db with tokens := tokens, families := db.advanced f }, ?_, ?_, ?_, ?_⟩
  · rw [AuthDb.rotate, hc.joined]
    dsimp only
    rw [if_neg (by simp [hc.client, hc.resource]),
      if_neg (by simp [hc.family, hc.grant, hc.family_lives, hc.grant_lives, hc.token_lives]),
      if_neg (by simp [hc.token, hc.generation]), hadvance]
  · refine ⟨{ t with status := .consumed, consumedAt := some r.now }, ?_, hdigest, by simp⟩
    refine (Table.mem_insert htokens).mpr (.inl (mem_consumed.mpr ⟨t, ht, ?_⟩))
    rw [if_pos (by simp [Rotation.presents, hdigest, hc.token])]
  · refine Table.select_of_mem (mem_advanced.mpr ⟨f, hf, ?_⟩) (by simp) fun f' _ hf' => hf'
    rw [if_pos (by simp [hc.family])]
  · exact Table.select_of_mem hg (by simp) fun g' _ hg' => hg'

/-- A rotation that is asked for, in a store that nothing disturbs. -/
theorem rotateRefreshToken_asks {S : AuthStore} {token next clientId resource : String}
    {Q : Except Failure Rotated → AuthDb → Prop}
    (hdigest : hashRefreshToken S.platform token = .ok r.digest)
    (hnext : hashRefreshToken S.platform next = .ok r.nextDigest) (hne : r.digest ≠ r.nextDigest)
    (hclient : clientIdentifier S.platform clientId = .ok r.clientId)
    (hresource : exactHttpsUrl S.platform "resource" resource = .ok r.resource)
    {familyId grantId : String} {db' : AuthDb} {f' : FamilyRow} {g' : GrantRow}
    (hrot : db.rotate r = .ok (.rotated familyId grantId, db'))
    (hf : db'.families.select (·.id == familyId) = some f') (hflives : r.now < f'.expiresAt)
    (hg : db'.grants.select (·.id == grantId) = some g') (hglives : r.now < g'.expiresAt)
    (hQ : Q (.ok ⟨some f', some g'⟩) db') :
    wpThrow (authBackend.alone fun _ => False)
      (S.rotateRefreshToken token next clientId resource (some r.now)) Q db := by
  rw [AuthStore.rotateRefreshToken, hdigest, hnext, hclient, hresource]
  refine wpThrow_checked_ok (wpThrow_checked_ok (wpThrow_checked_ok ?_))
  rw [wpThrow_ensure_bind]
  refine ⟨fun _ => wpThrow_checked_ok (wpThrow_checked_ok ?_), fun h => absurd hne h⟩
  rw [wpThrow_bind]
  refine wp_alone_call hrot ?_
  show wpThrow _ (AuthStore.getTokenFamily .check familyId (some r.now) >>= _) Q db'
  rw [AuthStore.getTokenFamily, wpThrow_bind]
  refine wpThrow_checked_ok ?_
  rw [wpThrow_bind]
  refine wp_alone_call (congrArg (fun x => Except.ok (x, db')) hf) ?_
  show wpThrow _ (if f'.status = .active ∧ f'.expiresAt ≤ r.now then _ else _) _ db'
  rw [if_neg fun h => absurd h.2 (not_le.mpr hflives)]
  show wpThrow _ (AuthStore.getGrant grantId (some r.now) >>= _) Q db'
  rw [AuthStore.getGrant, wpThrow_bind]
  refine wpThrow_checked_ok ?_
  rw [wpThrow_bind]
  refine wp_alone_call (congrArg (fun x => Except.ok (x, db')) hg) ?_
  show wpThrow _ (if g'.status = .active ∧ g'.expiresAt ≤ r.now then _ else _) _ db'
  rw [if_neg fun h => absurd h.2 (not_le.mpr hglives)]
  exact hQ

end Rotation

/-! ## The exchange -/

/-- What the exchange does with the result of the rotation. -/
def OAuthSpike.answerRotation (O : OAuthSpike) (env : Env) (params : Params) :
    Except Failure Rotated → SpikeM TokenResponse
  | .error e => throw (.oauth (OAuthSpike.rotationError e))
  | .ok rotated =>
    match rotated.family, rotated.grant with
    | some family, some grant => do
      require (family.status = .active ∧ grant.status = .active)
        (oauthError .invalidGrant "Refresh token family is inactive")
      let scopes ← match (params.get "scope").filter (· ≠ "") with
        | some scope => SpikeM.check (parseScope (some scope) O.scopes)
        | none => pure grant.scopes
      require (sameStrings scopes grant.scopes)
        (oauthError .invalidScope "Refresh cannot change the approved scope set")
      O.issueAccessToken env grant.clientId grant.resource grant.scopes (some grant) (some family)
        (env.clock 2) (some env.draws.refreshToken)
    | _, _ => throw (.oauth (oauthError .invalidGrant "Refresh token family is inactive"))

section Exchange

variable {O : OAuthSpike} {env : Env} {params : Params} {r : Rotation} {t : RefreshRow} {f : FamilyRow}
  {g : GrantRow} {m : Memory} {db : AuthDb} {Q : Except Thrown TokenResponse → Memory → AuthDb → Prop}

theorem exchangeRefreshToken_eq : O.exchangeRefreshToken env params = (do
    require O.ownerId.isSome
      (oauthError .unsupportedGrantType "Durable refresh tokens are unavailable")
    let refreshToken ← SpikeM.check (requireString params "refresh_token")
    let clientId ← SpikeM.check (requireString params "client_id")
    let resource ← SpikeM.check (requireString params "resource")
    require (resource = O.resource)
      (oauthError .invalidTarget "resource does not match this MCP server")
    let rotated ← tryStore (withDate (env.clock 1) fun now =>
      O.store.rotateRefreshToken refreshToken env.draws.refreshToken clientId resource now)
    O.answerRotation env params rotated) := by
  rw [OAuthSpike.exchangeRefreshToken]
  congr 1

/-- A request that asks for a rotation reaches it. -/
theorem exchangeRefreshToken_asks (ha : O.Asks env params r)
    (h : ∀ token clientId, hashRefreshToken O.store.platform token = .ok r.digest →
      clientIdentifier O.store.platform clientId = .ok r.clientId →
      wpThrow (authBackend.alone fun _ => False)
        (O.store.rotateRefreshToken token env.draws.refreshToken clientId O.resource (some r.now))
        (fun rotated s' => wpProcess (authBackend.alone fun _ => False)
          (O.answerRotation env params rotated) Q m s') db) :
    wpProcess (authBackend.alone fun _ => False) (O.exchangeRefreshToken env params) Q m db := by
  obtain ⟨token, htoken, hdigest⟩ := ha.token
  obtain ⟨clientId, hclient, hnormal⟩ := ha.client
  rw [exchangeRefreshToken_eq, wpProcess_require_bind, htoken, hclient, ha.resource.1]
  refine ⟨fun _ => wpProcess_check_ok (wpProcess_check_ok (wpProcess_check_ok ?_)),
    fun h => absurd ha.durable h⟩
  rw [wpProcess_require_bind]
  refine ⟨fun _ => ?_, fun h => absurd rfl h⟩
  rw [wpProcess_bind, wpProcess_tryStore, withDate, env.isoText_clock, ← ha.now]
  exact wpThrow_mono (fun rotated s' hr => by cases rotated <;> exact hr) (h token clientId hdigest hnormal)

/-- A request that asks for no rotation is refused before the store changes anything. -/
theorem exchangeRefreshToken_malformed (h : ∀ r, ¬O.Asks env params r) :
    wpProcess (authBackend.alone fun _ => False) (O.exchangeRefreshToken env params)
      (fun x _ s => (∃ e, x = .error e) ∧ s = db) m db := by
  rw [exchangeRefreshToken_eq, wpProcess_require_bind]
  refine ⟨fun howner => ?_, fun _ => ⟨⟨_, rfl⟩, rfl⟩⟩
  rw [wpProcess_check_bind]
  refine ⟨fun token htoken => ?_, fun e _ => ⟨⟨e, rfl⟩, rfl⟩⟩
  rw [wpProcess_check_bind]
  refine ⟨fun clientId hclient => ?_, fun e _ => ⟨⟨e, rfl⟩, rfl⟩⟩
  rw [wpProcess_check_bind]
  refine ⟨fun resource hresource => ?_, fun e _ => ⟨⟨e, rfl⟩, rfl⟩⟩
  rw [wpProcess_require_bind]
  refine ⟨fun hsame => ?_, fun _ => ⟨⟨_, rfl⟩, rfl⟩⟩
  subst hsame
  rw [wpProcess_bind, wpProcess_tryStore, withDate, env.isoText_clock]
  dsimp only
  rw [AuthStore.rotateRefreshToken]
  -- the store checks the texts before its transaction
  refine wpThrow_checked_ok ?_
  rw [wpThrow_checked_bind]
  refine ⟨fun digest hdigest => ?_, fun e _ => ⟨⟨_, rfl⟩, rfl⟩⟩
  rw [wpThrow_checked_bind]
  refine ⟨fun nextDigest hnext => ?_, fun e _ => ⟨⟨_, rfl⟩, rfl⟩⟩
  rw [wpThrow_ensure_bind]
  refine ⟨fun hne => ?_, fun _ => ⟨⟨_, rfl⟩, rfl⟩⟩
  rw [wpThrow_checked_bind]
  refine ⟨fun normalized hnormal => ?_, fun e _ => ⟨⟨_, rfl⟩, rfl⟩⟩
  rw [wpThrow_checked_bind]
  refine ⟨fun url hurl => ?_, fun e _ => ⟨⟨_, rfl⟩, rfl⟩⟩
  exact absurd ⟨howner, ⟨token, htoken, hdigest⟩, ⟨clientId, hclient, hnormal⟩, ⟨hresource, hurl⟩, hnext,
    hne, rfl⟩ (h ⟨digest, nextDigest, normalized, url, env.clock 1⟩)

/-- A request for a token that is not of its client and resource is refused by the transaction. -/
theorem exchangeRefreshToken_unbound (ha : O.Asks env params r)
    (hbinding : ∀ t f g, db.joined r.digest = some (t, f, g) →
      f.clientId ≠ r.clientId ∨ f.resource ≠ r.resource) :
    wpProcess (authBackend.alone fun _ => False) (O.exchangeRefreshToken env params)
      (fun x _ s => (∃ e, x = .error e) ∧ s = db) m db := by
  obtain ⟨e, hrot⟩ : ∃ e, db.rotate r = .ok (.refused e, db) := by
    rw [AuthDb.rotate]
    rcases hjoined : db.joined r.digest with _ | ⟨t, f, g⟩
    · exact ⟨_, rfl⟩
    · dsimp only
      rw [if_pos (hbinding t f g hjoined)]
      exact ⟨_, rfl⟩
  refine exchangeRefreshToken_asks ha fun token clientId hdigest hclient => ?_
  exact rotateRefreshToken_calm hdigest ha.next ha.replaces hclient ha.resource.2 hrot ⟨⟨_, rfl⟩, rfl⟩

theorem answerRotation_other (hf : f.status = .active) (hg : g.status = .active)
    (hscope : O.OtherScope params g.scopes) (hQ : ∀ e, Q (.error e) m db) :
    wpProcess (authBackend.alone fun _ => False)
      (O.answerRotation env params (.ok ⟨some f, some g⟩)) Q m db := by
  obtain ⟨scope, hgiven, hother⟩ := hscope
  rw [OAuthSpike.answerRotation]
  dsimp only
  rw [wpProcess_require_bind]
  refine ⟨fun _ => ?_, fun h => absurd ⟨hf, hg⟩ h⟩
  rw [hgiven]
  dsimp only
  rw [wpProcess_check_bind]
  refine ⟨fun asked hasked => ?_, fun e _ => hQ e⟩
  rw [wpProcess_require_bind, hother asked hasked]
  exact ⟨fun h => absurd h (by simp), fun _ => hQ _⟩

theorem answerRotation_granted (hf : f.status = .active) (hg : g.status = .active)
    (hscope : ¬O.OtherScope params g.scopes) (httl : 0 < O.accessTokenTtlMs)
    (hlives : env.clock 2 < g.expiresAt) (hQ : ∀ response m', Q (.ok response) m' db) :
    wpProcess (authBackend.alone fun _ => False)
      (O.answerRotation env params (.ok ⟨some f, some g⟩)) Q m db := by
  have hissue : wpProcess (authBackend.alone fun _ => False)
      (O.issueAccessToken env g.clientId g.resource g.scopes (some g) (some f) (env.clock 2)
        (some env.draws.refreshToken)) Q m db := by
    rw [OAuthSpike.issueAccessToken]
    dsimp only
    rw [wpProcess_require_bind]
    refine ⟨fun _ => ?_, fun h => absurd (lt_min (Int.lt_add_of_pos_right _ httl) hlives) h⟩
    rw [wpProcess_modify_bind]
    exact hQ _ _
  rw [OAuthSpike.answerRotation]
  dsimp only
  rw [wpProcess_require_bind]
  refine ⟨fun _ => ?_, fun h => absurd ⟨hf, hg⟩ h⟩
  rcases hgiven : (params.get "scope").filter (· ≠ "") with _ | scope
  · -- no scope is given: it is the granted one
    dsimp only
    rw [wpProcess_bind, wpProcess_pure, andThen_ok, wpProcess_require_bind]
    exact ⟨fun _ => hissue, fun h => absurd (sameStrings_iff.mpr (List.Perm.refl _)) h⟩
  · -- the scope that is given is supported, and the granted one
    dsimp only
    rw [wpProcess_check_bind]
    constructor
    · intro asked hasked
      rw [wpProcess_require_bind]
      refine ⟨fun _ => hissue, fun h => absurd ⟨scope, hgiven, fun asked' hasked' => ?_⟩ hscope⟩
      obtain rfl := Except.ok.inj (hasked.symm.trans hasked')
      simpa using h
    · intro e herror
      refine absurd ⟨scope, hgiven, fun asked' hasked' => ?_⟩ hscope
      cases herror.symm.trans hasked'

/-- The rotation of a current token leads to its answer, with the token spent. -/
theorem exchangeRefreshToken_current {P : Platform} (hi : Integrity P db) (ha : O.Asks env params r)
    (hc : Current db r t f g) (hfresh : ∀ t' ∈ db.tokens, t'.digest ≠ r.nextDigest)
    (h : ∀ s' f', s'.Spent r.digest → f'.status = .active → wpProcess (authBackend.alone fun _ => False)
      (O.answerRotation env params (.ok ⟨some f', some g⟩)) Q m s') :
    wpProcess (authBackend.alone fun _ => False) (O.exchangeRefreshToken env params) Q m db := by
  obtain ⟨db', hrot, hspent, hf, hg⟩ := rotate_current hi hc hfresh
  refine exchangeRefreshToken_asks ha fun token clientId hdigest hclient => ?_
  exact rotateRefreshToken_asks hdigest ha.next ha.replaces hclient ha.resource.2 hrot hf hc.family_lives
    hg hc.grant_lives (h db' _ hspent hc.family)

end Exchange

/-! ## Refusals -/

section Refusals

variable {O : OAuthSpike} {h : History} {w w' w'' : World} {call : OAuthCall} {env : Env}
  {params : Params} {reply : Except Thrown OAuthReply} {trace : List (Entry Sql SqlError)}

/-- A refresh exchange that nothing disturbs ends as its program does. -/
theorem exchange_sound {Q : Except Thrown TokenResponse → Memory → AuthDb → Prop}
    (hex : call.Exchanges "refresh_token" params)
    (hq : wpProcess (authBackend.alone fun _ => False) (O.exchangeRefreshToken env params) Q
      (w.memory.sweep (env.clock 0)) w.db)
    (hs : OAuthStep O w (.call call env reply trace) w') (hno : Faultless StorageFault trace) :
    ∃ x : Except Thrown TokenResponse, reply = x.map .tokens ∧ Q x w'.memory w'.db := by
  obtain ⟨header, rfl, hheader, htype⟩ := hex
  have hcall : wpProcess (authBackend.alone fun _ => False)
      ((OAuthCall.exchange params header).program O env)
      (fun x m s => ∃ y : Except Thrown TokenResponse, x = y.map .tokens ∧ Q y m s) w.memory w.db := by
    rw [OAuthCall.program, wpProcess_map, OAuthSpike.exchange, OAuthSpike.cleanup,
      wpProcess_modify_bind, wpProcess_require_bind, requireString_of_get htype (by simp)]
    refine ⟨fun _ => wpProcess_check_ok ?_, fun h => absurd hheader h⟩
    rw [if_neg (by simp), if_pos rfl]
    exact wp_mono (fun x s hx => ⟨_, rfl, hx⟩) hq
  cases hs with
  | call hrun => exact wp_sound Backend.alone_idle hcall (hrun.faultless hno)

/-- **A correct request is answered.** -/
theorem exchange_correct {P : Platform} {r : Rotation} {t : RefreshRow} {f : FamilyRow} {g : GrantRow}
    (hi : Integrity P w.db) (hex : call.Exchanges "refresh_token" params)
    (hc : Correct O w.db env params r t f g)
    (hs : OAuthStep O w (.call call env reply trace) w') (hno : Faultless StorageFault trace) :
    ∃ response, reply = .ok (.tokens response) := by
  obtain ⟨x, rfl, response, rfl⟩ := exchange_sound (Q := fun x _ _ => ∃ response, x = .ok response) hex
    (exchangeRefreshToken_current hi hc.asks hc.current hc.fresh fun s' f' _ hf' =>
      answerRotation_granted hf' hc.current.grant hc.scope hc.ttl hc.issued fun response _ =>
        ⟨response, rfl⟩) hs hno
  exact ⟨response, rfl⟩

/-- A drawn refresh token is new to the store. -/
theorem fresh_draw (hP : O.store.platform.Lawful) (hr : OAuthRun O h w)
    (hf : Fresh (h ++ [(.call call env reply trace, w')])) {d : String}
    (hd : hashRefreshToken O.store.platform env.draws.refreshToken = .ok d) :
    ∀ t ∈ w.db.tokens, t.digest ≠ d := by
  rintro t ht rfl
  have ho := run_origin hP hr
  obtain ⟨f, hmem, hid, -⟩ := ho.integrity.token_family t ht
  obtain ⟨φ, hφ⟩ := ho.families f hmem
  obtain ⟨l, call₀, eₗ, -, hmade, hdraw⟩ := hφ.tokens _ ⟨t, ht, rfl, hid.symm⟩
  have hsame := hashRefreshToken_injective hP hd hdraw
  have hplace := place_eq hf hmade.append (madeAt_last rfl) (Draws.refreshToken_mem _)
    (hsame ▸ Draws.refreshToken_mem _)
  exact absurd hplace hmade.lt.ne

/-- **Which refusals are harmless**: a request that is at fault is refused, and the refusal leaves the
database and the presented token as they were exactly where it is not for the scope. -/
theorem refused_refresh (hP : O.store.platform.Lawful) (hr : OAuthRun O h w)
    (hf : Fresh (h ++ [(.call call env reply trace, w')]))
    (hex : call.Exchanges "refresh_token" params) (hfault : O.RequestAtFault w.db env params)
    (hs : OAuthStep O w (.call call env reply trace) w') (hno : Faultless StorageFault trace) :
    (∃ e, reply = .error e) ∧ (Harmless O w w' ↔ ¬O.RefusedForScope w.db env params) := by
  have hi := run_integrity hr
  have hharmless : w'.db = w.db → Harmless O w w' := by
    intro hsame
    refine ⟨hsame, fun call₂ env₂ params₂ r t f g reply₂ trace₂ w₂ hex₂ hc hs₂ hno₂ => ?_⟩
    exact exchange_correct (hsame ▸ hi) hex₂ (hsame ▸ hc) hs₂ hno₂
  have hrefused : ∀ {Q : AuthDb → Prop}, wpProcess (authBackend.alone fun _ => False)
      (O.exchangeRefreshToken env params) (fun x _ s => (∃ e, x = .error e) ∧ Q s)
        (w.memory.sweep (env.clock 0)) w.db → (∃ e, reply = .error e) ∧ Q w'.db := by
    intro Q hq
    obtain ⟨x, rfl, ⟨e, rfl⟩, hend⟩ := exchange_sound hex hq hs hno
    exact ⟨⟨e, rfl⟩, hend⟩
  by_cases hscope : O.RefusedForScope w.db env params
  · -- the token is spent, and was not
    obtain ⟨r, t, f, g, ha, hc, hother⟩ := id hscope
    obtain ⟨herror, hspent⟩ := hrefused (Q := fun s => s.Spent r.digest)
      (exchangeRefreshToken_current hi ha hc (fresh_draw hP hr hf ha.next) fun s' f' hspent hf' =>
        answerRotation_other hf' hc.grant hother fun e => ⟨⟨e, rfl⟩, hspent⟩)
    refine ⟨herror, fun hh => ?_, fun h => absurd hscope h⟩
    obtain ⟨⟨ht, hdigest⟩, -⟩ := joined_eq_some hc.joined
    rw [hh.unchanged] at hspent
    obtain ⟨t', ht', hdigest', hne⟩ := hspent
    exact absurd (token_eq_of_digest ht ht' (hdigest.trans hdigest'.symm) ▸ hc.token) hne
  · have hkept : (∃ e, reply = .error e) ∧ w'.db = w.db := by
      cases hfault with
      | malformed h => exact hrefused (exchangeRefreshToken_malformed h)
      | unbound ha hbinding => exact hrefused (exchangeRefreshToken_unbound ha hbinding)
      | scope h => exact absurd h hscope
    exact ⟨hkept.1, fun _ => hscope, fun _ => hharmless hkept.2⟩

end Refusals

/-! ## Refusals to compute with -/

/-- Where the sample flow leads: the second refresh token is the current one. -/
def sampleWorld : World := playEnd sampleSpike sampleStart sampleFlow

/-- A refresh request without a client. -/
def sampleAnonymous : Params :=
  [("grant_type", "refresh_token"), ("refresh_token", sampleDraw 'r' 7),
    ("resource", "https://bridge.example/mcp")]

theorem sampleAnonymous_malformed (r : Rotation) : ¬sampleSpike.Asks (sampleEnv 9) sampleAnonymous r := by
  intro ha
  obtain ⟨clientId, hclient, -⟩ := ha.client
  have hnone : sampleAnonymous.get "client_id" = none := by decide +kernel
  exact absurd (hnone.symm.trans (requireString_eq_ok hclient).1) nofun

theorem refused_refresh_anonymous : ∃ reply w',
    reply = (((OAuthCall.exchange sampleAnonymous none).program sampleSpike (sampleEnv 9)).run.run
      sampleWorld.memory |>.eval authBackend sampleWorld.db).1.1 ∧ (∃ e, reply = .error e) ∧
    Harmless sampleSpike sampleWorld w' := by
  have hfresh : Fresh (samplePlay (sampleFlow ++ [.call (.exchange sampleAnonymous none) (sampleEnv 9)])) :=
    fresh_play.mpr (by decide +kernel)
  rw [samplePlay, play_append] at hfresh
  obtain ⟨herror, hharmless⟩ := refused_refresh (O := sampleSpike) samplePlatform_lawful
    (samplePlay_run sampleFlow) hfresh
    ⟨none, rfl, rfl, by decide +kernel⟩ (.malformed sampleAnonymous_malformed)
    (respond_step sampleSpike sampleWorld (.call (.exchange sampleAnonymous none) (sampleEnv 9)))
    (by decide +kernel)
  refine ⟨_, _, rfl, herror, hharmless.mpr ?_⟩
  rintro ⟨r, t, f, g, ha, -⟩
  exact sampleAnonymous_malformed r ha

/-- A refresh request for a scope that was not granted. -/
def sampleScoped : Params :=
  [("grant_type", "refresh_token"), ("refresh_token", sampleDraw 'r' 7),
    ("client_id", defaultChatGptClientId), ("resource", "https://bridge.example/mcp"),
    ("scope", "files:write")]

/-- What the process answers to a call at the world `w`, and where that leads. -/
def sampleAnswerAt (w : World) (call : OAuthCall) (n : Fin 16) : Except Thrown OAuthReply × World :=
  let p := ((call.program sampleSpike (sampleEnv n)).run.run w.memory).eval authBackend w.db
  (p.1.1, ⟨p.1.2, p.2⟩)

/-- Nothing is spent on a request without a client. -/
example : (sampleAnswerAt sampleWorld (.exchange sampleAnonymous none) 9).2.db.tokens.rows =
    sampleWorld.db.tokens.rows := by
  decide +kernel

def sampleSecondToken : RefreshRow :=
  ⟨samplePlatform.sha256Hex ("DP-014 refresh token v1\x00" ++ sampleDraw 'r' 7), sampleId 'f' 6, 1, 70,
    86400050, none, .active⟩

/-- The rotation that the request asks for. -/
def sampleRotation : Rotation :=
  ⟨sampleSecondToken.digest, samplePlatform.sha256Hex ("DP-014 refresh token v1\x00" ++ sampleDraw 'r' 9),
    defaultChatGptClientId, "https://bridge.example/mcp", 90⟩

theorem sampleScoped_fault : sampleSpike.RequestAtFault sampleWorld.db (sampleEnv 9) sampleScoped := by
  refine .scope ⟨sampleRotation, sampleSecondToken, sampleFamily, sampleGrant, ?_, ?_, ?_⟩
  · exact ⟨rfl, ⟨sampleDraw 'r' 7, by decide +kernel, by decide +kernel⟩,
      ⟨defaultChatGptClientId, by decide +kernel, by decide +kernel⟩,
      ⟨by decide +kernel, by decide +kernel⟩, by decide +kernel, by decide +kernel, rfl⟩
  · exact ⟨by decide +kernel, rfl, rfl, rfl, rfl, by decide, by decide, by decide, rfl, rfl⟩
  · refine ⟨"files:write", by decide +kernel, fun asked hasked => absurd hasked ?_⟩
    rw [show parseScope (some "files:write") sampleSpike.scopes = .error _ by rfl]
    exact nofun

theorem sampleScoped_answers :
    (sampleAnswerAt sampleWorld (.exchange sampleScoped none) 9).1 =
      .error (.oauth (oauthError .invalidScope "Requested scope is not supported")) ∧
    ((sampleAnswerAt sampleWorld (.exchange sampleScoped none) 9).2.db.tokens.rows.map (·.status)) ≠
      sampleWorld.db.tokens.rows.map (·.status) ∧
    (sampleAnswerAt (sampleAnswerAt sampleWorld (.exchange sampleScoped none) 9).2
      (sampleRefresh (sampleDraw 'r' 7)) 10).1 = .error (.oauth
        (oauthError .invalidGrant "Refresh token is invalid, expired, revoked or reused")) ∧
    { sampleFamily with
      status := .compromised, revokedAt := some 100, revokeReason := some "refresh_reuse"
      currentGeneration := 2 } ∈ (sampleAnswerAt (sampleAnswerAt sampleWorld (.exchange sampleScoped none) 9).2
        (sampleRefresh (sampleDraw 'r' 7)) 10).2.db.families := by
  decide +kernel

/-- A request for another scope is refused, and so is the correct request after it, as a replay: the
family is compromised. -/
theorem refused_scope_harms :
    sampleSpike.RequestAtFault sampleWorld.db (sampleEnv 9) sampleScoped ∧
    (sampleAnswerAt sampleWorld (.exchange sampleScoped none) 9).1 =
      .error (.oauth (oauthError .invalidScope "Requested scope is not supported")) ∧
    ¬Harmless sampleSpike sampleWorld (sampleAnswerAt sampleWorld (.exchange sampleScoped none) 9).2 ∧
    (sampleAnswerAt (sampleAnswerAt sampleWorld (.exchange sampleScoped none) 9).2
      (sampleRefresh (sampleDraw 'r' 7)) 10).1 = .error (.oauth
        (oauthError .invalidGrant "Refresh token is invalid, expired, revoked or reused")) ∧
    ∃ f ∈ (sampleAnswerAt (sampleAnswerAt sampleWorld (.exchange sampleScoped none) 9).2
      (sampleRefresh (sampleDraw 'r' 7)) 10).2.db.families, f.status = .compromised := by
  obtain ⟨hrefused, htokens, hreplayed, hfamily⟩ := sampleScoped_answers
  refine ⟨sampleScoped_fault, hrefused, fun hh => ?_, hreplayed, _, hfamily, rfl⟩
  exact htokens (by rw [hh.unchanged])

end BegetBridge.Auth
