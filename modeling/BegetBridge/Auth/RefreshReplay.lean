import BegetBridge.Auth.CodeFlow

/-!
# Refresh replay

A refresh token is accepted by at most one rotation, over a whole run with its crashes. A token that
has been replaced and is presented again while its family lives compromises the family: the
rotation transaction commits the compromise on the path on which the call fails. What is
compromised stays ended, in the database and for the access tokens the process still holds.

## Main definitions

* `Event.accepts`: the rotations of an event that accept a token
* `Replays`: a call that presents a replaced token of a live family
* `HeldUnder`: an access token that the process held under a family

## Main results

* `accepted_once`: a token is accepted at most once
* `replay_compromises`: a replay compromises the family
* `refreshReplay_detected`: both, and what follows for every continuation
-/

namespace BegetBridge.Auth

open Relational Interleaving Core

/-! ## Accepted at most once -/

/-- The statement is a rotation that accepts the token with digest `d`. -/
def accepts (d : String) : Entry Sql SqlError → Bool
  | ⟨.rotate r, .ok (.rotated _ _)⟩ => r.digest == d
  | _ => false

theorem accepts_iff {d : String} {β : Type} {op : Sql β} {r : Except SqlError β} :
    accepts d ⟨op, r⟩ = true ↔ ∃ (rot : Rotation) (familyId grantId : String),
      (⟨op, r⟩ : Entry Sql SqlError) = ⟨.rotate rot, .ok (.rotated familyId grantId)⟩ ∧
        rot.digest = d := by
  constructor
  · intro h
    cases op with
    | rotate rot =>
      obtain e | ⟨e | ⟨familyId, grantId⟩⟩ := r
      · cases h
      · cases h
      · exact ⟨rot, familyId, grantId, rfl, beq_iff_eq.mp h⟩
    | _ => cases h
  · rintro ⟨rot, familyId, grantId, he, rfl⟩
    rw [he]
    exact beq_self_eq_true _

/-- The statements of an event. -/
def Event.trace : Event → List (Entry Sql SqlError)
  | .call _ _ _ trace => trace
  | .crash _ _ trace => trace
  | _ => []

/-- How many rotations of the event accept the token with digest `d`. -/
def Event.accepts (d : String) (e : Event) : Nat := e.trace.countP (Auth.accepts d)

/-- The token with digest `d` has been replaced or revoked. -/
def AuthDb.Spent (db : AuthDb) (d : String) : Prop :=
  ∃ t ∈ db.tokens, t.digest = d ∧ t.status ≠ .active

theorem Evolves.spent {db db' : AuthDb} (h : Evolves db db') {d : String} (hs : db.Spent d) :
    db'.Spent d := by
  obtain ⟨t, ht, rfl, hne⟩ := hs
  obtain ⟨t', ht', hlater⟩ := h.tokens t ht
  refine ⟨t', ht', by rw [hlater.1], ?_⟩
  rw [hlater.2 hne]
  exact hne

/-- An accepted rotation finds its token live and leaves it spent. -/
theorem accepts_spends {d : String} {β : Type} {op : Sql β} {r : Except SqlError β}
    {db db' : AuthDb} (hans : Answer authBackend StorageFault op db r db')
    (ha : accepts d ⟨op, r⟩ = true) : ¬db.Spent d ∧ db'.Spent d := by
  obtain ⟨rot, familyId, grantId, he, rfl⟩ := accepts_iff.mp ha
  cases he
  cases hans with
  | effect hexec =>
    have hacc := rotate_eq_rotated hexec
    obtain ⟨t, ht, hd, -, hactive⟩ := hacc.presented
    obtain ⟨t', ht', hd', hconsumed⟩ := hacc.consumed
    refine ⟨?_, t', ht', hd', by rw [hconsumed]; decide⟩
    rintro ⟨t₀, ht₀, hd₀, hne⟩
    obtain rfl := token_eq_of_digest ht ht₀ (hd.trans hd₀.symm)
    exact hne hactive

section

variable {O : OAuthSpike} {h h' : History} {w w' w'' : World} {e : Event}

theorem step_accepts (d : String) (hs : OAuthStep O w e w') :
    e.accepts d + happened (w.db.Spent d) ≤ happened (w'.db.Spent d) := by
  have hkeep := happened_mono fun hd => (step_evolves hs).spent (d := d) hd
  cases hs with
  | call h => exact h.visits.countP_add_le (fun hans => (answer_evolves hans).spent) accepts_spends
  | crash h => exact h.countP_add_le (fun hans => (answer_evolves hans).spent) accepts_spends
  | restart => simp [Event.accepts, Event.trace]
  | admin => simpa [Event.accepts, Event.trace] using hkeep

/-- **A refresh token is accepted at most once.** -/
theorem accepted_once (hr : OAuthRun O h w) (d : String) :
    (h.map fun x => x.1.accepts d).sum ≤ 1 := by
  obtain ⟨id, hp⟩ := hr
  have := hp.sum_add_le (P := fun w => w.db.Spent d) (step_accepts d)
  have := happened_le_one (w.db.Spent d)
  omega

end

/-! ## A replay compromises the family -/

theorem joined_of_mem {db : AuthDb} {t : RefreshRow} {f : FamilyRow} {g : GrantRow}
    (ht : t ∈ db.tokens) (hf : f ∈ db.families) (hg : g ∈ db.grants) (hid : t.familyId = f.id)
    (hgid : g.id = f.grantId) : db.joined t.digest = some (t, f, g) := by
  have hdigest : ∀ t' ∈ db.tokens, (t'.digest == t.digest) = true → clash t' t = true := by
    intro t' _ hd
    show (t'.digest == t.digest || _) = true
    rw [hd, Bool.true_or]
  have hfamily : ∀ f' ∈ db.families, (f'.id == t.familyId) = true → clash f' f = true :=
    fun f' _ hd => by rw [hid] at hd; exact hd
  have hgrant : ∀ g' ∈ db.grants, (g'.id == f.grantId) = true → clash g' g = true :=
    fun g' _ hd => by rw [← hgid] at hd; exact hd
  simp only [AuthDb.joined, Option.bind_eq_bind, Option.bind_eq_some_iff, Option.pure_def]
  exact ⟨t, Table.select_of_mem ht (beq_self_eq_true _) hdigest,
    f, Table.select_of_mem hf (beq_iff_eq.mpr hid.symm) hfamily,
    g, Table.select_of_mem hg (beq_iff_eq.mpr hgid) hgrant, rfl⟩

/-- The exchange presents a replaced token of the family with the family's own client and
resource, and the family and its grant live at the reading by which the rotation goes. -/
structure Replays (P : Platform) (db : AuthDb) (call : OAuthCall) (env : Env) (f : FamilyRow) :
    Prop where
  family : f ∈ db.families
  active : f.status = .active
  live : env.clock 1 < f.expiresAt
  grant : ∃ g ∈ db.grants, g.id = f.grantId ∧ g.status = .active ∧ env.clock 1 < g.expiresAt
  presented : ∃ params token, call.Exchanges "refresh_token" params ∧
    params.get "refresh_token" = some token ∧ params.get "client_id" = some f.clientId ∧
    params.get "resource" = some f.resource ∧ ∃ t ∈ db.tokens,
      hashRefreshToken P token = .ok t.digest ∧ t.familyId = f.id ∧
      t.generation ≠ f.currentGeneration

/-- The rotation of a replaced token of a live family compromises the family. -/
theorem rotate_replayed {db : AuthDb} {r : Rotation} {t : RefreshRow} {f : FamilyRow} {g : GrantRow}
    (hj : db.joined r.digest = some (t, f, g)) (hclient : f.clientId = r.clientId)
    (hresource : f.resource = r.resource) (hf : f.status = .active) (hg : g.status = .active)
    (hflive : r.now < f.expiresAt) (hglive : r.now < g.expiresAt) (htlive : r.now < t.expiresAt)
    (hgen : t.generation ≠ f.currentGeneration) :
    ∃ e, db.rotate r = .ok (.refused e, db.compromiseFamily f.id r.now) := by
  unfold AuthDb.rotate
  rw [hj]
  dsimp only
  rw [if_neg (by simp [hclient, hresource]), if_neg (by simp [hf, hg, hflive, hglive, htlive]),
    if_pos (.inr hgen)]
  exact ⟨_, rfl⟩

theorem compromiseFamily_compromises {db : AuthDb} {f : FamilyRow} (hf : f ∈ db.families)
    (hactive : f.status = .active) (now : Instant) :
    ∃ f' ∈ (db.compromiseFamily f.id now).families, f'.id = f.id ∧ f'.status = .compromised := by
  refine ⟨_, mem_endFamilies_families.mpr ⟨f, hf, rfl⟩, ?_⟩
  rw [if_pos (by simp [hactive])]
  exact ⟨rfl, rfl⟩

/-- The digest of a drawn refresh token. -/
theorem hashRefreshToken_draw (P : Platform) (env : Env) :
    ∃ d, hashRefreshToken P env.draws.refreshToken = .ok d := by
  refine ⟨_, if_pos ?_⟩
  have := env.draws.token_pattern _ (Draws.refreshToken_mem _)
  simp only [within, Bool.and_eq_true, decide_eq_true_eq] at this
  simp only [refreshTokenPattern, within, Bool.and_eq_true, decide_eq_true_eq]
  exact ⟨⟨this.1.1, this.1.2.trans (by decide)⟩, this.2⟩

/-- The rotation that the exchange asks for, when it reaches the transaction. -/
theorem rotateRefreshToken_calm {S : AuthStore} {db : AuthDb} {token next clientId resource : String}
    {r : Rotation} {Q : Except Failure Rotated → AuthDb → Prop}
    (hdigest : hashRefreshToken S.platform token = .ok r.digest)
    (hnext : hashRefreshToken S.platform next = .ok r.nextDigest) (hne : r.digest ≠ r.nextDigest)
    (hclient : clientIdentifier S.platform clientId = .ok r.clientId)
    (hresource : exactHttpsUrl S.platform "resource" resource = .ok r.resource)
    {e : AuthStoreError} {db' : AuthDb} (hrot : db.rotate r = .ok (.refused e, db'))
    (hQ : Q (.error (.auth e)) db') :
    wpThrow (authBackend.alone fun _ => False)
      (S.rotateRefreshToken token next clientId resource (some r.now)) Q db := by
  rw [AuthStore.rotateRefreshToken, hdigest, hnext, hclient, hresource]
  refine wpThrow_checked_ok (wpThrow_checked_ok (wpThrow_checked_ok ?_))
  rw [wpThrow_ensure_bind]
  refine ⟨fun _ => wpThrow_checked_ok (wpThrow_checked_ok ?_), fun h => absurd hne h⟩
  rw [wpThrow_bind]
  exact wp_alone_call hrot hQ

section

variable {O : OAuthSpike} {h : History} {w w' : World} {call : OAuthCall} {env : Env} {f : FamilyRow}

/-- The exchange reaches the rotation, with its texts normalised to what the family records. -/
theorem exchangeRefreshToken_calm {params : Params} {token clientId resource : String} {r : Rotation}
    {m : Memory} {db db' : AuthDb} {e : AuthStoreError} (howner : O.ownerId.isSome)
    (htoken : requireString params "refresh_token" = .ok token)
    (hclient : requireString params "client_id" = .ok clientId)
    (hresource : requireString params "resource" = .ok resource) (hO : resource = O.resource)
    (hdigest : hashRefreshToken O.store.platform token = .ok r.digest)
    (hnext : hashRefreshToken O.store.platform env.draws.refreshToken = .ok r.nextDigest)
    (hne : r.digest ≠ r.nextDigest)
    (hclient' : clientIdentifier O.store.platform clientId = .ok r.clientId)
    (hresource' : exactHttpsUrl O.store.platform "resource" resource = .ok r.resource)
    (hnow : r.now = env.clock 1) (hrot : db.rotate r = .ok (.refused e, db')) :
    wpProcess (authBackend.alone fun _ => False) (O.exchangeRefreshToken env params)
      (fun _ _ s => s = db') m db := by
  rw [OAuthSpike.exchangeRefreshToken, wpProcess_require_bind, htoken, hclient, hresource]
  refine ⟨fun _ => wpProcess_check_ok (wpProcess_check_ok (wpProcess_check_ok ?_)), fun h => absurd howner h⟩
  rw [wpProcess_require_bind]
  refine ⟨fun _ => ?_, fun h => absurd hO h⟩
  dsimp only
  rw [wpProcess_bind, wpProcess_tryStore, withDate, env.isoText_clock, ← hnow]
  exact rotateRefreshToken_calm hdigest hnext hne hclient' hresource' hrot rfl

/-- **A replay compromises the family**, in the call that presents it. -/
theorem replay_compromises (hP : O.store.platform.Lawful) (hr : OAuthRun O h w)
    {reply : Except Thrown OAuthReply} {trace : List (Entry Sql SqlError)}
    (hreplay : Replays O.store.platform w.db call env f)
    (hs : OAuthStep O w (.call call env reply trace) w') (hno : Faultless StorageFault trace)
    (hf : Fresh (h ++ [(.call call env reply trace, w')])) :
    ∃ f' ∈ w'.db.families, f'.id = f.id ∧ f'.status = .compromised := by
  have ho := run_origin hP hr
  obtain ⟨φ, hφ⟩ := ho.families f hreplay.family
  obtain ⟨g, hg, hgid, hgactive, hglive⟩ := hreplay.grant
  obtain ⟨params, token, ⟨header, rfl, hheader, htype⟩, htoken, hclient, hresource, t, ht, hash, htid,
    hgen⟩ := hreplay.presented
  obtain ⟨next, hnext⟩ := hashRefreshToken_draw O.store.platform env
  -- the token presented was drawn before, so the rotation does replace it
  obtain ⟨l, call₀, eₗ, -, hmade, hdraw⟩ := hφ.tokens _ ⟨t, ht, rfl, htid⟩
  obtain rfl := hashRefreshToken_injective hP hash hdraw
  have hne : t.digest ≠ next := by
    rintro rfl
    have hsame := hashRefreshToken_injective hP hnext hash
    have hplace := place_eq hf hmade.append (madeAt_last rfl) (Draws.refreshToken_mem _)
      (hsame ▸ Draws.refreshToken_mem _)
    exact absurd hplace hmade.lt.ne
  have hbegun := hφ.lineage.approved.begun
  have hclient_ne : f.clientId ≠ "" := hφ.client ▸ hbegun.client_ne
  have hresource_ne : f.resource ≠ "" := hφ.resource ▸ hbegun.resource_ne
  obtain ⟨f₀, hf₀, hid₀, hexp⟩ := ho.integrity.token_family t ht
  obtain rfl := family_eq_of_id hreplay.family hf₀ (htid.symm.trans hid₀.symm)
  obtain ⟨e, hrot⟩ := rotate_replayed (r := ⟨t.digest, next, f.clientId, f.resource, env.clock 1⟩)
    (joined_of_mem ht hreplay.family hg htid hgid) rfl rfl hreplay.active hgactive hreplay.live
    hglive (hexp ▸ hreplay.live) hgen
  have hwp := exchangeRefreshToken_calm (m := w.memory.sweep (env.clock 0)) hφ.durable
    (requireString_of_get htoken (draw_ne_empty eₗ (Draws.refreshToken_mem _)))
    (requireString_of_get hclient hclient_ne) (requireString_of_get hresource hresource_ne)
    (hφ.resource.trans hbegun.resource) hash hnext hne
    (ho.integrity.family_client hP hreplay.family) (ho.integrity.family_resource hP hreplay.family)
    rfl hrot
  have hcall : wpProcess (authBackend.alone fun _ => False)
      ((OAuthCall.exchange params header).program O env)
      (fun _ _ s => s = w.db.compromiseFamily f.id (env.clock 1)) w.memory w.db := by
    rw [OAuthCall.program, wpProcess_map, OAuthSpike.exchange, OAuthSpike.cleanup,
      wpProcess_modify_bind, wpProcess_require_bind, requireString_of_get htype (by simp)]
    refine ⟨fun _ => wpProcess_check_ok ?_, fun h => absurd hheader h⟩
    rw [if_neg (by simp), if_pos rfl]
    exact hwp
  cases hs with
  | call hrun =>
    rw [wp_sound Backend.alone_idle hcall (hrun.faultless hno)]
    exact compromiseFamily_compromises hreplay.family hreplay.active _

end

/-! ## What is compromised stays ended -/

/-- The family `id` has left `ACTIVE`. -/
def AuthDb.Ended (db : AuthDb) (id : String) : Prop :=
  ∃ f ∈ db.families, f.id = id ∧ f.status ≠ .active

theorem Evolves.ended {db db' : AuthDb} (h : Evolves db db') {id : String} (he : db.Ended id) :
    db'.Ended id := by
  obtain ⟨f, hf, rfl, hne⟩ := he
  obtain ⟨f', hf', hlater⟩ := h.families f hf
  exact ⟨f', hf', by rw [hlater.kept], (hlater.ended hne).1⟩

theorem AuthDb.Ended.not_active {db : AuthDb} {f : FamilyRow} (he : db.Ended f.id)
    (hf : f ∈ db.families) : f.status ≠ .active := by
  obtain ⟨f', hf', hid, hne⟩ := he
  exact family_eq_of_id hf' hf hid ▸ hne

/-- A token belongs to one family. -/
theorem AuthDb.HasToken.unique {db : AuthDb} {d id id' : String} (h : db.HasToken d id)
    (h' : db.HasToken d id') : id = id' := by
  obtain ⟨t, ht, hd, rfl⟩ := h
  obtain ⟨t', ht', hd', rfl⟩ := h'
  rw [token_eq_of_digest ht ht' (hd.trans hd'.symm)]

/-- At some place of the history the process held the access token under the family. -/
def HeldUnder (O : OAuthSpike) (h : History) (token familyId : String) : Prop :=
  ∃ (i : Nat) (e : Event) (w : World) (record : TokenRecord), h[i]? = some (e, w) ∧
    w.memory.tokens.lookup (O.digest token) = some record ∧ record.tokenFamilyId = some familyId

section

variable {O : OAuthSpike} {h h' : History} {w w' : World} {e : Event} {id token : String}

/-- No token of an ended family rotates. -/
theorem step_accepts_ended (hend : w.db.Ended id) (hs : OAuthStep O w e w') {d : String}
    {db : AuthDb} (hdb : Evolves w'.db db) (hd : db.HasToken d id) : e.accepts d = 0 := by
  have hno : ∀ {α : Type} {p : Prog Sql SqlError α} {tr : List (Entry Sql SqlError)},
      Visits authBackend StorageFault p w.db tr w'.db → tr.countP (accepts d) = 0 := by
    intro α p tr hvisit
    rw [List.countP_eq_zero]
    rintro ⟨op, r⟩ hmem ha
    obtain ⟨s₁, s₂, h₁, hans, h₂⟩ := hvisit.entry .refl .trans answer_evolves hmem
    obtain ⟨rot, familyId, grantId, he, rfl⟩ := accepts_iff.mp ha
    cases he
    cases hans with
    | effect hexec =>
      have hacc := rotate_eq_rotated hexec
      obtain ⟨f, hf, rfl, hactive, -⟩ := hacc.family
      obtain ⟨t, ht, hdig, hfid, -⟩ := hacc.presented
      have hold := (((rotate_evolves hexec).trans h₂).trans hdb).hasToken ⟨t, ht, hdig, hfid⟩
      exact (h₁.ended (hold.unique hd ▸ hend)).not_active hf hactive
  cases hs with
  | call h => exact hno h.visits
  | crash h => exact hno h
  | restart => rfl
  | admin => rfl

theorem path_accepts_ended (hp : Path (OAuthStep O) w h w') (hend : w.db.Ended id) {d : String}
    (hd : w'.db.HasToken d id) : (h.map fun x => x.1.accepts d).sum = 0 := by
  rw [List.sum_eq_zero_iff_forall_eq_nat]
  intro n hn
  obtain ⟨⟨e, w₂⟩, hmem, rfl⟩ := List.mem_map.mp hn
  obtain ⟨i, hi⟩ := List.mem_iff_getElem?.mp hmem
  obtain ⟨w₁, hp₁, hs, hp₂⟩ := hp.step_at hi
  exact step_accepts_ended ((path_evolves hp₁).ended hend) hs (path_evolves hp₂) hd

/-- The record of an access token goes back to the call that issued it with a refresh token of the
same family. -/
theorem record_origin (hP : O.store.platform.Lawful) (ho : RunOrigin O h w) (howner : O.ownerId.isSome)
    {record : TokenRecord} (hr : w.memory.tokens.lookup (O.digest token) = some record) :
    ∃ l call eₗ d id, MadeAt h l call eₗ ∧ token = eₗ.draws.accessToken ∧
      hashRefreshToken O.store.platform eₗ.draws.refreshToken = .ok d ∧ w.db.HasToken d id ∧
      record.tokenFamilyId = some id := by
  obtain ⟨φ, l, call, eₗ, -, -, hmade, hkey, -, hfamily⟩ := ho.memory.tokens _ record hr
  obtain ⟨d, id, hash, htoken, hid⟩ := hfamily howner
  exact ⟨l, call, eₗ, d, id, hmade, hP.hex_injective hkey, hash, htoken, hid⟩

/-- **An access token authenticates only while its family lives.** -/
theorem authorized_family_lives (hP : O.store.platform.Lawful) (hr : OAuthRun O h w) (hf : Fresh h)
    (howner : O.ownerId.isSome) (hheld : HeldUnder O h token id) {k : Nat} {a : Authorization}
    (hx : h[k]? = some (e, w')) (ha : AuthorizedAt h k token a) : ¬w'.db.Ended id := by
  obtain ⟨i, e₁, w₁, record₁, hi, hlook₁, hfamily₁⟩ := hheld
  obtain ⟨header, env, trace, w₂, hx₂, htoken⟩ := authorizedAt_iff.mp ha
  obtain ⟨rfl, rfl⟩ := Prod.mk.inj (Option.some.inj (hx.symm.trans hx₂))
  obtain ⟨w₀, hr₀, hs, hr₂, hafter⟩ := run_at hr hx
  obtain ⟨-, -, -, hr₁, hafter₁⟩ := run_at hr hi
  obtain ⟨token', record, htoken', hlook, -, -, hstands, -⟩ := outcome_authorized (step_outcome hs)
  obtain rfl := Option.some.inj (htoken.symm.trans htoken')
  obtain ⟨l, call, eₗ, d, id', hmade, rfl, hash, hd, hid⟩ :=
    record_origin hP (run_origin hP hr₀) howner hlook
  obtain ⟨l₁, call₁, eₗ₁, d₁, id₁, hmade₁, hdraw, hash₁, hd₁, hid₁⟩ :=
    record_origin hP (run_origin hP hr₁) howner hlook₁
  obtain rfl := Option.some.inj (hid₁.symm.trans hfamily₁)
  -- both records were made by the one call that drew the token
  obtain rfl := place_eq hf hmade.of_take hmade₁.of_take (Draws.accessToken_mem _)
    (hdraw ▸ Draws.accessToken_mem _)
  obtain ⟨-, rfl⟩ := hmade.of_take.unique hmade₁.of_take
  obtain rfl := Except.ok.inj (hash.symm.trans hash₁)
  have hlive := ((step_evolves hs).trans (path_evolves hafter)).hasToken hd
  obtain rfl := hlive.unique ((path_evolves hafter₁).hasToken hd₁)
  obtain ⟨g, s₁, -, -, -, -, hfam⟩ := hstands howner
  obtain ⟨f, hmem, hfid, hactive, -⟩ := hfam _ hid
  exact fun hend => (hfid ▸ hend).not_active hmem hactive

end

/-- **Refresh replay is detected.** A refresh token is accepted at most once. A replaced token of a
live family that is presented again compromises the family in that call; from then on no token of
the family rotates, and no access token ever issued under it authenticates. -/
theorem refreshReplay_detected {O : OAuthSpike} (hP : O.store.platform.Lawful) {h : History}
    {w : World} (hr : OAuthRun O h w) :
    (∀ d, (h.map fun x => x.1.accepts d).sum ≤ 1) ∧
    ∀ call env f reply trace w' h' w'', Replays O.store.platform w.db call env f →
      OAuthStep O w (.call call env reply trace) w' → Faultless StorageFault trace →
      Path (OAuthStep O) w' h' w'' → Fresh (h ++ (.call call env reply trace, w') :: h') →
      (∃ f' ∈ w'.db.families, f'.id = f.id ∧ f'.status = .compromised) ∧
      (∀ d, w''.db.HasToken d f.id → (h'.map fun x => x.1.accepts d).sum = 0) ∧
      ∀ k token a, h.length < k →
        HeldUnder O (h ++ (.call call env reply trace, w') :: h') token f.id →
        ¬AuthorizedAt (h ++ (.call call env reply trace, w') :: h') k token a := by
  refine ⟨accepted_once hr, fun call env f reply trace w' h' w'' hreplay hs hno hp' hf => ?_⟩
  have hsplit : h ++ (Event.call call env reply trace, w') :: h' =
      (h ++ [(.call call env reply trace, w')]) ++ h' := (List.append_cons ..)
  obtain ⟨f', hf', hid, hstatus⟩ := replay_compromises hP hr hreplay hs hno (hsplit ▸ hf).of_append
  have hend : w'.db.Ended f.id := ⟨f', hf', hid, by rw [hstatus]; decide⟩
  refine ⟨⟨f', hf', hid, hstatus⟩, fun d hd => path_accepts_ended hp' hend hd, ?_⟩
  intro k token a hk hheld ha
  obtain ⟨φ, hφ⟩ := (run_origin hP hr).families f hreplay.family
  obtain ⟨id₀, hp⟩ := hr
  have hrun : OAuthRun O (h ++ (Event.call call env reply trace, w') :: h') w'' :=
    hsplit ▸ ⟨id₀, (hp.snoc hs).trans hp'⟩
  obtain ⟨header, env₂, trace₂, w₂, hx, -⟩ := authorizedAt_iff.mp ha
  -- the event is in the continuation, so its database comes after the compromise
  have hlive := authorized_family_lives hP hrun hf hφ.durable hheld hx ha
  rw [hsplit, List.getElem?_append_right (by rw [List.length_append]; exact hk)] at hx
  obtain ⟨w₁, hp₁, hs₁, -⟩ := hp'.step_at hx
  exact hlive (((path_evolves hp₁).trans (step_evolves hs₁)).ended hend)

/-! ## A replay to compute with -/

/-- The first refresh token of the flow, presented again. -/
def sampleReplayed : Input := .call (sampleRefresh (sampleDraw 'r' 6)) (sampleEnv 9)

/-- A request with the access token that was authorized before. -/
def sampleReuse : Input := .call (sampleRequest (sampleDraw 'a' 7)) (sampleEnv 10)

example : (playEnd sampleSpike sampleStart (sampleFlow ++ [sampleReplayed])).db.families.rows.map (·.status) =
    [.compromised] := by
  decide +kernel

def sampleFamily : FamilyRow :=
  ⟨sampleId 'f' 6, sampleId 'g' 5, "owner", defaultChatGptClientId, "https://bridge.example/mcp", 60,
    86400050, .active, none, none, 1⟩

def sampleGrant : GrantRow :=
  ⟨sampleId 'g' 5, "owner", defaultChatGptClientId, "https://bridge.example/mcp", ["files:read"],
    "files-read", 50, 86400050, .active⟩

def sampleFirstToken : RefreshRow :=
  ⟨samplePlatform.sha256Hex ("DP-014 refresh token v1\x00" ++ sampleDraw 'r' 6), sampleId 'f' 6, 0, 60,
    86400050, some 70, .consumed⟩

theorem sampleFlow_rows : sampleFamily ∈ (playEnd sampleSpike sampleStart sampleFlow).db.families ∧
    sampleGrant ∈ (playEnd sampleSpike sampleStart sampleFlow).db.grants ∧
    sampleFirstToken ∈ (playEnd sampleSpike sampleStart sampleFlow).db.tokens := by
  decide +kernel

theorem sampleReplayed_replays :
    Replays samplePlatform (playEnd sampleSpike sampleStart sampleFlow).db
      (sampleRefresh (sampleDraw 'r' 6)) (sampleEnv 9) sampleFamily where
  family := sampleFlow_rows.1
  active := rfl
  live := by decide
  grant := ⟨sampleGrant, sampleFlow_rows.2.1, rfl, rfl, by decide⟩
  presented := ⟨_, sampleDraw 'r' 6, ⟨none, rfl, rfl, by decide +kernel⟩, by decide +kernel,
    by decide +kernel, by decide +kernel, sampleFirstToken, sampleFlow_rows.2.2, by decide +kernel, rfl,
    by decide⟩

theorem sampleReplayed_faultless : Faultless StorageFault
    (((sampleRefresh (sampleDraw 'r' 6)).program sampleSpike (sampleEnv 9)).run.run
      (playEnd sampleSpike sampleStart sampleFlow).memory |>.trace authBackend
        (playEnd sampleSpike sampleStart sampleFlow).db) := by
  decide +kernel

example : ((samplePlay (sampleFlow ++ [sampleReplayed, sampleReuse]))[10]?.bind fun x => x.1.authorization) = none := by
  decide +kernel

theorem sampleReuse_held : HeldUnder sampleSpike
    (samplePlay (sampleFlow ++ [sampleReplayed, sampleReuse])) (sampleDraw 'a' 7) (sampleId 'f' 6) := by
  have hheld : ((samplePlay (sampleFlow ++ [sampleReplayed, sampleReuse]))[7]?.bind fun x =>
      (x.2.memory.tokens.lookup (sampleSpike.digest (sampleDraw 'a' 7))).bind (·.tokenFamilyId)) =
        some (sampleId 'f' 6) := by
    decide +kernel
  obtain ⟨⟨e, w⟩, hx, hrecord⟩ := Option.bind_eq_some_iff.mp hheld
  obtain ⟨record, hlook, hid⟩ := Option.bind_eq_some_iff.mp hrecord
  exact ⟨7, e, w, record, hx, hlook, hid⟩

theorem refreshReplay_detected_reuse :
    (∃ f' ∈ (playEnd sampleSpike sampleStart (sampleFlow ++ [sampleReplayed])).db.families,
      f'.id = sampleFamily.id ∧ f'.status = .compromised) ∧
    ∀ a, ¬AuthorizedAt (samplePlay (sampleFlow ++ [sampleReplayed, sampleReuse])) 10
      (sampleDraw 'a' 7) a := by
  have hplay : samplePlay (sampleFlow ++ [sampleReplayed, sampleReuse]) =
      samplePlay sampleFlow ++ play sampleSpike (playEnd sampleSpike sampleStart sampleFlow)
        [sampleReplayed, sampleReuse] := play_append ..
  have hfresh : Fresh (samplePlay (sampleFlow ++ [sampleReplayed, sampleReuse])) :=
    fresh_play.mpr (by decide +kernel)
  have hheld := sampleReuse_held
  rw [hplay] at hfresh hheld
  obtain ⟨hcompromised, -, hdead⟩ := (refreshReplay_detected (O := sampleSpike) samplePlatform_lawful
    (samplePlay_run sampleFlow)).2 _ _ _ _ _ _ _ _ sampleReplayed_replays
    (respond_step sampleSpike _ sampleReplayed) sampleReplayed_faultless
    (play_path sampleSpike _ [sampleReuse]) hfresh
  rw [hplay, playEnd_append, playEnd, playEnd]
  have hlt : (samplePlay sampleFlow).length < 10 := (length_play ..).trans_lt (by decide)
  exact ⟨hcompromised, fun a => hdead 10 _ a hlt hheld⟩

end BegetBridge.Auth
