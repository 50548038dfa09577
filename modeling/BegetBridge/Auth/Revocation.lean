import BegetBridge.Auth.RefusedRefresh

/-!
# Revocation

A revocation that returns has ended the family of the token, and from then on no token of the family is
accepted. For an access token, the process has to know the family: it takes the record of the token from
its memory before it writes to the store, and when the store fails then, the family lives on and the next
revocation of the token, which finds no record, returns all the same.

## Main definitions

* `Event.Revokes`: a revocation of a token
* `RecordsBacked`: the families behind the access tokens of the process
* `LivesUntilRevoked`, `Revocable`: a token that the process has issued and that may be revoked

## Main results

* `revoke_ends`: what a revocation that returns has done
* `held_or_ended`: an access token is known until its family has ended
* `revocation_effective`: a revocation that returns is effective, and stays so
-/

namespace BegetBridge.Auth

open Relational Interleaving Core

/-! ## The store -/

theorem alone_tame : Tame (authBackend.alone StorageFault) where
  exec := rfl
  rely h := h ▸ .refl _
  free _ := trivial

/-- A family that is revoked has ended. -/
theorem revokeFamily_ends {db : AuthDb} {f : FamilyRow} (hf : f ∈ db.families) (at_ : Instant)
    (reason : String) : (db.revokeFamily f.id f.ownerId at_ reason).Ended f.id := by
  refine ⟨_, mem_endFamilies_families.mpr ⟨f, hf, rfl⟩, ?_, ?_⟩
  · split
    · rfl
    · rfl
  · split
    · exact nofun
    · rename_i hsel
      -- it had ended before
      simpa using hsel

section Store

variable {S : AuthStore} {s : AuthDb} {f : FamilyRow} {revokedAt : Option Instant} {reason : String}

/-- What a revocation within the store leaves when it returns. -/
def EndsFamily (id : String) (r : Except Failure Bool) (s' : AuthDb) : Prop :=
  ∀ b, r = .ok b → s'.Ended id

/-- Nothing is owed where the store throws. -/
theorem endsFamily_error {id : String} {e : Failure} : EndsFamily id (.error e) s := by
  rintro _ ⟨⟩

theorem revokeTokenFamily_ends (hf : f ∈ s.families) :
    wpThrow (authBackend.alone StorageFault)
      (AuthStore.revokeTokenFamily f.id f.ownerId revokedAt reason) (EndsFamily f.id) s := by
  have hselect : s.families.select (·.id == f.id) = some f :=
    Table.select_of_mem hf (by simp) fun f' _ hf' => hf'
  rw [AuthStore.revokeTokenFamily, wpThrow_checked_bind]
  refine ⟨fun revoked _ => ?_, fun _ _ => endsFamily_error⟩
  rw [wpThrow_bind]
  refine alone_tame.wp_read (fun _ _ => trivial) (fun _ => rfl) (fun _ _ _ => endsFamily_error) ?_
  rintro s₁ rfl
  rw [onOk_ok, hselect]
  show wpThrow _ (if f.ownerId ≠ f.ownerId then _ else _) _ _
  rw [if_neg fun h => h rfl, wpThrow_bind]
  refine alone_tame.wp_transaction (fun _ _ => trivial) (fun _ _ _ => endsFamily_error) ?_
  rintro u s₁ s₂ rfl he
  obtain ⟨-, rfl⟩ := Prod.mk.inj (Except.ok.inj he)
  exact fun _ _ => revokeFamily_ends hf revoked reason

/-- A refresh token leads the store to its family. -/
theorem revokeRefreshToken_ends {token d : String} {clientId : Option String}
    (hash : hashRefreshToken S.platform token = .ok d) (hd : s.HasToken d f.id) (hf : f ∈ s.families)
    (hclient : ∀ id ∈ clientId, clientIdentifier S.platform id = .ok f.clientId) :
    wpThrow (authBackend.alone StorageFault)
      (S.revokeRefreshToken token clientId revokedAt reason) (EndsFamily f.id) s := by
  obtain ⟨t, ht, hdigest, hid⟩ := hd
  have htoken : s.tokens.select (·.digest == d) = some t := by
    refine Table.select_of_mem ht (by simp [hdigest]) fun t' _ ht' => ?_
    show (t'.digest == t.digest || _) = true
    rw [hdigest, ht', Bool.true_or]
  have hfamily : s.families.select (·.id == t.familyId) = some f :=
    Table.select_of_mem hf (by simp [hid]) fun f' _ hf' => by rw [hid] at hf'; exact hf'
  rw [AuthStore.revokeRefreshToken, wpThrow_checked_bind]
  refine ⟨fun revoked _ => ?_, fun _ _ => endsFamily_error⟩
  rw [hash]
  refine wpThrow_checked_ok ?_
  rw [wpThrow_bind]
  refine alone_tame.wp_read (fun _ _ => trivial) (fun _ => rfl) (fun _ _ _ => endsFamily_error) ?_
  rintro s₁ rfl
  rw [onOk_ok, htoken, Option.bind_some, hfamily]
  rcases clientId with _ | id
  · exact revokeTokenFamily_ends hf
  · dsimp only
    rw [hclient id rfl]
    refine wpThrow_checked_ok ?_
    rw [if_neg fun h => h rfl]
    exact revokeTokenFamily_ends hf

end Store

/-! ## The endpoint -/

/-- The client that a revocation names, if it names one. -/
def revokingClient (params : Params) : Option String := (params.get "client_id").filter (· ≠ "")

section Revoke

variable {O : OAuthSpike} {env : Env} {params : Params} {token : String} {m : Memory} {s : AuthDb}
  {record : TokenRecord} {f : FamilyRow}

/-- A revocation that returns has ended the family of an access token that the process knows, or of a
refresh token that it does not take for an access token. -/
theorem revoke_ends (htoken : params.get "token" = some token) (hf : f ∈ s.families)
    (howner : O.ownerId.isSome)
    (hknown : (∃ record, m.tokens.lookup (O.digest token) = some record ∧
        env.clock 0 < record.expiresAt ∧ (revokingClient params).all (record.clientId = ·) = true ∧
        record.tokenFamilyId = some f.id ∧ record.ownerId = some f.ownerId) ∨
      m.tokens.lookup (O.digest token) = none ∧
        ∃ d, hashRefreshToken O.store.platform token = .ok d ∧ s.HasToken d f.id ∧
          ∀ id ∈ revokingClient params, clientIdentifier O.store.platform id = .ok f.clientId) :
    wpProcess (authBackend.alone StorageFault) (O.revoke env params)
      (fun r _ s' => r = .ok () → s'.Ended f.id) m s := by
  obtain ⟨ownerId, howner⟩ := Option.isSome_iff_exists.mp howner
  rw [OAuthSpike.revoke, OAuthSpike.cleanup, wpProcess_modify_bind, wpProcess_check_bind]
  refine ⟨fun token' htoken' => ?_, by rintro _ _ ⟨⟩⟩
  obtain rfl := Option.some.inj (htoken.symm.trans (requireString_eq_ok htoken').1)
  dsimp only
  rw [wpProcess_get_bind]
  rcases hknown with ⟨record, hlook, hlive, hclient, hfamily, hrecord⟩ |
    ⟨hnone, d, hash, hd, hclient⟩
  · have hfound : ((m.sweep (env.clock 0)).tokens.lookup (O.digest token)).filter (fun access =>
        (revokingClient params).all (access.clientId = ·)) = some record := by
      rw [swept_tokens.mpr ⟨hlook, hlive⟩, Option.filter_some, if_pos hclient]
    rw [revokingClient] at hfound
    rw [hfound]
    dsimp only
    rw [wpProcess_modify_bind, howner, hfamily]
    dsimp only
    rw [wpProcess_bind]
    refine wpProcess_storeOr (wpThrow_withDate (fun e => ?_) ?_)
    · exact ⟨by rintro _ ⟨⟩, by rintro _ _ _ ⟨⟩⟩
    · rw [hrecord]
      refine wpThrow_mono (fun r s' hr => ?_) (revokeTokenFamily_ends hf)
      exact ⟨fun b hb _ => hr b hb, by rintro _ _ _ ⟨⟩⟩
  · have hfound : ((m.sweep (env.clock 0)).tokens.lookup (O.digest token)).filter (fun access =>
        (revokingClient params).all (access.clientId = ·)) = none := by
      rcases hswept : (m.sweep (env.clock 0)).tokens.lookup (O.digest token) with _ | record
      · rfl
      · rw [(swept_tokens.mp hswept).1] at hnone
        cases hnone
    rw [revokingClient] at hfound
    rw [hfound]
    dsimp only
    rw [howner]
    dsimp only
    rw [wpProcess_bind]
    refine wpProcess_storeOr (wpThrow_withDate (fun e => ?_) ?_)
    · exact ⟨by rintro _ ⟨⟩, by rintro _ _ _ ⟨⟩⟩
    · refine wpThrow_mono (fun r s' hr => ?_) (revokeRefreshToken_ends hash hd hf hclient)
      exact ⟨fun b hb _ => hr b hb, by rintro _ _ _ ⟨⟩⟩

/-- A revocation keeps the record of another token, and of a token of another client. -/
theorem revoke_keeps {key : String} (hlook : m.tokens.lookup key = some record)
    (hlive : env.clock 0 < record.expiresAt)
    (hother : ∀ token, params.get "token" = some token → O.digest token = key →
      (revokingClient params).all (record.clientId = ·) = false) :
    wpProcess (authBackend.alone StorageFault) (O.revoke env params)
      (fun _ m' _ => m'.tokens.lookup key = some record) m s := by
  have hswept : (m.sweep (env.clock 0)).tokens.lookup key = some record :=
    swept_tokens.mpr ⟨hlook, hlive⟩
  rw [OAuthSpike.revoke, OAuthSpike.cleanup, wpProcess_modify_bind, wpProcess_check_bind]
  refine ⟨fun token htoken => ?_, fun _ _ => hswept⟩
  have htoken := (requireString_eq_ok htoken).1
  dsimp only
  rw [wpProcess_get_bind]
  rcases hfound : ((m.sweep (env.clock 0)).tokens.lookup (O.digest token)).filter (fun access =>
      (revokingClient params).all (access.clientId = ·)) with _ | access
  · rw [revokingClient] at hfound
    rw [hfound]
    dsimp only
    split
    · exact hswept
    · rw [wpProcess_bind]
      refine wpProcess_storeOr (wpThrow_withDate (fun e => ?_) ?_)
      · exact ⟨by rintro _ ⟨⟩, fun _ _ _ => hswept⟩
      · refine revokeRefreshToken_spec alone_tame (fun _ _ _ _ _ _ _ => trivial) fun r s' _ => ?_
        exact ⟨fun _ _ => hswept, fun _ _ _ => hswept⟩
  · obtain ⟨haccess, hclient⟩ := Option.filter_eq_some_iff.mp hfound
    -- what is taken away is not this record
    have hne : key ≠ O.digest token := by
      rintro rfl
      obtain rfl := Option.some.inj (hswept.symm.trans haccess)
      rw [hother token htoken rfl] at hclient
      cases hclient
    have herased : ((m.sweep (env.clock 0)).tokens.erase (O.digest token)).lookup key = some record :=
      KeyedMap.lookup_erase_iff.mpr ⟨hne, hswept⟩
    rw [revokingClient] at hfound
    rw [hfound]
    dsimp only
    rw [wpProcess_modify_bind]
    split
    · rw [wpProcess_bind]
      refine wpProcess_storeOr (wpThrow_withDate (fun e => ?_) ?_)
      · exact ⟨by rintro _ ⟨⟩, fun _ _ _ => herased⟩
      · refine revokeTokenFamily_spec alone_tame (fun _ _ _ _ _ _ _ _ _ => trivial) fun r s' _ => ?_
        exact ⟨fun _ _ => herased, fun _ _ _ => herased⟩
    · exact herased

end Revoke

/-! ## What the process knows of its access tokens -/

/-- The family behind every access token of the process is in the database, with its owner and client. -/
def RecordsBacked (w : World) : Prop :=
  ∀ key record id, w.memory.tokens.lookup key = some record → record.tokenFamilyId = some id →
    ∃ f ∈ w.db.families, f.id = id ∧ record.ownerId = some f.ownerId ∧ record.clientId = f.clientId

section Backed

variable {O : OAuthSpike} {h : History} {w w' : World} {e : Event}

/-- An access token that a call issues has its family. -/
theorem issuesAs_backed {env : Env} {call : OAuthCall} {m : Memory} {s s' : AuthDb} {record : TokenRecord}
    {id : String} (hi : Integrity O.store.platform s') (hissues : IssuesAs O env m call s s' record)
    (hid : record.tokenFamilyId = some id) :
    ∃ f ∈ s'.families, f.id = id ∧ record.ownerId = some f.ownerId ∧ record.clientId = f.clientId := by
  cases hissues with
  | redeemed hredeems hbacked =>
    rcases hbacked with ⟨-, rfl, rfl⟩ | ⟨ownerId, g, f, s₁, -, rfl, rfl, -, -, -, hred, hopen⟩
    · exact absurd hid nofun
    · refine ⟨f, hopen.mem, Option.some.inj hid, ?_, ?_⟩
      · exact congrArg some hopen.owner.symm
      · exact hred.client.symm.trans hopen.client.symm
  | @refreshed rot f g s₁ s₂ expiresAt hrotates h₁ hrotate h₂ hg =>
    -- the family that was rotated is bound as its grant is
    obtain ⟨f₁, hf₁, hfid, -, hgid⟩ := (rotate_eq_rotated hrotate).family
    obtain ⟨f₂, hf₂, hlater⟩ := ((rotate_evolves hrotate).trans h₂).families f₁ hf₁
    obtain ⟨g', hg', hwithin⟩ := hi.family_grant f₂ hf₂
    have hkept : f₂.id = f₁.id ∧ f₂.grantId = f₁.grantId := by
      rw [hlater.kept]
      exact ⟨rfl, rfl⟩
    obtain rfl := grant_eq_of_id hg' hg (hwithin.id.trans (hkept.2.trans hgid))
    refine ⟨f₂, hf₂, ?_, congrArg some hwithin.owner, hwithin.client⟩
    exact (hkept.1.trans hfid).trans (Option.some.inj hid)

theorem backed_of_evolves (hb : RecordsBacked w) (hmemory : w'.memory.tokens = w.memory.tokens)
    (hdb : Evolves w.db w'.db) : RecordsBacked w' := by
  intro key record id hlook hid
  rw [hmemory] at hlook
  obtain ⟨f, hf, hfid, howner, hclient⟩ := hb key record id hlook hid
  obtain ⟨f', hf', hlater⟩ := hdb.families f hf
  refine ⟨f', hf', ?_⟩
  rw [hlater.kept]
  exact ⟨hfid, howner, hclient⟩

theorem step_backed (hi : Integrity O.store.platform w.db) (hb : RecordsBacked w)
    (hs : OAuthStep O w e w') : RecordsBacked w' := by
  have hdb := step_evolves hs
  have hi' := (step_additions hi hs).1
  cases hs with
  | call hrun =>
    intro key record id hlook hid
    rcases outcome_tokens (call_outcome hrun) hlook with hold | ⟨-, hissues⟩
    · obtain ⟨f, hf, hfid, howner, hclient⟩ := hb key record id hold hid
      obtain ⟨f', hf', hlater⟩ := hdb.families f hf
      refine ⟨f', hf', ?_⟩
      rw [hlater.kept]
      exact ⟨hfid, howner, hclient⟩
    · exact issuesAs_backed hi' hissues hid
  | crash => exact fun _ _ _ hlook => absurd hlook nofun
  | restart => exact fun _ _ _ hlook => absurd hlook nofun
  | admin => exact backed_of_evolves hb rfl hdb

theorem run_backed (hr : OAuthRun O h w) : RecordsBacked w := by
  obtain ⟨id, hp⟩ := hr
  exact (hp.invariant (I := fun w => Integrity O.store.platform w.db ∧ RecordsBacked w)
    ⟨integrity_empty, fun _ _ _ hlook => absurd hlook nofun⟩
    fun hw hs => ⟨(step_additions hw.1 hs).1, step_backed hw.1 hw.2 hs⟩).2

/-- A call that is no revocation keeps a record that has not expired. -/
theorem outcome_keeps {env : Env} {call : OAuthCall} {m m' : Memory} {s s' : AuthDb}
    {r : Except Thrown OAuthReply} {key : String} {record : TokenRecord}
    (h : Outcome O env m s s' call r m') (hcall : ∀ params, call ≠ .revoke params)
    (hlook : m.tokens.lookup key = some record) (hlive : env.clock 0 < record.expiresAt)
    (hkey : key ≠ O.digest env.draws.accessToken) : m'.tokens.lookup key = some record := by
  have hswept : (swept env m).tokens.lookup key = some record := swept_tokens.mpr ⟨hlook, hlive⟩
  cases h with
  | redeemed => exact KeyedMap.lookup_insert_iff.mpr (.inr ⟨hkey, hswept⟩)
  | refreshed => exact KeyedMap.lookup_insert_iff.mpr (.inr ⟨hkey, hswept⟩)
  | revokeKept params => exact absurd rfl (hcall params)
  | revokeDropped params => exact absurd rfl (hcall params)
  | _ => first | exact hlook | exact hswept

end Backed

/-! ## Runs -/

/-- The event is a revocation of the token, by nobody in particular or by the client. -/
def Event.Revokes (e : Event) (token clientId : String) (reply : Except Thrown OAuthReply) : Prop :=
  ∃ params env trace, e = .call (.revoke params) env reply trace ∧ params.get "token" = some token ∧
    (revokingClient params).all (clientId = ·) = true

/-- Since the process has the record of an access token, it has not stopped. No call up to the first
revocation of the token has read a time at which the token is expired. -/
structure LivesUntilRevoked (record : TokenRecord) (token : String) (h : History) : Prop where
  lives : ∀ x ∈ h, x.1.Lives
  unexpired : ∀ k call env, MadeAt h k call env →
    (∀ j x reply, j < k → h[j]? = some x → ¬x.1.Revokes token record.clientId reply) →
    env.clock 0 < record.expiresAt

/-- The process has issued the token under the family: it is an access token whose record it had at
`w₁`, before the events of `h`, or a refresh token. -/
inductive Revocable (O : OAuthSpike) (w₁ w : World) (h : History) (token : String) (f : FamilyRow) : Prop
  | access {record : TokenRecord} (hheld : w₁.memory.tokens.lookup (O.digest token) = some record)
    (hfamily : record.tokenFamilyId = some f.id) (hlives : LivesUntilRevoked record token h)
  | refresh {d : String} (hash : hashRefreshToken O.store.platform token = .ok d)
    (hd : w.db.HasToken d f.id)

section Runs

variable {O : OAuthSpike} {h h₁ h₂ h₃ : History} {w w' w'' w₁ : World} {e : Event}

/-- A revocation ends as its program does, whatever fails in the store. -/
theorem revoke_sound {params : Params} {env : Env} {reply : Except Thrown OAuthReply}
    {trace : List (Entry Sql SqlError)} {Q : Except Thrown Unit → Memory → AuthDb → Prop}
    (hq : wpProcess (authBackend.alone StorageFault) (O.revoke env params) Q w.memory w.db)
    (hs : OAuthStep O w (.call (.revoke params) env reply trace) w') :
    ∃ x : Except Thrown Unit, reply = x.map (fun _ => .done) ∧ Q x w'.memory w'.db := by
  have hcall : wpProcess (authBackend.alone StorageFault) ((OAuthCall.revoke params).program O env)
      (fun x m s => ∃ y : Except Thrown Unit, x = y.map (fun _ => .done) ∧ Q y m s) w.memory w.db := by
    rw [OAuthCall.program, wpProcess_bind]
    refine wp_mono (fun x s hx => ?_) hq
    rcases x with ⟨_ | _, m⟩
    · exact ⟨_, rfl, hx⟩
    · exact ⟨.ok (), rfl, hx⟩
  cases hs with
  | call hrun => exact wp_sound Backend.alone_idle hcall hrun

theorem LivesUntilRevoked.of_append {record : TokenRecord} {token : String} {h h' : History}
    (hl : LivesUntilRevoked record token (h ++ h')) : LivesUntilRevoked record token h where
  lives x hx := hl.lives x (List.mem_append_left _ hx)
  unexpired k call env hmade hno := by
    refine hl.unexpired k call env hmade.append fun j x reply hj hx => hno j x reply hj ?_
    rwa [List.getElem?_append_left (hj.trans hmade.lt)] at hx

/-- **An access token is known until its family has ended**, where no revocation of it has failed. -/
theorem held_or_ended (hP : O.store.platform.Lawful) (howner : O.ownerId.isSome) (hr : OAuthRun O h₁ w₁)
    (hp : Path (OAuthStep O) w₁ h w) {token id : String} {record : TokenRecord}
    (hheld : w₁.memory.tokens.lookup (O.digest token) = some record)
    (hfamily : record.tokenFamilyId = some id) (hlives : LivesUntilRevoked record token h)
    (hnew : ∀ x ∈ h, ∀ call env, x.1.made = some (call, env) →
      O.digest token ≠ O.digest env.draws.accessToken)
    (hkept : ∀ x ∈ h, ∀ e, ¬x.1.Revokes token record.clientId (.error e)) :
    (w.memory.tokens.lookup (O.digest token) = some record ∧
      ∀ x ∈ h, ∀ reply, ¬x.1.Revokes token record.clientId reply) ∨ w.db.Ended id := by
  revert hlives hnew hkept
  refine hp.history (I := fun h w => LivesUntilRevoked record token h →
    (∀ x ∈ h, ∀ call env, x.1.made = some (call, env) →
      O.digest token ≠ O.digest env.draws.accessToken) →
    (∀ x ∈ h, ∀ e, ¬x.1.Revokes token record.clientId (.error e)) →
    (w.memory.tokens.lookup (O.digest token) = some record ∧
      ∀ x ∈ h, ∀ reply, ¬x.1.Revokes token record.clientId reply) ∨ w.db.Ended id)
    (fun _ _ _ => .inl ⟨hheld, fun _ hx => absurd hx List.not_mem_nil⟩) ?_
  intro h w e w' hp ih hs hlives hnew hkept
  have hlast : (e, w') ∈ h ++ [(e, w')] := List.mem_append_right _ (List.mem_singleton.mpr rfl)
  rcases ih hlives.of_append (fun x hx => hnew x (List.mem_append_left _ hx))
    (fun x hx => hkept x (List.mem_append_left _ hx)) with ⟨hlook, hnone⟩ | hend
  · have hsnoc : (∀ reply, ¬e.Revokes token record.clientId reply) →
        ∀ x ∈ h ++ [(e, w')], ∀ reply, ¬x.1.Revokes token record.clientId reply := by
      intro hno x hx
      rcases List.mem_append.mp hx with hx | hx
      · exact hnone x hx
      · rw [List.mem_singleton.mp hx]
        exact hno
    have hunexpired : ∀ call env, e.made = some (call, env) → env.clock 0 < record.expiresAt := by
      intro call env hmade
      refine hlives.unexpired h.length call env (madeAt_last hmade) fun j x reply hj hx => ?_
      rw [List.getElem?_append_left hj] at hx
      exact hnone x (List.mem_of_getElem? hx) reply
    cases hs with
    | @call call env m m' db db' reply trace hrun =>
      have hlive := hunexpired call env rfl
      have hkey := hnew _ hlast call env rfl
      by_cases hrevoke : ∃ params, call = .revoke params
      · obtain ⟨params, rfl⟩ := hrevoke
        by_cases hmatch : params.get "token" = some token ∧
            (revokingClient params).all (record.clientId = ·) = true
        · -- the revocation returns, so the family has ended
          obtain ⟨hi, hb⟩ : Integrity O.store.platform db ∧ RecordsBacked ⟨m, db⟩ := by
            obtain ⟨id₀, hp₀⟩ := hr
            exact ⟨run_integrity ⟨id₀, hp₀.trans hp⟩, run_backed ⟨id₀, hp₀.trans hp⟩⟩
          obtain ⟨f, hf, rfl, hrecord, -⟩ := hb _ record id hlook hfamily
          obtain ⟨x, rfl, hx⟩ := revoke_sound (revoke_ends hmatch.1 hf howner
            (.inl ⟨record, hlook, hlive, hmatch.2, hfamily, hrecord⟩)) (.call hrun)
          rcases x with e | _
          · exact absurd ⟨params, env, trace, rfl, hmatch⟩ (hkept _ hlast e)
          · exact .inr (hx rfl)
        · have hother : ∀ token', params.get "token" = some token' → O.digest token' = O.digest token →
              (revokingClient params).all (record.clientId = ·) = false := by
            intro token' htoken' heq
            obtain rfl : token' = token := hP.hex_injective heq
            exact Bool.eq_false_iff.mpr fun hclient => hmatch ⟨htoken', hclient⟩
          obtain ⟨x, rfl, hx⟩ := revoke_sound (revoke_keeps hlook hlive hother) (.call hrun)
          refine .inl ⟨hx, hsnoc ?_⟩
          rintro reply ⟨params', env', trace', he, htoken', hclient'⟩
          cases he
          exact hmatch ⟨htoken', hclient'⟩
      · refine .inl ⟨outcome_keeps (call_outcome hrun) (fun params hcall => hrevoke ⟨params, hcall⟩) hlook
          hlive hkey, hsnoc ?_⟩
        rintro reply ⟨params, env', trace', he, -⟩
        cases he
        exact hrevoke ⟨params, rfl⟩
    | crash => exact (hlives.lives _ hlast).elim
    | restart => exact (hlives.lives _ hlast).elim
    | admin =>
      refine .inl ⟨hlook, hsnoc ?_⟩
      rintro reply ⟨params, env, trace, he, -⟩
      cases he
  · exact .inr ((step_evolves hs).ended hend)

/-- The values that a call draws are different ones. -/
theorem draws_ne (hf : Fresh h) {k : Nat} {call : OAuthCall} {env : Env} (hm : MadeAt h k call env) :
    env.draws.accessToken ≠ env.draws.refreshToken := by
  obtain ⟨e, w, hx, hmade⟩ := hm
  have hnodup := (List.nodup_flatMap.mp hf).1 (e, w) (List.mem_of_getElem? hx)
  simp only [Event.draws, hmade, Draws.tokens, List.nodup_cons, List.mem_cons, List.not_mem_nil] at hnodup
  exact fun heq => hnodup.2.2.1 (.inl heq)

/-- A refresh token is no access token. -/
theorem lookup_refresh (hP : O.store.platform.Lawful) (hr : OAuthRun O h w) (hf : Fresh h)
    {token d : String} {f : FamilyRow} (hash : hashRefreshToken O.store.platform token = .ok d)
    (hmem : f ∈ w.db.families) (hd : w.db.HasToken d f.id) :
    w.memory.tokens.lookup (O.digest token) = none := by
  have ho := run_origin hP hr
  obtain ⟨φ, hφ⟩ := ho.families f hmem
  obtain ⟨l, call, eₗ, -, hmade, hdraw⟩ := hφ.tokens d hd
  obtain rfl := hashRefreshToken_injective hP hash hdraw
  by_contra hsome
  obtain ⟨record, hrecord⟩ := Option.ne_none_iff_exists'.mp hsome
  obtain ⟨φ', l', call', eₗ', -, -, hmade', hkey, -⟩ := ho.memory.tokens _ record hrecord
  have heq : eₗ.draws.refreshToken = eₗ'.draws.accessToken := hP.hex_injective hkey
  -- one call would have drawn it twice
  have hplace := place_eq hf hmade hmade' (Draws.refreshToken_mem _) (heq ▸ Draws.accessToken_mem _)
  subst hplace
  obtain ⟨-, rfl⟩ := hmade.unique hmade'
  exact draws_ne hf hmade heq.symm

/-- A call made after the process had the record of an access token draws another one. -/
theorem draws_new (hP : O.store.platform.Lawful) (hr : OAuthRun O h₁ w₁) (hf : Fresh (h₁ ++ h₂))
    {token : String} {record : TokenRecord}
    (hheld : w₁.memory.tokens.lookup (O.digest token) = some record) :
    ∀ x ∈ h₂, ∀ call env, x.1.made = some (call, env) →
      O.digest token ≠ O.digest env.draws.accessToken := by
  intro x hx call env hmade heq
  obtain ⟨k, hk⟩ := List.mem_iff_getElem?.mp hx
  obtain ⟨φ, l, call₀, e₀, -, -, hmade₀, hkey, -⟩ := (run_origin hP hr).memory.tokens _ record hheld
  have hdraw : e₀.draws.accessToken = env.draws.accessToken := hP.hex_injective (hkey.symm.trans heq)
  have hlater : MadeAt (h₁ ++ h₂) (h₁.length + k) call env := by
    refine ⟨x.1, x.2, ?_, hmade⟩
    rw [List.getElem?_append_right (Nat.le_add_right _ _), Nat.add_sub_cancel_left]
    exact hk
  have hplace := place_eq hf hmade₀.append hlater (Draws.accessToken_mem _)
    (hdraw ▸ Draws.accessToken_mem _)
  have hlt := hmade₀.lt
  omega

/-- **A revocation that returns is effective**: the family of the token has ended, none of its refresh
tokens rotates any more, and no access token ever issued under it authenticates. For an access token, no
revocation of it may have failed before. -/
theorem revocation_effective (hP : O.store.platform.Lawful) (howner : O.ownerId.isSome)
    (hr : OAuthRun O h₁ w₁) (hp : Path (OAuthStep O) w₁ h₂ w) {params : Params} {env : Env}
    {reply : OAuthReply} {trace : List (Entry Sql SqlError)}
    (hs : OAuthStep O w (.call (.revoke params) env (.ok reply) trace) w')
    (hp' : Path (OAuthStep O) w' h₃ w'')
    (hfresh : Fresh (h₁ ++ (h₂ ++ (.call (.revoke params) env (.ok reply) trace, w') :: h₃)))
    {token : String} {f : FamilyRow} (htoken : params.get "token" = some token)
    (hclient : (revokingClient params).all (f.clientId = ·) = true) (hf : f ∈ w.db.families)
    (hissued : Revocable O w₁ w (h₂ ++ [(.call (.revoke params) env (.ok reply) trace, w')]) token f)
    (hkept : (∃ d, hashRefreshToken O.store.platform token = .ok d ∧ w.db.HasToken d f.id) ∨
      ∀ x ∈ h₂, ∀ e, ¬x.1.Revokes token f.clientId (.error e)) :
    w'.db.Ended f.id ∧ (∀ d, w''.db.HasToken d f.id → (h₃.map fun x => x.1.accepts d).sum = 0) ∧
      ∀ k token' a, (h₁ ++ h₂).length < k →
        HeldUnder O (h₁ ++ (h₂ ++ (.call (.revoke params) env (.ok reply) trace, w') :: h₃)) token' f.id →
        ¬AuthorizedAt (h₁ ++ (h₂ ++ (.call (.revoke params) env (.ok reply) trace, w') :: h₃)) k token'
          a := by
  have hrun : OAuthRun O (h₁ ++ h₂) w := by
    obtain ⟨id₀, hp₀⟩ := hr
    exact ⟨id₀, hp₀.trans hp⟩
  have hassoc : h₁ ++ (h₂ ++ (Event.call (.revoke params) env (.ok reply) trace, w') :: h₃) =
      (h₁ ++ h₂ ++ [(.call (.revoke params) env (.ok reply) trace, w')]) ++ h₃ := by simp
  have hf₁ : Fresh (h₁ ++ h₂ ++ [(.call (.revoke params) env (.ok reply) trace, w')]) :=
    (hassoc ▸ hfresh).of_append
  have hi := run_integrity hrun
  have hend : w'.db.Ended f.id := by
    have hrefresh : ∀ d, hashRefreshToken O.store.platform token = .ok d → w.db.HasToken d f.id →
        w'.db.Ended f.id := by
      intro d hash hd
      have hown : ∀ id ∈ revokingClient params, clientIdentifier O.store.platform id = .ok f.clientId := by
        intro id hid
        rw [hid, Option.all_some, decide_eq_true_iff] at hclient
        exact hclient ▸ hi.family_client hP hf
      obtain ⟨x, hreply, hx⟩ := revoke_sound (revoke_ends htoken hf howner (.inr
        ⟨lookup_refresh hP hrun hf₁.of_append hash hf hd, d, hash, hd, hown⟩)) hs
      rcases x with e | _
      · exact absurd hreply nofun
      · exact hx rfl
    rcases hkept with ⟨d, hash, hd⟩ | hkept
    · exact hrefresh d hash hd
    cases hissued with
    | refresh hash hd => exact hrefresh _ hash hd
    | @access record hheld hfamily hlives =>
      -- the record names the client of the family
      obtain ⟨f₁, hmem₁, hid₁, -, hclient₁⟩ := run_backed hr _ record f.id hheld hfamily
      obtain ⟨f₂, hmem₂, hlater⟩ := (path_evolves hp).families f₁ hmem₁
      obtain rfl := family_eq_of_id hmem₂ hf ((by rw [hlater.kept] : f₂.id = f₁.id).trans hid₁)
      have hsame : record.clientId = f₂.clientId := by
        rw [hlater.kept]
        exact hclient₁
      rw [← hsame] at hclient hkept
      have hnew := draws_new hP hr (by simpa using hf₁) hheld
      have hnofail : ∀ x ∈ h₂ ++ [(Event.call (.revoke params) env (.ok reply) trace, w')], ∀ e,
          ¬x.1.Revokes token record.clientId (.error e) := by
        intro x hx e
        rcases List.mem_append.mp hx with hx | hx
        · exact hkept x hx e
        · rw [List.mem_singleton.mp hx]
          rintro ⟨params', env', trace', he, -⟩
          cases he
      rcases held_or_ended hP howner hr (hp.snoc hs) hheld hfamily hlives hnew hnofail with
        ⟨-, hnone⟩ | hend
      · -- this revocation is one that names the record
        exact absurd ⟨params, env, trace, rfl, htoken, hclient⟩
          (hnone _ (List.mem_append_right _ (List.mem_singleton.mpr rfl)) (.ok reply))
      · exact hend
  refine ⟨hend, fun d hd => path_accepts_ended hp' hend hd, ?_⟩
  intro k token' a hk hheld ha
  have hwhole : OAuthRun O (h₁ ++ (h₂ ++ (Event.call (.revoke params) env (.ok reply) trace, w') :: h₃))
      w'' := by
    obtain ⟨id₀, hp₀⟩ := hrun
    exact ⟨id₀, hassoc ▸ (hp₀.snoc hs).trans hp'⟩
  obtain ⟨header, env₂, trace₂, w₂, hx, -⟩ := authorizedAt_iff.mp ha
  -- the request comes after the revocation
  have hlives := authorized_family_lives hP hwhole hfresh howner hheld hx ha
  rw [hassoc, List.getElem?_append_right (by rw [List.length_append]; exact hk)] at hx
  obtain ⟨w₃, hp₃, hs₃, -⟩ := hp'.step_at hx
  exact hlives (((path_evolves hp₃).trans (step_evolves hs₃)).ended hend)

end Runs

/-! ## A sample -/

/-- A revocation by nobody in particular. -/
def sampleRevoke (token : String) : OAuthCall := .revoke [("token", token)]

example : (sampleAnswerAt sampleWorld (sampleRevoke (sampleDraw 'r' 7)) 9).2.db.families.rows.map (·.status) =
    [.revoked] := by
  decide +kernel

/-- The record of the access token that the sample flow ends with. -/
def sampleRecord : TokenRecord :=
  ⟨defaultChatGptClientId, "https://bridge.example/mcp", ["files:read"], some (sampleId 'g' 5),
    some "owner", some "files-read", some 86400050, some (sampleId 'f' 6), 600070⟩

theorem sampleRecord_held :
    sampleWorld.memory.tokens.lookup (sampleSpike.digest (sampleDraw 'a' 7)) = some sampleRecord := by
  decide +kernel

/-- A call without failures in the store. -/
theorem sampleAnswerAt_step {w : World} {call : OAuthCall} {n : Fin 16} {reply : Except Thrown OAuthReply}
    (h : (sampleAnswerAt w call n).1 = reply) : ∃ trace,
      OAuthStep sampleSpike w (.call call (sampleEnv n) reply trace) (sampleAnswerAt w call n).2 := by
  subst h
  exact ⟨_, respond_step sampleSpike w (.call call (sampleEnv n))⟩

/-- A call after the inputs of a run, whatever its reply. -/
theorem fresh_samplePlay_snoc {is : List Input} {call : OAuthCall} {n : Fin 16}
    (h : ((is ++ [Input.call call (sampleEnv n)]).flatMap Input.draws).Nodup)
    (reply : Except Thrown OAuthReply) (trace : List (Entry Sql SqlError)) (w : World) :
    Fresh (samplePlay is ++ [(.call call (sampleEnv n) reply trace, w)]) := by
  have hfresh : Fresh (samplePlay (is ++ [.call call (sampleEnv n)])) := fresh_play.mpr h
  rw [samplePlay, play_append, Fresh, List.flatMap_append] at hfresh
  rw [Fresh, List.flatMap_append]
  exact hfresh

/-- The access token is revoked at once. -/
theorem revocation_effective_access : ∃ trace w',
    OAuthStep sampleSpike sampleWorld
      (.call (sampleRevoke (sampleDraw 'a' 7)) (sampleEnv 9) (.ok .done) trace) w' ∧
    w'.db.Ended (sampleId 'f' 6) := by
  have hreply : (sampleAnswerAt sampleWorld (sampleRevoke (sampleDraw 'a' 7)) 9).1 = .ok .done := by
    decide +kernel
  obtain ⟨trace, hs⟩ := sampleAnswerAt_step hreply
  have hdraws : ((sampleFlow ++ [Input.call (sampleRevoke (sampleDraw 'a' 7)) (sampleEnv 9)]).flatMap
      Input.draws).Nodup := by decide +kernel
  have hfresh := fresh_samplePlay_snoc hdraws (.ok .done) trace
  refine ⟨trace, _, hs, (revocation_effective samplePlatform_lawful rfl (samplePlay_run sampleFlow) .nil
    hs .nil (hfresh _) rfl (f := { sampleFamily with currentGeneration := 1 }) rfl (by decide +kernel)
    (.access sampleRecord_held rfl ⟨?_, ?_⟩) (.inr fun x hx => absurd hx List.not_mem_nil)).1⟩
  · intro x hx
    rw [List.mem_singleton.mp hx]
    exact trivial
  · rintro (_ | k) call env ⟨e, w, hx, hmade⟩ -
    · cases hx
      cases hmade
      decide
    · exact absurd hx nofun

/-- The run whose first statement meets a failure of the storage. -/
def faulted {α : Type} : Prog Sql SqlError α → AuthDb → List (Entry Sql SqlError) × α × AuthDb
  | .done a, s => ([], a, s)
  | .call op k, s => (⟨op, .error .storage⟩ :: (k (.error .storage)).trace authBackend s,
      (k (.error .storage)).eval authBackend s)

theorem faulted_runs {α : Type} (p : Prog Sql SqlError α) (s : AuthDb) :
    Runs authBackend StorageFault p s (faulted p s).1 (faulted p s).2.1 (faulted p s).2.2 := by
  cases p with
  | done a => exact .done a s
  | call op k => exact .call (.fault rfl) (eval_runs _ s)

/-- What the process answers when the first statement of a call fails, and where that leads. -/
def sampleFaultAt (w : World) (call : OAuthCall) (n : Fin 16) : Except Thrown OAuthReply × World :=
  let p := faulted ((call.program sampleSpike (sampleEnv n)).run.run w.memory) w.db
  (p.2.1.1, ⟨p.2.1.2, p.2.2⟩)

theorem sampleFaultAt_step {w : World} {call : OAuthCall} {n : Fin 16} {reply : Except Thrown OAuthReply}
    (h : (sampleFaultAt w call n).1 = reply) : ∃ trace,
      OAuthStep sampleSpike w (.call call (sampleEnv n) reply trace) (sampleFaultAt w call n).2 := by
  subst h
  exact ⟨_, .call (faulted_runs ((call.program sampleSpike (sampleEnv n)).run.run w.memory) w.db)⟩

/-- A revocation fails with the store, and the next one returns: the family is active. -/
theorem revocation_lost : ∃ trace trace' w w',
    OAuthRun sampleSpike (samplePlay sampleFlow ++
      [(.call (sampleRevoke (sampleDraw 'a' 7)) (sampleEnv 9) (.error (.oauth (oauthError
          .temporarilyUnavailable "Token revocation state is unavailable" 503))) trace, w),
        (.call (sampleRevoke (sampleDraw 'a' 7)) (sampleEnv 10) (.ok .done) trace', w')]) w' ∧
    sampleWorld.memory.tokens.lookup (sampleSpike.digest (sampleDraw 'a' 7)) = some sampleRecord ∧
    ∃ f ∈ w'.db.families, some f.id = sampleRecord.tokenFamilyId ∧ f.status = .active := by
  obtain ⟨hfails, hreturns, hfamily⟩ :
      (sampleFaultAt sampleWorld (sampleRevoke (sampleDraw 'a' 7)) 9).1 = .error (.oauth
        (oauthError .temporarilyUnavailable "Token revocation state is unavailable" 503)) ∧
      (sampleAnswerAt (sampleFaultAt sampleWorld (sampleRevoke (sampleDraw 'a' 7)) 9).2
        (sampleRevoke (sampleDraw 'a' 7)) 10).1 = .ok .done ∧
      { sampleFamily with currentGeneration := 1 } ∈
        (sampleAnswerAt (sampleFaultAt sampleWorld (sampleRevoke (sampleDraw 'a' 7)) 9).2
          (sampleRevoke (sampleDraw 'a' 7)) 10).2.db.families := by
    decide +kernel
  obtain ⟨trace, hfault⟩ := sampleFaultAt_step hfails
  obtain ⟨trace', hretry⟩ := sampleAnswerAt_step hreturns
  obtain ⟨id, hp⟩ := samplePlay_run sampleFlow
  have hrun := (hp.snoc hfault).snoc hretry
  rw [List.append_assoc] at hrun
  exact ⟨trace, trace', _, _, ⟨id, hrun⟩, sampleRecord_held, _, hfamily, rfl, rfl⟩

end BegetBridge.Auth
