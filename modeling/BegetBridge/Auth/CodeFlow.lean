import BegetBridge.Auth.Provenance

/-!
# Soundness of the authorization-code flow

In every run in which no random value is drawn twice, an authorized request goes back to exactly
one transaction, and a code answers at most one exchange.

## Main definitions

* `AuthorizedAt`, `PresentedAt`, `AnsweredAt`: the events of a history that the statement speaks of
* `StemsFrom`: an access token goes back to a flow

## Main results

* `StemsFrom.unique`: to at most one
* `codeFlow_sound`: soundness of the flow
-/

namespace BegetBridge.Auth

open Relational Interleaving Core

/-- The access token and the authorization of a request that is let in. -/
def Event.authorization : Event → Option (String × Authorization)
  | .call (.authenticate header) _ (.ok (.authorized (some a))) _ =>
    (bearerToken header).map fun token => (token, a)
  | _ => none

/-- The request at place `e` presents this access token and is authorized. -/
def AuthorizedAt (h : History) (e : Nat) (token : String) (a : Authorization) : Prop :=
  (h[e]?.bind fun x => x.1.authorization) = some (token, a)

theorem authorizedAt_iff {h : History} {e : Nat} {token : String} {a : Authorization} :
    AuthorizedAt h e token a ↔ ∃ header env trace w,
      h[e]? = some (.call (.authenticate header) env (.ok (.authorized (some a))) trace, w) ∧
      bearerToken header = some token := by
  constructor
  · intro ha
    obtain ⟨⟨ev, w⟩, hx, hev⟩ := Option.bind_eq_some_iff.mp ha
    cases ev with
    | call call env reply trace =>
      cases call with
      | authenticate header =>
        rcases reply with e | ⟨_ | _ | _ | _ | _ | _ | _⟩ <;> try cases hev
        rename_i o
        cases o with
        | none => cases hev
        | some a' =>
          obtain ⟨_, htoken, he⟩ := Option.map_eq_some_iff.mp hev
          obtain ⟨rfl, rfl⟩ := Prod.mk.inj he
          exact ⟨header, env, trace, w, hx, htoken⟩
      | _ => cases hev
    | _ => cases hev
  · rintro ⟨header, env, trace, w, hx, htoken⟩
    rw [AuthorizedAt, hx]
    exact Option.map_eq_some_iff.mpr ⟨token, htoken, rfl⟩

/-- The call at place `k` presents the code to the authorization-code exchange. -/
def PresentedAt (h : History) (k : Nat) (code : String) : Prop :=
  ∃ call env, MadeAt h k call env ∧ call.PresentsCode code

/-- The exchange of the code at place `k` answers with tokens. -/
def AnsweredAt (h : History) (k : Nat) (code : String) : Prop :=
  ∃ call env reply trace w, h[k]? = some (.call call env (.ok reply) trace, w) ∧
    call.PresentsCode code

/-- The access token was issued by the redemption of the flow or by a refresh that carries it. -/
structure StemsFrom (O : OAuthSpike) (h : History) (token : String) (φ : Flow) : Prop where
  lineage : Lineage O h φ
  issued : ∃ l call eₗ, Carries h φ.redeemed l ∧ MadeAt h l call eₗ ∧ token = eₗ.draws.accessToken

/-- No other call is let approve the transaction of the flow. -/
def ApprovedOnce (h : History) (φ : Flow) : Prop :=
  ∀ (j : Nat) id secret env reply trace w,
    h[j]? = some (.call (.approve id secret) env (.ok reply) trace, w) →
    id.getD "" = φ.beginEnv.draws.transactionId → j = φ.approved

section

variable {O : OAuthSpike} {h : History} {w : World} {token : String} {φ φ' : Flow}

theorem StemsFrom.append {h' : History} (hs : StemsFrom O h token φ) :
    StemsFrom O (h ++ h') token φ := by
  obtain ⟨l, call, eₗ, hcar, hmade, htoken⟩ := hs.issued
  exact ⟨hs.lineage.append, l, call, eₗ, hcar.append, hmade.append, htoken⟩

theorem MadeAt.take {k i : Nat} {call : OAuthCall} {env : Env} (hi : MadeAt h i call env)
    (hik : i < k) : MadeAt (h.take k) i call env := by
  have hall : MadeAt (h.take k ++ h.drop k) i call env := by rwa [List.take_append_drop]
  refine hall.of_append ?_
  rw [List.length_take]
  exact lt_min hik hi.lt

/-- A redeemed code is presented, and nothing else is, where it is redeemed. -/
theorem Carries.redeemed_unique (hf : Fresh h) {k k' l : Nat} (hc : Carries h k l)
    (hc' : Carries h k' l) {call call' : OAuthCall} {env env' : Env} {v v' : String}
    (hk : MadeAt h k call env) (hv : call.PresentsCode v) (hk' : MadeAt h k' call' env')
    (hv' : call'.PresentsCode v') : k = k' := by
  induction hc generalizing k' with
  | root =>
    cases hc' with
    | root => rfl
    | next _ _ hl hp =>
      obtain ⟨rfl, rfl⟩ := hl.unique hk
      exact (hv.not_refresh hp).elim
  | next hc h₀ hl hp ih =>
    cases hc' with
    | root =>
      obtain ⟨rfl, rfl⟩ := hl.unique hk'
      exact (hv'.not_refresh hp).elim
    | next hc' h₀' hl' hp' =>
      obtain ⟨rfl, rfl⟩ := hl.unique hl'
      have heq := hp.unique hp'
      obtain rfl := place_eq hf h₀ h₀' (Draws.refreshToken_mem _) (heq ▸ Draws.refreshToken_mem _)
      exact ih hc' hk'

/-- **An access token stems from one flow.** -/
theorem StemsFrom.unique (hf : Fresh h) (hs : StemsFrom O h token φ) (hs' : StemsFrom O h token φ') :
    φ'.begun = φ.begun ∧ φ'.approved = φ.approved ∧ φ'.redeemed = φ.redeemed := by
  obtain ⟨l, call, eₗ, hcar, hmade, rfl⟩ := hs.issued
  obtain ⟨l', call', eₗ', hcar', hmade', htoken⟩ := hs'.issued
  obtain rfl := place_eq hf hmade hmade' (Draws.accessToken_mem _)
    (htoken ▸ Draws.accessToken_mem _)
  obtain ⟨call₁, params, hk, hpres, -⟩ := hs.lineage.redeemed
  obtain ⟨call₁', params', hk', hpres', -⟩ := hs'.lineage.redeemed
  have hredeemed := hcar'.redeemed_unique hf hcar hk' hpres' hk hpres
  rw [hredeemed] at hk'
  obtain ⟨rfl, -⟩ := hk.unique hk'
  obtain ⟨id, secret, hj, hid, -⟩ := hs.lineage.approved.approved
  obtain ⟨id', secret', hj', hid', -⟩ := hs'.lineage.approved.approved
  have hcode := hpres.unique hpres'
  have happroved := place_eq hf hj' hj (Draws.code_mem _) (hcode ▸ Draws.code_mem _)
  rw [happroved] at hj'
  obtain ⟨he, -⟩ := hj.unique hj'
  obtain ⟨rfl, -⟩ := OAuthCall.approve.inj he
  obtain ⟨_, hi⟩ := hs.lineage.approved.begun.made
  obtain ⟨_, hi'⟩ := hs'.lineage.approved.begun.made
  have hbegun := place_eq hf hi' hi (Draws.transactionId_mem _)
    ((hid.symm.trans hid') ▸ Draws.transactionId_mem _)
  exact ⟨hbegun, happroved, hredeemed⟩

variable (hP : O.store.platform.Lawful) (hr : OAuthRun O h w)

include hP hr

/-- A completed call at a place of a run: what held before it, and its outcome. -/
theorem run_call_at {k : Nat} {call : OAuthCall} {env : Env} {reply : Except Thrown OAuthReply}
    {trace : List (Entry Sql SqlError)} {w' : World}
    (hx : h[k]? = some (.call call env reply trace, w')) :
    ∃ w₀, RunOrigin O (h.take k) w₀ ∧
      Outcome O env w₀.memory w₀.db w'.db call reply w'.memory := by
  obtain ⟨w₀, hr₀, hs, -⟩ := run_at hr hx
  exact ⟨w₀, run_origin hP hr₀, step_outcome hs⟩

/-- An exchange that answers has a code from an approval before it, not presented since. -/
theorem answered_origin {k : Nat} {code : String} (ha : AnsweredAt h k code) :
    ∃ j call env, MadeAt h j call env ∧ j < k ∧ code = env.draws.code ∧
      ∀ k₀, j < k₀ → k₀ < k → ¬PresentedAt h k₀ code := by
  obtain ⟨call, env, reply, trace, w', hx, hpres⟩ := ha
  obtain ⟨w₀, ho, hout⟩ := run_call_at hP hr hx
  obtain ⟨c, hc⟩ := outcome_redeems hpres hout
  obtain ⟨t, i, eᵢ, j, eⱼ, happ, hkey, -, hsince⟩ := ho.memory.codes _ c hc
  obtain ⟨id, secret, hj, -⟩ := happ.approved
  obtain rfl := hP.hex_injective hkey
  have hjk : j < k := hj.lt.trans_le (List.length_take_le k h)
  refine ⟨j, _, eⱼ, hj.of_take, hjk, rfl, ?_⟩
  rintro k₀ hjk₀ hk₀ ⟨call', env', hmade, hpres'⟩
  exact hsince k₀ call' env' hjk₀ (hmade.take hk₀) hpres'

/-- **A code is dead once presented.** -/
theorem dead_once_presented (hf : Fresh h) {j k k' : Nat} {call : OAuthCall} {env : Env}
    (hj : MadeAt h j call env) (hjk : j < k) (hp : PresentedAt h k env.draws.code) (hkk' : k < k') :
    ¬AnsweredAt h k' env.draws.code := by
  intro ha
  obtain ⟨j', call', env', hj', -, hcode, hsince⟩ := answered_origin hP hr ha
  obtain rfl := place_eq hf hj hj' (Draws.code_mem _) (hcode ▸ Draws.code_mem _)
  exact hsince k hjk hkk' hp

/-- **A code answers one exchange.** -/
theorem answered_once (hf : Fresh h) {k k' : Nat} {code : String} (ha : AnsweredAt h k code)
    (ha' : AnsweredAt h k' code) : k = k' := by
  have hlt : ∀ {k k'}, AnsweredAt h k code → AnsweredAt h k' code → ¬k < k' := by
    intro k k' ha ha' hkk'
    obtain ⟨j, call, env, hj, hjk, rfl, -⟩ := answered_origin hP hr ha
    refine dead_once_presented hP hr hf hj hjk ?_ hkk' ha'
    obtain ⟨call', env', reply, trace, w', hx, hpres⟩ := ha
    exact ⟨call', env', ⟨_, _, hx, rfl⟩, hpres⟩
  exact le_antisymm (not_lt.mp (hlt ha' ha)) (not_lt.mp (hlt ha ha'))

/-- A transaction is approved at one place. -/
theorem approved_once (hf : Fresh h) (hl : Lineage O h φ) : ApprovedOnce h φ := by
  intro j id secret env reply trace w' hx hid
  obtain ⟨w₀, ho, hout⟩ := run_call_at hP hr hx
  obtain ⟨t, ht⟩ := outcome_approve hout
  obtain ⟨i, eᵢ, hbegun, hkey, hsince⟩ := ho.memory.transactions _ t ht
  have hdraw := hid.symm.trans (hP.hex_injective hkey)
  obtain ⟨_, hi⟩ := hbegun.made
  obtain ⟨_, hi'⟩ := hl.approved.begun.made
  have hplace := place_eq hf hi' hi.of_take (Draws.transactionId_mem _)
    (hdraw ▸ Draws.transactionId_mem _)
  have hij : i < j := hi.lt.trans_le (List.length_take_le j h)
  obtain ⟨id', secret', hj', hid', -⟩ := hl.approved.approved
  rcases lt_trichotomy j φ.approved with hlt | heq | hgt
  · refine absurd ⟨id, secret, rfl, hid⟩ (hl.approved.first j _ env (hplace ▸ hij) hlt ⟨_, _, hx, rfl⟩)
  · exact heq
  · refine absurd ⟨id', secret', rfl, hid'.trans hdraw⟩ (hsince φ.approved _ φ.approveEnv ?_ ?_)
    · rw [← hplace]
      exact hl.approved.after
    · exact hj'.take hgt

/-- An authorized request goes back to a flow before it. -/
theorem authorized_stemsFrom {e : Nat} {a : Authorization} (ha : AuthorizedAt h e token a) :
    ∃ φ, StemsFrom O (h.take e) token φ ∧ ∀ s, s ∈ a.scopes ↔ s ∈ φ.transaction.scopes := by
  obtain ⟨header, env, trace, w', hx, htoken⟩ := authorizedAt_iff.mp ha
  obtain ⟨w₀, ho, hout⟩ := run_call_at hP hr hx
  obtain ⟨token', record, htoken', hfound, -, -, -, rfl⟩ := outcome_authorized hout
  obtain rfl := Option.some.inj (htoken.symm.trans htoken')
  obtain ⟨φ, l, call, eₗ, hlin, hcar, hmade, hkey, hscopes, -⟩ := ho.memory.tokens _ record hfound
  exact ⟨φ, ⟨hlin, l, call, eₗ, hcar, hmade, hP.hex_injective hkey⟩, hscopes⟩

end

/-- **The authorization-code flow is sound.** An access token that authenticates stems from exactly
one transaction, begun for a registered client, approved once, and redeemed as it was begun, with
the scopes it was begun with. A code answers one exchange, and none after it was presented. -/
theorem codeFlow_sound {O : OAuthSpike} (hP : O.store.platform.Lawful) {h : History} {w : World}
    (hr : OAuthRun O h w) (hf : Fresh h) :
    (∀ e token a, AuthorizedAt h e token a → ∃ φ, StemsFrom O (h.take e) token φ ∧
      (∀ φ', StemsFrom O h token φ' →
        φ'.begun = φ.begun ∧ φ'.approved = φ.approved ∧ φ'.redeemed = φ.redeemed) ∧
      ApprovedOnce h φ ∧ (∀ s, s ∈ a.scopes ↔ s ∈ φ.transaction.scopes) ∧
      φ.transaction.scopes ≠ [] ∧ ∀ s ∈ φ.transaction.scopes, s ∈ O.scopes) ∧
    (∀ code k k', AnsweredAt h k code → AnsweredAt h k' code → k = k') ∧
    ∀ j call env, MadeAt h j call env → ∀ k, j < k → PresentedAt h k env.draws.code →
      ∀ k', k < k' → ¬AnsweredAt h k' env.draws.code := by
  refine ⟨fun e token a ha => ?_, fun code k k' => answered_once hP hr hf,
    fun j call env hj k hjk hp k' => dead_once_presented hP hr hf hj hjk hp⟩
  obtain ⟨φ, hs, hscopes⟩ := authorized_stemsFrom hP hr ha
  have hfull : StemsFrom O (h.take e ++ h.drop e) token φ := hs.append
  rw [List.take_append_drop] at hfull
  obtain ⟨params, page, -, -, -, -, -, -, hparse⟩ := hs.lineage.approved.begun.begun
  exact ⟨φ, hs, fun φ' hs' => hfull.unique hf hs', approved_once hP hr hf hfull.lineage, hscopes,
    parseScope_ne_nil hparse, mem_parseScope hparse⟩

/-! ## A flow to compute with -/

def sampleSpike : OAuthSpike where
  store := sampleStore
  ownerId := some "owner"
  issuer := "https://bridge.example"
  resource := "https://bridge.example/mcp"
  approvalSecret := sampleToken 's'

/-- A flow has up to 16 calls. -/
scoped instance sampleCalls : NeZero 16 := ⟨by decide⟩

/-- The tokens of a kind, one for each call. -/
def sampleDraw (kind : Char) (n : Fin 16) : String :=
  String.ofList (kind :: Char.ofNat (97 + n) :: List.replicate 41 '0')

def sampleId (kind : Char) (n : Fin 16) : String :=
  String.ofList (kind :: Char.ofNat (97 + n) :: List.replicate 34 '0')

theorem sampleDraw_within {kind : Char} (hk : idChar kind = true) (n : Fin 16) :
    within idChar 43 43 (sampleDraw kind n) = true := by
  have hn : idChar (Char.ofNat (97 + n)) = true := by revert n; decide +kernel
  simp [sampleDraw, within, hk, hn, show idChar '0' = true by decide]

theorem sampleId_within {kind : Char} (hk : idChar kind = true) (n : Fin 16) :
    within idChar 36 36 (sampleId kind n) = true := by
  have hn : idChar (Char.ofNat (97 + n)) = true := by revert n; decide +kernel
  simp [sampleId, within, hk, hn, show idChar '0' = true by decide]

/-- The `n`-th call, ten milliseconds after the one before it. -/
def sampleEnv (n : Fin 16) : Env where
  clock _ := 10 * n
  dated _ := by
    show (10 * (n : Int)).natAbs ≤ maxTime
    unfold maxTime
    omega
  draws := ⟨sampleDraw 't' n, sampleDraw 'c' n, sampleDraw 'a' n, sampleDraw 'r' n, sampleId 'g' n,
    sampleId 'f' n, by simp [sampleDraw_within, idChar], by simp [sampleId_within, idChar]⟩

def sampleDocument : ClientDocument where
  clientId := some defaultChatGptClientId
  redirectUris := .array [some defaultChatGptRedirectUri, some "https://chatgpt.com/aip/callback"]
  responseTypes := .array [some "code"]
  grantTypes := .array [some "authorization_code"]
  tokenEndpointAuthMethodsSupported := .absent
  tokenEndpointAuthMethod := some "none"

def sampleBegin (redirectUri : String) : OAuthCall :=
  .beginAuthorization [("response_type", "code"), ("client_id", defaultChatGptClientId),
    ("redirect_uri", redirectUri), ("resource", "https://bridge.example/mcp"),
    ("code_challenge", sampleToken 'v'), ("code_challenge_method", "S256")]

def sampleAnswer (n : Nat) : OAuthCall :=
  .registryAnswers n (.response true 500 500 (.document sampleDocument))

def sampleExchange (code redirectUri : String) : OAuthCall :=
  .exchange [("grant_type", "authorization_code"), ("code", code),
    ("client_id", defaultChatGptClientId), ("redirect_uri", redirectUri),
    ("resource", "https://bridge.example/mcp"), ("code_verifier", sampleToken 'v')] none

def sampleRefresh (token : String) : OAuthCall :=
  .exchange [("grant_type", "refresh_token"), ("refresh_token", token),
    ("client_id", defaultChatGptClientId), ("resource", "https://bridge.example/mcp")] none

def sampleRequest (token : String) : OAuthCall := .authenticate (some ("Bearer " ++ token))

/-- The owner's bootstrap, an authorization with its code redeemed, a refresh and a request. -/
def sampleFlow : List Input :=
  [.admin (.createOwnerBootstrap "owner" (sampleToken 's') (some 0) (some 100)) trivial,
    .admin (.consumeOwnerBootstrap (sampleToken 's') (some 1)) trivial,
    .call (sampleBegin defaultChatGptRedirectUri) (sampleEnv 2),
    .call (sampleAnswer 0) (sampleEnv 3),
    .call (.resume 0) (sampleEnv 4),
    .call (.approve (some (sampleDraw 't' 4)) (some (sampleToken 's'))) (sampleEnv 5),
    .call (sampleExchange (sampleDraw 'c' 5) defaultChatGptRedirectUri) (sampleEnv 6),
    .call (sampleRefresh (sampleDraw 'r' 6)) (sampleEnv 7),
    .call (sampleRequest (sampleDraw 'a' 7)) (sampleEnv 8)]

/-- A new process. -/
def sampleStart : World := ⟨.initial "dcr_client", .empty⟩

/-- The run of a sequence of inputs from a new process. -/
def samplePlay (is : List Input) : History := play sampleSpike sampleStart is

theorem samplePlay_run (is : List Input) :
    OAuthRun sampleSpike (samplePlay is) (playEnd sampleSpike sampleStart is) :=
  ⟨"dcr_client", play_path sampleSpike sampleStart is⟩

/-- One token of the family was exchanged for the next. -/
example : (playEnd sampleSpike sampleStart sampleFlow).db.families.rows.map (·.currentGeneration) = [1] := by
  decide +kernel

/-- What the last request is authorized for. -/
def sampleAuthorization : Authorization :=
  ⟨defaultChatGptClientId, ["files:read"], some "owner", some (sampleId 'g' 5), some "files-read",
    some 86400050⟩

theorem sampleFlow_authorized :
    AuthorizedAt (samplePlay sampleFlow) 8 (sampleDraw 'a' 7) sampleAuthorization := by
  unfold AuthorizedAt
  decide +kernel

theorem sampleFlow_fresh : Fresh (samplePlay sampleFlow) := fresh_play.mpr (by decide +kernel)

theorem codeFlow_sound_refreshed :
    AuthorizedAt (samplePlay sampleFlow) 8 (sampleDraw 'a' 7) sampleAuthorization ∧
      ∃ φ, StemsFrom sampleSpike ((samplePlay sampleFlow).take 8) (sampleDraw 'a' 7) φ ∧
        ApprovedOnce (samplePlay sampleFlow) φ := by
  obtain ⟨hsound, -, -⟩ := codeFlow_sound (O := sampleSpike) samplePlatform_lawful
    (samplePlay_run sampleFlow) sampleFlow_fresh
  obtain ⟨φ, hs, -, honce, -⟩ := hsound 8 _ _ sampleFlow_authorized
  exact ⟨sampleFlow_authorized, φ, hs, honce⟩

end BegetBridge.Auth
