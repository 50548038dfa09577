import BegetBridge.Auth.CodeFlow

/-!
# Download links

A request that is let in may ask for a link to a file. Whoever knows the link gets the file, under the authorization of
that request. The links are in the memory of the process, with the time until which they are good.

## Main definitions

* `DownloadTokenStore`: the links, with `issue` and `get`
* `SiteStep`, `SiteRun`: runs of the endpoints together with the links
* `Standing`: a link has been issued, and nothing since has ended it

## Main results

* `get_iff`: exactly the links that stand are answered
* `download_links_exact`: the same along a run, for every link that is asked for
* `download_links_authorized`: a link gives what its request was let in for, and not longer than the grant lives
-/

namespace BegetBridge.Auth

open Core Relational Interleaving

/-! ## The store -/

section Store

variable {α : Type}

/-- What a link gives, until when, and under which authorization. -/
structure Link (α : Type) where
  filePath : String
  expiresAt : Instant
  authorization : Option α
  deriving DecidableEq, Repr

/-- `DownloadTokenStore` -/
structure DownloadTokenStore (α : Type) where
  ttlMs : Int
  tokens : KeyedMap String (Link α)

/-- Until when a link is good that is issued now: for its time, and not beyond the time of who asks for it. The latter
is what `Date.parse` makes of its text, and `none` for `NaN`. -/
def linkExpiry (ttlMs : Int) (now : Instant) : Option Instant → Instant
  | some ceiling => min (now + ttlMs) ceiling
  | none => now + ttlMs

namespace DownloadTokenStore

/-- `cleanup()` -/
def cleanup (d : DownloadTokenStore α) (now : Instant) : DownloadTokenStore α :=
  { d with tokens := d.tokens.retain fun value => decide (now < value.expiresAt) }

/-- `issue(filePath, { authorization, expiresAt })`, with the readings of the clock in their order. The link is stored
also where its expiry is no date, and the call throws. -/
def issue (d : DownloadTokenStore α) (clock : Nat → Instant) (token filePath : String) (authorization : Option α)
    (maximumExpiry : Option Instant) : Option (String × Instant) × DownloadTokenStore α :=
  let expiresAt := linkExpiry d.ttlMs (clock 1) maximumExpiry
  ((isoText expiresAt).map fun text => (token, text),
    { d with tokens := (d.cleanup (clock 0)).tokens.insert token ⟨filePath, expiresAt, authorization⟩ })

/-- `get(token)` -/
def get (d : DownloadTokenStore α) (clock : Nat → Instant) (token : String) : Option (Link α) × DownloadTokenStore α :=
  (((d.cleanup (clock 0)).tokens.lookup token).filter fun value => decide (clock 1 < value.expiresAt),
    d.cleanup (clock 0))

variable {d : DownloadTokenStore α} {clock : Nat → Instant} {token token' filePath : String} {a : Option α}
  {maximumExpiry : Option Instant} {link : Link α} {now : Instant}

theorem lookup_cleanup :
    (d.cleanup now).tokens.lookup token = some link ↔ d.tokens.lookup token = some link ∧ now < link.expiresAt :=
  KeyedMap.lookup_retain.trans (and_congr_right fun _ => decide_eq_true_iff)

theorem lookup_issue :
    (d.issue clock token' filePath a maximumExpiry).2.tokens.lookup token = some link ↔
      token = token' ∧ link = ⟨filePath, linkExpiry d.ttlMs (clock 1) maximumExpiry, a⟩ ∨
        token ≠ token' ∧ d.tokens.lookup token = some link ∧ clock 0 < link.expiresAt := by
  rw [← lookup_cleanup]
  exact KeyedMap.lookup_insert_iff

theorem get_eq_some : (d.get clock token).1 = some link ↔
    d.tokens.lookup token = some link ∧ clock 0 < link.expiresAt ∧ clock 1 < link.expiresAt := by
  rw [get, Option.filter_eq_some_iff, lookup_cleanup, decide_eq_true_iff, and_assoc]

end DownloadTokenStore

end Store

/-! ## The server -/

/-- The endpoints with their database, the requests that have been let in, and the links. -/
structure Site where
  world : World
  admitted : List Authorization
  links : DownloadTokenStore Authorization

/-- What happens: a call of the endpoints, a link that a request asks for with what it is told, or a link that is
followed with what it gives. -/
inductive SiteEvent : Type 1
  | oauth (e : Event)
  | downloadFile (a : Authorization) (filePath token : String) (clock : Nat → Instant)
      (reply : Option (String × Instant))
  | download (token : String) (clock : Nat → Instant) (reply : Option (Link Authorization))

/-- What a call leaves. A process that starts has let in no request, and knows no link. -/
def Site.after (s : Site) (e : Event) (w : World) : Site :=
  match e with
  | .crash .. => ⟨w, [], ⟨s.links.ttlMs, ∅⟩⟩
  | .restart => ⟨w, [], ⟨s.links.ttlMs, ∅⟩⟩
  | .call .. => ⟨w, (e.authorization.map Prod.snd).toList ++ s.admitted, s.links⟩
  | .admin .. => ⟨w, s.admitted, s.links⟩

/-- One event. A request that has been let in may ask for any number of links, and at any time after. -/
inductive SiteStep (O : OAuthSpike) : Site → SiteEvent → Site → Prop
  | oauth {s : Site} {e : Event} {w : World} (h : OAuthStep O s.world e w) : SiteStep O s (.oauth e) (s.after e w)
  | downloadFile {s : Site} {a : Authorization} (ha : a ∈ s.admitted) (filePath token : String)
      (clock : Nat → Instant) :
    SiteStep O s
      (.downloadFile a filePath token clock (s.links.issue clock token filePath (some a) a.grantExpiresAt).1)
      { s with links := (s.links.issue clock token filePath (some a) a.grantExpiresAt).2 }
  | download {s : Site} (token : String) (clock : Nat → Instant) :
    SiteStep O s (.download token clock (s.links.get clock token).1) { s with links := (s.links.get clock token).2 }

abbrev SiteHistory := List (SiteEvent × Site)

/-- A new process, with an empty database. -/
def Site.initial (dcrClientId : String) (ttlMs : Int) : Site := ⟨⟨.initial dcrClientId, .empty⟩, [], ⟨ttlMs, ∅⟩⟩

def SiteRun (O : OAuthSpike) (ttlMs : Int) (h : SiteHistory) (s : Site) : Prop :=
  ∃ id, Path (SiteStep O) (.initial id ttlMs) h s

/-! ## Links that stand -/

/-- The link that an event issues. -/
def SiteEvent.issues (ttlMs : Int) : SiteEvent → Option (String × Link Authorization)
  | .downloadFile a filePath token clock _ =>
    some (token, ⟨filePath, linkExpiry ttlMs (clock 1) a.grantExpiresAt, some a⟩)
  | _ => none

/-- The reading of the clock at which an event drops the links whose time is over. -/
def SiteEvent.sweeps : SiteEvent → Option Instant
  | .downloadFile _ _ _ clock _ => some (clock 0)
  | .download _ clock _ => some (clock 0)
  | .oauth _ => none

/-- The process lives on. -/
def SiteEvent.Lives : SiteEvent → Prop
  | .oauth e => e.Lives
  | _ => True

/-- An event leaves a link as it is: the process lives on, the clock has not reached the end of the link, and no link is
issued with the same token. -/
structure SiteEvent.Spares (ttlMs : Int) (token : String) (link : Link Authorization) (e : SiteEvent) : Prop where
  lives : e.Lives
  early : ∀ now, e.sweeps = some now → now < link.expiresAt
  other : ∀ link', e.issues ttlMs ≠ some (token, link')

/-- The link was issued at place `i`, and every event since has spared it. -/
structure Standing (ttlMs : Int) (h : SiteHistory) (i : Nat) (token : String) (link : Link Authorization) : Prop where
  issued : (h[i]?.bind fun x => x.1.issues ttlMs) = some (token, link)
  spared : ∀ j x, i < j → h[j]? = some x → x.1.Spares ttlMs token link

section Standing

variable {O : OAuthSpike} {ttlMs : Int} {h : SiteHistory} {s s' : Site} {e : SiteEvent} {token : String}
  {link : Link Authorization} {i : Nat}

theorem standing_lt (hi : Standing ttlMs h i token link) : i < h.length := by
  obtain ⟨x, hx, -⟩ := Option.bind_eq_some_iff.mp hi.issued
  exact (List.getElem?_eq_some_iff.mp hx).1

/-- **One more event**: it spares the link, or it issues it. -/
theorem standing_snoc : Standing ttlMs (h ++ [(e, s')]) i token link ↔
    Standing ttlMs h i token link ∧ e.Spares ttlMs token link ∨
      i = h.length ∧ e.issues ttlMs = some (token, link) := by
  constructor
  · rintro ⟨hissued, hspared⟩
    obtain ⟨x, hx, hlink⟩ := Option.bind_eq_some_iff.mp hissued
    rcases getElem?_snoc_eq_some.mp hx with hx | ⟨rfl, rfl⟩
    · have hlt := (List.getElem?_eq_some_iff.mp hx).1
      refine .inl ⟨⟨Option.bind_eq_some_iff.mpr ⟨x, hx, hlink⟩, fun j y hij hy => ?_⟩, ?_⟩
      · exact hspared j y hij (getElem?_append_some hy)
      · exact hspared h.length _ hlt List.getElem?_concat_length
    · exact .inr ⟨rfl, hlink⟩
  · rintro (⟨⟨hissued, hspared⟩, he⟩ | ⟨rfl, hlink⟩)
    · obtain ⟨x, hx, hlink⟩ := Option.bind_eq_some_iff.mp hissued
      refine ⟨Option.bind_eq_some_iff.mpr ⟨x, getElem?_append_some hx, hlink⟩, fun j y hij hy => ?_⟩
      rcases getElem?_snoc_eq_some.mp hy with hy | ⟨-, rfl⟩
      · exact hspared j y hij hy
      · exact he
    · refine ⟨Option.bind_eq_some_iff.mpr ⟨_, List.getElem?_concat_length, hlink⟩, fun j y hij hy => ?_⟩
      have hlt := (List.getElem?_eq_some_iff.mp hy).1
      simp only [List.length_append, List.length_singleton] at hlt
      omega

theorem step_ttlMs (hs : SiteStep O s e s') : s'.links.ttlMs = s.links.ttlMs := by
  cases hs with
  | @oauth e => cases e <;> rfl
  | downloadFile => rfl
  | download => rfl

/-- **What an event leaves of the links**: those that it spares, and the one that it issues. -/
theorem lookup_step (hs : SiteStep O s e s') : s'.links.tokens.lookup token = some link ↔
    s.links.tokens.lookup token = some link ∧ e.Spares s.links.ttlMs token link ∨
      e.issues s.links.ttlMs = some (token, link) := by
  cases hs with
  | @oauth e =>
    have hkept : e.Lives → (SiteEvent.oauth e).Spares s.links.ttlMs token link := fun he => ⟨he, nofun, nofun⟩
    cases e with
    | call => exact ⟨fun hl => .inl ⟨hl, hkept trivial⟩, fun hl => (hl.resolve_right nofun).1⟩
    | admin => exact ⟨fun hl => .inl ⟨hl, hkept trivial⟩, fun hl => (hl.resolve_right nofun).1⟩
    | crash => exact ⟨nofun, fun hl => (hl.resolve_right nofun).2.lives.elim⟩
    | restart => exact ⟨nofun, fun hl => (hl.resolve_right nofun).2.lives.elim⟩
  | @downloadFile a ha filePath token' clock =>
    rw [DownloadTokenStore.lookup_issue, or_comm]
    refine or_congr ⟨?_, ?_⟩ ⟨?_, ?_⟩
    · rintro ⟨hne, hl, hlt⟩
      refine ⟨hl, trivial, fun now hnow => ?_, fun link' he => hne ?_⟩
      · exact Option.some.inj hnow ▸ hlt
      · exact (congrArg Prod.fst (Option.some.inj he)).symm
    · rintro ⟨hl, hspares⟩
      exact ⟨fun he => hspares.other _ (congrArg (fun t => some (t, _)) he.symm), hl, hspares.early _ rfl⟩
    · rintro ⟨rfl, rfl⟩
      rfl
    · intro he
      obtain ⟨rfl, rfl⟩ := Prod.mk.inj (Option.some.inj he)
      exact ⟨rfl, rfl⟩
  | download token' clock =>
    refine (DownloadTokenStore.lookup_cleanup).trans ⟨?_, ?_⟩
    · rintro ⟨hl, hlt⟩
      exact .inl ⟨hl, trivial, fun now hnow => Option.some.inj hnow ▸ hlt, nofun⟩
    · rintro (⟨hl, hspares⟩ | he)
      · exact ⟨hl, hspares.early _ rfl⟩
      · cases he

/-- **The store holds the links that stand.** -/
theorem lookup_iff (hr : SiteRun O ttlMs h s) :
    s.links.ttlMs = ttlMs ∧ ∀ token link,
      (s.links.tokens.lookup token = some link ↔ ∃ i, Standing ttlMs h i token link) := by
  obtain ⟨id, hp⟩ := hr
  refine hp.history (I := fun h s => s.links.ttlMs = ttlMs ∧ ∀ token link,
    (s.links.tokens.lookup token = some link ↔ ∃ i, Standing ttlMs h i token link)) ⟨rfl, fun token link => ?_⟩ ?_
  · exact ⟨nofun, fun ⟨i, hi⟩ => absurd (standing_lt hi) (Nat.not_lt_zero i)⟩
  · rintro h s e s' - ⟨httl, hlookup⟩ hs
    refine ⟨(step_ttlMs hs).trans httl, fun token link => ?_⟩
    rw [lookup_step hs, hlookup, httl]
    constructor
    · rintro (⟨⟨i, hi⟩, hspares⟩ | hissues)
      · exact ⟨i, standing_snoc.mpr (.inl ⟨hi, hspares⟩)⟩
      · exact ⟨h.length, standing_snoc.mpr (.inr ⟨rfl, hissues⟩)⟩
    · rintro ⟨i, hi⟩
      rcases standing_snoc.mp hi with ⟨hi, hspares⟩ | ⟨-, hissues⟩
      · exact .inl ⟨⟨i, hi⟩, hspares⟩
      · exact .inr hissues

/-- Exactly the links that stand are answered, until their time is over. -/
theorem get_iff (hr : SiteRun O ttlMs h s) {clock : Nat → Instant} : (s.links.get clock token).1 = some link ↔
    (∃ i, Standing ttlMs h i token link) ∧ clock 0 < link.expiresAt ∧ clock 1 < link.expiresAt := by
  rw [DownloadTokenStore.get_eq_some, (lookup_iff hr).2]

end Standing

/-! ## Where links come from -/

/-- The calls of the endpoints in a history. -/
def calls (h : SiteHistory) : History :=
  h.filterMap fun x => match x.1 with
    | .oauth e => some (e, x.2.world)
    | _ => none

theorem calls_append (h h' : SiteHistory) : calls (h ++ h') = calls h ++ calls h' := List.filterMap_append

/-- The grant behind an access token is in the database, with the expiry that the token carries. -/
def GrantKnown (O : OAuthSpike) (db : AuthDb) (grantId : Option String) (grantExpiresAt : Option Instant) : Prop :=
  O.ownerId.isSome → ∃ g ∈ db.grants, grantId = some g.id ∧ grantExpiresAt = some g.expiresAt

/-- Every access token in memory carries the expiry of its grant. -/
def TokensKnown (O : OAuthSpike) (w : World) : Prop :=
  ∀ key record, w.memory.tokens.lookup key = some record → GrantKnown O w.db record.grantId record.grantExpiresAt

section Origin

variable {O : OAuthSpike} {ttlMs : Int} {h : SiteHistory} {s s' : Site} {w w' : World} {e : Event} {a : Authorization}
  {db db' : AuthDb}

theorem GrantKnown.later {id : Option String} {t : Option Instant} (hev : Evolves db db') (hknown : GrantKnown O db id t) :
    GrantKnown O db' id t := by
  intro hdurable
  obtain ⟨g, hg, hid, ht⟩ := hknown hdurable
  obtain ⟨g', hg', hlater⟩ := hev.grants g hg
  refine ⟨g', hg', ?_⟩
  rw [hlater.1]
  exact ⟨hid, ht⟩

/-- An access token that is issued carries the expiry of its grant. -/
theorem issuesAs_known {env : Env} {m : Memory} {call : OAuthCall} {record : TokenRecord}
    (hissues : IssuesAs O env m call db db' record) : GrantKnown O db' record.grantId record.grantExpiresAt := by
  intro hdurable
  cases hissues with
  | redeemed _ hbacked =>
    rcases hbacked with ⟨hnone, -, -⟩ | ⟨_, g, f, s₁, -, rfl, -, -, hev, hg, -⟩
    · rw [hnone] at hdurable
      cases hdurable
    · obtain ⟨g', hg', hlater⟩ := hev.grants g hg
      refine ⟨g', hg', ?_⟩
      rw [hlater.1]
      exact ⟨rfl, rfl⟩
  | @refreshed _ _ g _ _ _ _ _ _ _ hg => exact ⟨g, hg, rfl, rfl⟩

theorem tokensKnown_step (hs : OAuthStep O w e w') (hw : TokensKnown O w) : TokensKnown O w' := by
  intro key record hfound
  cases hs with
  | call hrun =>
    rcases outcome_tokens (call_outcome hrun) hfound with hold | ⟨-, hissues⟩
    · exact (hw key record hold).later (step_evolves (.call hrun))
    · exact issuesAs_known hissues
  | crash => cases hfound
  | restart => cases hfound
  | admin hcall hvisits => exact (hw key record hfound).later (step_evolves (.admin hcall hvisits))

/-- A run of the server is one of its endpoints. -/
theorem oauth_path {s₀ : Site} (hp : Path (SiteStep O) s₀ h s) : Path (OAuthStep O) s₀.world (calls h) s.world := by
  induction hp with
  | nil => exact .nil
  | @snoc h s _ _ _ hs ih =>
    rw [calls_append]
    cases hs with
    | @oauth e w hstep =>
      have hworld : (s.after e w).world = w := by cases e <;> rfl
      have hcalls : calls [(.oauth e, s.after e w)] = [(e, w)] := congrArg (fun w => [(e, w)]) hworld
      rw [hworld, hcalls]
      exact ih.snoc hstep
    | downloadFile => exact (List.append_nil (calls h)).symm ▸ ih
    | download => exact (List.append_nil (calls h)).symm ▸ ih

theorem site_oauthRun (hr : SiteRun O ttlMs h s) : OAuthRun O (calls h) s.world := by
  obtain ⟨id, hp⟩ := hr
  exact ⟨id, oauth_path hp⟩

/-- The run up to a place, the event there, and the run with it. -/
theorem site_run_at (hr : SiteRun O ttlMs h s) {k : Nat} {e : SiteEvent} (hx : h[k]? = some (e, s')) :
    ∃ s₀, SiteRun O ttlMs (h.take k) s₀ ∧ SiteStep O s₀ e s' ∧ SiteRun O ttlMs (h.take (k + 1)) s' := by
  obtain ⟨id, hp⟩ := hr
  obtain ⟨s₀, hp₀, hs, -⟩ := hp.step_at hx
  refine ⟨s₀, ⟨id, hp₀⟩, hs, id, ?_⟩
  rw [List.take_add_one, hx]
  exact hp₀.snoc hs

theorem download_reply {token : String} {clock : Nat → Instant} {reply : Option (Link Authorization)}
    (hs : SiteStep O s (.download token clock reply) s') : (s.links.get clock token).1 = reply := by
  cases hs
  rfl

theorem AuthorizedAt.append {h h' : History} {i : Nat} {token : String} (ha : AuthorizedAt h i token a) :
    AuthorizedAt (h ++ h') i token a := by
  obtain ⟨x, hx, hev⟩ := Option.bind_eq_some_iff.mp ha
  exact Option.bind_eq_some_iff.mpr ⟨x, getElem?_append_some hx, hev⟩

/-- A request that has been let in was authorized. -/
theorem admitted_authorized (hr : SiteRun O ttlMs h s) (ha : a ∈ s.admitted) :
    ∃ i token, AuthorizedAt (calls h) i token a := by
  obtain ⟨id, hp⟩ := hr
  refine hp.history (I := fun h s => ∀ a ∈ s.admitted, ∃ i token, AuthorizedAt (calls h) i token a) nofun ?_ a ha
  rintro h s e s' - hall hs a ha
  rw [calls_append]
  have hold : a ∈ s.admitted →
      ∃ i token, AuthorizedAt (calls h ++ calls [(e, s')]) i token a := fun ha => by
    obtain ⟨i, token, hauth⟩ := hall a ha
    exact ⟨i, token, hauth.append⟩
  cases hs with
  | @oauth e w hstep =>
    cases e with
    | call call env reply trace =>
      rcases List.mem_append.mp ha with hnew | ha
      · obtain ⟨⟨token, _⟩, htoken, rfl⟩ := Option.map_eq_some_iff.mp (Option.mem_toList.mp hnew)
        refine ⟨(calls h).length, token, ?_⟩
        exact Option.bind_eq_some_iff.mpr ⟨_, List.getElem?_concat_length, htoken⟩
      · exact hold ha
    | crash => cases ha
    | restart => cases ha
    | admin => exact hold ha
  | downloadFile => exact hold ha
  | download => exact hold ha

/-- Its authorization carries the expiry of the grant. -/
theorem authorized_known {h : History} (hr : OAuthRun O h w) {i : Nat} {token : String} (ha : AuthorizedAt h i token a) :
    GrantKnown O w.db a.grantId a.grantExpiresAt := by
  obtain ⟨header, env, trace, w', hx, -⟩ := authorizedAt_iff.mp ha
  obtain ⟨w₀, ⟨id, hp₀⟩, hs, -, hp⟩ := run_at hr hx
  have hknown : TokensKnown O w₀ := hp₀.invariant (I := TokensKnown O) nofun fun hw hs => tokensKnown_step hs hw
  obtain ⟨_, record, -, hfound, -, -, -, rfl⟩ := outcome_authorized (step_outcome hs)
  exact ((hknown _ record hfound).later (step_evolves hs)).later (path_evolves hp)

/-- A link that stands was issued to a request that had been let in. -/
theorem standing_issued (hr : SiteRun O ttlMs h s) {i : Nat} {token : String} {link : Link Authorization}
    (hi : Standing ttlMs h i token link) :
    ∃ a s₀, SiteRun O ttlMs (h.take i) s₀ ∧ a ∈ s₀.admitted ∧ link.authorization = some a ∧
      ∀ t, a.grantExpiresAt = some t → link.expiresAt ≤ t := by
  obtain ⟨⟨e, s'⟩, hx, hissues⟩ := Option.bind_eq_some_iff.mp hi.issued
  obtain ⟨s₀, hr₀, hs, -⟩ := site_run_at hr hx
  cases hs with
  | oauth => cases hissues
  | @downloadFile a ha filePath token' clock =>
    obtain ⟨rfl, rfl⟩ := Prod.mk.inj (Option.some.inj hissues)
    refine ⟨a, s₀, hr₀, ha, rfl, fun t ht => ?_⟩
    rw [ht]
    exact min_le_right _ _
  | download => cases hissues

end Origin

/-- **A link is answered exactly while it stands**: the process that issued it lives, its token has not been issued
again, and no reading of the clock at which links are dropped has reached its end. -/
theorem download_links_exact {O : OAuthSpike} {ttlMs : Int} {h : SiteHistory} {s s' : Site} (hr : SiteRun O ttlMs h s)
    {k : Nat} {token : String} {clock : Nat → Instant} {reply : Option (Link Authorization)}
    (hk : h[k]? = some (.download token clock reply, s')) (link : Link Authorization) :
    reply = some link ↔
      (∃ i, Standing ttlMs (h.take k) i token link) ∧ clock 0 < link.expiresAt ∧ clock 1 < link.expiresAt := by
  obtain ⟨s₀, hr₀, hs, -⟩ := site_run_at hr hk
  rw [← download_reply hs]
  exact get_iff hr₀

/-- **A link that is answered** was issued to a request whose access token goes back to a transaction that the owner
approved, for the scopes of that transaction; and the grant has not come to its end. -/
theorem download_links_authorized {O : OAuthSpike} (hP : O.store.platform.Lawful) {ttlMs : Int} {h : SiteHistory}
    {s s' : Site} (hr : SiteRun O ttlMs h s) {k : Nat} {token : String} {clock : Nat → Instant}
    {link : Link Authorization} (hk : h[k]? = some (.download token clock (some link), s')) :
    ∃ i a, Standing ttlMs (h.take k) i token link ∧ link.authorization = some a ∧
      (∃ j access φ, AuthorizedAt (calls (h.take i)) j access a ∧ StemsFrom O ((calls (h.take i)).take j) access φ ∧
        ∀ scope, scope ∈ a.scopes ↔ scope ∈ φ.transaction.scopes) ∧
      (O.ownerId.isSome → ∃ g ∈ s'.world.db.grants, a.grantId = some g.id ∧ clock 0 < g.expiresAt ∧
        clock 1 < g.expiresAt) := by
  obtain ⟨s₀, hr₀, hs, hr'⟩ := site_run_at hr hk
  obtain ⟨⟨i, hi⟩, hlt⟩ := (get_iff hr₀).mp (download_reply hs)
  obtain ⟨a, s₁, hr₁, ha, hauthorization, hexpiry⟩ := standing_issued hr₀ hi
  have hik : i ≤ k := (standing_lt hi).le.trans (List.length_take_le k h)
  rw [List.take_take, min_eq_left hik] at hr₁
  obtain ⟨j, access, hauth⟩ := admitted_authorized hr₁ ha
  obtain ⟨φ, hstems, hscopes⟩ := authorized_stemsFrom hP (site_oauthRun hr₁) hauth
  refine ⟨i, a, hi, hauthorization, ⟨j, access, φ, hauth, hstems, hscopes⟩, fun hdurable => ?_⟩
  have hsplit : h.take (k + 1) = h.take i ++ (h.take (k + 1)).drop i := by
    rw [← min_eq_left (hik.trans k.le_succ), ← List.take_take, min_eq_left (hik.trans k.le_succ), List.take_append_drop]
  have hlast : AuthorizedAt (calls (h.take (k + 1))) j access a := by
    rw [hsplit, calls_append]
    exact hauth.append
  obtain ⟨g, hg, hid, hends⟩ := authorized_known (site_oauthRun hr') hlast hdurable
  have hle := hexpiry _ hends
  exact ⟨g, hg, hid, hlt.1.trans_le hle, hlt.2.trans_le hle⟩

/-! ## A link to compute with -/

/-- The history of a sequence of inputs of the endpoints. -/
def serve (O : OAuthSpike) : Site → List Input → SiteHistory
  | _, [] => []
  | s, i :: is =>
    (.oauth (respond O s.world i).1, s.after (respond O s.world i).1 (respond O s.world i).2) ::
      serve O (s.after (respond O s.world i).1 (respond O s.world i).2) is

def serveEnd (O : OAuthSpike) : Site → List Input → Site
  | s, [] => s
  | s, i :: is => serveEnd O (s.after (respond O s.world i).1 (respond O s.world i).2) is

section Serve

variable {O : OAuthSpike} {s : Site} {is : List Input} {a : Authorization}

theorem serve_path (O : OAuthSpike) (s : Site) (is : List Input) : Path (SiteStep O) s (serve O s is) (serveEnd O s is) := by
  induction is generalizing s with
  | nil => exact .nil
  | cons i is ih => exact (Path.single (.oauth (respond_step O s.world i))).trans (ih _)

theorem serveEnd_links : (serveEnd O s is).links = s.links := by
  induction is generalizing s with
  | nil => rfl
  | cons i is ih => cases i <;> exact ih

theorem mem_serveEnd (ha : a ∈ s.admitted) : a ∈ (serveEnd O s is).admitted := by
  induction is generalizing s with
  | nil => exact ha
  | cons i is ih =>
    apply ih
    cases i with
    | call => exact List.mem_append_right _ ha
    | admin => exact ha

/-- A request that is authorized is let in. -/
theorem serveEnd_admits {n : Nat} {token : String} (ha : AuthorizedAt (play O s.world is) n token a) :
    a ∈ (serveEnd O s is).admitted := by
  induction is generalizing s n with
  | nil => cases ha
  | cons i is ih =>
    cases n with
    | zero =>
      refine mem_serveEnd (s := s.after _ _) ?_
      cases i with
      | call c env =>
        have he : (respond O s.world (.call c env)).1.authorization = some (token, a) := ha
        exact List.mem_append_left _ (Option.mem_toList.mpr (Option.map_eq_some_iff.mpr ⟨_, he, rfl⟩))
      | admin => cases ha
    | succ n =>
      refine ih (n := n) ?_
      cases i <;> exact ha

end Serve

def sampleServer : Site := .initial "dcr_client" 600000

def sampleClock (_ : Nat) : Instant := 90

/-- A link to a file, for the request of the flow. -/
def sampleLink : Link Authorization := ⟨"/srv/report.txt", 600090, some sampleAuthorization⟩

/-- The flow, a link that its last request asks for, and the link followed. -/
def sampleLinks : SiteHistory :=
  let s := serveEnd sampleSpike sampleServer sampleFlow
  let issued := s.links.issue sampleClock (sampleDraw 'd' 9) "/srv/report.txt" (some sampleAuthorization)
    sampleAuthorization.grantExpiresAt
  serve sampleSpike sampleServer sampleFlow ++
    [(.downloadFile sampleAuthorization "/srv/report.txt" (sampleDraw 'd' 9) sampleClock issued.1,
      { s with links := issued.2 })] ++
    [(.download (sampleDraw 'd' 9) sampleClock (issued.2.get sampleClock (sampleDraw 'd' 9)).1,
      { s with links := (issued.2.get sampleClock (sampleDraw 'd' 9)).2 })]

theorem sampleLinks_run : ∃ s, SiteRun sampleSpike 600000 sampleLinks s := by
  have hadmitted : sampleAuthorization ∈ (serveEnd sampleSpike sampleServer sampleFlow).admitted :=
    serveEnd_admits sampleFlow_authorized
  exact ⟨_, "dcr_client",
    ((serve_path sampleSpike sampleServer sampleFlow).snoc (.downloadFile hadmitted _ _ _)).snoc (.download _ _)⟩

theorem sampleLinks_answered :
    ∃ s', sampleLinks[10]? = some (.download (sampleDraw 'd' 9) sampleClock (some sampleLink), s') := by
  have hlast : ∀ {h : SiteHistory} {e : SiteEvent} {x y : SiteEvent × Site}, h.length = 9 → y.1 = e →
      ∃ s', (h ++ [x] ++ [y])[10]? = some (e, s') := by
    rintro h e x ⟨_, s'⟩ hlength rfl
    exact ⟨s', by simp [hlength]⟩
  refine hlast rfl (congrArg (SiteEvent.download _ _) ?_)
  rw [serveEnd_links]
  decide +kernel

theorem download_links_exact_sample : ∃ i, Standing 600000 (sampleLinks.take 10) i (sampleDraw 'd' 9) sampleLink := by
  obtain ⟨s, hr⟩ := sampleLinks_run
  obtain ⟨s', hk⟩ := sampleLinks_answered
  exact ((download_links_exact hr hk sampleLink).mp rfl).1

theorem download_links_authorized_sample :
    ∃ s' : Site, ∃ g ∈ s'.world.db.grants, sampleAuthorization.grantId = some g.id ∧ 90 < g.expiresAt := by
  obtain ⟨s, hr⟩ := sampleLinks_run
  obtain ⟨s', hk⟩ := sampleLinks_answered
  obtain ⟨i, a, -, ha, -, hgrant⟩ := download_links_authorized samplePlatform_lawful hr hk
  obtain rfl := Option.some.inj ha
  obtain ⟨g, hg, hid, hlt, -⟩ := hgrant rfl
  exact ⟨s', g, hg, hid, hlt⟩

end BegetBridge.Auth
