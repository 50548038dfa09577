import BegetBridge.Attachment.Slots

/-!
# What fetches may reach

A fetch opens connections only to public addresses, and whatever happens to it, its slot comes back once.

## Main definitions

* `Heard`: what a fetch has heard so far
* `OpensSafely`: what is asked of a connection
* `fetches`: fetches of one fetcher, in a pool
* `Accounted`: every fetch that looks for its body has a slot of its own

## Main results

* `permit_fetch`: a fetch is permitted what it does, whatever it hears
* `fetch_guarded`: what holds in every run of a pool of fetches
-/

namespace BegetBridge.Attachment

open Interleaving

/-- What a fetch has heard: its ticket and its stage, what the resolver answered just now, and how many connections
it opened. -/
structure Heard where
  ticket : Option Nat
  stage : Stage
  resolved : Option (String × List AddressRecord)
  opened : Nat
  deriving DecidableEq

def Heard.nothing : Heard := ⟨none, .fetching, none, 0⟩

/-- An answer is heard. What the resolver said counts only until the next step. -/
def heard {γ : Type} : FetchOp γ → γ → Heard → Heard
  | .acquire _, .ok t, n => { n with ticket := some t, resolved := none }
  | .resolve _ hostname, .ok (some records), n => { n with resolved := some (hostname, records) }
  | .openHttps _ _ _ _, _, n => { n with resolved := none, opened := n.opened + 1 }
  | .stream _ _, _, n => { n with resolved := none, stage := .streaming }
  | .giveUp _, _, n => { n with resolved := none, stage := .gone }
  | _, _, n => { n with resolved := none }

def hear {γ : Type} (op : FetchOp γ) : Except Empty γ → Heard → Heard
  | .ok a, n => heard op a n

section Fetch

variable (f : AttachmentFetcher) (urls : UrlParser)

/-- A connection to an `https` URL without credentials on the default port, at one of the addresses that its host
was just resolved to, which are all public. -/
def OpensSafely (url : Url) (address : String) (family : Nat) (n : Heard) : Prop :=
  url.protocol = "https:" ∧ url.username = "" ∧ url.password = "" ∧ (url.port = "" ∨ url.port = "443") ∧
    ∃ records, n.resolved = some (url.hostname, records) ∧
      (∀ r ∈ records, isPublicAttachmentAddress r.address = true) ∧ ⟨address, family⟩ ∈ records

/-- What a fetch may do, by what it has heard: it speaks of its own ticket only. -/
def permitted {γ : Type} : FetchOp γ → Heard → Prop
  | .acquire _, n => n.ticket = none ∧ n.stage = .fetching
  | .openHttps t url address family, n =>
    n.ticket = some t ∧ n.opened ≤ f.maxRedirects ∧ OpensSafely url address family n
  | .stream t maxBytes, n => n.ticket = some t ∧ n.stage = .fetching ∧ maxBytes = f.maxBytes
  | .giveUp t, n => n.ticket = some t
  | _, _ => True

/-- How a fetch ends: with its body, or without a slot. -/
def settled : Except FetchError Nat → Heard → Prop
  | .ok t, n => n.ticket = some t ∧ n.stage = .streaming ∧ n.opened ≤ f.maxRedirects + 1
  | .error _, n => (n.ticket = none ∨ n.stage = .gone) ∧ n.opened ≤ f.maxRedirects + 1

variable {f urls} {n : Heard} {t : Nat}

/-! ## One fetch -/

theorem permit_answered {α : Type} {a : Except FetchError α} {Q : Except FetchError α → Heard → Prop}
    (hok : ∀ b, a = .ok b → Q (.ok b) n) (herror : ∀ e, Q (.error e) n) :
    Script.Along (permitted f) hear (answered a) Q n := by
  cases a with
  | ok b => exact Script.along_pure (hok b rfl)
  | error e => exact Script.along_throw (herror e)

theorem permit_demand {holds : Bool} {e : FetchError} {Q : Except FetchError Unit → Heard → Prop}
    (hok : holds = true → Q (.ok ()) n) (herror : Q (.error e) n) :
    Script.Along (permitted f) hear (demand holds e) Q n := by
  cases holds with
  | true => exact Script.along_pure (hok rfl)
  | false => exact Script.along_throw herror

theorem permit_throwIfAborted {Q : Except FetchError Unit → Heard → Prop}
    (hQ : ∀ r, Q r { n with resolved := none }) : Script.Along (permitted f) hear (throwIfAborted t) Q n := by
  refine Script.along_bind (Script.along_perform trivial ?_ ?_)
  · rintro (_ | e)
    · exact Script.along_pure (hQ _)
    · exact Script.along_throw (hQ _)
  · nofun

/-- A fetch that is on its way, with rounds left. -/
def Underway (f : AttachmentFetcher) (t left : Nat) (n : Heard) : Prop :=
  n.ticket = some t ∧ n.stage = .fetching ∧ n.opened + left ≤ f.maxRedirects + 1

/-- The rounds end with the body, or in an error. -/
def followed (f : AttachmentFetcher) (t : Nat) : Except FetchError Unit → Heard → Prop
  | .ok _, n => n.ticket = some t ∧ n.stage = .streaming ∧ n.opened ≤ f.maxRedirects + 1
  | .error _, n => Underway f t 0 n

theorem Underway.heard {left : Nat} (h : Underway f t left n) : Underway f t left { n with resolved := none } := h

theorem Underway.done {left : Nat} (h : Underway f t left n) : Underway f t 0 n :=
  ⟨h.1, h.2.1, by have := h.2.2; omega⟩

theorem Underway.fails {left : Nat} (h : Underway f t left n) {e : FetchError} : followed f t (.error e) n :=
  h.done

theorem permit_dropped {left : Nat} (h : Underway f t left n) {e : FetchError} :
    Script.Along (permitted f) hear (dropped t e : FetchScript Unit) (followed f t) n := by
  refine Script.along_bind (Script.along_perform trivial ?_ nofun)
  intro _
  exact Script.along_throw h.heard.fails

/-- What is selected is one of the addresses, and all of them are public. -/
theorem selectAddress_eq_ok {records : Option (List AddressRecord)} {selected : AddressRecord}
    (h : selectAddress records = .ok selected) : ∃ all, records = some all ∧ selected ∈ all ∧
      ∀ r ∈ all, isPublicAttachmentAddress r.address = true := by
  rcases records with _ | _ | ⟨first, others⟩
  · cases h
  · cases h
  rw [selectAddress] at h
  split at h
  · cases h
  · rename_i hpublic
    obtain rfl := Except.ok.inj h
    refine ⟨_, rfl, List.mem_cons_self, fun r hr => ?_⟩
    by_contra hblocked
    exact hpublic (List.any_eq_true.mpr ⟨r, hr, by simpa using hblocked⟩)

theorem allowedUrl_iff {url : Url} : allowedUrl url = true ↔ url.protocol = "https:" ∧ url.username = "" ∧
    url.password = "" ∧ (url.port = "" ∨ url.port = "443") := by
  simp [allowedUrl, and_assoc]

/-- **A connection is opened safely.** -/
theorem permit_connect {left : Nat} {url : Url} {selected : AddressRecord} (h : Underway f t (left + 1) n)
    (hsafe : OpensSafely url selected.address selected.family n) {Q : Except FetchError Response → Heard → Prop}
    (hok : ∀ response n, Underway f t left n → Q (.ok response) n)
    (herror : ∀ e n, Underway f t left n → Q (.error e) n) :
    Script.Along (permitted f) hear (connect t url selected) Q n := by
  obtain ⟨hticket, hstage, hopened⟩ := h
  refine Script.along_bind (Script.along_perform ⟨hticket, by omega, hsafe⟩ ?_ nofun)
  have hnext : Underway f t left { n with resolved := none, opened := n.opened + 1 } :=
    ⟨hticket, hstage, by simp only; omega⟩
  rintro (e | response)
  · -- the error is that of the abort, or that of the request
    refine Script.along_bind (permit_throwIfAborted ?_)
    rintro (e | _)
    · exact herror _ _ hnext
    · exact Script.along_throw (herror _ _ hnext)
  · exact Script.along_pure (hok _ _ hnext)

/-- **The rounds of a fetch**: each asks the resolver for the host of its URL, and opens at most one connection. -/
theorem permit_follow {left : Nat} {url : Url} (h : Underway f t left n) :
    Script.Along (permitted f) hear (f.follow urls t left url) (followed f t) n := by
  induction left generalizing url n with
  | zero => exact Script.along_throw h.fails
  | succ left ih =>
    refine Script.along_bind (permit_throwIfAborted ?_)
    rintro (e | _)
    · exact h.heard.fails
    refine Script.along_bind (permit_demand ?_ h.heard.fails)
    intro hurl
    obtain ⟨hprotocol, husername, hpassword, hport⟩ := allowedUrl_iff.mp hurl
    refine Script.along_bind (Script.along_perform trivial ?_ nofun)
    intro reply
    have hreply : ∀ e, followed f t (.error e) (heard (.resolve t url.hostname) reply { n with resolved := none }) := by
      intro e
      rcases reply with _ | _ | all
      all_goals exact h.done
    refine Script.along_bind (permit_answered ?_ hreply)
    rintro records rfl
    refine Script.along_bind (permit_answered ?_ hreply)
    intro selected hselected
    obtain ⟨all, rfl, hmem, hpublic⟩ := selectAddress_eq_ok hselected
    have hresolved : Underway f t (left + 1) { n with resolved := some (url.hostname, all) } := h
    refine Script.along_bind (permit_connect hresolved
      ⟨hprotocol, husername, hpassword, hport, all, rfl, hpublic, hmem⟩ ?_ fun _ _ hn => hn.fails)
    intro response n hn
    show Script.Along _ _ (ite _ _ _) _ n
    split
    · -- a redirect leads to another round
      refine Script.along_bind (Script.along_perform trivial (fun _ => ?_) nofun)
      rcases response.location with _ | location
      · exact Script.along_throw hn.heard.fails
      refine Script.along_bind (permit_demand (fun _ => ?_) hn.heard.fails)
      rcases urls.parseFrom location url with _ | next
      · exact Script.along_throw hn.heard.fails
      · exact ih hn.heard
    split
    · exact permit_dropped hn
    split
    · exact permit_dropped hn
    · -- the body is returned
      refine Script.along_perform ⟨hn.1, hn.2.1, rfl⟩ (fun _ => ?_) nofun
      exact ⟨hn.1, rfl, by have := hn.2.2; simp only [hear, heard]; omega⟩

/-- **A fetch is permitted what it does**, whatever it hears. -/
theorem permit_fetch {rawUrl : String} {signal : Option FetchError} :
    Script.Along (permitted f) hear (f.fetch urls rawUrl signal) (settled f) Heard.nothing := by
  refine Script.along_bind (Script.along_perform ⟨rfl, rfl⟩ ?_ nofun)
  rintro (e | t)
  · exact ⟨.inl rfl, Nat.zero_le _⟩
  refine Script.along_bind (Script.along_pure (Script.along_tryCatch ?_))
  -- where it throws, it gives up
  have hfails : ∀ e n, Underway f t 0 n → Script.Along (permitted f) hear
      (step (.giveUp t) >>= fun _ => throw (rethrown e) : FetchScript Nat) (settled f) n := by
    intro e n hn
    refine Script.along_bind (Script.along_perform hn.1 (fun _ => ?_) nofun)
    exact Script.along_throw ⟨.inr rfl, hn.2.2⟩
  have hstart : Underway f t (f.maxRedirects + 1) (hear (.acquire signal) (.ok (.ok t)) Heard.nothing) :=
    ⟨rfl, rfl, by simp [hear, heard, Heard.nothing]⟩
  rcases urls.parse rawUrl with _ | current
  · exact Script.along_throw (hfails _ _ hstart.done)
  · refine Script.along_bind (Script.along_mono ?_ (permit_follow hstart))
    rintro (e | _) n hn
    · exact hfails e n hn
    · exact Script.along_pure hn

/-- **What a step of a fetch does**: nothing to the slots, or it gets one, or it changes the fetch itself, which
is not looking for its body any more. -/
theorem exec_cases {γ : Type} {op : FetchOp γ} {s : Fetcher} (hop : permitted f op n) :
    ((Fetcher.exec f op s).2 = s ∧ (heard op (Fetcher.exec f op s).1 n).ticket = n.ticket ∧
      (heard op (Fetcher.exec f op s).1 n).stage = n.stage) ∨
    (∃ signal, s.active < f.maxConcurrent ∧ n.ticket = none ∧ n.stage = .fetching ∧ (Fetcher.exec f op s).2 =
        { s with active := s.active + 1, transfers := s.transfers ++ [.begun signal] } ∧
      (heard op (Fetcher.exec f op s).1 n).ticket = some s.transfers.length ∧
      (heard op (Fetcher.exec f op s).1 n).stage = .fetching) ∨
    (∃ t g, n.ticket = some t ∧ (Fetcher.exec f op s).2 = s.act t g ∧
      (heard op (Fetcher.exec f op s).1 n).ticket = some t ∧
      (heard op (Fetcher.exec f op s).1 n).stage ≠ .fetching ∧
      ∀ x : Transfer, x.Kept f.maxBytes → (n.stage = .fetching → x.stage = .fetching) →
        x.Sound f.maxBytes g ∧ (g x).1.stage = (heard op (Fetcher.exec f op s).1 n).stage) := by
  cases op with
  | acquire signal =>
    by_cases hbusy : s.active ≥ f.maxConcurrent
    · left
      simp [Fetcher.exec, hbusy, heard]
    · right; left
      refine ⟨signal, by omega, hop.1, hop.2, ?_, ?_, ?_⟩
      · simp [Fetcher.exec, hbusy]
      · simp [Fetcher.exec, hbusy, heard]
      · simp [Fetcher.exec, hbusy, heard, hop.2]
  | abortError t => exact .inl ⟨rfl, rfl, rfl⟩
  | resolve t hostname =>
    left
    rcases habort : s.abortError t with _ | e
    · rcases hrecords : s.outside.records with e | _ | all
      all_goals simp [Fetcher.exec, habort, hrecords, heard]
    · simp [Fetcher.exec, habort, heard]
  | openHttps t url address family => exact .inl ⟨rfl, rfl, rfl⟩
  | destroy t => exact .inl ⟨rfl, rfl, rfl⟩
  | stream t maxBytes =>
    obtain ⟨hticket, hstage, rfl⟩ := hop
    exact .inr (.inr ⟨t, _, hticket, rfl, hticket, nofun, fun x hx hfetching =>
      ⟨hx.sound_stream (hfetching hstage), rfl⟩⟩)
  | giveUp t =>
    exact .inr (.inr ⟨t, _, hop, rfl, hop, nofun, fun x hx _ => ⟨hx.sound_leave, rfl⟩⟩)

end Fetch

/-! ## Fetches in a pool -/

/-- `fetch(rawUrl, { signal })` is called. -/
structure FetchCall where
  rawUrl : String
  signal : Option FetchError

/-- Fetches of one fetcher. -/
def fetches (f : AttachmentFetcher) (urls : UrlParser) :
    Calls FetchOp Empty Fetcher FetchCall Heard FetchEvent (Except FetchError Nat) where
  exec op s := .ok (Fetcher.exec f op s)
  Fault _ := False
  ready _ _ := True
  program call := (f.fetch urls call.rawUrl call.signal).run
  notes _ := .nothing
  note op a _ n := heard op a n
  elsewhere e s s' := s' = s.happens e

section Pool

variable {f : AttachmentFetcher} {urls : UrlParser}
  {p p' : Pool FetchOp Empty Fetcher FetchCall Heard (Except FetchError Nat)}
  {l : Event FetchCall Heard FetchEvent (Except FetchError Nat)}

/-- What a fetch in flight knows of its own slot is true. -/
def Holds (s : Fetcher) (n : Heard) : Prop :=
  ∀ t, n.ticket = some t → ∃ x, s.transfers[t]? = some x ∧ n.stage.rank ≤ x.stage.rank ∧
    (n.stage = .fetching → x.stage = .fetching)

/-- The slots are accounted for, and a fetch that looks for its body has a slot of its own. -/
structure Accounted (f : AttachmentFetcher)
    (p : Pool FetchOp Empty Fetcher FetchCall Heard (Except FetchError Nat)) : Prop where
  balanced : p.store.Balanced f
  holds : ∀ i c, p.calls i = some c → Holds p.store c.notes
  single : ∀ i j c c' t, p.calls i = some c → p.calls j = some c' → c.notes.ticket = some t →
    c'.notes.ticket = some t → i = j
  attended : ∀ (t : Nat) (x : Transfer), p.store.transfers[t]? = some x → x.stage = .fetching →
    ∃ i c, p.calls i = some c ∧ c.notes.ticket = some t

theorem accounted_still {outside : Outside} : Accounted f (Pool.still (.idle outside)) where
  balanced := Fetcher.balanced_idle
  holds _ _ hc := absurd hc nofun
  single _ _ _ _ _ hc := absurd hc nofun
  attended _ _ hx := absurd hx nofun

/-- What another does to its own fetch, or outside, leaves what is known of a slot true. -/
theorem Holds.act {s : Fetcher} {n : Heard} {t : Nat} {g : Transfer → Transfer × Nat} (h : Holds s n)
    (ht : n.ticket ≠ some t) : Holds (s.act t g) n := by
  intro t' ht'
  obtain ⟨x, hx, hrank⟩ := h t' ht'
  have hne : t' ≠ t := by
    rintro rfl
    exact ht ht'
  exact ⟨x, (Fetcher.act_of_ne hne).trans hx, hrank⟩

theorem Holds.happens {s : Fetcher} {n : Heard} (hs : s.Balanced f) (h : Holds s n) (e : FetchEvent) :
    Holds (s.happens e) n := by
  intro t ht
  obtain ⟨x, hx, hrank, hfetching⟩ := h t ht
  obtain ⟨x', hx', hrank'⟩ := (Fetcher.balanced_happens hs e).2 t x hx
  refine ⟨x', hx', le_trans hrank hrank', fun hstage => ?_⟩
  obtain ⟨x'', hx'', hstage''⟩ := Fetcher.happens_fetching hs e hx (hfetching hstage)
  obtain rfl := Option.some.inj (hx'.symm.trans hx'')
  exact hstage''

theorem Accounted.elsewhere (h : Accounted f p) (e : FetchEvent) :
    Accounted f { p with store := p.store.happens e } where
  balanced := (Fetcher.balanced_happens h.balanced e).1
  holds i c hc := (h.holds i c hc).happens h.balanced e
  single := h.single
  attended t x hx hstage := by
    obtain ⟨x', hx', hstage'⟩ :=
      (Fetcher.balanced_happens h.balanced e).2.fetching (Fetcher.length_happens e) hx hstage
    exact h.attended t x' hx' hstage'

/-- A fetch begins, without a slot. -/
theorem Accounted.begins (h : Accounted f p) {i : Nat} {c : InFlight FetchOp Empty FetchCall Heard (Except FetchError Nat)}
    (hi : p.calls i = none) (hc : c.notes.ticket = none) : Accounted f (p.put i (some c)) where
  balanced := h.balanced
  holds j d hd := by
    rcases Pool.put_cases hd with ⟨-, heq⟩ | ⟨-, hd⟩
    · obtain rfl := Option.some.inj heq
      intro t ht
      rw [hc] at ht
      cases ht
    · exact h.holds j d hd
  single j j' d d' t hd hd' ht ht' := by
    rcases Pool.put_cases hd with ⟨-, heq⟩ | ⟨-, hd⟩
    · obtain rfl := Option.some.inj heq
      rw [hc] at ht
      cases ht
    rcases Pool.put_cases hd' with ⟨-, heq⟩ | ⟨-, hd'⟩
    · obtain rfl := Option.some.inj heq
      rw [hc] at ht'
      cases ht'
    exact h.single j j' d d' t hd hd' ht ht'
  attended t x hx hstage := by
    obtain ⟨j, d, hd, ht⟩ := h.attended t x hx hstage
    have hji : j ≠ i := by
      rintro rfl
      rw [hi] at hd
      cases hd
    exact ⟨j, d, (Pool.put_of_ne hji).trans hd, ht⟩

/-- A fetch returns, and does not look for its body any more. -/
theorem Accounted.returns (h : Accounted f p) {i : Nat}
    {c : InFlight FetchOp Empty FetchCall Heard (Except FetchError Nat)} (hi : p.calls i = some c)
    (hc : c.notes.ticket = none ∨ c.notes.stage ≠ .fetching) : Accounted f (p.put i none) where
  balanced := h.balanced
  holds j d hd := by
    rcases Pool.put_cases hd with ⟨-, heq⟩ | ⟨-, hd⟩
    · cases heq
    · exact h.holds j d hd
  single j j' d d' t hd hd' := by
    rcases Pool.put_cases hd with ⟨-, heq⟩ | ⟨-, hd⟩
    · cases heq
    rcases Pool.put_cases hd' with ⟨-, heq⟩ | ⟨-, hd'⟩
    · cases heq
    exact h.single j j' d d' t hd hd'
  attended t x hx hstage := by
    obtain ⟨j, d, hd, ht⟩ := h.attended t x hx hstage
    by_cases hji : j = i
    · -- its own fetch has a body, or is over
      subst hji
      obtain rfl := Option.some.inj (hi.symm.trans hd)
      obtain ⟨x', hx', hrank, -⟩ := h.holds _ _ hd t ht
      obtain rfl := Option.some.inj (hx'.symm.trans hx)
      rcases hc with hc | hc
      · rw [hc] at ht
        cases ht
      · exact absurd (Stage.eq_fetching_of_rank hrank hstage) hc
    · exact ⟨j, d, (Pool.put_of_ne hji).trans hd, ht⟩

section Operates

variable {i : Nat} {c c' : InFlight FetchOp Empty FetchCall Heard (Except FetchError Nat)}

/-- A fetch that keeps its ticket shares it with no other. -/
theorem Accounted.single_put (h : Accounted f p) (hi : p.calls i = some c)
    (hticket : c'.notes.ticket = c.notes.ticket) (j j' : Nat)
    (d d' : InFlight FetchOp Empty FetchCall Heard (Except FetchError Nat)) (t : Nat)
    (hd : (p.put i (some c')).calls j = some d) (hd' : (p.put i (some c')).calls j' = some d')
    (ht : d.notes.ticket = some t) (ht' : d'.notes.ticket = some t) : j = j' := by
  rcases Pool.put_cases hd with ⟨rfl, heq⟩ | ⟨-, hd₁⟩
  · obtain rfl := Option.some.inj heq
    rcases Pool.put_cases hd' with ⟨rfl, -⟩ | ⟨-, hd₂⟩
    · rfl
    · exact h.single _ _ c d' t hi hd₂ (hticket ▸ ht) ht'
  · rcases Pool.put_cases hd' with ⟨rfl, heq⟩ | ⟨-, hd₂⟩
    · obtain rfl := Option.some.inj heq
      exact h.single _ _ d c t hd₁ hi ht (hticket ▸ ht')
    · exact h.single j j' d d' t hd₁ hd₂ ht ht'

/-- A fetch takes a step that leaves its slot as it is. -/
theorem Accounted.stays (h : Accounted f p) (hi : p.calls i = some c) (hticket : c'.notes.ticket = c.notes.ticket)
    (hstage : c'.notes.stage = c.notes.stage) : Accounted f (p.put i (some c')) where
  balanced := h.balanced
  holds j d hd := by
    rcases Pool.put_cases hd with ⟨-, heq⟩ | ⟨-, hd⟩
    · obtain rfl := Option.some.inj heq
      have hown := h.holds i c hi
      rw [Holds, ← hticket, ← hstage] at hown
      exact hown
    · exact h.holds j d hd
  single := h.single_put hi hticket
  attended t x hx hstage' := by
    obtain ⟨j, d, hd, ht⟩ := h.attended t x hx hstage'
    by_cases hji : j = i
    · subst hji
      obtain rfl := Option.some.inj (hi.symm.trans hd)
      exact ⟨j, c', Pool.put_self, hticket.trans ht⟩
    · exact ⟨j, d, (Pool.put_of_ne hji).trans hd, ht⟩

/-- A fetch gets a slot. -/
theorem Accounted.acquires (h : Accounted f p) (hi : p.calls i = some c) (hnone : c.notes.ticket = none)
    {signal : Option FetchError} (hfree : p.store.active < f.maxConcurrent)
    (hticket : c'.notes.ticket = some p.store.transfers.length) (hstage : c'.notes.stage = .fetching) :
    Accounted f { p.put i (some c') with
      store := { p.store with
        active := p.store.active + 1, transfers := p.store.transfers ++ [.begun signal] } } where
  balanced := Fetcher.balanced_acquire h.balanced hfree
  holds j d hd t ht := by
    rcases Pool.put_cases (q := p) hd with ⟨-, heq⟩ | ⟨-, hd⟩
    · obtain rfl := Option.some.inj heq
      obtain rfl := Option.some.inj (hticket.symm.trans ht)
      exact ⟨_, List.getElem?_concat_length, by rw [hstage]; rfl, fun _ => rfl⟩
    · obtain ⟨x, hx, hrest⟩ := h.holds j d hd t ht
      exact ⟨x, getElem?_append_some hx, hrest⟩
  single j j' d d' t hd hd' ht ht' := by
    -- the ticket is new
    have hnew : ∀ k e, p.calls k = some e → e.notes.ticket ≠ some p.store.transfers.length := by
      intro k e he hlength
      obtain ⟨x, hx, -⟩ := h.holds k e he _ hlength
      exact absurd (List.getElem?_eq_some_iff.mp hx).1 (lt_irrefl _)
    rcases Pool.put_cases (q := p) hd with ⟨rfl, heq⟩ | ⟨-, hd₁⟩
    · obtain rfl := Option.some.inj heq
      rcases Pool.put_cases (q := p) hd' with ⟨rfl, -⟩ | ⟨-, hd₂⟩
      · rfl
      · exact absurd (ht'.trans (ht.symm.trans hticket)) (hnew _ _ hd₂)
    · rcases Pool.put_cases (q := p) hd' with ⟨rfl, heq⟩ | ⟨-, hd₂⟩
      · obtain rfl := Option.some.inj heq
        exact absurd (ht.trans (ht'.symm.trans hticket)) (hnew _ _ hd₁)
      · exact h.single j j' d d' t hd₁ hd₂ ht ht'
  attended t x hx hstage' := by
    rcases getElem?_snoc_eq_some.mp hx with hx | ⟨rfl, -⟩
    · obtain ⟨j, d, hd, ht⟩ := h.attended t x hx hstage'
      have hji : j ≠ i := by
        rintro rfl
        obtain rfl := Option.some.inj (hi.symm.trans hd)
        rw [hnone] at ht
        cases ht
      exact ⟨j, d, (Pool.put_of_ne hji).trans hd, ht⟩
    · exact ⟨i, c', Pool.put_self, hticket⟩

/-- A fetch returns its body, or gives up. -/
theorem Accounted.acts (h : Accounted f p) (hi : p.calls i = some c) {t : Nat} {g : Transfer → Transfer × Nat}
    (ht : c.notes.ticket = some t) (hticket : c'.notes.ticket = some t) (hstage : c'.notes.stage ≠ .fetching)
    (hg : ∀ x : Transfer, x.Kept f.maxBytes → (c.notes.stage = .fetching → x.stage = .fetching) →
      x.Sound f.maxBytes g ∧ (g x).1.stage = c'.notes.stage) :
    Accounted f { p.put i (some c') with store := p.store.act t g } := by
  obtain ⟨x, hx, hrank, hfetching⟩ := h.holds i c hi t ht
  have hsound : ∀ y, p.store.transfers[t]? = some y → y.Kept f.maxBytes → y.Sound f.maxBytes g := by
    intro y hy hkept
    obtain rfl := Option.some.inj (hx.symm.trans hy)
    exact (hg x hkept hfetching).1
  have hafter := (hg x (h.balanced.kept x (List.mem_of_getElem? hx)) hfetching).2
  refine ⟨(Fetcher.balanced_act h.balanced hsound).1, ?_, ?_, ?_⟩
  · intro j d hd
    rcases Pool.put_cases (q := p) hd with ⟨-, heq⟩ | ⟨hji, hd⟩
    · obtain rfl := Option.some.inj heq
      intro t' ht'
      obtain rfl := Option.some.inj (hticket.symm.trans ht')
      exact ⟨_, Fetcher.act_self hx, by rw [hafter], fun hs => absurd hs hstage⟩
    · exact (h.holds j d hd).act fun ht' => hji (h.single j i d c t hd hi ht' ht)
  · exact h.single_put hi (hticket.trans ht.symm)
  · intro t' y hy hstage'
    obtain ⟨y', hy', hstage''⟩ :=
      (Fetcher.balanced_act h.balanced hsound).2.fetching Fetcher.length_act hy hstage'
    obtain ⟨j, d, hd, ht'⟩ := h.attended t' y' hy' hstage''
    by_cases hji : j = i
    · subst hji
      obtain rfl := Option.some.inj (hi.symm.trans hd)
      exact ⟨j, c', Pool.put_self, hticket.trans (ht.symm.trans ht')⟩
    · exact ⟨j, d, (Pool.put_of_ne hji).trans hd, ht'⟩

end Operates

/-- A fetch in flight is permitted what it still does, and ends as it should. -/
def Proper (f : AttachmentFetcher) (c : InFlight FetchOp Empty FetchCall Heard (Except FetchError Nat)) : Prop :=
  c.rest.Along (permitted f) hear (settled f) c.notes

theorem run_proper {outside : Outside} {h : List (Event FetchCall Heard FetchEvent (Except FetchError Nat) ×
      Pool FetchOp Empty Fetcher FetchCall Heard (Except FetchError Nat))}
    (hpath : Path (Pool.Step (fetches f urls)) (Pool.still (.idle outside)) h p) :
    ∀ i c, p.calls i = some c → Proper f c := by
  have hdue := Pool.call_due (C := fetches f urls) (fun _ {_} => permitted f) (fun _ {_} => hear) (fun _ => settled f)
    (fun _ known n => known = n) (fun _ => .nothing) (fun _ => permit_fetch) (fun _ => rfl)
    (fun _ known n {γ} op r s s' hknown _ _ => ?_) (fun _ _ hcall => absurd hcall (by simp [Pool.still])) hpath
  · intro i c hc
    obtain ⟨known, hrest, rfl⟩ := hdue i c hc
    exact hrest
  · subst hknown
    rcases r with e | a
    · cases e
    · rfl

/-- **A step keeps the account.** -/
theorem accounted_step (h : Accounted f p) (hproper : ∀ i c, p.calls i = some c → Proper f c)
    (hs : Pool.Step (fetches f urls) p l p') : Accounted f p' := by
  cases hs with
  | begins hi => exact h.begins hi rfl
  | @operates i call n γ op k r s hi hready hans =>
    cases hans with
    | refusal he => cases he
    | fault hf => cases hf
    | effect he =>
      have hexec : Fetcher.exec f op p.store = (_, s) := Except.ok.inj he
      obtain ⟨hop, -⟩ := hproper _ _ hi
      have hcases := exec_cases (s := p.store) hop
      rw [hexec] at hcases
      rcases hcases with ⟨hstore, hticket, hstage⟩ |
        ⟨signal, hfree, hnone, hfetching, hstore, hticket, hstage⟩ | ⟨t, g, ht, hstore, hticket, hstage, hg⟩
      · subst hstore
        exact h.stays hi hticket hstage
      · subst hstore
        exact h.acquires hi hnone hfree hticket hstage
      · subst hstore
        exact h.acts hi ht hticket hstage hg
  | @returns i call n r hi =>
    refine h.returns hi ?_
    have hsettled := hproper _ _ hi
    rcases r with e | t
    · rcases hsettled.1 with hnone | hover
      · exact .inl hnone
      · exact .inr (by rw [hover]; exact nofun)
    · obtain ⟨-, hstage, -⟩ := hsettled
      exact .inr (by rw [hstage]; exact nofun)
  | elsewhere he =>
    obtain rfl := he
    exact h.elsewhere _

variable {outside : Outside} {h : List (Event FetchCall Heard FetchEvent (Except FetchError Nat) ×
  Pool FetchOp Empty Fetcher FetchCall Heard (Except FetchError Nat))}

theorem run_accounted (hpath : Path (Pool.Step (fetches f urls)) (Pool.still (.idle outside)) h p) :
    Accounted f p :=
  hpath.history (I := fun _ p => Accounted f p) accounted_still fun hpath h hs =>
    accounted_step h (run_proper hpath) hs

/-- A fetch has returned: it has its body, or it has left. It opened at most one connection more than there may be
redirects. -/
def Returned (f : AttachmentFetcher) (s : Fetcher) (n : Heard) (r : Except FetchError Nat) : Prop :=
  n.opened ≤ f.maxRedirects + 1 ∧
    match r with
    | .ok t => ∃ x, s.transfers[t]? = some x ∧ x.stage ≠ .fetching
    | .error _ => ∀ t, n.ticket = some t → ∃ x, s.transfers[t]? = some x ∧ x.stage = .gone

theorem run_returned (hpath : Path (Pool.Step (fetches f urls)) (Pool.still (.idle outside)) h p) {call : FetchCall}
    {n : Heard} {r : Except FetchError Nat} {i : Nat} {q : Pool FetchOp Empty Fetcher FetchCall Heard (Except FetchError Nat)}
    (hr : (.returns i call n r, q) ∈ h) : Returned f q.store n r := by
  obtain ⟨k, hk⟩ := List.mem_iff_getElem?.mp hr
  obtain ⟨q₁, hbefore, hs, -⟩ := hpath.step_at hk
  have hholds := (run_accounted hbefore).holds i
  have hproper := run_proper hbefore i
  cases hs with
  | returns hi =>
    have hsettled := hproper _ hi
    rcases r with e | t
    · obtain ⟨hleft, hopened⟩ := hsettled
      refine ⟨hopened, fun t ht => ?_⟩
      obtain ⟨x, hx, hrank, -⟩ := hholds _ hi t ht
      refine ⟨x, hx, ?_⟩
      rcases hleft with hnone | hover
      · cases hnone.symm.trans ht
      · rw [hover] at hrank
        cases hstage : x.stage with
        | gone => rfl
        | fetching => exact absurd (hstage ▸ hrank) (by decide)
        | streaming => exact absurd (hstage ▸ hrank) (by decide)
    · obtain ⟨hticket, hstreaming, hopened⟩ := hsettled
      obtain ⟨x, hx, hrank, -⟩ := hholds _ hi t hticket
      refine ⟨hopened, x, hx, ?_⟩
      rintro hstage
      rw [hstreaming, hstage] at hrank
      exact absurd hrank (by decide)

instance : Decides (fetches f urls) (Condition.any : Condition FetchOp Fetcher FetchCall Heard FetchEvent) where
  ready _ _ := isTrue trivial
  operation _ _ _ _ _ := isTrue trivial
  beside _ _ _ _ := trivial

end Pool

/-- One fetch at a time, of up to five bytes. -/
def sampleFetcher : AttachmentFetcher := ⟨25, 5, 0, 1, by decide, by decide, by decide⟩

/-- Every text is the path of a file on one host. -/
def sampleUrls : UrlParser :=
  ⟨fun text => some ⟨"https:", "", "", "public.example", "", text⟩, fun _ base => some base⟩

/-- The host has a public address, and the server answers with a body. -/
def sampleOutside : Outside :=
  ⟨.ok (some [⟨"93.184.216.34", 4⟩]), .ok ⟨200, none, none, true⟩⟩

/-- What a fetch is about to open. -/
def opening (p : Pool FetchOp Empty Fetcher FetchCall Heard (Except FetchError Nat)) (i : Nat) :
    Option (Heard × String × Nat) :=
  match p.calls i with
  | some ⟨_, n, .call (.openHttps _ _ address family) _⟩ => some (n, address, family)
  | _ => none

theorem opening_eq_some {p : Pool FetchOp Empty Fetcher FetchCall Heard (Except FetchError Nat)} {i : Nat}
    {n : Heard} {address : String} {family : Nat} (h : opening p i = some (n, address, family)) :
    ∃ call t url k, p.calls i = some ⟨call, n, .call (.openHttps t url address family) k⟩ := by
  rw [opening] at h
  split at h
  · rename_i hcall
    obtain ⟨rfl, heq⟩ := Prod.mk.inj (Option.some.inj h)
    obtain ⟨rfl, rfl⟩ := Prod.mk.inj heq
    exact ⟨_, _, _, _, hcall⟩
  · cases h

end BegetBridge.Attachment
