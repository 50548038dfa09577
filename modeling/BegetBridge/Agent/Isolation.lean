import BegetBridge.Agent.Ownership

/-!
# Isolation of session owners

Requests of any number of owners run at the same time. What a request of an owner does to a session, or says about
one, is about a session that a request of the same owner opened.

## Main definitions

* `Noted`: what a request has learnt so far
* `Mine`, `Granted`: the session is the caller's, and the caller has the scope of the route
* `requests`: requests at one Agent, in a pool
* `Known`: what the requests in flight have learnt is true

## Main results

* `permit_handle`: a request is permitted what it does, whatever is answered
* `sessions_isolated`: what holds in every run of requests
-/

namespace BegetBridge.Agent

open Interleaving Relational
open Terminal (BridgeError)

/-- What a request has learnt: owners that are recorded, the session it opened, whether its owner is recorded, the
sessions it purged, and whether a call about a session failed. -/
structure Noted where
  seen : List (String × String)
  created : Option String
  recorded : Bool
  purged : List String
  mishap : Bool
  deriving DecidableEq

def Noted.nothing : Noted := ⟨[], none, false, [], false⟩

/-- An answer is noted. -/
def noted {γ : Type} : AgentOp γ → γ → Noted → Noted
  | .getOwner id, .ok (some ownerId), n => { n with seen := (id, ownerId) :: n.seen }
  | .openSession _ _ _, .ok id, n => { n with created := some id }
  | .openSession _ _ _, .error _, n => { n with mishap := true }
  | .setOwner _ _, .ok _, n => { n with recorded := true }
  | .onSession _ id .purge, .ok _, n => { n with purged := id :: n.purged }
  | .onSession _ _ _, .error _, n => { n with mishap := true }
  | _, _, n => n

def note {γ : Type} (call : AgentOp γ) : Except Empty γ → Noted → Noted
  | .ok a, n => noted call a n

/-- The session is the caller's, as far as the request has learnt. -/
def Mine (who : Authorization) (n : Noted) (id : String) : Prop :=
  match who with
  | .static => True
  | .oauth context => (id, context.ownerId) ∈ n.seen ∨ n.created = some id

section Request

variable (config : AgentConfig) (request : AgentRequest)

/-- The request is made by the caller, who has the scope of its route. -/
def Granted (who : Authorization) : Prop :=
  authenticateAgentRequest config request = .ok who ∧
    ∃ scope, (route request).scope = some scope ∧ who.allows scope = true

/-- What a request may do, by what it has learnt. -/
def permitted {γ : Type} : AgentOp γ → Noted → Prop
  | .listSessions who, _ => Granted config request who
  | .openSession who _ _, n => Granted config request who ∧ n.recorded = false
  | .onSession who id _, n => Granted config request who ∧ Mine who n id
  | .files who _, _ => Granted config request who
  | .setOwner id ownerId, n => n.created = some id ∧
      ∃ context, authenticateAgentRequest config request = .ok (.oauth context) ∧ context.ownerId = ownerId
  | .deleteOwner id, n => id ∈ n.purged
  | _, _ => True

/-- The session that was opened is recorded or purged, unless a call failed. -/
def Settled (n : Noted) : Prop :=
  ∀ id, n.created = some id → n.recorded = true ∨ id ∈ n.purged ∨ n.mishap = true

/-- How a request ends: its response is about sessions of the caller, and for an OAuth owner the session that was
opened is settled. -/
def Ended (r : Except BridgeError Response) (n : Noted) : Prop :=
  ∃ response, r = .ok response ∧ ∀ who, authenticateAgentRequest config request = .ok who →
    (∀ id ∈ response.content.about, Mine who n id) ∧ (who ≠ .static → Settled n)

variable {config request} {n : Noted} {who : Authorization}

/-! ## One request -/

section Rules

variable {γ : Type} {Q : Except BridgeError γ → Noted → Prop}

theorem permit_asked {call : AgentOp (Except BridgeError γ)} (hP : permitted config request call n)
    (hok : ∀ a, Q (.ok a) (noted call (.ok a) n)) (herror : ∀ e, Q (.error e) (noted call (.error e) n)) :
    Script.Along (permitted config request) note (asked call) Q n := by
  refine Script.along_bind (Script.along_perform hP ?_ nofun)
  rintro (e | a)
  · exact Script.along_throw (herror e)
  · exact Script.along_pure (hok a)

theorem permit_demand {holds : Bool} {e : BridgeError} {Q : Except BridgeError Unit → Noted → Prop}
    (hok : holds = true → Q (.ok ()) n) (herror : Q (.error e) n) :
    Script.Along (permitted config request) note (demand holds e) Q n := by
  cases holds with
  | true => exact Script.along_pure (hok rfl)
  | false => exact Script.along_throw herror

end Rules

/-- Nothing was opened yet, nor recorded. -/
def Quiet (n : Noted) : Prop := n.created = none ∧ n.recorded = false

theorem Quiet.settled (h : Quiet n) : Settled n := by
  intro id hid
  rw [h.1] at hid
  cases hid

/-- What a request throws becomes a response that is about no session. -/
def Thrown (who : Authorization) (r : Except BridgeError Response) (n : Noted) : Prop :=
  match r with
  | .ok response => (∀ id ∈ response.content.about, Mine who n id) ∧ (who ≠ .static → Settled n)
  | .error _ => who ≠ .static → Settled n

theorem Quiet.thrown (h : Quiet n) {e : BridgeError} : Thrown who (.error e) n := fun _ => h.settled

theorem permit_requireSessionOwner {id : String} {Q : Except BridgeError Unit → Noted → Prop}
    (hok : ∀ seen, Mine who { n with seen := seen } id → Q (.ok ()) { n with seen := seen })
    (herror : ∀ e seen, Q (.error e) { n with seen := seen }) :
    Script.Along (permitted config request) note (requireSessionOwner who id) Q n := by
  cases who with
  | static => exact Script.along_pure (hok n.seen trivial)
  | oauth context =>
    refine Script.along_bind (permit_asked trivial ?_ fun e => herror e n.seen)
    rintro (_ | ownerId)
    · exact permit_demand (fun h => absurd h (by simp)) (herror _ n.seen)
    · refine permit_demand (fun h => ?_) (herror _ _)
      -- the recorded owner is the caller
      obtain rfl : ownerId = context.ownerId := by simpa using h
      exact hok _ (.inl List.mem_cons_self)

/-- Of the sessions that are listed, an owner sees those that are recorded for it. -/
theorem permit_ownedBy {context : OAuthContext} {ids : List String}
    {Q : Except BridgeError (List String) → Noted → Prop}
    (hok : ∀ owned seen, n.seen ⊆ seen → (∀ id ∈ owned, (id, context.ownerId) ∈ seen) →
      Q (.ok owned) { n with seen := seen })
    (herror : ∀ e seen, Q (.error e) { n with seen := seen }) :
    Script.Along (permitted config request) note (ownedBy context.ownerId ids) Q n := by
  induction ids generalizing n Q with
  | nil => exact Script.along_pure (hok [] n.seen (List.Subset.refl _) nofun)
  | cons id ids ih =>
    refine Script.along_bind (permit_asked trivial ?_ fun e => herror e n.seen)
    intro owner
    -- what was seen stays seen while the rest is looked up
    have hrest : ∀ seen, n.seen ⊆ seen → (owner = some context.ownerId → (id, context.ownerId) ∈ seen) →
        Script.Along (permitted config request) note (ownedBy context.ownerId ids >>= fun rest =>
          pure (if owner == some context.ownerId then id :: rest else rest)) Q { n with seen := seen } := by
      intro seen hsub hseen
      refine Script.along_bind (ih ?_ fun e seen' => herror e seen')
      intro owned seen' hsub' howned
      refine Script.along_pure (hok _ seen' (fun _ hx => hsub' (hsub hx)) fun id' hid' => ?_)
      by_cases howner : owner = some context.ownerId
      · simp only [howner, beq_self_eq_true, if_true] at hid'
        rcases List.mem_cons.mp hid' with rfl | hid'
        · exact hsub' (hseen howner)
        · exact howned id' hid'
      · have hne : (owner == some context.ownerId) = false := by simpa using howner
        rw [hne] at hid'
        exact howned id' hid'
    rcases owner with _ | ownerId
    · exact hrest n.seen (List.Subset.refl _) nofun
    · refine hrest _ (List.subset_cons_self _ _) fun h => ?_
      obtain rfl := Option.some.inj h
      exact List.mem_cons_self

theorem permit_requireScope {scope : String} {Q : Except BridgeError Unit → Noted → Prop}
    (hok : who.allows scope = true → Q (.ok ()) n) (herror : ∀ e, Q (.error e) n) :
    Script.Along (permitted config request) note (requireScope who scope) Q n :=
  permit_demand hok (herror _)

theorem permit_sessionAsk {action : SessionAction} {Q : Except BridgeError SessionAsk → Noted → Prop}
    (hok : ∀ ask, (action = .purge → ask = .purge) → Q (.ok ask) n) (herror : ∀ e, Q (.error e) n) :
    Script.Along (permitted config request) note (sessionAsk request action) Q n := by
  cases action with
  | commands =>
    exact Script.along_bind (permit_asked trivial (fun _ => Script.along_pure (hok _ nofun)) herror)
  | input =>
    exact Script.along_bind (permit_asked trivial (fun _ => Script.along_pure (hok _ nofun)) herror)
  | output => exact Script.along_pure (hok _ nofun)
  | interrupt => exact Script.along_pure (hok _ nofun)
  | close => exact Script.along_pure (hok _ nofun)
  | purge => exact Script.along_pure (hok _ fun _ => rfl)

theorem permit_forget {id : String} {action : SessionAction} {Q : Except BridgeError Unit → Noted → Prop}
    (hpurged : action = .purge → id ∈ n.purged) (hok : Q (.ok ()) n) (herror : ∀ e, Q (.error e) n) :
    Script.Along (permitted config request) note (forget id action) Q n := by
  cases action with
  | purge => exact permit_asked (hpurged rfl) (fun _ => hok) herror
  | _ => exact Script.along_pure hok

/-- **A route of a session**: the session is the caller's. -/
theorem permit_onSession {id : String} {action : SessionAction} (hquiet : Quiet n)
    (hroute : (route request).scope = some action.scope) (hwho : authenticateAgentRequest config request = .ok who)
    (hmine : Mine who n id) :
    Script.Along (permitted config request) note (onSession who request id action) (Thrown who) n := by
  refine Script.along_bind (permit_requireScope (fun hscope => ?_) fun _ => hquiet.thrown)
  refine Script.along_bind (permit_sessionAsk (fun ask hask => ?_) fun _ => hquiet.thrown)
  have hgranted : Granted config request who := ⟨hwho, _, hroute, hscope⟩
  refine Script.along_bind (permit_asked ⟨hgranted, hmine⟩ (fun text => ?_) fun e => ?_)
  · -- the response is about the session
    have hanswer : ∀ n', Quiet n' → n'.seen = n.seen → Thrown who (.ok ⟨200, .session id text⟩) n' := by
      intro n' hquiet' hseen
      refine ⟨?_, fun _ => hquiet'.settled⟩
      intro id' hid'
      obtain rfl := List.mem_singleton.mp hid'
      cases who with
      | static => trivial
      | oauth context =>
        rcases hmine with hmine | hcreated
        · exact .inl (hseen ▸ hmine)
        · rw [hquiet.1] at hcreated
          cases hcreated
    have hquiet' : Quiet (noted (.onSession who id ask) (.ok text) n) := by
      cases ask <;> exact hquiet
    have hseen : (noted (.onSession who id ask) (.ok text) n).seen = n.seen := by
      cases ask <;> rfl
    refine Script.along_bind (permit_forget ?_ (Script.along_pure (hanswer _ hquiet' hseen)) fun _ => hquiet'.thrown)
    rintro rfl
    obtain rfl := hask rfl
    exact List.mem_cons_self
  · have hquiet' : Quiet (noted (.onSession who id ask) (.error e) n) := by
      cases ask <;> exact hquiet
    exact hquiet'.thrown

/-- The owner of a new session is recorded, or it is closed and purged, or one of these calls fails. -/
theorem permit_recordOwner {id : String} (hwho : authenticateAgentRequest config request = .ok who)
    (hscope : ∃ scope, (route request).scope = some scope ∧ who.allows scope = true) (hcreated : n.created = some id)
    {Q : Except BridgeError Unit → Noted → Prop}
    (hQ : ∀ r n', n'.created = some id → (who ≠ .static → Settled n') → Q r n') :
    Script.Along (permitted config request) note (recordOwner who id) Q n := by
  have hgranted : Granted config request who := ⟨hwho, hscope⟩
  cases who with
  | static => exact Script.along_pure (hQ _ n hcreated fun h => absurd rfl h)
  | oauth context =>
    refine Script.along_tryCatch (permit_asked ⟨hcreated, context, hwho, rfl⟩ ?_ ?_)
    · intro _
      exact hQ _ _ hcreated fun _ _ _ => .inl rfl
    · intro e
      -- the session is closed, and then it is purged
      have hpurge : ∀ n', n'.created = some id → Script.Along (permitted config request) note
          ((Script.ignored (asked (.onSession (.oauth context) id .purge) >>= fun _ => pure ())) >>= fun _ =>
            throw sessionOwnerStorageFailure : AgentScript Unit) Q n' := by
        intro n' hcreated'
        refine Script.along_bind (Script.along_ignored (Script.along_bind
          (permit_asked ⟨hgranted, .inr hcreated'⟩ ?_ ?_)))
        · intro text
          refine Script.along_pure (Script.along_throw (hQ _ _ hcreated' fun _ id' hid' => .inr (.inl ?_)))
          obtain rfl := Option.some.inj (hcreated'.symm.trans hid')
          exact List.mem_cons_self
        · intro e'
          exact Script.along_throw (hQ _ _ hcreated' fun _ _ _ => .inr (.inr rfl))
      refine Script.along_bind (Script.along_ignored (Script.along_bind
        (permit_asked ⟨hgranted, .inr hcreated⟩ ?_ ?_)))
      · intro text
        exact Script.along_pure (hpurge _ hcreated)
      · intro e'
        exact hpurge _ hcreated

theorem permit_fileCall {action : FileAction} {Q : Except BridgeError FileCall → Noted → Prop}
    (hok : ∀ call, Q (.ok call) n) (herror : ∀ e, Q (.error e) n) :
    Script.Along (permitted config request) note (fileCall request action) Q n := by
  cases action with
  | copy => exact Script.along_bind (permit_asked trivial (fun _ => Script.along_pure (hok _)) herror)
  | move => exact Script.along_bind (permit_asked trivial (fun _ => Script.along_pure (hok _)) herror)
  | _ => exact Script.along_pure (hok _)

theorem permit_visible {listed : List String} {Q : Except BridgeError (List String) → Noted → Prop}
    (hok : ∀ ids seen, (∀ id ∈ ids, Mine who { n with seen := seen } id) → Q (.ok ids) { n with seen := seen })
    (herror : ∀ e seen, Q (.error e) { n with seen := seen }) :
    Script.Along (permitted config request) note (visible who listed) Q n := by
  cases who with
  | static => exact Script.along_pure (hok listed n.seen fun _ _ => trivial)
  | oauth context =>
    exact permit_ownedBy (fun owned seen _ howned => hok owned seen fun id hid => .inl (howned id hid)) herror

/-- **A request whose caller is known** is permitted what it does. -/
theorem permit_serve (hwho : authenticateAgentRequest config request = .ok who) (hquiet : Quiet n) :
    Script.Along (permitted config request) note (serve config who request (route request)) (Thrown who) n := by
  rcases hroute : route request with _ | _ | _ | _ | ⟨sessionId, operationId⟩ | ⟨id, action⟩ | action | _
  case health => exact Script.along_throw hquiet.thrown
  case notFound => exact Script.along_throw hquiet.thrown
  case capabilities => exact Script.along_pure ⟨nofun, fun _ => hquiet.settled⟩
  case listSessions =>
    refine Script.along_bind (permit_requireScope (fun hscope => ?_) fun _ => hquiet.thrown)
    refine Script.along_bind (permit_asked ⟨hwho, _, by rw [hroute]; rfl, hscope⟩ (fun listed => ?_) fun _ => hquiet.thrown)
    refine Script.along_bind (permit_visible (fun ids seen hids => ?_) fun _ _ _ => hquiet.settled)
    exact Script.along_pure ⟨hids, fun _ => Quiet.settled hquiet⟩
  case openSession =>
    refine Script.along_bind (permit_requireScope (fun hscope => ?_) fun _ => hquiet.thrown)
    have hgranted : ∃ scope, (route request).scope = some scope ∧ who.allows scope = true :=
      ⟨_, by rw [hroute]; rfl, hscope⟩
    refine Script.along_bind (permit_asked trivial (fun body => ?_) fun _ => hquiet.thrown)
    refine Script.along_bind (permit_asked ⟨⟨hwho, hgranted⟩, hquiet.2⟩ (fun id => ?_) fun _ _ _ _ => .inr (.inr rfl))
    refine Script.along_bind (permit_recordOwner hwho hgranted rfl ?_)
    rintro (e | _) n' hcreated hsettled
    · exact hsettled
    · -- the response is about the session that was opened
      refine Script.along_pure ⟨?_, hsettled⟩
      intro id' hid'
      obtain rfl := List.mem_singleton.mp hid'
      cases who with
      | static => trivial
      | oauth context => exact .inr hcreated
  case operation =>
    refine Script.along_bind (permit_requireScope (fun hscope => ?_) fun _ => hquiet.thrown)
    refine Script.along_bind (permit_requireSessionOwner (fun seen hmine => ?_) fun _ _ _ => hquiet.settled)
    refine Script.along_bind (permit_asked ⟨⟨hwho, _, by rw [hroute]; rfl, hscope⟩, hmine⟩ (fun text => ?_)
      fun _ _ => Quiet.settled (n := { n with seen := seen, mishap := true }) hquiet)
    refine Script.along_pure ⟨?_, fun _ => Quiet.settled hquiet⟩
    intro id' hid'
    obtain rfl := List.mem_singleton.mp hid'
    exact hmine
  case session =>
    refine Script.along_bind (permit_requireSessionOwner (fun seen hmine => ?_) fun _ _ _ => hquiet.settled)
    rcases action with _ | action
    · exact Script.along_throw fun _ => Quiet.settled hquiet
    · exact permit_onSession hquiet (by rw [hroute]; rfl) hwho hmine
  case files =>
    refine Script.along_bind (permit_requireScope (fun hscope => ?_) fun _ => hquiet.thrown)
    refine Script.along_bind (permit_fileCall (fun call => ?_) fun _ => hquiet.thrown)
    refine Script.along_bind (permit_asked ⟨hwho, _, by rw [hroute]; rfl, hscope⟩ (fun text => ?_) fun _ => hquiet.thrown)
    exact Script.along_pure ⟨nofun, fun _ => hquiet.settled⟩

/-- **A request is permitted what it does**, whatever is answered, and ends as it should. -/
theorem permit_handle : Script.Along (permitted config request) note (handle config request) (Ended config request)
    Noted.nothing := by
  have hquiet : Quiet Noted.nothing := ⟨rfl, rfl⟩
  -- what is thrown is the response
  have hfails : ∀ e n, (∀ who, authenticateAgentRequest config request = .ok who → who ≠ .static → Settled n) →
      Ended config request (.ok ⟨e.status, .failure e⟩) n := by
    intro e n hsettled
    exact ⟨_, rfl, fun who hwho => ⟨nofun, hsettled who hwho⟩⟩
  have hfailsQuiet : ∀ e, Ended config request (.ok ⟨e.status, .failure e⟩) Noted.nothing :=
    fun e => hfails e _ fun _ _ _ => hquiet.settled
  refine Script.along_tryCatch (Script.along_bind (Script.along_perform trivial (fun paused => ?_) nofun))
  show Script.Along _ _ (ite _ _ _) _ _
  split
  · exact Script.along_pure ⟨_, rfl, fun _ _ => ⟨nofun, fun _ => hquiet.settled⟩⟩
  refine Script.along_bind (permit_demand (fun _ => ?_) (Script.along_pure (hfailsQuiet _)))
  refine Script.along_bind ?_
  rcases hwho : authenticateAgentRequest config request with e | who
  · exact Script.along_throw (Script.along_pure (hfailsQuiet e))
  refine Script.along_pure (Script.along_mono ?_ (permit_serve hwho hquiet))
  rintro (e | response) n hn
  · refine Script.along_pure (hfails e n fun who' hwho' => ?_)
    obtain rfl := Except.ok.inj (hwho.symm.trans hwho')
    exact hn
  · refine ⟨response, rfl, fun who' hwho' => ?_⟩
    obtain rfl := Except.ok.inj (hwho.symm.trans hwho')
    exact hn

end Request

/-! ## Requests in a pool -/

/-- What happens without a request: updates are prepared, bodies arrive, and calls are about to go in some way. -/
structure AgentEvent where
  paused : Bool
  incoming : Except BridgeError Body
  outcomes : List Outcome

/-- Requests at one Agent. -/
def requests (config : AgentConfig) :
    Calls AgentOp Empty AgentState AgentRequest Noted AgentEvent (Except BridgeError Response) where
  exec call s := .ok (call.exec s)
  Fault _ := False
  ready _ _ := True
  program request := (handle config request).run
  notes _ := .nothing
  note call a _ n := noted call a n
  elsewhere e s s' := s' = { s with paused := e.paused, incoming := e.incoming, outcomes := e.outcomes }

/-- What a request has learnt is true, and stays true. -/
structure Known (config : AgentConfig) (s : AgentState) (request : AgentRequest) (n : Noted) : Prop where
  seen : ∀ id ownerId, (id, ownerId) ∈ n.seen → s.OpenedFor id ownerId
  created : ∀ context id, authenticateAgentRequest config request = .ok (.oauth context) → n.created = some id →
    s.OpenedFor id context.ownerId
  purged : ∀ id ∈ n.purged, s.Purged id
  recorded : ∀ context id, authenticateAgentRequest config request = .ok (.oauth context) → n.recorded = true →
    n.created = some id → s.owners.lookup id = some context.ownerId ∨ s.Purged id

section Pool

variable {config : AgentConfig} {p p' : Pool AgentOp Empty AgentState AgentRequest Noted (Except BridgeError Response)}
  {request : AgentRequest} {n : Noted} {s s' : AgentState}
  {l : Event AgentRequest Noted AgentEvent (Except BridgeError Response)}

theorem known_nothing : Known config s request .nothing := ⟨nofun, nofun, nofun, nofun⟩

/-- **What is known stays true**, while records go only of sessions that are purged. -/
theorem Known.later (h : Known config s request n) (hl : s.Later s')
    (howners : ∀ id ownerId, s.owners.lookup id = some ownerId → s'.owners.lookup id = some ownerId ∨ s'.Purged id) :
    Known config s' request n where
  seen id ownerId hid := (h.seen id ownerId hid).later hl
  created context id hwho hid := (h.created context id hwho hid).later hl
  purged id hid := (h.purged id hid).later hl
  recorded context id hwho hrecorded hid := by
    rcases h.recorded context id hwho hrecorded hid with howner | hpurged
    · exact howners id _ howner
    · exact .inr (hpurged.later hl)

/-- A call of a request leaves a record, unless the session is purged. -/
theorem exec_records {γ : Type} {call : AgentOp γ} (h : Known config s request n)
    (hcall : permitted config request call n) {id ownerId : String} (hid : s.owners.lookup id = some ownerId) :
    (call.exec s).2.owners.lookup id = some ownerId ∨ (call.exec s).2.Purged id := by
  rcases exec_owners (o := call) hid with hkept | hdeletes
  · exact .inl hkept
  · right
    cases call with
    | deleteOwner id' =>
      obtain rfl := Option.some.inj hdeletes
      exact (h.purged _ hcall).later exec_later
    | _ => cases hdeletes

/-- **A record is made of who opened the session.** -/
theorem exec_owned {γ : Type} {call : AgentOp γ} (hs : s.Owned) (h : Known config s request n)
    (hcall : permitted config request call n) : (call.exec s).2.Owned := by
  intro id ownerId hid
  rcases exec_assigns hid with hold | hassigns
  · exact (hs id ownerId hold).later exec_later
  · cases call with
    | setOwner id' ownerId' =>
      obtain ⟨rfl, rfl⟩ := Prod.mk.inj (Option.some.inj hassigns)
      obtain ⟨hcreated, context, hwho, rfl⟩ := hcall
      exact (h.created context _ hwho hcreated).later exec_later
    | _ => cases hassigns

/-- **What a call answers is noted, and true.** -/
theorem known_noted {γ : Type} {call : AgentOp γ} (hs : s.Owned) (h : Known config s request n)
    (hcall : permitted config request call n) :
    Known config (call.exec s).2 request (noted call (call.exec s).1 n) := by
  have hkept := h.later exec_later fun id ownerId hid => exec_records h hcall hid
  rcases hanswer : call.exec s with ⟨a, s'⟩
  have ha : (call.exec s).1 = a := by rw [hanswer]
  have hs' : (call.exec s).2 = s' := by rw [hanswer]
  rw [hs'] at hkept
  cases call with
  | isAdmissionPaused => exact hkept
  | readJson => exact hkept
  | listSessions who => exact hkept
  | files who call => exact hkept
  | deleteOwner id => exact hkept
  | getOwner id =>
    rcases a with e | _ | ownerId
    · exact hkept
    · exact hkept
    · refine ⟨?_, hkept.created, hkept.purged, hkept.recorded⟩
      intro id' ownerId' hid'
      rcases List.mem_cons.mp hid' with heq | hid'
      · obtain ⟨rfl, rfl⟩ := Prod.mk.inj heq
        have := (hs _ _ (exec_getOwner ha)).later (exec_later (o := .getOwner id'))
        rwa [hs'] at this
      · exact hkept.seen id' ownerId' hid'
  | openSession who cwd label =>
    rcases a with e | id
    · exact ⟨hkept.seen, hkept.created, hkept.purged, hkept.recorded⟩
    · obtain ⟨⟨hwho, -⟩, hrecorded⟩ := hcall
      refine ⟨hkept.seen, ?_, hkept.purged, ?_⟩
      · intro context id' hwho' hid'
        obtain rfl := Option.some.inj hid'
        obtain rfl := Except.ok.inj (hwho.symm.trans hwho')
        have hopened := exec_opened ha
        rw [hs'] at hopened
        exact ⟨_, context, hopened, rfl, rfl⟩
      · intro context id' _ hrecorded'
        exact absurd (hrecorded.symm.trans hrecorded') nofun
  | setOwner id ownerId =>
    rcases a with e | _
    · exact hkept
    · refine ⟨hkept.seen, hkept.created, hkept.purged, ?_⟩
      intro context id' hwho' _ hid'
      obtain ⟨hcreated, context', hwho, rfl⟩ := hcall
      obtain rfl := Option.some.inj (hcreated.symm.trans hid')
      obtain rfl := Authorization.oauth.inj (Except.ok.inj (hwho.symm.trans hwho'))
      left
      rw [← hs']
      exact exec_setOwner ha
  | onSession who id ask =>
    rcases a with e | text
    · cases ask <;> exact ⟨hkept.seen, hkept.created, hkept.purged, hkept.recorded⟩
    · cases ask with
      | purge =>
        refine ⟨hkept.seen, hkept.created, ?_, hkept.recorded⟩
        intro id' hid'
        rcases List.mem_cons.mp hid' with rfl | hid'
        · rw [← hs']
          exact exec_purged ha
        · exact hkept.purged id' hid'
      | _ => exact hkept

/-- A request in flight is permitted what it still does, and ends as it should. -/
def Proper (config : AgentConfig) (c : InFlight AgentOp Empty AgentRequest Noted (Except BridgeError Response)) : Prop :=
  c.rest.Along (permitted config c.kind) note (Ended config c.kind) c.notes

/-- Records are of who opened the sessions, and what the requests in flight have learnt is true. -/
structure Sound (config : AgentConfig)
    (p : Pool AgentOp Empty AgentState AgentRequest Noted (Except BridgeError Response)) : Prop where
  owned : p.store.Owned
  known : ∀ i c, p.calls i = some c → Known config p.store c.kind c.notes

variable {paused : Bool} {incoming : Except BridgeError Body} {outcomes : List Outcome}
  {h : List (Event AgentRequest Noted AgentEvent (Except BridgeError Response) ×
    Pool AgentOp Empty AgentState AgentRequest Noted (Except BridgeError Response))}

theorem run_proper (hpath : Path (Pool.Step (requests config)) (Pool.still s) h p) :
    ∀ i c, p.calls i = some c → Proper config c := by
  have hdue := Pool.call_due (C := requests config) (fun request {_} => permitted config request)
    (fun _ {_} => note) (fun request => Ended config request) (fun _ known n => known = n) (fun _ => .nothing)
    (fun _ => permit_handle) (fun _ => rfl) (fun _ known n {γ} call r s s' hknown _ _ => ?_)
    (fun _ _ hcall => absurd hcall (by simp [Pool.still])) hpath
  · intro i c hc
    obtain ⟨known, hrest, rfl⟩ := hdue i c hc
    exact hrest
  · subst hknown
    rcases r with e | a
    · cases e
    · rfl

/-- **A step keeps what is known true**, and moves sessions and records onward. -/
theorem sound_step (hp : Sound config p) (hproper : ∀ i c, p.calls i = some c → Proper config c)
    (hs : Pool.Step (requests config) p l p') : Sound config p' ∧ p.store.Later p'.store := by
  cases hs with
  | begins hi =>
    refine ⟨⟨hp.owned, fun j d hd => ?_⟩, .refl _⟩
    rcases Pool.put_cases hd with ⟨-, heq⟩ | ⟨-, hd⟩
    · obtain rfl := Option.some.inj heq
      exact known_nothing
    · exact hp.known j d hd
  | @operates i request n γ call k r s hi hready hans =>
    cases hans with
    | refusal he => cases he
    | fault hf => cases hf
    | effect he =>
      have hexec : call.exec p.store = (_, s) := Except.ok.inj he
      obtain ⟨hcall, -⟩ := hproper _ _ hi
      have hown := hp.known _ _ hi
      have hs : s = (call.exec p.store).2 := by rw [hexec]
      subst hs
      refine ⟨⟨exec_owned hp.owned hown hcall, fun j d hd => ?_⟩, exec_later⟩
      rcases Pool.put_cases (q := p) hd with ⟨-, heq⟩ | ⟨-, hd⟩
      · obtain rfl := Option.some.inj heq
        have hknown := known_noted hp.owned hown hcall
        rw [hexec] at hknown
        exact hexec ▸ hknown
      · exact (hp.known j d hd).later exec_later fun id ownerId hid => exec_records hown hcall hid
  | returns hi =>
    refine ⟨⟨hp.owned, fun j d hd => ?_⟩, .refl _⟩
    rcases Pool.put_cases hd with ⟨-, heq⟩ | ⟨-, hd⟩
    · cases heq
    · exact hp.known j d hd
  | elsewhere he =>
    obtain rfl := he
    exact ⟨⟨hp.owned, fun j d hd => (hp.known j d hd).later (.of_sessions rfl) fun _ _ => .inl⟩, .of_sessions rfl⟩

theorem run_sound (hpath : Path (Pool.Step (requests config)) (Pool.still (.initial paused incoming outcomes)) h p) :
    Sound config p :=
  hpath.history (I := fun _ p => Sound config p) ⟨nofun, fun _ _ hc => absurd hc nofun⟩ fun hpath hp hs =>
    (sound_step hp (run_proper hpath) hs).1

/-- From a state of a run on, sessions are kept, and so are owners: a record is never of another owner. -/
theorem run_later {p₀ : Pool AgentOp Empty AgentState AgentRequest Noted (Except BridgeError Response)}
    {h₀ : List (Event AgentRequest Noted AgentEvent (Except BridgeError Response) ×
      Pool AgentOp Empty AgentState AgentRequest Noted (Except BridgeError Response))}
    (hbefore : Path (Pool.Step (requests config)) (Pool.still (.initial paused incoming outcomes)) h₀ p₀)
    (hpath : Path (Pool.Step (requests config)) p₀ h p) : p₀.store.Later p.store :=
  hpath.history (I := fun _ p => p₀.store.Later p.store) (.refl _) fun hpath hl hs =>
    hl.trans (sound_step (run_sound (hbefore.trans hpath)) (run_proper (hbefore.trans hpath)) hs).2

/-- For whom a call of the Session Host or of the file manager is made. -/
def AgentOp.askedBy {γ : Type} : AgentOp γ → Option Authorization
  | .listSessions who => some who
  | .openSession who _ _ => some who
  | .onSession who _ _ => some who
  | .files who _ => some who
  | _ => none

/-- The session that a call is about. -/
def AgentOp.about {γ : Type} : AgentOp γ → Option String
  | .onSession _ id _ => some id
  | _ => none

/-- A request has been answered: for an OAuth owner, the response is about sessions that were opened for it, and the
session that was opened is recorded for it, or closed and purged, or the Session Host failed to open, close or purge
it. -/
def Answered (config : AgentConfig) (s : AgentState) (request : AgentRequest) (n : Noted)
    (r : Except BridgeError Response) : Prop :=
  ∃ response, r = .ok response ∧ ∀ context, authenticateAgentRequest config request = .ok (.oauth context) →
    (∀ id ∈ response.content.about, s.OpenedFor id context.ownerId) ∧
    ∀ id, n.created = some id →
      s.owners.lookup id = some context.ownerId ∨ s.Purged id ∨ n.mishap = true

theorem answered_of_ended {r : Except BridgeError Response} (hn : Known config s request n)
    (h : Ended config request r n) : Answered config s request n r := by
  obtain ⟨response, rfl, hended⟩ := h
  refine ⟨response, rfl, fun context hwho => ?_⟩
  obtain ⟨habout, hsettled⟩ := hended _ hwho
  refine ⟨fun id hid => ?_, fun id hid => ?_⟩
  · rcases habout id hid with hseen | hcreated
    · exact hn.seen _ _ hseen
    · exact hn.created _ _ hwho hcreated
  · rcases hsettled nofun id hid with hrecorded | hpurged | hmishap
    · rcases hn.recorded _ _ hwho hrecorded hid with howner | hpurged
      · exact .inl howner
      · exact .inr (.inl hpurged)
    · exact .inr (.inl (hn.purged _ hpurged))
    · exact .inr (.inr hmishap)

/-- **Sessions are isolated**, in every run of requests by any callers, whatever the Session Host and the store of
owners fail to do. A call for a caller is made with the scope of the route of its request; one about a session for an
OAuth owner is about a session that was opened for it, and so are the responses. A recorded owner is never another
one later. -/
theorem sessions_isolated
    (hpath : Path (Pool.Step (requests config)) (Pool.still (.initial paused incoming outcomes)) h p) :
    (∀ i request n (γ : Type) (call : AgentOp γ) k, p.calls i = some ⟨request, n, .call call k⟩ →
      (∀ who, call.askedBy = some who → Granted config request who) ∧
      ∀ id context, call.about = some id → call.askedBy = some (.oauth context) →
        p.store.OpenedFor id context.ownerId) ∧
    (∀ i request n r q, (.returns i request n r, q) ∈ h → Answered config q.store request n r) ∧
    ∀ l q, (l, q) ∈ h → ∀ id ownerId ownerId', q.store.owners.lookup id = some ownerId →
      p.store.owners.lookup id = some ownerId' → ownerId' = ownerId := by
  refine ⟨?_, ?_, ?_⟩
  · intro i request n γ call k hi
    obtain ⟨hcall, -⟩ := run_proper hpath i _ hi
    have hknown := (run_sound hpath).known i _ hi
    constructor
    · intro who hwho
      cases call with
      | listSessions who' =>
        obtain rfl := Option.some.inj hwho
        exact hcall
      | openSession who' cwd label =>
        obtain rfl := Option.some.inj hwho
        exact hcall.1
      | onSession who' id ask =>
        obtain rfl := Option.some.inj hwho
        exact hcall.1
      | files who' call =>
        obtain rfl := Option.some.inj hwho
        exact hcall
      | _ => cases hwho
    · intro id context habout hwho
      cases call with
      | onSession who' id' ask =>
        obtain rfl := Option.some.inj habout
        obtain rfl := Option.some.inj hwho
        obtain ⟨⟨hauth, -⟩, hmine⟩ := hcall
        rcases hmine with hseen | hcreated
        · exact hknown.seen _ _ hseen
        · exact hknown.created _ _ hauth hcreated
      | _ => cases habout
  · intro i request n r q hr
    obtain ⟨j, hj⟩ := List.mem_iff_getElem?.mp hr
    obtain ⟨q₁, hbefore, hs, -⟩ := hpath.step_at hj
    have hknown := (run_sound hbefore).known i
    have hproper := run_proper hbefore i
    cases hs with
    | returns hi => exact answered_of_ended (hknown _ hi) (hproper _ hi)
  · intro l q hq id ownerId ownerId' hid hid'
    obtain ⟨j, hj⟩ := List.mem_iff_getElem?.mp hq
    obtain ⟨q₁, hbefore, hs, hafter⟩ := hpath.step_at hj
    -- both records are of who opened the session
    have hopened := (run_sound (hbefore.snoc hs)).owned id ownerId hid
    exact ((run_sound hpath).owned id ownerId' hid').unique (hopened.later (run_later (hbefore.snoc hs) hafter))

/-! ## Requests that are computed -/

instance : Decides (requests config) (Condition.any : Condition AgentOp AgentState AgentRequest Noted AgentEvent) where
  ready _ _ := isTrue trivial
  operation _ _ _ _ _ := isTrue trivial
  beside _ _ _ _ := trivial

end Pool

/-- Requests with the token `o` are those of one owner, with one scope. -/
def sampleConfig : AgentConfig :=
  ⟨"agent", "s", some "o", fun _ => .ok ⟨"owner", ["terminal:execute"]⟩⟩

/-- The owner opens a session. -/
def sampleRequest : AgentRequest := ⟨"POST", ["v1", "sessions"], [], "Bearer o", none⟩

/-- An owner without the scope of the route is refused. -/
example : Authorization.allows (.oauth ⟨"owner", ["terminal:execute"]⟩) "terminal:read" = false ∧
    (route sampleRequest).scope = some "terminal:execute" := by decide +kernel

/-- The session is opened as `x`, and the next calls go in the given way. -/
def sampleState (outcomes : List Outcome) : AgentState :=
  .initial false (.ok []) (⟨"x", true, none⟩ :: outcomes)

/-- The request that a step answers, with what is left of a session. -/
def answering (id : String) (x : Event AgentRequest Noted AgentEvent (Except BridgeError Response) ×
    Pool AgentOp Empty AgentState AgentRequest Noted (Except BridgeError Response)) :
    Option (AgentRequest × Noted × Response × Option HostSession × Option String) :=
  match x.1 with
  | .returns _ request n (.ok response) =>
    some (request, n, response, x.2.store.sessions.lookup id, x.2.store.owners.lookup id)
  | _ => none

theorem answering_eq_some {id : String} {x : Event AgentRequest Noted AgentEvent (Except BridgeError Response) ×
      Pool AgentOp Empty AgentState AgentRequest Noted (Except BridgeError Response)} {request : AgentRequest}
    {n : Noted} {response : Response} {session : Option HostSession} {owner : Option String}
    (h : answering id x = some (request, n, response, session, owner)) :
    ∃ i, x = (.returns i request n (.ok response), x.2) ∧
      x.2.store.sessions.lookup id = session ∧ x.2.store.owners.lookup id = owner := by
  obtain ⟨l, q⟩ := x
  rw [answering] at h
  split at h
  · rename_i i request' n' response' hl
    simp only [Option.some.injEq, Prod.mk.injEq] at h
    obtain ⟨rfl, rfl, rfl, hsession, howner⟩ := h
    exact ⟨i, by rw [← hl], hsession, howner⟩
  · cases h

/-- A session is opened and recorded: the response is about a session that was opened for its owner. -/
theorem sessions_isolated_open : ∃ h p, Path (Pool.Step (requests sampleConfig)) (Pool.still (sampleState [])) h p ∧
    ∃ i n q, (.returns i sampleRequest n (.ok ⟨201, .opened "x"⟩), q) ∈ h ∧
      q.store.owners.lookup "x" = some "owner" ∧ q.store.OpenedFor "x" "owner" := by
  have hplay : ((Pool.play (requests sampleConfig) .any (.start 0 sampleRequest :: List.replicate 5 (.go 0))
      (Pool.still (sampleState []))).bind fun r => r.1.getLast?.bind (answering "x")) =
      some (sampleRequest, ⟨[], some "x", true, [], false⟩, ⟨201, .opened "x"⟩,
        some ⟨.oauth ⟨"owner", ["terminal:execute"]⟩, false, false⟩, some "owner") := by decide +kernel
  obtain ⟨⟨h, p⟩, hr, hlast⟩ := Option.bind_eq_some_iff.mp hplay
  obtain ⟨x, hx, hanswer⟩ := Option.bind_eq_some_iff.mp hlast
  obtain ⟨i, heq, -, howner⟩ := answering_eq_some hanswer
  have hpath := Pool.step_of_steps (Pool.play_path hr)
  have hmem : (.returns i sampleRequest _ _, x.2) ∈ h := heq ▸ List.mem_of_getLast? hx
  obtain ⟨response, hresponse, hanswered⟩ := (sessions_isolated hpath).2.1 _ _ _ _ _ hmem
  obtain rfl := Except.ok.inj hresponse
  have hwho : authenticateAgentRequest sampleConfig sampleRequest = .ok (.oauth ⟨"owner", ["terminal:execute"]⟩) := by
    rfl
  exact ⟨h, p, hpath, i, _, x.2, hmem, howner, (hanswered ⟨"owner", ["terminal:execute"]⟩ hwho).1 "x" List.mem_cons_self⟩

def sampleUnavailable : BridgeError := ⟨"session_host_unavailable", "Session Host is unavailable", 503⟩

/-- The store of owners fails, and so does the Session Host when the session is to be closed: the owner is answered,
and the session is neither recorded nor closed. -/
theorem session_left_open : ∃ h p, Path (Pool.Step (requests sampleConfig)) (Pool.still (sampleState
      [⟨"", false, none⟩, ⟨"", false, some sampleUnavailable⟩])) h p ∧
    ∃ i n q, (.returns i sampleRequest n (.ok ⟨503, .failure sessionOwnerStorageFailure⟩), q) ∈ h ∧
      n.created = some "x" ∧ q.store.owners.lookup "x" = none ∧
      q.store.sessions.lookup "x" = some ⟨.oauth ⟨"owner", ["terminal:execute"]⟩, false, false⟩ := by
  have hplay : ((Pool.play (requests sampleConfig) .any (.start 0 sampleRequest :: List.replicate 7 (.go 0))
      (Pool.still (sampleState [⟨"", false, none⟩, ⟨"", false, some sampleUnavailable⟩]))).bind fun r =>
        r.1.getLast?.bind (answering "x")) =
      some (sampleRequest, ⟨[], some "x", false, [], true⟩, ⟨503, .failure sessionOwnerStorageFailure⟩,
        some ⟨.oauth ⟨"owner", ["terminal:execute"]⟩, false, false⟩, none) := by decide +kernel
  obtain ⟨⟨h, p⟩, hr, hlast⟩ := Option.bind_eq_some_iff.mp hplay
  obtain ⟨x, hx, hanswer⟩ := Option.bind_eq_some_iff.mp hlast
  obtain ⟨i, heq, hsession, howner⟩ := answering_eq_some hanswer
  exact ⟨h, p, Pool.step_of_steps (Pool.play_path hr), i, _, x.2, heq ▸ List.mem_of_getLast? hx, rfl, howner, hsession⟩

end BegetBridge.Agent
