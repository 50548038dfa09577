import BegetBridge.Agent.Server

/-!
# The record of owners

What becomes of sessions and of their recorded owners in a call. A session keeps who opened it, and a record is
made only of who opened the session, so it is never one of two owners.

## Main definitions

* `AgentState.OpenedFor`, `AgentState.Purged`: a session was opened for an owner, and is closed and purged
* `AgentState.Later`: what sessions keep
* `AgentState.Owned`: the recorded owners are those for whom the sessions were opened

## Main results

* `exec_later`: a call keeps what sessions keep
* `exec_owners`, `exec_assigns`: which records go, and which are new
-/

namespace BegetBridge.Agent

open Relational
open Terminal (BridgeError)

namespace AgentState

/-- The session was opened by a request of the owner. -/
def OpenedFor (s : AgentState) (id ownerId : String) : Prop :=
  ∃ x context, s.sessions.lookup id = some x ∧ x.openedBy = .oauth context ∧ context.ownerId = ownerId

/-- The session is closed and purged. -/
def Purged (s : AgentState) (id : String) : Prop :=
  ∃ x, s.sessions.lookup id = some x ∧ x.closed = true ∧ x.purged = true

/-- Every session stays, with who opened it; closed it stays closed, purged it stays purged. -/
def Later (s s' : AgentState) : Prop :=
  ∀ id x, s.sessions.lookup id = some x → ∃ x', s'.sessions.lookup id = some x' ∧ x'.openedBy = x.openedBy ∧
    (x.closed = true → x'.closed = true) ∧ (x.purged = true → x'.purged = true)

/-- The recorded owner of a session is the one for whom it was opened. -/
def Owned (s : AgentState) : Prop := ∀ id ownerId, s.owners.lookup id = some ownerId → s.OpenedFor id ownerId

variable {s s' s'' : AgentState} {id ownerId : String}

theorem Later.refl (s : AgentState) : Later s s := fun _ x hx => ⟨x, hx, rfl, id, id⟩

theorem Later.trans (h : Later s s') (h' : Later s' s'') : Later s s'' := by
  intro id x hx
  obtain ⟨x', hx', hby, hclosed, hpurged⟩ := h id x hx
  obtain ⟨x'', hx'', hby', hclosed', hpurged'⟩ := h' id x' hx'
  exact ⟨x'', hx'', hby'.trans hby, hclosed' ∘ hclosed, hpurged' ∘ hpurged⟩

theorem Later.of_sessions (h : s'.sessions = s.sessions) : Later s s' := by
  intro id x hx
  exact ⟨x, h ▸ hx, rfl, fun hc => hc, fun hp => hp⟩

/-- A session is written over by one that keeps what it keeps. -/
theorem Later.insert {x y : HostSession} (hx : s.sessions.lookup id = some x) (hby : y.openedBy = x.openedBy)
    (hclosed : x.closed = true → y.closed = true) (hpurged : x.purged = true → y.purged = true) :
    Later s { s with sessions := s.sessions.insert id y } := by
  intro id' x' hx'
  by_cases hid : id' = id
  · subst hid
    obtain rfl := Option.some.inj (hx.symm.trans hx')
    exact ⟨y, KeyedMap.lookup_insert_iff.mpr (.inl ⟨rfl, rfl⟩), hby, hclosed, hpurged⟩
  · exact ⟨x', KeyedMap.lookup_insert_iff.mpr (.inr ⟨hid, hx'⟩), rfl, fun hc => hc, fun hp => hp⟩

theorem OpenedFor.later (h : s.OpenedFor id ownerId) (hl : Later s s') : s'.OpenedFor id ownerId := by
  obtain ⟨x, context, hx, hby, howner⟩ := h
  obtain ⟨x', hx', hby', -⟩ := hl id x hx
  exact ⟨x', context, hx', hby'.trans hby, howner⟩

theorem Purged.later (h : s.Purged id) (hl : Later s s') : s'.Purged id := by
  obtain ⟨x, hx, hclosed, hpurged⟩ := h
  obtain ⟨x', hx', -, hclosed', hpurged'⟩ := hl id x hx
  exact ⟨x', hx', hclosed' hclosed, hpurged' hpurged⟩

/-- **A session was opened for one owner.** -/
theorem OpenedFor.unique {ownerId' : String} (h : s.OpenedFor id ownerId) (h' : s.OpenedFor id ownerId') :
    ownerId = ownerId' := by
  obtain ⟨x, context, hx, hby, rfl⟩ := h
  obtain ⟨x', context', hx', hby', rfl⟩ := h'
  obtain rfl := Option.some.inj (hx.symm.trans hx')
  obtain rfl := Authorization.oauth.inj (hby.symm.trans hby')
  rfl

/-! ## Calls -/

/-- How a call goes: it is not reached, it is answered, or its answer is lost. -/
theorem through_cases {α : Type} (s : AgentState) (f : String → AgentState → Except BridgeError α × AgentState) :
    ∃ outcomes text, (∃ e, s.through f = (.error e, { s with outcomes := outcomes })) ∨
      s.through f = f text { s with outcomes := outcomes } ∨
      ∃ e, s.through f = (.error e, (f text { s with outcomes := outcomes }).2) := by
  rcases houtcomes : s.outcomes with _ | ⟨o, outcomes⟩
  · refine ⟨[], "", .inr (.inl ?_)⟩
    rw [through, houtcomes]
    cases s
    cases houtcomes
    rfl
  · refine ⟨outcomes, o.text, ?_⟩
    rw [through, houtcomes]
    simp only
    by_cases hreached : o.reached = true
    · simp only [hreached, Bool.not_true, Bool.false_eq_true, if_false]
      rcases o.lost with _ | e
      · exact .inr (.inl rfl)
      · exact .inr (.inr ⟨e, rfl⟩)
    · simp only [hreached, Bool.not_false, if_true]
      exact .inl ⟨_, rfl⟩

/-- What a call keeps, whichever way it goes. -/
theorem through_keeps {α : Type} {R : AgentState → Prop}
    {f : String → AgentState → Except BridgeError α × AgentState}
    (hs : ∀ outcomes, R { s with outcomes := outcomes })
    (hf : ∀ text outcomes, R (f text { s with outcomes := outcomes }).2) : R (s.through f).2 := by
  obtain ⟨outcomes, text, ⟨e, h⟩ | h | ⟨e, h⟩⟩ := through_cases s f
  · rw [h]
    exact hs outcomes
  · rw [h]
    exact hf text outcomes
  · rw [h]
    exact hf text outcomes

/-- What a call answers is what it was answered. -/
theorem through_ok {α : Type} {f : String → AgentState → Except BridgeError α × AgentState} {a : α}
    (h : (s.through f).1 = .ok a) :
    ∃ outcomes text, (f text { s with outcomes := outcomes }).1 = .ok a ∧
      (s.through f).2 = (f text { s with outcomes := outcomes }).2 := by
  obtain ⟨outcomes, text, ⟨e, heq⟩ | heq | ⟨e, heq⟩⟩ := through_cases s f
  · rw [heq] at h
    cases h
  · exact ⟨outcomes, text, heq ▸ h, by rw [heq]⟩
  · rw [heq] at h
    cases h

theorem ask_later {ask : SessionAsk} {text : String} : Later s (s.ask id ask text).2 := by
  rw [AgentState.ask]
  rcases hx : s.sessions.lookup id with _ | x
  · exact .refl s
  simp only
  by_cases hpurged : x.purged = true
  · simp only [hpurged, if_true]
    exact .refl s
  simp only [hpurged, Bool.false_eq_true, if_false]
  cases ask with
  | close => exact .insert hx rfl (fun _ => rfl) fun h => absurd h hpurged
  | purge =>
    by_cases hclosed : x.closed = true
    · simp only [hclosed, if_true]
      exact .insert hx rfl (fun _ => rfl) fun _ => rfl
    · simp only [hclosed, Bool.false_eq_true, if_false]
      exact .refl s
  | _ => exact .refl s

theorem ask_owners {ask : SessionAsk} {text : String} : (s.ask id ask text).2.owners = s.owners := by
  rw [AgentState.ask]
  rcases s.sessions.lookup id with _ | x
  · rfl
  simp only
  split
  · rfl
  · cases ask with
    | purge =>
      simp only
      split
      · rfl
      · rfl
    | _ => rfl

/-- A purge that succeeds leaves the session closed and purged. -/
theorem ask_purge {text answer : String} (h : (s.ask id .purge text).1 = .ok answer) :
    (s.ask id .purge text).2.Purged id := by
  rw [AgentState.ask] at h ⊢
  rcases hx : s.sessions.lookup id with _ | x
  · rw [hx] at h
    cases h
  rw [hx] at h
  simp only at h ⊢
  by_cases hpurged : x.purged = true
  · simp only [hpurged, if_true] at h
    cases h
  simp only [hpurged, Bool.false_eq_true, if_false] at h ⊢
  by_cases hclosed : x.closed = true
  · simp only [hclosed, if_true]
    exact ⟨_, KeyedMap.lookup_insert_iff.mpr (.inl ⟨rfl, rfl⟩), rfl, rfl⟩
  · simp only [hclosed, Bool.false_eq_true, if_false] at h
    cases h

theorem opened_later {who : Authorization} : Later s (s.opened who id).2 := by
  rw [opened]
  rcases hx : s.sessions.lookup id with _ | x
  · intro id' x' hx'
    have hne : id' ≠ id := by
      rintro rfl
      rw [hx] at hx'
      cases hx'
    exact ⟨x', KeyedMap.lookup_insert_iff.mpr (.inr ⟨hne, hx'⟩), rfl, fun h => h, fun h => h⟩
  · exact .refl s

theorem opened_owners {who : Authorization} : (s.opened who id).2.owners = s.owners := by
  rw [opened]
  split
  · rfl
  · rfl

theorem opened_ok {who : Authorization} {new : String} (h : (s.opened who id).1 = .ok new) :
    (s.opened who id).2.sessions.lookup new = some ⟨who, false, false⟩ := by
  rw [opened] at h ⊢
  split at h
  · cases h
  · obtain rfl := Except.ok.inj h
    exact KeyedMap.lookup_insert_iff.mpr (.inl ⟨rfl, rfl⟩)

theorem assigned_sessions : (s.assigned id ownerId).2.sessions = s.sessions := by
  rw [assigned]
  split
  · rfl
  · split
    · rfl
    · rfl

/-- An owner is recorded where none is, and where one is it stays. -/
theorem assigned_owners {id' owner : String} :
    (s.owners.lookup id' = some owner → (s.assigned id ownerId).2.owners.lookup id' = some owner) ∧
      ((s.assigned id ownerId).2.owners.lookup id' = some owner →
        s.owners.lookup id' = some owner ∨ id' = id ∧ owner = ownerId) := by
  rw [assigned]
  rcases hx : s.owners.lookup id with _ | current
  · constructor
    · intro h
      have hne : id' ≠ id := by
        rintro rfl
        rw [hx] at h
        cases h
      exact KeyedMap.lookup_insert_iff.mpr (.inr ⟨hne, h⟩)
    · intro h
      rcases KeyedMap.lookup_insert_iff.mp h with ⟨hid, howner⟩ | ⟨-, h⟩
      · exact .inr ⟨hid, howner⟩
      · exact .inl h
  · simp only
    split
    · exact ⟨fun h => h, .inl⟩
    · exact ⟨fun h => h, .inl⟩

theorem assigned_ok (h : (s.assigned id ownerId).1 = .ok ()) :
    (s.assigned id ownerId).2.owners.lookup id = some ownerId := by
  rw [assigned] at h ⊢
  rcases hx : s.owners.lookup id with _ | current
  · exact KeyedMap.lookup_insert_iff.mpr (.inl ⟨rfl, rfl⟩)
  · rw [hx] at h
    simp only at h ⊢
    by_cases hsame : (current == ownerId) = true
    · simp only [hsame, if_true]
      rw [hx, beq_iff_eq.mp hsame]
    · simp only [hsame, Bool.false_eq_true, if_false] at h
      cases h

end AgentState

section Exec

variable {α : Type} {o : AgentOp α} {s : AgentState} {id ownerId : String}

/-- The record that a call deletes. -/
def AgentOp.deletes {α : Type} : AgentOp α → Option String
  | .deleteOwner id => some id
  | _ => none

/-- The record that a call makes. -/
def AgentOp.assigns {α : Type} : AgentOp α → Option (String × String)
  | .setOwner id ownerId => some (id, ownerId)
  | _ => none

open AgentState

/-- **A call keeps what sessions keep.** -/
theorem exec_later : Later s (o.exec s).2 := by
  cases o with
  | isAdmissionPaused => exact .refl s
  | readJson => exact .refl s
  | listSessions who => exact through_keeps (fun _ => .of_sessions rfl) fun _ _ => .of_sessions rfl
  | openSession who cwd label =>
    exact through_keeps (fun _ => .of_sessions rfl) fun _ outcomes =>
      Later.trans (.of_sessions rfl) (opened_later (s := { s with outcomes := outcomes }))
  | onSession who id ask =>
    exact through_keeps (fun _ => .of_sessions rfl) fun _ outcomes =>
      Later.trans (.of_sessions rfl) (ask_later (s := { s with outcomes := outcomes }))
  | files who call => exact through_keeps (fun _ => .of_sessions rfl) fun _ _ => .of_sessions rfl
  | getOwner id =>
    rw [AgentOp.exec]
    split
    · exact through_keeps (fun _ => .of_sessions rfl) fun _ _ => .of_sessions rfl
    · exact .refl s
  | setOwner id ownerId =>
    rw [AgentOp.exec]
    split
    · exact through_keeps (fun _ => .of_sessions rfl) fun _ _ => .of_sessions assigned_sessions
    · exact .refl s
  | deleteOwner id =>
    rw [AgentOp.exec]
    split
    · exact through_keeps (fun _ => .of_sessions rfl) fun _ _ => .of_sessions rfl
    · exact .refl s

/-- **A record stays**, unless the call deletes it. -/
theorem exec_owners (h : s.owners.lookup id = some ownerId) :
    (o.exec s).2.owners.lookup id = some ownerId ∨ o.deletes = some id := by
  cases o with
  | isAdmissionPaused => exact .inl h
  | readJson => exact .inl h
  | listSessions who => exact .inl (through_keeps (R := fun s => s.owners.lookup id = _) (fun _ => h) fun _ _ => h)
  | openSession who cwd label =>
    refine .inl (through_keeps (R := fun s => s.owners.lookup id = _) (fun _ => h) fun _ _ => ?_)
    rw [opened_owners]
    exact h
  | onSession who id' ask =>
    refine .inl (through_keeps (R := fun s => s.owners.lookup id = _) (fun _ => h) fun _ _ => ?_)
    rw [ask_owners]
    exact h
  | files who call => exact .inl (through_keeps (R := fun s => s.owners.lookup id = _) (fun _ => h) fun _ _ => h)
  | getOwner id' =>
    left
    rw [AgentOp.exec]
    split
    · exact through_keeps (R := fun s => s.owners.lookup id = _) (fun _ => h) fun _ _ => h
    · exact h
  | setOwner id' ownerId' =>
    left
    rw [AgentOp.exec]
    split
    · exact through_keeps (R := fun s => s.owners.lookup id = _) (fun _ => h) fun _ _ => assigned_owners.1 h
    · exact h
  | deleteOwner id' =>
    by_cases hid : id' = id
    · exact .inr (congrArg some hid)
    left
    rw [AgentOp.exec]
    split
    · exact through_keeps (R := fun s => s.owners.lookup id = _) (fun _ => h) fun _ _ =>
        KeyedMap.lookup_erase_iff.mpr ⟨fun heq => hid heq.symm, h⟩
    · exact h

/-- **A record was there**, unless the call makes it. -/
theorem exec_assigns (h : (o.exec s).2.owners.lookup id = some ownerId) :
    s.owners.lookup id = some ownerId ∨ o.assigns = some (id, ownerId) := by
  revert h
  cases o with
  | isAdmissionPaused => exact .inl
  | readJson => exact .inl
  | listSessions who =>
    exact through_keeps (R := fun s' => s'.owners.lookup id = _ → _) (fun _ => .inl) fun _ _ => .inl
  | openSession who cwd label =>
    refine through_keeps (R := fun s' => s'.owners.lookup id = _ → _) (fun _ => .inl) fun _ _ => ?_
    rw [opened_owners]
    exact .inl
  | onSession who id' ask =>
    refine through_keeps (R := fun s' => s'.owners.lookup id = _ → _) (fun _ => .inl) fun _ _ => ?_
    rw [ask_owners]
    exact .inl
  | files who call =>
    exact through_keeps (R := fun s' => s'.owners.lookup id = _ → _) (fun _ => .inl) fun _ _ => .inl
  | getOwner id' =>
    rw [AgentOp.exec]
    split
    · exact through_keeps (R := fun s' => s'.owners.lookup id = _ → _) (fun _ => .inl) fun _ _ => .inl
    · exact .inl
  | setOwner id' ownerId' =>
    rw [AgentOp.exec]
    split
    · refine through_keeps (R := fun s' => s'.owners.lookup id = _ → _) (fun _ => .inl) fun _ _ h => ?_
      rcases assigned_owners.2 h with h | ⟨rfl, rfl⟩
      · exact .inl h
      · exact .inr rfl
    · exact .inl
  | deleteOwner id' =>
    rw [AgentOp.exec]
    split
    · exact through_keeps (R := fun s' => s'.owners.lookup id = _ → _) (fun _ => .inl) fun _ _ h =>
        .inl (KeyedMap.lookup_erase_iff.mp h).2
    · exact .inl

/-- A session that is opened is the caller's. -/
theorem exec_opened {who : Authorization} {cwd label : Option String}
    (h : ((AgentOp.openSession who cwd label).exec s).1 = .ok id) :
    ((AgentOp.openSession who cwd label).exec s).2.sessions.lookup id = some ⟨who, false, false⟩ := by
  obtain ⟨outcomes, text, hok, hstate⟩ := through_ok h
  show (AgentState.through _ _).2.sessions.lookup id = _
  rw [hstate]
  exact opened_ok hok

theorem exec_purged {who : Authorization} {text : String} (h : ((AgentOp.onSession who id .purge).exec s).1 = .ok text) :
    ((AgentOp.onSession who id .purge).exec s).2.Purged id := by
  obtain ⟨outcomes, text, hok, hstate⟩ := through_ok h
  show (AgentState.through _ _).2.Purged id
  rw [hstate]
  exact ask_purge hok

theorem exec_getOwner (h : ((AgentOp.getOwner id).exec s).1 = .ok (some ownerId)) :
    s.owners.lookup id = some ownerId := by
  rw [AgentOp.exec] at h
  split at h
  · obtain ⟨outcomes, text, hok, -⟩ := through_ok h
    exact Except.ok.inj hok
  · cases h

theorem exec_setOwner (h : ((AgentOp.setOwner id ownerId).exec s).1 = .ok ()) :
    ((AgentOp.setOwner id ownerId).exec s).2.owners.lookup id = some ownerId := by
  rw [AgentOp.exec] at h ⊢
  split at h
  · rename_i hvalid
    obtain ⟨outcomes, text, hok, hstate⟩ := through_ok h
    rw [if_pos hvalid, hstate]
    exact assigned_ok hok
  · cases h

end Exec

end BegetBridge.Agent
