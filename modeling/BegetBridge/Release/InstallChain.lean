import BegetBridge.Release.CleanInstallJournal

/-!
# A clean installation follows one chain

The phases of the journal are those of a chain that the authorization profile decides, each after the one before it,
and each was proven by the call that entered it.

## Main definitions

* `chain`: the phases of an installation with a profile
* `Justified`: what a call has found before it replaces a record
* `Inquiry`: a part of a transition that only asks

## Main results

* `permit_advanceCleanInstallJournal`: a transition replaces the record only where it is justified
* `clean_install_chain`: what holds in every run in which one profile is reported
-/

namespace BegetBridge.CleanInstallJournal

open Core Interleaving LockedFile Journal

/-! ## What a transition has found -/

/-- What a call has found before it replaces a record. -/
structure Justified (call : InstallCall) (asked : List (Inspection × Finding)) (previous r : InstallRecord) : Prop where
  accepted : accepts call previous = true
  next : r = { previous with phase := call.nextPhase }
  valid : validate r = .ok r
  profile : call.nextPhase ∈ boundPhases →
    ∃ authMode, (.authProfile, .text authMode) ∈ asked ∧ profileFits call authMode = true
  created : call.reaches "identities-ready" = true → (.created, .text "journal-bound") ∈ asked
  config : call.reaches "config-ready" = true → (.config, .text "bound-private") ∈ asked
  units : call.reaches "units-ready" = true → (.units, .text "bound-files") ∈ asked
  data : call.reaches "data-ready" = true →
    ∃ startupReady ownerReady authMode, (.data startupReady ownerReady authMode, .text "private-owned") ∈ asked
  paused : call.nextPhase ∈ ["startup-intent", "startup-ready"] → (.paused, .truth true) ∈ asked
  closedIngress : call.nextPhase ∈ ["startup-intent", "startup-ready"] →
    (.closedIngress, .text "closed-exclusive") ∈ asked

abbrev Learned := Known Inspection Finding InstallRecord

/-- Nothing has been written yet. -/
def Steady (phase : Phase) (seen : Option InstallRecord) (m : Learned) : Prop :=
  m.notes.phase = phase ∧ m.notes.seen = seen ∧ m.notes.staged = none ∧ m.notes.publishedAt = none

/-- A part of a transition that only asks: what was found stays found; where it goes on with a value, the value is as
it should be, and these were found. -/
def Inquiry {α : Type} (call : InstallCall) (p : InstallScript α) (Holds : α → Prop)
    (facts : α → List (Inspection × Finding)) : Prop :=
  ∀ ⦃phase : Phase⦄ ⦃seen : Option InstallRecord⦄ ⦃m : Learned⦄ ⦃P : Except InstallError α → Learned → Prop⦄,
    Steady phase seen m →
    (∀ a m', Steady phase seen m' → m.notes.asked ⊆ m'.notes.asked → Holds a → facts a ⊆ m'.notes.asked →
      P (.ok a) m') →
    (∀ e m', Steady phase seen m' → m.notes.asked ⊆ m'.notes.asked → P (.error e) m') →
    Permitted Justified call p P m

section Inquiries

variable {call : InstallCall} {α β : Type} {Holds : α → Prop} {facts : α → List (Inspection × Finding)}

theorem inquiry_pure {a : α} (ha : Holds a) : Inquiry call (pure a) Holds fun _ => [] :=
  fun _ _ _ _ hm hok _ => Script.along_pure (hok a _ hm (List.Subset.refl _) ha (List.nil_subset _))

theorem inquiry_throw {e : InstallError} : Inquiry call (throw e) Holds facts :=
  fun _ _ _ _ hm _ herror => Script.along_throw (herror e _ hm (List.Subset.refl _))

theorem inquiry_demand {holds : Bool} {e : InstallError} :
    Inquiry call (demand holds e) (fun _ => holds = true) fun _ => [] := by
  cases holds with
  | true => exact inquiry_pure rfl
  | false => exact inquiry_throw

/-- What was found first is found still. -/
theorem inquiry_bind {p : InstallScript α} {f : α → InstallScript β} {Holds' : α → β → Prop}
    {facts' : α → β → List (Inspection × Finding)} {Result : β → Prop} {found : β → List (Inspection × Finding)}
    (hp : Inquiry call p Holds facts) (hf : ∀ a, Holds a → Inquiry call (f a) (Holds' a) (facts' a))
    (hResult : ∀ a b, Holds a → Holds' a b → Result b) (hfound : ∀ a b, Holds a → Holds' a b → found b ⊆ facts a ++ facts' a b) :
    Inquiry call (p >>= f) Result found := by
  intro phase seen m P hm hok herror
  refine Script.along_bind (hp hm ?_ herror)
  intro a m₁ hm₁ hasked₁ ha hl
  refine hf a ha hm₁ ?_ fun e m₂ hm₂ hasked₂ => herror e m₂ hm₂ (List.Subset.trans hasked₁ hasked₂)
  intro b m₂ hm₂ hasked₂ hb hl'
  refine hok b m₂ hm₂ (List.Subset.trans hasked₁ hasked₂) (hResult a b ha hb) ?_
  exact List.Subset.trans (hfound a b ha hb) (List.append_subset.mpr ⟨List.Subset.trans hl hasked₂, hl'⟩)

theorem inquiry_then {p : InstallScript Unit} {q : InstallScript Unit} {A B : Prop}
    {l l' : List (Inspection × Finding)} (hp : Inquiry call p (fun _ => A) fun _ => l)
    (hq : Inquiry call q (fun _ => B) fun _ => l') :
    Inquiry call (do p; q) (fun _ => A ∧ B) fun _ => l ++ l' :=
  inquiry_bind hp (fun _ _ => hq) (fun _ _ ha hb => ⟨ha, hb⟩) fun _ _ _ _ => List.Subset.refl _

/-- What was found first does not matter. -/
theorem inquiry_after {p : InstallScript α} {f : α → InstallScript β} {Result : β → Prop}
    {found : β → List (Inspection × Finding)} (hp : Inquiry call p Holds facts)
    (hf : ∀ a, Holds a → Inquiry call (f a) Result found) : Inquiry call (p >>= f) Result found :=
  inquiry_bind hp hf (fun _ _ _ => id) fun _ _ _ _ => List.subset_append_right _ _

theorem inquiry_mono {p : InstallScript α} {Holds' : α → Prop} {facts' : α → List (Inspection × Finding)}
    (hp : Inquiry call p Holds facts) (hHolds : ∀ a, Holds a → Holds' a) (hfacts : ∀ a, Holds a → facts' a ⊆ facts a) :
    Inquiry call p Holds' facts' :=
  fun _ _ _ _ hm hok herror => hp hm (fun a m' hm' hasked ha hl =>
    hok a m' hm' hasked (hHolds a ha) (List.Subset.trans (hfacts a ha) hl)) herror

theorem inquiry_onlyIf {c : Bool} {p : InstallScript Unit} {A : Prop} {l : List (Inspection × Finding)}
    (hp : Inquiry call p (fun _ => A) fun _ => l) :
    Inquiry call (onlyIf c p) (fun _ => True) fun _ => if c then l else [] := by
  cases c with
  | true => exact inquiry_mono hp (fun _ _ => trivial) fun _ _ => List.Subset.refl _
  | false => exact inquiry_pure trivial

theorem inquiry_inspect {q : Inspection} : Inquiry call (inspect q) (fun _ => True) fun found => [(q, found)] := by
  intro phase seen m P hm hok herror
  refine Script.along_bind (Script.along_perform (.inr ⟨hm.2.2.1, hm.2.2.2⟩) (fun found => ?_)
    fun e => herror _ _ hm (List.Subset.refl _))
  have hfound : Permitted Justified call (pure found : InstallScript Finding) P
      { m with notes := m.notes.noted (.ask q) found 0 } :=
    Script.along_pure (hok found _ hm (List.subset_cons_self _ _) trivial (by simp [FileNotes.noted]))
  cases found with
  | thrown noEntry text => exact Script.along_throw (herror _ _ hm (List.subset_cons_self _ _))
  | truth b => exact hfound
  | text s => exact hfound
  | candidate artifactSha256 commit version => exact hfound
  | plan p => exact hfound
  | nothing => exact hfound

theorem inquiry_prove {q : Inspection} {expected : Finding} {text : String} :
    Inquiry call (prove q expected text) (fun _ => True) fun _ => [(q, expected)] := by
  refine inquiry_bind inquiry_inspect (fun found _ => inquiry_demand) (fun _ _ _ _ => trivial) ?_
  intro found _ _ heq
  rw [beq_iff_eq] at heq
  rw [heq, List.append_nil]
  exact List.Subset.refl _

/-- A lock file that is not there is looked for, and the error is caught. -/
theorem inquiry_noLeftover {suffix text : String} :
    Inquiry call (noLeftover suffix text) (fun _ => True) fun _ => [] := by
  intro phase seen m P hm hok herror
  refine Script.along_tryCatch ?_
  have hsought : Inquiry call (do let _ ← inspect (.leftover suffix); throw (.message text) : InstallScript Unit)
      (fun _ => True) fun _ => [] := inquiry_after inquiry_inspect fun _ _ => inquiry_throw
  refine hsought hm (fun a m' hm' hasked _ _ => hok a m' hm' hasked trivial (List.nil_subset _)) ?_
  intro error m' hm' hasked
  dsimp only
  split
  · exact Script.along_pure (hok () m' hm' hasked trivial (List.nil_subset _))
  · exact Script.along_throw (herror _ m' hm' hasked)

/-! ### The parts of a transition -/

theorem inquiry_privateParent {journalPath : String} :
    Inquiry call (privateParent journalPath) (fun _ => True) fun _ => [] :=
  inquiry_mono (inquiry_then inquiry_demand inquiry_prove) (fun _ _ => trivial) fun _ _ => List.nil_subset _

theorem inquiry_sameCandidate {current : InstallRecord} :
    Inquiry call (sameCandidate current) (fun _ => True) fun _ => [] := by
  refine inquiry_after inquiry_inspect fun found _ => ?_
  cases found with
  | candidate artifactSha256 commit version =>
    exact inquiry_mono inquiry_demand (fun _ _ => trivial) fun _ _ => List.nil_subset _
  | _ => exact inquiry_throw

theorem inquiry_inspectCandidate {current : InstallRecord} :
    Inquiry call (inspectCandidate current) (fun _ => True) fun _ => [] :=
  inquiry_after inquiry_sameCandidate fun _ _ =>
    inquiry_mono inquiry_prove (fun _ _ => trivial) fun _ _ => List.nil_subset _

theorem inquiry_reportedProfile :
    Inquiry call (reportedProfile call) (fun authMode => profileFits call authMode = true)
      fun authMode => [(.authProfile, .text authMode)] := by
  refine inquiry_bind inquiry_inspect (fun found _ => (?_ : Inquiry call _
    (fun authMode => found = .text authMode ∧ profileFits call authMode = true) fun _ => []))
    (fun _ _ _ hfits => hfits.2) ?_
  · split
    · exact inquiry_after inquiry_demand fun _ hfits => inquiry_pure ⟨rfl, hfits⟩
    · exact inquiry_throw
  · rintro found authMode - ⟨rfl, -⟩
    exact List.subset_append_left _ _

/-- The profile is found, where it is asked for, and fits the phases. -/
theorem inquiry_boundProfile :
    Inquiry call (boundProfile call)
      (fun authMode => call.nextPhase ∈ boundPhases → profileFits call authMode = true)
      fun authMode => if call.nextPhase ∈ boundPhases then [(.authProfile, .text authMode)] else [] := by
  unfold boundProfile
  by_cases hbound : call.nextPhase ∈ boundPhases
  · simp only [if_pos hbound]
    exact inquiry_mono inquiry_reportedProfile (fun _ hfits _ => hfits) fun _ _ => List.Subset.refl _
  · simp only [if_neg hbound]
    exact inquiry_pure fun h => absurd h hbound

theorem inquiry_noLeftovers {authMode : String} :
    Inquiry call (noLeftovers call authMode) (fun _ => True) fun _ => [] := by
  have hone : ∀ {c : Bool} {suffix text : String},
      Inquiry call (onlyIf c (noLeftover suffix text)) (fun _ => True) fun _ => [] := by
    intro c suffix text
    exact inquiry_mono (inquiry_onlyIf inquiry_noLeftover) (fun _ _ => trivial) fun _ _ => List.nil_subset _
  unfold noLeftovers
  iterate 9 refine inquiry_after hone fun _ _ => ?_
  exact hone

/-- What has to be found is found. -/
theorem inquiry_proofs {authMode : String} :
    Inquiry call (proofs call authMode) (fun _ => True) fun _ =>
      [(.created, .text "journal-bound")] ++
      (if call.reaches "config-ready" then [(.config, .text "bound-private")] else []) ++
      (if call.reaches "units-ready" then [(.units, .text "bound-files")] else []) ++
      (if call.reaches "data-ready" then [(.data (call.nextPhase == "startup-ready")
        (authMode == "oauth" && call.nextPhase != "owner-intent") authMode, .text "private-owned")] else []) ++
      (if call.nextPhase ∈ ["admission-ready", "owner-intent", "owner-ready", "startup-intent", "startup-ready"] then
        [(.paused, .truth true)] else []) ++
      (if call.nextPhase ∈ ["startup-intent", "startup-ready"] then
        [(.closedIngress, .text "closed-exclusive")] else []) := by
  have hone : ∀ {c : Bool} {q : Inspection} {expected : Finding} {text : String},
      Inquiry call (onlyIf c (prove q expected text)) (fun _ => True) fun _ => if c then [(q, expected)] else [] := by
    intro c q expected text
    exact inquiry_onlyIf inquiry_prove
  unfold proofs
  refine inquiry_mono (inquiry_then inquiry_prove (inquiry_then hone (inquiry_then hone (inquiry_then hone
    (inquiry_then hone (inquiry_then hone (inquiry_then hone (inquiry_then hone (inquiry_then hone (inquiry_then hone
    (inquiry_then hone (inquiry_then hone (inquiry_then hone (inquiry_then hone (inquiry_then hone
    (inquiry_onlyIf (inquiry_then inquiry_prove inquiry_prove))))))))))))))))) (fun _ _ => trivial) ?_
  rintro - - x hx
  simp only [List.mem_append] at hx ⊢
  simp only [decide_eq_true_eq]
  tauto

end Inquiries

/-! ## One transition -/

section Along

variable {call : InstallCall} {journalPath : String} {previous r r' : InstallRecord} {known : Learned}

theorem validate_ok (h : validate r = .ok r') : r' = r := by
  unfold validate at h
  split at h
  · exact (Except.ok.inj h).symm
  · cases h

theorem reaches_of_le {phase phase' : String} (hle : phaseIndex phase ≤ phaseIndex phase')
    (h : call.reaches phase' = true) : call.reaches phase = true :=
  decide_eq_true (hle.trans (of_decide_eq_true h))

theorem reaches_of_startup (h : call.nextPhase ∈ ["startup-intent", "startup-ready"]) :
    call.reaches "identities-ready" = true := by
  unfold InstallCall.reaches
  rcases List.mem_cons.mp h with heq | h
  · rw [heq]
    decide
  · rw [List.mem_singleton.mp h]
    decide

/-- The lock file may be removed after the failure, if it will be. -/
def Recoverable (e : InstallError) (m : Learned) : Prop :=
  m.broken = true ∨ m.notes.Inside ∨ e.retried = false

theorem recoverable_of_left {e : FileError} {m : Learned} (h : Known.Left e m) : Recoverable (.file e) m := by
  rcases h with h | h | rfl
  · exact .inl h
  · exact .inr (.inl h)
  · exact .inr (.inr rfl)

/-- The record is read under the lock file. -/
theorem permit_readCleanInstallJournal {P : Except InstallError InstallRecord → Learned → Prop}
    (h : Steady .holding none known) (hok : ∀ r m, Steady .holding (some r) m → P (.ok r) m)
    (herror : ∀ e m, m.notes.phase = .holding → P (.error e) m) :
    Permitted Justified call (readCleanInstallJournal journalPath) P known := by
  refine Script.along_bind (inquiry_privateParent h ?_ fun e m hm _ => herror e m hm.1)
  rintro ⟨⟩ m hm - - -
  refine Script.along_bind (inquiry_prove hm ?_ fun e m hm _ => herror e m hm.1)
  rintro ⟨⟩ m hm - - -
  refine Script.along_bind (Script.along_perform (.inr ⟨hm.1, hm.2.2.1⟩) (fun record => ?_) fun e => herror _ _ hm.1)
  refine permit_orThrow ?_
  rcases hvalidate : validate record with e | r
  · exact herror e _ hm.1
  · -- the record that is returned is the one that was read
    obtain rfl := validate_ok hvalidate
    exact hok r _ ⟨hm.1, rfl, hm.2.2⟩

/-- What was asked before the record is replaced. -/
theorem permit_transition {P : Except InstallError InstallRecord → Learned → Prop} (h : Steady .holding none known)
    (hok : ∀ r m, P (.ok r) m) (herror : ∀ e m, Recoverable e m → P (.error e) m) :
    Permitted Justified call (transition call journalPath) P known := by
  have hheld : ∀ (e : InstallError) (seen : Option InstallRecord) (m : Learned), Steady .holding seen m →
      P (.error e) m := fun e _ m hm => herror e m (.inr (.inl (.inl hm.1)))
  refine Script.along_bind (permit_readCleanInstallJournal h ?_ fun e m hm => herror e m (.inr (.inl (.inl hm))))
  intro current m₁ hm₁
  refine Script.along_bind (inquiry_demand hm₁ ?_ fun e m hm _ => hheld e _ m hm)
  intro _ m₂ hm₂ _ haccepts _
  refine Script.along_bind (inquiry_inspectCandidate hm₂ ?_ fun e m hm _ => hheld e _ m hm)
  intro _ m₃ hm₃ _ _ _
  refine Script.along_bind (inquiry_boundProfile hm₃ ?_ fun e m hm _ => hheld e _ m hm)
  intro authMode m₄ hm₄ _ hfits hprofile
  refine Script.along_bind (inquiry_noLeftovers hm₄ ?_ fun e m hm _ => hheld e _ m hm)
  intro _ m₅ hm₅ hasked₅ _ _
  refine Script.along_bind (inquiry_onlyIf inquiry_proofs hm₅ ?_ fun e m hm _ => hheld e _ m hm)
  intro _ m₆ hm₆ hasked₆ _ hproofs
  refine Script.along_bind (permit_orThrow ?_)
  rcases hvalidate : validate { current with phase := call.nextPhase } with e | next
  · exact hheld e _ m₆ hm₆
  obtain rfl := validate_ok hvalidate
  have hjustified : Justified call m₆.notes.asked current { current with phase := call.nextPhase } := by
    have hfound : call.reaches "identities-ready" = true → ∀ x ∈ _, x ∈ m₆.notes.asked := fun hreaches x hx =>
      hproofs (by simpa only [if_pos hreaches] using hx)
    refine ⟨haccepts, rfl, hvalidate, fun hbound => ⟨authMode, ?_, hfits hbound⟩, ?_, ?_, ?_, ?_, ?_, ?_⟩
    · exact hasked₆ (hasked₅ (hprofile (by simp [if_pos hbound])))
    · exact fun hreaches => hfound hreaches _ (by simp)
    · exact fun hreaches => hfound (reaches_of_le (by decide) hreaches) _ (by simp [hreaches])
    · exact fun hreaches => hfound (reaches_of_le (by decide) hreaches) _ (by simp [hreaches])
    · exact fun hreaches => ⟨call.nextPhase == "startup-ready", authMode == "oauth" && call.nextPhase != "owner-intent",
        authMode, hfound (reaches_of_le (by decide) hreaches) _ (by simp [hreaches])⟩
    · intro hstartup
      refine hfound (reaches_of_startup hstartup) _ ?_
      have hlater : call.nextPhase ∈ ["admission-ready", "owner-intent", "owner-ready", "startup-intent", "startup-ready"] :=
        List.mem_append_right ["admission-ready", "owner-intent", "owner-ready"] hstartup
      exact List.mem_append_left _ (List.mem_append_right _ (by rw [if_pos hlater]; exact List.mem_singleton_self _))
    · intro hstartup
      refine hfound (reaches_of_startup hstartup) _ ?_
      exact List.mem_append_right _ (by rw [if_pos hstartup]; exact List.mem_singleton_self _)
  refine Script.along_bind (permit_replaced hm₆.1 hm₆.2.2.1 ⟨current, hm₆.2.1, hjustified⟩ ?_ fun e m hm =>
    herror _ m (recoverable_of_left hm))
  intro m hphase _
  exact Script.along_bind (permit_unlocked (.inr hphase) (Script.along_pure (hok _ _)) fun e m hm =>
    herror _ m (recoverable_of_left hm))

/-- **A transition may do what it does**, whatever is answered. -/
theorem permit_advanceCleanInstallJournal :
    Permitted Justified call (advanceCleanInstallJournal call journalPath) (fun _ _ => True) .nothing := by
  have hstart : Steady .outside none .nothing := ⟨rfl, rfl, rfl, rfl⟩
  refine Script.along_bind (inquiry_prove hstart ?_ fun _ _ _ _ => trivial)
  rintro ⟨⟩ m hm - - -
  refine Script.along_bind (inquiry_privateParent hm ?_ fun _ _ _ _ => trivial)
  rintro ⟨⟩ m hm - - -
  refine Script.along_bind (permit_locked ⟨hm.1, hm.2.1, hm.2.2.1⟩ ?_ fun _ _ => trivial)
  have hheld : Steady .holding none { m with notes := { m.notes with phase := .holding } } := ⟨rfl, hm.2⟩
  refine Script.along_tryCatch (permit_transition hheld (fun _ _ => trivial) ?_)
  intro e m hrecoverable
  cases hretried : e.retried with
  | false =>
    show Permitted Justified call (do onlyIf e.retried _; throw e) _ m
    rw [hretried]
    exact Script.along_bind (Script.along_pure (Script.along_throw trivial))
  | true =>
    show Permitted Justified call (do onlyIf e.retried _; throw e) _ m
    rw [hretried]
    -- the lock file is this call's still
    have hunlock : allowed Justified call (.unlock : FileOp Inspection Finding InstallRecord Unit) m := by
      rcases hrecoverable with h | h | h
      · exact .inl h
      · exact .inr h
      · cases hretried.symm.trans h
    refine Script.along_bind (Script.along_bind (Script.along_ignored (Script.along_perform hunlock ?_ ?_)))
    · exact fun _ => permit_syncDir (Script.along_throw trivial) fun _ _ _ => trivial
    · exact fun _ => permit_syncDir (Script.along_throw trivial) fun _ _ _ => trivial

end Along

/-! ## The chains -/

/-- The phases of an installation: those of the owner are for OAuth only. -/
def chain (oauth : Bool) : List String :=
  PHASES.filter fun phase => oauth || !(phase ∈ ["owner-intent", "owner-ready"])

/-- Where a transition is accepted and its profile fits, it goes on to the next phase of the chain. -/
theorem chain_next : ∀ expected ∈ PHASES, ∀ next ∈ PHASES, ∀ static oauth : Bool,
    ((expected == "admission-ready" && next == "startup-intent" || phaseIndex next == phaseIndex expected + 1) &&
      (!(next ∈ boundPhases) || (static || oauth) &&
        !(expected == "admission-ready" && next == "startup-intent" && !static) &&
        !(next ∈ ["owner-intent", "owner-ready"] && !oauth) && !(expected == "owner-ready" && !oauth) &&
        !(static && oauth))) = true →
    expected ∈ chain oauth →
    next ∈ chain oauth ∧ (chain oauth).idxOf next = (chain oauth).idxOf expected + 1 := by
  decide +kernel

theorem chain_nodup : ∀ oauth : Bool, (chain oauth).Nodup := by decide +kernel

variable {call : InstallCall} {asked : List (Inspection × Finding)} {previous r : InstallRecord} {mode : String}

theorem mem_phases_of_valid (h : validate r = .ok r) : r.phase ∈ PHASES := by
  unfold validate at h
  split at h
  · rename_i hall
    simp only [Bool.and_eq_true, decide_eq_true_eq] at hall
    exact hall.1.1.1.1.1.1.1.1.1.1.1.1.1.1.2
  · cases h

/-- A record is replaced by one in the next phase of the chain. -/
theorem next_of_justified (h : Justified call asked previous r)
    (hmode : ∀ m, (.authProfile, .text m) ∈ asked → m = mode) (hprevious : previous.phase ∈ chain (mode == "oauth")) :
    r.phase ∈ chain (mode == "oauth") ∧
      (chain (mode == "oauth")).idxOf r.phase = (chain (mode == "oauth")).idxOf previous.phase + 1 := by
  have haccepts := h.accepted
  unfold accepts InstallCall.staticStartup at haccepts
  rw [Bool.and_eq_true, Bool.and_eq_true, beq_iff_eq, beq_iff_eq] at haccepts
  obtain ⟨⟨-, hexpected⟩, hmoves⟩ := haccepts
  have hnext : r.phase = call.nextPhase := by rw [h.next]
  refine chain_next previous.phase (List.mem_of_mem_filter hprevious) r.phase (mem_phases_of_valid h.valid)
    (mode == "static") _ ?_ hprevious
  rw [hnext, hexpected, hmoves, Bool.true_and]
  by_cases hbound : call.nextPhase ∈ boundPhases
  · obtain ⟨authMode, hasked, hfits⟩ := h.profile hbound
    obtain rfl := hmode authMode hasked
    unfold profileFits InstallCall.staticStartup at hfits
    have hknown : authMode = "static" ∨ authMode = "oauth" := by
      simp only [Bool.and_eq_true, decide_eq_true_eq] at hfits
      simpa using hfits.1.1.1
    rcases hknown with rfl | rfl
    · simpa [hbound] using hfits
    · simpa [hbound] using hfits
  · simp [hbound]

/-! ## Runs -/

section Runs

variable {journalPath : String}

abbrev InstallPool := FilePool Inspection Finding InstallRecord InstallCall (Except InstallError InstallRecord)

abbrev InstallEvent := FileEvent Inspection Finding InstallRecord InstallCall (Except InstallError InstallRecord)

abbrev InstallNotes := FileNotes Inspection Finding InstallRecord

/-- A profile that is reported is the one. -/
def Finding.reports (mode : String) : Finding → Bool
  | .text m => m == mode
  | _ => true

/-- One profile is reported. -/
def reporting (mode : String) : Condition (FileOp Inspection Finding InstallRecord)
    (FileState Inspection Finding InstallRecord) InstallCall InstallNotes (Inspection → Finding) where
  operation _ _ _ op s := match op with
    | .ask q => q = .authProfile → (s.answers .authProfile).reports mode = true
    | _ => True
  beside _ _ _ _ := True
  elsewhere _ _ := True
  aside _ _ _ _ := True

/-- A replacement that is justified, where the profile was reported. -/
def Replacement (mode : String) (call : InstallCall) (asked : List (Inspection × Finding))
    (previous r : InstallRecord) : Prop :=
  Justified call asked previous r ∧ ∀ m, (.authProfile, .text m) ∈ asked → m = mode

variable {p p' : InstallPool} {l : InstallEvent} {h : List (InstallEvent × InstallPool)}
  {s : FileState Inspection Finding InstallRecord} {r₀ : InstallRecord}

/-- Each call was told the one profile. -/
theorem run_reported (hpath : Path (Pool.Steps (installCalls journalPath) (reporting mode)) (Pool.still s) h p) :
    ∀ i c, p.calls i = some c → ∀ m, (.authProfile, .text m) ∈ c.notes.asked → m = mode := by
  refine hpath.invariant (I := fun p : InstallPool => ∀ i c, p.calls i = some c →
    ∀ m, (.authProfile, .text m) ∈ c.notes.asked → m = mode) (fun i c hc => absurd hc (by simp [Pool.still])) ?_
  rintro p l p' hp ⟨hmeets, hs⟩ j c hc
  cases hs with
  | begins hi =>
    rcases Pool.put_cases hc with ⟨-, heq⟩ | ⟨-, hc⟩
    · obtain rfl := Option.some.inj heq
      exact fun m hm => absurd hm List.not_mem_nil
    · exact hp j c hc
  | returns hi =>
    rcases Pool.put_cases hc with ⟨-, heq⟩ | ⟨-, hc⟩
    · cases heq
    · exact hp j c hc
  | elsewhere he => exact hp j c hc
  | @operates i kind n β op k r s hi hready hans =>
    rcases Pool.put_cases (q := p) hc with ⟨rfl, heq⟩ | ⟨-, hc⟩
    · obtain rfl := Option.some.inj heq
      have hn : ∀ m, (.authProfile, .text m) ∈ n.asked → m = mode := hp _ _ hi
      cases hans with
      | refusal he => exact hn
      | fault hf => exact hn
      | effect he =>
        cases op with
        | ask q =>
          obtain ⟨rfl, -⟩ := Prod.mk.inj (Except.ok.inj he)
          intro m hm
          rcases List.mem_cons.mp hm with heq | hm
          · -- the profile is asked for now
            obtain ⟨rfl, hfound⟩ := Prod.mk.inj heq
            have hreports : (p.store.answers .authProfile).reports mode = true := (hmeets _ _ _ _ _ hi).1 rfl
            rw [← hfound] at hreports
            exact eq_of_beq hreports
          · exact hn m hm
        | _ => exact hn
    · exact hp j c hc

theorem run_obedient (hpath : Path (Pool.Steps (installCalls journalPath) (reporting mode)) (Pool.still s) h p) :
    Obedient (Replacement mode) p l := by
  intro i call n β op k _ hi
  obtain ⟨known, ⟨hop, -⟩, hof⟩ :=
    run_allowed (fun _ => permit_advanceCleanInstallJournal) (hpath.mono And.right) i _ hi
  replace hop := hof.obeys hop
  cases op with
  | write name r =>
    obtain ⟨hphase, hstaged, hcreated, previous, hseen, hjustified⟩ := hop
    exact ⟨hphase, hstaged, hcreated, previous, hseen, hjustified, run_reported hpath i _ hi⟩
  | _ => exact hop

theorem run_install (hrecord : s.record = some r₀) (hpublished : s.published = [])
    (hpath : Path (Pool.Steps (installCalls journalPath) (reporting mode)) (Pool.still s) h p) :
    Recorded (Replacement mode) r₀ h p :=
  run_recorded hrecord hpublished hpath fun hpath _ _ => run_obedient hpath

/-- A call, in flight or returned, that has published the record at a place. -/
def Entered (h : List (InstallEvent × InstallPool)) (p : InstallPool) (k : Nat) (call : InstallCall)
    (asked : List (Inspection × Finding)) : Prop :=
  (∃ i c, p.calls i = some c ∧ c.notes.publishedAt = some k ∧ c.kind = call ∧ c.notes.asked = asked) ∨
    ∃ i n a q, (.returns i call n a, q) ∈ h ∧ n.publishedAt = some k ∧ n.asked = asked

/-- The record at a place was justified by what its call has found. -/
theorem replaced_of_recorded {k : Nat} (hp : Recorded (Replacement mode) r₀ h p)
    (hprevious : (r₀ :: p.store.published)[k]? = some previous) (hr : p.store.published[k]? = some r) :
    ∃ call asked, Entered h p k call asked ∧ Replacement mode call asked previous r := by
  have hunique : ∀ {call : InstallCall} {n : InstallNotes}, Made (Replacement mode) r₀ p.store.published call n k →
      Replacement mode call n.asked previous r := by
    rintro call n ⟨previous', r', hprevious', hr', hchange⟩
    obtain rfl := Option.some.inj (hprevious.symm.trans hprevious')
    obtain rfl := Option.some.inj (hr.symm.trans hr')
    exact hchange
  obtain ⟨x, hx⟩ := hp.borne k (List.getElem?_eq_some_iff.mp hr).1
  cases x with
  | inl i =>
    obtain ⟨c, hc, hk⟩ := hx
    exact ⟨c.kind, c.notes.asked, .inl ⟨i, c, hc, hk, rfl, rfl⟩, hunique (hp.inFlight i c k hc hk)⟩
  | inr j =>
    obtain ⟨i, call, n, a, q, hj, hk⟩ := hx
    have hmem := List.mem_of_getElem? hj
    exact ⟨call, n.asked, .inr ⟨i, n, a, q, hmem, hk, rfl⟩, hunique (hp.returned i call n a q k hmem hk)⟩

/-- The record at a place is in the phase at that place of the chain. -/
theorem phase_of_recorded {k : Nat} (hp : Recorded (Replacement mode) r₀ h p) (hphase : r₀.phase = "prepared")
    (hr : (r₀ :: p.store.published)[k]? = some r) :
    r.phase ∈ chain (mode == "oauth") ∧ (chain (mode == "oauth")).idxOf r.phase = k ∧
      { r with phase := "prepared" } = r₀ := by
  induction k generalizing r with
  | zero =>
    obtain rfl := Option.some.inj hr
    rw [hphase]
    refine ⟨?_, ?_, ?_⟩
    · cases (mode == "oauth") <;> decide +kernel
    · cases (mode == "oauth") <;> decide +kernel
    · rw [← hphase]
  | succ k ih =>
    have hlt : k < (r₀ :: p.store.published).length := by
      have := (List.getElem?_eq_some_iff.mp hr).1
      omega
    obtain ⟨hmem, hindex, hsame⟩ := ih (List.getElem?_eq_getElem hlt)
    obtain ⟨call, asked, -, hjustified, hmode⟩ := replaced_of_recorded hp (List.getElem?_eq_getElem hlt) hr
    obtain ⟨hmem', hindex'⟩ := next_of_justified hjustified hmode hmem
    refine ⟨hmem', by rw [hindex', hindex], ?_⟩
    rw [← hsame, hjustified.next]

end Runs

/-! ## A run that is computed -/

section Sample

def sampleHex (n : Nat) : String := String.ofList (List.replicate n 'a')

def samplePlan : IdentityPlan := ⟨"agent", "/work", "example.test", "ipc", "mcp", "/release", "group", "worker"⟩

def sampleRecord (phase : String) : InstallRecord where
  format := FORMAT
  transactionId := sampleHex 36
  phase := phase
  workspace := "/candidate"
  releaseRoot := "/release"
  manifestSha256 := sampleHex 64
  artifactSha256 := sampleHex 64
  version := "1.0.0"
  commit := sampleHex 40
  identityPlan := samplePlan

/-- Everything is as it should be. -/
def sampleAnswers : Inspection → Finding
  | .candidate => .candidate (sampleHex 64) (sampleHex 40) "1.0.0"
  | .identityPlan => .plan samplePlan
  | .authProfile => .text "static"
  | _ => .truth true

def sampleState : FileState Inspection Finding InstallRecord :=
  ⟨some (sampleRecord "prepared"), false, fun _ => none, sampleAnswers, []⟩

/-- The condition is decided. -/
def decideReporting (call : InstallCall) (s : FileState Inspection Finding InstallRecord) (n : InstallNotes) {β : Type} :
    (op : FileOp Inspection Finding InstallRecord β) → Decidable ((reporting "static").operation call n op s)
  | .ask q => inferInstanceAs (Decidable (q = .authProfile → (s.answers .authProfile).reports "static" = true))
  | .lock => isTrue trivial
  | .settle => isTrue trivial
  | .read => isTrue trivial
  | .create _ => isTrue trivial
  | .write _ _ => isTrue trivial
  | .publish _ => isTrue trivial
  | .discard _ => isTrue trivial
  | .unlock => isTrue trivial

instance : Decides (installCalls "/journal") (reporting "static") where
  ready _ _ := isTrue trivial
  operation call n _ op s := decideReporting call s n op
  beside _ _ _ _ := trivial

end Sample

end BegetBridge.CleanInstallJournal
