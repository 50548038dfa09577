import BegetBridge.Release.CandidateActivation

/-!
# What an activation accounts for

Any calls of an activation may fail. Where it throws it has stopped what it has started, tells which stops have failed,
and has left the pointers or throws an `AggregateError`; except where the transition of the journal fails, which comes
after all that is undone, and where the switch has not undone what it should.

## Main definitions

* `Outcome`: how the switch of the pointers ends
* `owed`: what is owed at each call

## Main results

* `ends_outcome`: the switch, whatever the health of the candidate
* `meets_permitted`: the units are started under the permit
* `activation_accounted_iff`: the condition is exact
-/

namespace BegetBridge.CandidateActivation

open Core Interleaving LockedFile Posix WriterPermit
open MigrationJournal (JournalCheck JournalError MigrationRecord MigrationCall advanceMigrationJournal readMigrationJournal)
open VersionPointer (ReleaseRoot SwitchOp FsError SwitchError SwitchCall SwitchScript Place switchVersion switchBackend failing failed
  Accepts Late)

/-! ## How the switch ends -/

/-- How a switch ends that asks for the health of the candidate: what returns has not failed anywhere, and what throws
leaves the pointers, or is an `AggregateError`, but for what is lost. -/
def Outcome (s : ReleaseRoot) (places : List Place) : Except SwitchError (String × Option String) → ReleaseRoot → Prop
  | .ok _, _ => places = [] ∧ s.health = none
  | .error e, s' => (e.isAggregate = false → Unmoved s s') ↔ ¬(s.health = none ∧ LockOnly places ∨ PreviousLost s places)

section Outcome

open VersionPointer

variable {s s' s'' : ReleaseRoot} {call : SwitchCall} {places more : List Place}
  {r last : Except SwitchError (String × Option String)}

theorem filter_lock (hall : ∀ p ∈ places, p ≠ .rmdir ∧ p ≠ .last) (hmore : ∀ p ∈ more, p = .rmdir ∨ p = .last) :
    ((places ++ more).filter fun p => p ≠ .rmdir ∧ p ≠ .last) = places := by
  have hplaces : (places.filter fun p => p ≠ .rmdir ∧ p ≠ .last) = places :=
    List.filter_eq_self.mpr fun p hp => decide_eq_true (hall p hp)
  have hnone : (more.filter fun p => p ≠ .rmdir ∧ p ≠ .last) = [] := by
    refine List.filter_eq_nil_iff.mpr fun p hp => ?_
    rcases hmore p hp with rfl | rfl
    · simp
    · simp
  rw [List.filter_append, hplaces, hnone, List.append_nil]

theorem not_lockOnly (hall : ∀ p ∈ places, p ≠ .rmdir ∧ p ≠ .last) (hne : places ≠ []) :
    ¬LockOnly (places ++ more) := by
  rintro ⟨-, hlock⟩
  obtain ⟨p, hp⟩ := List.exists_mem_of_ne_nil _ hne
  rcases hlock p (List.mem_append_left _ hp) with h | h
  · exact (hall p hp).1 h
  · exact (hall p hp).2 h

theorem plain_not_aggregate {e : SwitchError} (he : Plain e) : e.isAggregate = false := by
  rcases he with rfl | rfl <;> rfl

/-- The switch has kept the lock. -/
theorem outcome_of_retained (hall : ∀ p ∈ places, p ≠ .rmdir ∧ p ≠ .last) (hend : Switched s call places r s')
    (hretained : retained r = true) : Outcome s places r s' := by
  cases hend with
  | done hplaces hhealth hcurrent hprevious => cases hretained
  | undone hcurrent hprevious hearly hwhy =>
    rcases hwhy with ⟨rfl | rfl, -⟩ | ⟨b, rfl, -⟩
    · cases hretained
    · cases hretained
    · cases hretained
  | half hcurrent hprevious hlate he =>
    rcases he with rfl | rfl
    · cases hretained
    · cases hretained
  | @stuck e e' s' hplaces =>
    refine iff_of_true nofun ?_
    obtain ⟨p, hp, hrestoring⟩ := hplaces
    rintro (⟨-, hlock⟩ | ⟨hlate, -⟩)
    · rw [← List.append_nil places] at hlock
      exact not_lockOnly hall (List.ne_nil_of_mem hp) hlock
    · rw [← List.append_nil places, filter_lock hall (by simp)] at hlate
      exact not_late_of_restoring ⟨p, hp, hrestoring⟩ hlate

/-- The lock is removed, or its removal fails. -/
theorem outcome_of_released (hinactive : s.target .current ≠ some call.next)
    (hall : ∀ p ∈ places, p ≠ .rmdir ∧ p ≠ .last) (hend : Switched s call places r s') (hretained : retained r = false)
    (hlinks : Unmoved s' s'')
    (hlast : more = [] ∧ last = r ∨ (more = [.rmdir] ∨ more = [.last]) ∧ last = .error (.call .io)) :
    Outcome s (places ++ more) last s'' := by
  have hmore : ∀ p ∈ more, p = .rmdir ∨ p = .last := by
    rcases hlast with ⟨rfl, -⟩ | ⟨rfl | rfl, -⟩
    · exact nofun
    · simp
    · simp
  have herror : ∀ e, r = .error e → ∃ e', last = .error e' ∧ (e' = e ∨ e' = .call .io) := by
    rintro e rfl
    rcases hlast with ⟨-, rfl⟩ | ⟨-, rfl⟩
    · exact ⟨_, rfl, .inl rfl⟩
    · exact ⟨_, rfl, .inr rfl⟩
  cases hend with
  | done hplaces hhealth hcurrent hprevious =>
    subst hplaces
    rcases hlast with ⟨rfl, rfl⟩ | ⟨hmore', rfl⟩
    · exact ⟨rfl, hhealth⟩
    · refine iff_of_false (fun h => ?_) fun h => h (.inl ⟨hhealth, ?_⟩)
      · -- the candidate is current
        have hsame := (h rfl).1
        rw [hlinks.1, hcurrent] at hsame
        exact hinactive (by simp [ReleaseRoot.target, ← hsame])
      · refine ⟨?_, by simpa using hmore⟩
        rcases hmore' with rfl | rfl <;> simp
  | @undone e s' hcurrent hprevious hearly hwhy =>
    obtain ⟨e', rfl, -⟩ := herror e rfl
    refine iff_of_true (fun _ => ⟨hlinks.1.trans hcurrent, hlinks.2.trans hprevious⟩) ?_
    rintro (⟨hhealth, hlock⟩ | ⟨hlate, -⟩)
    · rcases hwhy with ⟨-, hne⟩ | ⟨b, -, hsome, -⟩
      · exact not_lockOnly hall hne hlock
      · cases hhealth.symm.trans hsome
    · rw [filter_lock hall hmore] at hlate
      exact hearly hlate
  | @half e s' hcurrent hprevious hlate he =>
    obtain ⟨e', rfl, he'⟩ := herror e rfl
    have hplain : e'.isAggregate = false := by
      rcases he' with rfl | rfl
      · exact plain_not_aggregate he
      · rfl
    constructor
    · rintro h (⟨-, hlock⟩ | ⟨-, hne⟩)
      · exact not_lockOnly hall hlate.1 hlock
      · exact hne ((h hplain).2.symm.trans (hlinks.2.trans hprevious))
    · intro h _
      refine ⟨hlinks.1.trans hcurrent, hlinks.2.trans (hprevious.trans ?_)⟩
      by_contra hne
      exact h (.inr ⟨by rwa [filter_lock hall hmore], fun heq => hne heq.symm⟩)
  | stuck hplaces => cases hretained

/-- A call that fails before the lock is taken changes nothing. -/
theorem outcome_of_prepare : Outcome s [.prepare] (.error (.call .io)) s := by
  refine iff_of_true (fun _ => ⟨rfl, rfl⟩) ?_
  rintro (⟨-, hlock⟩ | ⟨hlate, -⟩)
  · rcases hlock.2 .prepare (by simp) with h | h <;> simp at h
  · rcases hlate.2 .prepare (by simp) with h | h <;> simp at h

/-- **How the switch ends.** -/
theorem ends_outcome (haccepts : Accepts s call) :
    Script.Ends switchBackend VersionPointer.Fault (Resolves (s.entries .current) call) (switchVersion call)
      (fun tr r s' => Outcome s (failed tr) r s') s := by
  apply ends_switchVersion_of haccepts outcome_of_prepare
  · exact fun places r s' hall hend _ hretained => outcome_of_retained hall hend hretained
  · intro places r s' hall hend _ hretained
    have hdone : Outcome s (places ++ []) r (s'.set .lock none) :=
      outcome_of_released haccepts.inactive hall hend hretained ⟨rfl, rfl⟩ (.inl ⟨rfl, rfl⟩)
    rw [List.append_nil] at hdone
    exact ⟨hdone, outcome_of_released haccepts.inactive hall hend hretained ⟨rfl, rfl⟩ (.inr ⟨.inl rfl, rfl⟩),
      outcome_of_released haccepts.inactive hall hend hretained ⟨rfl, rfl⟩ (.inr ⟨.inr rfl, rfl⟩)⟩

end Outcome

/-! ## The units are started under the permit -/

/-- A call of the scope fails. -/
def Fails (e : Errno) : Prop := e = .other

theorem scope_foldl (n : Seen) (hs : List (Entry (PermitOp UnitCall) Errno)) :
    hs.foldl Seen.scope n =
      { n with
        permitFailed := n.permitFailed || hs.any fun x => faulty x.reply
        attempted := n.attempted ++ hs.flatMap fun x => startedBy x.op
        performed := n.performed ++ hs.flatMap succeeded } := by
  induction hs generalizing n with
  | nil => simp
  | cons x hs ih => simp [ih, Seen.scope, Bool.or_assoc]

theorem faulty_eq_true {β : Type} {r : Except Errno β} : faulty r = true ↔ r = .error .other := by
  rcases r with e | b
  · cases e <;> simp [faulty]
  · simp [faulty]

theorem any_faulty {hs : List (Entry (PermitOp UnitCall) Errno)} :
    (hs.any fun x => faulty x.reply) = false ↔ Faultless Fails hs := by
  rw [List.any_eq_false]
  constructor
  · rintro h x hx e he rfl
    exact h x hx (faulty_eq_true.mpr he)
  · intro h x hx hfaulty
    exact h x hx _ (faulty_eq_true.mp hfaulty) rfl

/-- What was started was attempted. -/
theorem attempted_of_succeeded {hs : List (Entry (PermitOp UnitCall) Errno)} {unit : String}
    (h : Step.started unit ∈ hs.flatMap succeeded) : unit ∈ hs.flatMap fun x => startedBy x.op := by
  obtain ⟨⟨op, r⟩, hx, hstarted⟩ := List.mem_flatMap.mp h
  refine List.mem_flatMap.mpr ⟨_, hx, ?_⟩
  rcases op with c | a
  · cases hstarted
  · rcases r with e | b
    · cases hstarted
    · cases a with
      | startUnit unit' =>
        obtain rfl : unit = unit' := by simpa [succeeded, UnitCall.step] using hstarted
        exact List.mem_singleton.mpr rfl
      | assertHealthy => simp [succeeded, UnitCall.step] at hstarted

theorem careful_startUnits (us : List String) : Script.Careful Fails (startUnits us) := by
  induction us with
  | nil => exact Script.careful_pure
  | cons unit us ih => exact Script.careful_bind Script.careful_perform fun _ => ih

theorem total_startUnits {Q : Unit → List String → Prop} (us : List String) {running : List String}
    (hQ : ∀ running', Q () running') : Script.Total units (startUnits us) Q running := by
  induction us generalizing running with
  | nil => exact Script.total_pure (hQ _)
  | cons unit us ih =>
    apply Script.total_bind
    exact Script.total_perform rfl ih

section Started

variable {h : List (Entry (PermitOp UnitCall) Errno)} {t : Scope (List String)}

/-- The units are started one after another, and then the rest is done. -/
theorem meets_startUnits {rest : Script UnitCall Errno Errno Unit}
    {Q : List (Entry (PermitOp UnitCall) Errno) → Except Errno Unit → Scope (List String) → Prop} (us : List String)
    (herror : ∀ h' e t', Q h' (.error e) t')
    (hrest : ∀ h' t', h'.flatMap succeeded = h.flatMap succeeded ++ us.map .started →
      (rest.run.mapOp .act).Meets (scope units) Fails (fun _ _ _ => True) Q h' t') :
    ((startUnits us >>= fun _ => rest).run.mapOp .act).Meets (scope units) Fails (fun _ _ _ => True) Q h t := by
  induction us generalizing h t with
  | nil => exact hrest h t (by simp)
  | cons unit us ih =>
    refine ⟨trivial, ?_⟩
    rintro (e | u) t' -
    · exact herror _ _ _
    · refine ih fun h' t' hh' => hrest h' t' ?_
      rw [hh']
      simp [succeeded, UnitCall.step]

theorem meets_startCandidate (hh : h.flatMap succeeded = []) :
    (startCandidate.run.mapOp .act).Meets (scope units) Fails (fun _ _ _ => True)
      (fun h' r _ => True ∧ ∀ a, r = .ok a → h'.flatMap succeeded = START_ORDER.map .started ++ [.healthy]) h t := by
  apply meets_startUnits START_ORDER
  · exact fun _ _ _ => ⟨trivial, nofun⟩
  · intro h' t' hh'
    refine ⟨trivial, ?_⟩
    rintro (e | u) t'' -
    · exact ⟨trivial, nofun⟩
    · refine ⟨trivial, fun _ _ => ?_⟩
      rw [hh] at hh'
      simp [hh', succeeded, UnitCall.step]

/-- **The callback of the switch**: the units have the permit; what returns has started them all, in their order, and
found them healthy; and what throws is due to a call that has failed. -/
theorem meets_permitted {n : Seen} (hfit : t.site.Fit) (hperformed : n.performed = []) (hfailed : n.permitFailed = false) :
    Script.Meets (scope units) Fails (fun _ op s => actsPermitted op s) (withWriterStartPermit true true startCandidate)
      (fun hs r _ => (hs.foldl Seen.scope n).permitFailed = !r.isOk ∧
        (r.isOk = true → (hs.foldl Seen.scope n).Activated ∧ START_ORDER ⊆ (hs.foldl Seen.scope n).attempted)) [] t := by
  have hpermit : Script.Meets (scope units) Fails (fun _ op s => actsPermitted op s)
      (withWriterStartPermit true true startCandidate) (ScopeEnds t) [] t := meets_withWriterStartPermit startCandidate nofun
  have haction : Script.Careful Fails startCandidate :=
    Script.careful_bind (careful_startUnits _) fun _ => Script.careful_perform
  have hcareful : Script.Meets (scope units) Fails (fun _ _ _ => True) (withWriterStartPermit true true startCandidate)
      (fun hs r _ => Returns r → Faultless Fails hs) [] t :=
    Prog.Careful.meets (careful_withWriterStartPermit nofun haction) nofun
  have heval : Script.Meets (scope units) Fails (fun _ _ _ => True) (withWriterStartPermit true true startCandidate)
      (fun hs r t' => Faultless Fails hs → (withWriterStartPermit true true startCandidate).run.eval (scope units) t = (r, t'))
      [] t := Prog.meets_eval _
  have hkept : ∀ (l : List Step), KeptAround units Fails fun h _ => h.flatMap succeeded = l := by
    rintro l γ c h s s' (e | b) hh -
    · simp [hh, succeeded]
    · simp [hh, succeeded]
  have hdone : Script.Meets (scope units) Fails (fun _ _ _ => True) (withWriterStartPermit true true startCandidate)
      (fun h r _ => True ∧ ∀ a, r = .ok a → h.flatMap succeeded = START_ORDER.map .started ++ [.healthy]) [] t :=
    meets_inPermit (I := fun h _ => h.flatMap succeeded = []) (fun _ _ _ => trivial) (fun _ _ _ _ => trivial) (hkept _)
      (fun _ _ _ _ _ _ _ _ => trivial) (fun _ => hkept _) (fun h s hh _ => meets_startCandidate hh) rfl
  refine Prog.meets_mono ?_ ((hpermit.and (Prog.Meets.and hcareful (Prog.Meets.and heval hdone))).weaken fun _ _ _ h => h.1)
  rintro hs r t' ⟨-, hno, heval, -, hdone⟩
  rw [scope_foldl, Seen.Activated, hperformed, hfailed, Bool.false_or, List.nil_append]
  cases r with
  | ok u =>
    refine ⟨any_faulty.mpr (hno trivial), fun _ => ⟨hdone u rfl, fun unit hunit => ?_⟩⟩
    have hstarted : Step.started unit ∈ hs.flatMap succeeded := by
      rw [hdone u rfl]
      simp [hunit]
    exact List.mem_append_right _ (attempted_of_succeeded hstarted)
  | error e =>
    refine ⟨?_, nofun⟩
    -- where no call fails, the scope returns
    by_contra hnone
    have hfaultless : Faultless Fails hs := any_faulty.mp (Bool.eq_false_of_not_eq_true hnone)
    have htotal : Script.Total units startCandidate (fun _ _ => True) t.rest := by
      apply Script.total_bind
      exact total_startUnits START_ORDER fun _ => Script.total_perform rfl trivial
    obtain ⟨u, t'', hok, -⟩ := total_withWriterStartPermit (Q := fun _ _ => True) hfit htotal
    cases hok.symm.trans (heval hfaultless)

end Started

/-! ## The parts of the system -/

section Parts

variable {β σ ε : Type} {error : ε → CallError} {put : σ → Activation} {s s' : Activation}

theorem within_ok {b : β} {r : Except ε (β × σ)} (h : within error put r = .ok (b, s')) :
    ∃ t, r = .ok (b, t) ∧ s' = put t := by
  rcases r with e | ⟨b', t⟩
  · cases h
  · obtain ⟨rfl, rfl⟩ := Prod.mk.inj (Except.ok.inj h)
    exact ⟨t, rfl, rfl⟩

theorem within_error {e : CallError} {r : Except ε (β × σ)} (h : within error put r = .error e) :
    ∃ e', r = .error e' ∧ e = error e' := by
  rcases r with e' | ⟨b', t⟩
  · exact ⟨e', rfl, (Except.error.inj h).symm⟩
  · cases h

/-- A call of a part: what it does to the part, and nothing else. -/
theorem answer_part {Op : Type → Type} {B : Backend Op ε σ} {F : ε → Prop} {read : CallError → ε} {op : Op β}
    {whole : ActivateOp β} {t : σ} {r : Except CallError β} (hexec : activation.exec whole s = within error put (B.exec op t))
    (hput : put t = s) (hread : ∀ e, read (error e) = e) (hfault : ∀ reason, F (read (.failed reason)))
    (hans : Answer activation Fault whole s r s') : ∃ t', s' = put t' ∧ Answer B F op t (r.mapError read) t' := by
  cases hans with
  | effect h =>
    obtain ⟨t', hok, rfl⟩ := within_ok (hexec.symm.trans h)
    exact ⟨t', rfl, .effect hok⟩
  | refusal h =>
    obtain ⟨e, herror, rfl⟩ := within_error (hexec.symm.trans h)
    refine ⟨t, hput.symm, ?_⟩
    rw [Except.mapError, hread]
    exact .refusal herror
  | fault h =>
    obtain ⟨reason, rfl⟩ := h
    exact ⟨t, hput.symm, .fault (hfault reason)⟩

end Parts

/-- A call of the journal fails. -/
def Breaks (e : FileError) : Prop := e = .io

section Answers

variable {β : Type} {s s' : Activation} {r : Except CallError β}

theorem answer_scope {op : PermitOp UnitCall β} (hans : Answer activation Fault (.scope op) s r s') :
    ∃ t, s' = { s with scope := t } ∧ Answer (scope units) Fails op s.scope (r.mapError CallError.toErrno) t :=
  answer_part rfl rfl (fun _ => rfl) (fun _ => rfl) hans

theorem answer_switch {op : SwitchOp β} (hans : Answer activation Fault (.switch op) s r s') :
    ∃ t, s' = { s with root := t } ∧
      Answer switchBackend VersionPointer.Fault op s.root (r.mapError CallError.toFs) t :=
  answer_part rfl rfl (fun _ => rfl) (fun _ => rfl) hans

theorem answer_advance {op : FileOp JournalCheck Bool MigrationRecord β}
    (hans : Answer activation Fault (.advance op) s r s') :
    ∃ t, s' = { s with journal := t } ∧
      Answer MigrationJournal.journalFile Breaks op s.journal (r.mapError CallError.toFile) t :=
  answer_part rfl rfl (fun _ => rfl) (fun _ => rfl) hans

end Answers

/-- The releases, where the health of the candidate is known. -/
def withHealth (o : Option Bool) (s : ReleaseRoot) : ReleaseRoot := { s with health := o }

section Switch

variable {β : Type} {op : SwitchOp β} {o : Option Bool} {s t : ReleaseRoot} {r : Except FsError β}

/-- What does not ask for the health does not depend on it. -/
theorem exec_withHealth (hop : ¬VersionPointer.asks op) :
    op.exec (withHealth o s) = (op.exec s).map fun x => (x.1, withHealth o x.2) := by
  cases op
  case checkHealthy => exact absurd trivial hop
  case mkdir place name | rmdir place name | symlink place target name | unlink place name =>
    by_cases h : s.entries name = none
    · simp [SwitchOp.exec, withHealth, h, Except.map, ReleaseRoot.set]
    · simp [SwitchOp.exec, withHealth, h, Except.map, ReleaseRoot.set]
  case readlink place name =>
    rcases h : s.entries name with _ | (_ | target | _) <;> simp [SwitchOp.exec, withHealth, h, Except.map]
  case rename place source name =>
    rcases h : s.entries source with _ | node <;> simp [SwitchOp.exec, withHealth, h, Except.map, ReleaseRoot.set]
  case readPackage place name =>
    rcases h : s.releases.package name with _ | package <;> simp [SwitchOp.exec, withHealth, h, Except.map]
  case isDirectory place name =>
    rcases h : s.releases.directory name with _ | b <;> simp [SwitchOp.exec, withHealth, h, Except.map, VersionPointer.orMissing]
  case isPackageFile place name =>
    rcases h : s.releases.packageFile name with _ | b <;> simp [SwitchOp.exec, withHealth, h, Except.map, VersionPointer.orMissing]
  case isLink place name =>
    rcases h : s.entries name with _ | node <;> simp [SwitchOp.exec, withHealth, h, Except.map, VersionPointer.orMissing]
  all_goals rfl

theorem answer_withHealth (hop : ¬VersionPointer.asks op)
    (hans : Answer switchBackend VersionPointer.Fault op s r t) :
    Answer switchBackend VersionPointer.Fault op (withHealth o s) r (withHealth o t) := by
  cases hans with
  | effect h =>
    refine .effect ?_
    change op.exec _ = _
    rw [exec_withHealth hop]
    change op.exec s = _ at h
    rw [h]
    rfl
  | refusal h =>
    refine .refusal ?_
    change op.exec _ = _
    rw [exec_withHealth hop]
    change op.exec s = _ at h
    rw [h]
    rfl
  | fault h => exact .fault h

theorem accepts_withHealth {call : SwitchCall} (h : Accepts s call) : Accepts (withHealth o s) call where
  release := h.release.congr rfl
  current := h.current.congr rfl rfl
  previous := h.previous.congr rfl rfl
  inactive := h.inactive
  schemas := h.schemas
  realRoot := h.realRoot
  realReleases := h.realReleases
  unlocked := h.unlocked

/-- A call of the switch that is one of the whole. -/
theorem switching_eq {call : ActivateCall} {started : List String} (hop : ¬VersionPointer.asks op) :
    switching call op started = .asOne (.switch op) CallError.toFs started := by
  cases op <;> first | rfl | exact absurd trivial hop

end Switch

/-! ## The switch, with the units started inside -/

/-- What is owed at a call: the units have been started if the journal is advanced, and what is done under the permit
has the permit. -/
def owed {β : Type} (h : List (Entry ActivateOp CallError)) (op : ActivateOp β) (s : Activation) : Prop :=
  (s.phase = some "locally-healthy" → (seen h).Activated) ∧
    match op with
    | .scope op => actsPermitted op s.scope
    | _ => True

/-- What an activation has done when the health of the candidate is known, apart from where the switch has failed. -/
structure Asked (s : Activation) (o : Option Bool) (n : Seen) (started : List String) (s' : Activation) : Prop where
  started : started = n.attempted
  stopped : n.stopped = []
  stopErrors : n.stopErrors = []
  advanceFailed : n.advanceFailed = false
  permitFailed : n.permitFailed = o.isSome
  activated : o = none → n.Activated ∧ START_ORDER ⊆ n.attempted
  journal : s'.journal = s.journal

/-- Before the health is asked for, only the switch has done something. -/
structure Unasked (s : Activation) (n : Seen) (places : List Place) (started : List String) (s' : Activation) : Prop where
  seen : n = { Seen.nothing with places := places }
  started : started = []
  scope : s'.scope = s.scope
  journal : s'.journal = s.journal

section Candidate

variable {s s' : Activation} {call : ActivateCall} {h : List (Entry ActivateOp CallError)} {started : List String}
  {places : List Place}

theorem failed_snoc {hs : List (Entry SwitchOp FsError)} {x : Entry SwitchOp FsError} :
    failed (hs ++ [x]) = failed hs ++ failed [x] := VersionPointer.failed_append ..

/-- **The units are started**, and the switch learns how that ended. -/
theorem meets_checkHealthy (hready : Ready s call) (hphase : s.phase ≠ some "locally-healthy")
    (hbefore : Unasked s (seen h) places started s') :
    (checkHealthy call started).Meets activation Fault owed (fun h' x s'' =>
      ∃ o, s''.root = s'.root ∧ x.1 = (match o with | none => .ok () | some b => .error (.callback b)) ∧
        (seen h').places = places ∧ Asked s o (seen h') x.2 s'') h s' := by
  let n : Seen := { Seen.nothing with places := places }
  have hfit : s'.scope.site.Fit := hbefore.scope ▸ hready.permit
  rw [checkHealthy, hready.rooted, hready.guarded]
  have hstart : Script.Meets (scope units) Fails (fun _ op s => actsPermitted op s) _ _ [] s'.scope :=
    meets_permitted (n := n) hfit rfl rfl
  refine Prog.meets_bind (Prog.meets_mono ?_ (Prog.meets_within
    (R := fun es m h' t s'' => t = s''.scope ∧ seen h' = es.foldl Seen.scope n ∧ m = (seen h').attempted ∧
      s''.root = s'.root ∧ s''.journal = s.journal) ?_ (Prog.every_true _) hstart ?_))
  · rintro h' ⟨r, m⟩ s'' ⟨es, t, ⟨hfailed, hactivated⟩, rfl, hseen, rfl, hroot, hjournal⟩
    rw [← hseen] at hfailed hactivated
    have hrest : (seen h').places = places ∧ (seen h').stopped = [] ∧ (seen h').stopErrors = [] ∧
        (seen h').advanceFailed = false := by
      rw [hseen, scope_foldl]
      exact ⟨rfl, rfl, rfl, rfl⟩
    obtain ⟨hplaces, hstopped, herrors, hadvance⟩ := hrest
    cases r with
    | ok u => exact ⟨none, hroot, rfl, hplaces, rfl, hstopped, herrors, hadvance, hfailed, fun _ => hactivated rfl, hjournal⟩
    | error e => exact ⟨some (isAggregate e), hroot, rfl, hplaces, rfl, hstopped, herrors, hadvance, hfailed, nofun, hjournal⟩
  · rintro γ op m es h' t s'' - hpermitted ⟨rfl, hseen, rfl, hroot, hjournal⟩
    refine Prog.meets_asOne ⟨fun hhealthy => ?_, hpermitted⟩ fun r s₃ hans => ?_
    · rw [Activation.phase, hjournal] at hhealthy
      exact absurd hhealthy hphase
    · obtain ⟨t, rfl, hpart⟩ := answer_scope hans
      refine ⟨t, hpart, rfl, ?_, ?_, hroot, hjournal⟩
      · rw [seen_snoc, List.foldl_append, ← hseen]
        rfl
      · rw [seen_snoc]
        rfl
  · refine ⟨rfl, hbefore.seen, ?_, rfl, hbefore.journal⟩
    rw [hbefore.started, hbefore.seen]
    rfl

/-- A call of the switch, where the health is known or not. -/
theorem meets_switching {γ : Type} {op : SwitchOp γ} {Q : List (Entry ActivateOp CallError) →
    Except FsError γ × List String → Activation → Prop} (hop : ¬VersionPointer.asks op)
    (howed : s'.phase = some "locally-healthy" → (seen h).Activated)
    (hQ : ∀ (r : Except FsError γ) (t : ReleaseRoot) (h' : List (Entry ActivateOp CallError)),
      (∀ o, Answer switchBackend VersionPointer.Fault op (withHealth o s'.root) r (withHealth o t)) →
      seen h' = (seen h).switch ⟨op, r⟩ → Q h' (r, started) { s' with root := t }) :
    (switching call op started).Meets activation Fault owed Q h s' := by
  rw [switching_eq hop]
  refine Prog.meets_asOne ⟨howed, trivial⟩ fun r s₃ hans => ?_
  obtain ⟨t, rfl, hpart⟩ := answer_switch hans
  exact hQ _ t _ (fun o => answer_withHealth hop hpart) seen_snoc

/-- What the switch has done with the units started inside. -/
structure Candidate (s : Activation) (n : Seen) (result : Except SwitchError (String × Option String))
    (started : List String) (s' : Activation) : Prop where
  started : started = n.attempted
  stopped : n.stopped = []
  stopErrors : n.stopErrors = []
  advanceFailed : n.advanceFailed = false
  journal : s'.journal = s.journal
  done : ∀ links, result = .ok links → n.places = [] ∧ n.Activated ∧ START_ORDER ⊆ n.attempted
  undone : ∀ e, result = .error e → ((e.isAggregate = false → Unmoved s.root s'.root) ↔
    ¬(n.permitFailed = false ∧ LockOnly n.places ∨ PreviousLost s.root n.places))

/-- **The switch, with the units started inside.** -/
theorem meets_candidate (hready : Ready s call) (hphase : s.phase ≠ some "locally-healthy")
    (hbefore : Unasked s (seen h) [] [] s') (hroot : s'.root = s.root) :
    Script.Meets activation Fault owed (candidate call)
      (fun h' r s'' => ∃ x, r = .ok x ∧ Candidate s (seen h') x.1 x.2 s'') h s' := by
  have houtcome : ∀ o, (switchVersion call.switch).run.Meets switchBackend VersionPointer.Fault (fun _ _ _ => True)
      (fun hs r t => Outcome (withHealth o s.root) (failed hs) r t) [] (withHealth o s.root) := by
    intro o
    refine Prog.meets_mono ?_ (Prog.Ends.meets (ends_outcome (accepts_withHealth hready.releases)))
    rintro hs r t ⟨tr, rfl, hout⟩
    exact hout
  have hunhealthy : ∀ {s'' : Activation}, s''.journal = s.journal → s''.phase ≠ some "locally-healthy" := by
    intro s'' hjournal
    rwa [Activation.phase, hjournal]
  refine Prog.meets_bind (Prog.meets_mono ?_ (Prog.meets_once
    (R := fun o hs m h' t s'' => t = withHealth o s''.root ∧ Unasked s (seen h') (failed hs) m s'')
    (T := fun o hs m h' t s'' => t = withHealth o s''.root ∧ (seen h').places = failed hs ∧ Asked s o (seen h') m s'')
    ?_ ?_ ?_ VersionPointer.once_switchVersion houtcome ?_))
  · rintro h' ⟨result, started⟩ s'' (⟨o, hs, t, hout, rfl, hplaces, hasked⟩ | hall)
    · -- the health was asked for
      refine ⟨_, rfl, hasked.started, hasked.stopped, hasked.stopErrors, hasked.advanceFailed, hasked.journal, ?_, ?_⟩
      · rintro links rfl
        rw [hplaces]
        exact ⟨hout.1, hasked.activated hout.2⟩
      · rintro e rfl
        have hnone : (withHealth o s.root).health = none ↔ (seen h').permitFailed = false := by
          rw [hasked.permitFailed]
          cases o <;> simp [withHealth]
        rw [← hplaces] at hout
        change _ ↔ ¬((withHealth o s.root).health = none ∧ _ ∨ _) at hout
        rw [hnone] at hout
        exact hout
    · obtain ⟨hs, t, hout, rfl, hunasked⟩ := hall none
      have hseen := hunasked.seen
      refine ⟨_, rfl, ?_, ?_, ?_, ?_, hunasked.journal, ?_, ?_⟩
      · rw [hseen, hunasked.started]
        rfl
      · rw [hseen]
        rfl
      · rw [hseen]
        rfl
      · rw [hseen]
        rfl
      · -- what returns has asked for the health
        rintro links rfl
        obtain ⟨_, _, hout, -⟩ := hall (some false)
        cases hout.2
      · rintro e rfl
        have hplaces : (seen h').places = failed hs := by rw [hseen]
        have hpermit : (seen h').permitFailed = false := by rw [hseen]; rfl
        rw [hplaces, hpermit]
        have hnone : (withHealth none s.root).health = none ↔ false = false := by simp [withHealth]
        change _ ↔ ¬((withHealth none s.root).health = none ∧ _ ∨ _) at hout
        rw [hnone] at hout
        exact hout
  · intro γ op m hs h' t s'' hop hR
    have hunasked := (hR none).2
    apply meets_switching hop fun hhealthy => absurd hhealthy (hunhealthy hunasked.journal)
    intro r t' h'' hans hseen
    refine ⟨fun o => withHealth o t', fun o => ⟨?_, rfl, ?_, hunasked.started, hunasked.scope, hunasked.journal⟩⟩
    · rw [(hR o).1]
      exact hans o
    · rw [hseen, hunasked.seen, failed_snoc]
      rfl
  · intro γ op m hs h' t s'' hop hR
    cases op
    case checkHealthy place =>
      refine Prog.meets_mono ?_ (meets_checkHealthy hready hphase (hR none).2)
      rintro h'' ⟨r, m'⟩ s₃ ⟨o, hroot, hr, hplaces, hasked⟩
      refine ⟨o, withHealth o s₃.root, ?_, rfl, ?_, hasked⟩
      · rw [(hR o).1, hroot]
        cases hr
        cases o with
        | none => exact .effect rfl
        | some aggregate => exact .refusal rfl
      · rw [hplaces, failed_snoc]
        cases hr
        cases o <;> simp
    all_goals exact hop.elim
  · rintro o γ op m hs h' t s'' hop ⟨ht, hplaces, hasked⟩
    apply meets_switching hop fun hhealthy => absurd hhealthy (hunhealthy hasked.journal)
    intro r t' h'' hans hseen
    refine ⟨withHealth o t', ?_, rfl, ?_, ?_⟩
    · rw [ht]
      exact hans o
    · rw [hseen, failed_snoc, ← hplaces]
      rfl
    · rw [hseen]
      exact ⟨hasked.started, hasked.stopped, hasked.stopErrors, hasked.advanceFailed, hasked.permitFailed,
        hasked.activated, hasked.journal⟩
  · intro o
    rw [← hroot]
    exact ⟨rfl, hbefore⟩

end Candidate

/-! ## The units are stopped -/

section Stopped

variable {h : List (Entry ActivateOp CallError)} {s : Activation}

/-- Every unit is stopped, whatever fails. -/
theorem meets_stopUnits (us : List String) {Q : List (Entry ActivateOp CallError) → Except ActivationError (List CallError) →
    Activation → Prop} (hphase : s.phase ≠ some "locally-healthy")
    (hQ : ∀ failures h' s', s'.root = s.root → s'.journal = s.journal →
      seen h' = { seen h with stopped := (seen h).stopped ++ us, stopErrors := (seen h).stopErrors ++ failures } →
      Q h' (.ok failures) s') : Script.Meets activation Fault owed (stopUnits us) Q h s := by
  induction us generalizing h s Q with
  | nil => exact Script.meets_pure (hQ [] h s rfl rfl (by simp))
  | cons unit us ih =>
    have hstop : Script.Meets activation Fault owed
        ((Script.perform id (.own (.stopUnit unit)) : Script ActivateOp CallError CallError Unit).attempt :
          ActivateScript (Except CallError Unit))
        (fun h' r s' => ∃ stopped, r = .ok stopped ∧ s'.root = s.root ∧ s'.journal = s.journal ∧
          seen h' = { seen h with
            stopped := (seen h).stopped ++ [unit]
            stopErrors := (seen h).stopErrors ++ errorOf stopped }) h s := by
      apply Script.meets_attempt
      apply Script.meets_perform ⟨fun hhealthy => absurd hhealthy hphase, trivial⟩
      · rintro ⟨⟩ s' hexec
        obtain ⟨-, rfl⟩ := Prod.mk.inj (Except.ok.inj hexec)
        exact ⟨_, rfl, rfl, rfl, seen_snoc⟩
      · exact fun e => ⟨_, rfl, rfl, rfl, seen_snoc⟩
    apply Script.meets_bind hstop
    · rintro h₁ stopped s₁ ⟨_, hstopped, hroot, hjournal, hseen⟩
      obtain rfl := Except.ok.inj hstopped
      have hphase₁ : s₁.phase ≠ some "locally-healthy" := by rwa [Activation.phase, hjournal]
      apply Script.meets_bind (ih hphase₁ (Q := fun h' r s' => ∃ failures, r = .ok failures ∧ s'.root = s.root ∧
        s'.journal = s.journal ∧ seen h' = { seen h with
          stopped := (seen h).stopped ++ (unit :: us)
          stopErrors := (seen h).stopErrors ++ (errorOf stopped ++ failures) }) ?_)
      · rintro h₂ failures s₂ ⟨_, hfailures, hroot₂, hjournal₂, hseen₂⟩
        obtain rfl := Except.ok.inj hfailures
        cases stopped with
        | ok u => exact Script.meets_pure (hQ _ _ _ hroot₂ hjournal₂ hseen₂)
        | error e => exact Script.meets_pure (hQ _ _ _ hroot₂ hjournal₂ hseen₂)
      · rintro h' e s' ⟨_, he, -⟩
        cases he
      · intro failures h₂ s₂ hroot₂ hjournal₂ hseen₂
        refine ⟨failures, rfl, hroot₂.trans hroot, hjournal₂.trans hjournal, ?_⟩
        rw [hseen₂, hseen]
        simp
    · rintro h' e s' ⟨_, he, -⟩
      cases he

end Stopped

/-! ## The journal is advanced -/

section Advanced

variable {h : List (Entry ActivateOp CallError)} {s s' : Activation} {call : ActivateCall}

theorem advance_foldl (n : Seen) (hs : List (Entry (FileOp JournalCheck Bool MigrationRecord) FileError)) :
    hs.foldl Seen.advance n = { n with advanceFailed := n.advanceFailed || hs.any fun x => broken x.reply } := by
  induction hs generalizing n with
  | nil => simp
  | cons x hs ih => simp [ih, Seen.advance, Bool.or_assoc]

theorem any_broken {hs : List (Entry (FileOp JournalCheck Bool MigrationRecord) FileError)} :
    (hs.any fun x => broken x.reply) = false ↔ Faultless Breaks hs := by
  have hbroken : ∀ {β : Type} {r : Except FileError β}, broken r = true ↔ r = .error .io := by
    rintro β (e | b)
    · cases e <;> simp [broken]
    · simp [broken]
  rw [List.any_eq_false]
  constructor
  · rintro h x hx e he rfl
    exact h x hx (hbroken.mpr he)
  · intro h x hx hfails
    exact h x hx _ (hbroken.mp hfails) rfl

/-- **The journal is advanced**, unless a call of the transition fails. -/
theorem meets_advance (hready : Ready s call) (hjournal : s'.journal = s.journal) (hactivated : (seen h).Activated)
    (hnone : (seen h).advanceFailed = false) :
    Script.Meets activation Fault owed (onJournal .advance (advanceMigrationJournal call.journalPath (advanceCall call)))
      (fun h' r _ => seen h' = { seen h with advanceFailed := !r.isOk }) h s' := by
  have hcareful : Script.Meets MigrationJournal.journalFile Breaks (fun _ _ _ => True)
      (advanceMigrationJournal call.journalPath (advanceCall call)) (fun hs r _ => Returns r → Faultless Breaks hs) []
      s'.journal := Prog.Careful.meets MigrationJournal.careful_advanceMigrationJournal nofun
  have heval : Script.Meets MigrationJournal.journalFile Breaks (fun _ _ _ => True)
      (advanceMigrationJournal call.journalPath (advanceCall call)) (fun hs r t => Faultless Breaks hs →
        (advanceMigrationJournal call.journalPath (advanceCall call)).run.eval MigrationJournal.journalFile s'.journal = (r, t))
      [] s'.journal := Prog.meets_eval _
  refine Prog.meets_bind (Prog.meets_mono ?_ (Prog.meets_within
    (R := fun hs _ h' t s'' => t = s''.journal ∧ seen h' = hs.foldl Seen.advance (seen h)) ?_ (Prog.every_true _)
    (Prog.Meets.and hcareful heval) ⟨rfl, rfl⟩))
  · rintro h' ⟨r, ⟨⟩⟩ s'' ⟨hs, t, ⟨hno, heval⟩, rfl, hseen⟩
    change seen h' = { seen h with advanceFailed := !(r.mapError ActivationError.journal).isOk }
    rw [hseen, advance_foldl, hnone, Bool.false_or]
    cases r with
    | ok record =>
      rw [any_broken.mpr (hno trivial)]
      rfl
    | error e =>
      have hbroken : (hs.any fun x => broken x.reply) = true := by
        by_contra hnot
        -- where no call fails, the transition succeeds
        obtain ⟨record, t, hok, -⟩ := MigrationJournal.total_advanceMigrationJournal hready.path hready.answers
          hready.unlocked hready.temporary hready.record
        rw [← hjournal] at hok
        cases hok.symm.trans (heval (any_broken.mp (Bool.eq_false_of_not_eq_true hnot)))
      rw [hbroken]
      rfl
  · rintro γ op m hs h' t s'' - - ⟨rfl, hseen⟩
    refine Prog.meets_asOne ⟨fun _ => ?_, trivial⟩ fun r s₃ hans => ?_
    · rw [hseen, advance_foldl]
      exact hactivated
    · obtain ⟨t, rfl, hpart⟩ := answer_advance hans
      refine ⟨t, hpart, rfl, ?_⟩
      rw [seen_snoc, hseen, List.foldl_append]
      rfl

end Advanced

/-! ## What comes before the switch -/

/-- The journal is only looked at. -/
def looksAt {β : Type} : FileOp JournalCheck Bool MigrationRecord β → Prop
  | .ask _ => True
  | .read => True
  | _ => False

/-- No unit is stopped. -/
def stopsNothing {β : Type} : OwnCall β → Prop
  | .stopUnit _ => False
  | _ => True

/-- The releases, the permit and the journal are only looked at. -/
def early {β : Type} : ActivateOp β → Prop
  | .own op => stopsNothing op
  | .read op => looksAt op
  | _ => False

section Early

variable {α : Type} {call : ActivateCall}

theorem early_demand {holds : Bool} {text : String} : Script.Every early (demand holds text) := by
  cases holds with
  | true => exact Script.every_pure
  | false => exact Script.every_throw

theorem early_onJournal {p : MigrationJournal.JournalScript α} (hp : Script.Every looksAt p) :
    Script.Every early (onJournal .read p) := by
  have hhandled : ∀ {γ : Type} {q : Prog (FileOp JournalCheck Bool MigrationRecord) FileError γ}, q.Every looksAt →
      (q.handleWith (fun c (_ : Unit) => .asOne (.read c : ActivateOp _) CallError.toFile ()) ()).Every early := by
    intro γ q hq
    induction q with
    | done a => trivial
    | call op k ih => exact ⟨hq.1, fun r => ih _ (hq.2 _)⟩
  exact every_bind (hhandled hp) fun _ => trivial

theorem looksAt_readMigrationJournal {filename : String} : Script.Every looksAt (readMigrationJournal filename) := by
  have hdemand : ∀ {holds : Bool} {e : JournalError}, Script.Every looksAt
      (Journal.demand holds e : MigrationJournal.JournalScript Unit) := by
    rintro (_ | _) e
    · exact Script.every_throw
    · exact Script.every_pure
  have hcheck : ∀ {q : JournalCheck} {text : String}, Script.Every looksAt (MigrationJournal.check q text) :=
    Script.every_bind (Script.every_perform trivial) fun _ => hdemand
  apply Script.every_bind
  · exact Script.every_bind hdemand fun _ => hcheck
  · intro _
    apply Script.every_bind hcheck
    intro _
    apply Script.every_bind (Script.every_perform trivial)
    intro record
    cases MigrationJournal.validate record with
    | ok record => exact Script.every_pure
    | error e => exact Script.every_throw

theorem early_ingressClosed (us : List String) : Script.Every early (ingressClosed us) := by
  induction us with
  | nil => exact Script.every_pure
  | cons unit us ih =>
    apply Script.every_bind (Script.every_perform trivial)
    intro state
    exact Script.every_bind early_demand fun _ => ih

theorem early_preflight : Script.Every early (preflight call) := by
  apply Script.every_bind early_demand
  intro _
  apply Script.every_bind (early_onJournal looksAt_readMigrationJournal)
  intro journal
  apply Script.every_bind early_demand
  intro _
  apply Script.every_bind (Script.every_perform trivial)
  intro _
  apply Script.every_bind (Script.every_perform trivial)
  intro _
  apply Script.every_bind (Script.every_perform trivial)
  intro _
  apply Script.every_bind early_demand
  intro _
  apply Script.every_bind (Script.every_perform trivial)
  intro _
  apply Script.every_bind (Script.every_perform trivial)
  intro _
  apply Script.every_bind (early_ingressClosed _)
  intro _
  apply Script.every_bind (Script.every_perform trivial)
  intro _
  exact Script.every_perform trivial

variable {s s' s'' : Activation} {h : List (Entry ActivateOp CallError)}

/-- What is looked at stays, and nothing is noted. -/
theorem early_answer {β : Type} {op : ActivateOp β} {r : Except CallError β} (hop : early op)
    (hans : Answer activation Fault op s' r s'') :
    s''.root = s'.root ∧ s''.scope = s'.scope ∧ s''.journal = s'.journal ∧ seen (h ++ [⟨op, r⟩]) = seen h := by
  have hnote : seen (h ++ [⟨op, r⟩]) = seen h := by
    rw [seen_snoc]
    rcases op with op | op | op | op | op
    · cases op with
      | stopUnit unit => exact hop.elim
      | _ => rfl
    · rfl
    · exact hop.elim
    · exact hop.elim
    · exact hop.elim
  cases hans with
  | effect hexec =>
    rcases op with op | op | op | op | op
    · cases op with
      | verify check =>
        change (if s'.finds check then _ else _) = _ at hexec
        split at hexec
        · obtain ⟨-, rfl⟩ := Prod.mk.inj (Except.ok.inj hexec)
          exact ⟨rfl, rfl, rfl, hnote⟩
        · cases hexec
      | getState unit =>
        obtain ⟨-, rfl⟩ := Prod.mk.inj (Except.ok.inj hexec)
        exact ⟨rfl, rfl, rfl, hnote⟩
      | pause =>
        obtain ⟨-, rfl⟩ := Prod.mk.inj (Except.ok.inj hexec)
        exact ⟨rfl, rfl, rfl, hnote⟩
      | stopUnit unit => exact hop.elim
    · change within .file (fun t => { s' with journal := t }) (op.exec s'.journal) = _ at hexec
      obtain ⟨t, hread, rfl⟩ := within_ok hexec
      refine ⟨rfl, rfl, ?_, hnote⟩
      cases op with
      | ask q => exact (Prod.mk.inj (Except.ok.inj hread)).2.symm
      | read =>
        rcases hrecord : s'.journal.record with _ | record
        · simp [FileOp.exec, hrecord] at hread
        · simp only [FileOp.exec, hrecord, Except.ok.injEq, Prod.mk.injEq] at hread
          exact hread.2.symm
      | _ => exact hop.elim
    · exact hop.elim
    · exact hop.elim
    · exact hop.elim
  | refusal => exact ⟨rfl, rfl, rfl, hnote⟩
  | fault => exact ⟨rfl, rfl, rfl, hnote⟩

/-- **What comes before the switch changes nothing.** -/
theorem meets_preflight (hphase : s.phase ≠ some "locally-healthy") :
    Script.Meets activation Fault owed (preflight call)
      (fun h _ s' => Unasked s (seen h) [] [] s' ∧ s'.root = s.root) [] s := by
  have hO : ∀ {γ : Type} (h : List (Entry ActivateOp CallError)) (op : ActivateOp γ) (s' : Activation), early op →
      Unasked s (seen h) [] [] s' ∧ s'.root = s.root → owed h op s' := by
    rintro γ h op s' hop ⟨hunasked, -⟩
    refine ⟨fun hhealthy => ?_, ?_⟩
    · rw [Activation.phase, hunasked.journal] at hhealthy
      exact absurd hhealthy hphase
    · cases op with
      | scope op => exact hop.elim
      | _ => trivial
  refine Prog.meets_every hO ?_ early_preflight ⟨⟨rfl, rfl, rfl, rfl⟩, rfl⟩
  rintro γ op h s' s'' r hop ⟨hunasked, hroot⟩ hans
  obtain ⟨hroot', hscope, hjournal, hseen⟩ := early_answer (h := h) hop hans
  exact ⟨⟨hseen.trans hunasked.seen, rfl, hscope.trans hunasked.scope, hjournal.trans hunasked.journal⟩, hroot'.trans hroot⟩

end Early

/-! ## The activation -/

section Activation

variable {s s' : Activation} {call : ActivateCall} {h : List (Entry ActivateOp CallError)}

/-- How an activation ends: it accounts for what it did unless that is lost, and the units have been started if the
journal is advanced. -/
def Ends (s : Activation) (h : List (Entry ActivateOp CallError)) (r : Except ActivationError ActivationReport)
    (s' : Activation) : Prop :=
  (s'.phase = some "locally-healthy" → (seen h).Activated) ∧
    ((∀ e, r = .error e → Accounted s h e s') ↔ ¬Lost s.root (seen h))

theorem not_lockOnly_nil : ¬LockOnly [] := fun h => h.1 rfl

theorem not_previousLost_nil {s : ReleaseRoot} : ¬PreviousLost s [] := fun h => h.1.1 rfl

/-- Before the switch nothing is lost. -/
theorem ends_early {e : ActivationError} (hphase : s.phase ≠ some "locally-healthy")
    (hunasked : Unasked s (seen h) [] [] s') (hroot : s'.root = s.root) : Ends s h (.error e) s' := by
  have hseen := hunasked.seen
  refine ⟨fun hhealthy => ?_, iff_of_true ?_ ?_⟩
  · rw [Activation.phase, hunasked.journal] at hhealthy
    exact absurd hhealthy hphase
  · rintro e' -
    refine ⟨?_, ?_, fun _ _ => by rw [hroot]; exact ⟨rfl, rfl⟩⟩
    · rw [hseen]
      exact nofun
    · rw [hseen]
      exact nofun
  · rw [hseen]
    rintro (hfailed | ⟨-, ⟨-, hlock⟩ | hlost⟩)
    · cases hfailed
    · exact not_lockOnly_nil hlock
    · exact not_previousLost_nil hlost

/-- **What comes after the switch**: the units are stopped, or the journal is advanced. -/
theorem meets_concluded {started : List String} {result : Except SwitchError (String × Option String)}
    (hready : Ready s call) (hphase : s.phase ≠ some "locally-healthy") (hcandidate : Candidate s (seen h) result started s') :
    Script.Meets activation Fault owed (concluded call started result) (Ends s) h s' := by
  have hphase' : s'.phase ≠ some "locally-healthy" := by rwa [Activation.phase, hcandidate.journal]
  cases result with
  | error error =>
    apply Script.meets_bind (meets_stopUnits started.reverse hphase' (Q := fun h' r s'' => ∃ failures, r = .ok failures ∧
      s''.root = s'.root ∧ s''.journal = s'.journal ∧ seen h' = { seen h with
        stopped := (seen h).stopped ++ started.reverse
        stopErrors := (seen h).stopErrors ++ failures }) fun failures h' s'' hroot hjournal hseen =>
          ⟨failures, rfl, hroot, hjournal, hseen⟩)
    · rintro h' failures s'' ⟨_, hfailures, hroot, hjournal, hseen⟩
      obtain rfl := Except.ok.inj hfailures
      have hphase'' : s''.phase ≠ some "locally-healthy" := by rwa [Activation.phase, hjournal]
      have hstopped : ∀ unit ∈ (seen h').attempted, unit ∈ (seen h').stopped := by
        rw [hseen, hcandidate.started]
        intro unit hunit
        exact List.mem_append_right _ (List.mem_reverse.mpr hunit)
      have herrors : (seen h').stopErrors = failures := by
        rw [hseen, hcandidate.stopErrors]
        rfl
      have hadvance : (seen h').advanceFailed = false := by
        rw [hseen]
        exact hcandidate.advanceFailed
      by_cases hnone : failures = []
      · -- every stop has succeeded, and what the switch throws is thrown
        have hundone := hcandidate.undone error rfl
        rw [← hroot] at hundone
        have hlost : Lost s.root (seen h') ↔
            (seen h).permitFailed = false ∧ LockOnly (seen h).places ∨ PreviousLost s.root (seen h).places := by
          rw [Lost, hadvance, herrors, hseen]
          simp [hnone]
        have hthrow : Script.Meets activation Fault owed (throw (.switch error)) (Ends s) h' s'' := by
          refine Script.meets_throw ⟨fun hhealthy => absurd hhealthy hphase'', ?_⟩
          rw [hlost, ← hundone]
          constructor
          · exact fun haccounted hplain => (haccounted _ rfl).pointers hplain hphase''
          · rintro hunmoved e he
            obtain rfl := Except.error.inj he
            refine ⟨hstopped, ?_, fun hplain _ => hunmoved hplain⟩
            rw [herrors, hnone]
            exact nofun
        simpa [hnone] using hthrow
      · have hthrow : Script.Meets activation Fault owed (throw (.aggregate error failures)) (Ends s) h' s'' := by
          refine Script.meets_throw ⟨fun hhealthy => absurd hhealthy hphase'', iff_of_true ?_ ?_⟩
          · rintro e he
            obtain rfl := Except.error.inj he
            refine ⟨hstopped, ?_, nofun⟩
            rw [herrors]
            exact fun failure hfailure => hfailure
          · rintro (hfailed | ⟨hstops, -⟩)
            · cases hfailed.symm.trans hadvance
            · exact hnone (herrors.symm.trans hstops)
        simpa [hnone] using hthrow
    · rintro h' e s'' ⟨_, he, -⟩
      cases he
  | ok links =>
    obtain ⟨hplaces, hactivated, hattempted⟩ := hcandidate.done links rfl
    apply Script.meets_bind (meets_advance hready hcandidate.journal hactivated hcandidate.advanceFailed)
    · intro h' record s'' hseen
      refine Script.meets_pure ⟨fun _ => ?_, iff_of_true nofun ?_⟩
      · rw [hseen]
        exact hactivated
      · rw [hseen]
        rintro (hfailed | ⟨-, ⟨-, hlock⟩ | hlost⟩)
        · cases hfailed
        · exact not_lockOnly_nil (hplaces ▸ hlock)
        · exact not_previousLost_nil (hplaces ▸ hlost)
    · -- the units run on
      intro h' e s'' hseen
      refine ⟨fun _ => ?_, iff_of_false (fun haccounted => ?_) fun hnot => hnot (.inl ?_)⟩
      · rw [hseen]
        exact hactivated
      · have hunit : "dp-beget-agent.service" ∈ (seen h').stopped := by
          apply (haccounted e rfl).stopped
          rw [hseen]
          exact hattempted (by decide)
        rw [hseen] at hunit
        change _ ∈ (seen h).stopped at hunit
        rw [hcandidate.stopped] at hunit
        cases hunit
      · rw [hseen]
        rfl

theorem Ready.phase_ne (hready : Ready s call) : s.phase ≠ some "locally-healthy" := by
  obtain ⟨r, hrecord, -, hphase⟩ := hready.record
  rw [Activation.phase, hrecord, Option.map_some, hphase]
  decide

theorem meets_activateManagedRelease (hready : Ready s call) :
    Script.Meets activation Fault owed (activateManagedRelease call) (Ends s) [] s := by
  apply Script.meets_bind (meets_preflight hready.phase_ne)
  · rintro h₁ _ s₁ ⟨hunasked, hroot⟩
    apply Script.meets_bind (meets_candidate hready hready.phase_ne hunasked hroot)
    · rintro h₂ _ s₂ ⟨⟨result, started⟩, hr, hcandidate⟩
      obtain rfl := Except.ok.inj hr
      exact meets_concluded hready hready.phase_ne hcandidate
    · rintro h₂ e s₂ ⟨_, hr, -⟩
      cases hr
  · rintro h₁ e s₁ ⟨hunasked, hroot⟩
    exact ends_early hready.phase_ne hunasked hroot

/-- **An activation accounts for what it did exactly where nothing is lost**, wherever calls fail. The journal is
advanced only after all units were started in their order and found healthy, with the permit at each of these calls. -/
theorem activation_accounted_iff (hready : Ready s call) :
    (∀ tr s', Visits activation Fault (activateManagedRelease call).run s tr s' → s'.phase = some "locally-healthy" →
      (seen tr).Activated) ∧
    (∀ (tr rest : List (Entry ActivateOp CallError)) {γ : Type} (a : UnitCall γ) (q : Except CallError γ) (s' : Activation),
      Visits activation Fault (activateManagedRelease call).run s (tr ++ ⟨.scope (.act a), q⟩ :: rest) s' →
      ∃ s₁, Visits activation Fault (activateManagedRelease call).run s tr s₁ ∧ s₁.scope.site.Permitted) ∧
    ∀ tr r s', Runs activation Fault (activateManagedRelease call).run s tr r s' →
      ((∀ e, r = .error e → Accounted s tr e s') ↔ ¬Lost s.root (seen tr)) := by
  have hmeets := meets_activateManagedRelease hready
  refine ⟨fun tr s' hvisits => ?_, fun tr rest γ a q s' hvisits => ?_, fun tr r s' hruns => (hmeets.runs hruns).2⟩
  · exact hmeets.invariant (I := fun h s' => s'.phase = some "locally-healthy" → (seen h).Activated)
      (fun h op s' howed => howed.1) (fun h r s' hends => hends.1) hvisits
  · obtain ⟨s₁, -, hs₁, -, howed⟩ := hmeets.owes hvisits
    exact ⟨s₁, hs₁, howed.2⟩

end Activation

/-! ## Runs that are computed -/

/-- One release is current, the journal names the candidate, and the units are stopped. -/
def sampleActivation : Activation where
  root := VersionPointer.sampleRoot
  scope := ⟨⟨true, true, true, none, none⟩, []⟩
  journal := ⟨some (MigrationJournal.sampleRecord "switched" (.text "/state")), false, fun _ => none, fun _ => true, []⟩
  checks := fun _ => true
  states := fun _ => "inactive"
  paused := false

def sampleActivate : ActivateCall where
  rooted := true
  unambiguous := true
  guarded := true
  journalPath := "/journal"
  artifactSha256 := MigrationJournal.sampleHex 64
  switch := VersionPointer.sampleCall
  temporary := "temporary"

/-- A run in which some calls fail. -/
def sampleRun (plan : List (Option CallError)) :
    List (Entry ActivateOp CallError) × Except ActivationError ActivationReport × Activation :=
  (activateManagedRelease sampleActivate).run.planned activation plan sampleActivation

example : (sampleRun []).2.1.isOk = true := by decide +kernel

theorem sample_ready : Ready sampleActivation sampleActivate where
  rooted := rfl
  guarded := rfl
  releases := VersionPointer.sample_accepts
  permit := ⟨rfl, rfl, rfl, nofun, rfl⟩
  path := by decide +kernel
  answers _ := rfl
  unlocked := rfl
  record := ⟨_, rfl, by decide +kernel, rfl⟩
  temporary := rfl

theorem sampleRun_runs (plan : List (Option CallError)) (hfault : ∀ e, some e ∈ plan → Fault e) :
    Runs activation Fault (activateManagedRelease sampleActivate).run sampleActivation (sampleRun plan).1
      (sampleRun plan).2.1 (sampleRun plan).2.2 := Prog.planned_runs_of _ plan sampleActivation hfault

/-- The activation without failures: the journal is advanced. -/
theorem activation_accounted_iff_sample : (seen (sampleRun []).1).Activated ∧
    ((∀ e, (sampleRun []).2.1 = .error e → Accounted sampleActivation (sampleRun []).1 e (sampleRun []).2.2) ↔
      ¬Lost sampleActivation.root (seen (sampleRun []).1)) := by
  have hruns := sampleRun_runs [] nofun
  have hphase : (sampleRun []).2.2.phase = some "locally-healthy" := by decide +kernel
  have hall := activation_accounted_iff sample_ready
  exact ⟨hall.1 _ _ hruns.visits hphase, hall.2.2 _ _ _ hruns⟩

/-- The lock file of the journal cannot be created: the units run on, and nothing has stopped them. -/
theorem advance_leaves_units : Ready sampleActivation sampleActivate ∧ ∃ tr e s',
    Runs activation Fault (activateManagedRelease sampleActivate).run sampleActivation tr (.error e) s' ∧
    (seen tr).attempted = START_ORDER ∧ (seen tr).stopped = [] ∧ s'.scope.rest = START_ORDER ∧
    ¬Accounted sampleActivation tr e s' := by
  let plan : List (Option CallError) := List.replicate 66 none ++ [some (.failed "no space left on device")]
  have hruns := sampleRun_runs plan (by simp [plan, Fault])
  obtain ⟨hthrown, hattempted, hstopped, hrunning⟩ : (sampleRun plan).2.1.isOk = false ∧
      (seen (sampleRun plan).1).attempted = START_ORDER ∧ (seen (sampleRun plan).1).stopped = [] ∧
      (sampleRun plan).2.2.scope.rest = START_ORDER := by decide +kernel
  obtain ⟨e, herror⟩ : ∃ e, (sampleRun plan).2.1 = .error e := by
    cases h : (sampleRun plan).2.1 with
    | error e => exact ⟨e, rfl⟩
    | ok report =>
      rw [h] at hthrown
      cases hthrown
  rw [herror] at hruns
  refine ⟨sample_ready, _, e, _, hruns, hattempted, hstopped, hrunning, fun haccounted => ?_⟩
  have hunit := haccounted.stopped "dp-beget-agent.service"
  rw [hattempted, hstopped] at hunit
  exact absurd (hunit (by decide)) List.not_mem_nil

end BegetBridge.CandidateActivation
