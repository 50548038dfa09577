import BegetBridge.Interleaving.History
import BegetBridge.Release.CleanInstallJournal

/-!
# The private installation

The controller of a clean installation takes the steps in their order. It moves the journal to the intent of a
step, hands the step an `advance` that is restricted to the transition from the intent to ready, and looks at the
journal before and after.

## Main definitions

* `Site`, `RuntimeOp`: the journal with the phases that it was moved to, and the calls
* `StepOp`, `Installer`: what a step may do
* `supplied`: the `advance` of a step
* `installCleanPrivateRuntime`: the controller
* `Window`: where the journal is when a step is called

## Main results

* `meets_step`, `meets_installSteps`: a step, and all of them
* `private_install_windows`: every step stays in its own window
-/

namespace BegetBridge.PrivateInstall

open Core Interleaving CleanInstallJournal

/-! ## The journal and the calls -/

/-- What is asked of a transition. -/
structure Transition where
  journalPath : String
  transactionId : String
  expectedPhase : String
  nextPhase : String
  deriving DecidableEq

/-- The journal, the phases that it was moved to since its creation, the first one included, the record of a new
journal, and what the inspections answer, one time after the other. -/
structure Site where
  record : Option InstallRecord
  published : List String
  fresh : InstallRecord
  profiles : Nat → String
  systemd : Nat → String
  paused : Nat → Bool
  owner : Nat → String
  work : Nat → Nat
  asked : Nat

/-- The calls. A commit is made by the controller, or by the step of a name. -/
inductive RuntimeOp : Type → Type
  | lstatJournal : RuntimeOp Unit
  | createJournal : RuntimeOp InstallRecord
  | readJournal : RuntimeOp InstallRecord
  | commit (step : Option String) (t : Transition) : RuntimeOp Unit
  | settle : RuntimeOp Unit
  | inspectTargets : RuntimeOp Unit
  | inspectAuthProfile : RuntimeOp String
  | inspectSystemd : RuntimeOp String
  | inspectPaused : RuntimeOp Bool
  | inspectOwner : RuntimeOp String
  | invoke (name : String) : RuntimeOp Unit
  | work : RuntimeOp Nat

/-- Why a call fails. -/
inductive Fault
  | noEntry
  | taken
  | rejected
  | io
  deriving DecidableEq

def Transition.call (t : Transition) : InstallCall := ⟨t.transactionId, t.expectedPhase, t.nextPhase, ""⟩

/-- The record after a transition, if the journal accepts that. -/
def Transition.applied (t : Transition) (current : InstallRecord) : Option InstallRecord :=
  if accepts t.call current then (validate { current with phase := t.nextPhase }).toOption else none

namespace Site

def ask (s : Site) : Site := { s with asked := s.asked + 1 }

/-- The journal has a new record. -/
def publish (s : Site) (record : InstallRecord) : Site :=
  { s with record := some record, published := s.published ++ [record.phase] }

def exec : {β : Type} → RuntimeOp β → Site → Except Fault (β × Site)
  | _, .lstatJournal, s => s.record.elim (.error .noEntry) fun _ => .ok ((), s)
  | _, .createJournal, s =>
    let record := { s.fresh with phase := "prepared" }
    s.record.elim (.ok (record, s.publish record)) fun _ => .error .taken
  | _, .readJournal, s => s.record.elim (.error .noEntry) fun record => .ok (record, s)
  | _, .commit _ t, s => (s.record.bind t.applied).elim (.error .rejected) fun next => .ok ((), s.publish next)
  | _, .settle, s => .ok ((), s)
  | _, .inspectTargets, s => .ok ((), s)
  | _, .inspectAuthProfile, s => .ok (s.profiles s.asked, s.ask)
  | _, .inspectSystemd, s => .ok (s.systemd s.asked, s.ask)
  | _, .inspectPaused, s => .ok (s.paused s.asked, s.ask)
  | _, .inspectOwner, s => .ok (s.owner s.asked, s.ask)
  | _, .invoke _, s => .ok ((), s)
  | _, .work, s => .ok (s.work s.asked, s.ask)

end Site

def site : Backend RuntimeOp Fault Site := ⟨Site.exec⟩

/-- What the controller throws, or a step. -/
inductive RuntimeError
  | message (text : String)
  | call (e : Fault)
  | stopped (stage : String) (cause : RuntimeError)
  deriving DecidableEq

abbrev RuntimeScript := Script RuntimeOp Fault RuntimeError

def perform {β : Type} (op : RuntimeOp β) : RuntimeScript β := .perform .call op

def demand (holds : Bool) (text : String) : RuntimeScript Unit := if holds then pure () else throw (.message text)

/-- `startCleanInstallJournal`: it may fail after the journal was created. -/
def startJournal : RuntimeScript InstallRecord := do
  let record ← perform .createJournal
  perform .settle
  pure record

/-- `advanceCleanInstallJournal`: it may fail after the journal was replaced. -/
def advance (step : Option String) (t : Transition) : RuntimeScript Unit := do
  perform (.commit step t)
  perform .settle

/-! ## The steps -/

/-- What a step does: it calls the `advance` that it was given, or it does something else. -/
inductive StepOp : Type → Type
  | advance (t : Transition) : StepOp Unit
  | work : StepOp Nat

/-- A step: any program of these. -/
abbrev Installer := Script StepOp RuntimeError RuntimeError Unit

/-- `STEPS` -/
def STEPS : List String :=
  ["identities", "config", "units", "data", "release-root", "promotion", "pointer", "systemd", "admission"]

def intent (name : String) : String := name ++ "-intent"

def ready (name : String) : String := name ++ "-ready"

section Controller

variable (journalPath : String) (journal : InstallRecord)

/-- The `advance` of a step. -/
def supplied (name : String) (t : Transition) : RuntimeScript Unit := do
  demand (t.transactionId == journal.transactionId && t.journalPath == journalPath && t.expectedPhase == intent name &&
    t.nextPhase == ready name) "Clean private primitive attempted an unexpected transition"
  advance (some name) t

def serve (name : String) {β : Type} : StepOp β → RuntimeScript β
  | .advance t => supplied journalPath journal name t
  | .work => perform .work

/-- `inspectPhase(phase)` -/
def inspectPhase (phase : String) : RuntimeScript Unit := do
  let current ← perform .readJournal
  demand (current == { journal with phase := phase }) "Clean private transaction identity or phase changed"

/-- The call of a step. -/
def invoked (name : String) (install : Installer) : RuntimeScript Unit := do
  perform (.invoke name)
  ExceptT.mk (install.run.handle fun op => (serve journalPath journal name op).run)

/-- One step, from a phase. -/
def step (phase name : String) (install : Installer) : RuntimeScript Unit := do
  inspectPhase journal phase
  advance none ⟨journalPath, journal.transactionId, phase, intent name⟩
  inspectPhase journal (intent name)
  invoked journalPath journal name install
  inspectPhase journal (ready name)

/-- What is thrown is thrown with the stage. -/
def inStage {α : Type} (stage : String) (p : RuntimeScript α) : RuntimeScript α :=
  tryCatch p fun cause => throw (.stopped stage cause)

/-- The loop over the steps, from a phase. It returns the last phase. -/
def installSteps (installers : String → Installer) : (phase : String) → List String → RuntimeScript String
  | phase, [] => pure phase
  | phase, name :: names => do
    inStage name (step journalPath journal phase name (installers name))
    installSteps installers (ready name) names

/-- What is asked only where the rest of a condition holds. -/
def askedIf {β : Type} (holds : Bool) (op : RuntimeOp β) (otherwise : β) : RuntimeScript β :=
  if holds then perform op else pure otherwise

/-- Nothing runs, and admission is paused. -/
def finalVerification (initializeOwner : Bool) (authProfile : Option String) : RuntimeScript Unit := do
  let systemd ← perform .inspectSystemd
  let paused ← askedIf (systemd == "inactive-bound") .inspectPaused false
  demand paused "Clean private final inactive/paused boundary is unproven"
  if initializeOwner then
    let again ← perform .inspectAuthProfile
    let owner ← askedIf (authProfile == some again) .inspectOwner ""
    demand (owner == "candidate-bound") "Clean private final inactive/paused boundary is unproven"

/-- What is reported. -/
structure Report where
  transactionId : String
  phase : String
  version : String
  commit : String
  deriving DecidableEq

end Controller

/-- What the controller is called with, but for the steps. -/
structure Inputs where
  rooted : Bool
  valid : Bool
  journalPath : String
  workspace : String
  manifestSha256 : String
  releaseRoot : String
  initializeOwner : Bool

/-- `steps`: with the owner, if that is to be initialized. -/
def Inputs.steps (i : Inputs) : List String := if i.initializeOwner then STEPS ++ ["owner"] else STEPS

/-- The journal is not there yet. -/
def freshJournal : RuntimeScript Unit :=
  tryCatch (do
    perform .lstatJournal
    throw (.message "Clean private installation requires a fresh journal")) fun
  | .call .noEntry => pure ()
  | error => throw error

/-- The profile, if the owner is to be initialized. -/
def boundProfile (initializeOwner : Bool) : RuntimeScript (Option String) :=
  if initializeOwner then do
    let authProfile ← perform .inspectAuthProfile
    demand (authProfile == "oauth") "Clean private owner initialization requires a bound OAuth profile"
    pure (some authProfile)
  else pure none

/-- `journal.phase` and the other fields that are looked at are those of this installation. -/
def Inputs.proven (i : Inputs) (journal : InstallRecord) : Bool :=
  journal.phase == "prepared" && journal.workspace == i.workspace && journal.manifestSha256 == i.manifestSha256 &&
    journal.releaseRoot == i.releaseRoot

/-- What is done with the new journal. -/
def installed (i : Inputs) (installers : String → Installer) (authProfile : Option String) (journal : InstallRecord) :
    RuntimeScript Report := do
  inStage "preflight" do
    inspectPhase journal "prepared"
    perform .inspectTargets
  let phase ← installSteps i.journalPath journal installers "prepared" i.steps
  inStage "final-verification" do
    finalVerification i.initializeOwner authProfile
    inspectPhase journal (if i.initializeOwner then "owner-ready" else "admission-ready")
  pure ⟨journal.transactionId, phase, journal.version, journal.commit⟩

/-- `installCleanPrivateRuntime` -/
def installCleanPrivateRuntime (i : Inputs) (installers : String → Installer) : RuntimeScript Report := do
  demand i.rooted "Root is required to install clean private runtime"
  demand i.valid "Invalid clean private controller inputs"
  freshJournal
  let authProfile ← boundProfile i.initializeOwner
  let journal ← startJournal
  demand (i.proven journal) "Fresh clean private journal is unproven"
  installed i installers authProfile journal

/-! ## Windows -/

/-- The phases of some steps, in their order. -/
def phasesOf (names : List String) : List String := names.flatMap fun name => [intent name, ready name]

/-- The phases up to the last of some steps. -/
def reached (done : List String) : List String := "prepared" :: phasesOf done

/-- The journal was moved to these phases, and is in the last one. -/
structure Stands (s : Site) (phases : List String) : Prop where
  published : s.published = phases
  record : ∃ r, s.record = some r ∧ phases.getLast? = some r.phase

/-- Where the journal is while a step is taken: at what was reached before, at its intent, or at its end. -/
def Window (done : List String) (name : String) (s : Site) : Prop :=
  Stands s (reached done) ∨ Stands s (reached done ++ [intent name]) ∨
    Stands s (reached done ++ [intent name] ++ [ready name])

/-- What is owed: a step is called at its intent, and makes no other transition than its own. -/
def owes (steps : List String) {β : Type} : RuntimeOp β → Site → Prop
  | .invoke name, s => ∃ done rest, steps = done ++ name :: rest ∧ Stands s (reached done ++ [intent name])
  | .commit (some name) t, s => t.expectedPhase = intent name ∧ t.nextPhase = ready name ∧
      ∃ done rest, steps = done ++ name :: rest ∧ (Stands s (reached done ++ [intent name]) ∨
        Stands s (reached done ++ [intent name] ++ [ready name]))
  | _, _ => True

abbrev Meets {α : Type} (steps : List String) (p : RuntimeScript α)
    (Q : List (Entry RuntimeOp Fault) → Except RuntimeError α → Site → Prop) (h : List (Entry RuntimeOp Fault)) (s : Site) :
    Prop :=
  Script.Meets site (fun _ => True) (fun _ op s => owes steps op s) p Q h s

section Windows

variable {steps : List String} {h : List (Entry RuntimeOp Fault)} {s s' : Site} {phases done : List String}
  {journalPath name : String} {journal : InstallRecord} {α β : Type}

theorem intent_ne_ready : intent name ≠ ready name := by
  intro heq
  have hlists := congrArg String.toList heq
  rw [intent, ready, String.toList_append, String.toList_append] at hlists
  exact absurd (List.append_cancel_left hlists) (by decide)

theorem reached_snoc : reached (done ++ [name]) = reached done ++ [intent name] ++ [ready name] := by
  simp [reached, phasesOf]

theorem Stands.publish {r : InstallRecord} (hs : Stands s phases) : Stands (s.publish r) (phases ++ [r.phase]) :=
  ⟨congrArg (· ++ [r.phase]) hs.published, r, rfl, List.getLast?_concat⟩

/-- Where two descriptions of the journal end. -/
theorem Stands.last {p : String} {r : InstallRecord} (hs : Stands s (phases ++ [p])) (hr : s.record = some r) :
    r.phase = p := by
  obtain ⟨r', hr', hlast⟩ := hs.record
  obtain rfl := Option.some.inj (hr.symm.trans hr')
  rw [List.getLast?_concat] at hlast
  exact (Option.some.inj hlast).symm

theorem validate_eq {r r' : InstallRecord} (hr : (validate r).toOption = some r') : r' = r := by
  rw [validate] at hr
  split at hr
  · exact (Option.some.inj hr).symm
  · cases hr

theorem exec_commit {step : Option String} {t : Transition} {u : Unit}
    (hexec : s.exec (.commit step t) = .ok (u, s')) :
    ∃ r next, s.record = some r ∧ r.phase = t.expectedPhase ∧ next.phase = t.nextPhase ∧ s' = s.publish next := by
  rw [Site.exec] at hexec
  cases hr : s.record with
  | none =>
    rw [hr] at hexec
    cases hexec
  | some r =>
    rw [hr, Option.bind_some] at hexec
    cases hnext : t.applied r with
    | none =>
      rw [hnext] at hexec
      cases hexec
    | some next =>
      rw [hnext] at hexec
      obtain ⟨_, rfl⟩ := Prod.mk.inj (Except.ok.inj hexec)
      rw [Transition.applied] at hnext
      split at hnext
      · rename_i haccepts
        refine ⟨r, next, rfl, ?_, ?_, rfl⟩
        · rw [accepts, Bool.and_eq_true, Bool.and_eq_true] at haccepts
          exact eq_of_beq haccepts.1.2
        · rw [validate_eq hnext]
      · cases hnext

/-! ### The calls -/

/-- Nothing was done to the journal. -/
def Untouched (s s' : Site) : Prop := s'.record = s.record ∧ s'.published = s.published

/-- The calls that leave the journal alone, and owe nothing. -/
def RuntimeOp.asks : RuntimeOp β → Bool
  | .createJournal | .commit _ _ | .invoke _ => false
  | _ => true

theorem owes_asks {op : RuntimeOp β} (hasks : op.asks = true) : owes steps op s := by
  cases op <;> trivial

theorem exec_asks {op : RuntimeOp β} {b : β} (hasks : op.asks = true) (hexec : s.exec op = .ok (b, s')) :
    Untouched s s' := by
  cases op <;> simp only [RuntimeOp.asks, Bool.false_eq_true] at hasks
  case lstatJournal | readJournal =>
    cases hr : s.record with
    | none => simp [Site.exec, hr] at hexec
    | some r =>
      simp only [Site.exec, hr, Option.elim, Except.ok.injEq, Prod.mk.injEq] at hexec
      rw [← hexec.2]
      exact ⟨rfl, rfl⟩
  all_goals
    obtain ⟨_, rfl⟩ := Prod.mk.inj (Except.ok.inj hexec)
    exact ⟨rfl, rfl⟩

/-- A call that leaves the journal alone. -/
theorem meets_look {op : RuntimeOp β} {Q : List (Entry RuntimeOp Fault) → Except RuntimeError β → Site → Prop}
    (hasks : op.asks = true) (hok : ∀ h' b s', Untouched s s' → Q h' (.ok b) s')
    (herror : ∀ h' e, Q h' (.error (.call e)) s) : Meets steps (perform op) Q h s := by
  apply Script.meets_perform (owes_asks hasks)
  · exact fun b s' hexec => hok _ _ _ (exec_asks hasks hexec)
  · exact fun e => herror _ e

theorem Stands.congr (hs : Stands s phases) (h : Untouched s s') : Stands s' phases :=
  ⟨h.2.trans hs.published, h.1 ▸ hs.record⟩

theorem meets_demand {holds : Bool} {text : String} {Q : List (Entry RuntimeOp Fault) → Except RuntimeError Unit → Site → Prop}
    (hok : holds = true → Q h (.ok ()) s) (herror : Q h (.error (.message text)) s) :
    Meets steps (demand holds text) Q h s := by
  cases holds with
  | true => exact hok rfl
  | false => exact herror

/-- What an inspection of the phase finds. -/
theorem meets_inspectPhase {phase : String} (hs : Stands s phases) :
    Meets steps (inspectPhase journal phase) (fun _ r s' => Stands s' phases ∧
      ∀ u, r = .ok u → ∃ record, s'.record = some record ∧ record.phase = phase) h s := by
  apply Script.meets_call trivial
  · intro current s' hexec
    obtain ⟨r, hr, -⟩ := hs.record
    rw [show site.exec .readJournal s = s.exec .readJournal from rfl, Site.exec, hr] at hexec
    obtain ⟨rfl, rfl⟩ := Prod.mk.inj (Except.ok.inj hexec)
    apply meets_demand
    · intro hsame
      refine ⟨hs, fun _ _ => ⟨r, hr, ?_⟩⟩
      rw [eq_of_beq hsame]
    · exact ⟨hs, nofun⟩
  · exact fun e => ⟨hs, nofun⟩

theorem meets_settle {Q : List (Entry RuntimeOp Fault) → Except RuntimeError Unit → Site → Prop}
    (hQ : ∀ h' r, Q h' r s) : Meets steps (perform .settle) Q h s := by
  apply Script.meets_perform trivial
  · intro b s' hexec
    obtain ⟨_, rfl⟩ := Prod.mk.inj (Except.ok.inj hexec)
    exact hQ _ _
  · exact fun e => hQ _ _

theorem owes_controller {t : Transition} : owes steps (.commit none t) s := trivial

/-- A transition of the journal takes place, or does not. -/
theorem meets_advance {caller : Option String} {t : Transition} (howes : owes steps (.commit caller t) s)
    (hs : Stands s phases) :
    Meets steps (advance caller t) (fun _ r s' =>
      (Stands s' (phases ++ [t.nextPhase]) ∧ phases.getLast? = some t.expectedPhase) ∨
        Stands s' phases ∧ ∃ e, r = .error e) h s := by
  apply Script.meets_call howes
  · intro u s' hexec
    have hcommit : s.exec (.commit caller t) = .ok (u, s') := hexec
    obtain ⟨r, next, hr, hphase, hnext, rfl⟩ := exec_commit hcommit
    obtain ⟨r', hr', hlast⟩ := hs.record
    obtain rfl := Option.some.inj (hr.symm.trans hr')
    have hmoved : Stands (s.publish next) (phases ++ [t.nextPhase]) := hnext ▸ hs.publish
    exact meets_settle fun h' r => .inl ⟨hmoved, hphase ▸ hlast⟩
  · exact fun e => .inr ⟨hs, _, rfl⟩

/-! ### A step -/

/-- Where the journal is while a step runs. -/
def Running (done : List String) (name : String) (s : Site) : Prop :=
  Stands s (reached done ++ [intent name]) ∨ Stands s (reached done ++ [intent name] ++ [ready name])

theorem serve_running {rest : List String} (hsteps : steps = done ++ name :: rest) (op : StepOp β)
    (hs : Running done name s) :
    Meets steps (serve journalPath journal name op) (fun _ _ s' => Running done name s') h s := by
  cases op with
  | work =>
    apply meets_look rfl
    · exact fun h' b s' hsame => hs.imp (·.congr hsame) (·.congr hsame)
    · exact fun h' e => hs
  | advance t =>
    have hchecked : Meets steps (demand (t.transactionId == journal.transactionId && t.journalPath == journalPath &&
        t.expectedPhase == intent name && t.nextPhase == ready name)
        "Clean private primitive attempted an unexpected transition") (fun _ r s' => Running done name s' ∧
          ∀ u, r = .ok u → t.expectedPhase = intent name ∧ t.nextPhase = ready name) h s := by
      apply meets_demand
      · intro hholds
        simp only [Bool.and_eq_true, beq_iff_eq] at hholds
        exact ⟨hs, fun _ _ => ⟨hholds.1.2, hholds.2⟩⟩
      · exact ⟨hs, nofun⟩
    apply Script.meets_bind hchecked
    · rintro h' ⟨⟩ s' ⟨hs', ht⟩
      obtain ⟨hexpected, hnext⟩ := ht () rfl
      have howes : owes steps (.commit (some name) t) s' := ⟨hexpected, hnext, done, rest, hsteps, hs'⟩
      rcases hs' with hs' | hs'
      · apply Script.meets_mono (meets_advance howes hs')
        rintro h'' r s'' (⟨hmoved, -⟩ | ⟨hstays, -⟩)
        · exact .inr (hnext ▸ hmoved)
        · exact .inl hstays
      · -- the step is done already, and its intent is not the phase any more
        apply Script.meets_mono (meets_advance howes hs')
        rintro h'' r s'' (⟨-, hlast⟩ | ⟨hstays, -⟩)
        · rw [List.getLast?_concat, hexpected] at hlast
          exact absurd (Option.some.inj hlast).symm intent_ne_ready
        · exact .inr hstays
    · exact fun h' e s' hs' => hs'.1

/-- **A step** stays in its window, and returns at its end only. -/
theorem meets_step {rest : List String} {phase : String} {install : Installer} (hsteps : steps = done ++ name :: rest)
    (hs : Stands s (reached done)) :
    Meets steps (step journalPath journal phase name install) (fun _ r s' => Window done name s' ∧
      ∀ u, r = .ok u → Stands s' (reached (done ++ [name]))) h s := by
  apply Script.meets_bind (meets_inspectPhase hs)
  · rintro h₁ ⟨⟩ s₁ ⟨hs₁, -⟩
    apply Script.meets_bind (meets_advance owes_controller hs₁)
    · rintro h₂ ⟨⟩ s₂ (⟨hs₂, -⟩ | ⟨-, e, he⟩)
      · apply Script.meets_bind (meets_inspectPhase hs₂)
        · rintro h₃ ⟨⟩ s₃ ⟨hs₃, -⟩
          -- the step is called here, and does what it does
          have hinvoked : Meets steps (invoked journalPath journal name install)
              (fun _ _ s' => Running done name s') h₃ s₃ := by
            apply Script.meets_call ⟨done, rest, hsteps, hs₃⟩
            · intro u s₄ hexec
              obtain ⟨_, rfl⟩ := Prod.mk.inj (Except.ok.inj hexec)
              exact Prog.meets_handle (fun op h s hs => serve_running hsteps op hs) install.run (.inl hs₃)
            · exact fun e => .inl hs₃
          apply Script.meets_bind hinvoked
          · rintro h₅ u s₅ (hs₅ | hs₅)
            · -- the step has returned early
              apply Script.meets_mono (meets_inspectPhase hs₅)
              rintro h₆ r s₆ ⟨hs₆, hready⟩
              refine ⟨.inr (.inl hs₆), fun v hv => ?_⟩
              obtain ⟨record, hrecord, hphase⟩ := hready v hv
              exact absurd ((hs₆.last hrecord).symm.trans hphase) intent_ne_ready
            · apply Script.meets_mono (meets_inspectPhase hs₅)
              rintro h₆ r s₆ ⟨hs₆, -⟩
              exact ⟨.inr (.inr hs₆), fun _ _ => reached_snoc ▸ hs₆⟩
          · exact fun h₅ e s₅ hs₅ => ⟨.inr hs₅, nofun⟩
        · exact fun h₃ e s₃ hs₃ => ⟨.inr (.inl hs₃.1), nofun⟩
      · cases he
    · rintro h₂ e s₂ (⟨hs₂, -⟩ | ⟨hs₂, -⟩)
      · exact ⟨.inr (.inl hs₂), nofun⟩
      · exact ⟨.inl hs₂, nofun⟩
  · exact fun h₁ e s₁ hs₁ => ⟨.inl hs₁.1, nofun⟩

/-- What is thrown in a stage. -/
theorem meets_inStage {stage : String} {p : RuntimeScript α}
    {Q : List (Entry RuntimeOp Fault) → Except RuntimeError α → Site → Prop}
    (hp : Meets steps p (fun h' r s' => match r with
      | .ok a => Q h' (.ok a) s'
      | .error cause => Q h' (.error (.stopped stage cause)) s') h s) : Meets steps (inStage stage p) Q h s := by
  apply Script.meets_tryCatch hp
  · exact fun h' a s' hQ => hQ
  · exact fun h' e s' hQ => hQ

/-- **All the steps**, from those that are done: they end at the last one, or one of them is stopped in its window. -/
theorem meets_installSteps {installers : String → Installer} {names : List String} {phase : String}
    (hsteps : steps = done ++ names) (hs : Stands s (reached done)) :
    Meets steps (installSteps journalPath journal installers phase names) (fun _ r s' => match r with
      | .ok _ => Stands s' (reached steps)
      | .error e => ∃ before name rest cause, steps = before ++ name :: rest ∧ e = .stopped name cause ∧
          Window before name s') h s := by
  induction names generalizing done phase h s with
  | nil =>
    rw [List.append_nil] at hsteps
    exact hsteps ▸ hs
  | cons name names ih =>
    apply Script.meets_bind (meets_inStage (Script.meets_mono (meets_step hsteps hs) ?_)) (P := fun _ r s' =>
      match r with
      | .ok _ => Stands s' (reached (done ++ [name]))
      | .error e => ∃ before name rest cause, steps = before ++ name :: rest ∧ e = .stopped name cause ∧
          Window before name s')
    · intro h' u s' hs'
      exact ih (by rw [hsteps, List.append_assoc]; rfl) hs'
    · exact fun h' e s' hs' => hs'
    · rintro h' (e | u) s' ⟨hwindow, hdone⟩
      · exact ⟨done, name, names, e, hsteps, rfl, hwindow⟩
      · exact hdone u rfl

/-! ## The controller -/

/-- Where the journal is left by a failure: at the start, at the end, or in the window of the step that is stopped. A
failure before the stages leaves it as it was, or new. -/
def Left (steps : List String) (s : Site) : RuntimeError → Site → Prop
  | .stopped stage _, s' => stage = "preflight" ∧ Stands s' ["prepared"] ∨
      stage = "final-verification" ∧ Stands s' (reached steps) ∨
      ∃ done rest, steps = done ++ stage :: rest ∧ Window done stage s'
  | _, s' => s'.record = s.record ∧ s'.published = s.published ∨ Stands s' ["prepared"]

/-- A message or a failing call, of no stage. -/
def RuntimeError.unstaged : RuntimeError → Bool
  | .stopped _ _ => false
  | _ => true

theorem left_of_unstaged {e : RuntimeError} (he : e.unstaged = true)
    (hs' : Untouched s s' ∨ Stands s' ["prepared"]) : Left steps s e s' := by
  cases e with
  | message text => exact hs'
  | call e => exact hs'
  | stopped stage cause => cases he

/-- How a script ends that leaves the journal alone, and throws without a stage. -/
def Leaves (s : Site) (r : Except RuntimeError α) (s' : Site) : Prop :=
  Untouched s s' ∧ ∀ e, r = .error e → e.unstaged = true

theorem leaves_look {op : RuntimeOp β} (hasks : op.asks = true) :
    Meets steps (perform op) (fun _ r s' => Leaves s r s') h s := by
  apply meets_look hasks
  · exact fun h' b s' hsame => ⟨hsame, nofun⟩
  · exact fun h' e => ⟨⟨rfl, rfl⟩, fun e' he' => by rw [← Except.error.inj he']; rfl⟩

theorem leaves_demand {holds : Bool} {text : String} :
    Meets steps (demand holds text) (fun _ r s' => Leaves s r s') h s := by
  apply meets_demand
  · exact fun _ => ⟨⟨rfl, rfl⟩, nofun⟩
  · exact ⟨⟨rfl, rfl⟩, fun e he => by rw [← Except.error.inj he]; rfl⟩

theorem leaves_bind {p : RuntimeScript β} {f : β → RuntimeScript α}
    (hp : Meets steps p (fun _ r s' => Leaves s r s') h s)
    (hf : ∀ b h' s', Meets steps (f b) (fun _ r s'' => Leaves s' r s'') h' s') :
    Meets steps (p >>= f) (fun _ r s' => Leaves s r s') h s := by
  apply Script.meets_bind hp
  · intro h' b s' hsame
    apply Script.meets_mono (hf b h' s')
    rintro h'' r s'' ⟨hsame', he⟩
    exact ⟨⟨hsame'.1.trans hsame.1.1, hsame'.2.trans hsame.1.2⟩, he⟩
  · exact fun h' e s' hs' => ⟨hs'.1, fun e' he' => hs'.2 e' (by rw [← Except.error.inj he'])⟩

theorem freshJournal_leaves : Meets steps freshJournal (fun _ r s' => Leaves s r s') h s := by
  have hlooked : Meets steps (do
      perform .lstatJournal
      throw (.message "Clean private installation requires a fresh journal") : RuntimeScript Unit)
      (fun _ r s' => Leaves s r s') h s := by
    apply leaves_bind (leaves_look rfl)
    exact fun _ h' s' => ⟨⟨rfl, rfl⟩, fun e he => by rw [← Except.error.inj he]; rfl⟩
  apply Script.meets_tryCatch hlooked
  · exact fun h' u s' hs' => hs'
  · intro h' e s' hs'
    split
    · exact ⟨hs'.1, nofun⟩
    · exact hs'

theorem boundProfile_leaves {initializeOwner : Bool} :
    Meets steps (boundProfile initializeOwner) (fun _ r s' => Leaves s r s') h s := by
  rw [boundProfile]
  split
  · apply leaves_bind (leaves_look rfl)
    intro authProfile h₁ s₁
    apply leaves_bind leaves_demand
    exact fun _ h₂ s₂ => ⟨⟨rfl, rfl⟩, nofun⟩
  · exact ⟨⟨rfl, rfl⟩, nofun⟩

/-- A new journal is in its first phase. It may be there although that is not returned. -/
theorem meets_startJournal (hs : s.published = []) :
    Meets steps startJournal (fun _ r s' => (Untouched s s' ∨ Stands s' ["prepared"]) ∧
      (∀ record, r = .ok record → Stands s' ["prepared"]) ∧ ∀ e, r = .error e → e.unstaged = true) h s := by
  apply Script.meets_call trivial
  · intro record s₁ hexec
    have hstands : Stands s₁ ["prepared"] := by
      change s.exec .createJournal = _ at hexec
      cases hr : s.record with
      | some r => simp [Site.exec, hr] at hexec
      | none =>
        simp only [Site.exec, hr, Option.elim, Except.ok.injEq, Prod.mk.injEq] at hexec
        rw [← hexec.2]
        exact ⟨by rw [Site.publish, hs]; rfl, _, rfl, rfl⟩
    apply Script.meets_bind (leaves_look rfl)
    · rintro h₂ u s₂ ⟨hsame, -⟩
      exact ⟨.inr (hstands.congr hsame), fun _ _ => hstands.congr hsame, nofun⟩
    · rintro h₂ e s₂ ⟨hsame, he⟩
      exact ⟨.inr (hstands.congr hsame), nofun, fun e' he' => he e' (by rw [← Except.error.inj he'])⟩
  · intro e
    refine ⟨.inl ⟨rfl, rfl⟩, nofun, fun e' he' => ?_⟩
    rw [← Except.error.inj he']
    rfl

/-- A script that leaves the journal where it stands. -/
theorem stands_bind {p : RuntimeScript β} {f : β → RuntimeScript α}
    (hp : Meets steps p (fun _ _ s' => Stands s' phases) h s)
    (hf : ∀ b h' s', Stands s' phases → Meets steps (f b) (fun _ _ s'' => Stands s'' phases) h' s') :
    Meets steps (p >>= f) (fun _ _ s' => Stands s' phases) h s :=
  Script.meets_bind hp (fun h' b s' hs' => hf b h' s' hs') fun _ _ _ hs' => hs'

theorem stands_look {op : RuntimeOp β} (hasks : op.asks = true) (hs : Stands s phases) :
    Meets steps (perform op) (fun _ _ s' => Stands s' phases) h s :=
  meets_look hasks (fun _ _ _ hsame => hs.congr hsame) fun _ _ => hs

theorem stands_demand {holds : Bool} {text : String} (hs : Stands s phases) :
    Meets steps (demand holds text) (fun _ _ s' => Stands s' phases) h s := meets_demand (fun _ => hs) hs

theorem stands_askedIf {holds : Bool} {op : RuntimeOp β} {otherwise : β} (hasks : op.asks = true)
    (hs : Stands s phases) : Meets steps (askedIf holds op otherwise) (fun _ _ s' => Stands s' phases) h s := by
  cases holds with
  | true => exact stands_look hasks hs
  | false => exact hs

theorem finalVerification_stands {initializeOwner : Bool} {authProfile : Option String} (hs : Stands s phases) :
    Meets steps (finalVerification initializeOwner authProfile) (fun _ _ s' => Stands s' phases) h s := by
  apply stands_bind (stands_look rfl hs)
  intro systemd h₁ s₁ hs₁
  apply stands_bind (stands_askedIf rfl hs₁)
  intro paused h₂ s₂ hs₂
  apply stands_bind (stands_demand hs₂)
  intro _ h₃ s₃ hs₃
  split
  · apply stands_bind (stands_look rfl hs₃)
    intro again h₄ s₄ hs₄
    apply stands_bind (stands_askedIf rfl hs₄)
    intro owner h₅ s₅ hs₅
    exact stands_demand hs₅
  · exact hs₃

/-- What is done with a new journal. -/
theorem meets_installed {i : Inputs} {installers : String → Installer} {authProfile : Option String}
    (hs : Stands s ["prepared"]) :
    Meets i.steps (installed i installers authProfile journal) (fun _ r s' => match r with
      | .ok _ => Stands s' (reached i.steps)
      | .error e => ∀ s₀, Left i.steps s₀ e s') h s := by
  have hpreflight : Meets i.steps (inStage "preflight" do
      inspectPhase journal "prepared"
      perform .inspectTargets) (fun _ r s' =>
        Stands s' (reached []) ∧ ∀ e, r = .error e → ∃ cause, e = .stopped "preflight" cause) h s := by
    apply meets_inStage
    apply Script.meets_mono (stands_bind (Script.meets_mono (meets_inspectPhase hs) fun _ _ _ hs' => hs'.1)
      fun _ _ _ hs' => stands_look rfl hs')
    rintro h' (e | u) s' hs'
    · exact ⟨hs', fun e' he' => ⟨e, (Except.error.inj he').symm⟩⟩
    · exact ⟨hs', nofun⟩
  apply Script.meets_bind hpreflight
  · rintro h₁ u s₁ ⟨hs₁, -⟩
    apply Script.meets_bind (meets_installSteps rfl hs₁)
    · intro h₂ phase s₂ hs₂
      have hfinal : Meets i.steps (inStage "final-verification" do
          finalVerification i.initializeOwner authProfile
          inspectPhase journal (if i.initializeOwner then "owner-ready" else "admission-ready")) (fun _ r s' =>
            Stands s' (reached i.steps) ∧ ∀ e, r = .error e → ∃ cause, e = .stopped "final-verification" cause) h₂ s₂ := by
        apply meets_inStage
        apply Script.meets_mono (stands_bind (finalVerification_stands hs₂)
          fun _ _ _ hs' => Script.meets_mono (meets_inspectPhase hs') fun _ _ _ hs'' => hs''.1)
        rintro h' (e | v) s' hs'
        · exact ⟨hs', fun e' he' => ⟨e, (Except.error.inj he').symm⟩⟩
        · exact ⟨hs', nofun⟩
      apply Script.meets_bind hfinal
      · exact fun h₃ v s₃ hs₃ => hs₃.1
      · rintro h₃ e s₃ ⟨hs₃, he⟩ s₀
        obtain ⟨cause, rfl⟩ := he e rfl
        exact .inr (.inl ⟨rfl, hs₃⟩)
    · rintro h₂ e s₂ ⟨before, name, rest, cause, hsteps, rfl, hwindow⟩ s₀
      exact .inr (.inr ⟨before, rest, hsteps, hwindow⟩)
  · rintro h₁ e s₁ ⟨hs₁, he⟩ s₀
    obtain ⟨cause, rfl⟩ := he e rfl
    exact .inl ⟨rfl, hs₁⟩

/-- **The controller** reaches the end of every step, or leaves the journal in the window of the step that is stopped. -/
theorem meets_installCleanPrivateRuntime {i : Inputs} {installers : String → Installer} (hs : s.published = []) :
    Meets i.steps (installCleanPrivateRuntime i installers) (fun _ r s' => match r with
      | .ok _ => Stands s' (reached i.steps)
      | .error e => Left i.steps s e s') h s := by
  -- what comes before the journal leaves it alone
  have hbefore : ∀ {β : Type} {p : RuntimeScript β} {f : β → RuntimeScript Report} {h₁ : List (Entry RuntimeOp Fault)}
      {s₁ : Site}, Untouched s s₁ → Meets i.steps p (fun _ r s' => Leaves s₁ r s') h₁ s₁ →
      (∀ b h₂ s₂, Untouched s s₂ → Meets i.steps (f b) (fun _ r s' => match r with
        | .ok _ => Stands s' (reached i.steps)
        | .error e => Left i.steps s e s') h₂ s₂) →
      Meets i.steps (p >>= f) (fun _ r s' => match r with
        | .ok _ => Stands s' (reached i.steps)
        | .error e => Left i.steps s e s') h₁ s₁ := by
    intro β p f h₁ s₁ hsame hp hf
    apply Script.meets_bind hp
    · exact fun h₂ b s₂ hs₂ => hf b h₂ s₂ ⟨hs₂.1.1.trans hsame.1, hs₂.1.2.trans hsame.2⟩
    · exact fun h₂ e s₂ hs₂ => left_of_unstaged (hs₂.2 e rfl) (.inl ⟨hs₂.1.1.trans hsame.1, hs₂.1.2.trans hsame.2⟩)
  apply hbefore ⟨rfl, rfl⟩ leaves_demand
  intro _ h₁ s₁ hs₁
  apply hbefore hs₁ leaves_demand
  intro _ h₂ s₂ hs₂
  apply hbefore hs₂ freshJournal_leaves
  intro _ h₃ s₃ hs₃
  apply hbefore hs₃ boundProfile_leaves
  intro authProfile h₄ s₄ hs₄
  apply Script.meets_bind (meets_startJournal (hs₄.2.trans hs))
  · rintro h₅ journal s₅ ⟨-, hstands, -⟩
    have hnew := hstands journal rfl
    apply Script.meets_bind leaves_demand
    · intro h₆ u s₆ hs₆
      apply Script.meets_mono (meets_installed (hnew.congr hs₆.1))
      rintro h' (e | report) s' hr
      · exact hr s
      · exact hr
    · exact fun h₆ e s₆ hs₆ => left_of_unstaged (hs₆.2 e rfl) (.inr (hnew.congr hs₆.1))
  · rintro h₅ e s₅ ⟨hwhere, -, hunstaged⟩
    refine left_of_unstaged (hunstaged e rfl) (hwhere.imp (fun hsame => ?_) id)
    exact ⟨hsame.1.trans hs₄.1, hsame.2.trans hs₄.2⟩

end Windows

/-! ## Runs that are computed -/

def freshHex (n : Nat) : String := String.ofList (List.replicate n 'a')

def freshRecord : InstallRecord where
  format := FORMAT
  transactionId := freshHex 36
  phase := "prepared"
  workspace := "/workspace"
  releaseRoot := "/release"
  manifestSha256 := freshHex 64
  artifactSha256 := freshHex 64
  version := "1.0.0"
  commit := freshHex 40
  identityPlan := ⟨"agent", "/work", "example.test", "ipc", "mcp", "/release", "group", "worker"⟩

/-- No journal is there yet. -/
def emptySite : Site where
  record := none
  published := []
  fresh := freshRecord
  profiles _ := "static"
  systemd _ := "inactive-bound"
  paused _ := true
  owner _ := ""
  work _ := 0
  asked := 0

def freshInputs : Inputs := ⟨true, true, "/journal", "/workspace", freshHex 64, "/release", false⟩

/-- The first step moves the journal, and tries it once more. The others return early. -/
def carelessInstallers (name : String) : Installer :=
  if name = "identities" then do
    .perform id (.advance ⟨"/journal", freshHex 36, "identities-intent", "identities-ready"⟩)
    (Script.perform id (.advance ⟨"/journal", freshHex 36, "identities-intent", "identities-ready"⟩)).ignored
  else pure ()

def carelessRun : List (Entry RuntimeOp Fault) × Except RuntimeError Report × Site :=
  (installCleanPrivateRuntime freshInputs carelessInstallers).run.planned site [] emptySite

end BegetBridge.PrivateInstall
