import BegetBridge.Interleaving.Faults
import BegetBridge.Interleaving.Handler
import BegetBridge.Release.MigrationJournal
import BegetBridge.Release.VersionSwitch
import BegetBridge.Release.WriterPermit

/-!
# The activation of a candidate

The candidate of a migration becomes the current release: the pointers are switched, with the units started under a
permit and their health checked in between, and the journal records that the candidate is healthy. Where that fails the
units that were started are stopped, and the pointers restored.

## Main definitions

* `Activation`, `ActivateOp`: the releases, the permit, the units and the journal, and what is done to them
* `activateManagedRelease`: the activation
* `seen`: what a run has done, and which of its calls have failed
* `Accounted`, `Lost`: what an activation that throws should account for, and where it does not

## Main results

* `meets_candidate`: the switch of the pointers, with the units started inside
* `activation_accounted_iff`: where an activation accounts for what it did
-/

namespace BegetBridge.CandidateActivation

open Core Interleaving LockedFile Posix WriterPermit
open MigrationJournal (JournalCheck JournalError MigrationRecord MigrationCall advanceMigrationJournal readMigrationJournal)
open VersionPointer (ReleaseRoot SwitchOp FsError SwitchError SwitchCall Place switchVersion switchBackend failing failed
  Accepts Late)

/-! ## The system -/

/-- What the units are asked while the permit is there. -/
inductive UnitCall : Type → Type
  | startUnit (unit : String) : UnitCall Unit
  | assertHealthy : UnitCall Unit

/-- The units that a call starts. -/
def UnitCall.started {β : Type} : UnitCall β → List String
  | .startUnit unit => [unit]
  | .assertHealthy => []

/-- The units that run. -/
def units : Backend UnitCall Errno (List String) where
  exec
    | .startUnit unit, running => .ok ((), running ++ [unit])
    | .assertHealthy, running => .ok ((), running)

/-- What is verified before anything is changed. -/
inductive Check
  | verifyJournalUnitBackup
  | verifyJournalStateBundle
  | verifyMarker
  | assertWriterPermitAbsent
  | assertWritersStopped
  | inspectManaged
  deriving DecidableEq

inductive OwnCall : Type → Type
  | verify (check : Check) : OwnCall Unit
  | getState (unit : String) : OwnCall String
  | pause : OwnCall Unit
  | stopUnit (unit : String) : OwnCall Unit

/-- The calls of an activation: its own, those that read the journal, those of the switch, of the permit and its action,
and those of the transition of the journal. -/
inductive ActivateOp (β : Type) : Type
  | own (op : OwnCall β)
  | read (op : FileOp JournalCheck Bool MigrationRecord β)
  | switch (op : SwitchOp β)
  | scope (op : PermitOp UnitCall β)
  | advance (op : FileOp JournalCheck Bool MigrationRecord β)

/-- The releases with their pointers, the permit with the units that run, the journal, what the checks find, the states
of the ingress units, and whether admissions are paused. -/
structure Activation where
  root : ReleaseRoot
  scope : Scope (List String)
  journal : FileState JournalCheck Bool MigrationRecord
  checks : Check → Bool
  states : String → String
  paused : Bool

/-- Why a call fails: it is refused, or it fails for a reason of its own. -/
inductive CallError
  | file (e : FileError)
  | fs (e : FsError)
  | posix (e : Errno)
  | refused (check : Check)
  | failed (reason : String)
  deriving DecidableEq

def CallError.toFile : CallError → FileError
  | .file e => e
  | _ => .io

def CallError.toFs : CallError → FsError
  | .fs e => e
  | _ => .io

def CallError.toErrno : CallError → Errno
  | .posix e => e
  | _ => .other

/-- What a check finds. -/
def Activation.finds (s : Activation) : Check → Bool
  | .verifyMarker => s.scope.site.marker
  | .assertWriterPermitAbsent => s.scope.site.permit.isNone
  | check => s.checks check

def OwnCall.exec : {β : Type} → OwnCall β → Activation → Except CallError (β × Activation)
  | _, .verify check, s => if s.finds check then .ok ((), s) else .error (.refused check)
  | _, .getState unit, s => .ok (s.states unit, s)
  | _, .pause, s => .ok ((), { s with paused := true })
  | _, .stopUnit unit, s => .ok ((), { s with scope := { s.scope with rest := s.scope.rest.filter (· ≠ unit) } })

/-- A result of a part, in the whole. -/
def within {β σ ε : Type} (error : ε → CallError) (put : σ → Activation) (r : Except ε (β × σ)) :
    Except CallError (β × Activation) :=
  (r.mapError error).map fun x => (x.1, put x.2)

def activation : Backend ActivateOp CallError Activation where
  exec
    | .own op, s => op.exec s
    | .read op, s => within .file (fun t => { s with journal := t }) (op.exec s.journal)
    | .switch op, s => within .fs (fun t => { s with root := t }) (op.exec s.root)
    | .scope op, s => within .posix (fun t => { s with scope := t }) ((WriterPermit.scope units).exec op s.scope)
    | .advance op, s => within .file (fun t => { s with journal := t }) (op.exec s.journal)

/-- Any call may fail for a reason of its own. -/
def Fault (e : CallError) : Prop := ∃ reason, e = .failed reason

/-! ## The activation -/

/-- What an activation throws: a message, what a call, the reading or the transition of the journal or the switch throws,
or an `AggregateError` of that and of the stops that have failed. -/
inductive ActivationError
  | message (text : String)
  | call (e : CallError)
  | journal (e : JournalError)
  | switch (e : SwitchError)
  | aggregate (error : SwitchError) (stopFailures : List CallError)

abbrev ActivateScript (α : Type) := Script ActivateOp CallError ActivationError α

def START_ORDER : List String := ["dp-beget-session-host.service", "dp-beget-agent.service",
  "dp-beget-mcp.service", "dp-beget-mcp-oauth-spike.service"]

def INGRESS : List String :=
  ["dp-beget-oauth-proxy.socket", "dp-beget-oauth-proxy.service", "dp-beget-tunnel.service"]

/-- The arguments of an activation, with the names of its temporary files. `rooted` is whether the process is root and
the release root absolute; `unambiguous` and `guarded` are whether `writerGuardContent` accepts the permit, with the
persistent marker and with the marker of the call. -/
structure ActivateCall where
  rooted : Bool
  unambiguous : Bool
  guarded : Bool
  journalPath : String
  artifactSha256 : String
  switch : SwitchCall
  temporary : String

/-- `{ current, previous, services, admission }` -/
structure ActivationReport where
  current : String
  previous : Option String
  services : List String
  admission : String

def demand (holds : Bool) (text : String) : ActivateScript Unit := if holds then pure () else throw (.message text)

def own {β : Type} (op : OwnCall β) : ActivateScript β := .perform .call (.own op)

/-- A program of the journal, by calls of the activation. -/
def onJournal {α : Type} (op : {γ : Type} → FileOp JournalCheck Bool MigrationRecord γ → ActivateOp γ)
    (p : MigrationJournal.JournalScript α) : ActivateScript α :=
  ExceptT.mk ((p.run.handleWith (fun c (_ : Unit) => .asOne (op c) CallError.toFile ()) ()).bind fun x =>
    .done (x.1.mapError .journal))

/-- `!versionDir.endsWith(...)` and the other conditions of the intent. -/
def intended (call : ActivateCall) (journal : MigrationRecord) : Bool :=
  journal.phase == "switched" && call.artifactSha256 == journal.artifactSha256 &&
    ("-" ++ journal.newCommit).toList.isSuffixOf call.switch.versionDir.toList

/-- The ingress is closed. -/
def ingressClosed : List String → ActivateScript Unit
  | [] => pure ()
  | unit :: rest => do
    let state ← own (.getState unit)
    demand (state == "inactive") s!"Ingress remains active: {unit}"
    ingressClosed rest

/-- What is done before the switch. -/
def preflight (call : ActivateCall) : ActivateScript Unit := do
  demand (call.rooted && Journal.sha256 call.artifactSha256)
    "Root, release root and exact signed artifact digest are required"
  let journal ← onJournal .read (readMigrationJournal call.journalPath)
  demand (intended call journal) "Candidate release does not match journaled switch intent"
  own (.verify .verifyJournalUnitBackup)
  own (.verify .verifyJournalStateBundle)
  own (.verify .verifyMarker)
  demand call.unambiguous "Writer permit must be an unambiguous ephemeral /run path"
  own (.verify .assertWriterPermitAbsent)
  own (.verify .assertWritersStopped)
  ingressClosed INGRESS
  own (.verify .inspectManaged)
  own .pause

/-- The units are started in their order. -/
def startUnits : List String → Script UnitCall Errno Errno Unit
  | [] => pure ()
  | unit :: rest => do
    Script.perform id (.startUnit unit)
    startUnits rest

/-- The action of the permit. -/
def startCandidate : Script UnitCall Errno Errno Unit := do
  startUnits START_ORDER
  Script.perform id .assertHealthy

/-- The units that a call of the scope starts. -/
def startedBy {β : Type} : PermitOp UnitCall β → List String
  | .act a => a.started
  | .permit _ => []

/-- Whether what the scope of the permit throws is an `AggregateError`. -/
def isAggregate : PermitThrown Errno → Bool
  | .aggregate _ _ _ => true
  | _ => false

/-- The callback of the switch. `started.push(unit)` comes before the unit is started. -/
def checkHealthy (call : ActivateCall) (started : List String) :
    Prog ActivateOp CallError (Except FsError Unit × List String) :=
  ((withWriterStartPermit call.rooted call.guarded startCandidate).run.handleWith
    (fun op started => .asOne (.scope op) CallError.toErrno (started ++ startedBy op)) started).bind fun x =>
      .done (x.1.mapError fun e => .callback (isAggregate e), x.2)

/-- The calls of the switch, among them its callback. -/
def switching (call : ActivateCall) : {β : Type} → SwitchOp β → List String →
    Prog ActivateOp CallError (Except FsError β × List String)
  | _, .checkHealthy _, started => checkHealthy call started
  | _, op, started => .asOne (.switch op) CallError.toFs started

/-- The pointers are switched. What is left is what came of it, and the units that were started. -/
def candidate (call : ActivateCall) :
    ActivateScript (Except SwitchError (String × Option String) × List String) :=
  ExceptT.mk (((switchVersion call.switch).run.handleWith (switching call) []).bind fun x => .done (.ok x))

/-- The units are stopped, and the failures of that are collected. -/
def stopUnits : List String → ActivateScript (List CallError)
  | [] => pure []
  | unit :: rest => do
    let stopped ← (Script.perform id (.own (.stopUnit unit)) : Script ActivateOp CallError CallError Unit).attempt
    let failures ← stopUnits rest
    match stopped with
    | .ok () => pure failures
    | .error stopError => pure (stopError :: failures)

def advanceCall (call : ActivateCall) : MigrationCall := ⟨"switched", "locally-healthy", [], call.temporary⟩

/-- What is done after the switch. -/
def concluded (call : ActivateCall) (started : List String) :
    Except SwitchError (String × Option String) → ActivateScript ActivationReport
  | .error error => do
    let stopFailures ← stopUnits started.reverse
    if stopFailures = [] then throw (.switch error) else throw (.aggregate error stopFailures)
  | .ok links => do
    let _ ← onJournal .advance (advanceMigrationJournal call.journalPath (advanceCall call))
    pure ⟨links.1, links.2, START_ORDER, "paused"⟩

def activateManagedRelease (call : ActivateCall) : ActivateScript ActivationReport := do
  preflight call
  let (result, started) ← candidate call
  concluded call started result

/-! ## What a run has done -/

/-- What has been done with the permit. -/
inductive Step
  | started (unit : String)
  | healthy
  deriving DecidableEq

def UnitCall.step {β : Type} : UnitCall β → Step
  | .startUnit unit => .started unit
  | .assertHealthy => .healthy

/-- What a run has done: where calls of the switch have failed, whether one of the permit or its action has, the units
whose start was attempted, what was done with the permit, the units whose stop was issued, with the failures of these,
and whether a call of the transition has failed. -/
structure Seen where
  places : List Place
  permitFailed : Bool
  attempted : List String
  performed : List Step
  stopped : List String
  stopErrors : List CallError
  advanceFailed : Bool

def Seen.nothing : Seen := ⟨[], false, [], [], [], [], false⟩

/-- The call has failed, and not because the name is there or missing. -/
def faulty {β : Type} : Except Errno β → Bool
  | .error .other => true
  | _ => false

/-- What has succeeded with the permit. -/
def succeeded : Entry (PermitOp UnitCall) Errno → List Step
  | ⟨.act a, .ok _⟩ => [a.step]
  | _ => []

/-- The call on the journal has failed, and not because of what is there. -/
def broken {β : Type} : Except FileError β → Bool
  | .error .io => true
  | _ => false

def errorOf {β : Type} : Except CallError β → List CallError
  | .ok _ => []
  | .error e => [e]

/-- A call of the scope is noted. -/
def Seen.scope (n : Seen) (x : Entry (PermitOp UnitCall) Errno) : Seen :=
  { n with
    permitFailed := n.permitFailed || faulty x.reply
    attempted := n.attempted ++ startedBy x.op
    performed := n.performed ++ succeeded x }

/-- A call of the transition is noted. -/
def Seen.advance (n : Seen) (x : Entry (FileOp JournalCheck Bool MigrationRecord) FileError) : Seen :=
  { n with advanceFailed := n.advanceFailed || broken x.reply }

/-- A call of the switch is noted. -/
def Seen.switch (n : Seen) (x : Entry SwitchOp FsError) : Seen := { n with places := n.places ++ failed [x] }

def Seen.note (n : Seen) : Entry ActivateOp CallError → Seen
  | ⟨.switch op, r⟩ => n.switch ⟨op, r.mapError CallError.toFs⟩
  | ⟨.scope op, r⟩ => n.scope ⟨op, r.mapError CallError.toErrno⟩
  | ⟨.advance op, r⟩ => n.advance ⟨op, r.mapError CallError.toFile⟩
  | ⟨.own (.stopUnit unit), r⟩ =>
    { n with stopped := n.stopped ++ [unit], stopErrors := n.stopErrors ++ errorOf r }
  | _ => n

def seen (tr : List (Entry ActivateOp CallError)) : Seen := tr.foldl Seen.note .nothing

theorem seen_snoc {tr : List (Entry ActivateOp CallError)} {x : Entry ActivateOp CallError} :
    seen (tr ++ [x]) = (seen tr).note x := by
  rw [seen, List.foldl_append]
  rfl

/-- The phase of the journal. -/
def Activation.phase (s : Activation) : Option String := s.journal.record.map MigrationRecord.phase

def ActivationError.isAggregate : ActivationError → Bool
  | .switch e => e.isAggregate
  | .aggregate _ _ => true
  | _ => false

/-- The failures of stops that the error contains. -/
def ActivationError.stopFailures : ActivationError → List CallError
  | .aggregate _ stopFailures => stopFailures
  | _ => []

/-- The pointers are as before. -/
def Unmoved (s s' : ReleaseRoot) : Prop :=
  s'.entries .current = s.entries .current ∧ s'.entries .previous = s.entries .previous

/-- What an activation that throws accounts for: it has issued a stop for every unit whose start was attempted, it
contains the stops that have failed, and it has left the pointers, unless it is an `AggregateError` or the journal is
advanced. -/
structure Accounted (s : Activation) (tr : List (Entry ActivateOp CallError)) (e : ActivationError) (s' : Activation) :
    Prop where
  stopped : ∀ unit ∈ (seen tr).attempted, unit ∈ (seen tr).stopped
  contained : ∀ failure ∈ (seen tr).stopErrors, failure ∈ e.stopFailures
  pointers : e.isAggregate = false → s'.phase ≠ some "locally-healthy" → Unmoved s.root s'.root

/-- Only calls of the removal of the lock have failed. -/
def LockOnly (places : List Place) : Prop := places ≠ [] ∧ ∀ p ∈ places, p = .rmdir ∨ p = .last

/-- Calls have failed after the replacement of `previous`, which named another release than `current`, and none but
these and the removal of the lock. -/
def PreviousLost (s : ReleaseRoot) (places : List Place) : Prop :=
  Late .previous (places.filter fun p => p ≠ .rmdir ∧ p ≠ .last) ∧ s.entries .previous ≠ s.entries .current

/-- A call of the transition has failed; or no stop has failed, and of the other calls either those of the removal of the
lock only, or those after the replacement of `previous`. -/
def Lost (s : ReleaseRoot) (n : Seen) : Prop :=
  n.advanceFailed = true ∨
    n.stopErrors = [] ∧ (n.permitFailed = false ∧ LockOnly n.places ∨ PreviousLost s n.places)

/-- The system is one in which an activation succeeds, but for what the checks find. -/
structure Ready (s : Activation) (call : ActivateCall) : Prop where
  rooted : call.rooted = true
  guarded : call.guarded = true
  releases : Accepts s.root call.switch
  permit : s.scope.site.Fit
  path : Journal.normalized call.journalPath = true
  answers : ∀ check, s.journal.answers check = true
  unlocked : s.journal.locked = false
  record : ∃ r, s.journal.record = some r ∧ MigrationJournal.validate r = .ok r ∧ r.phase = "switched"
  temporary : s.journal.temporary call.temporary = none

/-- The units were started in their order, and then their health was checked. -/
def Seen.Activated (n : Seen) : Prop := n.performed = START_ORDER.map .started ++ [.healthy]

end BegetBridge.CandidateActivation
