import BegetBridge.Release.JournalFile

/-!
# The journal of a clean installation

The record of an installation. Before each phase the installation is inspected, as far as it should be by then.
Transitions are asked for by any number of processes, with any phases, and any of them may stop anywhere.

## Main definitions

* `validate`: what a record has to be
* `Inspection`, `Finding`: what is asked before a phase, and what is found
* `advanceCleanInstallJournal`: the transition
-/

namespace BegetBridge.CleanInstallJournal

open Core Interleaving LockedFile Journal
open Release (isAbsolute)

/-! ## Records -/

def PHASES : List String := ["prepared", "identities-intent", "identities-ready",
  "config-intent", "config-ready", "units-intent", "units-ready",
  "data-intent", "data-ready", "release-root-intent", "release-root-ready",
  "promotion-intent", "promotion-ready", "pointer-intent", "pointer-ready",
  "systemd-intent", "systemd-ready", "admission-intent", "admission-ready",
  "owner-intent", "owner-ready",
  "startup-intent", "startup-ready"]

def FORMAT : String := "dp-beget-clean-install-journal-v1"

structure IdentityPlan where
  agentUser : String
  allowedRoot : String
  domain : String
  ipcGroup : String
  mcpUser : String
  releaseRoot : String
  workGroup : String
  workUser : String
  deriving DecidableEq

structure InstallRecord where
  format : String
  transactionId : String
  phase : String
  workspace : String
  releaseRoot : String
  manifestSha256 : String
  artifactSha256 : String
  version : String
  commit : String
  identityPlan : IdentityPlan
  deriving DecidableEq

/-- `(?:0|[1-9]\d*)` -/
def numeral (digits : List Char) : Bool :=
  digits == ['0'] || (digits.head?.any fun c => c.isDigit && c != '0') && digits.all Char.isDigit

/-- `/^(?:0|[1-9]\d*)\.(?:0|[1-9]\d*)\.(?:0|[1-9]\d*)(?:-[0-9A-Za-z.-]+)?$/` -/
def isVersion (version : String) : Bool :=
  let core := version.toList.takeWhile (· != '-')
  let suffix := version.toList.dropWhile (· != '-')
  (core.splitOn '.').length == 3 && (core.splitOn '.').all numeral &&
    (suffix.isEmpty || suffix.length > 1 && suffix.tail.all fun c => c.isAlphanum || c == '.' || c == '-')

/-- `/^[a-z_][a-z0-9_-]{0,31}$/`, and not `root` -/
def accountName (name : String) : Bool :=
  (name.toList.head?.any fun c => c.isLower || c == '_') && name != "root" &&
    within (fun c => c.isLower || c.isDigit || c == '_' || c == '-') 1 32 name

/-- `/^[a-z0-9.-]+$/` -/
def domainName (domain : String) : Bool :=
  !domain.isEmpty && domain.toList.all fun c => c.isLower || c.isDigit || c == '.' || c == '-'

/-- `` inner.startsWith(`${outer}/`) `` -/
def below (inner outer : String) : Bool := (outer ++ "/").toList.isPrefixOf inner.toList

/-- Why a transition fails: by a message of its own, by what an inspection throws, or by the file. -/
inductive InstallError
  | message (text : String)
  | thrown (noEntry : Bool) (text : String)
  | file (e : FileError)
  deriving DecidableEq

def validate (record : InstallRecord) : Except InstallError InstallRecord :=
  if record.format == FORMAT && record.phase ∈ PHASES && transaction record.transactionId &&
      sha256 record.artifactSha256 && sha256 record.manifestSha256 && commit record.commit &&
      isVersion record.version && normalized record.workspace && normalized record.releaseRoot &&
      record.workspace != record.releaseRoot && !below record.workspace record.releaseRoot &&
      !below record.releaseRoot record.workspace && record.identityPlan.releaseRoot == record.releaseRoot &&
      [record.identityPlan.workUser, record.identityPlan.workGroup, record.identityPlan.ipcGroup,
        record.identityPlan.agentUser, record.identityPlan.mcpUser].all accountName &&
      isAbsolute record.identityPlan.allowedRoot && domainName record.identityPlan.domain then .ok record
  else .error (.message "Invalid clean-install journal")

/-! ## Inspections -/

/-- What is asked: of the system, of the candidate, of leftover lock files, and of what was installed. -/
inductive Inspection
  | root
  | parent
  | journal
  | candidate
  | identityPlan
  | authProfile
  | leftover (suffix : String)
  | created
  | config
  | unitTargets
  | units
  | dataTargets
  | data (startupReady ownerReady : Bool) (authMode : String)
  | releaseRootTarget
  | releaseRoot
  | promoted (requireCurrent : Bool)
  | systemd
  | admissionTarget
  | paused
  | closedIngress
  | owner
  | running
  | health
  deriving DecidableEq

/-- What is found: the field of the answer that is looked at. -/
inductive Finding
  | truth (b : Bool)
  | text (s : String)
  | candidate (artifactSha256 commit version : String)
  | plan (p : IdentityPlan)
  | nothing
  | thrown (noEntry : Bool) (text : String)
  deriving DecidableEq

abbrev InstallScript (α : Type) := FileScript Inspection Finding InstallRecord InstallError α

/-- What an inspection finds, where it does not throw. -/
def inspect (q : Inspection) : InstallScript Finding := do
  let found ← perform .file (.ask q)
  match found with
  | .thrown noEntry text => throw (.thrown noEntry text)
  | found => pure found

/-- An inspection that has to find something. -/
def prove (q : Inspection) (expected : Finding) (text : String) : InstallScript Unit := do
  let found ← inspect q
  demand (found == expected) (.message text)

def onlyIf (c : Bool) (p : InstallScript Unit) : InstallScript Unit := if c then p else pure ()

def privateParent (journalPath : String) : InstallScript Unit := do
  demand (normalized journalPath) (.message "Invalid clean-install journal path")
  prove .parent (.truth true) "Untrusted clean-install journal parent"

def readCleanInstallJournal (journalPath : String) : InstallScript InstallRecord := do
  privateParent journalPath
  prove .journal (.truth true) "Untrusted clean-install journal"
  let record ← perform .file .read
  orThrow (validate record)

/-! ## Transitions -/

/-- What a transition is asked for, with the name of its temporary file. -/
structure InstallCall where
  transactionId : String
  expectedPhase : String
  nextPhase : String
  temporary : String
  deriving DecidableEq

def phaseIndex (phase : String) : Int := indexOf PHASES phase

variable (call : InstallCall)

def InstallCall.staticStartup : Bool := call.expectedPhase == "admission-ready" && call.nextPhase == "startup-intent"

/-- `PHASES.indexOf(nextPhase) >= PHASES.indexOf(phase)` -/
def InstallCall.reaches (phase : String) : Bool := phaseIndex phase ≤ phaseIndex call.nextPhase

/-- The record is the one of the transaction, in the phase that was expected, and the next phase may follow. -/
def accepts (current : InstallRecord) : Bool :=
  current.transactionId == call.transactionId && current.phase == call.expectedPhase &&
    (call.staticStartup || phaseIndex call.nextPhase == phaseIndex call.expectedPhase + 1)

/-- The candidate is the one that the record is about. -/
def sameCandidate (current : InstallRecord) : InstallScript Unit := do
  match ← inspect .candidate with
  | .candidate artifactSha256 commit version =>
    demand (artifactSha256 == current.artifactSha256 && commit == current.commit && version == current.version)
      (.message "Clean-install candidate changed during transaction")
  | _ => throw (.thrown false "Cannot read properties of undefined (reading 'artifactSha256')")

/-- The candidate has not changed, and neither has its plan. -/
def inspectCandidate (current : InstallRecord) : InstallScript Unit := do
  sameCandidate current
  prove .identityPlan (.plan current.identityPlan) "Clean-install identity plan changed during transaction"

/-- The profile may be that of the phases. -/
def profileFits (authMode : String) : Bool :=
  authMode ∈ ["static", "oauth"] && !(call.staticStartup && authMode != "static") &&
    !(call.nextPhase ∈ ["owner-intent", "owner-ready"] && authMode != "oauth") &&
    !(call.expectedPhase == "owner-ready" && authMode != "oauth")

/-- The profile that is reported, if it fits. -/
def reportedProfile : InstallScript String := do
  match ← inspect .authProfile with
  | .text authMode => do
    demand (profileFits call authMode) (.message "Clean-install authorization phase does not match its bound profile")
    pure authMode
  | _ => throw (.message "Clean-install authorization phase does not match its bound profile")

/-- The phases in which the profile is asked for. -/
def boundPhases : List String := ["owner-intent", "owner-ready", "startup-intent", "startup-ready"]

def boundProfile : InstallScript String :=
  if call.nextPhase ∈ boundPhases then reportedProfile call else pure "static"

/-- No lock file of an earlier step is left over. -/
def noLeftover (suffix text : String) : InstallScript Unit :=
  tryCatch (do
    let _ ← inspect (.leftover suffix)
    throw (.message text)) fun
  | .thrown true _ => pure ()
  | error => throw error

/-- The lock files that must be gone before a phase. -/
def noLeftovers (authMode : String) : InstallScript Unit := do
  onlyIf (call.nextPhase == "config-intent")
    (noLeftover ".identity-install.lock" "Identity installation has an unresolved lock")
  onlyIf (call.nextPhase == "units-intent")
    (noLeftover ".config-install.lock" "Configuration installation has an unresolved lock")
  onlyIf (call.nextPhase == "data-intent")
    (noLeftover ".unit-install.lock" "Unit installation has an unresolved lock")
  onlyIf (call.nextPhase == "release-root-intent")
    (noLeftover ".data-install.lock" "Data installation has an unresolved lock")
  onlyIf (call.nextPhase == "promotion-intent")
    (noLeftover ".release-root-install.lock" "Version-root installation has an unresolved lock")
  onlyIf (call.nextPhase == "pointer-intent")
    (noLeftover ".promotion-install.lock" "Release promotion has an unresolved lock")
  onlyIf (call.nextPhase == "systemd-intent")
    (noLeftover ".pointer-install.lock" "Clean-install pointer has an unresolved lock")
  onlyIf (call.nextPhase == "admission-intent")
    (noLeftover ".systemd-install.lock" "Clean-install systemd reload has an unresolved lock")
  onlyIf (call.nextPhase ∈ ["owner-intent", "startup-intent"])
    (noLeftover ".admission-install.lock" "Clean-install admission pause has an unresolved lock")
  onlyIf (call.nextPhase == "startup-intent" && authMode == "oauth")
    (noLeftover ".owner-install.lock" "Clean owner installation has an unresolved lock")

/-- What has to be found before a phase, from the identities on. -/
def proofs (authMode : String) : InstallScript Unit := do
  prove .created (.text "journal-bound") "Created clean-install identities are unproven"
  onlyIf (call.reaches "config-ready")
    (prove .config (.text "bound-private") "Installed clean-install configuration is unproven")
  onlyIf (call.nextPhase == "units-intent")
    (prove .unitTargets (.text "unoccupied") "Clean-install unit targets are occupied")
  onlyIf (call.reaches "units-ready")
    (prove .units (.text "bound-files") "Installed clean-install units are unproven")
  onlyIf (call.nextPhase == "data-intent")
    (prove .dataTargets (.text "unoccupied") "Clean-install data targets are occupied")
  onlyIf (call.reaches "data-ready")
    (prove (.data (call.nextPhase == "startup-ready") (authMode == "oauth" && call.nextPhase != "owner-intent") authMode)
      (.text "private-owned") "Installed clean-install data directories are unproven")
  onlyIf (call.nextPhase == "release-root-intent")
    (prove .releaseRootTarget (.text "unoccupied") "Clean-install version root target is occupied")
  onlyIf (call.nextPhase ∈ ["release-root-ready", "promotion-intent"])
    (prove .releaseRoot (.text "private-empty") "Clean-install version root is unproven")
  onlyIf (call.nextPhase ∈ ["promotion-ready", "pointer-intent"])
    (prove (.promoted false) (.text "signed-inert") "Promoted clean-install release is unproven")
  onlyIf (call.nextPhase ∈ ["pointer-ready", "systemd-intent", "systemd-ready"])
    (prove (.promoted true) (.text "signed-inert") "Clean-install current pointer is unproven")
  onlyIf (call.nextPhase ∈ ["systemd-ready", "admission-intent", "admission-ready", "owner-intent", "owner-ready",
      "startup-intent"])
    (prove .systemd (.text "inactive-bound") "Clean-install systemd boundary is unproven")
  onlyIf (call.nextPhase == "admission-intent")
    (prove .admissionTarget (.text "absent") "Clean-install admission target is occupied")
  onlyIf (call.nextPhase ∈ ["admission-ready", "owner-intent", "owner-ready", "startup-intent", "startup-ready"])
    (prove .paused (.truth true) "Clean-install admission pause is unproven")
  onlyIf (call.nextPhase ∈ ["startup-intent", "startup-ready"])
    (prove .closedIngress (.text "closed-exclusive") "Clean-install public ingress is not proven closed")
  onlyIf (authMode == "oauth" && call.nextPhase ∈ ["owner-ready", "startup-intent", "startup-ready"])
    (prove .owner (.text "candidate-bound") "Clean-install OAuth owner is unproven")
  onlyIf (call.nextPhase == "startup-ready") do
    prove .running (.text "active-bound") "Clean-install running services or paused health are unproven"
    prove .health (.truth true) "Clean-install running services or paused health are unproven"

/-- What is done under the lock file. -/
def transition (journalPath : String) : InstallScript InstallRecord := do
  let current ← readCleanInstallJournal journalPath
  demand (accepts call current) (.message "Clean-install journal transition rejected")
  inspectCandidate current
  let authMode ← boundProfile call
  noLeftovers call authMode
  onlyIf (call.reaches "identities-ready") (proofs call authMode)
  let next ← orThrow (validate { current with phase := call.nextPhase })
  replaced .file call.temporary next
  unlocked .file
  pure next

/-- `text` contains `part`. -/
def contains (text part : String) : Bool := text.toList.tails.any part.toList.isPrefixOf

/-- `error.code === "ENOENT" || /transition rejected|candidate changed/.test(error.message)` -/
def InstallError.retried : InstallError → Bool
  | .message text => contains text "transition rejected" || contains text "candidate changed"
  | .thrown noEntry text => noEntry || contains text "transition rejected" || contains text "candidate changed"
  | .file e => e == .missing

def advanceCleanInstallJournal (journalPath : String) : InstallScript InstallRecord := do
  prove .root (.truth true) "Root is required to advance a clean-install journal"
  privateParent journalPath
  locked .file
  tryCatch (transition call journalPath) fun error => do
    onlyIf error.retried do
      (perform .file .unlock).ignored
      syncDir .file
    throw error

/-- The transitions of the journal. Files fail for other reasons at any time. -/
def installCalls (journalPath : String) :
    Calls (FileOp Inspection Finding InstallRecord) FileError (FileState Inspection Finding InstallRecord) InstallCall
      (FileNotes Inspection Finding InstallRecord) (Inspection → Finding) (Except InstallError InstallRecord) :=
  fileCalls (fun call => (advanceCleanInstallJournal call journalPath).run) (· = .io)

end BegetBridge.CleanInstallJournal
