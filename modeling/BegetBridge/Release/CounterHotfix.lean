import BegetBridge.Interleaving.Ending

/-!
# The counter hotfix

The hotfix replaces a few source files of the release that is live, with the units stopped: each file is
renamed into place, from the staged copy. A journal says how far the installation is. Where it fails or
crashes, the recovery puts the original files back, whichever of them have been replaced, and starts the
units again. The ingress is opened only after the local health check.

## Main definitions

* `Item`, `SourceFile`, `Host`: the sources, and the host
* `HotfixOp`: what is done to the host
* `pinnedLive`, `replaceSource`: a source is looked at, and replaced
* `waitIdle`, `waitHealth`: the waits
* `recoverLegacyCounterHotfix`, `installLegacyCounterHotfix`: the two transactions
-/

namespace BegetBridge.CounterHotfix

open Interleaving

abbrev Bytes := List UInt8

/-! ## The host -/

/-- A source: its path, its name in the stage, and the digests of its bytes before and after. -/
structure Item where
  source : String
  name : String
  before : String
  after : String
  deriving DecidableEq

/-- A file: its bytes, its mode, and whether it is a file of the root user with one name. -/
structure SourceFile where
  bytes : Bytes
  mode : Nat
  plain : Bool
  deriving DecidableEq

/-- The phases of the journal. -/
inductive Phase
  | preparing
  | closingIngress
  | ingressClosed
  | stoppingWriters
  | writersStopped
  | sourcesUpdated
  | locallyHealthy
  | openingIngress
  | complete
  | recovering
  | recovered
  deriving DecidableEq

/-- What systemd shows of a unit. -/
structure UnitState where
  activeState : String
  mainPid : String
  killMode : String
  deriving DecidableEq

/-- What the services answer on their health, with the counters where they have them. -/
structure HealthAnswer where
  services : Nat
  products : Nat
  inFlightRequests : Option (List Nat)
  deriving DecidableEq

/-- What is not on the host: the connections, the operations in the ledger, the answers of the services, and
what is shown of a unit when it is not what it was put into. -/
structure Outside where
  connections : Nat
  operations : Nat
  health : Bool → HealthAnswer
  shown : String → Option UnitState

/-- The host: the sources with what is known of their directories, the temporaries, the stage, the journal,
and the units. What is outside may differ each time it is asked. `proven` is the health check that has
passed since a source was changed last. -/
structure Host where
  live : String → Option SourceFile
  canonical : String → Bool
  parentPlain : String → Bool
  parentCanonical : String → Bool
  temporary : Nat → Option SourceFile
  minted : Nat
  staged : String → Option Bytes
  journal : Option Phase
  journalPlain : Bool
  journalTemporary : Option Phase
  units : String → UnitState
  outside : Nat → Outside
  asked : Nat
  proven : Option Bool

/-- Why a call fails. -/
inductive HostError
  | noEntry
  | taken
  | failed
  deriving DecidableEq

/-- The calls that look at something the model does not change. -/
inductive Probe
  | preflight
  | verifyStage
  | inspectRoute
  | publicOriginal
  | publicClosed
  | checkLedger
  | sleep
  deriving DecidableEq

/-- The calls of the transactions. -/
inductive HotfixOp : Type → Type
  | lstatLive (source : String) : HotfixOp (Bool × Nat × Nat)
  | realpathLive (source : String) : HotfixOp Bool
  | readLive (source : String) : HotfixOp Bytes
  | readStaged (file : String) : HotfixOp Bytes
  | lstatParent (source : String) : HotfixOp Bool
  | realpathParent (source : String) : HotfixOp Bool
  | openTemporary : HotfixOp Nat
  | writeTemporary (n : Nat) (bytes : Bytes) : HotfixOp Unit
  | chmodTemporary (n : Nat) (mode : Nat) : HotfixOp Unit
  | renameTemporary (n : Nat) (source : String) : HotfixOp Unit
  | unlinkTemporary (n : Nat) : HotfixOp Unit
  | openFile : HotfixOp Unit
  | syncFile : HotfixOp Unit
  | closeFile : HotfixOp Unit
  | lstatJournal : HotfixOp Bool
  | readJournal : HotfixOp Phase
  | createJournal : HotfixOp Unit
  | openJournal : HotfixOp Unit
  | writeJournal (phase : Phase) : HotfixOp Unit
  | renameJournal : HotfixOp Unit
  | unlinkJournal : HotfixOp Unit
  | createArchive : HotfixOp Unit
  | writeArchive (phase : Phase) : HotfixOp Unit
  | stop (unit : String) : HotfixOp Unit
  | start (unit : String) : HotfixOp Unit
  | show (unit : String) : HotfixOp UnitState
  | connections : HotfixOp Nat
  | activeOperations : HotfixOp Nat
  | readHealth (counters : Bool) : HotfixOp HealthAnswer
  | probe (probe : Probe) : HotfixOp Unit

/-- What `waitHealth` accepts. -/
def accepted (counters : Bool) (result : HealthAnswer) : Bool :=
  result.services == 4 && result.products == 4 &&
    (if counters then result.inFlightRequests == some [0, 0, 0, 0] else result.inFlightRequests.isNone)

namespace Host

def setLive (s : Host) (source : String) (file : Option SourceFile) : Host :=
  { s with live := Function.update s.live source file }

def setTemporary (s : Host) (n : Nat) (file : Option SourceFile) : Host :=
  { s with temporary := Function.update s.temporary n file }

def setUnit (s : Host) (unit : String) (state : UnitState) : Host :=
  { s with units := Function.update s.units unit state }

def unproven (s : Host) : Host := { s with proven := none }

def withJournal (s : Host) (journal : Option Phase) : Host := { s with journal := journal }

/-- The next answer from outside. -/
def now (s : Host) : Outside := s.outside s.asked

def ask (s : Host) : Host := { s with asked := s.asked + 1 }

/-- The health that is read, noted where it is accepted. -/
def noted (s : Host) (counters : Bool) : Host :=
  if accepted counters (s.now.health counters) then { s with proven := some counters } else s

def orMissing {α : Type} : Option α → Except HostError α
  | some a => .ok a
  | none => .error .noEntry

def exec : {β : Type} → HotfixOp β → Host → Except HostError (β × Host)
  | _, .lstatLive source, s => (orMissing (s.live source)).map fun f => ((f.plain, f.mode, f.bytes.length), s)
  | _, .realpathLive source, s => .ok (s.canonical source, s)
  | _, .readLive source, s => (orMissing (s.live source)).map fun f => (f.bytes, s)
  | _, .readStaged file, s => (orMissing (s.staged file)).map fun bytes => (bytes, s)
  | _, .lstatParent source, s => .ok (s.parentPlain source, s)
  | _, .realpathParent source, s => .ok (s.parentCanonical source, s)
  | _, .openTemporary, s =>
    .ok (s.minted, { s.setTemporary s.minted (some ⟨[], 0o600, true⟩) with minted := s.minted + 1 })
  | _, .writeTemporary n bytes, s =>
    (orMissing (s.temporary n)).map fun f => ((), s.setTemporary n (some { f with bytes := f.bytes ++ bytes }))
  | _, .chmodTemporary n mode, s =>
    (orMissing (s.temporary n)).map fun f => ((), s.setTemporary n (some { f with mode := mode }))
  | _, .renameTemporary n source, s =>
    (orMissing (s.temporary n)).map fun f => ((), ((s.setLive source (some f)).setTemporary n none).unproven)
  | _, .unlinkTemporary n, s => (orMissing (s.temporary n)).map fun _ => ((), s.setTemporary n none)
  | _, .openFile, s => .ok ((), s)
  | _, .syncFile, s => .ok ((), s)
  | _, .closeFile, s => .ok ((), s)
  | _, .lstatJournal, s => (orMissing s.journal).map fun _ => (s.journalPlain, s)
  | _, .readJournal, s => (orMissing s.journal).map fun phase => (phase, s)
  | _, .createJournal, s =>
    if s.journal.isSome then .error .taken
    else .ok ((), { s.withJournal (some .preparing) with journalPlain := true })
  | _, .openJournal, s => .ok ((), { s with journalTemporary := none })
  | _, .writeJournal phase, s => .ok ((), { s with journalTemporary := some phase })
  | _, .renameJournal, s =>
    (orMissing s.journalTemporary).map fun phase =>
      ((), { s.withJournal (some phase) with journalPlain := true, journalTemporary := none })
  | _, .unlinkJournal, s => (orMissing s.journal).map fun _ => ((), s.withJournal none)
  | _, .createArchive, s => .ok ((), s)
  | _, .writeArchive _, s => .ok ((), s)
  | _, .stop unit, s => .ok ((), s.setUnit unit ⟨"inactive", "0", (s.units unit).killMode⟩)
  | _, .start unit, s => .ok ((), s.setUnit unit ⟨"active", "1", (s.units unit).killMode⟩)
  | _, .show unit, s => .ok ((s.now.shown unit).getD (s.units unit), s.ask)
  | _, .connections, s => .ok (s.now.connections, s.ask)
  | _, .activeOperations, s => .ok (s.now.operations, s.ask)
  | _, .readHealth counters, s => .ok (s.now.health counters, (s.noted counters).ask)
  | _, .probe _, s => .ok ((), s)

end Host

def host : Backend HotfixOp HostError Host := ⟨Host.exec⟩

/-- What the transactions throw. -/
inductive HotfixError
  | call (e : HostError)
  | message (text : String)
  | aggregate (failure recovery : HotfixError) (text : String)
  | recovered (failure : HotfixError)

abbrev HotfixScript := Script HotfixOp HostError HotfixError

def call {β : Type} (op : HotfixOp β) : HotfixScript β := .perform .call op

def demand (holds : Bool) (text : String) : HotfixScript Unit := if holds then pure () else throw (.message text)

/-- What is asked only where the rest of a condition holds. -/
def askedIf {β : Type} (holds : Bool) (op : HotfixOp β) (otherwise : β) : HotfixScript β :=
  if holds then call op else pure otherwise

def probe (p : Probe) : HotfixScript Unit := call (.probe p)

/-- `for (const x of xs) …` -/
def each {α : Type} (body : α → HotfixScript Unit) : List α → HotfixScript Unit
  | [] => pure ()
  | x :: xs => do
    body x
    each body xs

/-! ## The journal -/

def syncDirectory : HotfixScript Unit := do
  call .openFile
  Script.andFinally (call .syncFile) (call .closeFile)

def journalUpdate (phase : Phase) : HotfixScript Unit := do
  call .openJournal
  Script.andFinally (do
    call (.writeJournal phase)
    call .syncFile) (call .closeFile)
  call .renameJournal
  syncDirectory

def journalCreate : HotfixScript Unit := do
  call .createJournal
  syncDirectory

def journalRead : HotfixScript Phase := do
  let plain ← call .lstatJournal
  demand plain "Untrusted hotfix journal"
  call .readJournal

def archiveRecoveredJournal : HotfixScript Unit := do
  let previous ← journalRead
  demand (previous == .recovered) "Prior activation has not completed recovery"
  let bytes ← call .readJournal
  call .createArchive
  Script.andFinally (do
    call (.writeArchive bytes)
    call .syncFile) (call .closeFile)
  syncDirectory
  let again ← call .readJournal
  demand (again == bytes) "Recovered activation journal changed during archival"
  call .unlinkJournal
  syncDirectory

/-! ## The sources -/

section Sources

variable (digest : Bytes → String)

def pinnedLive (source expectedHash : String) (expectedMode : Nat) : HotfixScript Unit := do
  let info ← call (.lstatLive source)
  let real ← askedIf (info.1 && info.2.1 == expectedMode && !decide (512 * 1024 < info.2.2))
    (.realpathLive source) false
  demand real "Live hotfix source changed"
  let bytes ← call (.readLive source)
  demand (digest bytes == expectedHash) "Live hotfix source changed"

/-- The rename of a temporary, with what is checked before it. -/
def renamed (source : String) (from_ : String × Nat) (mode n : Nat) : HotfixScript Unit := do
  call (.chmodTemporary n mode)
  call .openFile
  Script.andFinally (call .syncFile) (call .closeFile)
  pinnedLive digest source from_.1 from_.2
  call (.renameTemporary n source)
  syncDirectory

/-- `replaceSource({ source, staged, from, to, mode })` -/
def replaceSource (source staged : String) (from_ to_ : String × Nat) (mode : Nat) : HotfixScript Unit := do
  pinnedLive digest source from_.1 from_.2
  let bytes ← call (.readStaged staged)
  demand (digest bytes == to_.1) "Staged hotfix bytes changed"
  let plain ← call (.lstatParent source)
  let real ← askedIf plain (.realpathParent source) false
  demand real "Untrusted live source directory"
  let n ← call .openTemporary
  Script.andFinally (do
    call (.writeTemporary n bytes)
    call .syncFile) (call .closeFile)
  tryCatch (renamed digest source from_ mode n) fun error => do
    Script.ignored (call (.unlinkTemporary n))
    throw error
  pinnedLive digest source to_.1 mode

def Item.stagedBefore (item : Item) : String := item.name ++ ".before.js"

def Item.stagedAfter (item : Item) : String := item.name ++ ".after.js"

/-- What the recovery does with a source: it puts the original back, where it is not there. -/
def restoreSource (item : Item) : HotfixScript Unit := do
  let original ← tryCatch (do
    pinnedLive digest item.source item.before 0o664
    return true) fun _ => do
      pinnedLive digest item.source item.after 0o644
      return false
  if original then pure ()
  else replaceSource digest item.source item.stagedBefore (item.after, 0o644) (item.before, 0o664) 0o664

/-- What the installation does with a source. -/
def installSource (item : Item) : HotfixScript Unit :=
  replaceSource digest item.source item.stagedAfter (item.before, 0o664) (item.after, 0o644) 0o644

end Sources

/-! ## The units -/

def ENTRY : List String := ["dp-beget-oauth-proxy.socket", "dp-beget-tunnel.service"]

def WRITERS : List String :=
  ["dp-beget-mcp-oauth-spike.service", "dp-beget-mcp.service", "dp-beget-agent.service",
    "dp-beget-session-host.service"]

def START : List String := WRITERS.reverse

def sessionHost : String := "dp-beget-session-host.service"

def oauthProxy : String := "dp-beget-oauth-proxy.service"

/-- What `stopped` accepts. -/
def UnitState.isStopped (state : UnitState) (unit : String) : Bool :=
  state.activeState == "inactive" && (unit.endsWith ".socket" || state.mainPid == "0")

/-- What `running` accepts. -/
def UnitState.isRunning (state : UnitState) : Bool :=
  state.activeState == "active" &&
    match state.mainPid.toList with
    | [] => false
    | c :: cs => '1' ≤ c && c ≤ '9' && cs.all Char.isDigit

def stopped (unit : String) : HotfixScript Unit := do
  let state ← call (.show unit)
  demand (state.isStopped unit) ("Legacy unit did not stop: " ++ unit)

def running (unit : String) : HotfixScript Unit := do
  let state ← call (.show unit)
  demand state.isRunning ("Legacy unit did not start: " ++ unit)

def active (unit : String) : HotfixScript Unit := do
  let state ← call (.show unit)
  demand (state.activeState == "active") ("Legacy ingress did not start: " ++ unit)

def stopAndCheck (unit : String) : HotfixScript Unit := do
  call (.stop unit)
  stopped unit

def startWriter (unit : String) : HotfixScript Unit := do
  call (.start unit)
  running unit

def startEntry (unit : String) : HotfixScript Unit := do
  call (.start unit)
  active unit

/-- The recovery stops a writer that is active. -/
def stopWriter (unit : String) : HotfixScript Unit := do
  let state ← call (.show unit)
  if state.activeState == "active" then do
    if unit == sessionHost then probe .checkLedger
    call (.stop unit)
  stopped unit

/-- The installation stops every writer. -/
def stopWriterAlways (unit : String) : HotfixScript Unit := do
  if unit == sessionHost then probe .checkLedger
  call (.stop unit)
  stopped unit

/-- `waitIdle()`, with the attempts that are left. -/
def waitIdle : Nat → Nat → HotfixScript Unit
  | 0, _ => throw (.message "Legacy connections or operations did not drain within the maintenance window")
  | attempts + 1, consecutive => do
    let connections ← call .connections
    let operations ← askedIf (connections == 0) .activeOperations 1
    let consecutive := if connections == 0 && operations == 0 then consecutive + 1 else 0
    if 2 ≤ consecutive then pure ()
    else do
      probe .sleep
      waitIdle attempts consecutive

def drain : HotfixScript Unit := waitIdle 40 0

/-- One attempt of `waitHealth`. -/
def healthy (counters : Bool) : HotfixScript Bool :=
  tryCatch (do
    let result ← call (.readHealth counters)
    return accepted counters result) fun _ => pure false

/-- The message of `waitHealth`, to which the source adds what it saw last. -/
def healthText (counters : Bool) : String :=
  "R0003 " ++ (if counters then "counter" else "original") ++ " health failed"

/-- `waitHealth(readHealth, { counters })`, with the attempts that are left. -/
def waitHealthy (counters : Bool) : Nat → HotfixScript Unit
  | 0 => throw (.message (healthText counters))
  | attempts + 1 => do
    let ok ← healthy counters
    if ok then pure ()
    else do
      probe .sleep
      waitHealthy counters attempts

def waitHealth (counters : Bool) : HotfixScript Unit := waitHealthy counters 15

/-! ## The transactions -/

section Transactions

variable (digest : Bytes → String) (files : List Item)

/-- What opens the ingress again, at the end of a recovery. -/
def reopened : HotfixScript Unit := do
  journalUpdate .openingIngress
  each startEntry ENTRY
  probe .publicOriginal
  journalUpdate .recovered

/-- What closes the ingress, at the start of a recovery. -/
def reclosed : HotfixScript Unit := do
  journalUpdate .recovering
  each stopAndCheck ENTRY
  drain
  stopAndCheck oauthProxy

/-- The recovery, once the journal is read. -/
def restored : HotfixScript Unit := do
  reclosed
  each stopWriter WRITERS
  each (restoreSource digest) files
  each startWriter START
  waitHealth false
  reopened

/-- `recoverLegacyCounterHotfix({ stageDir, manifestSha256 })` -/
def recoverLegacyCounterHotfix : HotfixScript Unit := do
  probe .verifyStage
  let phase ← journalRead
  demand (phase != .complete && phase != .recovered) "Hotfix transaction already reached a terminal phase"
  restored digest files

/-- What opens the ingress at the end of an installation. -/
def opened : HotfixScript Unit := do
  journalUpdate .locallyHealthy
  probe .inspectRoute
  each startEntry ENTRY
  probe .publicOriginal
  journalUpdate .complete

/-- What stops everything, at the start of an installation. -/
def closed : HotfixScript Unit := do
  journalUpdate .closingIngress
  each (fun unit => call (.stop unit)) ENTRY
  each stopped ENTRY
  probe .publicClosed
  journalUpdate .ingressClosed
  drain
  stopAndCheck oauthProxy
  journalUpdate .stoppingWriters
  each stopWriterAlways WRITERS
  journalUpdate .writersStopped

/-- The installation, once there is a journal. -/
def installed : HotfixScript Unit := do
  closed
  each (installSource digest) files
  journalUpdate .sourcesUpdated
  each startWriter START
  waitHealth true
  opened

/-- `installLegacyCounterHotfix({ stageDir, manifestSha256, retryRecovered })` -/
def installLegacyCounterHotfix (retryRecovered : Bool) : HotfixScript Unit := do
  probe .preflight
  probe .inspectRoute
  probe .publicOriginal
  let state ← call (.show sessionHost)
  demand (state.killMode == "process") "Session Host would kill persistent terminal sessions"
  drain
  if retryRecovered then archiveRecoveredJournal
  journalCreate
  tryCatch (installed digest files) fun failure => do
    tryCatch (recoverLegacyCounterHotfix digest files) fun recovery =>
      throw (.aggregate failure recovery
        "Hotfix installation and recovery failed; inspect the activation journal")
    throw (.recovered failure)

end Transactions

end BegetBridge.CounterHotfix
