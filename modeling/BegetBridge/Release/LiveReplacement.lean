import BegetBridge.Interleaving.Blame
import BegetBridge.Posix.Disk
import BegetBridge.Posix.Durability
import BegetBridge.Release.JournalFile

/-!
# The replacement of the live state

A ledger names what is replaced: the configuration first, then the databases. Each has its old state at its live name,
and the new state at the name of a copy beside it. Two renames replace it, the old state being parked first. The ledger
says how far that is, and a call that is cut is made again. The names of the targets are all different, so what is at
the three names of one target changes by the renames of that target only.

## Main definitions

* `Target`, `LedgerRecord`: what the ledger says
* `Site`, `LedgerOp`: the ledger and the names, with what a crash may leave of them, and the calls
* `inspectLiveReplacementLedger`, `replaceLiveStateFromLedger`: the inspection, and the replacement
-/

namespace BegetBridge.LiveReplacement

open Posix Interleaving
open Journal (normalized sha256 transaction)

/-! ## The ledger -/

inductive Kind
  | config
  | database
  deriving DecidableEq

structure Target where
  name : String
  kind : Kind
  live : String
  copy : String
  parked : String
  oldDev : Int
  oldIno : Int
  newDev : Int
  newIno : Int
  newUid : Int
  newGid : Int
  newMode : Int
  newDigest : String
  deriving DecidableEq

structure LedgerRecord where
  format : String
  phase : String
  migrationTransactionId : String
  copyRecordPath : String
  copyRecordSha256 : String
  targets : List Target
  deriving DecidableEq

def FORMAT : String := "dp-beget-bridge-live-replacement-ledger-v1"

/-- `typeof filename === "string" && path.isAbsolute(filename) && path.normalize(filename) === filename && filename !== "/"` -/
def absolute (filename : String) : Bool := normalized filename && filename != "/"

/-- `Number.isSafeInteger` -/
def isSafeInteger (n : Int) : Bool := decide (-9007199254740991 ≤ n) && decide (n ≤ 9007199254740991)

/-- `/^[a-z][a-z0-9_-]{0,31}$/` -/
def databaseName (name : String) : Bool :=
  match name.toList with
  | [] => false
  | c :: rest => c.isLower && decide (rest.length ≤ 31) &&
    rest.all fun d => d.isLower || d.isDigit || d == '_' || d == '-'

def Target.valid (item : Target) : Bool :=
  [item.copy, item.live, item.parked].all absolute && sha256 item.newDigest &&
    [item.newDev, item.newIno, item.newUid, item.newGid, item.oldDev, item.oldIno].all isSafeInteger &&
    decide (0 ≤ item.newMode) && decide (item.newMode ≤ 0o777) && (item.kind != .database || databaseName item.name)

/-- The three names of a target. -/
def Target.names (item : Target) : List String := [item.live, item.copy, item.parked]

/-- What `validate(record)` asks for. -/
def LedgerRecord.valid (r : LedgerRecord) : Bool :=
  r.format == FORMAT && decide (r.phase ∈ ["prepared", "replacing", "replaced"]) &&
    transaction r.migrationTransactionId && absolute r.copyRecordPath && sha256 r.copyRecordSha256 &&
    decide (2 ≤ r.targets.length) && r.targets.head?.any (·.kind == .config) &&
    r.targets.tail.all (·.kind == .database) && r.targets.all Target.valid && decide (r.targets.flatMap Target.names).Nodup

def LedgerRecord.withPhase (r : LedgerRecord) (phase : String) : LedgerRecord := { r with phase := phase }

/-! ## What is at the names -/

/-- What `lstat` says of a file or a directory, and the digest of its content. -/
structure Inode where
  directory : Bool
  regular : Bool
  nlink : Nat
  dev : Int
  ino : Int
  uid : Int
  gid : Int
  mode : Int
  digest : String
  deriving DecidableEq

/-- A configuration is a directory, a database a file with one name. -/
def Kind.fits : Kind → Inode → Bool
  | .config, info => info.directory
  | .database, info => info.regular && info.nlink == 1

/-- The three names of a target. -/
inductive Name
  | live
  | copy
  | parked
  deriving DecidableEq

/-- What is at the three names of a target. -/
structure Places where
  live : Option Inode
  copy : Option Inode
  parked : Option Inode
  deriving DecidableEq

def Places.get (p : Places) : Name → Option Inode
  | .live => p.live
  | .copy => p.copy
  | .parked => p.parked

def Places.set (p : Places) (info : Option Inode) : Name → Places
  | .live => { p with live := info }
  | .copy => { p with copy := info }
  | .parked => { p with parked := info }

/-- `rename(source, target)` -/
def Places.rename (p : Places) (source target : Name) : Places := (p.set (p.get source) target).set none source

/-- What matters of the record of the copies. -/
structure CopyRecord where
  phase : String
  migrationTransactionId : String

/-- What is around the ledger and the names. -/
structure Around where
  ledgerTrusted : Bool
  parentsTrusted : Bool
  copies : CopyRecord
  copiesSha256 : String
  transactionId : String
  sidecar : String → Bool

/-- The ledger, the names of the targets by their live names, and what is around them. -/
structure Site where
  around : Around
  ledger : Cell LedgerRecord
  places : String → Cell Places

/-- The calls. What is synchronised or closed only settles. -/
inductive LedgerOp : Type → Type
  | inspectLedger : LedgerOp Bool
  | readLedger : LedgerOp LedgerRecord
  | readCopies : LedgerOp CopyRecord
  | digestCopies : LedgerOp String
  | verifyCopies : LedgerOp Unit
  | boundary (database : String) : LedgerOp String
  | inspectParents (item : Target) : LedgerOp Bool
  | lstat (item : Target) (name : Name) : LedgerOp Inode
  | realpath (item : Target) (name : Name) : LedgerOp Bool
  | digest (item : Target) (name : Name) : LedgerOp String
  | lstatSidecar (filename : String) : LedgerOp Unit
  | syncPreserved (item : Target) : LedgerOp Unit
  | rename (item : Target) (source target : Name) : LedgerOp Unit
  | syncDirectory (directory : String) : LedgerOp Unit
  | renameLedger (r : LedgerRecord) : LedgerOp Unit
  | syncParent : LedgerOp Unit
  | settle : LedgerOp Unit

/-- `path.dirname(filename)`, of a normalized absolute path -/
def dirname (filename : String) : String := String.ofList ((filename.toList.reverse.dropWhile (· != '/')).drop 1).reverse

namespace Site

def withLedger (s : Site) (ledger : Cell LedgerRecord) : Site := { s with ledger := ledger }

/-- What is at the names of one target is changed. -/
def withPlaces (s : Site) (live : String) (places : Cell Places) : Site :=
  { s with places := fun key => if key = live then places else s.places key }

/-- A directory is synchronised, with the names of all the targets in it. -/
def synced (s : Site) (directory : String) : Site :=
  { s with places := fun key => if dirname key = directory then (s.places key).sync else s.places key }

/-- What is at a name of a target. -/
def entry (s : Site) (item : Target) (name : Name) : Option Inode := (s.places item.live).now.get name

def exec : {β : Type} → LedgerOp β → Site → Except Errno (β × Site)
  | _, .inspectLedger, s => .ok (s.around.ledgerTrusted, s)
  | _, .readLedger, s => .ok (s.ledger.now, s)
  | _, .readCopies, s => .ok (s.around.copies, s)
  | _, .digestCopies, s => .ok (s.around.copiesSha256, s)
  | _, .verifyCopies, s => .ok ((), s)
  | _, .boundary _, s => .ok (s.around.transactionId, s)
  | _, .inspectParents _, s => .ok (s.around.parentsTrusted, s)
  | _, .lstat item name, s => (s.entry item name).elim (.error .ENOENT) fun info => .ok (info, s)
  | _, .realpath item name, s => (s.entry item name).elim (.error .ENOENT) fun _ => .ok (true, s)
  | _, .digest item name, s => (s.entry item name).elim (.error .ENOENT) fun info => .ok (info.digest, s)
  | _, .lstatSidecar filename, s => if s.around.sidecar filename then .ok ((), s) else .error .ENOENT
  | _, .syncPreserved item, s => (s.entry item .live).elim (.error .ENOENT) fun _ => .ok ((), s)
  | _, .rename item source target, s => (s.entry item source).elim (.error .ENOENT) fun _ =>
    .ok ((), s.withPlaces item.live ((s.places item.live).write ((s.places item.live).now.rename source target)))
  | _, .syncDirectory directory, s => .ok ((), s.synced directory)
  | _, .renameLedger r, s => .ok ((), s.withLedger (s.ledger.write r))
  | _, .syncParent, s => .ok ((), s.withLedger s.ledger.sync)
  | _, .settle, s => .ok ((), s)

end Site

def site : Backend LedgerOp Errno Site := ⟨Site.exec⟩

/-- What is thrown. -/
inductive LedgerError
  | call (e : Errno)
  | message (text : String)
  deriving DecidableEq

abbrev LedgerScript := Script LedgerOp Errno LedgerError

def call {β : Type} (op : LedgerOp β) : LedgerScript β := .perform .call op

def demand (holds : Bool) (text : String) : LedgerScript Unit := if holds then pure () else throw (.message text)

/-- `syncDirectory(directory)`, where one call synchronises it. -/
def syncDirectory (sync : LedgerOp Unit) : LedgerScript Unit := do
  call .settle
  Script.andFinally (call sync) (call .settle)

/-! ## The inspection -/

inductive Position
  | pending
  | parked
  | installed
  deriving DecidableEq

/-- `readLiveReplacementLedger(ledgerPath)` -/
def readLiveReplacementLedger : LedgerScript LedgerRecord := do
  let trusted ← call .inspectLedger
  demand trusted "Untrusted live replacement ledger"
  let record ← call .readLedger
  demand record.valid "Invalid live replacement ledger"
  pure record

/-- `missing(filename)` -/
def missing (filename : String) : LedgerScript Bool :=
  tryCatch (do
    call (.lstatSidecar filename)
    pure false) fun
  | .call .ENOENT => pure true
  | error => throw error

/-- `identity(filename, kind)` -/
def identity (item : Target) (name : Name) : LedgerScript (Option Inode) :=
  tryCatch (do
    let info ← call (.lstat item name)
    demand (item.kind.fits info) "Unexpected recovery inode type"
    let real ← call (.realpath item name)
    demand real "Unexpected recovery inode type"
    pure (some info)) fun
  | .call .ENOENT => pure none
  | error => throw error

def Target.old (item : Target) : Option Inode → Bool
  | some info => info.dev == item.oldDev && info.ino == item.oldIno
  | none => false

def Target.next (item : Target) : Option Inode → Bool
  | some info => info.dev == item.newDev && info.ino == item.newIno
  | none => false

/-- The position of a target, from what is at its names. -/
def Target.classify (item : Target) (p : Places) : Option Position :=
  if item.old p.live && item.next p.copy && p.parked.isNone then some .pending
  else if p.live.isNone && item.next p.copy && item.old p.parked then some .parked
  else if item.next p.live && p.copy.isNone && item.old p.parked then some .installed
  else none

/-- Where the new state is. -/
def Position.newName : Position → Name
  | .installed => .live
  | _ => .copy

/-- `uid`, `gid` and `mode` of the new state. -/
def Target.owned (item : Target) : Option Inode → Bool
  | some info => info.uid == item.newUid && info.gid == item.newGid && info.mode == item.newMode
  | none => false

/-- None of these files is there. -/
def withoutSidecars (item : Target) : List String → LedgerScript Unit
  | [] => pure ()
  | suffix :: rest => do
    let gone ← missing (item.live ++ suffix)
    demand gone ("SQLite sidecar appeared: " ++ item.name)
    withoutSidecars item rest

/-- A database has none of the files that SQLite keeps beside it. -/
def checkSidecars (item : Target) : LedgerScript Unit :=
  if item.kind == .database then withoutSidecars item ["-wal", "-shm", "-journal"] else pure ()

/-- `targetPosition(item)` -/
def targetPosition (item : Target) : LedgerScript Position := do
  let trusted ← call (.inspectParents item)
  demand trusted "Untrusted replacement ledger parent"
  demand (dirname item.live == dirname item.copy && dirname item.live == dirname item.parked)
    "Replacement target is not on one destination directory"
  let live ← identity item .live
  let copy ← identity item .copy
  let parked ← identity item .parked
  match item.classify ⟨live, copy, parked⟩ with
  | none => throw (.message ("Unrecognized replacement position: " ++ item.name))
  | some position => do
    demand (item.owned ((Places.mk live copy parked).get position.newName)) ("Replacement ownership changed: " ++ item.name)
    let digest ← call (.digest item position.newName)
    demand (digest == item.newDigest) ("Replacement copy changed: " ++ item.name)
    checkSidecars item
    pure position

def targetPositions : List Target → LedgerScript (List Position)
  | [] => pure []
  | item :: rest => do
    let position ← targetPosition item
    let positions ← targetPositions rest
    pure (position :: positions)

/-- The positions are looked at once more. -/
def recheck : List Target → List Position → LedgerScript Unit
  | item :: rest, position :: positions => do
    let again ← targetPosition item
    demand (again == position) "Replacement positions changed during inspection"
    recheck rest positions
  | _, _ => pure ()

/-- The positions that a phase allows. -/
def allows (phase : String) (position : Position) : Bool :=
  (phase != "prepared" || position == .pending) && (phase != "replaced" || position == .installed)

/-- What a replacement is called with. -/
structure Inputs where
  rooted : Bool
  ledgerPath : String
  stateDatabase : String

/-- Where the state database is now. -/
def databasePath (c : Inputs) (targets : List Target) (positions : List Position) : String :=
  match (targets.zip positions).find? fun x => x.1.live == c.stateDatabase with
  | some (item, .parked) => item.parked
  | _ => c.stateDatabase

/-- `inspectLiveReplacementLedger({ ledgerPath, stateDatabase, ...boundary })` -/
def inspectLiveReplacementLedger (c : Inputs) : LedgerScript (LedgerRecord × List Position) := do
  demand (c.rooted && absolute c.stateDatabase) "Root and original state database are required"
  let record ← readLiveReplacementLedger
  let copies ← call .readCopies
  demand (copies.phase == "prepared") "Replacement ledger is not bound to prepared recovery copies"
  let digest ← call .digestCopies
  demand (digest == record.copyRecordSha256 && copies.migrationTransactionId == record.migrationTransactionId &&
      !record.targets.head?.any (·.live == c.stateDatabase) &&
      record.targets.any fun item => item.kind == .database && item.live == c.stateDatabase)
    "Replacement ledger is not bound to prepared recovery copies"
  let positions ← targetPositions record.targets
  demand (positions.all (allows record.phase)) "Replacement ledger phase contradicts live inode positions"
  let transactionId ← call (.boundary (databasePath c record.targets positions))
  demand (transactionId == record.migrationTransactionId) "Replacement ledger belongs to another migration"
  recheck record.targets positions
  pure (record, positions)

/-! ## The replacement -/

/-- `changePhase(ledgerPath, before, after)` -/
def changePhase (before : LedgerRecord) (after : String) : LedgerScript LedgerRecord := do
  let current ← readLiveReplacementLedger
  demand (current == before) "Replacement ledger changed before durable phase transition"
  let next := current.withPhase after
  demand next.valid "Invalid live replacement ledger"
  call .settle
  Script.andFinally (do
    call .settle
    call .settle) (call .settle)
  call (.renameLedger next)
  syncDirectory .syncParent
  pure next

/-- The positions, inspected again. -/
def positionsNow (c : Inputs) : LedgerScript (List Position) := do
  let inspected ← inspectLiveReplacementLedger c
  pure inspected.2

/-- A position that an earlier call has reached is made to last. -/
def settlePosition (c : Inputs) (item : Target) (index : Nat) (positions : List Position) : LedgerScript (List Position) :=
  if positions[index]? != some .pending then do
    syncDirectory (.syncDirectory (dirname item.live))
    positionsNow c
  else pure positions

/-- The old state is parked. -/
def park (c : Inputs) (item : Target) (index : Nat) (positions : List Position) : LedgerScript (List Position) :=
  if positions[index]? == some .pending then do
    call (.syncPreserved item)
    let positions ← positionsNow c
    demand (positions[index]? == some .pending) ("Old state changed before parking: " ++ item.name)
    call (.rename item .live .parked)
    syncDirectory (.syncDirectory (dirname item.live))
    let positions ← positionsNow c
    demand (positions[index]? == some .parked) ("Old state parking is uncertain: " ++ item.name)
    pure positions
  else pure positions

/-- The new state gets the live name. -/
def install (c : Inputs) (item : Target) (index : Nat) (positions : List Position) : LedgerScript (List Position) :=
  if positions[index]? == some .parked then do
    call (.rename item .copy .live)
    syncDirectory (.syncDirectory (dirname item.live))
    let positions ← positionsNow c
    demand (positions[index]? == some .installed) ("Restored state placement is uncertain: " ++ item.name)
    pure positions
  else pure positions

/-- The targets from an index on are replaced, one after the other. -/
def replaceTargets (c : Inputs) : Nat → List Target → List Position → LedgerScript (List Position)
  | _, [], positions => pure positions
  | index, item :: rest, positions => do
    let positions ← settlePosition c item index positions
    let positions ← park c item index positions
    let positions ← install c item index positions
    demand (positions[index]? == some .installed) ("Replacement position changed: " ++ item.name)
    replaceTargets c (index + 1) rest positions

/-- A replacement that has not begun is announced. -/
def announced (c : Inputs) (record : LedgerRecord) (positions : List Position) :
    LedgerScript (LedgerRecord × List Position) :=
  if record.phase == "prepared" then do
    let _ ← call .readCopies
    call .verifyCopies
    let record ← changePhase record "replacing"
    let positions ← positionsNow c
    pure (record, positions)
  else pure (record, positions)

/-- `replaceLiveStateFromLedger` -/
def replaceLiveStateFromLedger (c : Inputs) : LedgerScript (LedgerRecord × List Position) := do
  demand (c.rooted && absolute c.ledgerPath && absolute c.stateDatabase)
    "Root, replacement ledger and state database are required"
  let inspected ← inspectLiveReplacementLedger c
  if inspected.1.phase == "replaced" then pure inspected
  else do
    let begun ← announced c inspected.1 inspected.2
    let positions ← replaceTargets c 0 begun.1.targets begun.2
    demand (positions.all (· == .installed)) "Live replacement is incomplete"
    let _ ← changePhase begun.1 "replaced"
    inspectLiveReplacementLedger c

end BegetBridge.LiveReplacement
