import BegetBridge.Interleaving.Ending
import BegetBridge.Release.CleanInstallJournal

/-!
# The version pointers

The link `current` names the release that is active, and `previous` the one before. A switch replaces both, with a
health check in between, and takes the first replacement back where something fails.

## Main definitions

* `ReleaseRoot`: the links, the lock and the releases
* `SwitchOp`, `Place`: what is done, and where in the switch
* `atomicLink`, `switchVersion`: the switch
-/

namespace BegetBridge.VersionPointer

open Core Interleaving Journal
open CleanInstallJournal (isVersion)

/-! ## The release root -/

/-- The names in the root that a switch changes. -/
inductive Name
  | current
  | previous
  | lock
  | temporary (uuid : String)
  deriving DecidableEq

/-- What a name stands for. -/
inductive Node
  | directory
  | link (target : String)
  | other
  deriving DecidableEq

def Node.isLink : Node → Bool
  | .link _ => true
  | _ => false

/-- The schema versions that a release declares. -/
structure Schemas where
  sessionHost : Nat
  agent : Nat
  oauth : Nat
  deriving DecidableEq

/-- What a switch finds of the releases, and does not change: whether the root and `releases` are no links; for the name
of a release, whether it is there and a directory, whether it is its own real path, whether its metadata is there and a
file, its name and version there, and its schemas or why they are not trusted. -/
structure Releases where
  realRoot : Bool
  realReleases : Bool
  directory : String → Option Bool
  real : String → Bool
  packageFile : String → Option Bool
  package : String → Option (String × String)
  schemas : String → Except String Schemas

/-- The names, the releases, and what the health callback throws: nothing, or an error, which may be an
`AggregateError`. -/
structure ReleaseRoot where
  entries : Name → Option Node
  releases : Releases
  health : Option Bool

/-- Why an operation fails. -/
inductive FsError
  | noEntry
  | taken
  | malformed
  | io
  | callback (aggregate : Bool)
  deriving DecidableEq

/-- Which link is replaced. -/
inductive Use
  | current
  | previous
  | rollback
  deriving DecidableEq

/-- The calls of a replacement, in their order. -/
inductive LinkStep
  | symlink
  | synced
  | rename
  | resynced
  | unlink
  | cleared
  deriving DecidableEq

/-- Where in a switch an operation is performed. -/
inductive Place
  | prepare
  | link (use : Use) (step : LinkStep)
  | health
  | inspect
  | remove
  | rmdir
  | last
  deriving DecidableEq

/-- The operations of a switch, each with its place. The first ones only look. -/
inductive SwitchOp : Type → Type
  | realRoot (place : Place) : SwitchOp Bool
  | realReleases (place : Place) : SwitchOp Bool
  | isDirectory (place : Place) (name : String) : SwitchOp Bool
  | isReal (place : Place) (name : String) : SwitchOp Bool
  | isPackageFile (place : Place) (name : String) : SwitchOp Bool
  | readPackage (place : Place) (name : String) : SwitchOp (String × String)
  | readSchemas (place : Place) (name : String) : SwitchOp (Except String Schemas)
  | isLink (place : Place) (name : Name) : SwitchOp Bool
  | readlink (place : Place) (name : Name) : SwitchOp String
  | mkdir (place : Place) (name : Name) : SwitchOp Unit
  | rmdir (place : Place) (name : Name) : SwitchOp Unit
  | sync (place : Place) : SwitchOp Unit
  | symlink (place : Place) (target : String) (name : Name) : SwitchOp Unit
  | rename (place : Place) (source name : Name) : SwitchOp Unit
  | unlink (place : Place) (name : Name) : SwitchOp Unit
  | checkHealthy (place : Place) : SwitchOp Unit

def orMissing {α : Type} : Option α → Except FsError α
  | some a => .ok a
  | none => .error .noEntry

def ReleaseRoot.set (s : ReleaseRoot) (name : Name) (node : Option Node) : ReleaseRoot :=
  { s with entries := Function.update s.entries name node }

def SwitchOp.exec {β : Type} : SwitchOp β → ReleaseRoot → Except FsError (β × ReleaseRoot)
  | .realRoot _, s => .ok (s.releases.realRoot, s)
  | .realReleases _, s => .ok (s.releases.realReleases, s)
  | .isDirectory _ name, s => (orMissing (s.releases.directory name)).map fun b => (b, s)
  | .isReal _ name, s => .ok (s.releases.real name, s)
  | .isPackageFile _ name, s => (orMissing (s.releases.packageFile name)).map fun b => (b, s)
  | .readPackage _ name, s =>
    match s.releases.package name with
    | some package => .ok (package, s)
    | none => .error .malformed
  | .readSchemas _ name, s => .ok (s.releases.schemas name, s)
  | .isLink _ name, s => (orMissing (s.entries name)).map fun node => (node.isLink, s)
  | .readlink _ name, s =>
    match s.entries name with
    | some (.link target) => .ok (target, s)
    | some _ => .error .malformed
    | none => .error .noEntry
  | .mkdir _ name, s => if s.entries name = none then .ok ((), s.set name (some .directory)) else .error .taken
  | .rmdir _ name, s => if s.entries name = none then .error .noEntry else .ok ((), s.set name none)
  | .sync _, s => .ok ((), s)
  | .symlink _ target name, s =>
    if s.entries name = none then .ok ((), s.set name (some (.link target))) else .error .taken
  | .rename _ source name, s =>
    match s.entries source with
    | some node => .ok ((), (s.set name (some node)).set source none)
    | none => .error .noEntry
  | .unlink _ name, s => if s.entries name = none then .error .noEntry else .ok ((), s.set name none)
  | .checkHealthy _, s =>
    match s.health with
    | none => .ok ((), s)
    | some aggregate => .error (.callback aggregate)

def switchBackend : Backend SwitchOp FsError ReleaseRoot := ⟨fun op s => op.exec s⟩

/-- Any call may fail for another reason. -/
def Fault (e : FsError) : Prop := e = .io

/-! ## The switch -/

/-- What a switch throws: a message, what a call throws, or an `AggregateError` of its own. -/
inductive SwitchError
  | message (text : String)
  | call (e : FsError)
  | aggregate (first second : SwitchError)
  deriving DecidableEq

abbrev SwitchScript (α : Type) := Script SwitchOp FsError SwitchError α

def perform {β : Type} (op : SwitchOp β) : SwitchScript β := Script.perform .call op

def demand (holds : Bool) (text : String) : SwitchScript Unit := if holds then pure () else throw (.message text)

/-- `VERSION_DIR.exec(name)`: the version in the name, before a dash and a commit. -/
def versionOf (name : String) : Option String :=
  let n := name.toList.length - 41
  let version := String.ofList (name.toList.take n)
  if name.toList.length > 41 && isVersion version && (name.toList.drop n).head? == some '-' &&
      (name.toList.drop (n + 1)).all hexChar then some version
  else none

def releaseDirectory (place : Place) (name : String) : SwitchScript String :=
  match versionOf name with
  | none => throw (.message "Invalid prepared release directory name")
  | some version => do
    let directory ← perform (.isDirectory place name)
    let real ← if directory then perform (.isReal place name) else pure false
    demand real "Prepared release is not a real directory"
    let file ← perform (.isPackageFile place name)
    demand file "Prepared release has no regular package metadata"
    let package ← perform (.readPackage place name)
    demand (package.1 == "dp-beget-bridge" && package.2 == version) "Prepared release version does not match its package"
    pure ("releases/" ++ name)

/-- The name of the link in messages. -/
def Name.text : Name → String
  | .current => "current"
  | .previous => "previous"
  | .lock => ".activation.lock"
  | .temporary uuid => uuid

/-- `catch (error) { if (error.code !== "ENOENT") throw error; }` -/
def unlessMissing {α : Type} (a : α) (error : SwitchError) : SwitchScript α :=
  if error = .call .noEntry then pure a else throw error

def managedLink (place : Place) (name : Name) : SwitchScript (Option String) := do
  let found ← tryCatch (do let isLink ← perform (.isLink place name); pure (some isLink)) (unlessMissing none)
  match found with
  | none => pure none
  | some isLink => do
    demand isLink s!"{name.text} must be a managed symlink"
    let target ← perform (.readlink place name)
    demand ("releases/".toList.isPrefixOf target.toList) s!"{name.text} points outside releases"
    let directory ← releaseDirectory place (String.ofList (target.toList.drop 9))
    demand (directory == target) s!"{name.text} has an invalid target"
    pure (some target)

/-- The link is replaced by one with the target. -/
def atomicLink (use : Use) (name : Name) (target uuid : String) : SwitchScript Unit := do
  perform (.symlink (.link use .symlink) target (.temporary uuid))
  (do perform (.sync (.link use .synced))
      perform (.rename (.link use .rename) (.temporary uuid) name)
      perform (.sync (.link use .resynced))).andFinally
    (tryCatch (do perform (.unlink (.link use .unlink) (.temporary uuid)); perform (.sync (.link use .cleared)))
      (unlessMissing ()))

def readStateCompatibility (name : String) : SwitchScript Schemas := do
  let schemas ← perform (.readSchemas .prepare name)
  match schemas with
  | .ok schemas => pure schemas
  | .error text => throw (.message text)

/-- The arguments of a switch, with the names of its temporary links. -/
structure SwitchCall where
  versionDir : String
  uuids : Use → String

/-- The replacement is taken back, if it has taken place. -/
def rollback (call : SwitchCall) (current : Option String) (next : String) : SwitchScript Unit := do
  let active ← managedLink .inspect .current
  if active = some next then
    match current with
    | some current => atomicLink .rollback .current current (call.uuids .rollback)
    | none => do
      perform (.unlink .remove .current)
      perform (.sync .remove)
  else demand (active = current) "Current release pointer is neither old nor candidate"

/-- The links are replaced, and the health of the candidate is checked in between. -/
def replaceLinks (call : SwitchCall) (current : Option String) (next : String) : SwitchScript Unit := do
  atomicLink .current .current next (call.uuids .current)
  perform (.checkHealthy .health)
  match current with
  | some current => atomicLink .previous .previous current (call.uuids .previous)
  | none => pure ()

/-- The release that is active, if there is one, has the same schemas. -/
def sameSchemas (newSchemas : Schemas) : Option String → SwitchScript Unit
  | some current => do
    let oldSchemas ← readStateCompatibility (String.ofList (current.toList.drop 9))
    demand (newSchemas == oldSchemas)
      "State schema change requires a separate verified migration and rollback transaction"
  | none => pure ()

/-- What is checked under the lock, before anything is changed: the links before and after. -/
def prepared (call : SwitchCall) : SwitchScript (Option String × String) := do
  perform (.sync .prepare)
  let next ← releaseDirectory .prepare call.versionDir
  let current ← managedLink .prepare .current
  let _ ← managedLink .prepare .previous
  demand (current != some next) "Release is already active"
  let newSchemas ← readStateCompatibility call.versionDir
  sameSchemas newSchemas current
  pure (current, next)

/-- What is done under the lock. -/
def switched (call : SwitchCall) : SwitchScript (String × Option String) := do
  let (current, next) ← prepared call
  tryCatch (do replaceLinks call current next; pure (next, current)) fun error => do
    tryCatch (rollback call current next) fun rollbackError => throw (.aggregate error rollbackError)
    throw error

/-- `retainLock`: the rollback has failed. -/
def retained {α : Type} : Except SwitchError α → Bool
  | .error (.aggregate _ _) => true
  | _ => false

/-- The lock is removed, unless it is retained. -/
def released (retain : Bool) : SwitchScript Unit :=
  if retain then pure () else do
    perform (.rmdir .rmdir .lock)
    perform (.sync .last)

/-- The root and `releases` are their own real paths. -/
def realPaths : SwitchScript Unit := do
  let realRoot ← perform (.realRoot .prepare)
  let realReleases ← if realRoot then perform (.realReleases .prepare) else pure false
  demand realReleases "Release root and releases directory cannot be symlinks"

def switchVersion (call : SwitchCall) : SwitchScript (String × Option String) := do
  realPaths
  perform (.mkdir .prepare .lock)
  let result ← (switched call).attempt
  released (retained result)
  match result with
  | .ok links => pure links
  | .error error => throw error

end BegetBridge.VersionPointer
