import BegetBridge.Files.PathPolicy
import BegetBridge.Posix.Syscall

/-!
# The file manager

Upload, copy, move and removal, as programs over system calls. They hold the parent directory of what they
change, which is opened from the canonical root on, one name at a time and without links.

## Main definitions

* `PathPolicy.openMutationParent`: the parent directory of a reference
* `FileManager.commitTemporary`: a file that is complete gets its name
* `FileManager.upload`, `FileManager.copy`, `FileManager.move`, `FileManager.remove`
-/

namespace BegetBridge.Files

open Posix Interleaving
open Terminal (BridgeError)

/-- What a mutation throws: an error of its own, the failure of a call, or that of the request. -/
inductive FileError
  | bridge (e : BridgeError)
  | errno (e : Errno)
  | stream
  deriving DecidableEq

/-- A program over system calls. -/
abbrev FileScript := Script Syscall Errno FileError

/-- A call whose failure is thrown. -/
def sys {α : Type} (op : Syscall α) : FileScript α := Script.perform .errno op

/-- What is checked without a call. -/
def ensure (holds : Bool) (e : BridgeError) : FileScript Unit :=
  if holds then pure () else throw (.bridge e)

/-- What is done only on a condition. -/
def provided (condition : Bool) (p : FileScript Unit) : FileScript Unit := if condition then p else pure ()

def fromPolicy {α : Type} : Except BridgeError α → FileScript α
  | .ok a => pure a
  | .error e => throw (.bridge e)

/-- What goes wrong is thrown, after something was done about it. -/
def onError {α : Type} (p : FileScript α) (cleanup : FileScript Unit) : FileScript α :=
  tryCatch p fun e => cleanup.ignored >>= fun _ => throw e

/-! ## The parent directory -/

/-- The mark that the system puts on the path of a directory that is deleted. -/
def deletedMark : List Char := " (deleted)".toList

/-- `isWithin(actual.replace(/ \(deleted\)$/, ""), root) && !actual.endsWith(" (deleted)")`, where a path
with the mark is refused whatever its replacement is. -/
def pinnedWithin (actual root : Location) : Bool :=
  isWithin actual root && !deletedMark.isSuffixOf (render actual)

/-- `assertPinnedDirectory(handle, root)` -/
def assertPinnedDirectory (handle : Handle) (root : Location) : FileScript Unit := do
  let stat ← sys (.fstat handle)
  ensure stat.isDirectory (pathNotAllowed "Mutation parent is not a directory")
  let actual ← sys (.realpath handle)
  ensure (pinnedWithin actual root) (pathNotAllowed "Mutation path escaped its configured root")

def workspacePermissionsChanged (message : String) : BridgeError :=
  ⟨"workspace_permissions_changed", message, 409⟩

/-- `assertSharedUploadParent(handle, root)` -/
def PathPolicy.assertSharedUploadParent (policy : PathPolicy) (handle : Handle) : FileScript Unit :=
  if !policy.shared then pure ()
  else do
    let stat ← sys (.fstat handle)
    ensure stat.isolated
      (workspacePermissionsChanged "Upload parent no longer has the isolated shared workspace permissions")
    let acl ← tryCatch (sys (.getfacl handle)) fun _ =>
      throw (.bridge (workspacePermissionsChanged "Shared upload parent ACL is unproven"))
    ensure acl (workspacePermissionsChanged "Shared upload parent has extended or default ACLs")

/-- A directory that is to be created may be there already. -/
def makeDirectory (current : Handle) (segment : Name) (isolated : Bool) : FileScript Unit :=
  tryCatch (sys (.mkdir current segment isolated)) fun e => if e = .errno .EEXIST then pure () else throw e

/-- A link or a file on the way is refused. -/
def openSegment (current : Handle) (segment : Name) : FileScript Handle :=
  tryCatch (sys (.openDirectoryAt current segment)) fun e =>
    if e = .errno .ELOOP ∨ e = .errno .ENOTDIR then
      throw (.bridge (pathNotAllowed "Mutation path contains a link or non-directory"))
    else throw e

/-- One segment on the way to the parent. -/
def PathPolicy.descendOnce (policy : PathPolicy) (root : Location) (createParents : Bool) (current : Handle)
    (segment : Name) : FileScript Handle := do
  provided createParents (do
    policy.assertSharedUploadParent current
    makeDirectory current segment policy.shared)
  let next ← openSegment current segment
  assertPinnedDirectory next root
  sys (.close current)
  pure next

/-- The way to the parent. Where it fails, the directory that is held is closed. -/
def PathPolicy.descend (policy : PathPolicy) (root : Location) (createParents : Bool) :
    Handle → List Name → FileScript Handle
  | current, [] => pure current
  | current, segment :: rest => do
    let next ← onError (policy.descendOnce root createParents current segment) (sys (.close current))
    policy.descend root createParents next rest

/-- What `openMutationParent` returns: the directory that is held, and the name in it. -/
structure Pinned where
  parent : Handle
  name : Name

/-- `openMutationParent(reference, { createParents })` -/
def PathPolicy.openMutationParent (policy : PathPolicy) (reference : Reference) (createParents : Bool) :
    FileScript Pinned := do
  let current ← sys (.openDirectory reference.root)
  onError (assertPinnedDirectory current reference.root) (sys (.close current))
  let parent ← policy.descend reference.root createParents current reference.parents
  provided createParents (onError (policy.assertSharedUploadParent parent) (sys (.close parent)))
  pure ⟨parent, reference.last⟩

/-! ## The operations -/

/-- `FileManager`, with what its configuration gives it. -/
structure FileManager where
  pathPolicy : PathPolicy
  uploadMaxBytes : Nat
  storageMinFreeBytes : Nat
  maxConcurrent : Nat

def transferBusy : BridgeError := ⟨"transfer_busy", "File transfer concurrency limit reached", 429⟩

def storageReserve : BridgeError :=
  ⟨"storage_reserve", "Write rejected to preserve configured free disk space", 507⟩

def destinationExists : BridgeError := ⟨"destination_exists", "Destination already exists", 409⟩

def unsupportedComplex (message : String) : BridgeError := ⟨"unsupported_complex_mutation", message, 409⟩

def fileTooLarge : BridgeError := ⟨"file_too_large", "Upload exceeds configured limit", 413⟩

def crossDeviceMove : BridgeError :=
  ⟨"unsupported_cross_device_move", "Cross-device move is not safely supported", 409⟩

/-- `destinationExists(error)` -/
def linkNew (parent : Handle) (name : Name) (parent' : Handle) (name' : Name) : FileScript Unit :=
  tryCatch (sys (.link parent name parent' name')) fun e =>
    if e = .errno .EEXIST then throw (.bridge destinationExists) else throw e

namespace FileManager

variable (m : FileManager)

/-- `assertStorageReserve(target, incomingBytes)` -/
def assertStorageReserve (target : Handle) (incomingBytes : Int) : FileScript Unit :=
  if m.storageMinFreeBytes = 0 then pure ()
  else do
    let available ← sys (.statfs target)
    ensure (!decide (available < m.storageMinFreeBytes + incomingBytes.toNat)) storageReserve

/-- `commitTemporary(temporary, destination, overwrite)` -/
def commitTemporary (parent : Handle) (temporary name : Name) (overwrite : Bool) : FileScript Unit :=
  if overwrite then sys (.rename parent temporary parent name)
  else do
    linkNew parent temporary parent name
    sys (.unlink parent temporary)

/-- The request of an upload: the length that it declares, if that is a number, the chunks that arrive, and
whether it ends after them or fails. -/
structure Upload where
  contentLength : Option Int
  chunks : List (List UInt8)
  fails : Bool

/-- The chunks pass the meter one by one and are written. -/
def receive (parent file : Handle) (fails : Bool) : List UInt8 → List (List UInt8) → FileScript (List UInt8)
  | received, [] => do
    provided fails (throw .stream)
    sys (.close file)
    pure received
  | received, chunk :: rest => do
    ensure (decide ((received ++ chunk).length ≤ m.uploadMaxBytes)) fileTooLarge
    m.assertStorageReserve parent chunk.length
    sys (.write file chunk)
    receive parent file fails (received ++ chunk) rest

/-- `pipeline(request, meter, createWriteStream(temporary, { flags: "wx" }))` -/
def pipeline (parent : Handle) (temporary : Name) (request : Upload) : FileScript (List UInt8) := do
  let file ← sys (.create parent temporary)
  m.receive parent file request.fails [] request.chunks

/-- The upload with its parent directory held. -/
def uploadInto (pinned : Pinned) (temporary : Name) (request : Upload) (overwrite : Bool) :
    FileScript (List UInt8) :=
  (onError (do
      m.assertStorageReserve pinned.parent (request.contentLength.getD 1)
      let received ← m.pipeline pinned.parent temporary request
      m.pathPolicy.assertSharedUploadParent pinned.parent
      commitTemporary pinned.parent temporary pinned.name overwrite
      pure received)
    (sys (.rm pinned.parent temporary))).andFinally (sys (.close pinned.parent))

structure Uploaded (δ : Type) where
  path : Location
  size : Nat
  sha256 : δ
  deriving DecidableEq

/-- `upload(request, candidate, overwrite)`, with so many transfers under way, and with the name that it
draws for its temporary file. -/
def upload {δ : Type} (sha256 : List UInt8 → δ) (activeTransfers : Nat) (request : Upload)
    (candidate : List Char) (overwrite : Bool) (temporary : Name) : FileScript (Uploaded δ) := do
  ensure (decide (activeTransfers < m.maxConcurrent)) transferBusy
  let destination ← fromPolicy (m.pathPolicy.mutation candidate)
  let pinned ← m.pathPolicy.openMutationParent destination true
  if request.contentLength.any fun declared => (m.uploadMaxBytes : Int) < declared then do
    sys (.close pinned.parent)
    throw (.bridge fileTooLarge)
  else do
    let received ← m.uploadInto pinned temporary request overwrite
    pure ⟨destination.displayPath, received.length, sha256 received⟩

/-- What a copy or a move returns. -/
structure Transferred where
  source : Location
  destination : Location
  done : Bool
  reason : Option String
  deriving DecidableEq

/-- `openSync(path, O_RDONLY | O_NOFOLLOW)` of a file that is to be copied -/
def openSource (pinned : Pinned) : FileScript Handle :=
  tryCatch (sys (.openFileAt pinned.parent pinned.name)) fun e =>
    if e = .errno .ELOOP then throw (.bridge (unsupportedComplex "Symlink copy is not safely supported"))
    else throw e

/-- `copyFile(source, temporary, COPYFILE_EXCL)` -/
def copyFile (source parent : Handle) (temporary : Name) : FileScript Unit := do
  let file ← sys (.create parent temporary)
  sys (.copyData source file)

/-- The copy with both parent directories held. -/
def copyInto (source : Handle) (size : Nat) (pinned : Pinned) (overwrite : Bool) (temporary : Name) :
    FileScript Unit := do
  m.assertStorageReserve pinned.parent size
  onError (do
      copyFile source pinned.parent temporary
      commitTemporary pinned.parent temporary pinned.name overwrite)
    (sys (.rm pinned.parent temporary))

/-- The copy with the source file held. -/
def copyFrom (source : Handle) (to' : Reference) (overwrite : Bool) (temporary : Name) : FileScript Unit := do
  let stat ← sys (.fstat source)
  ensure stat.isFile (unsupportedComplex "Recursive or non-regular copy is not safely supported")
  let destinationParent ← m.pathPolicy.openMutationParent to' false
  (m.copyInto source stat.size destinationParent overwrite temporary).andFinally
    (sys (.close destinationParent.parent)).ignored

/-- `copy(source, destination, overwrite)`, with the name that it draws for its temporary file. -/
def copy (source destination : List Char) (overwrite : Bool) (temporary : Name) : FileScript Transferred := do
  let from' ← fromPolicy (m.pathPolicy.mutation source)
  let to' ← fromPolicy (m.pathPolicy.mutation destination)
  if from'.displayPath = to'.displayPath then
    pure ⟨from'.displayPath, to'.displayPath, false, some "same_path"⟩
  else do
    fromPolicy (assertNoDangerousOverlap from' to')
    let sourceParent ← m.pathPolicy.openMutationParent from' false
    (do
      let sourceHandle ← openSource sourceParent
      (m.copyFrom sourceHandle to' overwrite temporary).andFinally (sys (.close sourceHandle)).ignored).andFinally
        (sys (.close sourceParent.parent)).ignored
    pure ⟨from'.displayPath, to'.displayPath, true, none⟩

/-- What is replaced is no directory, if it is there. -/
def assertReplaceable (pinned : Pinned) : FileScript Unit :=
  tryCatch (do
      let stat ← sys (.lstat pinned.parent pinned.name)
      ensure (!stat.isDirectory) (unsupportedComplex "Directory replacement is not safely supported"))
    fun e => if e = .errno .ENOENT then pure () else throw e

/-- The file gets its new name and loses the old one. -/
def moveInto (source destination : Pinned) (overwrite : Bool) : FileScript Unit :=
  if overwrite then do
    assertReplaceable destination
    sys (.rename source.parent source.name destination.parent destination.name)
  else do
    linkNew source.parent source.name destination.parent destination.name
    onError (sys (.unlink source.parent source.name)) (sys (.unlink destination.parent destination.name))

/-- The move with the parent directory of the source held. -/
def moveFrom (source : Pinned) (to' : Reference) (overwrite : Bool) : FileScript Unit := do
  let stat ← sys (.lstat source.parent source.name)
  ensure stat.isFile (unsupportedComplex "Directory and symlink moves are not safely supported")
  let destinationParent ← m.pathPolicy.openMutationParent to' false
  (moveInto source destinationParent overwrite).andFinally (sys (.close destinationParent.parent)).ignored

/-- `move(source, destination, overwrite)` -/
def move (source destination : List Char) (overwrite : Bool) : FileScript Transferred := do
  let from' ← fromPolicy (m.pathPolicy.mutation source)
  let to' ← fromPolicy (m.pathPolicy.mutation destination)
  if from'.displayPath = to'.displayPath then
    pure ⟨from'.displayPath, to'.displayPath, false, some "same_path"⟩
  else do
    fromPolicy (assertNoDangerousOverlap from' to')
    let sourceParent ← m.pathPolicy.openMutationParent from' false
    (tryCatch (m.moveFrom sourceParent to' overwrite) fun e =>
      if e = .errno .EXDEV then throw (.bridge crossDeviceMove) else throw e).andFinally
        (sys (.close sourceParent.parent)).ignored
    pure ⟨from'.displayPath, to'.displayPath, true, none⟩

structure Removed where
  path : Location
  deleted : Bool

/-- `remove(candidate, recursive)` -/
def remove (candidate : List Char) (recursive : Bool) : FileScript Removed := do
  let resolved ← fromPolicy (m.pathPolicy.mutation candidate)
  ensure (!recursive) (unsupportedComplex "Recursive delete is not safely supported")
  let pinned ← m.pathPolicy.openMutationParent resolved false
  (do
    let stat ← sys (.lstat pinned.parent pinned.name)
    if stat.isDirectory then sys (.rmdir pinned.parent pinned.name)
    else sys (.unlink pinned.parent pinned.name)).andFinally (sys (.close pinned.parent))
  pure ⟨resolved.displayPath, true⟩

end FileManager

end BegetBridge.Files
