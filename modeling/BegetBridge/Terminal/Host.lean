import BegetBridge.Relational.Table
import BegetBridge.Terminal.Session
import BegetBridge.Transcript.Capture

/-!
# The Session Host

What the Session Host works on: the rows of its database, a directory for each session, the sessions
of the terminal multiplexer and the free storage. Every operation on it is one statement, one file
operation or one command, and other calls act between any two of them.

## Main definitions

* `Host`, `SessionDir`: the state
* `Service`, `HostOp`: the operations, those on the files of a transcript included
* `HostM`: programs over them that may throw
* `HostConfig`: the limits that are configured
-/

namespace BegetBridge.Terminal

open Core Relational Interleaving Transcript

/-! ## The state -/

/-- The directory of a session: its transcript with the record of a storage stop, whether that record is
this user's and nobody else may write it, `session.json`, and the file it is written through. -/
structure SessionDir where
  files : Dir
  markerOwned : Bool
  metadata : Option Session
  part : Option Session

/-- A new directory. -/
def SessionDir.empty : SessionDir := ⟨∅, true, none, none⟩

/-- The state. A session of the multiplexer has the name of the session it belongs to, and may be piped
to a capture process. -/
structure Host where
  rows : Table Session
  dirs : KeyedMap String SessionDir
  live : Finset String
  piped : Finset String
  free : Nat

/-- The row of a session. -/
def Host.row (h : Host) (id : String) : Option Session := h.rows.select fun s => s.id == id

/-- The transcript of a session. -/
def Host.files (h : Host) (id : String) : Dir := ((h.dirs.lookup id).map SessionDir.files).getD ∅

/-- The name of a transcript in its directory. -/
def outputName : String := "terminal.log"

/-- The record of a storage stop. -/
structure Marker where
  stat : Stat
  owned : Bool
  text : Bytes
  deriving DecidableEq

/-! ## The operations -/

/-- The operations that are not on a transcript. The record of a storage stop gets its name when it is
complete, so that to open it is to read it. -/
inductive Service : Type → Type
  | select (id : String) : Service (Option Session)
  | selectAll : Service (List Session)
  | upsert (session : Session) : Service Unit
  | deleteRow (id : String) : Service Unit
  | mkdir (id : String) : Service Unit
  | rmdir (id : String) : Service Unit
  | writeOutput (id : String) : Service Unit
  | writePart (id : String) (session : Session) : Service Unit
  | renamePart (id : String) : Service Unit
  | openMarker (id : String) : Service Marker
  | statfs : Service Nat
  | newSession (id : String) : Service Unit
  | hasSession (id : String) : Service Bool
  | killSession (id : String) : Service Unit
  | setOption (id : String) : Service Unit
  | pipePane (id : String) (capture : Bool) : Service Unit

/-- An operation of the Session Host, one on the files of a session's transcript among them. -/
inductive HostOp (β : Type) : Type
  | file (id : String) (op : Fs β)
  | service (op : Service β)

/-- The row of a session: a label and a directory are never empty there. -/
def Session.row (s : Session) : Session :=
  { s with label := if s.label = "" then "Terminal" else s.label, cwd := if s.cwd = "" then "." else s.cwd }

/-- `ORDER BY created_at` -/
def Host.list (h : Host) : List Session :=
  h.rows.rows.insertionSort fun s s' => s.createdAt ≤ s'.createdAt

def Host.setDir (h : Host) (id : String) (dir : SessionDir) : Host :=
  { h with dirs := h.dirs.insert id dir }

def Service.exec {β : Type} : Service β → Host → Except FsError (β × Host)
  | .select id, h => .ok (h.row id, h)
  | .selectAll, h => .ok (h.list, h)
  | .upsert session, h => .ok ((), { h with rows := h.rows.upsert session.row })
  | .deleteRow id, h => .ok ((), { h with rows := h.rows.delete fun s => s.id == id })
  | .mkdir id, h =>
    .ok ((), if (h.dirs.lookup id).isSome then h else h.setDir id .empty)
  | .rmdir id, h => .ok ((), { h with dirs := h.dirs.erase id })
  | .writeOutput id, h =>
    match h.dirs.lookup id with
    | some dir => .ok ((), h.setDir id { dir with files := dir.files.insert .first ⟨true, 1, []⟩ })
    | none => .error .enoent
  | .writePart id session, h =>
    match h.dirs.lookup id with
    | some dir => .ok ((), h.setDir id { dir with part := some session })
    | none => .error .enoent
  | .renamePart id, h =>
    match h.dirs.lookup id with
    | some dir =>
      match dir.part with
      | some session => .ok ((), h.setDir id { dir with metadata := some session, part := none })
      | none => .error .enoent
    | none => .error .enoent
  | .openMarker id, h =>
    match h.dirs.lookup id with
    | some dir =>
      match dir.files.lookup (captureMarker outputName) with
      | some file => .ok (⟨file.stat, dir.markerOwned, file.bytes⟩, h)
      | none => .error .enoent
    | none => .error .enoent
  | .statfs, h => .ok (h.free, h)
  | .newSession id, h => if id ∈ h.live then .error .fault else .ok ((), { h with live := insert id h.live })
  | .hasSession id, h => .ok (decide (id ∈ h.live), h)
  | .killSession id, h =>
    if id ∈ h.live then .ok ((), { h with live := h.live.erase id, piped := h.piped.erase id })
    else .error .fault
  | .setOption id, h => if id ∈ h.live then .ok ((), h) else .error .fault
  | .pipePane id capture, h =>
    if id ∈ h.live then
      .ok ((), { h with piped := if capture then insert id h.piped else h.piped.erase id })
    else .error .fault

/-- The effect of an operation. One that only reads a file leaves everything as it is. -/
def HostOp.exec {β : Type} : HostOp β → Host → Except FsError (β × Host)
  | .file id op, h =>
    match h.dirs.lookup id with
    | some dir => (op.exec dir.files).map fun r =>
        (r.1, if op.reads then h else h.setDir id { dir with files := r.2 })
    | none => .error .enoent
  | .service op, h => op.exec h

def hostBackend : Backend HostOp FsError Host := ⟨HostOp.exec⟩

/-! ## Programs -/

/-- What a program of the Session Host throws: an error of the bridge, or the error of an operation. -/
inductive Thrown
  | bridge (e : BridgeError)
  | fs (e : FsError)
  deriving DecidableEq, Repr

/-- Programs of the Session Host. -/
abbrev HostM (α : Type) := ExceptT Thrown (Prog HostOp FsError) α

/-- An operation whose error propagates. -/
def service {β : Type} (op : Service β) : HostM β :=
  ExceptT.mk (.call (.service op) fun r => .done (r.mapError .fs))

def tmuxError : BridgeError := ⟨"tmux_error", "tmux command failed", 500⟩

/-- `tmux(args)` -/
def tmux {β : Type} (op : Service β) : HostM β :=
  ExceptT.mk (.call (.service op) fun r => .done (r.mapError fun _ => .bridge tmuxError))

/-- A program over the files of a session's transcript, with its error as a value. -/
def onFiles {α : Type} (id : String) (p : FsM α) : HostM (Except Failure α) :=
  ExceptT.lift (p.run.mapOp (.file id))

/-- `throw new BridgeError(code, message, status)` -/
def fail {α : Type} (e : BridgeError) : HostM α := throw (.bridge e)

/-- The limits that are configured, with `0` for one that is not set. -/
structure HostConfig where
  terminalMaxActive : Nat
  sessionOutputMaxBytes : Nat
  transcriptSegmentBytes : Nat
  transcriptTotalMaxBytes : Option Nat
  storageMinFreeBytes : Nat
  deriving DecidableEq, Repr

/-- `DEFAULT_TRANSCRIPT_SEGMENT_BYTES` -/
def defaultTranscriptSegmentBytes : Nat := 8388608

/-- `this.config.transcriptSegmentBytes || DEFAULT_TRANSCRIPT_SEGMENT_BYTES` -/
def HostConfig.segmentBytes (config : HostConfig) : Nat :=
  if config.transcriptSegmentBytes = 0 then defaultTranscriptSegmentBytes
  else config.transcriptSegmentBytes

end BegetBridge.Terminal
