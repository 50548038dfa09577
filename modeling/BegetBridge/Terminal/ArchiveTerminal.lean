import BegetBridge.Interleaving.Ending
import BegetBridge.Transcript.Growth

/-!
# The archive of a terminal

A closed session is archived with its transcript: the segments are copied one by one into a new directory,
the session and the transcript are looked at again, and a manifest with the digests is written. What is
written is verified. When anything fails, the directory is removed.

## Main definitions

* `SessionRow`, `ArchiveRecord`, `OutDir`, `Site`: what is archived, and where
* `copyChecked`: the copy of one segment
* `validateArchive`, `verifyTerminalArchive`: what a manifest and an archive have to be
* `archiveTerminal`: the archive
-/

namespace BegetBridge.TerminalArchive

open Core Relational Interleaving Transcript

/-! ## The session and its archive -/

/-- A row of the table of sessions. -/
structure SessionRow where
  closedAt : String
  streamId : String
  epoch : Nat
  earliestOffset : Nat
  captureState : String
  gapReason : Option String
  deriving DecidableEq

/-- What a manifest says of a file. -/
structure ArchiveFile where
  name : FileName
  size : Nat
  sha256 : String
  deriving DecidableEq

/-- A manifest. -/
structure ArchiveRecord where
  format : String
  sessionId : String
  closedAt : String
  streamId : String
  epoch : Nat
  earliestOffset : Nat
  captureState : String
  gapReason : Option String
  segmentBytes : Nat
  size : Nat
  files : List ArchiveFile
  deriving DecidableEq

/-- The file of the manifest: what `stat` says of it, and the record that its text denotes. -/
structure ManifestFile where
  isFile : Bool
  nlink : Nat
  size : Nat
  record : Option ArchiveRecord
  deriving DecidableEq

/-- The directory of an archive: `archive.json`, and the other files. -/
structure OutDir where
  manifest : Option ManifestFile
  files : Dir

/-- The session directory, the row of the session, and the directory of the archive. The checks of the
directories, the free space, and the identity of a file may differ each time they are asked for. `seen` are
the session directories that the copy has opened or read. -/
structure Site where
  source : Dir
  userVersion : Nat
  session : Option SessionRow
  out : Option OutDir
  textLength : ArchiveRecord → Nat
  safe : Nat → Bool
  free : Nat → Nat
  identity : Nat → Nat
  asked : Nat
  seen : List Dir

/-- The calls without an effect on what is modelled. -/
inductive Plain
  | openDatabase
  | closeDatabase
  | openFolder
  | sync
  | close
  deriving DecidableEq

/-- The calls of an archive but for those on the session directory. -/
inductive OwnOp : Type → Type
  | identity (name : FileName) : OwnOp Nat
  | safeDirectory : OwnOp Bool
  | plain (p : Plain) : OwnOp Unit
  | userVersion : OwnOp Nat
  | selectSession : OwnOp (Option SessionRow)
  | statfs : OwnOp Nat
  | mkdir : OwnOp Unit
  | createOut (name : FileName) : OwnOp Unit
  | writeOut (name : FileName) (bytes : Bytes) : OwnOp Unit
  | createManifest : OwnOp Unit
  | writeManifest (record : ArchiveRecord) : OwnOp Unit
  | openManifest : OwnOp Unit
  | statManifest : OwnOp (Bool × Nat × Nat)
  | readManifest : OwnOp (Option ArchiveRecord)
  | readdirOut : OwnOp (List FileName)
  | openOut (name : FileName) : OwnOp Unit
  | statOut (name : FileName) : OwnOp Stat
  | readOut (name : FileName) : OwnOp Bytes
  | rmOut : OwnOp Unit

/-- The calls of an archive. -/
inductive ArchiveOp (β : Type) : Type
  | source (op : Fs β)
  | own (op : OwnOp β)

/-- Whether a call on the session directory is one of the copy. -/
def opens {β : Type} : Fs β → Bool
  | .openRead _ => true
  | .read _ _ _ => true
  | _ => false

namespace Site

def ask (s : Site) : Site := { s with asked := s.asked + 1 }

def withOut (s : Site) (out : Option OutDir) : Site := { s with out := out }

def look (s : Site) (b : Bool) : Site := if b then { s with seen := s.source :: s.seen } else s

/-- A call on the directory of the archive. -/
def onOut {γ : Type} (s : Site) (f : OutDir → Except FsError (γ × OutDir)) : Except FsError (γ × Site) :=
  match s.out with
  | none => .error .enoent
  | some o => (f o).map fun r => (r.1, s.withOut (some r.2))

/-- A call on the manifest. -/
def onManifest {γ : Type} (s : Site) (f : ManifestFile → γ) : Except FsError (γ × Site) :=
  s.onOut fun o =>
    match o.manifest with
    | none => .error .enoent
    | some m => .ok (f m, o)

/-- A look at a file of the archive. -/
def onFile {γ : Type} (s : Site) (name : FileName) (f : File → γ) : Except FsError (γ × Site) :=
  s.onOut fun o =>
    match o.files.lookup name with
    | none => .error .enoent
    | some file => .ok (f file, o)

def execOwn : {β : Type} → OwnOp β → Site → Except FsError (β × Site)
  | _, .identity _, s => .ok (s.identity s.asked, s.ask)
  | _, .safeDirectory, s => .ok (s.safe s.asked, s.ask)
  | _, .plain _, s => .ok ((), s)
  | _, .userVersion, s => .ok (s.userVersion, s)
  | _, .selectSession, s => .ok (s.session, s)
  | _, .statfs, s => .ok (s.free s.asked, s.ask)
  | _, .mkdir, s =>
    match s.out with
    | some _ => .error .eexist
    | none => .ok ((), s.withOut (some ⟨none, ∅⟩))
  | _, .createOut name, s =>
    s.onOut fun o =>
      if (o.files.lookup name).isSome then .error .eexist
      else .ok ((), { o with files := o.files.insert name ⟨true, 1, []⟩ })
  | _, .writeOut name bytes, s =>
    s.onOut fun o =>
      match o.files.lookup name with
      | none => .error .enoent
      | some file => .ok ((), { o with files := o.files.insert name { file with bytes := file.bytes ++ bytes } })
  | _, .createManifest, s =>
    s.onOut fun o =>
      match o.manifest with
      | some _ => .error .eexist
      | none => .ok ((), { o with manifest := some ⟨true, 1, 0, none⟩ })
  | _, .writeManifest record, s =>
    s.onOut fun o => .ok ((), { o with manifest := some ⟨true, 1, s.textLength record, some record⟩ })
  | _, .openManifest, s => s.onManifest fun _ => ()
  | _, .statManifest, s => s.onManifest fun m => (m.isFile, m.nlink, m.size)
  | _, .readManifest, s => s.onManifest fun m => m.record
  | _, .readdirOut, s => s.onOut fun o => .ok (o.files.keys, o)
  | _, .openOut name, s => s.onFile name fun _ => ()
  | _, .statOut name, s => s.onFile name File.stat
  | _, .readOut name, s => s.onFile name File.bytes
  | _, .rmOut, s => .ok ((), s.withOut none)

def exec {β : Type} : ArchiveOp β → Site → Except FsError (β × Site)
  | .source op, s => (op.exec s.source).map fun r => (r.1, { s.look (opens op) with source := r.2 })
  | .own op, s => s.execOwn op

end Site

def site : Backend ArchiveOp FsError Site := ⟨Site.exec⟩

/-- What an archive throws. An error of the removal or of the closing says so. -/
inductive ArchiveFailure
  | other (e : Failure)
  | removal (e : FsError)
  | closing (e : FsError)
  deriving DecidableEq

abbrev ArchiveM := Script ArchiveOp FsError ArchiveFailure

def own {β : Type} (op : OwnOp β) : ArchiveM β := .perform (fun e => .other (.fs e)) (.own op)

def source {β : Type} (op : Fs β) : ArchiveM β := .perform (fun e => .other (.fs e)) (.source op)

/-- `if (!c) throw new Error(text)` -/
def demand (c : Prop) [Decidable c] (text : String) : ArchiveM Unit :=
  if c then pure () else throw (.other (.message text))

/-- A program of the session directory. -/
def within {α : Type} (p : FsM α) : ArchiveM α :=
  ExceptT.mk ((p.run.mapOp .source).bind fun r => .done (r.mapError .other))

/-! ## The checks -/

/-- `SAFE_ID` -/
def safeId (text : String) : Bool := Core.within (fun c => c.isAlphanum || c = '_' || c = '-') 1 80 text

def sha256Pattern (text : String) : Bool := Core.within (fun c => c.isDigit || ('a' ≤ c && c ≤ 'f')) 64 64 text

def archiveFormat : String := "dp-beget-terminal-archive-v1"

/-- The inventory of a manifest: each file has its name, from `index` on. -/
def FilesValid : Nat → List ArchiveFile → Prop
  | _, [] => True
  | index, item :: files => item.name = segmentName index ∧ item.size ≤ maxSafeInteger ∧
      sha256Pattern item.sha256 = true ∧ FilesValid (index + 1) files

instance decidableFilesValid : ∀ (index : Nat) (files : List ArchiveFile), Decidable (FilesValid index files)
  | _, [] => isTrue trivial
  | index, _ :: files =>
    have := decidableFilesValid (index + 1) files
    inferInstanceAs (Decidable (_ ∧ _ ∧ _ ∧ _))

/-- What `validateArchive` accepts. -/
structure ArchiveRecord.Valid (r : ArchiveRecord) : Prop where
  format : r.format = archiveFormat
  sessionId : safeId r.sessionId = true
  size : r.size ≤ maxSafeInteger
  earliestOffset : r.earliestOffset ≤ maxSafeInteger
  epoch : 1 ≤ r.epoch ∧ r.epoch ≤ maxSafeInteger
  segmentBytes : 1 ≤ r.segmentBytes ∧ r.segmentBytes ≤ maxSafeInteger
  streamId : safeId r.streamId = true
  captureState : r.captureState ∈ ["ACTIVE", "DEGRADED", "STOPPED"]
  count : 1 ≤ r.files.length ∧ r.files.length ≤ maxTranscriptSegments + 1
  files : FilesValid 0 r.files
  total : (r.files.map (·.size)).sum = r.size
  last : r.earliestOffset + r.size ≤ maxSafeInteger

instance (r : ArchiveRecord) : Decidable r.Valid :=
  decidable_of_iff (r.format = archiveFormat ∧ safeId r.sessionId = true ∧ r.size ≤ maxSafeInteger ∧
      r.earliestOffset ≤ maxSafeInteger ∧ (1 ≤ r.epoch ∧ r.epoch ≤ maxSafeInteger) ∧
      (1 ≤ r.segmentBytes ∧ r.segmentBytes ≤ maxSafeInteger) ∧ safeId r.streamId = true ∧
      r.captureState ∈ ["ACTIVE", "DEGRADED", "STOPPED"] ∧
      (1 ≤ r.files.length ∧ r.files.length ≤ maxTranscriptSegments + 1) ∧ FilesValid 0 r.files ∧
      (r.files.map (·.size)).sum = r.size ∧ r.earliestOffset + r.size ≤ maxSafeInteger)
    ⟨fun ⟨h₁, h₂, h₃, h₄, h₅, h₆, h₇, h₈, h₉, h₁₀, h₁₁, h₁₂⟩ => ⟨h₁, h₂, h₃, h₄, h₅, h₆, h₇, h₈, h₉, h₁₀, h₁₁, h₁₂⟩,
      fun ⟨h₁, h₂, h₃, h₄, h₅, h₆, h₇, h₈, h₉, h₁₀, h₁₁, h₁₂⟩ => ⟨h₁, h₂, h₃, h₄, h₅, h₆, h₇, h₈, h₉, h₁₀, h₁₁, h₁₂⟩⟩

def validateArchive (record : Option ArchiveRecord) : ArchiveM ArchiveRecord :=
  match record with
  | none => throw (.other (.message "Invalid terminal archive manifest"))
  | some r => do
    demand r.Valid "Invalid terminal archive manifest"
    return r

def readClosedSession : ArchiveM SessionRow := do
  let version ← own .userVersion
  demand (version = 2) "Unsupported session state schema"
  match ← own .selectSession with
  | none => throw (.other (.message "Only a retained CLOSED terminal can be archived"))
  | some row => do
    demand (row.closedAt ≠ "") "Only a retained CLOSED terminal can be archived"
    return row

/-- `RESERVE_BYTES` -/
def reserveBytes : Nat := 256 * 1024 * 1024

def capacity (bytes : Nat) : ArchiveM Unit := do
  let free ← own .statfs
  demand (reserveBytes + bytes + 4096 ≤ free) "Insufficient free space to archive a transcript"

def safeDirectory : ArchiveM Unit := do
  let safe ← own .safeDirectory
  demand (safe = true) "Unsafe archive directory"

/-! ## The copy -/

section Copy

variable (digest : Bytes → String)

/-- The lengths that are read, one after the other. -/
def chunkLengths (size : Nat) : List Nat :=
  List.replicate (size / 65536) 65536 ++ if size % 65536 = 0 then [] else [size % 65536]

/-- The loop of the copy, with what it has read. -/
def copyChunks (name : FileName) : (offset : Nat) → List Nat → ArchiveM Bytes
  | _, [] => pure []
  | offset, length :: lengths => do
    let bytes ← source (.read name offset length)
    demand (bytes.length = length) "Transcript changed during archiving"
    own (.writeOut name bytes)
    return bytes ++ (← copyChunks name (offset + length) lengths)

/-- What is known of an open file: what `stat` says, and its identity. -/
def statOpen (name : FileName) : ArchiveM (Stat × Nat) := do
  let info ← source (.stat name)
  let identity ← own (.identity name)
  return (info, identity)

/-- `sameFile(before, after)` -/
def SameFile (before after : Stat × Nat) : Prop :=
  before.1.isFile = true ∧ after.1.isFile = true ∧ before.1.nlink = 1 ∧ after.1.nlink = 1 ∧
    before.1.size = after.1.size ∧ before.2 = after.2

instance (before after : Stat × Nat) : Decidable (SameFile before after) :=
  inferInstanceAs (Decidable (_ ∧ _ ∧ _ ∧ _ ∧ _ ∧ _))

/-- The copy into a file that is new. -/
def copyInto (name : FileName) (before : Stat × Nat) (expectedSize : Nat) : ArchiveM String := do
  own (.createOut name)
  Script.andFinally (do
    let bytes ← copyChunks name 0 (chunkLengths expectedSize)
    let after ← statOpen name
    demand (SameFile before after) "Transcript changed during archiving"
    own (.plain .sync)
    return digest bytes) (own (.plain .close))

/-- `copyChecked(sourcePath, destinationPath, expectedSize)` -/
def copyChecked (name : FileName) (expectedSize : Nat) : ArchiveM String := do
  source (.openRead name)
  Script.andFinally (do
    let before ← statOpen name
    demand (before.1.isFile = true ∧ before.1.nlink = 1 ∧ before.1.size = expectedSize)
      "Transcript changed before archiving"
    copyInto digest name before expectedSize) (own (.plain .close))

/-- The loop over the segments. -/
def copyAll : List Segment → ArchiveM (List ArchiveFile)
  | [] => pure []
  | entry :: segments => do
    capacity entry.size
    let sha256 ← copyChecked digest entry.filename entry.size
    return ⟨entry.filename, entry.size, sha256⟩ :: (← copyAll segments)

/-! ## The verification -/

/-- One file of an archive. -/
def verifyFile (item : ArchiveFile) : ArchiveM Unit := do
  own (.openOut item.name)
  Script.andFinally (do
    let info ← own (.statOut item.name)
    demand (info.isFile = true ∧ info.nlink = 1 ∧ info.size = item.size) "Terminal archive file changed"
    let bytes ← own (.readOut item.name)
    demand (digest bytes = item.sha256) "Terminal archive checksum mismatch") (own (.plain .close))

def verifyFiles : List ArchiveFile → ArchiveM Unit
  | [] => pure ()
  | item :: files => do
    verifyFile digest item
    verifyFiles files

/-- What a verification reports. -/
structure Report where
  sessionId : String
  size : Nat
  files : Nat
  deriving DecidableEq

def readManifestFile : ArchiveM ArchiveRecord := do
  own .openManifest
  Script.andFinally (do
    let info ← own .statManifest
    demand (info.1 = true ∧ info.2.1 = 1 ∧ info.2.2 ≤ 256 * 1024) "Invalid terminal archive manifest"
    let record ← own .readManifest
    validateArchive record) (own (.plain .close))

/-- `verifyTerminalArchive(directory)` -/
def verifyTerminalArchive : ArchiveM Report := do
  safeDirectory
  let record ← readManifestFile
  let present ← own .readdirOut
  demand (present.Perm (record.files.map (·.name))) "Unexpected terminal archive files"
  verifyFiles digest record.files
  return ⟨record.sessionId, record.size, record.files.length⟩

/-! ## The archive -/

def recordOf (sessionId : String) (session : SessionRow) (inventory : Inventory) (files : List ArchiveFile) :
    ArchiveRecord :=
  ⟨archiveFormat, sessionId, session.closedAt, session.streamId, session.epoch, session.earliestOffset,
    session.captureState, session.gapReason, inventory.segmentBytes, inventory.size, files⟩

/-- `DEFAULT_TRANSCRIPT_SEGMENT_BYTES` -/
def defaultSegmentBytes : Nat := 8 * 1024 * 1024

def syncFolder : ArchiveM Unit := do
  own (.plain .openFolder)
  Script.andFinally (own (.plain .sync)) (own (.plain .close))

/-- The session and the transcript are as they were when the copy began. -/
def unchanged (session : SessionRow) (inventory : Inventory) : ArchiveM Unit := do
  let again ← readClosedSession
  demand (again = session) "Terminal state changed during archiving"
  let after ← within (inspectTranscriptSegments defaultSegmentBytes)
  demand (after.size = inventory.size ∧ after.segments.map (·.size) = inventory.segments.map (·.size))
    "Transcript changed during archiving"

def writeRecord (record : ArchiveRecord) : ArchiveM Unit := do
  own .createManifest
  Script.andFinally (do
    own (.writeManifest record)
    own (.plain .sync)) (own (.plain .close))

/-- What is done in the new directory. -/
def archived (sessionId : String) (session : SessionRow) (inventory : Inventory) : ArchiveM Report := do
  let files ← copyAll digest inventory.segments
  unchanged session inventory
  let record ← validateArchive (some (recordOf sessionId session inventory files))
  writeRecord record
  syncFolder
  let report ← verifyTerminalArchive digest
  syncFolder
  return report

/-- What is done with the database open. -/
def archiving (sessionId : String) : ArchiveM Report := do
  let session ← readClosedSession
  let inventory ← within (inspectTranscriptSegments defaultSegmentBytes)
  demand (inventory.missing = false) "Retained terminal transcript is missing"
  capacity inventory.size
  own .mkdir
  tryCatch (archived digest sessionId session inventory) fun error => do
    Script.perform .removal (.own .rmOut)
    throw error

/-- `archiveTerminal({ dataDir, sessionId, outputDir })` -/
def archiveTerminal (sessionId : String) : ArchiveM Report := do
  demand (safeId sessionId = true) "Invalid terminal archive arguments"
  safeDirectory
  safeDirectory
  safeDirectory
  safeDirectory
  own (.plain .openDatabase)
  Script.andFinally (archiving digest sessionId)
    (Script.perform .closing (.own (.plain .closeDatabase)))

end Copy

end BegetBridge.TerminalArchive
