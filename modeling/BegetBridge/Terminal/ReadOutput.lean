import BegetBridge.Terminal.Cursor
import BegetBridge.Terminal.Store
import BegetBridge.Transcript.Utf8

/-!
# Reading the output of a terminal

`readOutput` first looks for reasons why the capture of the transcript has stopped, and records one that
it finds. Then it measures the transcript, moves the requested position into it, skips the rest of a
character that the position cuts, and returns a page of whole characters.

Offsets are numbers of the host language: a sum of two is rounded where it is no safe integer, and a
page size need not be whole.

## Main definitions

* `observeCaptureStop`, `enforceCaptureReserve`, `enforceCaptureCeiling`: the degradation checks
* `outputRange`: the transcript as it is measured
* `readOutput`: the program
-/

namespace BegetBridge.Terminal

open Core Relational Interleaving Transcript

/-! ## Degradation -/

def captureInvalid : BridgeError :=
  ⟨"transcript_capture_invalid", "Capture status cannot be verified", 503⟩

/-- A record of a storage stop that is accepted. -/
def Marker.Valid (m : Marker) : Prop :=
  m.stat.isFile = true ∧ m.stat.nlink = 1 ∧ m.stat.size = 16 ∧ m.owned = true ∧
    m.text = storageReserveLine

instance {m : Marker} : Decidable m.Valid :=
  inferInstanceAs (Decidable (m.stat.isFile = true ∧ m.stat.nlink = 1 ∧ m.stat.size = 16 ∧
    m.owned = true ∧ m.text = storageReserveLine))

/-- `observeCaptureStop(id, session)` -/
def observeCaptureStop (id : String) (session : Session) : HostM Session := do
  if session.transcriptCaptureState = .DEGRADED then return session
  else
    match ← ExceptT.lift (Prog.perform (.service (.openMarker id))) with
    | .error .enoent => return session
    | .error _ => fail captureInvalid
    | .ok marker =>
      if marker.Valid then updateTranscript id (degradedBy .storage_reserve)
      else fail captureInvalid

/-- `isAlive(id)` -/
def isAlive (id : String) : HostM Bool := do
  match ← ExceptT.lift (Prog.perform (.service (.hasSession id))) with
  | .ok alive => return alive
  | .error _ => return false

/-- `enforceCaptureReserve(id, session, alive)` -/
def enforceCaptureReserve (config : HostConfig) (id : String) (session : Session) (alive : Bool) :
    HostM Session := do
  let minimum := config.storageMinFreeBytes
  if alive = false ∨ session.transcriptCaptureState ≠ .ACTIVE ∨ minimum = 0 then return session
  else
    let available ← service .statfs
    if minimum ≤ available then return session
    else
      tmux (.pipePane id false)
      updateTranscript id (degradedBy .storage_reserve)

/-- What `outputRange` returns. -/
structure OutputRange where
  earliest : ℚ
  «end» : ℚ
  physicalSize : Nat
  segments : List Segment
  deriving DecidableEq, Repr

def transcriptInvalid : BridgeError :=
  ⟨"transcript_invalid", "Transcript inventory cannot be verified", 503⟩

/-- A missing transcript is recorded, unless the capture is degraded already. -/
def recordMissing (id : String) (current : Session) : HostM Session :=
  if current.transcriptCaptureState = .DEGRADED then return current
  else updateTranscript id (degradedBy .transcript_missing)

/-- What `outputRange` returns where the transcript is missing. -/
def missingRange (id : String) (current : Session) : HostM (OutputRange × Session) := do
  let current ← recordMissing id current
  return (⟨current.transcriptEarliestOffset, current.transcriptEarliestOffset, 0, []⟩, current)

/-- `outputRange(id, session)`, with the session that it may have changed. -/
def outputRange (config : HostConfig) (id : String) (current : Session) :
    HostM (OutputRange × Session) := do
  match ← onFiles id (inspectTranscriptSegments config.segmentBytes) with
  | .ok inventory =>
    if inventory.missing then missingRange id current
    else
      let earliest := (current.transcriptEarliestOffset : ℚ)
      return (⟨earliest, toDouble (earliest + inventory.size), inventory.size, inventory.segments⟩,
        current)
  | .error (.fs .enoent) => missingRange id current
  | .error _ => fail transcriptInvalid

/-- `enforceCaptureCeiling(id, session, alive, range)` -/
def enforceCaptureCeiling (config : HostConfig) (id : String) (session : Session) (alive : Bool)
    (range : OutputRange) : HostM Session := do
  let maximum := config.sessionOutputMaxBytes
  if alive = false ∨ session.transcriptCaptureState ≠ .ACTIVE ∨ maximum = 0 ∨
      range.physicalSize < maximum then
    return session
  else
    tmux (.pipePane id false)
    updateTranscript id (degradedBy .transcript_limit)

/-! ## Pages -/

/-- `gap.reason` -/
inductive GapReason
  | stream_changed
  | retention
  | cursor_ahead
  | utf8_boundary
  deriving DecidableEq, Repr

/-- `gap` -/
structure Gap where
  reason : GapReason
  requestedOffset : ℚ
  earliestOffset : ℚ
  deriving DecidableEq, Repr

/-- `capture` -/
structure CaptureReport where
  state : CaptureState
  reason : Option CaptureGap
  afterCursor : Option String
  deriving DecidableEq, Repr

/-- What `readOutput` returns. -/
structure Response where
  sessionId : String
  alive : Bool
  state : SessionState
  cursor : String
  earliestCursor : String
  output : String
  hasMore : Bool
  truncated : Bool
  gap : Option Gap
  capture : CaptureReport
  deriving DecidableEq, Repr

/-- The position a read starts from, and the gap where it is not the one requested. -/
def startOf (requested : Requested) (range : OutputRange) : ℚ × Option Gap :=
  let offset := (requested.offset : ℚ)
  if requested.mismatch then (range.earliest, some ⟨.stream_changed, offset, range.earliest⟩)
  else if offset < range.earliest then (range.earliest, some ⟨.retention, offset, range.earliest⟩)
  else if range.end < offset then (range.end, some ⟨.cursor_ahead, offset, range.earliest⟩)
  else (offset, none)

/-- `Math.max(1, Math.min(Number(maxBytes) || 64 * 1024, 256 * 1024))` -/
def requestedMax : Number → ℚ
  | .nan => 65536
  | .infinity => 262144
  | .negInfinity => 1
  | .finite q => max 1 (min (if q = 0 then 65536 else q) 262144)

/-- `readTranscriptBytes(segments, offset, length)`, for any two numbers. -/
def readRange (segments : List Segment) (offset length : ℚ) : FsM Bytes :=
  if (Whole offset ∧ 0 ≤ offset) ∧ Whole length ∧ 0 ≤ length then
    readTranscriptBytes segments ⌊offset⌋.toNat ⌊length⌋.toNat
  else throw (.message "Invalid transcript read bounds")

/-- What a read finds: how many bytes it skips, the bytes after them, and how many of these it
returns. -/
structure Chunk where
  skipped : Nat
  buffer : Bytes
  safeLength : ℚ
  deriving DecidableEq

/-- The reads of a page from `start` on. -/
def readChunk (range : OutputRange) (start requestedMax : ℚ) : FsM Chunk := do
  let physicalStart := toDouble (start - range.earliest)
  let first ← readRange range.segments physicalStart
    (min 4 (toDouble (range.physicalSize - physicalStart)))
  let skipped := (first.takeWhile continuation).length
  let readable := toDouble (range.end - toDouble (start + skipped))
  let buffer ← readRange range.segments (toDouble (physicalStart + skipped))
    (min readable (toDouble (requestedMax + 3)))
  return ⟨skipped, buffer, utf8SafePrefixLength buffer (min requestedMax buffer.length)⟩

def transcriptChanged : BridgeError :=
  ⟨"transcript_invalid", "Transcript changed during reading", 503⟩

/-- The report on the capture. -/
def captureReport (session : Session) (range : OutputRange) : CaptureReport where
  state := session.transcriptCaptureState
  reason := session.transcriptGapReason
  afterCursor :=
    if session.transcriptCaptureState = .DEGRADED then some (encodeCursor session range.end) else none

/-- The response with a page that ends at `nextOffset`. -/
def response (id : String) (alive : Bool) (session : Session) (range : OutputRange) (nextOffset : ℚ)
    (output : String) (gap : Option Gap) : Response where
  sessionId := id
  alive := alive
  state := session.state
  cursor := encodeCursor session nextOffset
  earliestCursor := encodeCursor session range.earliest
  output := output
  hasMore := decide (nextOffset < range.end)
  truncated := decide (nextOffset < range.end)
  gap := gap
  capture := captureReport session range

/-- The response for a chunk from `start` on. -/
def chunkResponse (id : String) (alive : Bool) (session : Session) (range : OutputRange) (start : ℚ)
    (gap : Option Gap) (chunk : Chunk) : Response :=
  let gap := if 0 < chunk.skipped then gap.or (some ⟨.utf8_boundary, start, range.earliest⟩) else gap
  response id alive session range (toDouble (toDouble (start + chunk.skipped) + chunk.safeLength))
    (decodeUtf8 (chunk.buffer.take ⌊chunk.safeLength⌋.toNat)) gap

/-- The rest of `readOutput`, once the range is known. -/
def readPage (id : String) (alive : Bool) (session : Session) (range : OutputRange)
    (requested : Requested) (maxBytes : Number) : HostM Response := do
  let (start, gap) := startOf requested range
  if range.end = start then return response id alive session range start "" gap
  else
    match ← onFiles id (readChunk range start (requestedMax maxBytes)) with
    | .ok chunk => return chunkResponse id alive session range start gap chunk
    | .error _ => fail transcriptChanged

/-- `readOutput(id, cursor, maxBytes)` -/
def readOutput (config : HostConfig) (id : String) (cursor : CursorValue) (maxBytes : Number) :
    HostM Response := do
  let session ← getSession id
  let session ← observeCaptureStop id session
  let alive ← isAlive id
  let session ← enforceCaptureReserve config id session alive
  let (range, session) ← outputRange config id session
  let session ← enforceCaptureCeiling config id session alive range
  let requested ← ExceptT.mk (.done ((parseCursor cursor session).mapError .bridge))
  readPage id alive session range requested maxBytes

end BegetBridge.Terminal
