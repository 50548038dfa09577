import BegetBridge.Transcript.Segments

/-!
# Capturing a transcript

`captureTranscript` appends what a terminal prints to the transcript, in segments of one length, up
to a maximum. It inspects what is there, picks the segment length that fits it, and from then on
fills the last file and rolls over to the next one.

## Main definitions

* `CaptureOptions`: its parameters, and what it meets
* `Writer`: the variables of the loop
* `captureTranscript`: the program, with its loops over the chunks and inside a chunk
* `recordStorageStop`: the file that records a storage stop
-/

namespace BegetBridge.Transcript

open Core Relational Interleaving

/-- What `statfs` reports. -/
structure Space where
  bavail : Int
  bsize : Int
  deriving DecidableEq, Repr

/-- The parameters of `captureTranscript` and what it meets: the free space at each check, with
`none` where it cannot be told, and the pieces in which a write reaches the file. -/
structure CaptureOptions where
  outputName : String
  pid : String
  maximum : Nat
  minimumFree : Nat
  segmentBytes : Nat
  inspectFilesystem : Nat → Option Space
  pieces : Bytes → List Bytes

/-- No byte of a write is lost. -/
def CaptureOptions.Writes (o : CaptureOptions) : Prop := ∀ b, (o.pieces b).flatten = b

/-- `stopped` -/
inductive Stop
  | storageReserve
  | transcriptLimit
  deriving DecidableEq, Repr

/-- `.capture-stopped` -/
def captureStopSuffix : String := ".capture-stopped"

/-- The file that records a storage stop. -/
def captureMarker (outputName : String) : FileName := .other (outputName ++ captureStopSuffix)

/-- The bytes of `storage_reserve\n`. -/
def storageReserveLine : Bytes := "storage_reserve\n".toUTF8.toList

/-- `recordStorageStop(outputPath)` -/
def recordStorageStop (outputName pid : String) : FsM Unit := do
  let temporary := FileName.other (outputName ++ captureStopSuffix ++ "." ++ pid ++ ".tmp")
  perform (.create temporary)
  perform (.append temporary storageReserveLine)
  tryCatch (perform (.rename temporary (captureMarker outputName))) fun error => do
    perform (.rm temporary)
    throw error

/-- The variables of the loop. -/
structure Writer where
  segmentBytes : Nat
  remaining : Nat
  index : Nat
  segmentSize : Nat
  newSegment : Bool
  opened : Bool
  checks : Nat
  deriving DecidableEq, Repr

/-- The free space is enough for a write of `count` bytes. -/
def sufficient (minimumFree count : Nat) : Option Space → Bool
  | some space => decide (0 ≤ space.bavail) && decide (0 < space.bsize) &&
      decide ((minimumFree : Int) + count + 4096 ≤ space.bavail * space.bsize)
  | none => false

/-- The file of the current segment. -/
def Writer.filename (w : Writer) : Except Failure FileName :=
  if w.index = 0 then .ok .first else segmentPath w.index

/-- A full segment is closed, and the next one begins. -/
def Writer.rollOver (w : Writer) : Except Failure Writer :=
  if w.segmentSize = w.segmentBytes then
    (segmentPath (w.index + 1)).map fun _ =>
      { w with index := w.index + 1, segmentSize := 0, newSegment := true, opened := false }
  else .ok w

/-- The file is opened for its first write, or created. -/
def openSegment (w : Writer) : FsM Writer := do
  if w.opened then return w
  else
    let filename ← ExceptT.mk (.done w.filename)
    perform (if w.newSegment then .create filename else .openWrite filename)
    return { w with newSegment := false, opened := true }

/-- One write, in the pieces in which it reaches the file. -/
def appendAll (filename : FileName) : List Bytes → FsM Unit
  | [] => return
  | piece :: pieces => do
    perform (.append filename piece)
    appendAll filename pieces

/-- The check of the free space before a write. -/
def reserveHolds (o : CaptureOptions) (w : Writer) (count : Nat) : Bool :=
  o.minimumFree == 0 || sufficient o.minimumFree count (o.inspectFilesystem w.checks)

/-- The part of a chunk that the next write takes. -/
def Writer.portion (w : Writer) (chunk : Bytes) : Bytes :=
  chunk.take (min (min chunk.length w.remaining) (w.segmentBytes - w.segmentSize))

/-- The loop inside a chunk. Each turn takes at least one byte, so as many turns as bytes are enough;
a loop that takes none would not end. -/
def writeChunk (o : CaptureOptions) : Nat → Bytes → Writer → FsM (Writer × Option Stop)
  | _, [], w => return (w, none)
  | 0, _ :: _, _ => throw .diverges
  | turns + 1, byte :: bytes, w => do
    let chunk := byte :: bytes
    let w ← ExceptT.mk (.done w.rollOver)
    let portion := w.portion chunk
    if reserveHolds o w portion.length then
      let w ← openSegment w
      let filename ← ExceptT.mk (.done w.filename)
      appendAll filename (o.pieces portion)
      let w := { w with
        remaining := w.remaining - portion.length
        segmentSize := w.segmentSize + portion.length
        checks := w.checks + 1 }
      if w.remaining = 0 then return (w, some .transcriptLimit)
      else writeChunk o turns (chunk.drop portion.length) w
    else
      recordStorageStop o.outputName o.pid
      return (w, some .storageReserve)

/-- `for await (const chunk of input)` -/
def captureChunks (o : CaptureOptions) : List Bytes → Writer → FsM (Option Stop)
  | [], _ => return none
  | chunk :: input, w => do
    let (w, stopped) ← writeChunk o chunk.length chunk w
    match stopped with
    | some stop => return some stop
    | none => captureChunks o input w

/-- The segment length that fits an existing transcript. -/
def Inventory.segmentLength (existing : Inventory) (maximum segmentBytes : Nat) : Nat :=
  let segmentBytes := if 1 < existing.segments.length then existing.segmentBytes else segmentBytes
  if existing.segments.length = 1 ∧ segmentBytes < existing.size then maximum else segmentBytes

/-- The variables at the start of the loop. -/
def Inventory.writer (existing : Inventory) (maximum segmentBytes : Nat) : Writer where
  segmentBytes := existing.segmentLength maximum segmentBytes
  remaining := maximum - existing.size
  index := existing.segments.length - 1
  segmentSize := (existing.segments.getLast?.map Segment.size).getD 0
  newSegment := existing.segments.isEmpty
  opened := false
  checks := 0

/-- The limits that are accepted. -/
def CaptureOptions.Valid (o : CaptureOptions) : Prop :=
  (1 ≤ o.maximum ∧ o.maximum ≤ maxSafeInteger) ∧ o.minimumFree ≤ maxSafeInteger ∧
    1 ≤ o.segmentBytes ∧ o.segmentBytes ≤ maxSafeInteger

instance {o : CaptureOptions} : Decidable o.Valid :=
  inferInstanceAs (Decidable ((1 ≤ o.maximum ∧ o.maximum ≤ maxSafeInteger) ∧
    o.minimumFree ≤ maxSafeInteger ∧ 1 ≤ o.segmentBytes ∧ o.segmentBytes ≤ maxSafeInteger))

/-- `captureTranscript({ outputPath, maximum, minimumFree, segmentBytes, input, … })` -/
def captureTranscript (o : CaptureOptions) (input : List Bytes) : FsM (Option Stop) := do
  ensure o.Valid "Invalid transcript capture limits"
  let segmentBytes := min o.segmentBytes o.maximum
  let existing ← inspectTranscriptSegments segmentBytes
  let w := existing.writer o.maximum segmentBytes
  if w.remaining = 0 then return some .transcriptLimit
  else captureChunks o input w

end BegetBridge.Transcript
