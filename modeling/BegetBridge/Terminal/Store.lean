import BegetBridge.Terminal.Host

/-!
# The session store

The programs of the store: every change of a session reads its row, and writes the whole row and then
`session.json`. Other calls act between these steps.

## Main definitions

* `save`, `closeSession`, `updateTranscript`, `purgeSession`: the programs
-/

namespace BegetBridge.Terminal

open Core Relational Interleaving Transcript

def sessionNotFound : BridgeError := ⟨"session_not_found", "Terminal session not found", 404⟩

/-- `get(id)`, where the session has to be there. -/
def getSession (id : String) : HostM Session := do
  match ← service (.select id) with
  | some session => return session
  | none => fail sessionNotFound

/-- The session as it is written: a reason that it lacks is taken from the row. -/
def Session.normalized (session : Session) (existing : Option Session) : Session :=
  { session with
    transcriptGapReason := session.transcriptGapReason.or (existing.bind (·.transcriptGapReason)) }

/-- `save(session)` -/
def save (session : Session) : HostM Session := do
  service (.mkdir session.id)
  let existing ← service (.select session.id)
  let normalized := session.normalized existing
  service (.upsert normalized)
  service (.writePart session.id normalized)
  service (.renamePart session.id)
  return normalized

/-- The session closed: at the time it was closed before, or at `now`. -/
def Session.closed (session : Session) (now : Nat) : Session :=
  { session with
    closedAt := session.closedAt.or (some now)
    transcriptCaptureState :=
      if session.transcriptCaptureState = .DEGRADED then .DEGRADED else .STOPPED }

/-- `closeSession(id)`, with the clock at `now`. -/
def closeSession (id : String) (now : Nat) : HostM Session := do
  let session ← getSession id
  save (session.closed now)

/-- The fields that `updateTranscript` is given. -/
structure TranscriptFields where
  epoch : Option ℕ+ := none
  earliestOffset : Option Nat := none
  captureState : Option CaptureState := none
  gapReason : Option (Option CaptureGap) := none

/-- The session with these fields. -/
def Session.updated (session : Session) (fields : TranscriptFields) : Session :=
  { session with
    transcriptEpoch := (fields.epoch.map PNat.val).getD session.transcriptEpoch
    transcriptEarliestOffset := fields.earliestOffset.getD session.transcriptEarliestOffset
    transcriptCaptureState := fields.captureState.getD session.transcriptCaptureState
    transcriptGapReason := fields.gapReason.getD session.transcriptGapReason
    epoch_pos := by
      cases fields.epoch with
      | none => exact session.epoch_pos
      | some epoch => exact epoch.pos }

/-- `updateTranscript(id, fields)` -/
def updateTranscript (id : String) (fields : TranscriptFields) : HostM Session := do
  let session ← getSession id
  save (session.updated fields)

/-- `{ captureState: "DEGRADED", gapReason }` -/
def degradedBy (reason : CaptureGap) : TranscriptFields :=
  { captureState := some .DEGRADED, gapReason := some (some reason) }

def sessionNotClosed : BridgeError :=
  ⟨"session_not_closed", "Close the terminal before purging it", 409⟩

/-- `purge(id)` of the store. -/
def purgeSession (id : String) : HostM Unit := do
  let session ← getSession id
  if session.closedAt = none then fail sessionNotClosed
  else
    service (.deleteRow id)
    service (.rmdir id)

end BegetBridge.Terminal
