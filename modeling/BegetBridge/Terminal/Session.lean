import BegetBridge.Core.Number
import BegetBridge.Relational.Table

/-!
# Terminal sessions

The record that the Session Host keeps of a terminal, and the errors its operations throw.

## Main definitions

* `Session`: a row of the table `sessions`
* `BridgeError`: what an operation throws
-/

namespace BegetBridge.Terminal

open Relational

/-- `BridgeError` -/
structure BridgeError where
  code : String
  message : String
  status : Nat := 400
  deriving DecidableEq, Repr

/-- `transcriptCaptureState` -/
inductive CaptureState
  | ACTIVE
  | STOPPED
  | DEGRADED
  deriving DecidableEq, Repr

/-- `transcriptGapReason`, where there is one. -/
inductive CaptureGap
  | transcript_missing
  | storage_reserve
  | transcript_limit
  deriving DecidableEq, Repr

/-- `state` -/
inductive SessionState
  | OPEN
  | CLOSED
  deriving DecidableEq, Repr

/-- A session. Its stream has a name and a number, so that `||` never falls back on another one. -/
structure Session where
  id : String
  label : String
  cwd : String
  createdAt : Nat
  closedAt : Option Nat
  transcriptStreamId : String
  transcriptEpoch : Nat
  transcriptEarliestOffset : Nat
  transcriptCaptureState : CaptureState
  transcriptGapReason : Option CaptureGap
  stream_ne : transcriptStreamId ≠ ""
  epoch_pos : 1 ≤ transcriptEpoch
  deriving DecidableEq

/-- The stream of the sample sessions has a name. -/
theorem sampleStream_ne : "t" ≠ "" := by decide

/-- `id TEXT PRIMARY KEY` -/
instance : RowKind Session where
  clash s s' := s.id == s'.id
  clash_self _ := beq_self_eq_true _
  clash_symm _ _ := Bool.beq_comm

/-- `session.closedAt ? "CLOSED" : "OPEN"` -/
def Session.state (s : Session) : SessionState := if s.closedAt.isSome then .CLOSED else .OPEN

/-- The two sessions have one stream, and retain it from one offset on. -/
structure Session.SameStream (s s' : Session) : Prop where
  stream : s.transcriptStreamId = s'.transcriptStreamId
  epoch : s.transcriptEpoch = s'.transcriptEpoch
  earliest : s.transcriptEarliestOffset = s'.transcriptEarliestOffset

theorem Session.SameStream.refl (s : Session) : s.SameStream s := ⟨rfl, rfl, rfl⟩

theorem Session.SameStream.symm {s s' : Session} (h : s.SameStream s') : s'.SameStream s :=
  ⟨h.stream.symm, h.epoch.symm, h.earliest.symm⟩

theorem Session.SameStream.trans {s s' s'' : Session} (h : s.SameStream s') (h' : s'.SameStream s'') :
    s.SameStream s'' :=
  ⟨h.stream.trans h'.stream, h.epoch.trans h'.epoch, h.earliest.trans h'.earliest⟩

end BegetBridge.Terminal
