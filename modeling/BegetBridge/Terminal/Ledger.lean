import BegetBridge.Terminal.Cursor
import BegetBridge.Terminal.Store

/-!
# The operation ledger

The managed commands of the sessions, as rows of the table `operations`, and the records that the shells
publish when a command is over.

## Main definitions

* `Operation`: a row of the table `operations`
* `StateStore`: the host with its ledger and its control records
* `updateOperation`, `ExitRecord.completion`: the operations of the store on them
-/

namespace BegetBridge.Terminal

open Core Relational Interleaving Transcript

/-! ## Operations -/

/-- `status` -/
inductive OperationStatus
  | ACCEPTED
  | RUNNING
  | SUCCEEDED
  | FAILED
  | INTERRUPTED
  | UNKNOWN
  deriving DecidableEq, Repr

/-- `status IN ('ACCEPTED','RUNNING','UNKNOWN')` -/
def OperationStatus.active : OperationStatus → Bool
  | .ACCEPTED | .RUNNING | .UNKNOWN => true
  | .SUCCEEDED | .FAILED | .INTERRUPTED => false

/-- `status IN ('ACCEPTED', 'RUNNING')` -/
def OperationStatus.uncertain : OperationStatus → Bool
  | .ACCEPTED | .RUNNING => true
  | .SUCCEEDED | .FAILED | .INTERRUPTED | .UNKNOWN => false

/-- `outcomeReason` -/
inductive OutcomeReason
  | control_channel_unavailable
  | spawn_result_uncertain
  | control_record_invalid
  | exit_zero
  | exit_nonzero
  | session_lost_during_operation
  | session_host_restart
  | owner_interrupt
  deriving DecidableEq, Repr

/-- A managed command of a session. -/
structure Operation where
  id : String
  sessionId : String
  idempotencyKey : String
  requestFingerprint : String
  status : OperationStatus
  acceptedAt : Nat
  startedAt : Option Nat
  completedAt : Option Nat
  exitCode : Option Nat
  outcomeReason : Option OutcomeReason
  startCursor : Nat
  deriving DecidableEq

/-- `PRIMARY KEY`, `UNIQUE(session_id, idempotency_key)` and the index `operations_one_writer` -/
def Operation.clashes (o o' : Operation) : Bool :=
  o.id == o'.id || (o.sessionId == o'.sessionId &&
    (o.idempotencyKey == o'.idempotencyKey || (o.status.active && o'.status.active)))

instance : RowKind Operation where
  clash := Operation.clashes
  clash_self o := by simp [Operation.clashes]
  clash_symm o o' := by
    rw [Operation.clashes, Operation.clashes, Bool.beq_comm, Bool.and_comm (o.status.active)]
    congr 2
    · exact Bool.beq_comm
    · congr 1
      exact Bool.beq_comm

/-- The fields that `updateOperation` is given. -/
structure OperationFields where
  startedAt : Option Nat := none
  completedAt : Option Nat := none
  exitCode : Option Nat := none
  outcomeReason : Option OutcomeReason := none

/-- The row after an update: times that are not given stay, the exit code and the reason do not. -/
def Operation.updated (o : Operation) (status : OperationStatus) (fields : OperationFields) : Operation :=
  { o with
    status := status
    startedAt := fields.startedAt.or o.startedAt
    completedAt := fields.completedAt.or o.completedAt
    exitCode := fields.exitCode
    outcomeReason := fields.outcomeReason }

/-- `updateOperation(id, status, fields)` -/
def updateOperation (operations : Table Operation) (id : String) (status : OperationStatus)
    (fields : OperationFields) : Option (Table Operation) :=
  operations.update (fun o => o.id == id) fun o => o.updated status fields

/-! ## Control records -/

/-- The record that the shell publishes, with the time of its file. -/
structure ExitRecord where
  raw : List Char
  mtime : Nat
  deriving DecidableEq

/-- The record without a newline at its end. -/
def chomped (raw : List Char) : List Char := if raw.getLast? = some '\n' then raw.dropLast else raw

/-- `/^(0|[1-9]\d{0,2})\n?$/` -/
def isExitRecord (raw : List Char) : Bool :=
  match chomped raw with
  | [] => false
  | ['0'] => true
  | d :: ds => d.isDigit && d != '0' && decide (ds.length ≤ 2) && ds.all Char.isDigit

def operationCompletionInvalid : BridgeError :=
  ⟨"operation_completion_invalid", "Operation completion record is invalid", 503⟩

/-- The exit code and the time of completion, where the record is valid. -/
def ExitRecord.completion (record : ExitRecord) : Except BridgeError (Nat × Nat) :=
  if isExitRecord record.raw then
    let exitCode := digitsValue (chomped record.raw)
    if 255 < exitCode then .error operationCompletionInvalid else .ok (exitCode, record.mtime)
  else .error operationCompletionInvalid

/-! ## The store -/

/-- The host with its ledger and, for each session, the files of its directory `operations`. -/
structure StateStore where
  host : Host
  operations : Table Operation
  controls : KeyedMap String (KeyedMap String ExitRecord)

/-- The operations of a session, oldest first. -/
def StateStore.operationsOf (s : StateStore) (id : String) : List Operation :=
  s.operations.rows.filter fun o => o.sessionId == id

/-- `readOperationCompletion(sessionId, operationId)`, where the record can be read. -/
def StateStore.readOperationCompletion (s : StateStore) (sessionId operationId : String) :
    Option (Except BridgeError (Nat × Nat)) :=
  ((s.controls.lookup sessionId).bind fun records => records.lookup operationId).map
    ExitRecord.completion

/-- What an operation of the host does to the ledger: `ON DELETE CASCADE`. -/
def Service.cascade {β : Type} : Service β → StateStore → StateStore
  | .deleteRow id, s => { s with operations := s.operations.delete fun o => o.sessionId == id }
  | .rmdir id, s => { s with controls := s.controls.erase id }
  | _, s => s

/-- An operation of the Session Host on the whole store. -/
def storeBackend : Backend HostOp FsError StateStore where
  exec op s := (op.exec s.host).map fun r =>
    (r.1, match op with
      | .service op => op.cascade { s with host := r.2 }
      | .file _ _ => { s with host := r.2 })

section Updates

variable {o : Operation} {status status' : OperationStatus} {fields fields' : OperationFields}

@[simp] theorem updated_id : (o.updated status fields).id = o.id := rfl

@[simp] theorem updated_sessionId : (o.updated status fields).sessionId = o.sessionId := rfl

/-- Two updates are one. -/
theorem updated_updated : (o.updated status fields).updated status' fields' =
    o.updated status'
      { fields' with
        startedAt := fields'.startedAt.or fields.startedAt
        completedAt := fields'.completedAt.or fields.completedAt } := by
  simp only [Operation.updated, Option.or_assoc]

end Updates

end BegetBridge.Terminal
