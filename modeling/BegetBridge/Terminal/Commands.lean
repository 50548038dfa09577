import BegetBridge.Interleaving.Noting
import BegetBridge.Terminal.Ledger
import BegetBridge.Terminal.ReadOutput
import BegetBridge.Terminal.ShellQuote

/-!
# Managed commands

A managed command has a row in the ledger before it is pasted into the terminal of its session, and its shell publishes
a record when it is over. Calls, monitors and restarts act at the same time, and write to the row from what they have
read before.

## Main definitions

* `CommandHost`: the store, what was pasted, and the records that were published
* `CommandOp`: the operations
* `runCommand`, `monitor`, `reconcileUncertainOperations`, `interrupt`: the programs
* `commands`: the pool they run in
-/

namespace BegetBridge.Managed

open Core Relational Interleaving Transcript Terminal

/-! ## The state -/

/-- What is pasted into the terminal of a session: an input, or the command of an operation with a key. -/
structure Line where
  sessionId : String
  command : Option (String × String)
  text : List Char
  deriving DecidableEq

/-- The store, what was pasted, oldest first, the records that the shells have published, and what is known about the
host: whether its key is one, and whether the reply to the next paste is heard. -/
structure CommandHost where
  store : StateStore
  lines : List Line
  published : List (String × String × ExitRecord)
  keyValid : Bool
  heard : Bool

def CommandHost.setOperations (s : CommandHost) (operations : Table Operation) : CommandHost :=
  { s with store := { s.store with operations := operations } }

def CommandHost.records (s : CommandHost) (sessionId : String) : KeyedMap String ExitRecord :=
  (s.store.controls.lookup sessionId).getD ∅

def CommandHost.setRecords (s : CommandHost) (sessionId : String) (records : KeyedMap String ExitRecord) :
    CommandHost :=
  { s with store := { s.store with controls := s.store.controls.insert sessionId records } }

/-! ## The operations -/

/-- One statement or transaction of the ledger, one file operation, or one command of the multiplexer. -/
inductive LedgerOp : Type → Type
  | admission (operation : Operation) : LedgerOp (Except BridgeError (Operation × Bool))
  | update (id : String) (status : OperationStatus) (fields : OperationFields) : LedgerOp Unit
  | operation (id sessionId : String) : LedgerOp (Option Operation)
  | uncertain : LedgerOp (List Operation)
  | interruptActive (sessionId : String) (now : Nat) : LedgerOp (Option Operation)
  | fingerprintKey : LedgerOp Bool
  | mkdirControls (sessionId : String) : LedgerOp Unit
  | removeRecord (sessionId operationId : String) : LedgerOp Unit
  | removePart (sessionId operationId : String) : LedgerOp Unit
  | readRecord (sessionId operationId : String) : LedgerOp (List Char)
  | statRecord (sessionId operationId : String) : LedgerOp Nat
  | writeInput (text : List Char) : LedgerOp Unit
  | loadBuffer : LedgerOp Unit
  | pasteBuffer (line : Line) : LedgerOp Bool
  | removeInput : LedgerOp Unit
  | sendKeys (sessionId : String) : LedgerOp Unit

/-- An operation of the Session Host. -/
inductive CommandOp (β : Type) : Type
  | host (op : HostOp β)
  | ledger (op : LedgerOp β)

def idempotencyConflict : BridgeError :=
  ⟨"idempotency_conflict", "The idempotency key is already bound to a different command", 409⟩

def sessionBusy : BridgeError := ⟨"session_busy", "The terminal session already has an active managed operation", 409⟩

def operationAdmissionFailed : BridgeError :=
  ⟨"operation_admission_failed", "Managed operation admission failed closed", 503⟩

/-- `admitOperation(operation)`, with the store after it. -/
def admitOperation (s : StateStore) (operation : Operation) :
    Except BridgeError (Operation × Bool) × Table Operation :=
  match s.operations.select fun o =>
      o.sessionId == operation.sessionId && o.idempotencyKey == operation.idempotencyKey with
  | some existing =>
    if existing.requestFingerprint == operation.requestFingerprint then (.ok (existing, true), s.operations)
    else (.error idempotencyConflict, s.operations)
  | none =>
    if (s.operations.select fun o => o.sessionId == operation.sessionId && o.status.active).isSome then
      (.error sessionBusy, s.operations)
    else if (s.host.row operation.sessionId).isNone then (.error operationAdmissionFailed, s.operations)
    else
      match s.operations.insert operation with
      | some operations => (.ok (operation, false), operations)
      | none => (.error operationAdmissionFailed, s.operations)

/-- `interruptActiveOperation(sessionId)`, with the clock at `now`. -/
def interruptActiveOperation (operations : Table Operation) (sessionId : String) (now : Nat) :
    Option (Option Operation × Table Operation) :=
  match operations.select fun o => o.sessionId == sessionId && o.status.active with
  | none => some (none, operations)
  | some active =>
    (updateOperation operations active.id .INTERRUPTED
        { completedAt := some now, outcomeReason := some .owner_interrupt }).map fun operations =>
      (operations.select fun o => o.id == active.id, operations)

/-- What an operation does. A command of the multiplexer that is reported as failed may have taken effect, and a line is
pasted then, too. -/
def LedgerOp.exec {β : Type} : LedgerOp β → CommandHost → Except FsError (β × CommandHost)
  | .admission o, s => .ok ((admitOperation s.store o).1, s.setOperations (admitOperation s.store o).2)
  | .update id status fields, s =>
    match updateOperation s.store.operations id status fields with
    | some operations => .ok ((), s.setOperations operations)
    | none => .error .fault
  | .operation id sessionId, s => .ok (s.store.operations.select fun o => o.id == id && o.sessionId == sessionId, s)
  | .uncertain, s => .ok (s.store.operations.rows.filter fun o => o.status.uncertain, s)
  | .interruptActive sessionId now, s =>
    match interruptActiveOperation s.store.operations sessionId now with
    | some (o, operations) => .ok (o, s.setOperations operations)
    | none => .error .fault
  | .fingerprintKey, s => .ok (s.keyValid, s)
  | .mkdirControls sessionId, s => .ok ((), s.setRecords sessionId (s.records sessionId))
  | .removeRecord sessionId operationId, s =>
    .ok ((), s.setRecords sessionId ((s.records sessionId).erase operationId))
  | .removePart _ _, s => .ok ((), s)
  | .readRecord sessionId operationId, s =>
    match (s.records sessionId).lookup operationId with
    | some record => .ok (record.raw, s)
    | none => .error .enoent
  | .statRecord sessionId operationId, s =>
    match (s.records sessionId).lookup operationId with
    | some record => .ok (record.mtime, s)
    | none => .error .enoent
  | .writeInput _, s => .ok ((), s)
  | .loadBuffer, s => .ok ((), s)
  | .pasteBuffer line, s => .ok (s.heard, { s with lines := s.lines ++ [line] })
  | .removeInput, s => .ok ((), s)
  | .sendKeys sessionId, s => if sessionId ∈ s.store.host.live then .ok ((), s) else .error .fault

/-- The effect of an operation. One of the host deletes no session here. -/
def CommandOp.exec {β : Type} : CommandOp β → CommandHost → Except FsError (β × CommandHost)
  | .host op, s => (op.exec s.store.host).map fun r => (r.1, { s with store := { s.store with host := r.2 } })
  | .ledger op, s => op.exec s

/-! ## Programs -/

/-- Programs over these operations that may throw. -/
abbrev CommandM (α : Type) := Script CommandOp FsError Thrown α

/-- An operation whose error propagates. -/
def perform {β : Type} (op : LedgerOp β) : CommandM β := Script.perform .fs (.ledger op)

/-- An operation of the multiplexer. -/
def tmux {β : Type} (op : LedgerOp β) : CommandM β := Script.perform (fun _ => .bridge tmuxError) (.ledger op)

/-- A program of the host. -/
def onHost {α : Type} (p : HostM α) : CommandM α := ExceptT.mk (p.run.mapOp .host)

/-- `if (!holds) throw e` -/
def require (holds : Bool) (e : BridgeError) : CommandM Unit := if holds then pure () else throw (.bridge e)

def sessionNotRunning (message : String) : BridgeError := ⟨"session_not_running", message, 409⟩

/-- `requireSession(id)` -/
def requireSession (id : String) : HostM Unit := do
  let session ← getSession id
  if session.closedAt.isSome then fail (sessionNotRunning "Terminal session is closed")
  else
    let alive ← isAlive id
    if alive then return () else fail (sessionNotRunning "Terminal session is not running")

/-- `outputSize(id)` -/
def outputSize (config : HostConfig) (id : String) : HostM ℚ := do
  let session ← getSession id
  let (range, _) ← outputRange config id session
  return range.end

/-- `paste(id, text, enter)`, with the line as it is pasted. -/
def paste (line : Line) : CommandM Unit := do
  onHost (requireSession line.sessionId)
  perform (.writeInput line.text)
  Script.andFinally (do
      tmux .loadBuffer
      let heard ← tmux (.pasteBuffer line)
      require heard tmuxError)
    (perform .removeInput)

/-- `updateOperation(id, status, fields)` -/
def update (id : String) (status : OperationStatus) (fields : OperationFields) : CommandM Unit :=
  perform (.update id status fields)

/-- `readOperationCompletion(sessionId, operationId)`, where an invalid record is a value. -/
def readOperationCompletion (sessionId operationId : String) : CommandM (Option (Except BridgeError (Nat × Nat))) :=
  tryCatch (do
      let raw ← perform (.readRecord sessionId operationId)
      let mtime ← perform (.statRecord sessionId operationId)
      return some (ExitRecord.completion ⟨raw, mtime⟩)) fun
    | .fs .enoent => return none
    | error => throw error

/-- What is written about an operation whose record is there, with the clock at `now`. -/
def settle (id : String) (now : Nat) : Except BridgeError (Nat × Nat) → CommandM Unit
  | .error _ => update id .UNKNOWN { completedAt := some now, outcomeReason := some .control_record_invalid }
  | .ok (exitCode, completedAt) =>
    update id (if exitCode = 0 then .SUCCEEDED else .FAILED)
      { completedAt := some completedAt
        exitCode := some exitCode
        outcomeReason := some (if exitCode = 0 then .exit_zero else .exit_nonzero) }

/-- The loop of `startOperationMonitor`, for some turns. -/
def monitor (sessionId operationId : String) (now : Nat) : Nat → CommandM Unit
  | 0 => return ()
  | turns + 1 => do
    match ← perform (.operation operationId sessionId) with
    | none => return ()
    | some operation =>
      if operation.status = .RUNNING then
        match ← readOperationCompletion sessionId operationId with
        | some completion => settle operationId now completion
        | none =>
          let alive ← onHost (isAlive sessionId)
          if alive then monitor sessionId operationId now turns
          else
            update operationId .UNKNOWN
              { completedAt := some now, outcomeReason := some .session_lost_during_operation }
      else return ()

/-- One round of `reconcileUncertainOperations`. -/
def reconcileOperation (now : Nat) (operation : Operation) : CommandM Unit := do
  match ← readOperationCompletion operation.sessionId operation.id with
  | some completion => settle operation.id now completion
  | none =>
    update operation.id .UNKNOWN { completedAt := some now, outcomeReason := some .session_host_restart }

def reconcileOperations (now : Nat) : List Operation → CommandM Unit
  | [] => return ()
  | operation :: rest => do
    reconcileOperation now operation
    reconcileOperations now rest

/-- `reconcileUncertainOperations()` -/
def reconcileUncertainOperations (now : Nat) : CommandM Unit := do
  let active ← perform .uncertain
  reconcileOperations now active

/-! ## Responses -/

/-- `operationState(status)` -/
def operationState : OperationStatus → String
  | .SUCCEEDED | .FAILED => "completed"
  | .ACCEPTED => "accepted"
  | .RUNNING => "running"
  | .INTERRUPTED => "interrupted"
  | .UNKNOWN => "unknown"

/-- `note` -/
def operationNote : OperationStatus → Option String
  | .ACCEPTED | .RUNNING => some "The command is still running; the terminal session remains alive."
  | .UNKNOWN => some "The previous outcome is uncertain after interruption; the command was not replayed."
  | .SUCCEEDED | .FAILED | .INTERRUPTED => none

/-- What `runCommand` returns. -/
structure CommandResponse where
  sessionId : String
  commandId : String
  operationId : String
  status : OperationStatus
  state : String
  exitCode : Option Nat
  cursor : CursorValue
  output : String
  note : Option String
  deriving DecidableEq

/-- What `publicOperation` shows. -/
structure PublicOperation where
  operationId : String
  sessionId : String
  status : OperationStatus
  acceptedAt : Nat
  startedAt : Option Nat
  completedAt : Option Nat
  exitCode : Option Nat
  outcomeReason : Option OutcomeReason
  deriving DecidableEq

def publicOperation (o : Operation) : PublicOperation :=
  ⟨o.id, o.sessionId, o.status, o.acceptedAt, o.startedAt, o.completedAt, o.exitCode, o.outcomeReason⟩

/-- The response about an operation, with a position and an output. -/
def responseAbout (o : Operation) (cursor : CursorValue) (output : String) : CommandResponse where
  sessionId := o.sessionId
  commandId := o.id
  operationId := o.id
  status := o.status
  state := operationState o.status
  exitCode := o.exitCode
  cursor := cursor
  output := output
  note := operationNote o.status

/-- `operation.startCursor`, as a position to read from. -/
def startOfOutput (startCursor : Nat) : CursorValue := .number (.finite startCursor)

/-- `operationResponse(operation)`, with the output. -/
def operationResponse (config : HostConfig) (o : Operation) : CommandM CommandResponse := do
  let page ← tryCatch
    (some <$> onHost (readOutput config o.sessionId (startOfOutput o.startCursor) (.finite 262144))) fun
    | .bridge error =>
      if error.code = "session_not_found" ∨ error.code = "session_not_running" then return none
      else throw (.bridge error)
    | error => throw error
  match page with
  | some page => return responseAbout o (.text page.cursor) page.output
  | none => return responseAbout o (startOfOutput o.startCursor) ""

/-! ## Calls -/

/-- A call of `runCommand`, with the id that it draws, what it reads on the clock, and how often it looks at its
operation before the deadline. -/
structure RunCall where
  sessionId : String
  command : String
  idempotencyKey : String
  operationId : String
  acceptedAt : Nat
  startedAt : Nat
  completedAt : Nat
  polls : Nat
  deriving DecidableEq

/-- What is configured: the limits, the directory of the sessions, and the fingerprint of a command under the key. -/
structure CommandConfig where
  host : HostConfig
  sessionsDir : String
  fingerprint : String → String

variable (config : CommandConfig)

/-- `operationCompletionPath(sessionId, operationId)` -/
def operationCompletionPath (sessionId operationId : String) : String :=
  config.sessionsDir ++ "/" ++ sessionId ++ "/operations/" ++ operationId ++ ".exit"

/-- `operationCompletionPartPath(sessionId, operationId)` -/
def operationCompletionPartPath (sessionId operationId : String) : String :=
  operationCompletionPath config sessionId operationId ++ ".part"

/-- The row that a call asks for. -/
def RunCall.operation (call : RunCall) (startCursor : Nat) : Operation where
  id := call.operationId
  sessionId := call.sessionId
  idempotencyKey := call.idempotencyKey
  requestFingerprint := config.fingerprint call.command
  status := .ACCEPTED
  acceptedAt := call.acceptedAt
  startedAt := none
  completedAt := none
  exitCode := none
  outcomeReason := none
  startCursor := startCursor

/-- The line of a call. -/
def RunCall.line (call : RunCall) : Line where
  sessionId := call.sessionId
  command := some (call.idempotencyKey, call.operationId)
  text := ShellQuote.pasted (ShellQuote.wrapped call.command.toList
    (operationCompletionPartPath config call.sessionId call.operationId).toList
    (operationCompletionPath config call.sessionId call.operationId).toList)

/-- `SAFE_IDEMPOTENCY_KEY` -/
def safeIdempotencyKey : String → Bool := within (fun c => idChar c || c == '.' || c == ':') 1 128

def invalidCommand : BridgeError := ⟨"invalid_command", "Command must be a non-empty string", 400⟩

def invalidIdempotencyKey : BridgeError :=
  ⟨"invalid_idempotency_key", "Idempotency key must contain 1-128 safe ASCII characters", 400⟩

def fingerprintKeyInvalid : BridgeError :=
  ⟨"operation_fingerprint_key_invalid", "Operation fingerprint key is invalid", 503⟩

/-- `requestFingerprint(command)` needs the key. -/
def requireFingerprintKey : CommandM Unit := do
  let valid ← perform .fingerprintKey
  require valid fingerprintKeyInvalid

/-- `admitOperation(operation)` -/
def admission (operation : Operation) : CommandM (Operation × Bool) := do
  match ← Script.perform (fun _ => .bridge operationAdmissionFailed) (.ledger (.admission operation)) with
  | .ok admitted => return admitted
  | .error error => throw (.bridge error)

/-- `prepareOperationCompletion(sessionId, operationId)`: where it fails, so has the operation. -/
def prepareOperationCompletion (call : RunCall) : CommandM Unit :=
  tryCatch (do
      perform (.mkdirControls call.sessionId)
      perform (.removeRecord call.sessionId call.operationId)
      perform (.removePart call.sessionId call.operationId)) fun error => do
    update call.operationId .FAILED
      { completedAt := some call.completedAt, outcomeReason := some .control_channel_unavailable }
    throw error

/-- The command is pasted: where that fails, it is not known what has become of it. -/
def pasteCommand (call : RunCall) : CommandM Unit :=
  tryCatch (paste (call.line config)) fun error => do
    update call.operationId .UNKNOWN
      { completedAt := some call.completedAt, outcomeReason := some .spawn_result_uncertain }
    throw error

/-- The operation once it is not running any more, or after so many looks. Looking at one that is not there throws. -/
def awaitOperation (call : RunCall) : Nat → CommandM Operation
  | 0 => do
    match ← perform (.operation call.operationId call.sessionId) with
    | some operation => return operation
    | none => throw (.fs .fault)
  | polls + 1 => do
    match ← perform (.operation call.operationId call.sessionId) with
    | some operation => if operation.status = .RUNNING then awaitOperation call polls else return operation
    | none => throw (.fs .fault)

/-- What `runCommand` does for an operation that is admitted. -/
def start (call : RunCall) (startCursor : Nat) : CommandM CommandResponse := do
  prepareOperationCompletion call
  update call.operationId .RUNNING { startedAt := some call.startedAt }
  pasteCommand config call
  let operation ← awaitOperation call call.polls
  let page ← onHost (readOutput config.host call.sessionId (startOfOutput startCursor) (.finite 262144))
  return responseAbout operation (.text page.cursor) page.output

/-- `runCommand(id, command, waitMs, idempotencyKey)` -/
def runCommand (call : RunCall) : CommandM CommandResponse := do
  require (!call.command.toList.all isSpace) invalidCommand
  onHost (requireSession call.sessionId)
  require (safeIdempotencyKey call.idempotencyKey) invalidIdempotencyKey
  let size ← onHost (outputSize config.host call.sessionId)
  requireFingerprintKey
  let (operation, duplicate) ← admission (call.operation config ⌊size⌋.toNat)
  if duplicate then operationResponse config.host operation else start config call ⌊size⌋.toNat

/-- `sendInput(id, input, enter)` -/
def sendInput (id input : String) (enter : Bool) : CommandM Unit :=
  paste ⟨id, none, if enter then ShellQuote.pasted input.toList else input.toList⟩

/-- `interrupt(id)` -/
def interrupt (id : String) (now : Nat) : CommandM (Option PublicOperation) := do
  onHost (requireSession id)
  tmux (.sendKeys id)
  let operation ← perform (.interruptActive id now)
  return operation.map publicOperation

def invalidOperationId : BridgeError := ⟨"invalid_operation_id", "Invalid operation ID", 400⟩

def operationNotFound : BridgeError := ⟨"operation_not_found", "Managed operation not found", 404⟩

/-- `getOperation(sessionId, operationId)` -/
def getOperation (sessionId operationId : String) : CommandM PublicOperation := do
  require (within idChar 1 80 operationId) invalidOperationId
  let _ ← onHost (getSession sessionId)
  match ← perform (.operation operationId sessionId) with
  | some operation => return publicOperation operation
  | none => throw (.bridge operationNotFound)

/-! ## The pool -/

/-- The calls, and what the host does by itself. A monitor runs for some turns, and a start of the host reconciles. -/
inductive Command
  | run (call : RunCall)
  | input (sessionId text : String) (enter : Bool)
  | interrupt (sessionId : String) (now : Nat)
  | inquire (sessionId operationId : String)
  | monitor (sessionId operationId : String) (now turns : Nat)
  | reconcile (now : Nat)
  deriving DecidableEq

/-- What a call returns. -/
inductive Reply
  | command (response : CommandResponse)
  | operation (operation : Option PublicOperation)
  | nothing
  deriving DecidableEq

def Command.program : Command → Prog CommandOp FsError (Except Thrown Reply)
  | .run call => (Reply.command <$> runCommand config call).run
  | .input sessionId text enter => ((fun _ => Reply.nothing) <$> sendInput sessionId text enter).run
  | .interrupt sessionId now => (Reply.operation <$> Managed.interrupt sessionId now).run
  | .inquire sessionId operationId => ((Reply.operation ∘ some) <$> getOperation sessionId operationId).run
  | .monitor sessionId operationId now turns =>
    ((fun _ => Reply.nothing) <$> Managed.monitor sessionId operationId now turns).run
  | .reconcile now => ((fun _ => Reply.nothing) <$> reconcileUncertainOperations now).run

/-- What happens by itself: a shell publishes a record, a record is removed, the host changes in what is not the ledger,
a reply may be lost, and the key may be damaged. -/
inductive Aside
  | publishes (sessionId operationId : String) (record : ExitRecord)
  | removes (sessionId operationId : String)
  | host (host : Host)
  | heard (heard : Bool)
  | key (valid : Bool)

def Aside.apply : Aside → CommandHost → CommandHost
  | .publishes sessionId operationId record, s =>
    { s.setRecords sessionId ((s.records sessionId).insert operationId record) with
      published := s.published ++ [(sessionId, operationId, record)] }
  | .removes sessionId operationId, s => s.setRecords sessionId ((s.records sessionId).erase operationId)
  | .host h, s => { s with store := { s.store with host := h } }
  | .heard b, s => { s with heard := b }
  | .key valid, s => { s with keyValid := valid }

/-- What a call has done: its operation is admitted, its status was written, its line is pasted; the operations that it
found, as they were, with the names it has of them, and the records that it has read. -/
structure Done where
  admitted : Bool
  failed : Bool
  started : Bool
  pasted : Bool
  named : List (String × String)
  seen : List Operation
  read : List (String × String × List Char)

def Done.nothing : Done := ⟨false, false, false, false, [], [], []⟩

def Done.noted {β : Type} : LedgerOp β → β → Done → Done
  | .admission _, .ok (o, duplicate), n => { n with admitted := n.admitted || !duplicate, seen := o :: n.seen }
  | .update _ .FAILED fields, _, n => { n with failed := n.failed || fields.exitCode.isNone }
  | .update _ .RUNNING _, _, n => { n with started := true }
  | .operation id sessionId, some o, n => { n with named := (sessionId, id) :: n.named, seen := o :: n.seen }
  | .uncertain, operations, n => { n with named := operations.map (fun o => (o.sessionId, o.id)) ++ n.named }
  | .interruptActive _ _, o, n => { n with seen := o.toList ++ n.seen }
  | .readRecord sessionId operationId, raw, n => { n with read := (sessionId, operationId, raw) :: n.read }
  | .pasteBuffer _, _, n => { n with pasted := true }
  | _, _, n => n

def Done.noting {β : Type} : CommandOp β → β → Done → Done
  | .host _, _, n => n
  | .ledger op, b, n => n.noted op b

/-- The host with the calls in flight. -/
abbrev CommandPool := Pool CommandOp FsError CommandHost Command Done (Except Thrown Reply)

/-- What has happened, oldest first, with the pools that it led to. -/
abbrev CommandHistory := List (Event Command Done Aside (Except Thrown Reply) × CommandPool)

/-- Any number of calls, at the same time. A call that stops for good is one that takes no further step: so does all
that was in flight when the host stops. -/
def commands : Calls CommandOp FsError CommandHost Command Done Aside (Except Thrown Reply) where
  exec op s := op.exec s
  Fault e := e = .fault
  ready _ _ := True
  program := Command.program config
  notes _ := .nothing
  note op b _ n := n.noting op b
  elsewhere e s s' := s' = e.apply s

end BegetBridge.Managed
