import BegetBridge.Terminal.Commands

/-!
# Managed commands are pasted at most once

A command is pasted by the call whose row was admitted, after that row is written, and by no other call. The ledger has
one row for each key of a session, and no row changes what it is about. What is written about the outcome of a command
is what its shell has published.

## Main definitions

* `RunCall.Matches`: the row is about the session, the key and the command of a call
* `LedgerOp.Allowed`: what a call may do, by what it has done
* `Truthful`: what a row says about its command
* `StoreGood`, `CallGood`, `PoolGood`: the invariant

## Main results

* `along_program`: each call does what it is allowed
* `good_exec`: what an operation preserves
* `managed_command_once`: at most one paste for each key of a session
* `managed_outcome_true`: what is recorded about a command
-/

namespace BegetBridge.Managed

open Core Relational Interleaving Transcript Terminal

variable (config : CommandConfig)

/-! ## What a call may do -/

/-- The operation is about the session, the key and the command of a call. -/
structure RunCall.Matches (call : RunCall) (o : Operation) : Prop where
  session : o.sessionId = call.sessionId
  key : o.idempotencyKey = call.idempotencyKey
  fingerprint : o.requestFingerprint = config.fingerprint call.command

/-- What is written about an operation that was found: that nothing is known, or what a record of it says that was
read. -/
def Done.Settles (n : Done) (id : String) (status : OperationStatus) (exitCode : Option Nat) : Prop :=
  ∃ sessionId, (sessionId, id) ∈ n.named ∧ (status = .UNKNOWN ∧ exitCode = none ∨
    ∃ raw mtime code time, (sessionId, id, raw) ∈ n.read ∧ ExitRecord.completion ⟨raw, mtime⟩ = .ok (code, time) ∧
      exitCode = some code ∧ status = if code = 0 then .SUCCEEDED else .FAILED)

/-- What a call of `runCommand` writes about its own operation. -/
def RunCall.Writes (call : RunCall) (n : Done) (id : String) (status : OperationStatus) (exitCode : Option Nat) :
    Prop :=
  n.admitted = true ∧ id = call.operationId ∧ exitCode = none ∧
    (status = .FAILED ∧ n.pasted = false ∨ status = .RUNNING ∨ status = .UNKNOWN)

/-- What a call may do, by what it has done. -/
def LedgerOp.Allowed (kind : Command) {β : Type} : LedgerOp β → Done → Prop
  | .admission o, n => ∃ call, kind = .run call ∧ n = .nothing ∧ o.id = call.operationId ∧ call.Matches config o ∧
      o.status = .ACCEPTED ∧ o.exitCode = none
  | .update id status fields, n => (∃ call, kind = .run call ∧ call.Writes n id status fields.exitCode) ∨
      n.Settles id status fields.exitCode
  | .operation id sessionId, n => ∀ call, kind = .run call →
      n.admitted = true ∧ id = call.operationId ∧ sessionId = call.sessionId
  | .interruptActive _ _, _ => ∀ call, kind ≠ .run call
  | .pasteBuffer line, n => line.command = none ∨ ∃ call, kind = .run call ∧ n.admitted = true ∧ n.started = true ∧
      n.pasted = false ∧ n.failed = false ∧ line = call.line config
  | _, _ => True

def CommandOp.Allowed (kind : Command) {β : Type} : CommandOp β → Done → Prop
  | .host _, _ => True
  | .ledger op, n => op.Allowed config kind n

/-- What a call has done after a reply. -/
def Done.after {β : Type} (op : CommandOp β) (r : Except FsError β) (n : Done) : Done :=
  match r with
  | .ok b => n.noting op b
  | .error _ => n

/-- A program of a call does what is allowed. -/
abbrev Follows (kind : Command) {α : Type} (p : CommandM α) (Q : Except Thrown α → Done → Prop) (n : Done) : Prop :=
  Script.Along (fun op n => CommandOp.Allowed config kind op n) Done.after p Q n

/-- A reply says what an operation was when it was found. -/
def Reply.About (n : Done) : Reply → Prop
  | .command response => ∃ o ∈ n.seen, ∃ cursor output, response = responseAbout o cursor output
  | .operation shown => ∀ o', shown = some o' → ∃ o ∈ n.seen, o' = publicOperation o
  | .nothing => True

section Follows

variable {config} {kind : Command} {α β : Type} {n : Done}

theorem follows_onHost {p : HostM α} {Q : Except Thrown α → Done → Prop} (hQ : ∀ r, Q r n) :
    Follows config kind (onHost p) Q n :=
  Prog.along_mapOp (fun _ => trivial) (fun _ r => by cases r <;> rfl) hQ

theorem follows_require {holds : Bool} {e : BridgeError} {Q : Except Thrown Unit → Done → Prop} (hQ : ∀ r, Q r n) :
    Follows config kind (require holds e) Q n := by
  cases holds with
  | true => exact hQ _
  | false => exact hQ _

/-- An operation, with what is noted of it. -/
theorem follows_perform (op : LedgerOp β) {Q : Except Thrown β → Done → Prop} (hallowed : op.Allowed config kind n)
    (hok : ∀ b, Q (.ok b) (n.noted op b)) (herror : ∀ e, Q (.error (.fs e)) n) :
    Follows config kind (perform op) Q n :=
  Script.along_perform hallowed hok herror

theorem follows_tmux (op : LedgerOp β) {Q : Except Thrown β → Done → Prop} (hallowed : op.Allowed config kind n)
    (hok : ∀ b, Q (.ok b) (n.noted op b)) (herror : ∀ e, Q (.error e) n) : Follows config kind (tmux op) Q n :=
  Script.along_perform hallowed hok fun _ => herror _

/-- A line is pasted, or not. -/
theorem follows_paste {line : Line} {Q : Except Thrown Unit → Done → Prop}
    (hallowed : (LedgerOp.pasteBuffer line).Allowed config kind n) (hQ : ∀ r, Q r n)
    (hpasted : ∀ r, Q r { n with pasted := true }) : Follows config kind (paste line) Q n := by
  refine Script.along_bind (follows_onHost ?_)
  rintro (e | -)
  · exact hQ _
  refine Script.along_bind (follows_perform (.writeInput line.text) trivial (fun _ => ?_) fun e => hQ _)
  refine Script.along_andFinally (Script.along_bind (follows_tmux .loadBuffer trivial (fun _ => ?_) fun e => ?_))
  · refine Script.along_bind (follows_tmux _ hallowed (fun heard => ?_) fun e => ?_)
    · refine follows_require fun r => ?_
      exact follows_perform .removeInput trivial (fun _ => hpasted _) fun _ => hpasted _
    · exact follows_perform .removeInput trivial (fun _ => hQ _) fun _ => hQ _
  · exact follows_perform .removeInput trivial (fun _ => hQ _) fun _ => hQ _

section Settling

variable {sessionId operationId : String} {now : Nat}

/-- A record is read: what it says is what is read in it. -/
theorem follows_readOperationCompletion {Q : Except Thrown (Option (Except BridgeError (Nat × Nat))) → Done → Prop}
    (hnone : ∀ read, Q (.ok none) { n with read := read }) (herror : ∀ e read, Q (.error e) { n with read := read })
    (hsome : ∀ raw mtime, Q (.ok (some (ExitRecord.completion ⟨raw, mtime⟩)))
      { n with read := (sessionId, operationId, raw) :: n.read }) :
    Follows config kind (readOperationCompletion sessionId operationId) Q n := by
  refine Script.along_tryCatch (Script.along_bind (follows_perform (.readRecord sessionId operationId) trivial
    (fun raw => ?_) fun e => ?_))
  · refine Script.along_bind (follows_perform (.statRecord sessionId operationId) trivial
      (fun mtime => hsome raw mtime) fun e => ?_)
    cases e with
    | enoent => exact hnone _
    | _ => exact herror _ _
  · cases e with
    | enoent => exact hnone n.read
    | _ => exact herror _ n.read

/-- What a record says is written. -/
theorem follows_settle {Q : Except Thrown Unit → Done → Prop} {raw : List Char} {mtime : Nat}
    (hnamed : (sessionId, operationId) ∈ n.named) (hread : (sessionId, operationId, raw) ∈ n.read)
    (hQ : ∀ r failed, Q r { n with failed := failed }) :
    Follows config kind (settle operationId now (ExitRecord.completion ⟨raw, mtime⟩)) Q n := by
  cases hcompletion : ExitRecord.completion ⟨raw, mtime⟩ with
  | error e =>
    refine follows_perform _ (.inr ⟨sessionId, hnamed, .inl ⟨rfl, rfl⟩⟩) (fun _ => ?_) fun e => hQ _ n.failed
    exact hQ _ n.failed
  | ok outcome =>
    obtain ⟨code, time⟩ := outcome
    refine follows_perform _ (.inr ⟨sessionId, hnamed, .inr ⟨raw, mtime, code, time, hread, hcompletion, rfl, rfl⟩⟩)
      (fun _ => ?_) fun e => hQ _ n.failed
    by_cases hcode : code = 0
    · rw [if_pos hcode]
      exact hQ _ n.failed
    · rw [if_neg hcode]
      exact hQ _ _

/-- That nothing is known is written. -/
theorem follows_update_unknown {Q : Except Thrown Unit → Done → Prop} {fields : OperationFields}
    (hnamed : (sessionId, operationId) ∈ n.named) (hcode : fields.exitCode = none) (hQ : ∀ r, Q r n) :
    Follows config kind (update operationId .UNKNOWN fields) Q n :=
  follows_perform _ (.inr ⟨sessionId, hnamed, .inl ⟨rfl, hcode⟩⟩) (fun _ => hQ _) fun _ => hQ _

theorem follows_monitor (hkind : ∀ call, kind ≠ .run call) (turns : Nat) :
    Follows config kind (monitor sessionId operationId now turns) (fun _ _ => True) n := by
  induction turns generalizing n with
  | zero => trivial
  | succ turns ih =>
    refine Script.along_bind (follows_perform (.operation operationId sessionId)
      (fun call h => absurd h (hkind call)) ?_ fun _ => trivial)
    rintro (_ | operation)
    · trivial
    show Follows config kind (if operation.status = .RUNNING then _ else _) _ _
    split
    · refine Script.along_bind (follows_readOperationCompletion (fun read => ?_) (fun _ _ => trivial)
        fun raw mtime => ?_)
      · refine Script.along_bind (follows_onHost ?_)
        rintro (e | alive)
        · trivial
        show Follows config kind (if alive = true then _ else _) _ _
        split
        · exact ih
        · exact follows_update_unknown List.mem_cons_self rfl fun _ => trivial
      · exact follows_settle List.mem_cons_self List.mem_cons_self fun _ _ => trivial
    · trivial

theorem follows_reconcileOperations {operations : List Operation}
    (hnamed : ∀ o ∈ operations, (o.sessionId, o.id) ∈ n.named) :
    Follows config kind (reconcileOperations now operations) (fun _ _ => True) n := by
  induction operations generalizing n with
  | nil => trivial
  | cons operation rest ih =>
    have hfirst := hnamed operation List.mem_cons_self
    have hrest := fun o ho => hnamed o (List.mem_cons_of_mem operation ho)
    refine Script.along_bind (Script.along_bind (follows_readOperationCompletion (fun read => ?_)
      (fun _ _ => trivial) fun raw mtime => ?_))
    · refine follows_update_unknown hfirst rfl ?_
      rintro (e | -)
      · trivial
      · exact ih hrest
    · refine follows_settle hfirst List.mem_cons_self ?_
      rintro (e | -) failed
      · trivial
      · exact ih hrest

theorem follows_reconcileUncertainOperations :
    Follows config kind (reconcileUncertainOperations now) (fun _ _ => True) n := by
  refine Script.along_bind (follows_perform .uncertain trivial (fun operations => ?_) fun _ => trivial)
  refine follows_reconcileOperations fun o ho => List.mem_append_left _ ?_
  exact List.mem_map_of_mem ho

end Settling

section Running

variable {call : RunCall} {startCursor : Nat}

/-- The directory of the records is prepared, or the operation is written off. -/
theorem follows_prepareOperationCompletion {Q : Except Thrown Unit → Done → Prop} (hadmitted : n.admitted = true)
    (hpasted : n.pasted = false) (hok : Q (.ok ()) n) (herror : ∀ e n, Q (.error e) n) :
    Follows config (.run call) (prepareOperationCompletion call) Q n := by
  have hfails : ∀ e : Thrown, Follows config (.run call) (do
      update call.operationId .FAILED
        { completedAt := some call.completedAt, outcomeReason := some .control_channel_unavailable }
      throw e) Q n := by
    intro e
    refine Script.along_bind (follows_perform _ (.inl ⟨call, rfl, hadmitted, rfl, rfl, .inl ⟨rfl, hpasted⟩⟩)
      (fun _ => ?_) fun _ => herror _ _)
    exact herror _ _
  refine Script.along_tryCatch (Script.along_bind (follows_perform (.mkdirControls call.sessionId) trivial
    (fun _ => ?_) fun e => hfails _))
  refine Script.along_bind (follows_perform (.removeRecord call.sessionId call.operationId) trivial
    (fun _ => ?_) fun e => hfails _)
  exact follows_perform (.removePart call.sessionId call.operationId) trivial (fun _ => hok) fun e => hfails _

theorem follows_pasteCommand {Q : Except Thrown Unit → Done → Prop} (hadmitted : n.admitted = true)
    (hstarted : n.started = true) (hpasted : n.pasted = false) (hfailed : n.failed = false)
    (hok : ∀ pasted, Q (.ok ()) { n with pasted := pasted }) (herror : ∀ e n, Q (.error e) n) :
    Follows config (.run call) (pasteCommand config call) Q n := by
  -- where the paste fails, nothing is known
  have hfails : ∀ (e : Thrown) pasted, Follows config (.run call) (do
      update call.operationId .UNKNOWN
        { completedAt := some call.completedAt, outcomeReason := some .spawn_result_uncertain }
      throw e) Q { n with pasted := pasted } := by
    intro e pasted
    refine Script.along_bind (follows_perform _ (.inl ⟨call, rfl, hadmitted, rfl, rfl, .inr (.inr rfl)⟩)
      (fun _ => ?_) fun _ => herror _ _)
    exact herror _ _
  refine Script.along_tryCatch (follows_paste (.inr ⟨call, rfl, hadmitted, hstarted, hpasted, hfailed, rfl⟩) ?_ ?_)
  · rintro (e | -)
    · exact hfails e n.pasted
    · exact hok n.pasted
  · rintro (e | -)
    · exact hfails e true
    · exact hok true

theorem follows_awaitOperation {Q : Except Thrown Operation → Done → Prop} (hadmitted : n.admitted = true)
    (hok : ∀ o (m : Done), m.admitted = true → o ∈ m.seen → Q (.ok o) m) (herror : ∀ e n, Q (.error e) n)
    (polls : Nat) : Follows config (.run call) (awaitOperation call polls) Q n := by
  have hallowed : ∀ m : Done, m.admitted = true →
      (LedgerOp.operation call.operationId call.sessionId).Allowed config (.run call) m := by
    intro m hm call' hcall
    obtain rfl := Command.run.inj hcall
    exact ⟨hm, rfl, rfl⟩
  induction polls generalizing n with
  | zero =>
    refine Script.along_bind (follows_perform _ (hallowed n hadmitted) ?_ fun _ => herror _ _)
    rintro (_ | o)
    · exact herror _ _
    · exact hok o _ hadmitted List.mem_cons_self
  | succ polls ih =>
    refine Script.along_bind (follows_perform _ (hallowed n hadmitted) ?_ fun _ => herror _ _)
    rintro (_ | o)
    · exact herror _ _
    show Follows config (.run call) (if o.status = .RUNNING then _ else _) _ _
    split
    · exact ih hadmitted
    · exact hok o _ hadmitted List.mem_cons_self

/-- Where a response is returned, it is about an operation that was found. -/
def Answers (r : Except Thrown CommandResponse) (n : Done) : Prop :=
  ∀ response, r = .ok response → (Reply.command response).About n

theorem follows_start (hadmitted : n.admitted = true) (hpasted : n.pasted = false) (hfailed : n.failed = false) :
    Follows config (.run call) (start config call startCursor) Answers n := by
  refine Script.along_bind (follows_prepareOperationCompletion hadmitted hpasted ?_ fun _ _ => nofun)
  refine Script.along_bind (follows_perform _ (.inl ⟨call, rfl, hadmitted, rfl, rfl, .inr (.inl rfl)⟩) (fun _ => ?_)
    fun _ _ => nofun)
  refine Script.along_bind (follows_pasteCommand hadmitted rfl hpasted hfailed (fun pasted => ?_) fun _ _ => nofun)
  refine Script.along_bind (follows_awaitOperation ?_ ?_ (fun _ _ => fun _ => nofun) call.polls)
  · exact hadmitted
  intro o m _ ho
  refine Script.along_bind (follows_onHost ?_)
  rintro (e | page)
  · exact fun _ => nofun
  · rintro response heq
    obtain rfl := Except.ok.inj heq
    exact ⟨o, ho, _, _, rfl⟩

theorem follows_operationResponse {o : Operation} (ho : o ∈ n.seen) :
    Follows config (.run call) (operationResponse config.host o) Answers n := by
  have hanswers : ∀ cursor output, Answers (.ok (responseAbout o cursor output)) n := by
    rintro cursor output response heq
    obtain rfl := Except.ok.inj heq
    exact ⟨o, ho, _, _, rfl⟩
  refine Script.along_bind (Script.along_tryCatch (Prog.along_bind (follows_onHost ?_)))
  rintro (e | page)
  · cases e with
    | fs e => exact fun _ => nofun
    | bridge error =>
      show Follows config (.run call) (if _ then return none else throw _) _ n
      split
      · exact hanswers _ _
      · exact fun _ => nofun
  · exact hanswers _ _

theorem follows_runCommand :
    Follows config (.run call) (runCommand config call) Answers .nothing := by
  refine Script.along_bind (follows_require ?_)
  rintro (e | -)
  · exact fun _ => nofun
  refine Script.along_bind (follows_onHost ?_)
  rintro (e | -)
  · exact fun _ => nofun
  refine Script.along_bind (follows_require ?_)
  rintro (e | -)
  · exact fun _ => nofun
  refine Script.along_bind (follows_onHost ?_)
  rintro (e | size)
  · exact fun _ => nofun
  refine Script.along_bind (Script.along_bind (follows_perform .fingerprintKey trivial (fun valid => ?_)
    fun _ _ => nofun))
  refine follows_require ?_
  rintro (e | -)
  · exact fun _ => nofun
  refine Script.along_bind (Script.along_bind (Script.along_perform
    ⟨call, rfl, rfl, rfl, ⟨rfl, rfl, rfl⟩, rfl, rfl⟩ ?_ fun _ _ => nofun))
  rintro (e | ⟨o, duplicate⟩)
  · exact fun _ => nofun
  cases duplicate with
  | true => exact follows_operationResponse List.mem_cons_self
  | false => exact follows_start rfl rfl rfl

/-- Where a call ends with a reply, that is about an operation that was found. -/
def Ends (r : Except Thrown Reply) (n : Done) : Prop := ∀ reply, r = .ok reply → reply.About n

end Running

/-- A program whose result is made into a reply. -/
theorem follows_map {p : CommandM α} {g : α → Reply} (h : Follows config kind p (fun r n => Ends (r.map g) n) n) :
    Follows config kind (g <$> p) Ends n := by
  refine Prog.along_bind (Prog.along_mono ?_ h)
  rintro (e | a) m hm
  · exact hm
  · exact hm

/-- Where the reply is about nothing. -/
theorem follows_nothing {p : CommandM α} (h : Follows config kind p (fun _ _ => True) n) :
    Follows config kind ((fun _ => Reply.nothing) <$> p) Ends n := by
  refine follows_map (Script.along_mono ?_ h)
  rintro (e | a) m -
  · exact fun _ => nofun
  · rintro reply heq
    obtain rfl := Except.ok.inj heq
    trivial

theorem follows_interrupt {sessionId : String} {now : Nat} (hkind : ∀ call, kind ≠ .run call) :
    Follows config kind (Reply.operation <$> Managed.interrupt sessionId now) Ends n := by
  refine follows_map (Script.along_bind (follows_onHost ?_))
  rintro (e | -)
  · exact fun _ => nofun
  refine Script.along_bind (follows_tmux (.sendKeys sessionId) trivial (fun _ => ?_) fun _ _ => nofun)
  refine Script.along_bind (follows_perform (.interruptActive sessionId now) hkind (fun o => ?_) fun _ _ => nofun)
  rintro reply heq
  obtain rfl := Except.ok.inj heq
  rintro shown hshown
  obtain ⟨o', rfl, rfl⟩ := Option.map_eq_some_iff.mp hshown
  exact ⟨o', List.mem_append_left _ (Option.mem_toList.mpr rfl), rfl⟩

theorem follows_getOperation {sessionId operationId : String} (hkind : ∀ call, kind ≠ .run call) :
    Follows config kind ((Reply.operation ∘ some) <$> getOperation sessionId operationId) Ends n := by
  refine follows_map (Script.along_bind (follows_require ?_))
  rintro (e | -)
  · exact fun _ => nofun
  refine Script.along_bind (follows_onHost ?_)
  rintro (e | session)
  · exact fun _ => nofun
  refine Script.along_bind (follows_perform (.operation operationId sessionId)
    (fun call h => absurd h (hkind call)) ?_ fun _ _ => nofun)
  rintro (_ | o)
  · exact fun _ => nofun
  rintro reply heq
  obtain rfl := Except.ok.inj heq
  rintro shown hshown
  exact ⟨o, List.mem_cons_self, (Option.some.inj hshown).symm⟩

/-- **Each call does what it is allowed**, whatever the replies are that it has. -/
theorem along_program :
    Prog.Along (fun op n => CommandOp.Allowed config kind op n) Done.after (Command.program config kind) Ends
      .nothing := by
  cases kind with
  | run call =>
    refine follows_map (Script.along_mono ?_ follows_runCommand)
    rintro (e | response) m hm
    · exact fun _ => nofun
    · rintro reply heq
      obtain rfl := Except.ok.inj heq
      exact hm response rfl
  | input sessionId text enter =>
    exact follows_nothing (follows_paste (.inl rfl) (fun _ => trivial) fun _ => trivial)
  | interrupt sessionId now => exact follows_interrupt fun _ => nofun
  | inquire sessionId operationId => exact follows_getOperation fun _ => nofun
  | monitor sessionId operationId now turns =>
    refine follows_nothing (follows_monitor ?_ turns)
    exact fun _ => nofun
  | reconcile now => exact follows_nothing follows_reconcileUncertainOperations

end Follows

/-! ## The invariant -/

/-- The line of an operation is pasted. -/
def CommandHost.Pasted (s : CommandHost) (id : String) : Prop := ∃ line ∈ s.lines, ∃ key, line.command = some (key, id)

/-- A record of an operation was published, with this exit code. -/
def CommandHost.Published (s : CommandHost) (sessionId id : String) (code : Nat) : Prop :=
  ∃ record time, (sessionId, id, record) ∈ s.published ∧ ExitRecord.completion record = .ok (code, time)

/-- The operation has failed without an exit code. -/
def WrittenOff (o : Operation) : Prop := o.status = .FAILED ∧ o.exitCode = none

/-- The two rows are about the same command. -/
structure SameCommand (o o' : Operation) : Prop where
  id : o'.id = o.id
  session : o'.sessionId = o.sessionId
  key : o'.idempotencyKey = o.idempotencyKey
  fingerprint : o'.requestFingerprint = o.requestFingerprint

/-- What is said of an operation: an exit code is one that was published, and a success has one. -/
structure Reported (s : CommandHost) (sessionId id : String) (status : OperationStatus) (exitCode : Option Nat) :
    Prop where
  code : ∀ code, exitCode = some code →
    status = (if code = 0 then .SUCCEEDED else .FAILED) ∧ s.Published sessionId id code
  succeeded : status = .SUCCEEDED → exitCode = some 0

/-- What a row says of its command: that has not been pasted where it is only accepted, or written off. -/
structure Truthful (s : CommandHost) (o : Operation) : Prop where
  reported : Reported s o.sessionId o.id o.status o.exitCode
  unpasted : o.status = .ACCEPTED ∨ WrittenOff o → ¬s.Pasted o.id

/-- What a reply says of an operation. -/
def Reply.Reported (s : CommandHost) : Reply → Prop
  | .command response => Managed.Reported s response.sessionId response.operationId response.status response.exitCode
  | .operation shown =>
    ∀ o, shown = some o → Managed.Reported s o.sessionId o.operationId o.status o.exitCode
  | .nothing => True

/-- The rows are truthful, the records there are were published, and what is pasted for a command is the line of the
call that has a row, once. -/
structure StoreGood (s : CommandHost) : Prop where
  truthful : ∀ o ∈ s.store.operations, Truthful s o
  records : ∀ sessionId id record, (s.records sessionId).lookup id = some record → (sessionId, id, record) ∈ s.published
  owned : ∀ line ∈ s.lines, line.command ≠ none → ∃ call : RunCall, line = call.line config ∧
    ∃ o ∈ s.store.operations, o.id = call.operationId ∧ call.Matches config o
  once : (s.lines.filterMap fun line => line.command.map Prod.snd).Nodup

/-- What a call has found is there. -/
structure CallGood (s : CommandHost) (kind : Command) (n : Done) : Prop where
  named : ∀ sessionId id, (sessionId, id) ∈ n.named → ∃ o ∈ s.store.operations, o.id = id ∧ o.sessionId = sessionId
  seen : ∀ o ∈ n.seen, Reported s o.sessionId o.id o.status o.exitCode ∧ (∃ o' ∈ s.store.operations, SameCommand o o') ∧
    ∀ call, kind = .run call → call.Matches config o
  read : ∀ sessionId id raw, (sessionId, id, raw) ∈ n.read → ∃ mtime, (sessionId, id, ⟨raw, mtime⟩) ∈ s.published

/-- The row of a call whose operation is admitted: until the call pastes its line, nobody does. -/
structure OwnGood (s : CommandHost) (call : RunCall) (n : Done) : Prop where
  row : ∃ o ∈ s.store.operations, o.id = call.operationId ∧ call.Matches config o ∧
    (n.started = true → o.status ≠ .ACCEPTED) ∧ (n.failed = false → ¬WrittenOff o)
  unpasted : n.pasted = false → ¬s.Pasted call.operationId

/-- The rows stay about the same commands, and what was published stays so. -/
structure Moves (s s' : CommandHost) : Prop where
  rows : Table.Grows (fun o o' => SameCommand o o' ∧ (o.status ≠ .ACCEPTED → o'.status ≠ .ACCEPTED))
    s.store.operations s'.store.operations
  published : ∀ x ∈ s.published, x ∈ s'.published

/-- The operation with this id is not written off meanwhile, and not pasted. -/
structure Spares (id : String) (s s' : CommandHost) : Prop where
  rows : ∀ o' ∈ s'.store.operations, o'.id = id → WrittenOff o' → ∃ o ∈ s.store.operations, o.id = id ∧ WrittenOff o
  pasted : s'.Pasted id → s.Pasted id

/-- What an operation of a call leads to, by what the call has done before and after it. -/
structure Advances (kind : Command) (s s' : CommandHost) (n n' : Done) : Prop where
  store : StoreGood config s'
  call : CallGood config s' kind n'
  own : ∀ call, kind = .run call → n'.admitted = true → OwnGood config s' call n'
  moves : Moves s s'
  spares : ∀ id, (∀ call, kind = .run call → n.admitted = true → call.operationId ≠ id) → Spares id s s'
  fresh : ∀ call, kind = .run call → n.admitted = false → n'.admitted = true →
    ∀ o ∈ s.store.operations, o.id ≠ call.operationId

/-- What may be written about an operation. -/
structure Warranted (kind : Command) (s : CommandHost) (n : Done) (id : String) (status : OperationStatus)
    (exitCode : Option Nat) : Prop where
  progress : status ≠ .ACCEPTED
  code : ∀ code, exitCode = some code → status = (if code = 0 then .SUCCEEDED else .FAILED) ∧
    ∀ o ∈ s.store.operations, o.id = id → s.Published o.sessionId o.id code
  succeeded : status = .SUCCEEDED → exitCode = some 0
  own : status = .RUNNING ∨ status = .FAILED ∧ exitCode = none →
    ∃ call, kind = .run call ∧ n.admitted = true ∧ id = call.operationId
  unpasted : status = .FAILED → exitCode = none → n.pasted = false

/-- The store is good, each call has found what is there, and no two calls have admitted the same operation. -/
structure PoolGood (p : CommandPool) : Prop where
  store : StoreGood config p.store
  calls : ∀ i c, p.calls i = some c → CallGood config p.store c.kind c.notes
  own : ∀ i c call, p.calls i = some c → c.kind = .run call → c.notes.admitted = true →
    OwnGood config p.store call c.notes
  alone : ∀ i j c c' call call', p.calls i = some c → p.calls j = some c' → c.kind = .run call → c'.kind = .run call' →
    c.notes.admitted = true → c'.notes.admitted = true → call.operationId = call'.operationId → i = j

section Invariant

variable {config} {kind : Command} {call : RunCall} {n n' : Done} {s s' : CommandHost} {o o' : Operation} {id : String}

theorem SameCommand.refl : SameCommand o o := ⟨rfl, rfl, rfl, rfl⟩

theorem SameCommand.trans {o'' : Operation} (h : SameCommand o o') (h' : SameCommand o' o'') : SameCommand o o'' :=
  ⟨h'.id.trans h.id, h'.session.trans h.session, h'.key.trans h.key, h'.fingerprint.trans h.fingerprint⟩

theorem SameCommand.matches (h : SameCommand o o') (ho : call.Matches config o) : call.Matches config o' :=
  ⟨h.session.trans ho.session, h.key.trans ho.key, h.fingerprint.trans ho.fingerprint⟩

/-- Rows with one id are one row. -/
theorem eq_of_id (ho : o ∈ s.store.operations) (ho' : o' ∈ s.store.operations) (hid : o.id = o'.id) : o = o' :=
  Table.eq_of_clash ho ho' (by simp [clash, Operation.clashes, hid])

/-- Rows with one key of one session are one row. -/
theorem eq_of_key (ho : o ∈ s.store.operations) (ho' : o' ∈ s.store.operations) (hsession : o.sessionId = o'.sessionId)
    (hkey : o.idempotencyKey = o'.idempotencyKey) : o = o' :=
  Table.eq_of_clash ho ho' (by simp [clash, Operation.clashes, hsession, hkey])

theorem Moves.refl : Moves s s := ⟨Table.Grows.refl fun _ => ⟨.refl, fun h => h⟩, fun _ hx => hx⟩

theorem Moves.trans {s'' : CommandHost} (h : Moves s s') (h' : Moves s' s'') : Moves s s'' :=
  ⟨h.rows.trans (fun hab hbc => ⟨hab.1.trans hbc.1, fun h => hbc.2 (hab.2 h)⟩) h'.rows,
    fun x hx => h'.published x (h.published x hx)⟩

theorem Spares.refl : Spares id s s := ⟨fun o ho hid hoff => ⟨o, ho, hid, hoff⟩, fun h => h⟩

theorem Moves.publishes (h : Moves s s') {sessionId : String} {code : Nat} (hp : s.Published sessionId id code) :
    s'.Published sessionId id code := by
  obtain ⟨record, time, hmem, hcode⟩ := hp
  exact ⟨record, time, h.published _ hmem, hcode⟩

theorem Reported.moves {sessionId : String} {status : OperationStatus} {exitCode : Option Nat}
    (ho : Reported s sessionId id status exitCode) (h : Moves s s') : Reported s' sessionId id status exitCode where
  code code hcode := ⟨(ho.code code hcode).1, h.publishes (ho.code code hcode).2⟩
  succeeded := ho.succeeded

/-- What a call has found stays there while others act. -/
theorem CallGood.moves (hc : CallGood config s kind n) (h : Moves s s') : CallGood config s' kind n where
  named sessionId id hmem := by
    obtain ⟨o, ho, rfl, rfl⟩ := hc.named sessionId id hmem
    obtain ⟨o', ho', hsame, -⟩ := h.rows o ho
    exact ⟨o', ho', hsame.id, hsame.session⟩
  seen o hmem := by
    obtain ⟨hreported, ⟨o₁, ho₁, hsame⟩, hmatches⟩ := hc.seen o hmem
    obtain ⟨o₂, ho₂, hsame', -⟩ := h.rows o₁ ho₁
    exact ⟨hreported.moves h, ⟨o₂, ho₂, hsame.trans hsame'⟩, hmatches⟩
  read sessionId id raw hmem := by
    obtain ⟨mtime, hmem⟩ := hc.read sessionId id raw hmem
    exact ⟨mtime, h.published _ hmem⟩

theorem CallGood.same (hc : CallGood config s kind n) (hnamed : n'.named = n.named) (hseen : n'.seen = n.seen)
    (hread : n'.read = n.read) : CallGood config s kind n' :=
  ⟨hnamed ▸ hc.named, hseen ▸ hc.seen, hread ▸ hc.read⟩

/-- The row of a call stays its own while others act, who do not touch it. -/
theorem OwnGood.moves (hown : OwnGood config s call n) (h : Moves s s') (hspares : Spares call.operationId s s') :
    OwnGood config s' call n where
  row := by
    obtain ⟨o, ho, hid, hmatches, hstarted, hfailed⟩ := hown.row
    obtain ⟨o', ho', hsame, hstatus⟩ := h.rows o ho
    refine ⟨o', ho', hsame.id.trans hid, hsame.matches hmatches, fun h => hstatus (hstarted h), fun h hoff => ?_⟩
    obtain ⟨o₁, ho₁, hid₁, hoff₁⟩ := hspares.rows o' ho' (hsame.id.trans hid) hoff
    obtain rfl := eq_of_id ho₁ ho (hid₁.trans hid.symm)
    exact hfailed h hoff₁
  unpasted hpasted h := hown.unpasted hpasted (hspares.pasted h)

/-- Where the rows, the lines and what was published stay, so does all else. -/
theorem advances_quiet (hs : StoreGood config s) (hown : ∀ call, kind = .run call → n.admitted = true →
      OwnGood config s call n) (hrows : s'.store.operations = s.store.operations) (hlines : s'.lines = s.lines)
    (hpublished : s'.published = s.published)
    (hrecords : ∀ sessionId id record, (s'.records sessionId).lookup id = some record →
      (s.records sessionId).lookup id = some record)
    (hcall : CallGood config s kind n')
    (hn : n'.admitted = n.admitted ∧ n'.failed = n.failed ∧ n'.started = n.started ∧ n'.pasted = n.pasted) :
    Advances config kind s s' n n' := by
  obtain ⟨hadmitted, hfailed, hstarted, hpasted⟩ := hn
  have hmoves : Moves s s' := ⟨by rw [hrows]; exact Table.Grows.refl fun _ => ⟨.refl, fun h => h⟩, by simp [hpublished]⟩
  have hspares : ∀ id, Spares id s s' := fun id =>
    ⟨fun o ho hid hoff => ⟨o, hrows ▸ ho, hid, hoff⟩, by simp [CommandHost.Pasted, hlines]⟩
  refine ⟨⟨?_, ?_, ?_, ?_⟩, hcall.moves hmoves, ?_, hmoves, fun id _ => hspares id, ?_⟩
  · intro o ho
    obtain ⟨hreported, hunpasted⟩ := hs.truthful o (hrows ▸ ho)
    exact ⟨hreported.moves hmoves, fun h hp => hunpasted h ((hspares o.id).pasted hp)⟩
  · intro sessionId id record h
    rw [hpublished]
    exact hs.records sessionId id record (hrecords sessionId id record h)
  · rw [hlines, hrows]
    exact hs.owned
  · rw [hlines]
    exact hs.once
  · intro call hkind h
    obtain ⟨hrow, hunpasted⟩ := (hown call hkind (hadmitted ▸ h)).moves hmoves (hspares _)
    rw [← hfailed, ← hstarted] at hrow
    rw [← hpasted] at hunpasted
    exact ⟨hrow, hunpasted⟩
  · intro call _ h h'
    rw [hadmitted, h] at h'
    cases h'

section Updates

variable {status : OperationStatus} {fields : OperationFields} {operations : Table Operation}

theorem mem_updateOperation (hup : updateOperation s.store.operations id status fields = some operations) :
    o' ∈ operations ↔ ∃ o ∈ s.store.operations, o' = if o.id = id then o.updated status fields else o := by
  simp only [Table.mem_update hup, beq_iff_eq]

theorem sameCommand_updated : SameCommand o (if o.id = id then o.updated status fields else o) := by
  split
  · exact ⟨rfl, rfl, rfl, rfl⟩
  · exact .refl

theorem moves_update (hup : updateOperation s.store.operations id status fields = some operations)
    (hstatus : status ≠ .ACCEPTED) : Moves s (s.setOperations operations) := by
  refine ⟨fun o ho => ⟨_, (mem_updateOperation hup).mpr ⟨o, ho, rfl⟩, sameCommand_updated, fun h => ?_⟩, fun _ hx => hx⟩
  split
  · exact hstatus
  · exact h

/-- An update writes off no other operation, and none that it gives an exit code. -/
theorem spares_update (hup : updateOperation s.store.operations id status fields = some operations) {id' : String}
    (h : id' = id → ¬(status = .FAILED ∧ fields.exitCode = none)) : Spares id' s (s.setOperations operations) := by
  refine ⟨fun o' ho' hid hoff => ?_, fun hp => hp⟩
  obtain ⟨o, ho, rfl⟩ := (mem_updateOperation hup).mp ho'
  by_cases heq : o.id = id
  · rw [if_pos heq] at hid hoff
    exact absurd hoff (h (hid.symm.trans heq))
  · rw [if_neg heq] at hid hoff
    exact ⟨o, ho, hid, hoff⟩

/-- What is written is so. -/
theorem storeGood_update (hs : StoreGood config s)
    (hup : updateOperation s.store.operations id status fields = some operations) (hstatus : status ≠ .ACCEPTED)
    (hcode : ∀ code, fields.exitCode = some code → status = (if code = 0 then .SUCCEEDED else .FAILED) ∧
      ∀ o ∈ s.store.operations, o.id = id → s.Published o.sessionId o.id code)
    (hsucceeded : status = .SUCCEEDED → fields.exitCode = some 0)
    (hoff : status = .FAILED → fields.exitCode = none → ¬s.Pasted id) :
    StoreGood config (s.setOperations operations) where
  truthful o' ho' := by
    obtain ⟨o, ho, rfl⟩ := (mem_updateOperation hup).mp ho'
    split
    · rename_i hid
      refine ⟨⟨fun code h => ⟨(hcode code h).1, (hcode code h).2 o ho hid⟩, hsucceeded⟩, fun h => ?_⟩
      rcases h with h | ⟨h, hnone⟩
      · exact absurd h hstatus
      · show ¬s.Pasted o.id
        rw [hid]
        exact hoff h hnone
    · obtain ⟨⟨hcode, hsucceeded⟩, hunpasted⟩ := hs.truthful o ho
      exact ⟨⟨hcode, hsucceeded⟩, hunpasted⟩
  records := hs.records
  owned line hline hcommand := by
    obtain ⟨call, heq, o, ho, hid, hmatches⟩ := hs.owned line hline hcommand
    obtain ⟨o', ho', hsame, -⟩ := (moves_update hup hstatus).rows o ho
    exact ⟨call, heq, o', ho', hsame.id.trans hid, hsame.matches hmatches⟩
  once := hs.once

/-- The row of a call after an update, which may be its own. -/
theorem ownGood_update (hown : OwnGood config s call n)
    (hup : updateOperation s.store.operations id status fields = some operations) (hstatus : status ≠ .ACCEPTED)
    (hpasted : n'.pasted = n.pasted) (hstarted : n'.started = true → n.started = true ∨ id = call.operationId)
    (hfailed : n'.failed = false → n.failed = false ∧ ¬(status = .FAILED ∧ fields.exitCode = none)) :
    OwnGood config (s.setOperations operations) call n' where
  row := by
    obtain ⟨o, ho, hid, hmatches, hon, hoff⟩ := hown.row
    refine ⟨_, (mem_updateOperation hup).mpr ⟨o, ho, rfl⟩, sameCommand_updated.id.trans hid,
      sameCommand_updated.matches hmatches, fun h => ?_, fun h => ?_⟩
    · split
      · exact hstatus
      · rename_i hne
        rcases hstarted h with h | h
        · exact hon h
        · exact absurd (hid.trans h.symm) hne
    · split
      · exact (hfailed h).2
      · exact hoff (hfailed h).1
  unpasted h := hown.unpasted (hpasted ▸ h)

end Updates

/-- What the operation found of the row that a call is to find. -/
theorem CallGood.find (hc : CallGood config s kind n) (hs : StoreGood config s) (ho : o ∈ s.store.operations)
    (hmatches : ∀ call, kind = .run call → call.Matches config o)
    (hn : ∀ sessionId id, (sessionId, id) ∈ n'.named → (sessionId, id) ∈ n.named ∨ id = o.id ∧ sessionId = o.sessionId)
    (hseen : ∀ o' ∈ n'.seen, o' ∈ n.seen ∨ o' = o) (hread : n'.read = n.read) : CallGood config s kind n' where
  named sessionId id hmem := by
    rcases hn sessionId id hmem with hmem | ⟨rfl, rfl⟩
    · exact hc.named sessionId id hmem
    · exact ⟨o, ho, rfl, rfl⟩
  seen o' hmem := by
    rcases hseen o' hmem with hmem | rfl
    · exact hc.seen o' hmem
    · exact ⟨(hs.truthful o' ho).reported, ⟨o', ho, .refl⟩, hmatches⟩
  read := hread ▸ hc.read

/-- An update that is warranted. -/
theorem advances_update {status : OperationStatus} {fields : OperationFields} {operations : Table Operation}
    (hs : StoreGood config s) (hown : ∀ call, kind = .run call → n.admitted = true → OwnGood config s call n)
    (hw : Warranted kind s n id status fields.exitCode)
    (hup : updateOperation s.store.operations id status fields = some operations)
    (hcall : StoreGood config (s.setOperations operations) → Moves s (s.setOperations operations) →
      CallGood config (s.setOperations operations) kind n')
    (hadmitted : n'.admitted = n.admitted) (hpasted : n'.pasted = n.pasted)
    (hstarted : n'.started = true → n.started = true ∨ status = .RUNNING)
    (hfailed : n'.failed = false → n.failed = false ∧ ¬(status = .FAILED ∧ fields.exitCode = none)) :
    Advances config kind s (s.setOperations operations) n n' := by
  have hmoves := moves_update hup hw.progress
  have hstore : StoreGood config (s.setOperations operations) := by
    refine storeGood_update hs hup hw.progress hw.code hw.succeeded fun hf hnone => ?_
    obtain ⟨call, hkind, hadm, rfl⟩ := hw.own (.inr ⟨hf, hnone⟩)
    exact (hown call hkind hadm).unpasted (hw.unpasted hf hnone)
  refine ⟨hstore, hcall hstore hmoves, fun call hkind hadm => ?_, hmoves, fun id' hid' => ?_, fun call _ h h' => ?_⟩
  · refine ownGood_update (hown call hkind (hadmitted ▸ hadm)) hup hw.progress hpasted (fun h => ?_) hfailed
    refine (hstarted h).imp_right fun hrunning => ?_
    obtain ⟨call', hkind', -, rfl⟩ := hw.own (.inl hrunning)
    rw [Command.run.inj (hkind.symm.trans hkind')]
  · refine spares_update hup fun heq hoff => ?_
    obtain ⟨call, hkind, hadm, rfl⟩ := hw.own (.inr hoff)
    exact hid' call hkind hadm heq.symm
  · rw [hadmitted, h] at h'
    cases h'

/-- What a call writes about its own operation. -/
theorem warranted_of_writes {status : OperationStatus} {exitCode : Option Nat}
    (hwrites : call.Writes n id status exitCode) : Warranted (.run call) s n id status exitCode := by
  obtain ⟨hadmitted, rfl, rfl, hstatus⟩ := hwrites
  have hown : ∃ call', Command.run call = .run call' ∧ n.admitted = true ∧ call.operationId = call'.operationId :=
    ⟨call, rfl, hadmitted, rfl⟩
  rcases hstatus with ⟨rfl, hpasted⟩ | rfl | rfl
  · exact ⟨nofun, nofun, nofun, fun _ => hown, fun _ _ => hpasted⟩
  · exact ⟨nofun, nofun, nofun, fun _ => hown, nofun⟩
  · exact ⟨nofun, nofun, nofun, fun _ => hown, nofun⟩

/-- The exit code of a record is in what it reads, whatever its time is. -/
theorem completion_of_raw {raw : List Char} {mtime code time : Nat}
    (h : ExitRecord.completion ⟨raw, mtime⟩ = .ok (code, time)) (mtime' : Nat) :
    ExitRecord.completion ⟨raw, mtime'⟩ = .ok (code, mtime') := by
  unfold ExitRecord.completion at h ⊢
  split at h
  · rename_i hraw
    dsimp only at h
    split at h
    · cases h
    · rename_i hcode
      obtain ⟨rfl, -⟩ := Prod.mk.inj (Except.ok.inj h)
      rw [if_pos hraw, if_neg hcode]
  · cases h

/-- What is written about an operation that was found. -/
theorem warranted_of_settles {status : OperationStatus} {exitCode : Option Nat} (hc : CallGood config s kind n)
    (hsettles : n.Settles id status exitCode) : Warranted kind s n id status exitCode := by
  obtain ⟨sessionId, hnamed, ⟨rfl, rfl⟩ | ⟨raw, mtime, code, time, hread, hcompletion, rfl, rfl⟩⟩ := hsettles
  · exact ⟨nofun, nofun, nofun, by simp, nofun⟩
  · obtain ⟨o, ho, rfl, rfl⟩ := hc.named sessionId id hnamed
    obtain ⟨mtime', hmem⟩ := hc.read o.sessionId o.id raw hread
    -- the code is in what was read, whatever the time is
    have hpublished : s.Published o.sessionId o.id code := ⟨_, _, hmem, completion_of_raw hcompletion mtime'⟩
    refine ⟨by split <;> exact nofun, ?_, ?_, ?_, nofun⟩
    · rintro code' heq
      obtain rfl := Option.some.inj heq
      refine ⟨rfl, fun o' ho' hid => ?_⟩
      rw [eq_of_id ho' ho hid]
      exact hpublished
    · by_cases hcode : code = 0
      · exact fun _ => by rw [hcode]
      · rw [if_neg hcode]
        exact nofun
    · rintro (h | ⟨-, h⟩)
      · split at h <;> cases h
      · cases h

/-- The row of an operation is there, and its line is not pasted. -/
theorem advances_insert {operations : Table Operation} (hs : StoreGood config s) (hid : o.id = call.operationId)
    (hmatches : call.Matches config o) (haccepted : o.status = .ACCEPTED) (hcode : o.exitCode = none)
    (hinsert : s.store.operations.insert o = some operations) :
    Advances config (.run call) s (s.setOperations operations) .nothing
      { Done.nothing with admitted := true, seen := [o] } := by
  have hfresh : ∀ x ∈ s.store.operations, x.id ≠ call.operationId := by
    intro x hx heq
    have hclash := (Table.insert_eq_some hinsert).2 x hx
    simp [clash, Operation.clashes, heq, hid] at hclash
  have hmem : ∀ {x}, x ∈ operations ↔ x ∈ s.store.operations ∨ x = o := Table.mem_insert hinsert
  -- what is pasted has a row, and this one is new
  have hunpasted : ¬s.Pasted call.operationId := by
    rintro ⟨line, hline, key, hcommand⟩
    obtain ⟨call', rfl, x, hx, hidx, -⟩ := hs.owned line hline (by simp [hcommand])
    obtain ⟨-, heq⟩ := Prod.mk.inj (Option.some.inj hcommand)
    exact hfresh x hx (hidx.trans heq)
  have hnot : ¬WrittenOff o := fun h => by
    rw [WrittenOff, haccepted] at h
    cases h.1
  have hmoves : Moves s (s.setOperations operations) :=
    ⟨Table.Grows.insert (fun _ => ⟨.refl, fun h => h⟩) hinsert, fun _ hx => hx⟩
  have hstore : StoreGood config (s.setOperations operations) := by
    refine ⟨fun x hx => ?_, hs.records, fun line hline hcommand => ?_, hs.once⟩
    · rcases hmem.mp hx with hx | rfl
      · obtain ⟨⟨hcode, hsucceeded⟩, hunpasted⟩ := hs.truthful x hx
        exact ⟨⟨hcode, hsucceeded⟩, hunpasted⟩
      · refine ⟨⟨by simp [hcode], by simp [haccepted]⟩, fun _ => ?_⟩
        rw [hid]
        exact hunpasted
    · obtain ⟨call', heq, x, hx, h⟩ := hs.owned line hline hcommand
      exact ⟨call', heq, x, hmem.mpr (.inl hx), h⟩
  have hrow : o ∈ (s.setOperations operations).store.operations := hmem.mpr (.inr rfl)
  refine ⟨hstore, ⟨nofun, fun x hx => ?_, nofun⟩, fun call' hcall _ => ?_, hmoves, fun id _ => ⟨?_, fun h => h⟩, ?_⟩
  · obtain rfl := List.mem_singleton.mp hx
    refine ⟨(hstore.truthful x hrow).reported, ⟨x, hrow, .refl⟩, fun call' hcall => ?_⟩
    rw [← Command.run.inj hcall]
    exact hmatches
  · rw [← Command.run.inj hcall]
    exact ⟨⟨o, hrow, hid, hmatches, nofun, fun _ => hnot⟩, fun _ => hunpasted⟩
  · intro x hx hidx hoff
    rcases hmem.mp hx with hx | rfl
    · exact ⟨x, hx, hidx, hoff⟩
    · exact absurd hoff hnot
  · rintro call' hcall - - x hx
    rw [← Command.run.inj hcall]
    exact hfresh x hx

theorem advances_written {status : OperationStatus} {fields : OperationFields} {operations : Table Operation}
    (hs : StoreGood config s) (hc : CallGood config s kind n)
    (hown : ∀ call, kind = .run call → n.admitted = true → OwnGood config s call n)
    (hallowed : (LedgerOp.update id status fields).Allowed config kind n)
    (hup : updateOperation s.store.operations id status fields = some operations) :
    Advances config kind s (s.setOperations operations) n (n.noted (.update id status fields) ()) := by
  have hw : Warranted kind s n id status fields.exitCode := by
    rcases hallowed with ⟨call, rfl, hwrites⟩ | hsettles
    · exact warranted_of_writes hwrites
    · exact warranted_of_settles hc hsettles
  cases status with
  | FAILED =>
    refine advances_update hs hown hw hup (fun _ hm => (hc.moves hm).same rfl rfl rfl) rfl rfl .inl fun h => ?_
    obtain ⟨hfailed, hnone⟩ := Bool.or_eq_false_iff.mp h
    exact ⟨hfailed, fun hoff => by simp [hoff.2] at hnone⟩
  | RUNNING =>
    exact advances_update hs hown hw hup (fun _ hm => (hc.moves hm).same rfl rfl rfl) rfl rfl (fun _ => .inr rfl)
      fun h => ⟨h, nofun⟩
  | ACCEPTED | SUCCEEDED | INTERRUPTED | UNKNOWN =>
    exact advances_update hs hown hw hup (fun _ hm => hc.moves hm) rfl rfl .inl fun h => ⟨h, nofun⟩

/-- An operation that is looked for. -/
theorem CallGood.found {id sessionId : String} (hc : CallGood config s kind n) (hs : StoreGood config s)
    (hown : ∀ call, kind = .run call → n.admitted = true → OwnGood config s call n)
    (hallowed : (LedgerOp.operation id sessionId).Allowed config kind n) :
    CallGood config s kind (n.noted (.operation id sessionId)
      (s.store.operations.select fun o => o.id == id && o.sessionId == sessionId)) := by
  cases hselect : s.store.operations.select fun o => o.id == id && o.sessionId == sessionId with
  | none => exact hc
  | some o =>
    obtain ⟨ho, hkeys⟩ := Table.mem_of_select hselect
    simp only [Bool.and_eq_true, beq_iff_eq] at hkeys
    refine hc.find hs ho (fun call hkind => ?_) (fun sessionId' id' hmem => ?_) (fun o' hmem => ?_) rfl
    · -- the row of a call has the id that it looks for
      obtain ⟨hadmitted, hid, -⟩ := hallowed call hkind
      obtain ⟨o', ho', hid', hmatches, -⟩ := (hown call hkind hadmitted).row
      rwa [eq_of_id ho ho' (hkeys.1.trans (hid.trans hid'.symm))]
    · rcases List.mem_cons.mp hmem with heq | hmem
      · obtain ⟨rfl, rfl⟩ := Prod.mk.inj heq
        exact .inr ⟨hkeys.1.symm, hkeys.2.symm⟩
      · exact .inl hmem
    · exact (List.mem_cons.mp hmem).symm

/-- An operation is admitted, or is one that was. -/
theorem advances_admitOperation (hs : StoreGood config s) (hallowed : (LedgerOp.admission o).Allowed config kind n) :
    Advances config kind s (s.setOperations (admitOperation s.store o).2) n
      (n.noted (.admission o) (admitOperation s.store o).1) := by
  obtain ⟨call, rfl, rfl, hid, hmatches, haccepted, hcode⟩ := hallowed
  have hnothing : CallGood config s (.run call) .nothing := ⟨nofun, nofun, nofun⟩
  unfold admitOperation
  split
  · rename_i existing hselect
    obtain ⟨hmem, hkeys⟩ := Table.mem_of_select hselect
    simp only [Bool.and_eq_true, beq_iff_eq] at hkeys
    split
    · rename_i hfingerprint
      -- the operation is bound to the key already
      refine advances_quiet hs nofun rfl rfl rfl (fun _ _ _ h => h) (hnothing.find hs hmem ?_ nofun ?_ rfl)
        ⟨rfl, rfl, rfl, rfl⟩
      · rintro call' hcall
        obtain rfl := Command.run.inj hcall
        exact ⟨hkeys.1.trans hmatches.session, hkeys.2.trans hmatches.key,
          (beq_iff_eq.mp hfingerprint).trans hmatches.fingerprint⟩
      · exact fun o' h => .inr (List.mem_singleton.mp h)
    · exact advances_quiet hs nofun rfl rfl rfl (fun _ _ _ h => h) hnothing ⟨rfl, rfl, rfl, rfl⟩
  · split
    · exact advances_quiet hs nofun rfl rfl rfl (fun _ _ _ h => h) hnothing ⟨rfl, rfl, rfl, rfl⟩
    · split
      · exact advances_quiet hs nofun rfl rfl rfl (fun _ _ _ h => h) hnothing ⟨rfl, rfl, rfl, rfl⟩
      · split
        · rename_i operations hinsert
          exact advances_insert hs hid hmatches haccepted hcode hinsert
        · exact advances_quiet hs nofun rfl rfl rfl (fun _ _ _ h => h) hnothing ⟨rfl, rfl, rfl, rfl⟩

/-- A line is pasted: an input, or that of the call. -/
theorem advances_paste {line : Line} (heard : Bool) (hs : StoreGood config s) (hc : CallGood config s kind n)
    (hown : ∀ call, kind = .run call → n.admitted = true → OwnGood config s call n)
    (hallowed : (LedgerOp.pasteBuffer line).Allowed config kind n) :
    Advances config kind s { s with lines := s.lines ++ [line] } n (n.noted (.pasteBuffer line) heard) := by
  have hmoves : Moves s { s with lines := s.lines ++ [line] } :=
    ⟨Table.Grows.refl fun _ => ⟨.refl, fun h => h⟩, fun _ hx => hx⟩
  -- no other line than that of the call is pasted
  have hpasted : ∀ id, CommandHost.Pasted { s with lines := s.lines ++ [line] } id →
      s.Pasted id ∨ ∃ call, kind = .run call ∧ n.admitted = true ∧ n.started = true ∧ n.failed = false ∧
        id = call.operationId := by
    rintro id ⟨line', hline, key, hcommand⟩
    rcases List.mem_append.mp hline with hline | hline
    · exact .inl ⟨line', hline, key, hcommand⟩
    · obtain rfl := List.mem_singleton.mp hline
      rcases hallowed with hnone | ⟨call, rfl, hadmitted, hstarted, -, hfailed, rfl⟩
      · rw [hnone] at hcommand
        cases hcommand
      · exact .inr ⟨call, rfl, hadmitted, hstarted, hfailed, (Prod.mk.inj (Option.some.inj hcommand)).2.symm⟩
  refine ⟨⟨fun o ho => ?_, hs.records, fun line' hline hcommand => ?_, ?_⟩, (hc.moves hmoves).same rfl rfl rfl,
    fun call hkind hadmitted => ⟨(hown call hkind hadmitted).row, nofun⟩, hmoves, fun id hid => ?_, ?_⟩
  · obtain ⟨hreported, hunpasted⟩ := hs.truthful o ho
    refine ⟨hreported.moves hmoves, fun h hp => ?_⟩
    rcases hpasted o.id hp with hp | ⟨call, hkind, hadmitted, hstarted, hfailed, hid⟩
    · exact hunpasted h hp
    · obtain ⟨o', ho', hid', -, hprogress, hoff⟩ := (hown call hkind hadmitted).row
      obtain rfl := eq_of_id ho ho' (hid.trans hid'.symm)
      rcases h with h | h
      · exact hprogress hstarted h
      · exact hoff hfailed h
  · rcases List.mem_append.mp hline with hline | hline
    · exact hs.owned line' hline hcommand
    · obtain rfl := List.mem_singleton.mp hline
      rcases hallowed with hnone | ⟨call, hkind, hadmitted, -, -, -, rfl⟩
      · exact absurd hnone hcommand
      · obtain ⟨o, ho, hid, hmatches, -⟩ := (hown call hkind hadmitted).row
        exact ⟨call, rfl, o, ho, hid, hmatches⟩
  · rw [List.filterMap_append]
    rcases hallowed with hnone | ⟨call, hkind, hadmitted, -, hnot, -, rfl⟩
    · simpa [hnone] using hs.once
    · refine List.nodup_append.mpr ⟨hs.once, List.nodup_singleton _, fun a ha b hb heq => ?_⟩
      obtain rfl : b = call.operationId := by simpa [RunCall.line] using hb
      obtain ⟨line', hline, h⟩ := List.mem_filterMap.mp ha
      obtain ⟨⟨key, id⟩, hcommand, rfl⟩ := Option.map_eq_some_iff.mp h
      exact (hown call hkind hadmitted).unpasted hnot ⟨line', hline, key, heq ▸ hcommand⟩
  · refine ⟨fun o ho hido hoff => ⟨o, ho, hido, hoff⟩, fun hp => ?_⟩
    rcases hpasted id hp with hp | ⟨call, hkind, hadmitted, -, -, rfl⟩
    · exact hp
    · exact absurd rfl (hid call hkind hadmitted)
  · intro call _ h h'
    exact absurd (h'.symm.trans h) nofun

/-- The active operation of a session is interrupted, if there is one. -/
theorem advances_interrupt {sessionId : String} {now : Nat} {shown : Option Operation} {operations : Table Operation}
    (hs : StoreGood config s) (hc : CallGood config s kind n)
    (hown : ∀ call, kind = .run call → n.admitted = true → OwnGood config s call n) (hkind : ∀ call, kind ≠ .run call)
    (hinterrupt : interruptActiveOperation s.store.operations sessionId now = some (shown, operations)) :
    Advances config kind s (s.setOperations operations) n (n.noted (.interruptActive sessionId now) shown) := by
  unfold interruptActiveOperation at hinterrupt
  split at hinterrupt
  · obtain ⟨rfl, rfl⟩ := Prod.mk.inj (Option.some.inj hinterrupt)
    exact advances_quiet hs hown rfl rfl rfl (fun _ _ _ h => h) hc ⟨rfl, rfl, rfl, rfl⟩
  · rename_i active _
    obtain ⟨operations', hup, heq⟩ := Option.map_eq_some_iff.mp hinterrupt
    obtain ⟨rfl, rfl⟩ := Prod.mk.inj heq
    have hw : Warranted kind s n active.id .INTERRUPTED none := ⟨nofun, nofun, nofun, by simp, nofun⟩
    refine advances_update hs hown hw hup (fun hs' hm => ?_) rfl rfl .inl fun h => ⟨h, nofun⟩
    cases hselect : operations'.select fun o => o.id == active.id with
    | none => exact hc.moves hm
    | some o =>
      exact (hc.moves hm).find hs' (Table.mem_of_select hselect).1 (fun call h => absurd h (hkind call))
        (fun _ _ hmem => .inl hmem) (fun o' hmem => (List.mem_cons.mp hmem).symm) rfl

theorem records_setRecords {sessionId sessionId' : String} {records : KeyedMap String ExitRecord} :
    (s.setRecords sessionId records).records sessionId' =
      if sessionId' = sessionId then records else s.records sessionId' := by
  unfold CommandHost.records CommandHost.setRecords
  split
  · rename_i heq
    rw [heq, AList.lookup_insert]
    rfl
  · rename_i hne
    simp [AList.lookup_insert_ne hne]

/-- The records of a session are fewer, or the same. -/
theorem advances_records {sessionId : String} {records : KeyedMap String ExitRecord} (hs : StoreGood config s)
    (hc : CallGood config s kind n) (hown : ∀ call, kind = .run call → n.admitted = true → OwnGood config s call n)
    (hrecords : ∀ id record, records.lookup id = some record → (s.records sessionId).lookup id = some record) :
    Advances config kind s (s.setRecords sessionId records) n n := by
  refine advances_quiet hs hown rfl rfl rfl (fun sessionId' id record h => ?_) hc ⟨rfl, rfl, rfl, rfl⟩
  rw [records_setRecords] at h
  split at h
  · rename_i heq
    rw [heq]
    exact hrecords id record h
  · exact h

/-- **What an operation of a call leads to.** -/
theorem advances_exec {β : Type} {op : CommandOp β} {b : β} (hs : StoreGood config s) (hc : CallGood config s kind n)
    (hown : ∀ call, kind = .run call → n.admitted = true → OwnGood config s call n)
    (hallowed : op.Allowed config kind n) (hexec : op.exec s = .ok (b, s')) :
    Advances config kind s s' n (n.noting op b) := by
  -- most operations leave the ledger and the terminal as they are
  have hquiet : ∀ n' : Done, CallGood config s kind n' →
      n'.admitted = n.admitted ∧ n'.failed = n.failed ∧ n'.started = n.started ∧ n'.pasted = n.pasted →
      Advances config kind s s n n' := fun n' => advances_quiet hs hown rfl rfl rfl fun _ _ _ h => h
  have hsame : Advances config kind s s n n := hquiet n hc ⟨rfl, rfl, rfl, rfl⟩
  cases op with
  | host op =>
    change (op.exec s.store.host).map _ = _ at hexec
    rcases hop : op.exec s.store.host with e | r
    · rw [hop] at hexec
      cases hexec
    · rw [hop] at hexec
      obtain ⟨rfl, rfl⟩ := Prod.mk.inj (Except.ok.inj hexec)
      exact advances_quiet hs hown rfl rfl rfl (fun _ _ _ h => h) hc ⟨rfl, rfl, rfl, rfl⟩
  | ledger op =>
    cases op with
    | admission o =>
      obtain ⟨rfl, rfl⟩ := Prod.mk.inj (Except.ok.inj hexec)
      exact advances_admitOperation hs hallowed
    | update id status fields =>
      simp only [CommandOp.exec, LedgerOp.exec] at hexec
      split at hexec
      · rename_i operations hup
        obtain ⟨rfl, rfl⟩ := Prod.mk.inj (Except.ok.inj hexec)
        exact advances_written hs hc hown hallowed hup
      · cases hexec
    | operation id sessionId =>
      obtain ⟨rfl, rfl⟩ := Prod.mk.inj (Except.ok.inj hexec)
      refine hquiet _ (hc.found hs hown hallowed) ?_
      rcases s.store.operations.select fun o => o.id == id && o.sessionId == sessionId with _ | o
      · exact ⟨rfl, rfl, rfl, rfl⟩
      · exact ⟨rfl, rfl, rfl, rfl⟩
    | uncertain =>
      obtain ⟨rfl, rfl⟩ := Prod.mk.inj (Except.ok.inj hexec)
      refine hquiet _ ⟨fun sessionId id hmem => ?_, hc.seen, hc.read⟩ ⟨rfl, rfl, rfl, rfl⟩
      rcases List.mem_append.mp hmem with hmem | hmem
      · obtain ⟨o, ho, heq⟩ := List.mem_map.mp hmem
        obtain ⟨rfl, rfl⟩ := Prod.mk.inj heq
        exact ⟨o, List.mem_of_mem_filter ho, rfl, rfl⟩
      · exact hc.named sessionId id hmem
    | interruptActive sessionId now =>
      simp only [CommandOp.exec, LedgerOp.exec] at hexec
      split at hexec
      · rename_i o operations hinterrupt
        obtain ⟨rfl, rfl⟩ := Prod.mk.inj (Except.ok.inj hexec)
        exact advances_interrupt hs hc hown hallowed hinterrupt
      · cases hexec
    | mkdirControls sessionId =>
      obtain ⟨rfl, rfl⟩ := Prod.mk.inj (Except.ok.inj hexec)
      exact advances_records hs hc hown fun _ _ h => h
    | removeRecord sessionId operationId =>
      obtain ⟨rfl, rfl⟩ := Prod.mk.inj (Except.ok.inj hexec)
      exact advances_records hs hc hown fun _ _ h => (KeyedMap.lookup_erase_iff.mp h).2
    | readRecord sessionId operationId =>
      simp only [CommandOp.exec, LedgerOp.exec] at hexec
      split at hexec
      · rename_i record hrecord
        obtain ⟨rfl, rfl⟩ := Prod.mk.inj (Except.ok.inj hexec)
        refine hquiet _ ⟨hc.named, hc.seen, fun sessionId' id raw hmem => ?_⟩ ⟨rfl, rfl, rfl, rfl⟩
        rcases List.mem_cons.mp hmem with heq | hmem
        · obtain ⟨rfl, rfl, rfl⟩ : sessionId' = sessionId ∧ id = operationId ∧ raw = record.raw := by simpa using heq
          exact ⟨record.mtime, hs.records _ _ _ hrecord⟩
        · exact hc.read sessionId' id raw hmem
      · cases hexec
    | statRecord sessionId operationId =>
      simp only [CommandOp.exec, LedgerOp.exec] at hexec
      split at hexec
      · obtain ⟨rfl, rfl⟩ := Prod.mk.inj (Except.ok.inj hexec)
        exact hsame
      · cases hexec
    | pasteBuffer line =>
      obtain ⟨rfl, rfl⟩ := Prod.mk.inj (Except.ok.inj hexec)
      exact advances_paste s.heard hs hc hown hallowed
    | sendKeys sessionId =>
      simp only [CommandOp.exec, LedgerOp.exec] at hexec
      split at hexec
      · obtain ⟨rfl, rfl⟩ := Prod.mk.inj (Except.ok.inj hexec)
        exact hsame
      · cases hexec
    | fingerprintKey | removePart | writeInput | loadBuffer | removeInput =>
      obtain ⟨rfl, rfl⟩ := Prod.mk.inj (Except.ok.inj hexec)
      exact hsame

/-- What happens by itself touches neither the ledger nor the terminal. -/
theorem aside_good {e : Aside} (hs : StoreGood config s) :
    StoreGood config (e.apply s) ∧ Moves s (e.apply s) ∧ ∀ id, Spares id s (e.apply s) := by
  have hmoves : Moves s (e.apply s) := by
    refine ⟨?_, ?_⟩
    · cases e <;> exact Table.Grows.refl fun _ => ⟨.refl, fun h => h⟩
    · cases e with
      | publishes sessionId operationId record => exact fun x hx => List.mem_append_left _ hx
      | _ => exact fun x hx => hx
  have hspares : ∀ id, Spares id s (e.apply s) := by
    intro id
    cases e <;> exact ⟨fun o ho hid hoff => ⟨o, ho, hid, hoff⟩, fun h => h⟩
  refine ⟨⟨fun o ho => ?_, ?_, ?_, ?_⟩, hmoves, hspares⟩
  · have hmem : o ∈ s.store.operations := by cases e <;> exact ho
    obtain ⟨hreported, hunpasted⟩ := hs.truthful o hmem
    exact ⟨hreported.moves hmoves, fun h hp => hunpasted h ((hspares o.id).pasted hp)⟩
  · cases e with
    | publishes sessionId operationId record =>
      intro sessionId' id record' h
      change ((s.setRecords sessionId _).records sessionId').lookup id = some record' at h
      rw [records_setRecords] at h
      split at h
      · rename_i heq
        rcases KeyedMap.lookup_insert_iff.mp h with ⟨rfl, rfl⟩ | ⟨-, h⟩
        · exact List.mem_append_right _ (by simp [heq])
        · exact List.mem_append_left _ (hs.records _ _ _ (heq ▸ h))
      · exact List.mem_append_left _ (hs.records _ _ _ h)
    | removes sessionId operationId =>
      intro sessionId' id record h
      change ((s.setRecords sessionId _).records sessionId').lookup id = some record at h
      rw [records_setRecords] at h
      split at h
      · rename_i heq
        exact hs.records _ _ _ (heq ▸ (KeyedMap.lookup_erase_iff.mp h).2)
      · exact hs.records _ _ _ h
    | host | heard | key => exact hs.records
  · cases e <;> exact hs.owned
  · cases e <;> exact hs.once

/-! ## The pool -/

variable {p p' : CommandPool} {i : Nat}
  {l : Event Command Done Aside (Except Thrown Reply)}
  {h : CommandHistory}

/-- One call moves on, or ends, and the others stay where they are. -/
theorem PoolGood.put (hp : PoolGood config p)
    {c : Option (InFlight CommandOp FsError Command Done (Except Thrown Reply))} (hstore : StoreGood config s')
    (hmoves : Moves p.store s')
    (hspares : ∀ j d call, j ≠ i → p.calls j = some d → d.kind = .run call → d.notes.admitted = true →
      Spares call.operationId p.store s')
    (hc : ∀ d, c = some d → CallGood config s' d.kind d.notes ∧
      ∀ call, d.kind = .run call → d.notes.admitted = true → OwnGood config s' call d.notes ∧
        ∀ j e call', j ≠ i → p.calls j = some e → e.kind = .run call' → e.notes.admitted = true →
          call.operationId ≠ call'.operationId) :
    PoolGood config { p.put i c with store := s' } := by
  refine ⟨hstore, fun j d hd => ?_, fun j d call hd hkind hadmitted => ?_, ?_⟩
  · rcases Pool.put_cases hd with ⟨-, rfl⟩ | ⟨-, hd⟩
    · exact (hc d rfl).1
    · exact (hp.calls j d hd).moves hmoves
  · rcases Pool.put_cases hd with ⟨-, rfl⟩ | ⟨hj, hd⟩
    · exact ((hc d rfl).2 call hkind hadmitted).1
    · exact (hp.own j d call hd hkind hadmitted).moves hmoves (hspares j d call hj hd hkind hadmitted)
  · intro j k d e call call' hd he hkind hkind' hadmitted hadmitted' hid
    rcases Pool.put_cases hd with ⟨hj, hd⟩ | ⟨hj, hd⟩
    · rcases Pool.put_cases he with ⟨hk, -⟩ | ⟨hk, he⟩
      · exact hj.trans hk.symm
      · exact absurd hid (((hc d hd).2 call hkind hadmitted).2 k e call' hk he hkind' hadmitted')
    · rcases Pool.put_cases he with ⟨-, he⟩ | ⟨-, he⟩
      · exact absurd hid.symm (((hc e he).2 call' hkind' hadmitted').2 j d call hj hd hkind hadmitted)
      · exact hp.alone j k d e call call' hd he hkind hkind' hadmitted hadmitted' hid

/-- What a call in flight may still do, and how it ends. -/
theorem commands_due {s : CommandHost} (hpath : Path (Pool.Step (commands config)) (Pool.still s) h p) :
    ∀ i c, p.calls i = some c → Due (fun kind {_} op n => CommandOp.Allowed config kind op n) (fun _ {_} => Done.after)
      (fun _ => Ends) (fun _ known n => known = n) c := by
  refine Pool.call_due _ _ _ _ (fun _ => .nothing) (fun kind => along_program) (fun _ => rfl) ?_
    (fun _ _ hc => absurd hc (by simp [Pool.still])) hpath
  rintro kind known n γ op r s s' rfl - -
  cases r <;> rfl

/-- **A step keeps the pool good**, and moves its store on. -/
theorem poolGood_step (hp : PoolGood config p)
    (hdue : ∀ i c, p.calls i = some c → Due (fun kind {_} op n => CommandOp.Allowed config kind op n)
      (fun _ {_} => Done.after) (fun _ => Ends) (fun _ known n => known = n) c)
    (hs : Pool.Step (commands config) p l p') : PoolGood config p' ∧ Moves p.store p'.store := by
  cases hs with
  | @begins i kind hi =>
    refine ⟨hp.put hp.store .refl (fun _ _ _ _ _ _ _ => .refl) fun d hd => ?_, .refl⟩
    obtain rfl := Option.some.inj hd
    exact ⟨⟨nofun, nofun, nofun⟩, nofun⟩
  | @operates i kind n β op k r s hi hready hans =>
    have hcall := hp.calls i _ hi
    have hown := fun call => hp.own i _ call hi
    have hsame : ∀ e : FsError, PoolGood config (p.put i (some ⟨kind, n, k (.error e)⟩)) := by
      intro e
      refine hp.put hp.store .refl (fun _ _ _ _ _ _ _ => .refl) fun d hd => ?_
      obtain rfl := Option.some.inj hd
      refine ⟨hcall, fun call hkind hadmitted => ⟨hown call hkind hadmitted, ?_⟩⟩
      intro j e call' hj he hkind' hadmitted' hid
      exact hj (hp.alone i j _ e call call' hi he hkind hkind' hadmitted hadmitted' hid).symm
    obtain ⟨known, ⟨hallowed, -⟩, rfl⟩ := hdue i _ hi
    cases hans with
    | effect hexec =>
      have hadv := advances_exec hp.store hcall hown hallowed hexec
      refine ⟨hp.put hadv.store hadv.moves (fun j d call hj hd hkind hadmitted => ?_) fun d hd => ?_, hadv.moves⟩
      · refine hadv.spares _ fun call' hkind' hadmitted' hid => ?_
        exact hj (hp.alone i j _ d call' call hi hd hkind' hkind hadmitted' hadmitted hid).symm
      · obtain rfl := Option.some.inj hd
        refine ⟨hadv.call, fun call hkind hadmitted => ⟨hadv.own call hkind hadmitted, ?_⟩⟩
        intro j e call' hj he hkind' hadmitted' hid
        cases hbefore : known.admitted with
        | true => exact hj (hp.alone i j _ e call call' hi he hkind hkind' hbefore hadmitted' hid).symm
        | false =>
          obtain ⟨o, ho, hido, -⟩ := (hp.own j e call' he hkind' hadmitted').row
          exact hadv.fresh call hkind hbefore hadmitted o ho (hido.trans hid.symm)
    | refusal he => exact ⟨hsame _, .refl⟩
    | fault hf => exact ⟨hsame _, .refl⟩
  | @returns i kind n a hi =>
    exact ⟨hp.put hp.store .refl (fun _ _ _ _ _ _ _ => .refl) nofun, .refl⟩
  | @elsewhere e s he =>
    obtain rfl : s = e.apply p.store := he
    obtain ⟨hstore, hmoves, hspares⟩ := aside_good hp.store (e := e)
    refine ⟨⟨hstore, fun j c hc => (hp.calls j c hc).moves hmoves, fun j c call hc hkind hadmitted => ?_, hp.alone⟩,
      hmoves⟩
    exact (hp.own j c call hc hkind hadmitted).moves hmoves (hspares _)

/-- The session, the key and the command of a call are those of what it returns, and what a reply says is so. -/
theorem Ends.good {reply : Reply} (hends : Ends (.ok reply) n) (hc : CallGood config s kind n) :
    reply.Reported s ∧ ∀ call response, kind = .run call → reply = .command response →
      ∃ o ∈ s.store.operations, o.id = response.operationId ∧ call.Matches config o := by
  have habout := hends reply rfl
  constructor
  · cases reply with
    | command response =>
      obtain ⟨o, ho, cursor, output, rfl⟩ := habout
      exact (hc.seen o ho).1
    | operation shown =>
      rintro o' rfl
      obtain ⟨o, ho, rfl⟩ := habout o' rfl
      exact (hc.seen o ho).1
    | nothing => trivial
  · rintro call response hkind rfl
    obtain ⟨o, ho, cursor, output, rfl⟩ := habout
    obtain ⟨-, ⟨o', ho', hsame⟩, hmatches⟩ := hc.seen o ho
    exact ⟨o', ho', hsame.id, hsame.matches (hmatches call hkind)⟩

end Invariant

/-! ## Runs -/

/-- A host that has not had a command yet. -/
def CommandHost.unused (host : Host) (keyValid heard : Bool) : CommandHost where
  store := ⟨host, .empty, ∅⟩
  lines := []
  published := []
  keyValid := keyValid
  heard := heard

section Runs

variable {config} {host : Host} {keyValid heard : Bool}
  {p : CommandPool}
  {h : CommandHistory}

theorem poolGood_unused : PoolGood config (.still (.unused host keyValid heard)) := by
  refine ⟨⟨nofun, fun sessionId id record h => ?_, nofun, List.nodup_nil⟩, ?_, ?_, ?_⟩
  · exact absurd h (by simp [Pool.still, CommandHost.unused, CommandHost.records])
  · exact fun i c hc => absurd hc (by simp [Pool.still])
  · exact fun i c call hc => absurd hc (by simp [Pool.still])
  · exact fun i j c c' call call' hc => absurd hc (by simp [Pool.still])

/-- **A run keeps the pool good.** What a call has found when it returns is there to the end, and so is every row. -/
theorem poolGood_run (hpath : Path (Pool.Step (commands config)) (.still (.unused host keyValid heard)) h p) :
    PoolGood config p ∧ ∀ x ∈ h, Moves x.2.store p.store ∧
      ∀ i kind n r, x.1 = .returns i kind n r → CallGood config p.store kind n ∧ Ends r n := by
  refine hpath.history (I := fun h p => PoolGood config p ∧ ∀ x ∈ h, Moves x.2.store p.store ∧
    ∀ i kind n r, x.1 = .returns i kind n r → CallGood config p.store kind n ∧ Ends r n) 
    ⟨poolGood_unused, fun x hx => absurd hx List.not_mem_nil⟩ ?_
  rintro h q l q' hq ⟨hgood, hall⟩ hs
  obtain ⟨hgood', hmoves⟩ := poolGood_step hgood (commands_due hq) hs
  refine ⟨hgood', fun x hx => ?_⟩
  rcases List.mem_append.mp hx with hx | hx
  · obtain ⟨hm, hreturns⟩ := hall x hx
    refine ⟨hm.trans hmoves, fun i kind n r heq => ?_⟩
    obtain ⟨hc, hends⟩ := hreturns i kind n r heq
    exact ⟨hc.moves hmoves, hends⟩
  · obtain rfl := List.mem_singleton.mp hx
    refine ⟨.refl, fun i kind n r heq => ?_⟩
    dsimp only at heq
    subst heq
    cases hs with
    | returns hi =>
      obtain ⟨known, hends, rfl⟩ := commands_due hq i _ hi
      exact ⟨(hgood.calls i _ hi).moves hmoves, hends⟩

/-- The lines of one key of a session are those of its one row, which is pasted once. -/
theorem StoreGood.length_le_one {s : CommandHost} {sessionId key : String} (hs : StoreGood config s) :
    (s.lines.filter fun line => line.sessionId = sessionId ∧ line.command.map Prod.fst = some key).length ≤ 1 := by
  -- what is pasted for the key has the id of the row
  have hrow : ∀ line ∈ s.lines, line.sessionId = sessionId → line.command.map Prod.fst = some key →
      ∃ o ∈ s.store.operations, o.sessionId = sessionId ∧ o.idempotencyKey = key ∧
        line.command.map Prod.snd = some o.id := by
    intro line hline hsession hkey
    obtain ⟨call, rfl, o, ho, hid, hmatches⟩ := hs.owned line hline fun hnone => by simp [hnone] at hkey
    exact ⟨o, ho, hmatches.session.trans hsession, hmatches.key.trans (Option.some.inj hkey), congrArg some hid.symm⟩
  have hmem : ∀ line ∈ s.lines.filter fun line => line.sessionId = sessionId ∧ line.command.map Prod.fst = some key,
      ∃ o ∈ s.store.operations, o.sessionId = sessionId ∧ o.idempotencyKey = key ∧
        line.command.map Prod.snd = some o.id := by
    intro line hline
    obtain ⟨hline, hkey⟩ := List.mem_filter.mp hline
    obtain ⟨hsession, hkey⟩ := of_decide_eq_true hkey
    exact hrow line hline hsession hkey
  have hnodup : ((s.lines.filter fun line =>
      line.sessionId = sessionId ∧ line.command.map Prod.fst = some key).filterMap
        fun line => line.command.map Prod.snd).Nodup := hs.once.sublist (List.filter_sublist.filterMap _)
  generalize (s.lines.filter fun line => line.sessionId = sessionId ∧ line.command.map Prod.fst = some key) = lines
    at hmem hnodup ⊢
  rcases lines with _ | ⟨a, _ | ⟨b, rest⟩⟩
  · exact Nat.zero_le 1
  · exact Nat.le_refl 1
  · obtain ⟨o, ho, hsession, hkey, ha⟩ := hmem a List.mem_cons_self
    obtain ⟨o', ho', hsession', hkey', hb⟩ := hmem b (List.mem_cons_of_mem _ List.mem_cons_self)
    obtain rfl := eq_of_key ho ho' (hsession.trans hsession'.symm) (hkey.trans hkey'.symm)
    simp only [List.filterMap_cons, ha, hb] at hnodup
    exact absurd List.mem_cons_self (List.nodup_cons.mp hnodup).1

/-- **A managed command is pasted at most once** for each key of a session, in every run of calls, monitors and
restarts, and only for a call that has the row. No row goes, or changes what it is about, and calls that return a
response for one key of a session return the operation of its row, which has their command. -/
theorem managed_command_once
    (hpath : Path (Pool.Step (commands config)) (.still (.unused host keyValid heard)) h p) :
    (∀ sessionId key, (p.store.lines.filter fun line =>
      line.sessionId = sessionId ∧ line.command.map Prod.fst = some key).length ≤ 1) ∧
    (∀ line ∈ p.store.lines, line.command ≠ none → ∃ call : RunCall, line = call.line config ∧
      ∃ o ∈ p.store.store.operations, o.id = call.operationId ∧ call.Matches config o) ∧
    (∀ x ∈ h, Table.Grows SameCommand x.2.store.store.operations p.store.store.operations) ∧
    (∀ x ∈ h, ∀ i call n response, x.1 = .returns i (.run call) n (.ok (.command response)) →
      ∃ o ∈ p.store.store.operations, o.id = response.operationId ∧ call.Matches config o) ∧
    ∀ x ∈ h, ∀ x' ∈ h, ∀ i i' call call' n n' response response',
      x.1 = .returns i (.run call) n (.ok (.command response)) →
      x'.1 = .returns i' (.run call') n' (.ok (.command response')) → call.sessionId = call'.sessionId →
      call.idempotencyKey = call'.idempotencyKey → response.operationId = response'.operationId ∧
        config.fingerprint call.command = config.fingerprint call'.command := by
  obtain ⟨hgood, hall⟩ := poolGood_run hpath
  have hreturns : ∀ x ∈ h, ∀ i call n response, x.1 = .returns i (.run call) n (.ok (.command response)) →
      ∃ o ∈ p.store.store.operations, o.id = response.operationId ∧ call.Matches config o := by
    intro x hx i call n response heq
    obtain ⟨hc, hends⟩ := (hall x hx).2 i _ n _ heq
    exact (hends.good hc).2 call response rfl rfl
  refine ⟨fun sessionId key => hgood.store.length_le_one, hgood.store.owned, fun x hx o ho => ?_, hreturns, ?_⟩
  · obtain ⟨o', ho', hsame, -⟩ := (hall x hx).1.rows o ho
    exact ⟨o', ho', hsame⟩
  · intro x hx x' hx' i i' call call' n n' response response' heq heq' hsession hkey
    obtain ⟨o, ho, hid, hmatches⟩ := hreturns x hx i call n response heq
    obtain ⟨o', ho', hid', hmatches'⟩ := hreturns x' hx' i' call' n' response' heq'
    obtain rfl := eq_of_key ho ho' (hmatches.session.trans (hsession.trans hmatches'.session.symm))
      (hmatches.key.trans (hkey.trans hmatches'.key.symm))
    exact ⟨hid.symm.trans hid', hmatches.fingerprint.symm.trans hmatches'.fingerprint⟩

/-- **What is recorded about a managed command is so**, in every run of calls, monitors and restarts: an exit code is
one that was published for that operation, a success has exit code `0`, and a command that is only accepted, or that
failed without an exit code, was not pasted. What a reply says of an operation is so, too. -/
theorem managed_outcome_true
    (hpath : Path (Pool.Step (commands config)) (.still (.unused host keyValid heard)) h p) :
    (∀ o ∈ p.store.store.operations, Truthful p.store o) ∧
    ∀ x ∈ h, ∀ i kind n reply, x.1 = .returns i kind n (.ok reply) → reply.Reported p.store := by
  obtain ⟨hgood, hall⟩ := poolGood_run hpath
  refine ⟨hgood.store.truthful, fun x hx i kind n reply heq => ?_⟩
  obtain ⟨hc, hends⟩ := (hall x hx).2 i kind n _ heq
  exact (hends.good hc).1

end Runs

/-! ## Runs of one command -/

instance : Decides (commands config) .any where
  ready _ _ := isTrue trivial
  operation _ _ _ _ _ := isTrue trivial
  beside _ _ _ _ := trivial

def sampleConfig : CommandConfig where
  host := ⟨1, 0, 0, none, 0⟩
  sessionsDir := "/sessions"
  fingerprint := id

def sampleSession : Session where
  id := "s"
  label := "Terminal"
  cwd := "."
  createdAt := 0
  closedAt := none
  transcriptStreamId := "t"
  transcriptEpoch := 1
  transcriptEarliestOffset := 0
  transcriptCaptureState := .ACTIVE
  transcriptGapReason := none
  stream_ne := sampleStream_ne
  epoch_pos := Nat.one_pos

/-- A host with a session that is running. -/
def sampleHost : CommandHost :=
  .unused
    { rows := Table.empty.upsert sampleSession
      dirs := AList.singleton "s" { SessionDir.empty with files := AList.singleton .first ⟨true, 1, []⟩ }
      live := {"s"}
      piped := {"s"}
      free := 0 } true true

/-- A command with its key, which draws an id. -/
def sampleCall (operationId : String) : RunCall where
  sessionId := "s"
  command := "make"
  idempotencyKey := "k"
  operationId := operationId
  acceptedAt := 1
  startedAt := 2
  completedAt := 3
  polls := 0

/-- The operations that were returned. -/
def returnedOperations (h : CommandHistory) : List (String × Option Nat) :=
  h.filterMap fun x =>
    match x.1 with
    | .returns _ _ _ (.ok (.command response)) => some (response.operationId, response.exitCode)
    | .returns _ _ _ (.ok (.operation (some shown))) => some (shown.operationId, shown.exitCode)
    | _ => none

/-- The command is called for twice, at the same time: both calls return the same operation. -/
theorem managed_command_once_sample : ∃ h p,
    Path (Pool.Step (commands sampleConfig)) (.still sampleHost) h p ∧
      returnedOperations h = [("a", none), ("a", none)] ∧ p.store.lines ≠ [] ∧
      (p.store.lines.filter fun line =>
        line.sessionId = "s" ∧ line.command.map Prod.fst = some "k").length ≤ 1 := by
  have hplay : ((Pool.play (commands sampleConfig) .any
      (.start 0 (.run (sampleCall "a")) :: .start 1 (.run (sampleCall "b")) ::
        (List.replicate 12 (.go 0) ++ List.replicate 13 (.go 1) ++ List.replicate 12 (.go 0))) (.still sampleHost)).map
      fun r => (returnedOperations r.1, r.2.store.lines.isEmpty)) = some ([("a", none), ("a", none)], false) := by
    decide +kernel
  obtain ⟨⟨h, p⟩, hr, heq⟩ := Option.map_eq_some_iff.mp hplay
  obtain ⟨hreturned, hlines⟩ := Prod.mk.inj heq
  have hpath := Pool.step_of_steps (Pool.play_path hr)
  exact ⟨h, p, hpath, hreturned, by simpa using hlines, (managed_command_once hpath).1 "s" "k"⟩

/-- The shell has published that the command was over. -/
def samplePublished : Aside := .publishes "s" "a" ⟨['0', '\n'], 7⟩

/-- The command is run, its shell publishes a record, the monitor reads it, and the outcome is asked for. -/
theorem managed_outcome_true_sample : ∃ h p,
    Path (Pool.Step (commands sampleConfig)) (.still sampleHost) h p ∧
      returnedOperations h = [("a", none), ("a", some 0)] ∧ ∀ o ∈ p.store.store.operations, Truthful p.store o := by
  have hplay : ((Pool.play (commands sampleConfig) .any
      (.start 0 (.run (sampleCall "a")) :: List.replicate 24 (.go 0)) (.still sampleHost)).bind fun r =>
      (Pool.play (commands sampleConfig) .any (.start 1 (.monitor "s" "a" 9 1) :: (List.replicate 5 (.go 1) ++
        .start 2 (.inquire "s" "a") :: List.replicate 3 (.go 2)))
        { r.2 with store := samplePublished.apply r.2.store }).map fun r' =>
      returnedOperations (r.1 ++ ([(.elsewhere samplePublished,
        { r.2 with store := samplePublished.apply r.2.store })] ++ r'.1))) = some [("a", none), ("a", some 0)] := by
    decide +kernel
  obtain ⟨⟨h, p⟩, hr, hrest⟩ := Option.bind_eq_some_iff.mp hplay
  obtain ⟨⟨h', p'⟩, hr', hreturned⟩ := Option.map_eq_some_iff.mp hrest
  have hpath : Path (Pool.Step (commands sampleConfig)) (.still sampleHost) _ p' :=
    (Pool.step_of_steps (Pool.play_path hr)).trans
      ((Path.single (.elsewhere rfl)).trans (Pool.step_of_steps (Pool.play_path hr')))
  exact ⟨_, p', hpath, hreturned, (managed_outcome_true hpath).1⟩

end BegetBridge.Managed
