import BegetBridge.Interleaving.History
import BegetBridge.Release.CleanInstallJournal

/-!
# The start of the local services

The services of a clean installation are started in their order under a lock file, proven, and the journal is moved to
ready. When that fails, they are stopped, unless the journal is ready already. A recovery removes the lock file once it
has proven what the services do.

## Main definitions

* `Premises`, `StartupOp`: the journal and the lock files, and the calls
* `startCleanLocalServices`, `recoverCleanLocalStartup`: the start, and the recovery
* `starts`, `stops`, `unread`: what a history says of the services, and of the journal
* `Accounted`: what is claimed of a start that fails

## Main results

* `meets_startCleanLocalServices`: a start that fails is accounted for exactly where it could read the journal
* `meets_recoverCleanLocalStartup`: the lock file is removed for what is proven
* `local_startup_accounted_iff`: both
-/

namespace BegetBridge.LocalStartup

open Core Interleaving
open CleanInstallJournal (InstallRecord InstallCall Inspection Finding accepts validate)

/-! ## The journal and the lock files -/

/-- A lock file: its text, if it has one, and whether it is a private file of the root user at its real path. -/
structure LockFile where
  text : Option String
  trusted : Bool
  deriving DecidableEq

/-- The journal, the lock file of a start and that of a recovery, and what inspections answer, one time after the other. -/
structure Premises where
  record : Option InstallRecord
  lock : Option LockFile
  recovering : Bool
  answers : Nat → Inspection → Finding
  asked : Nat

/-- The calls. What is synchronised or closed only settles. -/
inductive StartupOp : Type → Type
  | readJournal : StartupOp InstallRecord
  | commit (call : InstallCall) : StartupOp Unit
  | ask (q : Inspection) : StartupOp Finding
  | createLock : StartupOp Unit
  | writeLock (text : String) : StartupOp Unit
  | lstatLock : StartupOp Bool
  | readLock : StartupOp String
  | unlinkLock : StartupOp Unit
  | createRecoveryLock : StartupOp Unit
  | unlinkRecoveryLock : StartupOp Unit
  | start (unit : String) : StartupOp Unit
  | stop (unit : String) : StartupOp Unit
  | settle : StartupOp Unit

/-- Why a call fails. -/
inductive Fault
  | noEntry
  | taken
  | rejected
  | io
  deriving DecidableEq

/-- The record after a transition, if the journal accepts that. -/
def applied (call : InstallCall) (current : InstallRecord) : Option InstallRecord :=
  if accepts call current then (validate { current with phase := call.nextPhase }).toOption else none

namespace Premises

def exec : {β : Type} → StartupOp β → Premises → Except Fault (β × Premises)
  | _, .readJournal, s => s.record.elim (.error .noEntry) fun record => .ok (record, s)
  | _, .commit call, s =>
    (s.record.bind (applied call)).elim (.error .rejected) fun next => .ok ((), { s with record := some next })
  | _, .ask q, s => .ok (s.answers s.asked q, { s with asked := s.asked + 1 })
  | _, .createLock, s => s.lock.elim (.ok ((), { s with lock := some ⟨none, true⟩ })) fun _ => .error .taken
  | _, .writeLock text, s =>
    s.lock.elim (.error .io) fun file => .ok ((), { s with lock := some { file with text := some text } })
  | _, .lstatLock, s => s.lock.elim (.error .noEntry) fun file => .ok (file.trusted, s)
  | _, .readLock, s => s.lock.elim (.error .noEntry) fun file => .ok (file.text.getD "", s)
  | _, .unlinkLock, s => s.lock.elim (.error .noEntry) fun _ => .ok ((), { s with lock := none })
  | _, .createRecoveryLock, s => if s.recovering then .error .taken else .ok ((), { s with recovering := true })
  | _, .unlinkRecoveryLock, s => if s.recovering then .ok ((), { s with recovering := false }) else .error .noEntry
  | _, .start _, s => .ok ((), s)
  | _, .stop _, s => .ok ((), s)
  | _, .settle, s => .ok ((), s)

end Premises

def startup : Backend StartupOp Fault Premises := ⟨Premises.exec⟩

/-- What is thrown. -/
inductive StartupError
  | message (text : String)
  | thrown (noEntry : Bool) (text : String)
  | call (e : Fault)
  | aggregate (errors : List StartupError) (text : String)

abbrev StartupScript := Script StartupOp Fault StartupError

def perform {β : Type} (op : StartupOp β) : StartupScript β := .perform .call op

def demand (holds : Bool) (text : String) : StartupScript Unit := if holds then pure () else throw (.message text)

/-- What an inspection finds, where it does not throw. -/
def inspect (q : Inspection) : StartupScript Finding := do
  match ← perform (.ask q) with
  | .thrown noEntry text => throw (.thrown noEntry text)
  | found => pure found

/-- An inspection that has to find something. -/
def prove (q : Inspection) (expected : Finding) (text : String) : StartupScript Unit := do
  let found ← inspect q
  demand (found == expected) text

/-- `syncDirectory(directory)` -/
def syncDirectory : StartupScript Unit := do
  perform .settle
  Script.andFinally (perform .settle) (perform .settle)

/-! ## What is looked at -/

/-- No transition of the journal has left its lock file. -/
def noTransition : StartupScript Unit :=
  tryCatch (do
    let _ ← inspect (.leftover ".lock")
    throw (.message "Clean-install journal transition has an unresolved lock")) fun
  | .thrown true _ => pure ()
  | error => throw error

/-- The candidate and its plan are those of the journal. -/
def sameCandidate (journal : InstallRecord) (text : String) : StartupScript Unit := do
  match ← inspect .candidate with
  | .candidate artifactSha256 commit version =>
    demand (artifactSha256 == journal.artifactSha256 && version == journal.version && commit == journal.commit) text
  | _ => throw (.thrown false "Cannot read properties of undefined (reading 'artifactSha256')")
  prove .identityPlan (.plan journal.identityPlan) text

/-- The profile, with its owner. -/
def boundProfile (text : String) : StartupScript String := do
  match ← inspect .authProfile with
  | .text authMode => do
    demand (authMode ∈ ["static", "oauth"]) text
    if authMode == "oauth" then prove .owner (.text "candidate-bound") text
    pure authMode
  | _ => throw (.message text)

/-- Admission is paused, and the public route is closed. -/
def gate (text : String) : StartupScript Unit := do
  prove .paused (.truth true) text
  prove .closedIngress (.text "closed-exclusive") text

/-- `preflight()` -/
def preflight (journal : InstallRecord) : StartupScript Unit := do
  noTransition
  sameCandidate journal "Signed clean candidate changed before local startup"
  let identities ← inspect .created
  let authMode ← boundProfile "Clean local startup authorization profile or owner is unproven"
  demand (identities == .text "journal-bound") "Clean local startup boundary is unproven"
  prove .config (.text "bound-private") "Clean local startup boundary is unproven"
  prove (.data false (authMode == "oauth") authMode) (.text "private-owned") "Clean local startup boundary is unproven"
  prove .systemd (.text "inactive-bound") "Clean local startup boundary is unproven"
  gate "Clean local startup boundary is unproven"

/-! ## The start -/

def START_ORDER : List String := ["dp-beget-session-host.service", "dp-beget-agent.service", "dp-beget-mcp.service"]

/-- A failure, with the variables of the handler. -/
structure Interrupted where
  error : StartupError
  started : List String
  committed : Bool

/-- What is thrown is thrown with these variables. -/
def tracked {α : Type} (started : List String) (committed : Bool) (p : StartupScript α) :
    Script StartupOp Fault Interrupted α := do
  match ← p.attempt with
  | .ok a => pure a
  | .error error => throw ⟨error, started, committed⟩

/-- The units are started one after the other, each after it is tracked. -/
def startUnits : (started : List String) → List String → Script StartupOp Fault Interrupted (List String)
  | started, [] => pure started
  | started, unit :: units => do
    tracked started false (gate "Clean route or admission changed during startup")
    tracked (started ++ [unit]) false (perform (.start unit))
    startUnits (started ++ [unit]) units

/-- `advanceCleanInstallJournal`: it may fail after the journal was replaced. -/
def advance (journal : InstallRecord) : StartupScript Unit := do
  perform (.commit ⟨journal.transactionId, "startup-intent", "startup-ready", ""⟩)
  perform .settle

/-- The services run, and are idle. -/
def runningText : String := "Clean running services, admission or public route are unproven"

/-- What is done under the lock file. -/
def guarded (journal : InstallRecord) : Script StartupOp Fault Interrupted String := do
  tracked [] false (preflight journal)
  let started ← startUnits [] START_ORDER
  tracked started false do
    prove .health (.truth true) runningText
    prove .running (.text "active-bound") runningText
    gate runningText
  tracked started false (advance journal)
  tracked started true do
    perform .unlinkLock
    syncDirectory
  pure "startup-ready"

/-- A stop is issued for each of these units. The failures are returned. -/
def stopUnits : List String → StartupScript (List StartupError)
  | [] => pure []
  | unit :: units => do
    let r ← (perform (.stop unit)).attempt
    let failures ← stopUnits units
    match r with
    | .ok _ => pure failures
    | .error e => pure (e :: failures)

/-- `committed || (await readCleanInstallJournal(journalPath).catch(() => null))?.phase === "startup-ready"` -/
def journaledReady (committed : Bool) : StartupScript Bool :=
  if committed then pure true
  else do
    match ← ((perform .readJournal).attempt : StartupScript (Except StartupError InstallRecord)) with
    | .ok record => pure (record.phase == "startup-ready")
    | .error _ => pure false

/-- The handler. -/
def abandoned (i : Interrupted) : StartupScript String := do
  let ready ← journaledReady i.committed
  if ready then throw i.error
  else if i.started.isEmpty then do
    (perform .unlinkLock).ignored
    syncDirectory
    throw i.error
  else do
    let failures ← stopUnits i.started.reverse
    if failures.isEmpty then throw i.error
    else throw (.aggregate (i.error :: failures)
      "Clean local startup and stop failed; admission and startup lock remain")

/-- The lock file is created, with the transaction. -/
def lockStartup (transactionId : String) : StartupScript Unit := do
  perform .createLock
  Script.andFinally (do
    perform (.writeLock (transactionId ++ "\n"))
    perform .settle) (perform .settle)
  syncDirectory

/-- `startCleanLocalServices` -/
def startCleanLocalServices (rooted : Bool) : StartupScript String := do
  demand rooted "Root is required to start clean local services"
  let journal ← perform .readJournal
  demand (journal.phase == "startup-intent") "Clean startup requires journaled intent"
  preflight journal
  lockStartup journal.transactionId
  match ← (guarded journal).attempt with
  | .ok phase => pure phase
  | .error i => abandoned i

/-! ## The recovery -/

/-- `inspectLock(filename, transactionId)` -/
def inspectLock (transactionId : String) : StartupScript Unit := do
  let trusted ← perform .lstatLock
  demand trusted "Clean startup lock does not match this transaction"
  let text ← perform .readLock
  demand (text == transactionId ++ "\n") "Clean startup lock does not match this transaction"

def unprovenText : String := "Clean startup recovery inputs or closed route are unproven"

/-- What has to be found before the services are looked at. The profile is returned. -/
def inspectInputs (current : InstallRecord) : StartupScript String := do
  inspectLock current.transactionId
  noTransition
  sameCandidate current "Signed clean-install candidate changed during startup recovery"
  let identities ← inspect .created
  let authMode ← boundProfile "Clean startup recovery authorization profile or owner is unproven"
  demand (identities == .text "journal-bound") unprovenText
  prove .config (.text "bound-private") unprovenText
  prove .units (.text "bound-files") unprovenText
  prove (.data (current.phase == "startup-ready") (authMode == "oauth") authMode) (.text "private-owned") unprovenText
  prove (.promoted true) (.text "signed-inert") unprovenText
  gate unprovenText
  pure authMode

/-- Whether the services are inactive. A partial manager is not an inactive retry. -/
def inspectInactive (phase : String) : StartupScript Bool :=
  if phase == "startup-intent" then do
    match ← ((inspect .systemd).attempt : StartupScript (Except StartupError Finding)) with
    | .ok found => pure (found == .text "inactive-bound")
    | .error _ => pure false
  else pure false

def partialText : String := "Clean startup is partial or paused health is unproven"

/-- The services that are not inactive have to run, and the journal is moved to ready. -/
def adopted (current : InstallRecord) (authMode : String) : StartupScript Unit := do
  prove (.data true (authMode == "oauth") authMode) (.text "private-owned") partialText
  prove .running (.text "active-bound") partialText
  prove .health (.truth true) partialText
  if current.phase == "startup-intent" then advance current

def adoptedUnless (inactive : Bool) (current : InstallRecord) (authMode : String) : StartupScript Unit :=
  if inactive then pure () else adopted current authMode

def changedText : String := "Clean startup gate changed during recovery"

/-- The services are looked at once more. -/
def gateAgain (inactive : Bool) : StartupScript Unit := do
  gate changedText
  if inactive then prove .systemd (.text "inactive-bound") changedText
  else do
    prove .running (.text "active-bound") changedText
    prove .health (.truth true) changedText

/-- What is done under the lock file of the recovery. -/
def recovered (initial : InstallRecord) : StartupScript String := do
  let current ← perform .readJournal
  demand (current.transactionId == initial.transactionId && current.phase == initial.phase)
    "Clean-install journal changed during startup recovery"
  let authMode ← inspectInputs current
  let inactive ← inspectInactive current.phase
  adoptedUnless inactive current authMode
  gateAgain inactive
  perform .unlinkLock
  syncDirectory
  pure (if inactive then "inactive-bound" else "active-bound")

/-- `recoverCleanLocalStartup` -/
def recoverCleanLocalStartup (rooted : Bool) : StartupScript String := do
  demand rooted "Root is required to recover clean local startup"
  let initial ← perform .readJournal
  demand (initial.phase ∈ ["startup-intent", "startup-ready"]) "No clean local startup to recover"
  perform .createRecoveryLock
  Script.andFinally (do
    perform .settle
    perform .settle) (perform .settle)
  syncDirectory
  Script.andFinally (recovered initial) do
    perform .unlinkRecoveryLock
    syncDirectory

/-! ## Histories -/

abbrev StartupEntry := Entry StartupOp Fault

/-- The unit that a call starts. -/
def StartupOp.startsUnit : {β : Type} → StartupOp β → Option String
  | _, .start unit => some unit
  | _, _ => none

/-- The unit that a call stops. -/
def StartupOp.stopsUnit : {β : Type} → StartupOp β → Option String
  | _, .stop unit => some unit
  | _, _ => none

/-- The journal could not be read. -/
def unreadable : {β : Type} → StartupOp β → Except Fault β → Bool
  | _, .readJournal, .error _ => true
  | _, _, _ => false

/-- The units whose start was attempted. -/
def starts (h : List StartupEntry) : List String := h.filterMap fun x => x.op.startsUnit

/-- The units for which a stop was issued. -/
def stops (h : List StartupEntry) : List String := h.filterMap fun x => x.op.stopsUnit

/-- Some time the journal could not be read. -/
def unread (h : List StartupEntry) : Bool := h.any fun x => unreadable x.op x.reply

/-- The journal is ready. -/
def Ready (s : Premises) : Prop := ∃ r, s.record = some r ∧ r.phase = "startup-ready"

/-- **What is claimed of a start that fails**: unless the journal is ready, a stop was issued for every unit whose start
was attempted, and the lock file remains; if the journal is ready, no unit was stopped. -/
def Accounted (h : List StartupEntry) (s : Premises) : Prop :=
  (¬Ready s → (∀ unit ∈ starts h, unit ∈ stops h) ∧ (starts h ≠ [] → s.lock.isSome = true)) ∧
    (Ready s → stops h = [])

/-- The journal is ready, some unit was started, and yet the journal could not be read. -/
def Blind (h : List StartupEntry) (s : Premises) : Prop := Ready s ∧ starts h ≠ [] ∧ unread h = true

section Looking

variable {h h' : List StartupEntry} {s s' : Premises} {α β : Type}

theorem starts_snoc {op : StartupOp β} {r : Except Fault β} : starts (h ++ [⟨op, r⟩]) = starts h ++ op.startsUnit.toList := by
  rw [starts, List.filterMap_append]
  cases hop : op.startsUnit <;> simp [starts, hop]

theorem stops_snoc {op : StartupOp β} {r : Except Fault β} : stops (h ++ [⟨op, r⟩]) = stops h ++ op.stopsUnit.toList := by
  rw [stops, List.filterMap_append]
  cases hop : op.stopsUnit <;> simp [stops, hop]

theorem unread_snoc {op : StartupOp β} {r : Except Fault β} : unread (h ++ [⟨op, r⟩]) = (unread h || unreadable op r) := by
  simp [unread]

/-- Calls that neither start nor stop a unit, and that do not fail to read the journal. -/
theorem plain_snoc {op : StartupOp β} {r : Except Fault β} (hstarts : op.startsUnit = none) (hstops : op.stopsUnit = none)
    (hread : unreadable op r = false) :
    starts (h ++ [⟨op, r⟩]) = starts h ∧ stops (h ++ [⟨op, r⟩]) = stops h ∧ unread (h ++ [⟨op, r⟩]) = unread h := by
  rw [starts_snoc, stops_snoc, unread_snoc, hstarts, hstops, hread]
  exact ⟨List.append_nil _, List.append_nil _, Bool.or_false _⟩

/-- Nothing was done to the services or to the files. -/
structure Quiet (h : List StartupEntry) (s : Premises) (h' : List StartupEntry) (s' : Premises) : Prop where
  starts : starts h' = starts h
  stops : stops h' = stops h
  unread : unread h' = unread h
  record : s'.record = s.record
  lock : s'.lock = s.lock

theorem Quiet.refl : Quiet h s h s := ⟨rfl, rfl, rfl, rfl, rfl⟩

theorem Quiet.plain {op : StartupOp β} {r : Except Fault β} (hstarts : op.startsUnit = none)
    (hstops : op.stopsUnit = none) (hread : unreadable op r = false) (hrecord : s'.record = s.record)
    (hlock : s'.lock = s.lock) : Quiet h s (h ++ [⟨op, r⟩]) s' :=
  ⟨(plain_snoc hstarts hstops hread).1, (plain_snoc hstarts hstops hread).2.1, (plain_snoc hstarts hstops hread).2.2,
    hrecord, hlock⟩

theorem Quiet.trans {h'' : List StartupEntry} {s'' : Premises} (hq : Quiet h s h' s') (hq' : Quiet h' s' h'' s'') :
    Quiet h s h'' s'' :=
  ⟨hq'.starts.trans hq.starts, hq'.stops.trans hq.stops, hq'.unread.trans hq.unread, hq'.record.trans hq.record,
    hq'.lock.trans hq.lock⟩

theorem Quiet.ready (hq : Quiet h s h' s') : Ready s' ↔ Ready s := by
  rw [Ready, Ready, hq.record]

/-- An obligation that nothing owes which only looks. -/
structure Lenient (O : {γ : Type} → List StartupEntry → StartupOp γ → Premises → Prop) : Prop where
  ask : ∀ h q s, O h (.ask q) s
  settle : ∀ h s, O h .settle s
  lstatLock : ∀ h s, O h .lstatLock s
  readLock : ∀ h s, O h .readLock s

/-- A script that only looks. -/
def Looks (p : StartupScript α) : Prop :=
  ∀ (O : {γ : Type} → List StartupEntry → StartupOp γ → Premises → Prop), Lenient O → ∀ h s,
    Script.Meets startup (fun _ => True) O p (fun h' _ s' => Quiet h s h' s') h s

theorem looks_pure {a : α} : Looks (pure a) := fun _ _ _ _ => .refl

theorem looks_throw {e : StartupError} : Looks (throw e : StartupScript α) := fun _ _ _ _ => .refl

theorem looks_demand {holds : Bool} {text : String} : Looks (demand holds text) := by
  cases holds with
  | true => exact looks_pure
  | false => exact looks_throw

theorem looks_bind {p : StartupScript β} {f : β → StartupScript α} (hp : Looks p) (hf : ∀ b, Looks (f b)) :
    Looks (p >>= f) := by
  intro O hO h s
  apply Script.meets_bind (hp O hO h s)
  · intro h₁ b s₁ hq
    apply Script.meets_mono (hf b O hO h₁ s₁)
    exact fun h₂ r s₂ hq' => hq.trans hq'
  · exact fun h₁ e s₁ hq => hq

theorem looks_ask {q : Inspection} : Looks (perform (.ask q)) := by
  intro O hO h s
  apply Script.meets_perform (hO.ask h q s)
  · intro found s' hexec
    obtain ⟨-, rfl⟩ := Prod.mk.inj (Except.ok.inj hexec)
    exact .plain rfl rfl rfl rfl rfl
  · exact fun e => .plain rfl rfl rfl rfl rfl

theorem looks_settle : Looks (perform .settle) := by
  intro O hO h s
  apply Script.meets_perform (hO.settle h s)
  · intro u s' hexec
    obtain ⟨-, rfl⟩ := Prod.mk.inj (Except.ok.inj hexec)
    exact .plain rfl rfl rfl rfl rfl
  · exact fun e => .plain rfl rfl rfl rfl rfl

theorem looks_finally {p : StartupScript α} {last : StartupScript Unit} (hp : Looks p) (hlast : Looks last) :
    Looks (p.andFinally last) := by
  intro O hO h s
  apply Script.meets_finally (hp O hO h s)
  intro h₁ r s₁ hq
  apply Script.meets_mono (hlast O hO h₁ s₁)
  exact fun h₂ r' s₂ hq' => hq.trans hq'

theorem looks_tryCatch {p : StartupScript α} {f : StartupError → StartupScript α} (hp : Looks p) (hf : ∀ e, Looks (f e)) :
    Looks (tryCatch p f) := by
  intro O hO h s
  apply Script.meets_tryCatch (hp O hO h s)
  · exact fun h₁ a s₁ hq => hq
  · intro h₁ e s₁ hq
    apply Script.meets_mono (hf e O hO h₁ s₁)
    exact fun h₂ r s₂ hq' => hq.trans hq'

theorem looks_syncDirectory : Looks syncDirectory :=
  looks_bind looks_settle fun _ => looks_finally looks_settle looks_settle

theorem looks_inspect {q : Inspection} : Looks (inspect q) := by
  apply looks_bind looks_ask
  intro found
  split
  · exact looks_throw
  · exact looks_pure

theorem looks_prove {q : Inspection} {expected : Finding} {text : String} : Looks (prove q expected text) :=
  looks_bind looks_inspect fun _ => looks_demand

theorem looks_noTransition : Looks noTransition := by
  apply looks_tryCatch (looks_bind looks_inspect fun _ => looks_throw)
  intro e
  split
  · exact looks_pure
  · exact looks_throw

theorem looks_gate {text : String} : Looks (gate text) := looks_bind looks_prove fun _ => looks_prove

theorem looks_sameCandidate {journal : InstallRecord} {text : String} : Looks (sameCandidate journal text) := by
  apply looks_bind looks_inspect
  intro found
  split
  · exact looks_bind looks_demand fun _ => looks_prove
  · exact looks_bind looks_throw fun _ => looks_prove

theorem looks_boundProfile {text : String} : Looks (boundProfile text) := by
  apply looks_bind looks_inspect
  intro found
  split
  · apply looks_bind looks_demand
    intro _
    split
    · exact looks_bind looks_prove fun _ => looks_pure
    · exact looks_pure
  · exact looks_throw

theorem looks_preflight {journal : InstallRecord} : Looks (preflight journal) := by
  apply looks_bind looks_noTransition
  intro _
  apply looks_bind looks_sameCandidate
  intro _
  apply looks_bind looks_inspect
  intro identities
  apply looks_bind looks_boundProfile
  intro authMode
  apply looks_bind looks_demand
  intro _
  iterate 3
    apply looks_bind looks_prove
    intro _
  exact looks_gate

/-! ## How a start fails -/

/-- Every run of the start ends in `Q`. -/
abbrev Meets {ξ : Type} (p : Script StartupOp Fault ξ α) (Q : List StartupEntry → Except ξ α → Premises → Prop)
    (h : List StartupEntry) (s : Premises) : Prop :=
  Script.Meets startup (fun _ => True) (fun _ _ _ => True) p Q h s

theorem Looks.meets {p : StartupScript α} (hp : Looks p) : Meets p (fun h' _ s' => Quiet h s h' s') h s :=
  hp (fun _ _ _ => True) ⟨fun _ _ _ => trivial, fun _ _ => trivial, fun _ _ => trivial, fun _ _ => trivial⟩ h s

/-- Nothing was stopped, the journal could be read, and the lock file is there. -/
structure Fine (started : List String) (h : List StartupEntry) (s : Premises) : Prop where
  starts : starts h = started
  stops : stops h = []
  unread : unread h = false
  lock : s.lock.isSome = true

/-- What is known where the start is interrupted. -/
structure Broken (i : Interrupted) (h : List StartupEntry) (s : Premises) : Prop where
  starts : starts h = i.started
  stops : stops h = []
  unread : unread h = false
  lock : ¬Ready s → s.lock.isSome = true
  committed : i.committed = true → Ready s

variable {started : List String} {committed : Bool}

theorem Fine.quiet (hs : Fine started h s) (hq : Quiet h s h' s') : Fine started h' s' :=
  ⟨hq.starts.trans hs.starts, hq.stops.trans hs.stops, hq.unread.trans hs.unread, hq.lock ▸ hs.lock⟩

theorem Fine.plain {op : StartupOp β} {r : Except Fault β} (hs : Fine started h s) (hstarts : op.startsUnit = none)
    (hstops : op.stopsUnit = none) (hread : unreadable op r = false) (hlock : s'.lock = s.lock) :
    Fine started (h ++ [⟨op, r⟩]) s' :=
  ⟨(plain_snoc hstarts hstops hread).1.trans hs.starts, (plain_snoc hstarts hstops hread).2.1.trans hs.stops,
    (plain_snoc hstarts hstops hread).2.2.trans hs.unread, hlock ▸ hs.lock⟩

theorem Fine.broken {e : StartupError} (hs : Fine started h s) : Broken ⟨e, started, false⟩ h s :=
  ⟨hs.starts, hs.stops, hs.unread, fun _ => hs.lock, nofun⟩

/-- How a part of the start ends. -/
def Guards (P : α → List StartupEntry → Premises → Prop) (h : List StartupEntry) (r : Except Interrupted α)
    (s : Premises) : Prop :=
  match r with
  | .ok a => P a h s
  | .error i => Broken i h s

theorem meets_tracked {p : StartupScript α} {P : α → List StartupEntry → Premises → Prop}
    (hp : Meets p (fun h' r s' => match r with
      | .ok a => P a h' s'
      | .error e => Broken ⟨e, started, committed⟩ h' s') h s) :
    Meets (tracked started committed p) (fun h' r s' => Guards P h' r s') h s := by
  have hattempt : Meets (p.attempt : Script StartupOp Fault Interrupted (Except StartupError α)) (fun h' r s' => match r with
      | .ok (.ok a) => P a h' s'
      | .ok (.error e) => Broken ⟨e, started, committed⟩ h' s'
      | .error i => Broken i h' s') h s := by
    apply Script.meets_attempt
    apply Script.meets_mono hp
    rintro h₁ (e | a) s₁ hr
    · exact hr
    · exact hr
  apply Script.meets_bind hattempt
  · rintro h₁ (e | a) s₁ hr
    · exact hr
    · exact hr
  · exact fun h₁ i s₁ hr => hr

theorem meets_tracked_looks {p : StartupScript α} (hp : Looks p) (hs : Fine started h s) :
    Meets (tracked started false p) (fun h' r s' => Guards (fun _ => Fine started) h' r s') h s := by
  apply meets_tracked
  apply Script.meets_mono hp.meets
  rintro h₁ (e | a) s₁ hq
  · exact (hs.quiet hq).broken
  · exact hs.quiet hq

theorem meets_guards {p : Script StartupOp Fault Interrupted β} {f : β → Script StartupOp Fault Interrupted α}
    {P : β → List StartupEntry → Premises → Prop} {P' : α → List StartupEntry → Premises → Prop}
    (hp : Meets p (fun h' r s' => Guards P h' r s') h s)
    (hf : ∀ b h' s', P b h' s' → Meets (f b) (fun h'' r s'' => Guards P' h'' r s'') h' s') :
    Meets (p >>= f) (fun h' r s' => Guards P' h' r s') h s :=
  Script.meets_bind hp (fun h' b s' hP => hf b h' s' hP) fun _ _ _ hi => hi

/-- A unit is tracked before it is started. -/
theorem Fine.snoc {unit : String} {r : Except Fault Unit} (hs : Fine started h s) :
    Fine (started ++ [unit]) (h ++ [⟨.start unit, r⟩]) s where
  starts := by rw [starts_snoc, hs.starts]; rfl
  stops := by rw [stops_snoc, hs.stops]; rfl
  unread := by rw [unread_snoc, hs.unread]; rfl
  lock := hs.lock

theorem meets_startUnits {units : List String} (hs : Fine started h s) :
    Meets (startUnits started units) (fun h' r s' => Guards (fun l => Fine l) h' r s') h s := by
  induction units generalizing started h s with
  | nil => exact hs
  | cons unit units ih =>
    apply meets_guards (meets_tracked_looks looks_gate hs)
    intro _ h₁ s₁ hs₁
    have hstarted : Meets (tracked (started ++ [unit]) false (perform (.start unit)))
        (fun h' r s' => Guards (fun _ => Fine (started ++ [unit])) h' r s') h₁ s₁ := by
      apply meets_tracked
      apply Script.meets_perform trivial
      · intro u s₂ hexec
        obtain ⟨-, rfl⟩ := Prod.mk.inj (Except.ok.inj hexec)
        exact hs₁.snoc
      · exact fun e => hs₁.snoc.broken
    apply meets_guards hstarted
    exact fun _ h₂ s₂ hs₂ => ih hs₂

theorem exec_commit {call : InstallCall} {u : Unit} (hexec : s.exec (.commit call) = .ok (u, s')) :
    s'.lock = s.lock ∧ ∃ next, s'.record = some next ∧ next.phase = call.nextPhase := by
  rw [Premises.exec] at hexec
  cases hr : s.record.bind (applied call) with
  | none =>
    rw [hr] at hexec
    cases hexec
  | some next =>
    rw [hr] at hexec
    obtain ⟨-, rfl⟩ := Prod.mk.inj (Except.ok.inj hexec)
    obtain ⟨current, -, hnext⟩ := Option.bind_eq_some_iff.mp hr
    refine ⟨rfl, next, rfl, ?_⟩
    rw [applied] at hnext
    split at hnext
    · rw [validate] at hnext
      split at hnext
      · rw [← Option.some.inj hnext]
      · cases hnext
    · cases hnext

/-- The journal is moved to ready, although that may not be returned. -/
theorem meets_advance {journal : InstallRecord} (hs : Fine started h s) :
    Meets (tracked started false (advance journal))
      (fun h' r s' => Guards (fun _ h s => Fine started h s ∧ Ready s) h' r s') h s := by
  apply meets_tracked
  apply Script.meets_call trivial
  · intro u s₁ hexec
    change s.exec (.commit ⟨journal.transactionId, "startup-intent", "startup-ready", ""⟩) = _ at hexec
    obtain ⟨hlock, next, hrecord, hphase⟩ := exec_commit hexec
    have hs₁ : Fine started (h ++ [⟨.commit ⟨journal.transactionId, "startup-intent", "startup-ready", ""⟩, .ok u⟩]) s₁ :=
      hs.plain rfl rfl rfl hlock
    have hready : Ready s₁ := ⟨next, hrecord, hphase⟩
    apply Script.meets_mono looks_settle.meets
    rintro h₂ (e | v) s₂ hq
    · exact (hs₁.quiet hq).broken
    · exact ⟨hs₁.quiet hq, hq.ready.mpr hready⟩
  · intro e
    exact (hs.plain rfl rfl rfl rfl).broken

/-- **How the part under the lock file ends**, if it is interrupted. -/
theorem meets_guarded {journal : InstallRecord} (hs : Fine [] h s) :
    Meets (guarded journal) (fun h' r s' => Guards (fun _ _ _ => True) h' r s') h s := by
  apply meets_guards (meets_tracked_looks looks_preflight hs)
  intro _ h₁ s₁ hs₁
  apply meets_guards (meets_startUnits hs₁)
  intro started h₂ s₂ hs₂
  have hproven : Looks (do
      prove .health (.truth true) runningText
      prove .running (.text "active-bound") runningText
      gate runningText) := by
    apply looks_bind looks_prove
    intro _
    apply looks_bind looks_prove
    exact fun _ => looks_gate
  apply meets_guards (meets_tracked_looks hproven hs₂)
  intro _ h₃ s₃ hs₃
  apply meets_guards (meets_advance hs₃)
  rintro _ h₄ s₄ ⟨hs₄, hready⟩
  -- what fails from here on leaves the services alone
  have hunlinked : Meets (tracked started true do
      perform .unlinkLock
      syncDirectory) (fun h' r s' => Guards (fun _ _ _ => True) h' r s') h₄ s₄ := by
    have hbroken : ∀ {e : StartupError} {h' : List StartupEntry} {s' : Premises}, starts h' = started → stops h' = [] →
        unread h' = false → Ready s' → Broken ⟨e, started, true⟩ h' s' :=
      fun hstarts hstops hunread hready => ⟨hstarts, hstops, hunread, fun hnot => absurd hready hnot, fun _ => hready⟩
    have hsnoc : ∀ r, starts (h₄ ++ [⟨.unlinkLock, r⟩]) = started ∧ stops (h₄ ++ [⟨.unlinkLock, r⟩]) = [] ∧
        unread (h₄ ++ [⟨.unlinkLock, r⟩]) = false := by
      intro r
      rw [← hs₄.starts, ← hs₄.stops, ← hs₄.unread]
      exact plain_snoc rfl rfl rfl
    apply meets_tracked
    apply Script.meets_call trivial
    · intro u s₅ hexec
      have hready₅ : Ready s₅ := by
        change s₄.exec .unlinkLock = _ at hexec
        cases hl : s₄.lock with
        | none => simp [Premises.exec, hl] at hexec
        | some file =>
          simp only [Premises.exec, hl, Option.elim_some, Except.ok.injEq, Prod.mk.injEq, true_and] at hexec
          rw [← hexec]
          exact hready
      apply Script.meets_mono looks_syncDirectory.meets
      rintro h₅ (e | v) s₆ hq
      · exact hbroken (hq.starts.trans (hsnoc _).1) (hq.stops.trans (hsnoc _).2.1) (hq.unread.trans (hsnoc _).2.2)
          (hq.ready.mpr hready₅)
      · trivial
    · exact fun e => hbroken (hsnoc _).1 (hsnoc _).2.1 (hsnoc _).2.2 hready
  apply meets_guards hunlinked
  exact fun _ _ _ _ => trivial

/-! ## The handler -/

/-- What the handler knows of the journal. -/
def Known (i : Interrupted) (ready : Bool) (h : List StartupEntry) (s : Premises) : Prop :=
  starts h = i.started ∧ stops h = [] ∧ (¬Ready s → s.lock.isSome = true) ∧
    ((unread h = false ∧ (ready = true ↔ Ready s)) ∨ (unread h = true ∧ ready = false))

theorem meets_journaledReady {i : Interrupted} (hs : Broken i h s) :
    Meets (journaledReady i.committed) (fun h' r s' => ∃ ready, r = .ok ready ∧ Known i ready h' s') h s := by
  cases hc : i.committed with
  | true =>
    exact ⟨true, rfl, hs.starts, hs.stops, hs.lock, .inl ⟨hs.unread, iff_of_true rfl (hs.committed hc)⟩⟩
  | false =>
    have hread : Meets ((perform .readJournal).attempt : StartupScript (Except StartupError InstallRecord)) (fun h' r s' =>
        ∃ q, r = .ok q ∧ starts h' = i.started ∧ stops h' = [] ∧ s' = s ∧ match q with
          | .ok record => unread h' = false ∧ s.record = some record
          | .error _ => unread h' = true) h s := by
      apply Script.meets_attempt
      apply Script.meets_perform trivial
      · intro record s₁ hexec
        change s.exec .readJournal = _ at hexec
        cases hr : s.record with
        | none => simp [Premises.exec, hr] at hexec
        | some current =>
          simp only [Premises.exec, hr, Option.elim_some, Except.ok.injEq, Prod.mk.injEq] at hexec
          obtain ⟨rfl, rfl⟩ := hexec
          have hsnoc : starts (h ++ [⟨.readJournal, .ok current⟩]) = starts h ∧
              stops (h ++ [⟨.readJournal, .ok current⟩]) = stops h ∧
              unread (h ++ [⟨.readJournal, .ok current⟩]) = unread h := plain_snoc rfl rfl rfl
          exact ⟨_, rfl, hsnoc.1.trans hs.starts, hsnoc.2.1.trans hs.stops, rfl, hsnoc.2.2.trans hs.unread, rfl⟩
      · intro e
        refine ⟨_, rfl, ?_, ?_, rfl, ?_⟩
        · rw [starts_snoc, hs.starts]
          exact List.append_nil _
        · rw [stops_snoc, hs.stops]
          rfl
        · rw [unread_snoc]
          exact Bool.or_true _
    apply Script.meets_bind hread
    · rintro h₁ q s₁ ⟨q', hq', hstarts, hstops, rfl, hjournal⟩
      obtain rfl := Except.ok.inj hq'
      cases q with
      | ok record =>
        refine ⟨_, rfl, hstarts, hstops, hs.lock, .inl ⟨hjournal.1, ?_⟩⟩
        rw [beq_iff_eq, Ready, hjournal.2]
        simp
      | error e => exact ⟨false, rfl, hstarts, hstops, hs.lock, .inr ⟨hjournal, rfl⟩⟩
    · rintro h₁ e s₁ ⟨q', hq', -⟩
      cases hq'

/-- A stop is issued for every unit, and nothing else happens. -/
theorem meets_stopUnits {units : List String} :
    Meets (stopUnits units) (fun h' r s' => (∃ failures, r = .ok failures) ∧ s' = s ∧ starts h' = starts h ∧
      stops h' = stops h ++ units ∧ unread h' = unread h) h s := by
  induction units generalizing h s with
  | nil => exact ⟨⟨_, rfl⟩, rfl, rfl, (List.append_nil _).symm, rfl⟩
  | cons unit units ih =>
    have hstop : Meets ((perform (.stop unit)).attempt : StartupScript (Except StartupError Unit)) (fun h' r s' =>
        (∃ q, r = .ok q) ∧ s' = s ∧ starts h' = starts h ∧ stops h' = stops h ++ [unit] ∧ unread h' = unread h) h s := by
      have hsnoc : ∀ r, starts (h ++ [⟨.stop unit, r⟩]) = starts h ∧ stops (h ++ [⟨.stop unit, r⟩]) = stops h ++ [unit] ∧
          unread (h ++ [⟨.stop unit, r⟩]) = unread h := by
        intro r
        rw [starts_snoc, stops_snoc, unread_snoc]
        exact ⟨List.append_nil _, rfl, Bool.or_false _⟩
      apply Script.meets_attempt
      apply Script.meets_perform trivial
      · intro u s₁ hexec
        obtain ⟨-, rfl⟩ := Prod.mk.inj (Except.ok.inj hexec)
        exact ⟨⟨_, rfl⟩, rfl, hsnoc _⟩
      · exact fun e => ⟨⟨_, rfl⟩, rfl, hsnoc _⟩
    apply Script.meets_bind hstop
    · rintro h₁ q s₁ ⟨-, rfl, hstarts, hstops, hunread⟩
      apply Script.meets_bind ih
      · rintro h₂ failures s₂ ⟨-, rfl, hstarts', hstops', hunread'⟩
        have hend : starts h₂ = starts h ∧ stops h₂ = stops h ++ unit :: units ∧ unread h₂ = unread h := by
          refine ⟨hstarts'.trans hstarts, ?_, hunread'.trans hunread⟩
          rw [hstops', hstops, List.append_assoc]
          rfl
        split
        · exact ⟨⟨_, rfl⟩, rfl, hend⟩
        · exact ⟨⟨_, rfl⟩, rfl, hend⟩
      · rintro h₂ e s₂ ⟨⟨failures, hfailures⟩, -⟩
        cases hfailures
    · rintro h₁ e s₁ ⟨⟨q, hq⟩, -⟩
      cases hq

/-- A start that fails is accounted for exactly where its handler could read a journal that is ready. -/
def Judged (h : List StartupEntry) (s : Premises) : Prop := Accounted h s ↔ ¬Blind h s

/-- Nothing was started. -/
theorem judged_of_silent (hstarts : starts h = []) (hstops : stops h = []) : Judged h s := by
  refine iff_of_true ⟨fun _ => ⟨?_, ?_⟩, fun _ => hstops⟩ fun hblind => hblind.2.1 hstarts
  · rw [hstarts]
    exact nofun
  · exact fun hne => absurd hstarts hne

/-- **The handler**: what is thrown in the end is accounted for as it should be. -/
theorem meets_abandoned {i : Interrupted} (hs : Broken i h s) :
    Meets (abandoned i) (fun h' r s' => ∀ e, r = .error e → Judged h' s') h s := by
  apply Script.meets_bind (meets_journaledReady hs)
  · rintro h₁ ready s₁ ⟨ready', hready', hstarts, hstops, hlock, hknown⟩
    obtain rfl := Except.ok.inj hready'
    cases ready with
    | true =>
      -- the journal is ready, and nothing is stopped
      obtain ⟨hunread, hiff⟩ := hknown.resolve_right fun hunread => absurd hunread.2 nofun
      have hready := hiff.mp rfl
      refine fun e _ => iff_of_true ⟨fun hnot => absurd hready hnot, fun _ => hstops⟩ fun hblind => ?_
      exact absurd (hunread.symm.trans hblind.2.2) nofun
    | false =>
      rw [if_neg Bool.false_ne_true]
      by_cases hempty : i.started.isEmpty = true
      · -- nothing was started
        rw [if_pos hempty]
        have hnone : starts h₁ = [] := hstarts.trans (List.isEmpty_iff.mp hempty)
        have hsnoc : ∀ r, starts (h₁ ++ [⟨.unlinkLock, r⟩]) = [] ∧ stops (h₁ ++ [⟨.unlinkLock, r⟩]) = [] := by
          intro r
          rw [starts_snoc, stops_snoc, hnone, hstops]
          exact ⟨rfl, rfl⟩
        have hunlinked : Meets (perform .unlinkLock).ignored (fun h' _ _ => starts h' = [] ∧ stops h' = []) h₁ s₁ := by
          apply Script.meets_ignored
          exact Script.meets_perform trivial (fun _ _ _ => hsnoc _) fun _ => hsnoc _
        apply Script.meets_bind hunlinked
        · rintro h₂ u s₂ ⟨hstarts₂, hstops₂⟩
          apply Script.meets_bind looks_syncDirectory.meets
          · exact fun h₃ v s₃ hq e _ => judged_of_silent (hq.starts.trans hstarts₂) (hq.stops.trans hstops₂)
          · exact fun h₃ e s₃ hq e' _ => judged_of_silent (hq.starts.trans hstarts₂) (hq.stops.trans hstops₂)
        · exact fun h₂ e s₂ hsilent e' _ => judged_of_silent hsilent.1 hsilent.2
      · -- every unit whose start was attempted is stopped
        rw [if_neg hempty]
        have hstopped : ∀ {h₂ : List StartupEntry} {s₂ : Premises}, s₂ = s₁ → starts h₂ = starts h₁ →
            stops h₂ = stops h₁ ++ i.started.reverse → unread h₂ = unread h₁ → Judged h₂ s₂ := by
          rintro h₂ s₂ rfl hstarts₂ hstops₂ hunread₂
          rw [hstarts] at hstarts₂
          rw [hstops, List.nil_append] at hstops₂
          have hsome : i.started ≠ [] := fun hnil => hempty (List.isEmpty_iff.mpr hnil)
          rcases hknown with ⟨-, hiff⟩ | ⟨hunread, -⟩
          · have hnot : ¬Ready s₂ := fun hready => absurd (hiff.mpr hready) nofun
            refine iff_of_true ⟨fun _ => ⟨?_, fun _ => hlock hnot⟩, fun hready => absurd hready hnot⟩ fun hblind => hnot hblind.1
            rw [hstarts₂, hstops₂]
            exact fun unit hunit => List.mem_reverse.mpr hunit
          · by_cases hready : Ready s₂
            · refine iff_of_false (fun haccounted => hsome ?_) fun hblind => hblind ⟨hready, ?_, hunread₂.trans hunread⟩
              · exact List.reverse_eq_nil_iff.mp (hstops₂.symm.trans (haccounted.2 hready))
              · rwa [hstarts₂]
            · refine iff_of_true ⟨fun _ => ⟨?_, fun _ => hlock hready⟩, fun h => absurd h hready⟩ fun hblind => hready hblind.1
              rw [hstarts₂, hstops₂]
              exact fun unit hunit => List.mem_reverse.mpr hunit
        apply Script.meets_bind meets_stopUnits
        · rintro h₂ failures s₂ ⟨-, hsame, hstarts₂, hstops₂, hunread₂⟩
          split
          · exact fun e _ => hstopped hsame hstarts₂ hstops₂ hunread₂
          · exact fun e _ => hstopped hsame hstarts₂ hstops₂ hunread₂
        · rintro h₂ e s₂ ⟨⟨failures, hfailures⟩, -⟩
          cases hfailures
  · rintro h₁ e s₁ ⟨ready, hready, -⟩
    cases hready

/-- A script after which nothing was started. -/
theorem meets_silent {p : StartupScript β} {f : β → StartupScript α} (hp : Looks p) (hstarts : starts h = [])
    (hstops : stops h = []) (hf : ∀ b h' s', Quiet h s h' s' →
      Meets (f b) (fun h'' r s'' => ∀ e, r = .error e → Judged h'' s'') h' s') :
    Meets (p >>= f) (fun h' r s' => ∀ e, r = .error e → Judged h' s') h s := by
  apply Script.meets_bind hp.meets
  · exact fun h₁ b s₁ hq => hf b h₁ s₁ hq
  · exact fun h₁ e s₁ hq e' _ => judged_of_silent (hq.starts.trans hstarts) (hq.stops.trans hstops)

/-- What is written to the lock file leaves it there. -/
theorem fine_writeLock {text : String} (hs : Fine [] h s) :
    Meets (Script.andFinally (do
      perform (.writeLock text)
      perform .settle) (perform .settle)) (fun h' _ s' => Fine [] h' s') h s := by
  have hwritten : Meets (perform (.writeLock text)) (fun h' _ s' => Fine [] h' s') h s := by
    apply Script.meets_perform trivial
    · intro u s₁ hexec
      change s.exec (.writeLock text) = _ at hexec
      cases hl : s.lock with
      | none => simp [Premises.exec, hl] at hexec
      | some file =>
        simp only [Premises.exec, hl, Option.elim_some, Except.ok.injEq, Prod.mk.injEq, true_and] at hexec
        obtain ⟨hstarts, hstops, hunread, -⟩ : Fine [] (h ++ [⟨.writeLock text, .ok u⟩]) s := hs.plain rfl rfl rfl rfl
        refine ⟨hstarts, hstops, hunread, ?_⟩
        rw [← hexec]
        rfl
    · exact fun e => hs.plain rfl rfl rfl rfl
  apply Script.meets_finally (P := fun h' _ s' => Fine [] h' s')
  · apply Script.meets_bind hwritten
    · intro h₁ u s₁ hs₁
      exact Script.meets_mono looks_settle.meets fun h₂ r s₂ hq => hs₁.quiet hq
    · exact fun h₁ e s₁ hs₁ => hs₁
  · intro h₁ r s₁ hs₁
    exact Script.meets_mono looks_settle.meets fun h₂ r' s₂ hq => hs₁.quiet hq

/-- The lock file is created, or nothing was started. -/
theorem meets_lockStartup {transactionId : String} (hstarts : starts h = []) (hstops : stops h = [])
    (hunread : unread h = false) :
    Meets (lockStartup transactionId) (fun h' r s' => starts h' = [] ∧ stops h' = [] ∧ ∀ u, r = .ok u → Fine [] h' s')
      h s := by
  have hsnoc : ∀ r, starts (h ++ [⟨.createLock, r⟩]) = [] ∧ stops (h ++ [⟨.createLock, r⟩]) = [] ∧
      unread (h ++ [⟨.createLock, r⟩]) = false := by
    intro r
    rw [← hstarts, ← hunread, starts_snoc, stops_snoc, unread_snoc, hstops]
    exact ⟨List.append_nil _, (List.append_nil _).trans hstarts.symm, Bool.or_false _⟩
  apply Script.meets_call trivial
  · intro u s₁ hexec
    have hfine : Fine [] (h ++ [⟨.createLock, .ok u⟩]) s₁ := by
      refine ⟨(hsnoc _).1, (hsnoc _).2.1, (hsnoc _).2.2, ?_⟩
      change s.exec .createLock = _ at hexec
      cases hl : s.lock with
      | some file => simp [Premises.exec, hl] at hexec
      | none =>
        simp only [Premises.exec, hl, Option.elim_none, Except.ok.injEq, Prod.mk.injEq, true_and] at hexec
        rw [← hexec]
        rfl
    apply Script.meets_bind (fine_writeLock hfine)
    · intro h₂ v s₂ hs₂
      apply Script.meets_mono looks_syncDirectory.meets
      exact fun h₃ r s₃ hq => ⟨(hs₂.quiet hq).starts, (hs₂.quiet hq).stops, fun _ _ => hs₂.quiet hq⟩
    · exact fun h₂ e s₂ hs₂ => ⟨hs₂.starts, hs₂.stops, nofun⟩
  · exact fun e => ⟨(hsnoc _).1, (hsnoc _).2.1, nofun⟩

/-- **A start that fails** is accounted for exactly where its handler could read a journal that is ready. -/
theorem meets_startCleanLocalServices {rooted : Bool} :
    Meets (startCleanLocalServices rooted) (fun h' r s' => ∀ e, r = .error e → Judged h' s') [] s := by
  apply meets_silent looks_demand rfl rfl
  intro _ h₁ s₁ hq₁
  have hsnoc : ∀ r, starts (h₁ ++ [⟨.readJournal, r⟩]) = [] ∧ stops (h₁ ++ [⟨.readJournal, r⟩]) = [] := by
    intro r
    rw [starts_snoc, stops_snoc, hq₁.starts, hq₁.stops]
    exact ⟨rfl, rfl⟩
  apply Script.meets_call trivial
  · intro journal s₂ hexec
    have hunread : unread (h₁ ++ [⟨.readJournal, .ok journal⟩]) = false := by
      rw [unread_snoc, hq₁.unread]
      rfl
    apply meets_silent looks_demand (hsnoc _).1 (hsnoc _).2
    intro _ h₃ s₃ hq₃
    apply meets_silent looks_preflight (hq₃.starts.trans (hsnoc _).1) (hq₃.stops.trans (hsnoc _).2)
    intro _ h₄ s₄ hq₄
    have hq := hq₃.trans hq₄
    apply Script.meets_bind (meets_lockStartup (hq.starts.trans (hsnoc _).1) (hq.stops.trans (hsnoc _).2)
      (hq.unread.trans hunread))
    · rintro h₅ u s₅ ⟨-, -, hfine⟩
      have hattempt : Meets ((guarded journal).attempt : StartupScript (Except Interrupted String)) (fun h' r s' =>
          ∃ q, r = .ok q ∧ ∀ i, q = .error i → Broken i h' s') h₅ s₅ := by
        apply Script.meets_attempt
        apply Script.meets_mono (meets_guarded (hfine u rfl))
        rintro h₆ (i | phase) s₆ hr
        · exact ⟨_, rfl, fun i' hi' => by rwa [← Except.error.inj hi']⟩
        · exact ⟨_, rfl, nofun⟩
      apply Script.meets_bind hattempt
      · rintro h₆ q s₆ ⟨q', hq', hbroken⟩
        obtain rfl := Except.ok.inj hq'
        cases q with
        | ok phase => exact nofun
        | error i => exact meets_abandoned (hbroken i rfl)
      · rintro h₆ e s₆ ⟨q', hq', -⟩
        cases hq'
    · exact fun h₅ e s₅ hsilent e' _ => judged_of_silent hsilent.1 hsilent.2.1
  · exact fun e e' _ => judged_of_silent (hsnoc _).1 (hsnoc _).2

/-! ## What a recovery has proven -/

/-- The last thing that was found: the services are inactive and the journal is at its intent, or they run, are drained,
and the journal is ready. -/
def Proven (h : List StartupEntry) (s : Premises) : Prop :=
  (∃ h₀, h = h₀ ++ [⟨.ask .systemd, .ok (.text "inactive-bound")⟩] ∧
      ∃ r, s.record = some r ∧ r.phase = "startup-intent") ∨
    (∃ h₀, h = h₀ ++ [⟨.ask .running, .ok (.text "active-bound")⟩] ++ [⟨.ask .health, .ok (.truth true)⟩] ∧ Ready s)

/-- What is owed: the lock file is removed for what is proven. -/
def owes (h : List StartupEntry) : {β : Type} → StartupOp β → Premises → Prop
  | _, .unlinkLock, s => Proven h s
  | _, _, _ => True

theorem lenient_owes : Lenient (fun h op s => owes h op s) :=
  ⟨fun _ _ _ => trivial, fun _ _ => trivial, fun _ _ => trivial, fun _ _ => trivial⟩

abbrev Recovers (p : StartupScript α) (Q : List StartupEntry → Except StartupError α → Premises → Prop)
    (h : List StartupEntry) (s : Premises) : Prop :=
  Script.Meets startup (fun _ => True) (fun h op s => owes h op s) p Q h s

theorem Looks.recovers {p : StartupScript α} (hp : Looks p) : Recovers p (fun h' _ s' => Quiet h s h' s') h s :=
  hp (fun h op s => owes h op s) lenient_owes h s

/-- What is found is the last thing that was asked. -/
theorem recovers_inspect {q : Inspection} :
    Recovers (inspect q) (fun h' r s' => s'.record = s.record ∧ ∀ found, r = .ok found →
      h' = h ++ [⟨.ask q, .ok found⟩]) h s := by
  apply Script.meets_call trivial
  · intro found s₁ hexec
    obtain ⟨-, rfl⟩ := Prod.mk.inj (Except.ok.inj hexec)
    split
    · exact ⟨rfl, nofun⟩
    · exact ⟨rfl, fun found' hfound => by rw [← Except.ok.inj hfound]⟩
  · exact fun e => ⟨rfl, nofun⟩

theorem recovers_prove {q : Inspection} {expected : Finding} {text : String} :
    Recovers (prove q expected text) (fun h' r s' => s'.record = s.record ∧ ∀ u, r = .ok u →
      h' = h ++ [⟨.ask q, .ok expected⟩]) h s := by
  apply Script.meets_bind recovers_inspect
  · rintro h₁ found s₁ ⟨hrecord, hfound⟩
    rw [demand]
    split
    · rename_i hexpected
      refine ⟨hrecord, fun _ _ => ?_⟩
      rw [hfound found rfl, eq_of_beq hexpected]
    · exact ⟨hrecord, nofun⟩
  · exact fun h₁ e s₁ hr => ⟨hr.1, nofun⟩

theorem looks_inspectLock {transactionId : String} : Looks (inspectLock transactionId) := by
  have hlstat : Looks (perform .lstatLock) := by
    intro O hO h s
    apply Script.meets_perform (hO.lstatLock h s)
    · intro trusted s₁ hexec
      change s.exec .lstatLock = _ at hexec
      cases hl : s.lock with
      | none => simp [Premises.exec, hl] at hexec
      | some file =>
        simp only [Premises.exec, hl, Option.elim_some, Except.ok.injEq, Prod.mk.injEq] at hexec
        rw [← hexec.2]
        exact .plain rfl rfl rfl rfl rfl
    · exact fun e => .plain rfl rfl rfl rfl rfl
  have hread : Looks (perform .readLock) := by
    intro O hO h s
    apply Script.meets_perform (hO.readLock h s)
    · intro text s₁ hexec
      change s.exec .readLock = _ at hexec
      cases hl : s.lock with
      | none => simp [Premises.exec, hl] at hexec
      | some file =>
        simp only [Premises.exec, hl, Option.elim_some, Except.ok.injEq, Prod.mk.injEq] at hexec
        rw [← hexec.2]
        exact .plain rfl rfl rfl rfl rfl
    · exact fun e => .plain rfl rfl rfl rfl rfl
  apply looks_bind hlstat
  intro trusted
  apply looks_bind looks_demand
  intro _
  exact looks_bind hread fun _ => looks_demand

theorem looks_inspectInputs {current : InstallRecord} : Looks (inspectInputs current) := by
  apply looks_bind looks_inspectLock
  intro _
  apply looks_bind looks_noTransition
  intro _
  apply looks_bind looks_sameCandidate
  intro _
  apply looks_bind looks_inspect
  intro identities
  apply looks_bind looks_boundProfile
  intro authMode
  apply looks_bind looks_demand
  intro _
  iterate 4
    apply looks_bind looks_prove
    intro _
  apply looks_bind looks_gate
  exact fun _ => looks_pure

variable {current : InstallRecord}

/-- Services are inactive only where the journal is at its intent. -/
theorem recovers_inspectInactive :
    Recovers (inspectInactive current.phase) (fun _ r s' => s'.record = s.record ∧
      (r = .ok true → current.phase = "startup-intent")) h s := by
  rw [inspectInactive]
  split
  · rename_i hphase
    have hattempt : Recovers ((inspect .systemd).attempt : StartupScript (Except StartupError Finding))
        (fun _ _ s' => s'.record = s.record) h s := by
      apply Script.meets_attempt
      exact Script.meets_mono recovers_inspect fun h₁ r s₁ hr => hr.1
    apply Script.meets_bind hattempt
    · intro h₁ q s₁ hrecord
      split
      · exact ⟨hrecord, fun _ => eq_of_beq hphase⟩
      · exact ⟨hrecord, fun _ => eq_of_beq hphase⟩
    · exact fun h₁ e s₁ hrecord => ⟨hrecord, nofun⟩
  · exact ⟨rfl, nofun⟩

/-- The journal of services that are adopted is ready. -/
theorem recovers_adopted {authMode : String} (hrecord : s.record = some current)
    (hphase : current.phase = "startup-intent" ∨ current.phase = "startup-ready") :
    Recovers (adopted current authMode) (fun _ r s' => ∀ u, r = .ok u → Ready s') h s := by
  rw [adopted]
  -- the first three only look
  apply Script.meets_bind looks_prove.recovers
  · intro h₁ _ s₁ hq₁
    apply Script.meets_bind looks_prove.recovers
    · intro h₂ _ s₂ hq₂
      apply Script.meets_bind looks_prove.recovers
      · intro h₃ _ s₃ hq₃
        have hrecord₃ : s₃.record = some current := ((hq₁.trans hq₂).trans hq₃).record.trans hrecord
        split
        · apply Script.meets_call trivial
          · intro u s₄ hexec
            change s₃.exec (.commit ⟨current.transactionId, "startup-intent", "startup-ready", ""⟩) = _ at hexec
            obtain ⟨-, next, hnext, hready⟩ := exec_commit hexec
            apply Script.meets_mono looks_settle.recovers
            exact fun h₅ r s₅ hq _ _ => hq.ready.mpr ⟨next, hnext, hready⟩
          · exact fun e => nofun
        · rename_i hnot
          refine fun _ _ => ⟨current, hrecord₃, hphase.resolve_left fun hintent => hnot ?_⟩
          rw [hintent]
          rfl
      · exact fun h₃ e s₃ _ => nofun
    · exact fun h₂ e s₂ _ => nofun
  · exact fun h₁ e s₁ _ => nofun

/-- The services are looked at last. -/
theorem recovers_gateAgain {inactive : Bool} (hintent : inactive = true → ∃ r, s.record = some r ∧ r.phase = "startup-intent")
    (hready : inactive = false → Ready s) :
    Recovers (gateAgain inactive) (fun h' r s' => ∀ u, r = .ok u → Proven h' s') h s := by
  apply Script.meets_bind looks_gate.recovers
  · intro h₁ _ s₁ hq₁
    cases inactive with
    | true =>
      rw [if_pos rfl]
      apply Script.meets_mono recovers_prove
      rintro h₂ r s₂ ⟨hrecord, hfound⟩ u hr
      refine .inl ⟨h₁, hfound u hr, ?_⟩
      rw [hrecord, hq₁.record]
      exact hintent rfl
    | false =>
      rw [if_neg Bool.false_ne_true]
      apply Script.meets_bind recovers_prove
      · rintro h₂ _ s₂ ⟨hrecord₂, hfound₂⟩
        apply Script.meets_mono recovers_prove
        rintro h₃ r s₃ ⟨hrecord₃, hfound₃⟩ u hr
        refine .inr ⟨h₁, ?_, ?_⟩
        · rw [hfound₃ u hr, hfound₂ _ rfl]
        · rw [Ready, hrecord₃, hrecord₂]
          exact hq₁.ready.mpr (hready rfl)
      · exact fun h₂ e s₂ _ => nofun
  · exact fun h₁ e s₁ _ => nofun

theorem recovers_recovered {initial : InstallRecord}
    (hphase : initial.phase = "startup-intent" ∨ initial.phase = "startup-ready") :
    Recovers (recovered initial) (fun _ _ _ => True) h s := by
  apply Script.meets_call trivial
  · intro current s₁ hexec
    have hrecord : s₁.record = some current := by
      change s.exec .readJournal = _ at hexec
      cases hr : s.record with
      | none => simp [Premises.exec, hr] at hexec
      | some r =>
        simp only [Premises.exec, hr, Option.elim_some, Except.ok.injEq, Prod.mk.injEq] at hexec
        rw [← hexec.1, ← hexec.2]
        exact hr
    have hdemand : Recovers (demand (current.transactionId == initial.transactionId && current.phase == initial.phase)
        "Clean-install journal changed during startup recovery") (fun _ r s' => s'.record = some current ∧
          ∀ u, r = .ok u → current.phase = "startup-intent" ∨ current.phase = "startup-ready")
        (h ++ [⟨.readJournal, .ok current⟩]) s₁ := by
      rw [demand]
      split
      · rename_i hsame
        rw [Bool.and_eq_true, beq_iff_eq, beq_iff_eq] at hsame
        exact ⟨hrecord, fun _ _ => hsame.2 ▸ hphase⟩
      · exact ⟨hrecord, nofun⟩
    apply Script.meets_bind hdemand
    · rintro h₂ u s₂ ⟨hrecord₂, hphase₂⟩
      apply Script.meets_bind looks_inspectInputs.recovers
      · intro h₃ authMode s₃ hq₃
        apply Script.meets_bind recovers_inspectInactive
        · rintro h₄ inactive s₄ ⟨hrecord₄, hintent⟩
          have hcurrent : s₄.record = some current := hrecord₄.trans (hq₃.record.trans hrecord₂)
          have hadopted : Recovers (adoptedUnless inactive current authMode) (fun _ r s' => ∀ u, r = .ok u →
              (inactive = true → ∃ r, s'.record = some r ∧ r.phase = "startup-intent") ∧
              (inactive = false → Ready s')) h₄ s₄ := by
            cases inactive with
            | true => exact fun _ _ => ⟨fun _ => ⟨current, hcurrent, hintent rfl⟩, nofun⟩
            | false =>
              apply Script.meets_mono (recovers_adopted hcurrent (hphase₂ u rfl))
              exact fun h₅ r s₅ hready v hv => ⟨nofun, fun _ => hready v hv⟩
          apply Script.meets_bind hadopted
          · intro h₅ v s₅ hjournal
            apply Script.meets_bind (recovers_gateAgain (hjournal v rfl).1 (hjournal v rfl).2)
            · intro h₆ w s₆ hproven
              apply Script.meets_call
              · exact hproven w rfl
              · intro x s₇ hexec
                apply Script.meets_bind looks_syncDirectory.recovers
                · exact fun _ _ _ _ => trivial
                · exact fun _ _ _ _ => trivial
              · exact fun _ => trivial
            · exact fun _ _ _ _ => trivial
          · exact fun _ _ _ _ => trivial
        · exact fun _ _ _ _ => trivial
      · exact fun _ _ _ _ => trivial
    · exact fun _ _ _ _ => trivial
  · exact fun _ => trivial

/-- **A recovery** removes the lock file for what is proven only. -/
theorem meets_recoverCleanLocalStartup {rooted : Bool} :
    Recovers (recoverCleanLocalStartup rooted) (fun _ _ _ => True) h s := by
  apply Script.meets_bind looks_demand.recovers
  · intro h₁ _ s₁ _
    apply Script.meets_call trivial
    · intro initial s₂ _
      have hdemand : Recovers (demand (decide (initial.phase ∈ ["startup-intent", "startup-ready"]))
          "No clean local startup to recover") (fun _ r _ => ∀ u, r = .ok u →
            initial.phase = "startup-intent" ∨ initial.phase = "startup-ready")
          (h₁ ++ [⟨.readJournal, .ok initial⟩]) s₂ := by
        rw [demand]
        split
        · rename_i hphase
          rw [decide_eq_true_eq, List.mem_pair] at hphase
          exact fun _ _ => hphase
        · exact nofun
      apply Script.meets_bind hdemand
      · intro h₃ u s₃ hphase
        apply Script.meets_call trivial
        · intro v s₄ _
          have hsettled : Looks (Script.andFinally (do
              perform .settle
              perform .settle) (perform .settle)) :=
            looks_finally (looks_bind looks_settle fun _ => looks_settle) looks_settle
          apply Script.meets_bind hsettled.recovers
          · intro h₅ w s₅ _
            apply Script.meets_bind looks_syncDirectory.recovers
            · intro h₆ x s₆ _
              apply Script.meets_finally (recovers_recovered (hphase u rfl))
              intro h₇ r s₇ _
              apply Script.meets_call trivial
              · intro y s₈ _
                exact Script.meets_mono looks_syncDirectory.recovers fun _ _ _ _ => trivial
              · exact fun _ => trivial
            · exact fun _ _ _ _ => trivial
          · exact fun _ _ _ _ => trivial
        · exact fun _ => trivial
      · exact fun _ _ _ _ => trivial
    · exact fun _ => trivial
  · exact fun _ _ _ _ => trivial

/-- **A start that fails is accounted for** exactly where its handler does not fail to read a journal that is ready; and
a recovery, after whatever has happened, removes the lock file for what is proven only. -/
theorem local_startup_accounted_iff {rooted : Bool} :
    (∀ s tr e s', Runs startup (fun _ => True) (startCleanLocalServices rooted).run s tr (.error e) s' →
      (Accounted tr s' ↔ ¬Blind tr s')) ∧
    ∀ s tr q rest s', Visits startup (fun _ => True) (recoverCleanLocalStartup rooted).run s
        (tr ++ ⟨.unlinkLock, q⟩ :: rest) s' →
      ∃ s₁, Visits startup (fun _ => True) (recoverCleanLocalStartup rooted).run s tr s₁ ∧ Proven tr s₁ := by
  refine ⟨fun s tr e s' hruns => meets_startCleanLocalServices.runs hruns e rfl, fun s tr q rest s' hvisits => ?_⟩
  obtain ⟨s₁, -, hs₁, -, hproven⟩ := (meets_recoverCleanLocalStartup (h := [])).owes hvisits
  exact ⟨s₁, hs₁, hproven⟩

end Looking

/-! ## Runs that are computed -/

def startupHex (n : Nat) : String := String.ofList (List.replicate n 'a')

def startupRecord : InstallRecord where
  format := CleanInstallJournal.FORMAT
  transactionId := startupHex 36
  phase := "startup-intent"
  workspace := "/candidate"
  releaseRoot := "/release"
  manifestSha256 := startupHex 64
  artifactSha256 := startupHex 64
  version := "1.0.0"
  commit := startupHex 40
  identityPlan := ⟨"agent", "/work", "example.test", "ipc", "mcp", "/release", "group", "worker"⟩

/-- Everything is as it should be. -/
def startupAnswers : Inspection → Finding
  | .leftover _ => .thrown true "no such file"
  | .candidate => .candidate startupRecord.artifactSha256 startupRecord.commit startupRecord.version
  | .identityPlan => .plan startupRecord.identityPlan
  | .created => .text "journal-bound"
  | .authProfile => .text "static"
  | .config => .text "bound-private"
  | .data _ _ _ => .text "private-owned"
  | .systemd => .text "inactive-bound"
  | .closedIngress => .text "closed-exclusive"
  | .running => .text "active-bound"
  | _ => .truth true

def intentPremises : Premises := ⟨some startupRecord, none, false, fun _ => startupAnswers, 0⟩

/-- The journal is moved to ready, the directory cannot be synchronised after that, and the journal cannot be read. -/
def blindRun : List StartupEntry × Except StartupError String × Premises :=
  (startCleanLocalServices true).run.planned startup (List.replicate 42 none ++ [some .io, some .io]) intentPremises

theorem blindRun_runs :
    Runs startup (fun _ => True) (startCleanLocalServices true).run intentPremises blindRun.1 blindRun.2.1 blindRun.2.2 :=
  Prog.planned_runs (fun _ => trivial) _ _ _

theorem blindRun_error : ∃ e, blindRun.2.1 = .error e := by
  have hnone : blindRun.2.1.toOption = none := by decide +kernel
  cases hr : blindRun.2.1 with
  | error e => exact ⟨e, rfl⟩
  | ok phase =>
    rw [hr] at hnone
    cases hnone

theorem local_startup_accounted_iff_sample : Accounted blindRun.1 blindRun.2.2 ↔ ¬Blind blindRun.1 blindRun.2.2 := by
  obtain ⟨e, he⟩ := blindRun_error
  have hruns := blindRun_runs
  rw [he] at hruns
  exact local_startup_accounted_iff.1 _ _ _ _ hruns

/-- **The services are stopped although the journal is ready.** -/
theorem local_startup_stops_ready :
    Runs startup (fun _ => True) (startCleanLocalServices true).run intentPremises blindRun.1 blindRun.2.1 blindRun.2.2 ∧
    (∃ e, blindRun.2.1 = .error e) ∧ Ready blindRun.2.2 ∧ stops blindRun.1 = START_ORDER.reverse ∧
    ¬Accounted blindRun.1 blindRun.2.2 := by
  have hphase : blindRun.2.2.record.map InstallRecord.phase = some "startup-ready" := by decide +kernel
  have hready : Ready blindRun.2.2 := Option.map_eq_some_iff.mp hphase
  have hstops : stops blindRun.1 = START_ORDER.reverse := by decide +kernel
  refine ⟨blindRun_runs, blindRun_error, hready, hstops, fun haccounted => ?_⟩
  have hnone := haccounted.2 hready
  rw [hstops] at hnone
  cases hnone

end BegetBridge.LocalStartup
