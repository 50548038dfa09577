import BegetBridge.Release.JournalFile
import BegetBridge.Release.WriterPermit

/-!
# The restart of the old units after a rollback

Once the old state is back and the link to the candidate is removed, the four old units are started one after the other,
under a permit. A record says that the restart has begun, and then that it is done. A call that was cut is made again: it
goes on after the units that are active.

## Main definitions

* `Legacy`, `RestartCall`: the record, the units and what is proven of the rollback, and the calls
* `restartLegacyAfterRollback`: the restart
* `owes`: what is owed where a unit is started, and where the restart is recorded
* `Reach`: what is reached by calls, reboots and repairs

## Main results

* `meets_restart`: what every call owes, and how it ends
* `total_restart`: a call that is not interrupted ends the restart
* `legacy_restart_resumes`: any number of calls
-/

namespace BegetBridge.LegacyRestart

open Posix Interleaving WriterPermit

/-! ## The record, the units and the calls -/

/-- `START` -/
def START : List String :=
  ["dp-beget-session-host.service", "dp-beget-agent.service", "dp-beget-mcp.service", "dp-beget-mcp-oauth-spike.service"]

/-- `PRODUCTS` -/
def PRODUCTS : List String := ["DP Beget Bridge", "DP Beget Bridge", "DP Beget Bridge", "DP Beget Bridge Session Host"]

def FORMAT : String := "dp-beget-bridge-first-migration-legacy-restart-v1"

structure RestartRecord where
  format : String
  phase : String
  ledgerPath : String
  ledgerSha256 : String
  migrationTransactionId : String
  pointerRecordPath : String
  pointerRecordSha256 : String
  deriving DecidableEq

structure Health where
  services : Nat
  products : List String
  deriving DecidableEq

/-- What is proven of the rollback: that it is complete and the writers are closed off, and that the record is outside
of what was restored. -/
structure Boundary where
  bound : Bool
  placed : Bool
  transactionId : String
  deriving DecidableEq

/-- The record and the units, with what is around them. A unit that is started comes to a state, and the start may be
refused. -/
structure Legacy where
  parentTrusted : Bool
  recordTrusted : Bool
  restored : Bool
  boundary : Boundary
  ledgerSha256 : String
  pointerRecordSha256 : String
  health : Health
  starting : String → String × Bool
  record : Option RestartRecord
  states : String → String

/-- The calls. A record is created at once. What is synchronised or closed only settles. -/
inductive RestartCall : Type → Type
  | inspectParent : RestartCall Bool
  | inspectRecord : RestartCall Bool
  | readRecord : RestartCall RestartRecord
  | inspectReplacement : RestartCall Bool
  | inspectBoundary : RestartCall Boundary
  | digestLedger : RestartCall String
  | digestPointer : RestartCall String
  | getState (unit : String) : RestartCall String
  | createRecord (r : RestartRecord) : RestartCall Unit
  | start (unit : String) : RestartCall Bool
  | probe : RestartCall Health
  | settle : RestartCall Unit
  | renameRecord (r : RestartRecord) : RestartCall Unit

namespace Legacy

def withRecord (a : Legacy) (record : Option RestartRecord) : Legacy := { a with record := record }

def withState (a : Legacy) (unit state : String) : Legacy := { a with states := Function.update a.states unit state }

def exec : {β : Type} → RestartCall β → Legacy → Except Errno (β × Legacy)
  | _, .inspectParent, a => .ok (a.parentTrusted, a)
  | _, .inspectRecord, a => a.record.elim (.error .ENOENT) fun _ => .ok (a.recordTrusted, a)
  | _, .readRecord, a => a.record.elim (.error .ENOENT) fun r => .ok (r, a)
  | _, .inspectReplacement, a => .ok (a.restored, a)
  | _, .inspectBoundary, a => .ok (a.boundary, a)
  | _, .digestLedger, a => .ok (a.ledgerSha256, a)
  | _, .digestPointer, a => .ok (a.pointerRecordSha256, a)
  | _, .getState unit, a => .ok (a.states unit, a)
  | _, .createRecord r, a => a.record.elim (.ok ((), a.withRecord (some r))) fun _ => .error .EEXIST
  | _, .start unit, a => .ok ((a.starting unit).2, a.withState unit (a.starting unit).1)
  | _, .probe, a => .ok (a.health, a)
  | _, .settle, a => .ok ((), a)
  | _, .renameRecord r, a => .ok ((), a.withRecord (some r))

end Legacy

def legacy : Backend RestartCall Errno Legacy := ⟨Legacy.exec⟩

/-- What the action under the permit throws. -/
inductive StartError
  | call (e : Errno)
  | message (text : String)
  deriving DecidableEq

abbrev RestartScript := PermitScript RestartCall StartError

/-- A call outside of the permit. -/
def plainly {β : Type} (c : RestartCall β) : RestartScript β := .perform .plain (.act c)

/-! ## The restart -/

/-- What a restart is called with: whether it may be, and the arguments that matter. -/
structure Inputs where
  rooted : Bool
  valid : Bool
  guarded : Bool
  ledgerPath : String
  pointerRecordPath : String

/-- `path.isAbsolute(filename) && path.normalize(filename) === filename` -/
def absolute (filename : String) : Bool := Journal.normalized filename

/-- The fields but for the phase. -/
def fieldsValid (r : RestartRecord) : Bool :=
  r.format == FORMAT && absolute r.ledgerPath && absolute r.pointerRecordPath && Journal.sha256 r.ledgerSha256 &&
    Journal.sha256 r.pointerRecordSha256 && Journal.transaction r.migrationTransactionId

/-- `validate(record)` -/
def validate (r : RestartRecord) : RestartScript RestartRecord := do
  require (r.phase ∈ ["starting", "started"] && fieldsValid r) "Invalid legacy restart record"
  pure r

/-- `readLegacyRestartRecord(recordPath)` -/
def readLegacyRestartRecord : RestartScript RestartRecord := do
  let parent ← plainly .inspectParent
  require parent "Untrusted legacy restart record parent"
  let trusted ← plainly .inspectRecord
  require trusted "Untrusted legacy restart record"
  let r ← plainly .readRecord
  validate r

/-- `boundary(...)` -/
def boundary (guarded : Bool) : RestartScript Boundary := do
  let b ← plainly .inspectBoundary
  require b.bound "Legacy restart is not bound to completed pre-exposure recovery"
  assertWriterPermitAbsent guarded
  pure b

/-- Every unit is in a state, or it is said of one that it is not. -/
def allIn (state text : String) : List String → RestartScript Unit
  | [] => pure ()
  | unit :: units => do
    let found ← plainly (.getState unit)
    require (found == state) (text ++ unit)
    allIn state text units

/-- The record of this restart, in a phase. -/
def Inputs.recordAt (i : Inputs) (transactionId ledgerSha256 pointerRecordSha256 phase : String) : RestartRecord :=
  ⟨FORMAT, phase, i.ledgerPath, ledgerSha256, transactionId, i.pointerRecordPath, pointerRecordSha256⟩

/-- A new record, where every unit is inactive. -/
def created (i : Inputs) : RestartScript RestartRecord := do
  let restored ← plainly .inspectReplacement
  require restored "Old state is not fully restored before legacy startup"
  allIn "inactive" "Legacy writer was already active: " START
  let b ← boundary i.guarded
  require b.placed "Legacy restart record must be outside live state, units and backups"
  let ledger ← plainly .digestLedger
  let pointer ← plainly .digestPointer
  let record ← validate (i.recordAt b.transactionId ledger pointer "starting")
  plainly (.createRecord record)
  pure record

/-- The record that is there, or a new one. -/
def intended (i : Inputs) : RestartScript RestartRecord :=
  tryCatch readLegacyRestartRecord fun
  | .plain .ENOENT => created i
  | error => throw error

/-- How many units of the order are active. The others are inactive. -/
def activePrefix : List String → Nat → RestartScript Nat
  | [], n => pure n
  | unit :: units, n => do
    let state ← plainly (.getState unit)
    if state == "active" && n == START.idxOf unit then activePrefix units (n + 1)
    else do
      require (state == "inactive") ("Unexpected legacy writer state: " ++ unit)
      activePrefix units n

/-- A call of the action. -/
def acted {β : Type} (c : RestartCall β) : Script RestartCall Errno StartError β := .perform .call c

def demand (holds : Bool) (text : String) : Script RestartCall Errno StartError Unit :=
  if holds then pure () else throw (.message text)

/-- The units are started, one after the other. -/
def startUnits : List String → Script RestartCall Errno StartError Unit
  | [] => pure ()
  | unit :: units => do
    let started ← acted (.start unit)
    demand started ("Command failed: systemctl start " ++ unit)
    let state ← acted (.getState unit)
    demand (state == "active") ("Legacy writer failed to start: " ++ unit)
    startUnits units

/-- What is missing is started, under the permit. -/
def startMissing (i : Inputs) (record : RestartRecord) (n : Nat) : RestartScript Unit :=
  if record.phase == "starting" && n < START.length then
    withWriterStartPermit i.rooted i.guarded (startUnits (START.drop n))
  else pure ()

/-- `assertLegacyHealthResult(result)` -/
def assertLegacyHealthResult (health : Health) : RestartScript Unit :=
  require (health.services == 4 && health.products == PRODUCTS) "Four exact R0003 local health responses are required"

/-- The restart is recorded. -/
def recorded (record : RestartRecord) : RestartScript RestartRecord :=
  if record.phase == "starting" then do
    let current ← readLegacyRestartRecord
    require (current == record) "Legacy restart record changed"
    let next ← validate { record with phase := "started" }
    plainly .settle
    Script.andFinally (do
      plainly .settle
      plainly .settle) (plainly .settle)
    plainly (.renameRecord next)
    plainly .settle
    Script.andFinally (plainly .settle) (plainly .settle)
    pure next
  else pure record

/-- `restartLegacyAfterRollback` -/
def restartLegacyAfterRollback (i : Inputs) : RestartScript RestartRecord := do
  require (i.rooted && i.valid) "Root, recovery records and exclusive route proof are required"
  let parent ← plainly .inspectParent
  require parent "Untrusted legacy restart record parent"
  let record ← intended i
  let b ← boundary i.guarded
  require b.placed "Legacy restart record must be outside live state, units and backups"
  let ledger ← plainly .digestLedger
  let pointer ← plainly .digestPointer
  require (record.ledgerPath == i.ledgerPath && record.pointerRecordPath == i.pointerRecordPath &&
    record.migrationTransactionId == b.transactionId && record.ledgerSha256 == ledger &&
    record.pointerRecordSha256 == pointer) "Legacy restart record changed or belongs to another recovery"
  let n ← activePrefix START 0
  startMissing i record n
  let _ ← boundary i.guarded
  allIn "active" "Legacy writer is not active: " START
  let health ← plainly .probe
  assertLegacyHealthResult health
  let record ← recorded record
  let _ ← boundary i.guarded
  pure record

/-! ## What is owed -/

section Restart

variable {i : Inputs} {Fault : Errno → Prop} {s₀ s s' : Scope Legacy} {h : List (Entry (PermitOp RestartCall) Errno)}
  {α β : Type}

/-- The units that were started. -/
def startedUnits (h : List (Entry (PermitOp RestartCall) Errno)) : List String :=
  h.filterMap fun
  | ⟨.act (.start unit), _⟩ => some unit
  | _ => none

/-- The first units of the order are active, and the others are inactive. -/
structure Active (states : String → String) (n : Nat) : Prop where
  le : n ≤ START.length
  active : ∀ unit ∈ START.take n, states unit = "active"
  inactive : ∀ unit ∈ START.drop n, states unit = "inactive"

/-- The same, but for one unit that may be in any state. -/
def Chain (states : String → String) : Prop :=
  ∃ n, (∀ unit ∈ START.take n, states unit = "active") ∧ ∀ unit ∈ START.drop (n + 1), states unit = "inactive"

/-- The record of this restart, in a phase. -/
def Legacy.recordAt (a : Legacy) (i : Inputs) (phase : String) : RestartRecord :=
  i.recordAt a.boundary.transactionId a.ledgerSha256 a.pointerRecordSha256 phase

/-- What calls leave: the record is of this restart, the units are started in order, and not before there is a record. -/
structure Sound (i : Inputs) (a : Legacy) : Prop where
  record : ∀ r, a.record = some r → r = a.recordAt i r.phase ∧ (r.phase = "starting" ∨ r.phase = "started")
  chain : Chain a.states
  unstarted : a.record = none → ∀ unit ∈ START, a.states unit = "inactive"

/-- The exact health was seen since the last start. -/
def Healthy (h : List (Entry (PermitOp RestartCall) Errno)) : Prop :=
  ∃ h₁ health h₂, h = h₁ ++ ⟨.act .probe, .ok health⟩ :: h₂ ∧ (health.services = 4 ∧ health.products = PRODUCTS) ∧
    startedUnits h₂ = []

/-- What is owed: the units that are missing are started in their order, under the permit and the marker, and none that
is active. The restart is recorded once all are active and the exact health was seen. -/
def owes (states : String → String) (h : List (Entry (PermitOp RestartCall) Errno)) :
    {γ : Type} → PermitOp RestartCall γ → Scope Legacy → Prop
  | _, .act (.start unit), s => (∃ n, Active states n ∧ startedUnits h ++ [unit] <+: START.drop n) ∧
      s.site.Permitted ∧ s.site.marker = true ∧ s.rest.states unit = "inactive"
  | _, .act (.renameRecord r), s => r.phase = "started" ∧ (∀ unit ∈ START, s.rest.states unit = "active") ∧ Healthy h
  | _, _, _ => True

/-- How a script ends: in `P`, or in a throw that leaves a sound state. -/
def Ends (i : Inputs) (s₀ : Scope Legacy) (P : List (Entry (PermitOp RestartCall) Errno) → α → Scope Legacy → Prop)
    (h : List (Entry (PermitOp RestartCall) Errno)) (r : Except (PermitThrown StartError) α) (s : Scope Legacy) : Prop :=
  (Sound i s₀.rest → Sound i s.rest) ∧ ∀ a, r = .ok a → P h a s

/-- Every run keeps what is sound, pays what it owes, and ends in `P` if it returns. -/
abbrev Restarts (i : Inputs) (Fault : Errno → Prop) (s₀ : Scope Legacy) (p : RestartScript α)
    (P : List (Entry (PermitOp RestartCall) Errno) → α → Scope Legacy → Prop)
    (h : List (Entry (PermitOp RestartCall) Errno)) (s : Scope Legacy) : Prop :=
  Script.Meets (scope legacy) Fault
    (fun h op s => (Sound i s₀.rest → Sound i s.rest) ∧ owes s₀.rest.states h op s) p (Ends i s₀ P) h s

/-! ## What leaves the units alone -/

/-- The calls that are no starts, nor make a permit. -/
def hushed : {γ : Type} → PermitOp RestartCall γ → Bool
  | _, .act (.start _) => false
  | _, .act _ => true
  | _, .permit .lstatPermit => true
  | _, .permit _ => false

/-- What is known of the history stays known after such calls. -/
def Lasting (K : List (Entry (PermitOp RestartCall) Errno) → Prop) : Prop :=
  ∀ h (x : Entry (PermitOp RestartCall) Errno), hushed x.op = true → K h → K (h ++ [x])

variable {K : List (Entry (PermitOp RestartCall) Errno) → Prop}
  {P : List (Entry (PermitOp RestartCall) Errno) → α → Scope Legacy → Prop}

theorem startedUnits_append {h h' : List (Entry (PermitOp RestartCall) Errno)} :
    startedUnits (h ++ h') = startedUnits h ++ startedUnits h' := List.filterMap_append ..

theorem startedUnits_hushed {x : Entry (PermitOp RestartCall) Errno} (hx : hushed x.op = true) : startedUnits [x] = [] := by
  obtain ⟨op, r⟩ := x
  rcases op with c | a
  · rfl
  · cases a with
    | start => cases hx
    | _ => rfl

theorem spoils_hushed {x : Entry (PermitOp RestartCall) Errno} (hx : hushed x.op = true) : spoils x = false := by
  obtain ⟨op, r⟩ := x
  rcases op with c | a
  · cases c with
    | lstatPermit => rfl
    | _ => cases hx
  · rfl

/-- No unit was started, and no permit was spoiled. -/
def Untouched (h : List (Entry (PermitOp RestartCall) Errno)) : Prop := startedUnits h = [] ∧ Unspoiled h

/-- These units were started. -/
def StartedAre (units : List String) (h : List (Entry (PermitOp RestartCall) Errno)) : Prop := startedUnits h = units

/-- These units were started, and the exact health was seen since. -/
def Seen (units : List String) (h : List (Entry (PermitOp RestartCall) Errno)) : Prop := StartedAre units h ∧ Healthy h

theorem lasting_started {units : List String} : Lasting (StartedAre units) := by
  intro h x hx hunits
  rw [StartedAre, startedUnits_append, startedUnits_hushed hx, List.append_nil]
  exact hunits

theorem lasting_untouched : Lasting Untouched :=
  fun h x hx hh => ⟨lasting_started h x hx hh.1, unspoiled_snoc.mpr ⟨hh.2, spoils_hushed hx⟩⟩

theorem lasting_healthy : Lasting Healthy := by
  rintro h x hx ⟨h₁, health, h₂, rfl, hexact, hnone⟩
  refine ⟨h₁, health, h₂ ++ [x], ?_, hexact, ?_⟩
  · simp
  · rw [startedUnits_append, hnone, startedUnits_hushed hx, List.append_nil]

theorem lasting_seen {units : List String} : Lasting (Seen units) :=
  fun h x hx hh => ⟨lasting_started h x hx hh.1, lasting_healthy h x hx hh.2⟩

theorem restarts_bind {p : RestartScript β} {f : β → RestartScript α}
    {R : List (Entry (PermitOp RestartCall) Errno) → β → Scope Legacy → Prop} (hp : Restarts i Fault s₀ p R h s)
    (hf : ∀ b h' s', (Sound i s₀.rest → Sound i s'.rest) → R h' b s' → Restarts i Fault s₀ (f b) P h' s') :
    Restarts i Fault s₀ (p >>= f) P h s := by
  apply Script.meets_bind hp
  · exact fun h' b s' hs' => hf b h' s' hs'.1 (hs'.2 b rfl)
  · exact fun h' e s' hs' => ⟨hs'.1, nofun⟩

theorem restarts_pure {a : α} (hs : Sound i s₀.rest → Sound i s.rest) (hP : P h a s) :
    Restarts i Fault s₀ (pure a) P h s := ⟨hs, fun b hb => by rwa [← Except.ok.inj hb]⟩

/-- Every run leaves everything as it is, and what is known of the history stays known. -/
abbrev Looks (i : Inputs) (Fault : Errno → Prop) (s₀ : Scope Legacy)
    (K : List (Entry (PermitOp RestartCall) Errno) → Prop) (p : RestartScript α) (P : α → Prop)
    (h : List (Entry (PermitOp RestartCall) Errno)) (s : Scope Legacy) : Prop :=
  Script.Meets (scope legacy) Fault
    (fun h op s => (Sound i s₀.rest → Sound i s.rest) ∧ owes s₀.rest.states h op s) p
    (fun h' r s' => s' = s ∧ K h' ∧ ∀ a, r = .ok a → P a) h s

theorem looks_pure {a : α} {P' : α → Prop} (hh : K h) (ha : P' a) : Looks i Fault s₀ K (pure a) P' h s :=
  ⟨rfl, hh, fun b hb => by rwa [← Except.ok.inj hb]⟩

theorem looks_throw {e : PermitThrown StartError} {P' : α → Prop} (hh : K h) :
    Looks i Fault s₀ K (throw e) P' h s := ⟨rfl, hh, nofun⟩

theorem looks_bind {p : RestartScript β} {f : β → RestartScript α} {P' : β → Prop} {P'' : α → Prop}
    (hp : Looks i Fault s₀ K p P' h s) (hf : ∀ b h', K h' → P' b → Looks i Fault s₀ K (f b) P'' h' s) :
    Looks i Fault s₀ K (p >>= f) P'' h s := by
  apply Script.meets_bind hp
  · rintro h' b _ ⟨rfl, hh', hb⟩
    exact hf b h' hh' (hb b rfl)
  · exact fun h' e s' hs' => ⟨hs'.1, hs'.2.1, nofun⟩

/-- After what leaves everything as it is, the same is known. -/
theorem restarts_after {p : RestartScript β} {f : β → RestartScript α} {P' : β → Prop}
    (hs : Sound i s₀.rest → Sound i s.rest) (hp : Looks i Fault s₀ K p P' h s)
    (hf : ∀ b h', K h' → P' b → Restarts i Fault s₀ (f b) P h' s) : Restarts i Fault s₀ (p >>= f) P h s := by
  apply Script.meets_bind hp
  · rintro h' b _ ⟨rfl, hh', hb⟩
    exact hf b h' hh' (hb b rfl)
  · rintro h' e _ ⟨rfl, -⟩
    exact ⟨hs, nofun⟩

theorem looks_require {holds : Bool} {text : String} (hh : K h) :
    Looks i Fault s₀ K (require holds text) (fun _ => holds = true) h s := by
  cases holds with
  | true => exact looks_pure hh rfl
  | false => exact looks_throw hh

theorem exec_acted {c : RestartCall α} {a : α} (hexec : (scope legacy).exec (.act c) s = .ok (a, s')) :
    s' = { s with rest := s'.rest } ∧ s.rest.exec c = .ok (a, s'.rest) := by
  change (s.rest.exec c).map _ = _ at hexec
  cases hc : s.rest.exec c with
  | error e =>
    rw [hc] at hexec
    cases hexec
  | ok r =>
    rw [hc] at hexec
    obtain ⟨rfl, rfl⟩ := Prod.mk.inj (Except.ok.inj hexec)
    exact ⟨rfl, rfl⟩

/-- The calls that only look. -/
def RestartCall.looks : {γ : Type} → RestartCall γ → Bool
  | _, .createRecord _ => false
  | _, .start _ => false
  | _, .renameRecord _ => false
  | _, _ => true

theorem exec_looks {c : RestartCall α} {a : α} {t t' : Legacy} (hlooks : c.looks = true) (hexec : t.exec c = .ok (a, t')) :
    t' = t := by
  cases c with
  | createRecord | start | renameRecord => cases hlooks
  | inspectRecord | readRecord =>
    cases hrecord : t.record with
    | none => simp [Legacy.exec, hrecord] at hexec
    | some r => simp_all [Legacy.exec]
  | _ => exact (Prod.mk.inj (Except.ok.inj hexec)).2.symm

/-- What only looks leaves everything as it is. -/
theorem looks_call {c : RestartCall α} (hK : Lasting K) (hs : Sound i s₀.rest → Sound i s.rest) (hh : K h)
    (hlooks : c.looks = true) :
    Looks i Fault s₀ K (plainly c) (fun a => s.rest.exec c = .ok (a, s.rest)) h s := by
  have hhushed : hushed (.act c : PermitOp RestartCall α) = true := by
    cases c with
    | start => cases hlooks
    | _ => rfl
  apply Script.meets_perform
  · refine ⟨hs, ?_⟩
    cases c with
    | start | renameRecord => cases hlooks
    | _ => trivial
  · intro a s' hexec
    obtain ⟨hs', hrest⟩ := exec_acted hexec
    have hsame := exec_looks hlooks hrest
    rw [hsame] at hs' hrest
    subst hs'
    refine ⟨rfl, hK h _ hhushed hh, fun b hb => ?_⟩
    rw [← Except.ok.inj hb]
    exact hrest
  · exact fun e => ⟨rfl, hK h _ hhushed hh, nofun⟩

theorem looks_validate {r : RestartRecord} (hh : K h) :
    Looks i Fault s₀ K (validate r) (fun r' => r' = r ∧ r.phase ∈ ["starting", "started"]) h s := by
  rw [validate]
  apply looks_bind (looks_require hh)
  intro _ h₁ hh₁ hvalid
  rw [Bool.and_eq_true, decide_eq_true_iff] at hvalid
  exact looks_pure hh₁ ⟨rfl, hvalid.1⟩

theorem looks_readRecord (hK : Lasting K) (hs : Sound i s₀.rest → Sound i s.rest) (hh : K h) :
    Looks i Fault s₀ K readLegacyRestartRecord (fun r => s.rest.record = some r) h s := by
  rw [readLegacyRestartRecord]
  apply looks_bind (looks_call hK hs hh rfl)
  rintro parent h₁ hh₁ -
  apply looks_bind (looks_require hh₁)
  rintro _ h₂ hh₂ -
  apply looks_bind (looks_call hK hs hh₂ rfl)
  rintro trusted h₃ hh₃ -
  apply looks_bind (looks_require hh₃)
  rintro _ h₄ hh₄ -
  apply looks_bind (looks_call hK hs hh₄ rfl)
  intro r h₅ hh₅ hread
  have hrecord : s.rest.record = some r := by
    cases hrecord : s.rest.record with
    | none => simp [Legacy.exec, hrecord] at hread
    | some r' => simp_all [Legacy.exec]
  rw [validate]
  apply looks_bind (looks_require hh₅)
  rintro _ h₆ hh₆ -
  exact looks_pure hh₆ hrecord

theorem looks_permitAbsent {guarded : Bool} (hK : Lasting K) (hs : Sound i s₀.rest → Sound i s.rest) (hh : K h) :
    Looks i Fault s₀ K (assertWriterPermitAbsent guarded) (fun _ => True) h s := by
  rw [assertWriterPermitAbsent]
  apply looks_bind (looks_require hh)
  rintro _ h₁ hh₁ -
  refine Script.meets_tryCatch (P := fun h' r s' => s' = s ∧ K h' ∧ ∀ u, r ≠ .ok u) ?_ ?_ ?_
  · apply Script.meets_call ⟨hs, trivial⟩
    · intro _ s' hexec
      have hsame : s'.site = s.site := by
        have hlstat := (exec_permit hexec).1
        cases hpermit : s.site.permit with
        | none => simp [PermitSite.exec, hpermit] at hlstat
        | some file => simp_all [PermitSite.exec]
      have hs' : s' = s := by
        obtain ⟨site, rest⟩ := s'
        obtain ⟨site', rest'⟩ := s
        obtain rfl := hsame
        obtain rfl := (exec_permit hexec).2
        rfl
      exact Script.meets_throw ⟨hs', hK _ _ rfl hh₁, by rintro _ ⟨⟩⟩
    · exact fun e => ⟨rfl, hK _ _ rfl hh₁, by rintro _ ⟨⟩⟩
  · exact fun h' u s' hs' => absurd rfl (hs'.2.2 u)
  · rintro h' e s' ⟨rfl, hh', -⟩
    split
    · exact looks_pure hh' trivial
    · exact looks_throw hh'

theorem looks_boundary {guarded : Bool} (hK : Lasting K) (hs : Sound i s₀.rest → Sound i s.rest) (hh : K h) :
    Looks i Fault s₀ K (boundary guarded) (fun b => b = s.rest.boundary) h s := by
  rw [boundary]
  apply looks_bind (looks_call hK hs hh rfl)
  intro b h₁ hh₁ hexec
  apply looks_bind (looks_require hh₁)
  rintro _ h₂ hh₂ -
  apply looks_bind (looks_permitAbsent hK hs hh₂)
  rintro _ h₃ hh₃ -
  exact looks_pure hh₃ (Prod.mk.inj (Except.ok.inj hexec)).1.symm

theorem looks_allIn {state text : String} {units : List String} (hK : Lasting K)
    (hs : Sound i s₀.rest → Sound i s.rest) (hh : K h) :
    Looks i Fault s₀ K (allIn state text units)
      (fun _ => ∀ unit ∈ units, s.rest.states unit = state) h s := by
  induction units generalizing h with
  | nil => exact looks_pure hh nofun
  | cons unit units ih =>
    rw [allIn]
    apply looks_bind (looks_call hK hs hh rfl)
    intro found h₁ hh₁ hfound
    apply looks_bind (looks_require hh₁)
    intro _ h₂ hh₂ hstate
    apply Script.meets_mono (ih hh₂)
    rintro h₃ r _ ⟨rfl, hh₃, hall⟩
    refine ⟨rfl, hh₃, fun u hu => List.forall_mem_cons.mpr ⟨?_, hall u hu⟩⟩
    rw [← eq_of_beq hstate]
    exact (Prod.mk.inj (Except.ok.inj hfound)).1

theorem start_nodup : START.Nodup := by decide

theorem mem_take_succ {unit : String} {k : Nat} (hk : k < START.length) (hunit : unit ∈ START.take (k + 1)) :
    unit ∈ START.take k ∨ unit = START[k] := by
  rw [List.take_succ_eq_append_getElem hk] at hunit
  rcases List.mem_append.mp hunit with hbefore | hlast
  · exact .inl hbefore
  · exact .inr (List.mem_singleton.mp hlast)

/-- The first units of the order are active, and of the others those are inactive that were looked at. -/
theorem looks_activePrefix {d k n : Nat} (hd : START.length - k = d) (hk : k ≤ START.length) (hn : n ≤ k)
    (hK : Lasting K) (hs : Sound i s₀.rest → Sound i s.rest) (hh : K h)
    (hactive : ∀ unit ∈ START.take n, s.rest.states unit = "active")
    (hinactive : ∀ unit ∈ (START.take k).drop n, s.rest.states unit = "inactive") :
    Looks i Fault s₀ K (activePrefix (START.drop k) n)
      (fun m => Active s.rest.states m) h s := by
  induction d generalizing k n h with
  | zero =>
    obtain rfl : k = START.length := by omega
    rw [List.drop_length]
    rw [List.take_length] at hinactive
    exact looks_pure hh ⟨hn, hactive, hinactive⟩
  | succ d ih =>
    have hlt : k < START.length := by omega
    rw [List.drop_eq_getElem_cons hlt, activePrefix]
    apply looks_bind (looks_call hK hs hh rfl)
    intro state h₁ hh₁ hstate
    obtain rfl : s.rest.states START[k] = state := (Prod.mk.inj (Except.ok.inj hstate)).1
    split
    · next hnext =>
      -- the unit is the next one of the order
      rw [Bool.and_eq_true, start_nodup.idxOf_getElem, beq_iff_eq, beq_iff_eq] at hnext
      obtain ⟨hstate, rfl⟩ := hnext
      apply ih (by omega) (by omega) (Nat.le_refl _) hh₁
      · intro unit hunit
        rcases mem_take_succ hlt hunit with hbefore | rfl
        · exact hactive unit hbefore
        · exact hstate
      · simp
    · apply looks_bind (looks_require hh₁)
      intro _ h₂ hh₂ hfound
      apply ih (by omega) (by omega) (by omega) hh₂ hactive
      intro unit hunit
      rw [List.take_succ_eq_append_getElem hlt, List.drop_append_of_le_length (by simp; omega)] at hunit
      rcases List.mem_append.mp hunit with hbefore | hlast
      · exact hinactive unit hbefore
      · rw [List.mem_singleton.mp hlast]
        exact eq_of_beq hfound

theorem Active.chain {states : String → String} {n : Nat} (hn : Active states n) : Chain states :=
  ⟨n, hn.active, fun unit hunit => hn.inactive unit (List.mem_of_mem_drop (by rwa [List.drop_drop] : unit ∈ (START.drop n).drop 1))⟩

/-- What is known of the units and of the record once there is one. -/
def Intended (s : Scope Legacy) (K : List (Entry (PermitOp RestartCall) Errno) → Prop)
    (h : List (Entry (PermitOp RestartCall) Errno)) (r : RestartRecord) (s' : Scope Legacy) : Prop :=
  K h ∧ s'.rest.states = s.rest.states ∧ s'.rest.record = some r

/-- A record is created where every unit is inactive. -/
theorem restarts_created (hK : Lasting K) (hs : Sound i s₀.rest → Sound i s.rest) (hh : K h) :
    Restarts i Fault s₀ (created i) (Intended s K) h s := by
  rw [created]
  apply restarts_after hs (looks_call hK hs hh rfl)
  rintro restored h₁ hh₁ -
  apply restarts_after hs (looks_require hh₁)
  rintro _ h₂ hh₂ -
  apply restarts_after hs (looks_allIn hK hs hh₂)
  intro _ h₃ hh₃ hinactive
  apply restarts_after hs (looks_boundary hK hs hh₃)
  rintro _ h₄ hh₄ rfl
  apply restarts_after hs (looks_require hh₄)
  rintro _ h₅ hh₅ -
  apply restarts_after hs (looks_call hK hs hh₅ rfl)
  intro ledger h₆ hh₆ hledger
  apply restarts_after hs (looks_call hK hs hh₆ rfl)
  intro pointer h₇ hh₇ hpointer
  apply restarts_after hs (looks_validate hh₇)
  rintro _ h₈ hh₈ ⟨rfl, -⟩
  obtain rfl := (Prod.mk.inj (Except.ok.inj hledger)).1
  obtain rfl := (Prod.mk.inj (Except.ok.inj hpointer)).1
  apply restarts_bind (R := fun h' _ s' => K h' ∧ s'.rest = s.rest.withRecord (some (s.rest.recordAt i "starting")))
  · apply Script.meets_perform ⟨hs, trivial⟩
    · intro _ s' hexec
      have hcreate := (exec_acted hexec).2
      have hs' : s'.rest = s.rest.withRecord (some (s.rest.recordAt i "starting")) := by
        cases hrecord : s.rest.record with
        | some r => simp [Legacy.exec, hrecord] at hcreate
        | none =>
          simp only [Legacy.exec, hrecord, Option.elim_none, Except.ok.injEq, Prod.mk.injEq, true_and] at hcreate
          exact hcreate.symm
      refine ⟨fun hsound => ?_, fun _ _ => ⟨hK _ _ rfl hh₈, hs'⟩⟩
      rw [hs']
      refine ⟨fun r hr => ?_, (hs hsound).chain, nofun⟩
      obtain rfl := Option.some.inj hr
      exact ⟨rfl, .inl rfl⟩
    · exact fun e => ⟨hs, nofun⟩
  · rintro _ h₉ s₉ hs₉ ⟨hh₉, hrest⟩
    apply restarts_pure hs₉
    refine ⟨hh₉, ?_, ?_⟩
    all_goals
      rw [hrest]
      rfl

theorem restarts_intended (hK : Lasting K) (hs : Sound i s₀.rest → Sound i s.rest) (hh : K h) :
    Restarts i Fault s₀ (intended i) (Intended s K) h s := by
  apply Script.meets_tryCatch (looks_readRecord hK hs hh)
  · rintro h' r _ ⟨rfl, hh', hr⟩
    refine ⟨hs, fun r' hr' => ?_⟩
    rw [← Except.ok.inj hr']
    exact ⟨hh', rfl, hr r rfl⟩
  · rintro h' e _ ⟨rfl, hh', -⟩
    split
    · exact restarts_created hK hs hh'
    · exact Script.meets_throw ⟨hs, nofun⟩

/-! ## What is started -/

/-- The other units of the order stay as they are. -/
theorem started_others {states : String → String} {m : Nat} {state : String} (hm : Active states m)
    (hlt : m < START.length) :
    (∀ unit ∈ START.take m, Function.update states START[m] state unit = "active") ∧
      ∀ unit ∈ START.drop (m + 1), Function.update states START[m] state unit = "inactive" := by
  have hall := start_nodup
  rw [← List.take_append_drop m START, List.drop_eq_getElem_cons hlt, List.nodup_append] at hall
  obtain ⟨-, hlast, hdisjoint⟩ := hall
  refine ⟨fun unit hunit => ?_, fun unit hunit => ?_⟩
  · rw [Function.update_of_ne (hdisjoint unit hunit _ (List.mem_cons_self ..))]
    exact hm.active unit hunit
  · rw [Function.update_of_ne]
    · apply hm.inactive
      rw [List.drop_eq_getElem_cons hlt]
      exact List.mem_cons_of_mem _ hunit
    · rintro rfl
      exact (List.nodup_cons.mp hlast).1 hunit

/-- The next unit of the order is active. -/
theorem Active.started {states : String → String} {m : Nat} (hm : Active states m) (hlt : m < START.length) :
    Active (Function.update states START[m] "active") (m + 1) := by
  refine ⟨hlt, fun unit hunit => ?_, (started_others hm hlt).2⟩
  rcases mem_take_succ hlt hunit with hbefore | rfl
  · exact (started_others hm hlt).1 unit hbefore
  · exact Function.update_self ..

/-- What is known while the units are started. -/
structure Starting (i : Inputs) (s₀ : Scope Legacy) (n : Nat) (r : RestartRecord)
    (h : List (Entry (PermitOp RestartCall) Errno)) (s : Scope Legacy) : Prop where
  sound : Sound i s₀.rest → Sound i s.rest
  started : startedUnits h <+: START.drop n
  record : s.rest.record = some r

theorem Starting.answered {n : Nat} {r : RestartRecord} {x : Entry (PermitOp RestartCall) Errno} (hs : Starting i s₀ n r h s)
    (hx : hushed x.op = true) : Starting i s₀ n r (h ++ [x]) s := by
  refine ⟨hs.sound, ?_, hs.record⟩
  rw [startedUnits_append, startedUnits_hushed hx, List.append_nil]
  exact hs.started

/-- **The missing units are started in their order**, each once the one before it is active. -/
theorem meets_startUnits {d n m : Nat} {r : RestartRecord} (hd : START.length - m = d) (hn : Active s₀.rest.states n)
    (hm : Active s.rest.states m) (hs : Starting i s₀ n r h s) (hmarker : s.site.marker = true)
    (hmissing : startedUnits h ++ START.drop m = START.drop n) :
    Prog.Meets (scope legacy) Fault
      (fun h op s => actsPermitted op s → (Sound i s₀.rest → Sound i s.rest) ∧ owes s₀.rest.states h op s)
      ((startUnits (START.drop m)).run.mapOp .act)
      (fun h' q s' => Starting i s₀ n r h' s' ∧ ∀ u, q = .ok u → startedUnits h' = START.drop n) h s := by
  induction d generalizing m h s with
  | zero =>
    have hle := hm.le
    obtain rfl : m = START.length := by omega
    rw [List.drop_length] at hmissing ⊢
    rw [List.append_nil] at hmissing
    exact ⟨hs, fun _ _ => hmissing⟩
  | succ d ih =>
    have hlt : m < START.length := by omega
    rw [List.drop_eq_getElem_cons hlt] at hmissing ⊢
    have hattempted : ∀ q : Except Errno Bool,
        startedUnits (h ++ [⟨.act (.start START[m]), q⟩]) ++ START.drop (m + 1) = START.drop n := by
      intro q
      rw [startedUnits_append, List.append_assoc]
      exact hmissing
    refine ⟨fun hpermitted => ⟨hs.sound, ⟨n, hn, START.drop (m + 1), ?_⟩, hpermitted, hmarker, ?_⟩, fun q s₁ hans => ?_⟩
    · rw [List.append_assoc]
      exact hmissing
    · apply hm.inactive
      rw [List.drop_eq_getElem_cons hlt]
      exact List.mem_cons_self ..
    · have hfailed : ∀ e, Starting i s₀ n r (h ++ [⟨.act (.start START[m]), .error e⟩]) s :=
        fun e => ⟨hs.sound, ⟨_, hattempted (.error e)⟩, hs.record⟩
      cases hans with
      | refusal | fault => exact ⟨hfailed _, nofun⟩
      | effect hexec =>
        obtain ⟨hs₁, hstart⟩ := exec_acted hexec
        obtain ⟨hok, hrest⟩ := Prod.mk.inj (Except.ok.inj hstart)
        have hstarting : ∀ q, Starting i s₀ n r (h ++ [⟨.act (.start START[m]), q⟩]) s₁ := by
          refine fun q => ⟨fun hsound => ?_, ⟨_, hattempted q⟩, ?_⟩
          · rw [← hrest]
            exact ⟨(hs.sound hsound).record, ⟨m, started_others hm hlt⟩,
              fun hnone => absurd (hs.record.symm.trans hnone) nofun⟩
          · rw [← hrest]
            exact hs.record
        subst hok
        cases hflag : (s.rest.starting START[m]).2 with
        | false =>
          exact ⟨hstarting _, nofun⟩
        | true =>
          refine ⟨fun _ => ⟨(hstarting (.ok true)).sound, trivial⟩, fun q s₂ hans => ?_⟩
          cases hans with
          | refusal | fault => exact ⟨(hstarting _).answered rfl, nofun⟩
          | effect hexec =>
            obtain ⟨hs₂, hfound⟩ := exec_acted hexec
            obtain ⟨rfl, hsame⟩ := Prod.mk.inj (Except.ok.inj hfound)
            obtain rfl : s₂ = s₁ := hs₂.trans (by rw [← hsame])
            change Prog.Meets _ _ _ (Prog.mapOp PermitOp.act (demand (s₂.rest.states START[m] == "active")
              ("Legacy writer failed to start: " ++ START[m]) >>= fun _ => startUnits (START.drop (m + 1))).run) _ _ _
            have hlooked := (hstarting (.ok true)).answered
              (x := ⟨.act (.getState START[m]), .ok (s₂.rest.states START[m])⟩) rfl
            cases hactive : s₂.rest.states START[m] == "active" with
            | false => exact ⟨hlooked, nofun⟩
            | true =>
              have hstates : s₂.rest.states = Function.update s.rest.states START[m] "active" := by
                rw [← hrest] at hactive ⊢
                simp only [Legacy.withState, Function.update_self, beq_iff_eq] at hactive ⊢
                rw [hactive]
              apply ih (by omega) (hstates ▸ hm.started hlt) hlooked
              · rw [hs₁]
                exact hmarker
              · rw [startedUnits_append, startedUnits_hushed rfl, List.append_nil]
                exact hattempted _

theorem answer_rest {γ : Type} {c : PermitCall γ} {r : Except Errno γ}
    (hans : Answer (scope legacy) Fault (.permit c) s r s') : s'.rest = s.rest := by
  cases hans with
  | effect hexec => exact (exec_permit hexec).2
  | refusal | fault => rfl

theorem startedUnits_permit {γ : Type} {c : PermitCall γ} {q : Except Errno γ} :
    startedUnits (h ++ [⟨.permit c, q⟩]) = startedUnits h := by
  rw [startedUnits_append]
  exact List.append_nil _

theorem keptAround_starting {n : Nat} {r : RestartRecord} : KeptAround legacy Fault (Starting i s₀ n r) := by
  intro γ c h s s' q hs hans
  refine ⟨?_, ?_, ?_⟩
  · rw [answer_rest hans]
    exact hs.sound
  · rw [startedUnits_permit]
    exact hs.started
  · rw [answer_rest hans]
    exact hs.record

/-- What is missing is started, or nothing is. -/
def Missing (n : Nat) (s : Scope Legacy) (r : RestartRecord) (h : List (Entry (PermitOp RestartCall) Errno))
    (s' : Scope Legacy) : Prop :=
  s'.rest.record = some r ∧
    (startedUnits h = START.drop n ∨ startedUnits h = [] ∧ s'.rest.states = s.rest.states)

theorem restarts_startMissing {n : Nat} {r : RestartRecord} (hs : Sound i s₀.rest → Sound i s.rest)
    (hnone : startedUnits h = []) (hunspoiled : Unspoiled h) (hn : Active s₀.rest.states n)
    (hstates : s.rest.states = s₀.rest.states) (hr : s.rest.record = some r) :
    Restarts i Fault s₀ (startMissing i r n) (fun h' _ s' => Missing n s r h' s') h s := by
  rw [startMissing]
  split
  · have hpermitted : WriterPermit.Meets legacy Fault
        (withWriterStartPermit i.rooted i.guarded (startUnits (START.drop n))) (ScopeEnds s) h s :=
      meets_withWriterStartPermit _ hunspoiled
    have hstarts : Script.Meets (scope legacy) Fault
        (fun h op s => actsPermitted op s → (Sound i s₀.rest → Sound i s.rest) ∧ owes s₀.rest.states h op s)
        (withWriterStartPermit i.rooted i.guarded (startUnits (START.drop n)))
        (fun h' q s' => Starting i s₀ n r h' s' ∧ ∀ u, q = .ok u → startedUnits h' = START.drop n) h s := by
      refine meets_inPermit (I := fun h s => Starting i s₀ n r h s ∧ startedUnits h = [] ∧ Active s.rest.states n)
        (fun _ _ hs => hs.1) ?_ ?_ keptAround_starting ?_ ?_ ?_
      · exact fun h c s hs _ => ⟨hs.sound, trivial⟩
      · intro γ c h s s' q hs hans
        refine ⟨keptAround_starting _ c h s s' q hs.1 hans, startedUnits_permit.trans hs.2.1, ?_⟩
        rw [answer_rest hans]
        exact hs.2.2
      · intro u γ c h s s' q hs hans
        exact startedUnits_permit.trans hs
      · rintro h s ⟨hstarting, hnone, hactive⟩ hmarker
        exact meets_startUnits rfl hn hactive hstarting hmarker (by rw [hnone, List.nil_append])
      · refine ⟨⟨hs, ?_, hr⟩, hnone, hstates ▸ hn⟩
        rw [hnone]
        exact List.nil_prefix
    apply Script.meets_mono (Prog.Meets.weaken ?_ (hstarts.and hpermitted))
    · rintro h' q s' ⟨⟨hstarting, hall⟩, -⟩
      exact ⟨hstarting.sound, fun u hu => ⟨hstarting.record, .inl (hall u hu)⟩⟩
    · exact fun h op s howes => howes.1 howes.2
  · exact restarts_pure hs ⟨hr, .inr ⟨hnone, rfl⟩⟩

/-! ## What is recorded, and how a call ends -/

/-- A handle is closed. -/
theorem looks_closing {p : RestartScript α} {P' : α → Prop} (hK : Lasting K) (hs : Sound i s₀.rest → Sound i s.rest)
    (hp : Looks i Fault s₀ K p P' h s) : Looks i Fault s₀ K (Script.andFinally p (plainly .settle)) P' h s := by
  apply Script.meets_finally hp
  rintro h' r _ ⟨rfl, hh', hr⟩
  apply Script.meets_mono (looks_call hK hs hh' rfl)
  rintro h'' (e | u) _ ⟨rfl, hh'', -⟩
  · exact ⟨rfl, hh'', nofun⟩
  · exact ⟨rfl, hh'', hr⟩

/-- The restart is recorded once every unit is active and the exact health was seen. -/
theorem restarts_recorded {r : RestartRecord} (hK : Lasting K) (hs : Sound i s₀.rest → Sound i s.rest) (hh : K h)
    (hhealthy : ∀ h, K h → Healthy h) (hr : s.rest.record = some r)
    (hactive : ∀ unit ∈ START, s.rest.states unit = "active") :
    Restarts i Fault s₀ (recorded r) (fun h' _ _ => K h') h s := by
  rw [recorded]
  split
  · apply restarts_after hs (looks_readRecord hK hs hh)
    rintro current h₁ hh₁ -
    apply restarts_after hs (looks_require hh₁)
    rintro _ h₂ hh₂ -
    apply restarts_after hs (looks_validate hh₂)
    rintro _ h₃ hh₃ ⟨rfl, -⟩
    apply restarts_after hs (looks_call hK hs hh₃ rfl)
    rintro _ h₄ hh₄ -
    have hwritten : ∀ {h : List (Entry (PermitOp RestartCall) Errno)}, K h → Looks i Fault s₀ K (do
        plainly .settle
        plainly .settle) (fun _ => True) h s := by
      intro h hh
      apply looks_bind (looks_call hK hs hh rfl)
      rintro _ h' hh' -
      apply Script.meets_mono (looks_call hK hs hh' rfl)
      exact fun _ _ _ hs' => ⟨hs'.1, hs'.2.1, fun _ _ => trivial⟩
    apply restarts_after hs (looks_closing hK hs (hwritten hh₄))
    rintro _ h₅ hh₅ -
    apply restarts_bind (R := fun h' _ _ => K h')
    · apply Script.meets_perform ⟨hs, rfl, hactive, hhealthy _ hh₅⟩
      · intro _ s' hexec
        obtain ⟨-, hrename⟩ := exec_acted hexec
        obtain ⟨-, hs'⟩ := Prod.mk.inj (Except.ok.inj hrename)
        refine ⟨fun hsound => ?_, fun _ _ => hK _ _ rfl hh₅⟩
        rw [← hs']
        refine ⟨fun r' hr' => ?_, (hs hsound).chain, nofun⟩
        obtain rfl := Option.some.inj hr'
        refine ⟨?_, .inr rfl⟩
        rw [((hs hsound).record r hr).1]
        rfl
      · exact fun e => ⟨hs, nofun⟩
    · intro _ h₆ s₆ hs₆ hh₆
      apply restarts_after hs₆ (looks_call hK hs₆ hh₆ rfl)
      rintro _ h₇ hh₇ -
      apply restarts_after hs₆ (looks_closing hK hs₆ (looks_call hK hs₆ hh₇ rfl))
      rintro _ h₈ hh₈ -
      exact restarts_pure hs₆ hh₈
  · exact restarts_pure hs hh

/-- What a call that returns has started: what was missing, and nothing twice. -/
def Completed (s₀ : Scope Legacy) (h : List (Entry (PermitOp RestartCall) Errno)) : Prop :=
  ∃ n, Active s₀.rest.states n ∧ startedUnits h = START.drop n

theorem active_all {states : String → String} {n : Nat} (hn : Active states n)
    (hall : ∀ unit ∈ START, states unit = "active") : n = START.length := by
  by_contra hne
  have hlt : n < START.length := by
    have := hn.le
    omega
  have hinactive := hn.inactive START[n] (by
    rw [List.drop_eq_getElem_cons hlt]
    exact List.mem_cons_self ..)
  rw [hall _ (List.getElem_mem hlt)] at hinactive
  exact absurd hinactive (by decide)

/-- **What every call owes, and how it ends.** -/
theorem meets_restart : Restarts i Fault s (restartLegacyAfterRollback i) (fun h' _ _ => Completed s h') [] s := by
  have hs : Sound i s.rest → Sound i s.rest := id
  have hstart : Untouched [] := ⟨rfl, fun _ hx => absurd hx List.not_mem_nil⟩
  rw [restartLegacyAfterRollback]
  apply restarts_after hs (looks_require hstart)
  rintro _ h₁ hh₁ -
  apply restarts_after hs (looks_call lasting_untouched hs hh₁ rfl)
  rintro parent h₂ hh₂ -
  apply restarts_after hs (looks_require hh₂)
  rintro _ h₃ hh₃ -
  apply restarts_bind (restarts_intended lasting_untouched hs hh₃)
  rintro r h₄ s₄ hs₄ ⟨hh₄, hstates, hr⟩
  apply restarts_after hs₄ (looks_boundary lasting_untouched hs₄ hh₄)
  rintro b h₅ hh₅ -
  apply restarts_after hs₄ (looks_require hh₅)
  rintro _ h₆ hh₆ -
  apply restarts_after hs₄ (looks_call lasting_untouched hs₄ hh₆ rfl)
  rintro ledger h₇ hh₇ -
  apply restarts_after hs₄ (looks_call lasting_untouched hs₄ hh₇ rfl)
  rintro pointer h₈ hh₈ -
  apply restarts_after hs₄ (looks_require hh₈)
  rintro _ h₉ hh₉ -
  apply restarts_after hs₄ (looks_activePrefix (k := 0) rfl (Nat.zero_le _) (Nat.le_refl _) lasting_untouched hs₄ hh₉
    nofun nofun)
  intro n h₁₀ hh₁₀ hn
  have hn₀ : Active s.rest.states n := hstates ▸ hn
  apply restarts_bind (restarts_startMissing hs₄ hh₁₀.1 hh₁₀.2 hn₀ hstates hr)
  rintro _ h₁₁ s₁₁ hs₁₁ ⟨hr₁₁, hmissing⟩
  have hh₁₁ : StartedAre (startedUnits h₁₁) h₁₁ := rfl
  apply restarts_after hs₁₁ (looks_boundary lasting_started hs₁₁ hh₁₁)
  rintro _ h₁₂ hh₁₂ -
  apply restarts_after hs₁₁ (looks_allIn lasting_started hs₁₁ hh₁₂)
  intro _ h₁₃ hh₁₃ hactive
  have hcompleted : startedUnits h₁₁ = START.drop n := by
    rcases hmissing with hall | ⟨hnone, hsame⟩
    · exact hall
    · rw [hnone, active_all hn (hsame ▸ hactive), List.drop_length]
  -- the health that is seen is later than every start
  apply Script.meets_call ⟨hs₁₁, trivial⟩
  · intro health s₁₄ hexec
    obtain ⟨hs₁₄, hlook⟩ := exec_acted hexec
    obtain rfl : s₁₄ = s₁₁ := hs₁₄.trans (by rw [exec_looks rfl hlook])
    have hh₁₄ : StartedAre (startedUnits h₁₁) (h₁₃ ++ [⟨.act .probe, .ok health⟩]) := lasting_started _ _ rfl hh₁₃
    rw [assertLegacyHealthResult]
    cases hexact : health.services == 4 && health.products == PRODUCTS with
    | false => exact Script.meets_throw ⟨hs₁₁, nofun⟩
    | true =>
      rw [Bool.and_eq_true, beq_iff_eq, beq_iff_eq] at hexact
      have hseen : Seen (startedUnits h₁₁) (h₁₃ ++ [⟨.act .probe, .ok health⟩]) :=
        ⟨hh₁₄, h₁₃, health, [], rfl, hexact, rfl⟩
      apply restarts_bind (restarts_recorded lasting_seen hs₁₁ hseen (fun _ hh => hh.2) hr₁₁ hactive)
      intro r' h₁₅ s₁₅ hs₁₅ hh₁₅
      apply restarts_after hs₁₅ (looks_boundary lasting_seen hs₁₅ hh₁₅)
      rintro _ h₁₆ hh₁₆ -
      exact restarts_pure hs₁₅ ⟨n, hn₀, hh₁₆.1.trans hcompleted⟩
  · exact fun e => ⟨hs₁₁, nofun⟩

/-! ## A call that is not interrupted -/

/-- What a call needs, besides the record and the units: among others that every unit that is started is active. -/
structure Ready (i : Inputs) (s : Scope Legacy) : Prop where
  rooted : i.rooted = true
  valid : i.valid = true
  guarded : i.guarded = true
  site : s.site.Fit
  parentTrusted : s.rest.parentTrusted = true
  recordTrusted : s.rest.recordTrusted = true
  restored : s.rest.restored = true
  bound : s.rest.boundary.bound = true
  placed : s.rest.boundary.placed = true
  fields : fieldsValid (s.rest.recordAt i "starting") = true
  health : s.rest.health.services = 4 ∧ s.rest.health.products = PRODUCTS
  working : ∀ unit ∈ START, s.rest.starting unit = ("active", true)

/-- The same, with another record, with the units in other states, and with the permit used. -/
def become (s : Scope Legacy) (site : PermitSite) (record : Option RestartRecord) (states : String → String) :
    Scope Legacy := ⟨site, { s.rest with record := record, states := states }⟩

theorem Ready.become {site : PermitSite} {record : Option RestartRecord} {states : String → String} (hs : Ready i s)
    (hsite : site.Fit) : Ready i (become s site record states) :=
  ⟨hs.rooted, hs.valid, hs.guarded, hsite, hs.parentTrusted, hs.recordTrusted, hs.restored, hs.bound, hs.placed,
    hs.fields, hs.health, hs.working⟩

variable {Q : α → Scope Legacy → Prop}

theorem exec_act_eq {c : RestartCall α} :
    (scope legacy).exec (.act c) s = (s.rest.exec c).map fun r => (r.1, { s with rest := r.2 }) := rfl

theorem total_plainly {c : RestartCall α} {a : α} {t : Legacy} (hexec : s.rest.exec c = .ok (a, t))
    (hQ : Q a { s with rest := t }) : Script.Total (scope legacy) (plainly c) Q s := by
  refine Script.total_perform ?_ hQ
  rw [exec_act_eq, hexec]
  rfl

theorem total_require {holds : Bool} {text : String} {Q : Unit → Scope Legacy → Prop} (hholds : holds = true)
    (hQ : Q () s) : Script.Total (scope legacy) (require holds text : RestartScript Unit) Q s := by
  rw [require, hholds]
  exact Script.total_pure hQ

theorem total_permitAbsent {Q : Unit → Scope Legacy → Prop} (hpermit : s.site.permit = none) (hQ : Q () s) :
    Script.Total (scope legacy) (assertWriterPermitAbsent true : RestartScript Unit) Q s := by
  have hlstat : (scope legacy).exec (.permit .lstatPermit) s = .error .ENOENT := by
    change (s.site.exec .lstatPermit).map _ = _
    simp [PermitSite.exec, hpermit, Except.map]
  apply Script.total_bind
  apply total_require rfl
  refine Script.total_caught (e := .plain .ENOENT) (t := s) ?_ (Script.total_pure hQ)
  change Prog.eval _ (.call (PermitOp.permit PermitCall.lstatPermit) _) s = _
  rw [Prog.eval, hlstat]
  rfl

theorem total_boundary {Q : Boundary → Scope Legacy → Prop} (hs : Ready i s) (hQ : Q s.rest.boundary s) :
    Script.Total (scope legacy) (boundary i.guarded) Q s := by
  rw [hs.guarded]
  apply Script.total_bind
  apply total_plainly rfl
  apply Script.total_bind
  apply total_require hs.bound
  apply Script.total_bind
  apply total_permitAbsent hs.site.permit
  exact Script.total_pure hQ

theorem total_allIn {state text : String} {units : List String} {Q : Unit → Scope Legacy → Prop}
    (hall : ∀ unit ∈ units, s.rest.states unit = state) (hQ : Q () s) :
    Script.Total (scope legacy) (allIn state text units) Q s := by
  induction units with
  | nil => exact Script.total_pure hQ
  | cons unit units ih =>
    obtain ⟨hunit, hrest⟩ := List.forall_mem_cons.mp hall
    apply Script.total_bind
    apply total_plainly rfl
    apply Script.total_bind
    apply total_require (beq_iff_eq.mpr hunit)
    exact ih hrest

theorem total_validate {phase : String} {Q : RestartRecord → Scope Legacy → Prop} (hs : Ready i s)
    (hphase : phase = "starting" ∨ phase = "started") (hQ : Q (s.rest.recordAt i phase) s) :
    Script.Total (scope legacy) (validate (s.rest.recordAt i phase)) Q s := by
  apply Script.total_bind
  apply total_require
  · rw [Bool.and_eq_true, decide_eq_true_iff]
    refine ⟨?_, hs.fields⟩
    rcases hphase with rfl | rfl
    · exact List.mem_cons_self ..
    · exact List.mem_cons_of_mem _ (List.mem_cons_self ..)
  · exact Script.total_pure hQ

theorem total_readRecord {phase : String} {Q : RestartRecord → Scope Legacy → Prop} (hs : Ready i s)
    (hrecord : s.rest.record = some (s.rest.recordAt i phase)) (hphase : phase = "starting" ∨ phase = "started")
    (hQ : Q (s.rest.recordAt i phase) s) : Script.Total (scope legacy) readLegacyRestartRecord Q s := by
  have hinspect : s.rest.exec .inspectRecord = .ok (s.rest.recordTrusted, s.rest) := by simp [Legacy.exec, hrecord]
  have hread : s.rest.exec .readRecord = .ok (s.rest.recordAt i phase, s.rest) := by simp [Legacy.exec, hrecord]
  apply Script.total_bind
  apply total_plainly rfl
  apply Script.total_bind
  apply total_require hs.parentTrusted
  apply Script.total_bind
  apply total_plainly hinspect
  apply Script.total_bind
  apply total_require hs.recordTrusted
  apply Script.total_bind
  apply total_plainly hread
  exact total_validate hs hphase hQ

/-- The units that are active are counted. -/
theorem total_activePrefix {d k n : Nat} {Q : Nat → Scope Legacy → Prop} (hd : START.length - k = d)
    (hk : k ≤ START.length) (hn : Active s.rest.states n) (hQ : Q n s) :
    Script.Total (scope legacy) (activePrefix (START.drop k) (min k n)) Q s := by
  induction d generalizing k with
  | zero =>
    have hle := hn.le
    obtain rfl : k = START.length := by omega
    rw [List.drop_length, Nat.min_eq_right hle]
    exact Script.total_pure hQ
  | succ d ih =>
    have hlt : k < START.length := by omega
    rw [List.drop_eq_getElem_cons hlt]
    apply Script.total_bind
    apply total_plainly rfl
    rcases Nat.lt_or_ge k n with hbefore | hafter
    · have hactive : s.rest.states START[k] = "active" := by
        apply hn.active
        rw [List.mem_take_iff_getElem]
        exact ⟨k, by omega, rfl⟩
      rw [hactive, start_nodup.idxOf_getElem, Nat.min_eq_left hbefore.le, if_pos (by simp)]
      have hnext := ih (k := k + 1) (by omega) (by omega)
      rwa [Nat.min_eq_left hbefore] at hnext
    · have hinactive : s.rest.states START[k] = "inactive" := by
        apply hn.inactive
        rw [List.mem_drop_iff_getElem]
        exact ⟨k - n, by omega, by simp [Nat.add_sub_cancel' hafter]⟩
      rw [hinactive, Nat.min_eq_right hafter, if_neg (by simp)]
      apply Script.total_bind
      apply total_require rfl
      have hnext := ih (k := k + 1) (by omega) (by omega)
      rwa [Nat.min_eq_right (by omega)] at hnext

/-- The record that there is once the restart has begun. -/
theorem total_intended (hs : Ready i s) (hsound : Sound i s.rest) :
    Script.Total (scope legacy) (intended i) (fun r s' => ∃ phase, r = s.rest.recordAt i phase ∧
      (phase = "starting" ∨ phase = "started" ∧ s.rest.record = some r) ∧
      s' = become s s.site (some r) s.rest.states) s := by
  cases hrecord : s.rest.record with
  | none =>
    have hparent : (scope legacy).exec (.act .inspectParent) s = .ok (true, s) := by
      simp [exec_act_eq, Legacy.exec, hs.parentTrusted, Except.map]
    have hinspect : (scope legacy).exec (.act .inspectRecord) s = .error .ENOENT := by
      simp [exec_act_eq, Legacy.exec, hrecord, Except.map]
    have hcreate : s.rest.exec (.createRecord (s.rest.recordAt i "starting")) =
        .ok ((), s.rest.withRecord (some (s.rest.recordAt i "starting"))) := by simp [Legacy.exec, hrecord]
    refine Script.total_caught (e := .plain .ENOENT) (t := s) ?_ ?_
    · change Prog.eval _ (.call (PermitOp.act RestartCall.inspectParent) _) s = _
      rw [Prog.eval, hparent]
      change Prog.eval _ (.call (PermitOp.act RestartCall.inspectRecord) _) s = _
      rw [Prog.eval, hinspect]
      rfl
    · apply Script.total_bind
      apply total_plainly rfl
      apply Script.total_bind
      apply total_require hs.restored
      apply Script.total_bind
      apply total_allIn (hsound.unstarted hrecord)
      apply Script.total_bind
      apply total_boundary hs
      apply Script.total_bind
      apply total_require hs.placed
      apply Script.total_bind
      apply total_plainly rfl
      apply Script.total_bind
      apply total_plainly rfl
      apply Script.total_bind
      apply total_validate hs (.inl rfl)
      apply Script.total_bind
      apply total_plainly hcreate
      exact Script.total_pure ⟨"starting", rfl, .inl rfl, rfl⟩
  | some r =>
    obtain ⟨hr, hphase⟩ := hsound.record r hrecord
    apply Script.total_tryCatch
    refine total_readRecord hs (hrecord.trans (congrArg some hr)) hphase ⟨r.phase, rfl, ?_, ?_⟩
    · rw [← hr]
      exact hphase.imp_right fun hstarted => ⟨hstarted, rfl⟩
    · rw [← hr, ← hrecord]
      rfl

/-- The missing units are started, and all are active then. -/
theorem total_startUnits {d m : Nat} {a : Legacy} (hd : START.length - m = d) (hm : Active a.states m)
    (hworking : ∀ unit ∈ START, a.starting unit = ("active", true)) :
    Script.Total legacy (startUnits (START.drop m)) (fun _ a' => ∃ states, a' = { a with states := states } ∧
      ∀ unit ∈ START, states unit = "active") a := by
  induction d generalizing m a with
  | zero =>
    have hle := hm.le
    obtain rfl : m = START.length := by omega
    rw [List.drop_length]
    refine Script.total_pure ⟨a.states, rfl, fun unit hunit => hm.active unit ?_⟩
    rwa [List.take_length]
  | succ d ih =>
    have hlt : m < START.length := by omega
    have hunit := hworking START[m] (List.getElem_mem hlt)
    have hstart : legacy.exec (.start START[m]) a = .ok (true, a.withState START[m] "active") := by
      change Except.ok _ = _
      rw [hunit]
    rw [List.drop_eq_getElem_cons hlt]
    apply Script.total_bind
    apply Script.total_perform hstart
    apply Script.total_bind
    apply Script.total_pure
    apply Script.total_bind
    refine Script.total_perform rfl ?_
    have hactive : (a.withState START[m] "active").states START[m] = "active" := Function.update_self ..
    rw [hactive]
    apply Script.total_bind
    apply Script.total_pure
    refine Script.total_mono ?_ (ih (m := m + 1) (a := a.withState START[m] "active") (by omega) (hm.started hlt) hworking)
    rintro _ a' ⟨states, rfl, hall⟩
    exact ⟨states, rfl, hall⟩

theorem total_startMissing {n : Nat} {phase : String} (hs : Ready i s) (hn : Active s.rest.states n)
    (hphase : phase = "starting" ∨ phase = "started" ∧ n = START.length) :
    Script.Total (scope legacy) (startMissing i (s.rest.recordAt i phase) n) (fun _ s' => ∃ site states,
      s' = become s site s.rest.record states ∧ site.Fit ∧ ∀ unit ∈ START, states unit = "active") s := by
  have hall : n = START.length → ∀ unit ∈ START, s.rest.states unit = "active" := by
    rintro rfl unit hunit
    apply hn.active
    rwa [List.take_length]
  rw [startMissing]
  split
  · rw [hs.rooted, hs.guarded]
    apply total_withWriterStartPermit hs.site
    refine Script.total_mono ?_ (total_startUnits rfl hn hs.working)
    rintro _ a' ⟨states, rfl, hactive⟩
    exact ⟨_, states, rfl, hs.site.used, hactive⟩
  · next hnot =>
    refine Script.total_pure ⟨s.site, s.rest.states, rfl, hs.site, hall ?_⟩
    rcases hphase with rfl | ⟨-, hlength⟩
    · have hle := hn.le
      have hge : ¬n < START.length := fun hlt => hnot (by simp [Legacy.recordAt, Inputs.recordAt, hlt])
      omega
    · exact hlength

/-- The restart is recorded. -/
theorem total_recorded {phase : String} (hs : Ready i s) (hrecord : s.rest.record = some (s.rest.recordAt i phase))
    (hphase : phase = "starting" ∨ phase = "started") :
    Script.Total (scope legacy) (recorded (s.rest.recordAt i phase)) (fun r s' => r = s.rest.recordAt i "started" ∧
      s' = become s s.site (some r) s.rest.states) s := by
  rcases hphase with rfl | rfl
  · apply Script.total_bind
    apply total_readRecord hs hrecord (.inl rfl)
    apply Script.total_bind
    apply total_require (beq_self_eq_true _)
    apply Script.total_bind
    apply total_validate hs (.inr rfl)
    apply Script.total_bind
    apply total_plainly rfl
    apply Script.total_bind
    apply Script.total_finally
    apply Script.total_bind
    apply total_plainly rfl
    apply total_plainly rfl
    apply total_plainly rfl
    apply Script.total_bind
    apply total_plainly rfl
    apply Script.total_bind
    apply total_plainly rfl
    apply Script.total_bind
    apply Script.total_finally
    apply total_plainly rfl
    apply total_plainly rfl
    exact Script.total_pure ⟨rfl, rfl⟩
  · refine Script.total_pure ⟨rfl, ?_⟩
    rw [← hrecord]
    rfl

/-- **A call that is not interrupted** ends the restart: the units are active, and that is recorded. -/
theorem total_restart {n : Nat} (hs : Ready i s) (hsound : Sound i s.rest) (hn : Active s.rest.states n)
    (hstarted : ∀ r, s.rest.record = some r → r.phase = "started" → n = START.length) :
    Script.Total (scope legacy) (restartLegacyAfterRollback i) (fun r s' => r = s.rest.recordAt i "started" ∧
      s'.rest.record = some r ∧ s'.site.permit = none ∧ ∀ unit ∈ START, s'.rest.states unit = "active") s := by
  apply Script.total_bind
  apply total_require (by rw [hs.rooted, hs.valid]; rfl)
  apply Script.total_bind
  apply total_plainly rfl
  apply Script.total_bind
  apply total_require hs.parentTrusted
  apply Script.total_bind
  refine Script.total_mono ?_ (total_intended hs hsound)
  rintro _ s₁ ⟨phase, rfl, hphase, hs₁⟩
  have hphase₁ : phase = "starting" ∨ phase = "started" ∧ n = START.length :=
    hphase.imp_right fun hlast => ⟨hlast.1, hstarted _ hlast.2 hlast.1⟩
  have hready₁ : Ready i s₁ := hs₁ ▸ hs.become hs.site
  subst hs₁
  apply Script.total_bind
  apply total_boundary hready₁
  apply Script.total_bind
  apply total_require hready₁.placed
  apply Script.total_bind
  apply total_plainly rfl
  apply Script.total_bind
  apply total_plainly rfl
  apply Script.total_bind
  apply total_require (by simp [become, Legacy.recordAt, Inputs.recordAt])
  apply Script.total_bind
  refine total_activePrefix (k := 0) rfl (Nat.zero_le _) hn ?_
  apply Script.total_bind
  refine Script.total_mono ?_ (total_startMissing hready₁ hn hphase₁)
  rintro _ s₂ ⟨site, states, rfl, hfit, hactive⟩
  have hready₂ : Ready i (become s site (some (s.rest.recordAt i phase)) states) := hs.become hfit
  apply Script.total_bind
  apply total_boundary hready₂
  apply Script.total_bind
  apply total_allIn hactive
  apply Script.total_bind
  apply total_plainly rfl
  apply Script.total_bind
  rw [assertLegacyHealthResult]
  apply total_require
  · rw [Bool.and_eq_true, beq_iff_eq, beq_iff_eq]
    exact hs.health
  apply Script.total_bind
  refine Script.total_mono ?_ (total_recorded hready₂ rfl (hphase₁.imp_right And.left))
  rintro _ s₃ ⟨rfl, rfl⟩
  apply Script.total_bind
  apply total_boundary (hready₂.become hfit)
  exact Script.total_pure ⟨rfl, rfl, hfit.permit, hactive⟩

/-! ## Calls, reboots and repairs -/

/-- The machine is rebooted: no unit is active, and what was made for the permit is gone. -/
def rebooted (s : Scope Legacy) : Scope Legacy :=
  ⟨{ s.site with directory := none, permit := none }, { s.rest with states := fun _ => "inactive" }⟩

/-- What is reached: at first there is no record and no unit is active. Then calls are made and cut anywhere, there are
reboots, the units that are started behave otherwise, and a unit that is neither active nor inactive comes to another
state. -/
inductive Reach (i : Inputs) (Fault : Errno → Prop) : Scope Legacy → Prop
  | first {s : Scope Legacy} (hrecord : s.rest.record = none)
    (hinactive : ∀ unit ∈ START, s.rest.states unit = "inactive") : Reach i Fault s
  | call {s s' : Scope Legacy} {tr : List (Entry (PermitOp RestartCall) Errno)} (hs : Reach i Fault s)
    (hvisits : Visits (scope legacy) Fault (restartLegacyAfterRollback i).run s tr s') : Reach i Fault s'
  | reboot {s : Scope Legacy} (hs : Reach i Fault s) : Reach i Fault (rebooted s)
  | repair {s : Scope Legacy} (starting : String → String × Bool) (hs : Reach i Fault s) :
    Reach i Fault ⟨s.site, { s.rest with starting := starting }⟩
  | settle {s : Scope Legacy} {unit state : String} (hs : Reach i Fault s) (hactive : s.rest.states unit ≠ "active")
    (hinactive : s.rest.states unit ≠ "inactive") : Reach i Fault ⟨s.site, s.rest.withState unit state⟩

theorem chain_inactive {states : String → String} (hall : ∀ unit ∈ START, states unit = "inactive") : Chain states :=
  ⟨0, nofun, fun unit hunit => hall unit (List.mem_of_mem_drop hunit)⟩

/-- What calls leave is sound, wherever they are cut. -/
theorem Reach.sound (hs : Reach i Fault s) : Sound i s.rest := by
  induction hs with
  | first hrecord hinactive =>
    refine ⟨fun r hr => ?_, chain_inactive hinactive, fun _ => hinactive⟩
    rw [hrecord] at hr
    cases hr
  | call hs hvisits ih =>
    exact meets_restart.invariant (I := fun _ s' => Sound i _ → Sound i s'.rest) (fun _ _ _ howes => howes.1)
      (fun _ _ _ hends => hends.1) hvisits ih
  | reboot hs ih => exact ⟨ih.record, chain_inactive fun _ _ => rfl, fun _ _ _ => rfl⟩
  | repair starting hs ih => exact ⟨ih.record, ih.chain, ih.unstarted⟩
  | @settle s unit state hs hactive hinactive ih =>
    refine ⟨ih.record, ?_, fun hnone u hu => ?_⟩
    · obtain ⟨n, hbefore, hafter⟩ := ih.chain
      refine ⟨n, fun u hu => ?_, fun u hu => ?_⟩
      · refine (Function.update_of_ne ?_ ..).trans (hbefore u hu)
        rintro rfl
        exact hactive (hbefore _ hu)
      · refine (Function.update_of_ne ?_ ..).trans (hafter u hu)
        rintro rfl
        exact hinactive (hafter _ hu)
    · refine (Function.update_of_ne ?_ ..).trans (ih.unstarted hnone u hu)
      rintro rfl
      exact hinactive (ih.unstarted hnone _ hu)

/-- Where every unit is active or inactive, the active ones come first. -/
theorem Chain.active {states : String → String} (hchain : Chain states)
    (hsettled : ∀ unit ∈ START, states unit = "active" ∨ states unit = "inactive") : ∃ n, Active states n := by
  obtain ⟨n, hbefore, hafter⟩ := hchain
  rcases Nat.lt_or_ge n START.length with hlt | hge
  · rcases hsettled START[n] (List.getElem_mem hlt) with hactive | hinactive
    · refine ⟨n + 1, hlt, fun unit hunit => ?_, hafter⟩
      rcases mem_take_succ hlt hunit with hunit | rfl
      · exact hbefore unit hunit
      · exact hactive
    · refine ⟨n, hlt.le, hbefore, fun unit hunit => ?_⟩
      rw [List.drop_eq_getElem_cons hlt] at hunit
      rcases List.mem_cons.mp hunit with rfl | hunit
      · exact hinactive
      · exact hafter unit hunit
  · rw [List.take_of_length_le hge] at hbefore
    refine ⟨START.length, Nat.le_refl _, fun unit hunit => hbefore unit (List.mem_of_mem_take hunit), ?_⟩
    rw [List.drop_length]
    exact nofun

/-- Where a unit was started, it was started after a part of the history. -/
theorem started_at {h : List (Entry (PermitOp RestartCall) Errno)} (hstarted : startedUnits h ≠ []) :
    ∃ h₁ unit q h₂, h = h₁ ++ ⟨.act (.start unit), q⟩ :: h₂ := by
  induction h with
  | nil => exact absurd rfl hstarted
  | cons x h ih =>
    have hlater : startedUnits [x] = [] → ∃ h₁ unit q h₂, x :: h = h₁ ++ ⟨.act (.start unit), q⟩ :: h₂ := by
      intro hnone
      have happend : startedUnits ([x] ++ h) = startedUnits [x] ++ startedUnits h := startedUnits_append
      rw [hnone] at happend
      rw [List.singleton_append.symm, happend] at hstarted
      obtain ⟨h₁, unit, q, h₂, rfl⟩ := ih hstarted
      exact ⟨x :: h₁, unit, q, h₂, rfl⟩
    obtain ⟨op, q⟩ := x
    rcases op with c | a
    · exact hlater rfl
    · cases a with
      | start unit => exact ⟨[], unit, q, h, rfl⟩
      | _ => exact hlater rfl

theorem owes_at {op : PermitOp RestartCall α} {tr rest : List (Entry (PermitOp RestartCall) Errno)} {q : Except Errno α}
    (hvisits : Visits (scope legacy) Fault (restartLegacyAfterRollback i).run s (tr ++ ⟨op, q⟩ :: rest) s') :
    ∃ s₁, Visits (scope legacy) Fault (restartLegacyAfterRollback i).run s tr s₁ ∧ owes s.rest.states tr op s₁ := by
  obtain ⟨s₁, -, hs₁, -, -, howes⟩ := meets_restart.owes hvisits
  exact ⟨s₁, hs₁, howes⟩

theorem restart_completed {tr : List (Entry (PermitOp RestartCall) Errno)} {r : RestartRecord}
    (hruns : Runs (scope legacy) Fault (restartLegacyAfterRollback i).run s tr (.ok r) s') : Completed s tr := by
  have hends : Restarts i Fault s (restartLegacyAfterRollback i) (fun h' _ _ => Completed s h') [] s := meets_restart
  exact (hends.runs hruns).2 r rfl

end Restart

/-! ## A run that is computed -/

def sampleInputs : Inputs := ⟨true, true, true, "/rollback/ledger", "/rollback/pointer"⟩

/-- The rollback is complete, and the old units are not started yet. -/
def sampleScope : Scope Legacy where
  site := ⟨true, true, true, none, none⟩
  rest :=
    { parentTrusted := true
      recordTrusted := true
      restored := true
      boundary := ⟨true, true, "00000000-0000-0000-0000-000000000000"⟩
      ledgerSha256 := "0000000000000000000000000000000000000000000000000000000000000000"
      pointerRecordSha256 := "0000000000000000000000000000000000000000000000000000000000000000"
      health := ⟨4, PRODUCTS⟩
      starting := fun _ => ("active", true)
      record := none
      states := fun _ => "inactive" }

theorem sampleScope_ready : Ready sampleInputs sampleScope := by
  constructor
  case site => exact ⟨rfl, rfl, rfl, nofun, rfl⟩
  case working => exact fun _ _ => rfl
  all_goals decide

/-- The restart is cut after the first unit is started. -/
def cutScope : Scope Legacy := (restartLegacyAfterRollback sampleInputs).run.cut (scope legacy) 35 sampleScope

end BegetBridge.LegacyRestart
