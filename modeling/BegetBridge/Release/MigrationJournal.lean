import BegetBridge.Release.JournalFile

/-!
# The migration journal

The record of a migration from one commit to another. Transitions are asked for by any number of processes, with any
phases and details, and any of them may stop anywhere.

## Main definitions

* `validate`, `nextRecord`: what a record has to be, and what a transition makes of it
* `advanceMigrationJournal`: the transition
* `Keeps`: the details leave a snapshot that is recorded

## Main results

* `nextRecord_spec`: what a transition changes
* `total_advanceMigrationJournal`, `careful_advanceMigrationJournal`: a transition that nothing else disturbs
* `migration_journal_sound`: what holds in every run whose transitions leave a recorded snapshot
-/

namespace BegetBridge.MigrationJournal

open Core Interleaving LockedFile Journal

/-! ## Records -/

def PHASES : List String := ["prepared", "guarded", "ingress-closed", "quiesced",
  "snapshotted", "switched", "locally-healthy", "ingress-open", "completed"]

def LEGACY_UNITS : List String := [
  "dp-beget-session-host.service", "dp-beget-agent.service", "dp-beget-mcp.service",
  "dp-beget-mcp-oauth-spike.service", "dp-beget-oauth-proxy.socket",
  "dp-beget-oauth-proxy.service", "dp-beget-tunnel.service"]

def REQUIRED_ACTIVE : List String := LEGACY_UNITS.filter (· ≠ "dp-beget-oauth-proxy.service")

/-- A value of the details: a text, `undefined`, or something else, which may count as true. -/
inductive Value
  | text (s : String)
  | undefined
  | other (truthy : Bool)
  deriving DecidableEq

/-- `!!value` -/
def Value.truthy : Value → Bool
  | .text s => s ≠ ""
  | .undefined => false
  | .other truthy => truthy

/-- A text that is empty or meets the condition. -/
def Value.emptyOr (ok : String → Bool) : Value → Bool
  | .text s => s == "" || ok s
  | _ => false

structure UnitBackup where
  path : String
  manifestSha256 : String
  deriving DecidableEq

structure MigrationRecord where
  format : String
  transactionId : String
  phase : String
  oldCommit : String
  newCommit : String
  artifactSha256 : String
  snapshotPath : Value
  snapshotSha256 : Value
  unitBackup : UnitBackup
  serviceActivity : List (String × String)
  deriving DecidableEq

/-- Why a transition fails: a message, the type of an argument, or the file. -/
inductive JournalError
  | message (text : String)
  | type
  | file (e : FileError)
  deriving DecidableEq

/-- `activity[unit]` has a value that it may have. -/
def allowedActivity (activity : List (String × String)) (unit : String) : Bool :=
  match activity.lookup unit with
  | some value => (value == "active" || value == "inactive") && !(unit ∈ REQUIRED_ACTIVE && value != "active")
  | none => false

def validateLegacyServiceActivity (activity : List (String × String)) : Except JournalError Unit :=
  if !sameStrings (activity.map Prod.fst) LEGACY_UNITS then .error (.message "Incomplete legacy service inventory")
  else match LEGACY_UNITS.find? fun unit => !allowedActivity activity unit with
    | some unit => .error (.message s!"Invalid saved state for {unit}")
    | none => .ok ()

def phaseIndex (phase : String) : Int := indexOf PHASES phase

/-- The snapshot is there from its phase on, and not before. -/
def snapshotFits (record : MigrationRecord) : Bool :=
  if phaseIndex record.phase < phaseIndex "snapshotted" then
    !record.snapshotPath.truthy && !record.snapshotSha256.truthy
  else record.snapshotPath.truthy && record.snapshotSha256.truthy

def validate (record : MigrationRecord) : Except JournalError MigrationRecord :=
  if record.format == "dp-beget-migration-journal-v4" && record.phase ∈ PHASES && transaction record.transactionId &&
      sha256 record.artifactSha256 && commit record.oldCommit && commit record.newCommit &&
      record.snapshotPath.emptyOr normalized && record.snapshotSha256.emptyOr sha256 && snapshotFits record &&
      normalized record.unitBackup.path && sha256 record.unitBackup.manifestSha256 then
    match validateLegacyServiceActivity record.serviceActivity with
    | .ok () => .ok record
    | .error e => .error e
  else .error (.message "Invalid migration journal")

/-! ## Transitions -/

/-- What a transition is asked for, with the name of its temporary file. -/
structure MigrationCall where
  expectedPhase : String
  nextPhase : String
  details : List (String × Value)
  temporary : String
  deriving DecidableEq

/-- `details[key]` -/
def MigrationCall.detail (call : MigrationCall) (key : String) : Value := (call.details.lookup key).getD .undefined

/-- `{ ...previous, ...details }[key]` -/
def MigrationCall.merged (call : MigrationCall) (key : String) (previous : Value) : Value :=
  (call.details.lookup key).getD previous

/-- The phases, the keys of the details and the path of the snapshot are accepted. -/
def accepts (call : MigrationCall) (previous : MigrationRecord) : Except JournalError Bool :=
  if previous.phase != call.expectedPhase || phaseIndex call.nextPhase != phaseIndex call.expectedPhase + 1 ||
      call.details.any fun (key, _) => !(key ∈ ["snapshotPath", "snapshotSha256"]) then .ok false
  else match call.detail "snapshotPath" with
    | .undefined => .ok true
    | .text path => .ok (normalized path)
    | .other _ => .error .type

/-- The record that a transition makes of the one before. -/
def nextRecord (call : MigrationCall) (previous : MigrationRecord) : Except JournalError MigrationRecord := do
  if !(← accepts call previous) then throw (.message "Migration journal phase transition rejected")
  if call.nextPhase == "snapshotted" &&
      (!(call.detail "snapshotPath").truthy || !(call.detail "snapshotSha256").truthy) then
    throw (.message "Snapshot path and digest required")
  validate { previous with
    snapshotPath := call.merged "snapshotPath" previous.snapshotPath
    snapshotSha256 := call.merged "snapshotSha256" previous.snapshotSha256
    phase := call.nextPhase }

/-- What is asked of the system: whether the user is root, and whether the directory and the file are trusted. -/
inductive JournalCheck
  | root
  | parent
  | journal
  deriving DecidableEq

abbrev JournalScript (α : Type) := FileScript JournalCheck Bool MigrationRecord JournalError α

/-- A check, with the message for where it fails. -/
def check (q : JournalCheck) (text : String) : JournalScript Unit := do
  let holds ← perform .file (.ask q)
  demand holds (.message text)

def trustedParent (filename : String) : JournalScript Unit := do
  demand (normalized filename) (.message "Journal path must be normalized and absolute")
  check .parent "Journal parent is not a trusted root directory"

def readMigrationJournal (filename : String) : JournalScript MigrationRecord := do
  trustedParent filename
  check .journal "Untrusted migration journal"
  let record ← perform .file .read
  orThrow (validate record)

def advanceMigrationJournal (filename : String) (call : MigrationCall) : JournalScript MigrationRecord := do
  check .root "Root is required for a migration journal"
  trustedParent filename
  locked .file
  let next ← tryCatch (do
      let previous ← readMigrationJournal filename
      orThrow (nextRecord call previous)) fun error => do
    unlocked .file
    throw error
  replaced .file call.temporary next
  unlocked .file
  pure next

/-- The transitions of the journal. Files fail for other reasons at any time. -/
def migrationCalls (filename : String) :
    Calls (FileOp JournalCheck Bool MigrationRecord) FileError (FileState JournalCheck Bool MigrationRecord) MigrationCall
      (FileNotes JournalCheck Bool MigrationRecord) (JournalCheck → Bool) (Except JournalError MigrationRecord) :=
  fileCalls (fun call => (advanceMigrationJournal filename call).run) (· = .io)

/-! ## What a transition changes -/

/-- What no transition changes. -/
def MigrationRecord.fixed (r : MigrationRecord) :
    String × String × String × String × String × UnitBackup × List (String × String) :=
  (r.format, r.transactionId, r.oldCommit, r.newCommit, r.artifactSha256, r.unitBackup, r.serviceActivity)

def MigrationRecord.snapshot (r : MigrationRecord) : Value × Value := (r.snapshotPath, r.snapshotSha256)

/-- The snapshot is recorded. -/
def MigrationRecord.Snapshotted (r : MigrationRecord) : Prop := phaseIndex "snapshotted" ≤ phaseIndex r.phase

/-- The details name no snapshot, or the one of the record. -/
def MigrationCall.Keeps (call : MigrationCall) (r : MigrationRecord) : Prop :=
  (∀ v ∈ call.details.lookup "snapshotPath", v = r.snapshotPath) ∧
    ∀ v ∈ call.details.lookup "snapshotSha256", v = r.snapshotSha256

instance (call : MigrationCall) (r : MigrationRecord) : Decidable (call.Keeps r) :=
  inferInstanceAs (Decidable (_ ∧ _))

instance (r : MigrationRecord) : Decidable r.Snapshotted := inferInstanceAs (Decidable (_ ≤ _))

/-- What follows a record: one that is valid, in the next phase, and the same in what is fixed. -/
structure Follows (previous r : MigrationRecord) : Prop where
  phase : phaseIndex r.phase = phaseIndex previous.phase + 1
  fixed : r.fixed = previous.fixed
  valid : validate r = .ok r

variable {call : MigrationCall} {previous r r' : MigrationRecord}

theorem validate_ok (h : validate r = .ok r') : r' = r := by
  unfold validate at h
  split at h
  · split at h
    · exact (Except.ok.inj h).symm
    · cases h
  · cases h

theorem accepts_true (h : accepts call previous = .ok true) :
    previous.phase = call.expectedPhase ∧ phaseIndex call.nextPhase = phaseIndex call.expectedPhase + 1 := by
  unfold accepts at h
  split at h
  · cases Except.ok.inj h
  · rename_i hall
    simp only [Bool.or_eq_true, bne_iff_ne, ne_eq, not_or, not_not] at hall
    exact hall.1

/-- What a transition makes of a record. -/
theorem nextRecord_spec (h : nextRecord call previous = .ok r) :
    previous.phase = call.expectedPhase ∧ r.phase = call.nextPhase ∧ Follows previous r ∧
    r.snapshotPath = call.merged "snapshotPath" previous.snapshotPath ∧
    r.snapshotSha256 = call.merged "snapshotSha256" previous.snapshotSha256 := by
  unfold nextRecord at h
  rcases haccepts : accepts call previous with e | accepted
  · rw [haccepts] at h
    cases h
  · rw [haccepts] at h
    cases accepted with
    | false => cases h
    | true =>
      obtain ⟨hexpected, hindex⟩ := accepts_true haccepts
      -- what is left is the check of the snapshot, and the record
      have hvalid : validate { previous with
          snapshotPath := call.merged "snapshotPath" previous.snapshotPath
          snapshotSha256 := call.merged "snapshotSha256" previous.snapshotSha256
          phase := call.nextPhase } = .ok r := by
        by_cases hsnapshot : (call.nextPhase == "snapshotted" &&
            (!(call.detail "snapshotPath").truthy || !(call.detail "snapshotSha256").truthy)) = true
        · simp [hsnapshot, bind, Except.bind, throw, throwThe, MonadExceptOf.throw] at h
        · simpa [hsnapshot, bind, Except.bind, pure, Except.pure] using h
      obtain rfl := validate_ok hvalid
      exact ⟨hexpected, rfl, ⟨by rw [hexpected]; exact hindex, rfl, hvalid⟩, rfl, rfl⟩

/-- A snapshot that the details leave stays. -/
theorem snapshot_of_keeps (h : nextRecord call previous = .ok r) (hkeeps : call.Keeps previous) :
    r.snapshot = previous.snapshot := by
  obtain ⟨-, -, -, hpath, hsha⟩ := nextRecord_spec h
  have hmerged : ∀ {key : String} {v : Value}, (∀ w, call.details.lookup key = some w → w = v) →
      call.merged key v = v := by
    intro key v hkey
    unfold MigrationCall.merged
    cases hlookup : call.details.lookup key with
    | none => rfl
    | some w => exact hkey w hlookup
  unfold MigrationRecord.snapshot
  rw [hpath, hsha, hmerged hkeeps.1, hmerged hkeeps.2]

/-! ## One transition -/

/-- What a transition may do: to replace the record that it has read by the next one. -/
def Transition (call : MigrationCall) (_ : List (JournalCheck × Bool)) (previous r : MigrationRecord) : Prop :=
  nextRecord call previous = .ok r

/-- What is known of a transition. -/
abbrev Learned := Known JournalCheck Bool MigrationRecord

/-- Nothing has been read or written yet. -/
def Untouched (phase : Phase) (m : Learned) : Prop :=
  m.notes.phase = phase ∧ m.notes.seen = none ∧ m.notes.staged = none ∧ m.notes.publishedAt = none

/-- How a transition ends: what succeeds has published, and what is rejected has published nothing, and holds no lock
file. -/
def Ended : Except JournalError MigrationRecord → Learned → Prop
  | .ok _, m => m.notes.publishedAt.isSome = true
  | .error (.file _), _ => True
  | .error _, m => m.notes.publishedAt = none ∧ (m.notes.phase = .outside ∨ m.notes.phase = .gone)

section Along

variable {α : Type} {filename : String} {phase : Phase} {known : Learned}

theorem permit_check {q : JournalCheck} {text : String} {P : Except JournalError Unit → Learned → Prop}
    (h : Untouched phase known) (hP : ∀ r m, Untouched phase m → P r m) :
    Permitted Transition call (check q text) P known := by
  refine Script.along_bind (Script.along_perform (.inr ⟨h.2.2.1, h.2.2.2⟩) (fun holds => ?_) fun e => hP _ _ h)
  exact permit_demand (fun _ => hP _ _ h) (hP _ _ h)

theorem permit_trustedParent {P : Except JournalError Unit → Learned → Prop} (h : Untouched phase known)
    (hP : ∀ r m, Untouched phase m → P r m) : Permitted Transition call (trustedParent filename) P known :=
  Script.along_bind (permit_demand (fun _ => permit_check h hP) (hP _ _ h))

/-- The record is read under the lock file. -/
theorem permit_readMigrationJournal {P : Except JournalError MigrationRecord → Learned → Prop}
    (h : Untouched .holding known)
    (hok : ∀ r m, m.notes.phase = .holding → m.notes.staged = none → m.notes.publishedAt = none →
      m.notes.seen = some r → P (.ok r) m)
    (herror : ∀ e m, m.notes.phase = .holding → m.notes.publishedAt = none → P (.error e) m) :
    Permitted Transition call (readMigrationJournal filename) P known := by
  refine Script.along_bind (permit_trustedParent h ?_)
  rintro (e | ⟨⟩) m hm
  · exact herror e m hm.1 hm.2.2.2
  refine Script.along_bind (permit_check hm ?_)
  rintro (e | ⟨⟩) m hm
  · exact herror e m hm.1 hm.2.2.2
  refine Script.along_bind (Script.along_perform (.inr ⟨hm.1, hm.2.2.1⟩) (fun record => ?_) fun e =>
    herror _ _ hm.1 hm.2.2.2)
  refine permit_orThrow ?_
  rcases hvalidate : validate record with e | r
  · exact herror e _ hm.1 hm.2.2.2
  · -- the record that is returned is the one that was read
    obtain rfl := validate_ok hvalidate
    exact hok r _ hm.1 hm.2.2.1 hm.2.2.2 rfl

/-- **A transition may do what it does**, whatever is answered. -/
theorem permit_advanceMigrationJournal :
    Permitted Transition call (advanceMigrationJournal filename call) Ended .nothing := by
  have hrejected : ∀ {r : Except JournalError MigrationRecord} {m : Learned}, m.notes.publishedAt = none →
      m.notes.phase = .outside ∨ m.notes.phase = .gone → (∀ a, r ≠ .ok a) → Ended r m := by
    rintro (e | a) m hpublished hphase hr
    · cases e with
      | file e => trivial
      | message text => exact ⟨hpublished, hphase⟩
      | type => exact ⟨hpublished, hphase⟩
    · exact absurd rfl (hr a)
  have hstart : Untouched .outside .nothing := ⟨rfl, rfl, rfl, rfl⟩
  refine Script.along_bind (permit_check hstart ?_)
  rintro (e | ⟨⟩) m hm
  · exact hrejected hm.2.2.2 (.inl hm.1) nofun
  refine Script.along_bind (permit_trustedParent hm ?_)
  rintro (e | ⟨⟩) m hm
  · exact hrejected hm.2.2.2 (.inl hm.1) nofun
  refine Script.along_bind (permit_locked ⟨hm.1, hm.2.1, hm.2.2.1⟩ ?_ fun e m => trivial)
  have hheld : Untouched .holding { m with notes := { m.notes with phase := .holding } } := ⟨rfl, hm.2⟩
  -- what is rejected removes the lock file
  have hreject : ∀ {P : Except JournalError MigrationRecord → Learned → Prop} (e : JournalError) (m : Learned),
      m.notes.phase = .holding → m.notes.publishedAt = none → (∀ e m, Ended (.error e) m → P (.error e) m) →
      Permitted Transition call (do unlocked .file; throw e : JournalScript MigrationRecord) P m := by
    intro P e m hphase hpublished hP
    exact Script.along_bind (permit_unlocked (.inl hphase)
      (Script.along_throw (hP _ _ (hrejected hpublished (.inr rfl) nofun))) fun e m _ => hP _ _ trivial)
  refine Script.along_bind (Script.along_tryCatch (Script.along_bind (permit_readMigrationJournal hheld ?_
    fun e m hphase hpublished => hreject e m hphase hpublished fun _ _ => id)))
  intro previous m hphase hstaged hpublished hseen
  refine permit_orThrow ?_
  rcases hnext : nextRecord call previous with e | next
  · exact hreject e m hphase hpublished fun _ _ => id
  · refine Script.along_bind (permit_replaced hphase hstaged ⟨previous, hseen, hnext⟩ ?_ fun e m _ => trivial)
    intro m hphase hpublished
    exact Script.along_bind (permit_unlocked (.inr hphase) (Script.along_pure hpublished) fun e m _ => trivial)

end Along

/-! ## Runs -/

section Runs

variable {filename : String}

abbrev MigrationPool :=
  FilePool JournalCheck Bool MigrationRecord MigrationCall (Except JournalError MigrationRecord)

abbrev MigrationEvent :=
  FileEvent JournalCheck Bool MigrationRecord MigrationCall (Except JournalError MigrationRecord)

/-- A transition that has passed its checks leaves a snapshot that is recorded. -/
def leaving : Condition (FileOp JournalCheck Bool MigrationRecord) (FileState JournalCheck Bool MigrationRecord)
    MigrationCall (FileNotes JournalCheck Bool MigrationRecord) (JournalCheck → Bool) where
  operation call _ _ op s := match op with
    | .write _ _ => ∀ previous ∈ s.record, previous.Snapshotted → call.Keeps previous
    | _ => True
  beside _ _ _ _ := True
  elsewhere _ _ := True
  aside _ _ _ _ := True

/-- The same transition, of a snapshot that is left. -/
def Leaving (call : MigrationCall) (asked : List (JournalCheck × Bool)) (previous r : MigrationRecord) : Prop :=
  Transition call asked previous r ∧ (previous.Snapshotted → call.Keeps previous)

variable {p p' : MigrationPool} {l : MigrationEvent} {h : List (MigrationEvent × MigrationPool)}
  {s : FileState JournalCheck Bool MigrationRecord} {r₀ : MigrationRecord}

theorem run_obedient (hpath : Path (Pool.Steps (migrationCalls filename) leaving) (Pool.still s) h p)
    (hp : Exclusive Leaving p) (hl : Pool.Meets leaving p l) : Obedient Leaving p l := by
  intro i call n β op k hl' hi
  subst hl'
  obtain ⟨known, ⟨hop, -⟩, hof⟩ := run_allowed (fun _ => permit_advanceMigrationJournal) (hpath.mono And.right) i _ hi
  replace hop := hof.obeys hop
  cases op with
  | write name r =>
    obtain ⟨hphase, hstaged, hcreated, previous, hseen, hnext⟩ := hop
    -- the record that was read is still the one in the journal
    refine ⟨hphase, hstaged, hcreated, previous, hseen, hnext, ?_⟩
    exact (hl call n _ _ k hi).1 previous (hp.seen i _ previous hi hphase hseen)
  | _ => exact hop

theorem run_migration (hrecord : s.record = some r₀) (hpublished : s.published = [])
    (hpath : Path (Pool.Steps (migrationCalls filename) leaving) (Pool.still s) h p) : Recorded Leaving r₀ h p :=
  run_recorded hrecord hpublished hpath run_obedient

/-- A record that was published follows the one before it. -/
theorem follows_of_recorded {k : Nat} (hp : Recorded Leaving r₀ h p)
    (hprevious : (r₀ :: p.store.published)[k]? = some previous) (hr : p.store.published[k]? = some r) :
    Follows previous r ∧ (previous.Snapshotted → r.snapshot = previous.snapshot) := by
  obtain ⟨call, n, previous', r', hprevious', hr', hnext, hkeeps⟩ := hp.made (List.getElem?_eq_some_iff.mp hr).1
  obtain rfl := Option.some.inj (hprevious.symm.trans hprevious')
  obtain rfl := Option.some.inj (hr.symm.trans hr')
  obtain ⟨-, -, hfollows, -⟩ := nextRecord_spec hnext
  exact ⟨hfollows, fun hsnapshotted => snapshot_of_keeps hnext (hkeeps hsnapshotted)⟩

/-- Some records later, the phase is as many phases further, and the rest is the same. -/
theorem later_of_recorded {k m : Nat} (hp : Recorded Leaving r₀ h p)
    (hprevious : (r₀ :: p.store.published)[k]? = some previous)
    (hr : (r₀ :: p.store.published)[k + m]? = some r) :
    phaseIndex r.phase = phaseIndex previous.phase + m ∧ r.fixed = previous.fixed ∧
      (previous.Snapshotted → r.snapshot = previous.snapshot) := by
  induction m generalizing r with
  | zero =>
    obtain rfl := Option.some.inj (hprevious.symm.trans hr)
    exact ⟨by simp, rfl, fun _ => rfl⟩
  | succ m ih =>
    have hlt : k + m < (r₀ :: p.store.published).length := by
      have := (List.getElem?_eq_some_iff.mp hr).1
      omega
    obtain ⟨hindex, hfixed, hsnapshot⟩ := ih (List.getElem?_eq_getElem hlt)
    obtain ⟨hfollows, hkept⟩ := follows_of_recorded hp (List.getElem?_eq_getElem hlt) hr
    refine ⟨?_, hfollows.fixed.trans hfixed, fun hsnapshotted => ?_⟩
    · rw [hfollows.phase, hindex]
      push_cast
      ring
    · refine (hkept ?_).trans (hsnapshot hsnapshotted)
      unfold MigrationRecord.Snapshotted at hsnapshotted ⊢
      omega

/-- A transition that has succeeded made a record of its own, in the phase after the one that it expected. -/
theorem made_of_success {i : Nat} {call : MigrationCall} {n : FileNotes JournalCheck Bool MigrationRecord}
    {q : MigrationPool} (hp : Recorded Leaving r₀ h p)
    (hpath : Path (Pool.Steps (migrationCalls filename) leaving) (Pool.still s) h p)
    (hmem : (.returns i call n (.ok r), q) ∈ h) :
    ∃ k previous, n.publishedAt = some k ∧ (r₀ :: p.store.published)[k]? = some previous ∧
      previous.phase = call.expectedPhase := by
  obtain ⟨known, hended, hof⟩ := run_ended (fun _ => permit_advanceMigrationJournal) (hpath.mono And.right) hmem
  obtain ⟨k, hk⟩ := Option.isSome_iff_exists.mp (hof.published.symm.trans hended)
  obtain ⟨previous, r, hprevious, -, hnext, -⟩ := hp.returned i call n (.ok _) q k hmem hk
  exact ⟨k, previous, hk, hprevious, (nextRecord_spec hnext).1⟩

end Runs

/-! ## A transition that is not disturbed by others -/

section Alone

variable {Fault : FileError → Prop}

theorem careful_check {q : JournalCheck} {text : String} : Script.Careful Fault (check q text) :=
  Script.careful_bind Script.careful_perform fun _ => careful_demand

theorem careful_trustedParent {filename : String} : Script.Careful Fault (trustedParent filename) :=
  Script.careful_bind careful_demand fun _ => careful_check

theorem careful_readMigrationJournal {filename : String} : Script.Careful Fault (readMigrationJournal filename) := by
  apply Script.careful_bind careful_trustedParent
  intro _
  apply Script.careful_bind careful_check
  intro _
  exact Script.careful_bind Script.careful_perform fun _ => careful_orThrow

/-- **A transition throws where a call of it fails.** -/
theorem careful_advanceMigrationJournal {filename : String} {call : MigrationCall} :
    Script.Careful Fault (advanceMigrationJournal filename call) := by
  apply Script.careful_bind careful_check
  intro _
  apply Script.careful_bind careful_trustedParent
  intro _
  apply Script.careful_bind careful_locked
  intro _
  apply Script.careful_bind
  · apply Script.careful_tryCatch
    · exact Script.careful_bind careful_readMigrationJournal fun _ => careful_orThrow
    · exact fun e => Script.throws_bind fun _ => Script.throws_throw
  · intro next
    apply Script.careful_bind careful_replaced
    intro _
    exact Script.careful_bind careful_unlocked fun _ => Script.careful_pure

/-- The file with its journal. -/
def journalFile : Backend (FileOp JournalCheck Bool MigrationRecord) FileError (FileState JournalCheck Bool MigrationRecord) :=
  ⟨fun op s => op.exec s⟩

variable {j : FileState JournalCheck Bool MigrationRecord} {filename : String}

theorem total_syncDir {P : Unit → FileState JournalCheck Bool MigrationRecord → Prop} (hP : P () j) :
    Script.Total journalFile (syncDir .file : JournalScript Unit) P j := by
  apply Script.total_bind
  apply Script.total_perform rfl
  apply Script.total_finally
  exact Script.total_perform rfl (Script.total_perform rfl hP)

theorem total_check {q : JournalCheck} {text : String} {P : Unit → FileState JournalCheck Bool MigrationRecord → Prop}
    (hq : j.answers q = true) (hP : P () j) : Script.Total journalFile (check q text) P j := by
  apply Script.total_bind
  apply Script.total_perform rfl
  rw [hq]
  exact Script.total_pure hP

theorem total_readMigrationJournal {r : MigrationRecord} {P : MigrationRecord → FileState JournalCheck Bool MigrationRecord → Prop}
    (hpath : normalized filename = true) (hanswers : ∀ q, j.answers q = true) (hrecord : j.record = some r)
    (hvalid : validate r = .ok r) (hP : P r j) :
    Script.Total journalFile (readMigrationJournal filename) P j := by
  apply Script.total_bind
  apply Script.total_bind
  rw [hpath]
  apply Script.total_pure
  apply total_check (hanswers _)
  apply Script.total_bind
  apply total_check (hanswers _)
  apply Script.total_bind
  have hread : journalFile.exec .read j = .ok (r, j) := by simp [journalFile, FileOp.exec, hrecord]
  apply Script.total_perform hread
  rw [hvalid]
  exact Script.total_pure hP

/-- The record of a journal that is switched can be advanced. -/
theorem nextRecord_switched {r : MigrationRecord} (temporary : String) (hvalid : validate r = .ok r)
    (hphase : r.phase = "switched") :
    ∃ next, nextRecord ⟨"switched", "locally-healthy", [], temporary⟩ r = .ok next := by
  have haccepts : accepts ⟨"switched", "locally-healthy", [], temporary⟩ r = .ok true := by
    have hindex : phaseIndex "locally-healthy" = phaseIndex "switched" + 1 := by decide
    simp [accepts, hphase, hindex, MigrationCall.detail]
  have hfits : snapshotFits { r with phase := "locally-healthy" } = snapshotFits r := by
    have hthen : ¬phaseIndex "locally-healthy" < phaseIndex "snapshotted" := by decide
    have hbefore : ¬phaseIndex "switched" < phaseIndex "snapshotted" := by decide
    simp [snapshotFits, hphase, hthen, hbefore]
  refine ⟨{ r with phase := "locally-healthy" }, ?_⟩
  have hnext : validate { r with phase := "locally-healthy" } = .ok { r with phase := "locally-healthy" } := by
    unfold validate at hvalid ⊢
    rw [hfits]
    split at hvalid
    · rename_i hall
      rw [hphase] at hall
      have hin : "locally-healthy" ∈ PHASES := by decide
      simp only [Bool.and_eq_true, decide_eq_true_eq] at hall ⊢
      rw [if_pos]
      · split at hvalid
        · rfl
        · cases hvalid
      · exact ⟨⟨⟨⟨⟨⟨⟨⟨⟨⟨hall.1.1.1.1.1.1.1.1.1.1, hin⟩, hall.1.1.1.1.1.1.1.1.2⟩, hall.1.1.1.1.1.1.1.2⟩, hall.1.1.1.1.1.1.2⟩,
          hall.1.1.1.1.1.2⟩, hall.1.1.1.1.2⟩, hall.1.1.1.2⟩, hall.1.1.2⟩, hall.1.2⟩, hall.2⟩
    · cases hvalid
  rw [nextRecord, haccepts]
  exact hnext

/-- Without faults the transition succeeds. -/
theorem total_advanceMigrationJournal {temporary : String} (hpath : normalized filename = true)
    (hanswers : ∀ q, j.answers q = true) (hunlocked : j.locked = false) (htemporary : j.temporary temporary = none)
    (hrecord : ∃ r, j.record = some r ∧ validate r = .ok r ∧ r.phase = "switched") :
    Script.Total journalFile (advanceMigrationJournal filename ⟨"switched", "locally-healthy", [], temporary⟩)
      (fun _ _ => True) j := by
  obtain ⟨r, hrecord, hvalid, hphase⟩ := hrecord
  obtain ⟨next, hnext⟩ := nextRecord_switched temporary hvalid hphase
  apply Script.total_bind
  apply total_check (hanswers _)
  apply Script.total_bind
  apply Script.total_bind
  rw [hpath]
  apply Script.total_pure
  apply total_check (hanswers _)
  apply Script.total_bind
  apply Script.total_bind
  have hlock : journalFile.exec .lock j = .ok ((), { j with locked := true }) := by
    simp [journalFile, FileOp.exec, hunlocked]
  apply Script.total_perform hlock
  apply Script.total_bind
  apply Script.total_finally
  apply Script.total_bind
  apply Script.total_perform rfl
  apply Script.total_perform rfl
  apply Script.total_perform rfl
  apply total_syncDir
  apply Script.total_bind
  apply Script.total_tryCatch
  apply Script.total_bind
  apply total_readMigrationJournal (j := { j with locked := true }) hpath hanswers hrecord hvalid
  rw [hnext]
  apply Script.total_pure
  apply Script.total_bind
  apply Script.total_bind
  have hcreate : journalFile.exec (.create temporary) { j with locked := true } = .ok ((),
      { j with locked := true, temporary := Function.update j.temporary temporary (some none) }) := by
    simp [journalFile, FileOp.exec, htemporary]
  apply Script.total_perform hcreate
  apply Script.total_bind
  apply Script.total_finally
  apply Script.total_bind
  apply Script.total_perform rfl
  apply Script.total_perform rfl
  apply Script.total_perform rfl
  apply Script.total_tryCatch
  apply Script.total_bind
  have hpublish : ∃ t : FileState JournalCheck Bool MigrationRecord, t.locked = true ∧
      journalFile.exec (.publish temporary) { j with
        locked := true
        temporary := Function.update (Function.update j.temporary temporary (some none)) temporary (some (some next)) } =
      .ok ((), t) := by
    simp only [journalFile, FileOp.exec, Function.update_self]
    exact ⟨_, rfl, rfl⟩
  obtain ⟨t, hlocked, hpublish⟩ := hpublish
  apply Script.total_perform hpublish
  apply total_syncDir
  apply Script.total_bind
  apply Script.total_bind
  have hunlock : journalFile.exec .unlock t = .ok ((), { t with locked := false }) := by
    simp [journalFile, FileOp.exec, hlocked]
  apply Script.total_perform hunlock
  apply total_syncDir
  exact Script.total_pure trivial

end Alone

/-! ## Runs that are computed -/

section Samples

def sampleActivity : List (String × String) := LEGACY_UNITS.map fun unit => (unit, "active")

/-- A text of one digit, as long as it has to be. -/
def sampleHex (n : Nat) : String := String.ofList (List.replicate n 'a')

/-- A record whose state is recorded. -/
def sampleRecord (phase : String) (snapshotPath : Value) : MigrationRecord where
  format := "dp-beget-migration-journal-v4"
  transactionId := sampleHex 36
  phase := phase
  oldCommit := sampleHex 40
  newCommit := sampleHex 40
  artifactSha256 := sampleHex 64
  snapshotPath := snapshotPath
  snapshotSha256 := .text (sampleHex 64)
  unitBackup := ⟨"/units", sampleHex 64⟩
  serviceActivity := sampleActivity

def sampleState : FileState JournalCheck Bool MigrationRecord where
  record := some (sampleRecord "snapshotted" (.text "/state"))
  locked := false
  temporary _ := none
  answers _ := true
  published := []

/-- The condition is decided. -/
def decideLeaving (call : MigrationCall) (s : FileState JournalCheck Bool MigrationRecord)
    (n : FileNotes JournalCheck Bool MigrationRecord) {β : Type} :
    (op : FileOp JournalCheck Bool MigrationRecord β) → Decidable (leaving.operation call n op s)
  | .write _ _ =>
    inferInstanceAs (Decidable (∀ previous ∈ s.record, previous.Snapshotted → call.Keeps previous))
  | .lock => isTrue trivial
  | .settle => isTrue trivial
  | .read => isTrue trivial
  | .ask _ => isTrue trivial
  | .create _ => isTrue trivial
  | .publish _ => isTrue trivial
  | .discard _ => isTrue trivial
  | .unlock => isTrue trivial

instance : Decides (migrationCalls "/journal") leaving where
  ready _ _ := isTrue trivial
  operation call n _ op s := decideLeaving call s n op
  beside _ _ _ _ := trivial

instance : Decides (migrationCalls "/journal")
    (Condition.any : Condition (FileOp JournalCheck Bool MigrationRecord) (FileState JournalCheck Bool MigrationRecord)
      MigrationCall (FileNotes JournalCheck Bool MigrationRecord) (JournalCheck → Bool)) where
  ready _ _ := isTrue trivial
  operation _ _ _ _ _ := isTrue trivial
  beside _ _ _ _ := trivial

/-- The next transition, with details or without. -/
def sampleCall (details : List (String × Value)) : MigrationCall := ⟨"snapshotted", "switched", details, "/journal.tmp"⟩

/-- The records that were published, and how the last call has ended. -/
def ending (r : List (MigrationEvent × MigrationPool) × MigrationPool) :
    List MigrationRecord × Option (Except JournalError MigrationRecord) :=
  (r.2.store.published, match r.1.getLast? with
    | some (.returns _ _ _ a, _) => some a
    | _ => none)

theorem exists_ending {C : Option (List (MigrationEvent × MigrationPool) × MigrationPool)}
    {records : List MigrationRecord} {a : Option (Except JournalError MigrationRecord)}
    (h : C.map ending = some (records, a)) : ∃ h p, C = some (h, p) ∧ p.store.published = records := by
  obtain ⟨⟨h, p⟩, hplay, hending⟩ := Option.map_eq_some_iff.mp h
  exact ⟨h, p, hplay, congrArg Prod.fst hending⟩

end Samples

end BegetBridge.MigrationJournal
