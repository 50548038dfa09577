import BegetBridge.Interleaving.History
import BegetBridge.Posix.Disk

/-!
# The archive of a recovered hotfix journal

An activation that has failed and was recovered leaves its journal. A retry copies that to an archive, whose name
is made of the digest of the journal, removes the journal, and creates a new one.

## Main definitions

* `JournalRecord`, `Vault`, `VaultOp`: the journal and the archives, and the calls on them
* `archiveRecoveredJournal`, `journalCreate`, `retried`: the beginning of a retry
* `attempts`: activations of one stage, each failed and recovered, and retried
* `Archived`: the archive has the text of the journal, and survives

## Main results

* `meets_retried`: no journal is removed before it is archived
* `retry_available_iff`: a retry goes on exactly where its archive is not there yet
-/

namespace BegetBridge.HotfixArchive

open Posix Interleaving

/-! ## The journal and the archives -/

/-- The text of a journal. -/
structure JournalRecord where
  format : String
  stageDir : String
  manifestSha256 : String
  phase : String
  deriving DecidableEq

/-- A journal: its text, if it has one, and whether it is a private file of the root user at its real path. -/
structure JournalFile where
  text : Option JournalRecord
  trusted : Bool
  deriving DecidableEq

/-- An archive: its text, whether that was synchronised, and whether its directory was. -/
structure ArchiveFile where
  text : Option JournalRecord
  synced : Bool
  listed : Bool
  deriving DecidableEq

/-- The files of a stage. -/
structure Vault where
  journal : Option JournalFile
  temporary : Option JournalFile
  archives : String → Option ArchiveFile

/-- The calls. Handles that are synchronised or closed without an effect on what is modelled only settle. -/
inductive VaultOp : Type → Type
  | lstatJournal : VaultOp Bool
  | readJournal : VaultOp JournalRecord
  | createJournal : VaultOp Unit
  | writeJournal (r : JournalRecord) : VaultOp Unit
  | unlinkJournal : VaultOp Unit
  | createTemporary : VaultOp Unit
  | writeTemporary (r : JournalRecord) : VaultOp Unit
  | renameTemporary : VaultOp Unit
  | createArchive (name : String) : VaultOp Unit
  | writeArchive (name : String) (r : JournalRecord) : VaultOp Unit
  | syncArchive (name : String) : VaultOp Unit
  | syncDirectory : VaultOp Unit
  | settle : VaultOp Unit

namespace Vault

def withJournal (s : Vault) (journal : Option JournalFile) : Vault := { s with journal := journal }

def withTemporary (s : Vault) (temporary : Option JournalFile) : Vault := { s with temporary := temporary }

def withArchive (s : Vault) (name : String) (file : ArchiveFile) : Vault :=
  { s with archives := Function.update s.archives name (some file) }

/-- Every archive is listed in the directory for good. -/
def listed (s : Vault) : Vault :=
  { s with archives := fun name => (s.archives name).map fun file => { file with listed := true } }

def exec : {β : Type} → VaultOp β → Vault → Except Errno (β × Vault)
  | _, .lstatJournal, s => s.journal.elim (.error .ENOENT) fun file => .ok (file.trusted, s)
  | _, .readJournal, s =>
    (s.journal.bind JournalFile.text).elim (.error (if s.journal.isSome then .other else .ENOENT)) fun r => .ok (r, s)
  | _, .createJournal, s =>
    s.journal.elim (.ok ((), s.withJournal (some ⟨none, true⟩))) fun _ => .error .EEXIST
  | _, .writeJournal r, s => s.journal.elim (.error .other) fun file => .ok ((), s.withJournal (some { file with text := some r }))
  | _, .unlinkJournal, s => s.journal.elim (.error .ENOENT) fun _ => .ok ((), s.withJournal none)
  | _, .createTemporary, s => .ok ((), s.withTemporary (some ⟨none, true⟩))
  | _, .writeTemporary r, s =>
    s.temporary.elim (.error .other) fun file => .ok ((), s.withTemporary (some { file with text := some r }))
  | _, .renameTemporary, s =>
    s.temporary.elim (.error .ENOENT) fun file => .ok ((), (s.withJournal (some file)).withTemporary none)
  | _, .createArchive name, s =>
    (s.archives name).elim (.ok ((), s.withArchive name ⟨none, false, false⟩)) fun _ => .error .EEXIST
  | _, .writeArchive name r, s =>
    (s.archives name).elim (.error .other) fun file =>
      .ok ((), s.withArchive name { file with text := some r, synced := false })
  | _, .syncArchive name, s =>
    (s.archives name).elim (.error .other) fun file => .ok ((), s.withArchive name { file with synced := true })
  | _, .syncDirectory, s => .ok ((), s.listed)
  | _, .settle, s => .ok ((), s)

end Vault

def vault : Backend VaultOp Errno Vault := ⟨Vault.exec⟩

/-- What a retry throws. -/
inductive ArchiveError
  | call (e : Errno)
  | message (text : String)
  deriving DecidableEq

abbrev ArchiveScript := Script VaultOp Errno ArchiveError

def call {β : Type} (op : VaultOp β) : ArchiveScript β := .perform .call op

def demand (holds : Bool) (text : String) : ArchiveScript Unit := if holds then pure () else throw (.message text)

/-- `syncDirectory(directory)` -/
def syncDirectory : ArchiveScript Unit := do
  call .settle
  Script.andFinally (call .syncDirectory) (call .settle)

def journalFormat : String := "dp-r0003-counter-hotfix-install-v1"

def phases : List String :=
  ["preparing", "closing-ingress", "ingress-closed", "stopping-writers", "writers-stopped", "sources-updated",
    "locally-healthy", "opening-ingress", "complete", "recovering", "recovered"]

section Scripts

variable (digest : JournalRecord → String) (stageDir manifestSha256 : String)

/-- `journalRead(filename, stageDir, manifestSha256)` -/
def journalRead : ArchiveScript JournalRecord := do
  let trusted ← call .lstatJournal
  demand trusted "Untrusted hotfix journal"
  let record ← call .readJournal
  demand (record.format == journalFormat && record.stageDir == stageDir && record.manifestSha256 == manifestSha256 &&
    record.phase ∈ phases) "Unrecognized hotfix activation journal"
  return record

/-- `journalCreate(filename, stageDir, manifestSha256)` -/
def journalCreate : ArchiveScript JournalRecord := do
  call .createJournal
  let record : JournalRecord := ⟨journalFormat, stageDir, manifestSha256, "preparing"⟩
  Script.andFinally (do
    call (.writeJournal record)
    call .settle) (call .settle)
  syncDirectory
  return record

/-- `journalUpdate(filename, record, phase)` -/
def journalUpdate (record : JournalRecord) (phase : String) : ArchiveScript JournalRecord := do
  let record := { record with phase := phase }
  call .createTemporary
  Script.andFinally (do
    call (.writeTemporary record)
    call .settle) (call .settle)
  call .renameTemporary
  syncDirectory
  return record

/-- The name of the archive of a journal. -/
def archiveName (bytes : JournalRecord) : String :=
  stageDir ++ ".activation.recovered-" ++ String.ofList ((digest bytes).toList.take 16) ++ ".json"

/-- `archiveRecoveredJournal(stageDir, manifestSha256)` -/
def archiveRecoveredJournal : ArchiveScript String := do
  let previous ← journalRead stageDir manifestSha256
  demand (previous.phase == "recovered") "Prior activation has not completed recovery"
  let bytes ← call .readJournal
  let archive := archiveName digest stageDir bytes
  call (.createArchive archive)
  Script.andFinally (do
    call (.writeArchive archive bytes)
    call (.syncArchive archive)) (call .settle)
  syncDirectory
  let again ← call .readJournal
  demand (digest again == digest bytes) "Recovered activation journal changed during archival"
  call .unlinkJournal
  syncDirectory
  return archive

/-- What a retry does with the journal once the preflight is positive. -/
def retried : ArchiveScript JournalRecord := do
  let _ ← archiveRecoveredJournal digest stageDir manifestSha256
  journalCreate stageDir manifestSha256

/-- An activation that fails and is recovered, by its journal: the phases that it reaches, and those of the recovery. -/
def failedActivation (record : JournalRecord) : List String → ArchiveScript Unit
  | [] => do
    let record ← journalUpdate record "recovering"
    let record ← journalUpdate record "opening-ingress"
    let _ ← journalUpdate record "recovered"
  | phase :: reached => do
    let record ← journalUpdate record phase
    failedActivation record reached

/-- Some activations of one stage, each failed and recovered. All but the first are retries. -/
def attempts : List (List String) → ArchiveScript Unit
  | [] => pure ()
  | [reached] => do
    let record ← journalCreate stageDir manifestSha256
    failedActivation record reached
  | reached :: earlier => do
    attempts earlier
    let record ← retried digest stageDir manifestSha256
    failedActivation record reached

end Scripts

/-! ## Runs without faults -/

section Retry

variable {digest : JournalRecord → String} {stageDir manifestSha256 : String} {s s' : Vault} {α β : Type}
  {h : List (Entry VaultOp Errno)}

/-- The journal of an activation that was recovered. -/
def recoveredRecord (stageDir manifestSha256 : String) : JournalRecord :=
  ⟨journalFormat, stageDir, manifestSha256, "recovered"⟩

/-- The journal of an activation that begins. -/
def preparingRecord (stageDir manifestSha256 : String) : JournalRecord :=
  ⟨journalFormat, stageDir, manifestSha256, "preparing"⟩

/-- The name of the archive of a recovered journal. All recovered journals of a stage have the same text. -/
def recoveredName (digest : JournalRecord → String) (stageDir manifestSha256 : String) : String :=
  archiveName digest stageDir (recoveredRecord stageDir manifestSha256)

/-- The last activation of the stage was recovered. -/
def Recovered (stageDir manifestSha256 : String) (s : Vault) : Prop :=
  s.journal = some ⟨some (recoveredRecord stageDir manifestSha256), true⟩

theorem total_call_iff {op : VaultOp α} {Q : α → Vault → Prop} :
    Script.Total vault (call op) Q s ↔ ∃ x, s.exec op = .ok x ∧ Q x.1 x.2 := Script.total_perform_iff

theorem total_demand_iff {holds : Bool} {text : String} {Q : Unit → Vault → Prop} :
    Script.Total vault (demand holds text) Q s ↔ holds = true ∧ Q () s := by
  cases holds with
  | true => simp only [demand, if_true, Script.total_pure_iff, true_and]
  | false => exact ⟨fun hQ => absurd hQ Script.not_total_throw, fun hQ => absurd hQ.1 Bool.false_ne_true⟩

theorem total_syncDirectory_iff {Q : Unit → Vault → Prop} :
    Script.Total vault syncDirectory Q s ↔ Q () s.listed := by
  simp [syncDirectory, Script.total_bind_iff, Script.total_finally_iff, total_call_iff, Vault.exec]

theorem total_journalRead_iff {Q : JournalRecord → Vault → Prop} :
    Script.Total vault (journalRead stageDir manifestSha256) Q s ↔
      ∃ phase ∈ phases, s.journal = some ⟨some ⟨journalFormat, stageDir, manifestSha256, phase⟩, true⟩ ∧
        Q ⟨journalFormat, stageDir, manifestSha256, phase⟩ s := by
  rcases hj : s.journal with _ | ⟨_ | ⟨format, dir, manifest, phase⟩, trusted⟩
  · simp [journalRead, Script.total_bind_iff, total_call_iff, Vault.exec, hj]
  · simp [journalRead, Script.total_bind_iff, total_call_iff, Vault.exec, hj, total_demand_iff]
  · simp only [journalRead, Script.total_bind_iff, total_call_iff, Vault.exec, hj, total_demand_iff,
      Script.total_pure_iff]
    simp
    grind

/-- What is left once a journal is archived. -/
def archivedVault (digest : JournalRecord → String) (stageDir manifestSha256 : String) (s : Vault) : Vault :=
  ((s.withArchive (recoveredName digest stageDir manifestSha256)
    ⟨some (recoveredRecord stageDir manifestSha256), true, false⟩).listed.withJournal none).listed

theorem total_archiveRecoveredJournal_iff {Q : String → Vault → Prop} :
    Script.Total vault (archiveRecoveredJournal digest stageDir manifestSha256) Q s ↔
      Recovered stageDir manifestSha256 s ∧ s.archives (recoveredName digest stageDir manifestSha256) = none ∧
        Q (recoveredName digest stageDir manifestSha256) (archivedVault digest stageDir manifestSha256 s) := by
  have hrest : Recovered stageDir manifestSha256 s → (Script.Total vault (do
      let bytes ← call .readJournal
      let archive := archiveName digest stageDir bytes
      call (.createArchive archive)
      Script.andFinally (do
        call (.writeArchive archive bytes)
        call (.syncArchive archive)) (call .settle)
      syncDirectory
      let again ← call .readJournal
      demand (digest again == digest bytes) "Recovered activation journal changed during archival"
      call .unlinkJournal
      syncDirectory
      return archive) Q s ↔ s.archives (recoveredName digest stageDir manifestSha256) = none ∧
        Q (recoveredName digest stageDir manifestSha256) (archivedVault digest stageDir manifestSha256 s)) := by
    intro hjournal
    rw [Recovered] at hjournal
    rw [archivedVault, recoveredName]
    simp only [Script.total_bind_iff, Script.total_finally_iff, total_call_iff, total_syncDirectory_iff, total_demand_iff,
      Script.total_pure_iff, Vault.exec, hjournal]
    cases hfile : s.archives (archiveName digest stageDir (recoveredRecord stageDir manifestSha256)) with
    | none => simp [hfile, hjournal, Vault.withArchive, Vault.listed, Vault.withJournal]
    | some file => simp [hfile]
  rw [archiveRecoveredJournal, Script.total_bind_iff, total_journalRead_iff]
  constructor
  · rintro ⟨phase, -, hjournal, htotal⟩
    rw [Script.total_bind_iff, total_demand_iff] at htotal
    obtain rfl := eq_of_beq htotal.1
    exact ⟨hjournal, (hrest hjournal).mp htotal.2⟩
  · rintro ⟨hjournal, hQ⟩
    refine ⟨"recovered", by decide, hjournal, ?_⟩
    rw [Script.total_bind_iff, total_demand_iff]
    exact ⟨rfl, (hrest hjournal).mpr hQ⟩

theorem total_journalCreate_iff {Q : JournalRecord → Vault → Prop} :
    Script.Total vault (journalCreate stageDir manifestSha256) Q s ↔ s.journal = none ∧
      Q (preparingRecord stageDir manifestSha256)
        (s.withJournal (some ⟨some (preparingRecord stageDir manifestSha256), true⟩)).listed := by
  simp only [journalCreate, Script.total_bind_iff, Script.total_finally_iff, total_call_iff, total_syncDirectory_iff,
    Script.total_pure_iff, Vault.exec]
  cases hjournal : s.journal with
  | none => simp [Vault.withJournal, preparingRecord]
  | some file => simp

/-- Where a retry begins. -/
def retriedVault (digest : JournalRecord → String) (stageDir manifestSha256 : String) (s : Vault) : Vault :=
  ((archivedVault digest stageDir manifestSha256 s).withJournal
    (some ⟨some (preparingRecord stageDir manifestSha256), true⟩)).listed

/-- **A retry goes on** exactly where the last activation was recovered, and where its archive is not there yet. -/
theorem total_retried_iff {Q : JournalRecord → Vault → Prop} :
    Script.Total vault (retried digest stageDir manifestSha256) Q s ↔
      Recovered stageDir manifestSha256 s ∧ s.archives (recoveredName digest stageDir manifestSha256) = none ∧
        Q (preparingRecord stageDir manifestSha256) (retriedVault digest stageDir manifestSha256 s) := by
  have hjournal : (archivedVault digest stageDir manifestSha256 s).journal = none := rfl
  rw [retried, Script.total_bind_iff, total_archiveRecoveredJournal_iff, total_journalCreate_iff, retriedVault]
  simp only [hjournal, true_and]

/-! ## Attempts, one after the other -/

/-- The journal of the stage is written, and no archive appears or disappears. -/
structure Written (record : JournalRecord) (s s' : Vault) : Prop where
  journal : s'.journal = some ⟨some record, true⟩
  archives : ∀ name, s'.archives name = none ↔ s.archives name = none

theorem listed_archives {name : String} : s.listed.archives name = none ↔ s.archives name = none := by
  simp [Vault.listed]

/-- The journal in another phase. -/
def updatedVault (record : JournalRecord) (phase : String) (s : Vault) : Vault :=
  ((s.withJournal (some ⟨some { record with phase := phase }, true⟩)).withTemporary none).listed

theorem total_journalUpdate_iff {record : JournalRecord} {phase : String} {Q : JournalRecord → Vault → Prop} :
    Script.Total vault (journalUpdate record phase) Q s ↔ Q { record with phase := phase } (updatedVault record phase s) := by
  simp [journalUpdate, Script.total_bind_iff, Script.total_finally_iff, total_call_iff, total_syncDirectory_iff,
    Script.total_pure_iff, Vault.exec, Vault.withTemporary, Vault.withJournal, updatedVault]

/-- An activation that fails and is recovered leaves a recovered journal, and the archives that there were. -/
theorem failedActivation_written (reached : List String) (record : JournalRecord) (Q : Unit → Vault → Prop) (s : Vault) :
    ∃ s', Written { record with phase := "recovered" } s s' ∧
      (Script.Total vault (failedActivation record reached) Q s ↔ Q () s') := by
  induction reached generalizing record s with
  | nil =>
    refine ⟨updatedVault record "recovered" (updatedVault record "opening-ingress" (updatedVault record "recovering" s)),
      ⟨rfl, fun name => ?_⟩, ?_⟩
    · exact (listed_archives.trans listed_archives).trans listed_archives
    · simp only [failedActivation, Script.total_bind_iff, total_journalUpdate_iff, Script.total_pure_iff]
      rfl
  | cons phase reached ih =>
    obtain ⟨s', hs', htotal⟩ := ih { record with phase := phase } (updatedVault record phase s)
    refine ⟨s', ⟨hs'.journal, fun name => (hs'.archives name).trans listed_archives⟩, ?_⟩
    rw [failedActivation, Script.total_bind_iff, total_journalUpdate_iff]
    exact htotal

/-- **The attempts of a stage** end with a recovered journal, whose archive is there unless there was one attempt. -/
theorem total_attempts {runs : List (List String)} {Q : Unit → Vault → Prop} (hruns : runs ≠ [])
    (hfree : s.archives (recoveredName digest stageDir manifestSha256) = none)
    (htotal : Script.Total vault (attempts digest stageDir manifestSha256 runs) Q s) :
    ∃ s', Q () s' ∧ Recovered stageDir manifestSha256 s' ∧
      (s'.archives (recoveredName digest stageDir manifestSha256) = none ↔ runs.length = 1) := by
  match runs with
  | [reached] =>
    rw [attempts, Script.total_bind_iff, total_journalCreate_iff] at htotal
    obtain ⟨s', hs', hiff⟩ := failedActivation_written reached (preparingRecord stageDir manifestSha256) Q
      (s.withJournal (some ⟨some (preparingRecord stageDir manifestSha256), true⟩)).listed
    refine ⟨s', hiff.mp htotal.2, hs'.journal, ?_⟩
    simp [hs'.archives, listed_archives, Vault.withJournal, hfree]
  | reached :: earlier :: runs =>
    -- what comes earlier does not matter: the retry itself has left the archive
    rw [attempts, Script.total_bind_iff] at htotal
    · obtain ⟨-, s₁, -, hretried⟩ := htotal
      rw [Script.total_bind_iff, total_retried_iff] at hretried
      obtain ⟨-, -, hrest⟩ := hretried
      obtain ⟨s', hs', hiff⟩ := failedActivation_written reached (preparingRecord stageDir manifestSha256) Q
        (retriedVault digest stageDir manifestSha256 s₁)
      refine ⟨s', hiff.mp hrest, hs'.journal, ?_⟩
      simp [hs'.archives, retriedVault, archivedVault, Vault.withJournal, Vault.withArchive, Vault.listed]
    · exact nofun

theorem attempts_once {reached : List String} {Q : Unit → Vault → Prop} (hjournal : s.journal = none)
    (hQ : ∀ s', Recovered stageDir manifestSha256 s' → (∀ name, s'.archives name = none ↔ s.archives name = none) →
      Q () s') : Script.Total vault (attempts digest stageDir manifestSha256 [reached]) Q s := by
  rw [attempts, Script.total_bind_iff, total_journalCreate_iff]
  obtain ⟨s', hs', hiff⟩ := failedActivation_written reached (preparingRecord stageDir manifestSha256) Q
    (s.withJournal (some ⟨some (preparingRecord stageDir manifestSha256), true⟩)).listed
  exact ⟨hjournal, hiff.mpr (hQ s' hs'.journal fun name => (hs'.archives name).trans listed_archives)⟩

/-- How often a stage can be retried. -/
theorem total_attempts_retried_iff {runs : List (List String)} (hjournal : s.journal = none)
    (hfree : s.archives (recoveredName digest stageDir manifestSha256) = none) :
    Script.Total vault (do
      attempts digest stageDir manifestSha256 runs
      retried digest stageDir manifestSha256) (fun _ _ => True) s ↔ runs.length = 1 := by
  rw [Script.total_bind_iff]
  constructor
  · intro htotal
    cases runs with
    | nil =>
      rw [attempts, Script.total_pure_iff, total_retried_iff, Recovered, hjournal] at htotal
      exact absurd htotal.1 nofun
    | cons reached runs =>
      obtain ⟨s', hretried, -, hiff⟩ := total_attempts (List.cons_ne_nil reached runs) hfree htotal
      exact hiff.mp (total_retried_iff.mp hretried).2.1
  · intro hlength
    obtain ⟨reached, rfl⟩ := List.length_eq_one_iff.mp hlength
    apply attempts_once hjournal
    intro s' hs' harchives
    exact total_retried_iff.mpr ⟨hs', (harchives _).mpr hfree, trivial⟩

/-! ## Runs that are cut -/

/-- The archive of the journal has its text, and survives. -/
def Archived (digest : JournalRecord → String) (stageDir : String) (s : Vault) : Prop :=
  ∃ r trusted, s.journal = some ⟨some r, trusted⟩ ∧
    s.archives (archiveName digest stageDir r) = some ⟨some r, true, true⟩

/-- What is owed: a journal is removed once it is archived. -/
def owes (digest : JournalRecord → String) (stageDir : String) {β : Type} : VaultOp β → Vault → Prop
  | .unlinkJournal, s => Archived digest stageDir s
  | _, _ => True

/-- Nothing has happened, or the archive of the recovered journal is there. -/
def Settled (digest : JournalRecord → String) (stageDir manifestSha256 : String) (s₀ s : Vault) : Prop :=
  s = s₀ ∨ s.archives (recoveredName digest stageDir manifestSha256) ≠ none

/-- The calls that owe nothing. -/
def VaultOp.quiet : VaultOp β → Bool
  | .unlinkJournal => false
  | _ => true

theorem owes_quiet {op : VaultOp β} (hquiet : op.quiet = true) : owes digest stageDir op s := by
  cases op <;> trivial

/-- How a script ends that settles what it finds. -/
def Leaves (digest : JournalRecord → String) (stageDir manifestSha256 : String) (s₀ : Vault) (P : α → Vault → Prop)
    (r : Except ArchiveError α) (s : Vault) : Prop :=
  Settled digest stageDir manifestSha256 s₀ s ∧ ∀ a, r = .ok a → P a s

/-- The script settles what it finds, pays what it owes, and ends in `P` if it returns. -/
abbrev Settles (digest : JournalRecord → String) (stageDir manifestSha256 : String) (s₀ : Vault) (p : ArchiveScript α)
    (P : α → Vault → Prop) (h : List (Entry VaultOp Errno)) (s : Vault) : Prop :=
  Script.Meets vault (fun _ => True)
    (fun _ op s => Settled digest stageDir manifestSha256 s₀ s ∧ owes digest stageDir op s) p
    (fun _ r s' => Leaves digest stageDir manifestSha256 s₀ P r s') h s

variable {s₀ : Vault}

theorem settles_pure {P : α → Vault → Prop} {a : α} (hs : Settled digest stageDir manifestSha256 s₀ s) (hP : P a s) :
    Settles digest stageDir manifestSha256 s₀ (pure a) P h s :=
  ⟨hs, fun b hb => by rwa [← Except.ok.inj hb]⟩

theorem settles_call {op : VaultOp α} {P : α → Vault → Prop} (hs : Settled digest stageDir manifestSha256 s₀ s)
    (howes : owes digest stageDir op s)
    (hok : ∀ a s', s.exec op = .ok (a, s') → Settled digest stageDir manifestSha256 s₀ s' ∧ P a s') :
    Settles digest stageDir manifestSha256 s₀ (call op) P h s := by
  apply Script.meets_perform ⟨hs, howes⟩
  · intro a s' hexec
    refine ⟨(hok a s' hexec).1, fun b hb => ?_⟩
    rw [← Except.ok.inj hb]
    exact (hok a s' hexec).2
  · exact fun e => ⟨hs, nofun⟩

theorem settles_demand {holds : Bool} {text : String} {P : Unit → Vault → Prop}
    (hs : Settled digest stageDir manifestSha256 s₀ s) (hP : holds = true → P () s) :
    Settles digest stageDir manifestSha256 s₀ (demand holds text) P h s := by
  cases holds with
  | true => exact ⟨hs, fun _ _ => hP rfl⟩
  | false => exact ⟨hs, nofun⟩

theorem settles_bind {p : ArchiveScript β} {f : β → ArchiveScript α} {P : β → Vault → Prop} {P' : α → Vault → Prop}
    (hp : Settles digest stageDir manifestSha256 s₀ p P h s)
    (hf : ∀ b h' s', Settled digest stageDir manifestSha256 s₀ s' → P b s' →
      Settles digest stageDir manifestSha256 s₀ (f b) P' h' s') :
    Settles digest stageDir manifestSha256 s₀ (p >>= f) P' h s := by
  apply Script.meets_bind hp
  · exact fun h' b s' hs' => hf b h' s' hs'.1 (hs'.2 b rfl)
  · exact fun h' e s' hs' => ⟨hs'.1, nofun⟩

/-- A handle is closed. -/
theorem settles_closing {p : ArchiveScript α} {P : α → Vault → Prop}
    (hp : Settles digest stageDir manifestSha256 s₀ p P h s) :
    Settles digest stageDir manifestSha256 s₀ (Script.andFinally p (call .settle)) P h s := by
  apply Script.meets_finally hp
  intro h' r s' hs'
  apply Script.meets_perform ⟨hs'.1, trivial⟩
  · intro u s'' hexec
    obtain ⟨-, rfl⟩ := Prod.mk.inj (Except.ok.inj hexec)
    exact hs'
  · exact fun e => ⟨hs'.1, nofun⟩

theorem exec_settle {u : Unit} (hexec : s.exec .settle = .ok (u, s')) : s' = s :=
  (Prod.mk.inj (Except.ok.inj hexec)).2.symm

theorem Settled.listed (htaken : s.archives (recoveredName digest stageDir manifestSha256) ≠ none) :
    Settled digest stageDir manifestSha256 s₀ s.listed := .inr fun hnone => htaken (listed_archives.mp hnone)

theorem settles_settle {P : Unit → Vault → Prop} (hs : Settled digest stageDir manifestSha256 s₀ s) (hP : P () s) :
    Settles digest stageDir manifestSha256 s₀ (call .settle) P h s := by
  apply settles_call hs
  · trivial
  · intro u s' hexec
    rw [exec_settle hexec]
    exact ⟨hs, hP⟩

/-- The directory is synchronised once the archive is there. -/
theorem settles_syncDirectory (htaken : s.archives (recoveredName digest stageDir manifestSha256) ≠ none) :
    Settles digest stageDir manifestSha256 s₀ syncDirectory (fun _ s' => s' = s.listed) h s := by
  apply settles_bind (settles_settle (P := fun _ s' => s' = s) (.inr htaken) rfl)
  rintro u h₁ _ hs₁ rfl
  apply settles_closing
  apply settles_call hs₁
  · trivial
  · intro v s' hexec
    obtain ⟨-, rfl⟩ := Prod.mk.inj (Except.ok.inj hexec)
    exact ⟨.listed htaken, rfl⟩

/-- The journal, and its archive. -/
structure Copied (digest : JournalRecord → String) (stageDir manifestSha256 : String) (file : ArchiveFile) (s : Vault) :
    Prop where
  journal : ∃ trusted, s.journal = some ⟨some (recoveredRecord stageDir manifestSha256), trusted⟩
  archive : s.archives (recoveredName digest stageDir manifestSha256) = some file

theorem Copied.taken {file : ArchiveFile} (hs : Copied digest stageDir manifestSha256 file s) :
    s.archives (recoveredName digest stageDir manifestSha256) ≠ none := by
  rw [hs.archive]
  exact nofun

theorem exec_readJournal {r : JournalRecord} (hexec : s.exec .readJournal = .ok (r, s')) :
    s' = s ∧ ∃ trusted, s.journal = some ⟨some r, trusted⟩ := by
  rcases hj : s.journal with _ | ⟨_ | r', trusted⟩
  · simp [Vault.exec, hj] at hexec
  · simp [Vault.exec, hj] at hexec
  · simp only [Vault.exec, hj, Option.bind_some, Option.elim_some, Except.ok.injEq, Prod.mk.injEq] at hexec
    obtain ⟨rfl, rfl⟩ := hexec
    exact ⟨rfl, trusted, rfl⟩

theorem exec_lstatJournal {trusted : Bool} (hexec : s.exec .lstatJournal = .ok (trusted, s')) : s' = s := by
  cases hj : s.journal with
  | none => simp [Vault.exec, hj] at hexec
  | some file =>
    simp only [Vault.exec, hj, Option.elim_some, Except.ok.injEq, Prod.mk.injEq] at hexec
    exact hexec.2.symm

/-- What is done with a journal that is read. -/
theorem settles_read (hs : Settled digest stageDir manifestSha256 s₀ s) :
    Settles digest stageDir manifestSha256 s₀ (call .readJournal)
      (fun r s' => s' = s ∧ ∃ trusted, s.journal = some ⟨some r, trusted⟩) h s := by
  apply settles_call hs
  · trivial
  · intro r s' hexec
    obtain ⟨rfl, htext⟩ := exec_readJournal hexec
    exact ⟨hs, rfl, htext⟩

theorem settles_journalRead (hs : Settled digest stageDir manifestSha256 s₀ s) :
    Settles digest stageDir manifestSha256 s₀ (journalRead stageDir manifestSha256) (fun r s' => s' = s ∧
      (∃ trusted, s.journal = some ⟨some r, trusted⟩) ∧ (r.phase = "recovered" →
        r = recoveredRecord stageDir manifestSha256)) h s := by
  have hlooked : Settles digest stageDir manifestSha256 s₀ (call .lstatJournal) (fun _ s' => s' = s) h s := by
    apply settles_call hs
    · trivial
    · intro trusted s' hexec
      rw [exec_lstatJournal hexec]
      exact ⟨hs, rfl⟩
  apply settles_bind hlooked
  rintro trusted h₁ _ hs₁ rfl
  apply settles_bind (settles_demand (P := fun _ s' => s' = _) hs₁ fun _ => rfl)
  rintro _ h₂ _ hs₂ rfl
  apply settles_bind (settles_read hs₂)
  rintro r h₃ _ hs₃ ⟨rfl, htext⟩
  apply settles_bind (settles_demand (P := fun _ s' => s' = _ ∧ _) hs₃ fun hfields => ⟨rfl, hfields⟩)
  rintro _ h₄ _ hs₄ ⟨rfl, hfields⟩
  apply settles_pure hs₄
  refine ⟨rfl, htext, fun hphase => ?_⟩
  simp only [Bool.and_eq_true, beq_iff_eq] at hfields
  obtain ⟨⟨⟨hformat, hstage⟩, hmanifest⟩, -⟩ := hfields
  rw [recoveredRecord, ← hformat, ← hstage, ← hmanifest, ← hphase]

theorem Copied.replaced {file file' : ArchiveFile} (hs : Copied digest stageDir manifestSha256 file s) :
    Copied digest stageDir manifestSha256 file' (s.withArchive (recoveredName digest stageDir manifestSha256) file') :=
  ⟨hs.journal, Function.update_self ..⟩

theorem settles_createArchive (hs : Settled digest stageDir manifestSha256 s₀ s)
    (hjournal : ∃ trusted, s.journal = some ⟨some (recoveredRecord stageDir manifestSha256), trusted⟩) :
    Settles digest stageDir manifestSha256 s₀ (call (.createArchive (recoveredName digest stageDir manifestSha256)))
      (fun _ s' => Copied digest stageDir manifestSha256 ⟨none, false, false⟩ s') h s := by
  apply settles_call hs
  · trivial
  · intro u s' hexec
    cases hfile : s.archives (recoveredName digest stageDir manifestSha256) with
    | some file => simp [Vault.exec, hfile] at hexec
    | none =>
      simp only [Vault.exec, hfile, Option.elim_none, Except.ok.injEq, Prod.mk.injEq, true_and] at hexec
      have hcopied : Copied digest stageDir manifestSha256 ⟨none, false, false⟩ s' := by
        rw [← hexec]
        exact ⟨hjournal, Function.update_self ..⟩
      exact ⟨.inr hcopied.taken, hcopied⟩

/-- What is done with an archive that is there. -/
theorem settles_archive {op : VaultOp Unit} {file file' : ArchiveFile}
    (hs : Copied digest stageDir manifestSha256 file s) (hquiet : op.quiet = true)
    (hexec : s.exec op = .ok ((), s.withArchive (recoveredName digest stageDir manifestSha256) file')) :
    Settles digest stageDir manifestSha256 s₀ (call op)
      (fun _ s' => Copied digest stageDir manifestSha256 file' s') h s := by
  apply settles_call (.inr hs.taken) (owes_quiet hquiet)
  intro u s' hexec'
  obtain ⟨-, rfl⟩ := Prod.mk.inj (Except.ok.inj (hexec.symm.trans hexec'))
  exact ⟨.inr hs.replaced.taken, hs.replaced⟩

theorem Copied.listed {file : ArchiveFile} (hs : Copied digest stageDir manifestSha256 file s) :
    Copied digest stageDir manifestSha256 { file with listed := true } s.listed :=
  ⟨hs.journal, by simp [Vault.listed, hs.archive]⟩

/-- **A journal is removed once it is archived**, and nothing else is done before its archive is there. -/
theorem settles_archiveRecoveredJournal :
    Settles digest stageDir manifestSha256 s (archiveRecoveredJournal digest stageDir manifestSha256)
      (fun _ s' => s'.archives (recoveredName digest stageDir manifestSha256) ≠ none) h s := by
  rw [archiveRecoveredJournal]
  apply settles_bind (settles_journalRead (.inl rfl))
  rintro previous h₁ s₁ hs₁ ⟨rfl, hprevious, hphase⟩
  apply settles_bind (settles_demand (P := fun _ s' => s' = _ ∧ previous.phase = "recovered") hs₁
    fun hrecovered => ⟨rfl, eq_of_beq hrecovered⟩)
  rintro _ h₂ s₂ hs₂ ⟨rfl, hrecovered⟩
  apply settles_bind (settles_read hs₂)
  rintro bytes h₃ s₃ hs₃ ⟨rfl, htext⟩
  -- what is read again is the recovered journal
  obtain ⟨trusted, hprevious⟩ := hprevious
  obtain ⟨trusted', htext⟩ := htext
  have hbytes : bytes = recoveredRecord stageDir manifestSha256 := by
    rw [htext] at hprevious
    simp only [Option.some.injEq, JournalFile.mk.injEq] at hprevious
    exact hprevious.1.trans (hphase hrecovered)
  subst hbytes
  apply settles_bind (settles_createArchive hs₃ ⟨trusted', htext⟩)
  intro _ h₄ s₄ hs₄ hempty
  have hcopy : Settles digest stageDir manifestSha256 s₃ (Script.andFinally (do
      call (.writeArchive (recoveredName digest stageDir manifestSha256) (recoveredRecord stageDir manifestSha256))
      call (.syncArchive (recoveredName digest stageDir manifestSha256))) (call .settle)) (fun _ s' =>
        Copied digest stageDir manifestSha256 ⟨some (recoveredRecord stageDir manifestSha256), true, false⟩ s') h₄ s₄ := by
    have hwrite : s₄.exec (.writeArchive (recoveredName digest stageDir manifestSha256)
        (recoveredRecord stageDir manifestSha256)) = .ok ((), s₄.withArchive (recoveredName digest stageDir manifestSha256)
          ⟨some (recoveredRecord stageDir manifestSha256), false, false⟩) := by
      simp [Vault.exec, hempty.archive]
    apply settles_closing
    apply settles_bind (settles_archive hempty rfl hwrite)
    intro _ h₅ s₅ hs₅ hwritten
    apply settles_archive hwritten rfl
    simp [Vault.exec, hwritten.archive]
  apply settles_bind hcopy
  intro _ h₆ s₆ hs₆ hcopied
  apply settles_bind (settles_syncDirectory hcopied.taken)
  rintro _ h₇ s₇ hs₇ rfl
  apply settles_bind (settles_read hs₇)
  rintro again h₈ s₈ hs₈ ⟨rfl, -⟩
  apply settles_bind (settles_demand (P := fun _ s' => s' = _) hs₈ fun _ => rfl)
  rintro _ h₉ s₉ hs₉ rfl
  have hunlinked : Settles digest stageDir manifestSha256 s₃ (call .unlinkJournal)
      (fun _ s' => s'.archives (recoveredName digest stageDir manifestSha256) ≠ none) h₉ s₆.listed := by
    obtain ⟨kept, hkept⟩ := hcopied.listed.journal
    apply settles_call hs₉
    · exact ⟨_, kept, hkept, hcopied.listed.archive⟩
    · intro u s' hexec
      simp only [Vault.exec, hkept, Option.elim_some, Except.ok.injEq, Prod.mk.injEq, true_and] at hexec
      rw [← hexec]
      exact ⟨.inr hcopied.listed.taken, hcopied.listed.taken⟩
  apply settles_bind hunlinked
  intro _ h₁₀ s₁₀ hs₁₀ htaken
  apply settles_bind (settles_syncDirectory htaken)
  rintro _ h₁₁ _ hs₁₁ rfl
  apply settles_pure hs₁₁
  exact fun hnone => htaken (listed_archives.mp hnone)

end Retry

/-! ## Runs that are computed -/

/-- Nothing was activated yet. -/
def emptyVault : Vault := ⟨none, none, fun _ => none⟩

def sampleDigest (r : JournalRecord) : String := r.phase

/-- Nothing is recovered where no journal was left. -/
example : ((retried sampleDigest "/stage" "manifest").run.eval vault emptyVault).1.isOk = false := by decide +kernel

end BegetBridge.HotfixArchive
