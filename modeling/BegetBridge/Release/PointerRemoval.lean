import BegetBridge.Interleaving.History
import BegetBridge.Posix.Disk
import BegetBridge.Posix.Durability
import BegetBridge.Release.VersionPointer

/-!
# The removal of a candidate pointer

After a rollback the link to the candidate is removed. A record says how far that is: prepared, removing, or removed.
It is replaced by a rename, and a call that is cut is made again.

## Main definitions

* `PointerSite`, `PointerOp`: the record and the link, with what a crash may leave of them, and the calls
* `deactivateCandidatePointer`: the removal
* `Good`: what the record says fits the link, whatever a crash leaves
* `Reach`: what is reached by calls and crashes

## Main results

* `meets_deactivateCandidatePointer`: what a call keeps
* `total_deactivateCandidatePointer`: a call that is not interrupted ends with the link removed
* `pointer_removal_resumable`: any number of calls and crashes
-/

namespace BegetBridge.PointerRemoval

open Posix Interleaving
open VersionPointer (versionOf)

/-! ## The record and the link -/

structure PointerRecord where
  format : String
  phase : String
  releaseRoot : String
  target : String
  ledgerPath : String
  ledgerSha256 : String
  migrationTransactionId : String
  deriving DecidableEq

/-- What is at the name of the link. -/
inductive Link
  | link (target : String)
  | other
  deriving DecidableEq

/-- What is proven of the replacement of the old state: it has completed, the migration is the same, and the record is
outside of what was replaced. -/
structure Replacement where
  completed : Bool
  same : Bool
  outside : Bool
  transactionId : String
  newCommit : String
  deriving DecidableEq

/-- The record and the link, and what is around them. -/
structure PointerSite where
  replacement : Replacement
  ledgerSha256 : String
  parentTrusted : Bool
  recordTrusted : Bool
  releaseTrusted : Bool
  previous : Bool
  activationLock : Bool
  record : Cell (Option PointerRecord)
  current : Cell (Option Link)

/-- The calls. A record is created at once. What is synchronised or closed only settles. -/
inductive PointerOp : Type → Type
  | inspectParent : PointerOp Bool
  | inspectReplacement : PointerOp Replacement
  | digestLedger : PointerOp String
  | lstatRecord : PointerOp Unit
  | inspectRecord : PointerOp Bool
  | readRecord : PointerOp PointerRecord
  | createRecord (r : PointerRecord) : PointerOp Unit
  | renameRecord (r : PointerRecord) : PointerOp Unit
  | syncParent : PointerOp Unit
  | inspectRelease : PointerOp Bool
  | lstatPrevious : PointerOp Unit
  | lstatActivationLock : PointerOp Unit
  | lstatCurrent : PointerOp Unit
  | readCurrent : PointerOp Link
  | unlinkCurrent : PointerOp Unit
  | syncRoot : PointerOp Unit
  | settle : PointerOp Unit

namespace PointerSite

def withRecord (s : PointerSite) (record : Cell (Option PointerRecord)) : PointerSite := { s with record := record }

def withCurrent (s : PointerSite) (current : Cell (Option Link)) : PointerSite := { s with current := current }

def exec : {β : Type} → PointerOp β → PointerSite → Except Errno (β × PointerSite)
  | _, .inspectParent, s => .ok (s.parentTrusted, s)
  | _, .inspectReplacement, s => .ok (s.replacement, s)
  | _, .digestLedger, s => .ok (s.ledgerSha256, s)
  | _, .lstatRecord, s => s.record.now.elim (.error .ENOENT) fun _ => .ok ((), s)
  | _, .inspectRecord, s => s.record.now.elim (.error .ENOENT) fun _ => .ok (s.recordTrusted, s)
  | _, .readRecord, s => s.record.now.elim (.error .ENOENT) fun r => .ok (r, s)
  | _, .createRecord r, s => s.record.now.elim (.ok ((), s.withRecord ⟨some r, []⟩)) fun _ => .error .EEXIST
  | _, .renameRecord r, s => .ok ((), s.withRecord (s.record.write (some r)))
  | _, .syncParent, s => .ok ((), s.withRecord s.record.sync)
  | _, .inspectRelease, s => .ok (s.releaseTrusted, s)
  | _, .lstatPrevious, s => if s.previous then .ok ((), s) else .error .ENOENT
  | _, .lstatActivationLock, s => if s.activationLock then .ok ((), s) else .error .ENOENT
  | _, .lstatCurrent, s => s.current.now.elim (.error .ENOENT) fun _ => .ok ((), s)
  | _, .readCurrent, s => s.current.now.elim (.error .ENOENT) fun link => .ok (link, s)
  | _, .unlinkCurrent, s =>
    s.current.now.elim (.error .ENOENT) fun _ => .ok ((), s.withCurrent (s.current.write none))
  | _, .syncRoot, s => .ok ((), s.withCurrent s.current.sync)
  | _, .settle, s => .ok ((), s)

end PointerSite

def pointer : Backend PointerOp Errno PointerSite := ⟨PointerSite.exec⟩

/-- What is thrown. -/
inductive PointerError
  | call (e : Errno)
  | message (text : String)
  deriving DecidableEq

abbrev PointerScript := Script PointerOp Errno PointerError

def call {β : Type} (op : PointerOp β) : PointerScript β := .perform .call op

def demand (holds : Bool) (text : String) : PointerScript Unit := if holds then pure () else throw (.message text)

/-- `syncDirectory(directory)`, where one call synchronises it. -/
def syncDirectory (sync : PointerOp Unit) : PointerScript Unit := do
  call .settle
  Script.andFinally (call sync) (call .settle)

/-- `absent(filename)` -/
def absent (lstat : PointerOp Unit) : PointerScript Bool :=
  tryCatch (do
    call lstat
    pure false) fun
  | .call .ENOENT => pure true
  | error => throw error

/-! ## The removal -/

def FORMAT : String := "dp-beget-bridge-first-migration-pointer-rollback-v1"

/-- `typeof filename === "string" && path.isAbsolute(filename) && path.normalize(filename) === filename && filename !== "/"` -/
def absolute (filename : String) : Bool := Journal.normalized filename && filename != "/"

/-- The fields but for the phase. -/
def fieldsValid (r : PointerRecord) : Bool :=
  r.format == FORMAT && absolute r.ledgerPath && absolute r.releaseRoot && Journal.sha256 r.ledgerSha256 &&
    Journal.transaction r.migrationTransactionId && "releases/".toList.isPrefixOf r.target.toList &&
    (versionOf (String.ofList (r.target.toList.drop 9))).isSome

/-- `validate(record)` -/
def validate (r : PointerRecord) : PointerScript PointerRecord := do
  demand (r.phase ∈ ["prepared", "removing", "removed"] && fieldsValid r) "Invalid candidate pointer rollback record"
  pure r

/-- What a removal is called with: whether it may be, and the arguments that matter. -/
structure Inputs where
  rooted : Bool
  valid : Bool
  ledgerPath : String
  releaseRoot : String
  versionDir : String

def Inputs.target (i : Inputs) : String := "releases/" ++ i.versionDir

/-- `readCandidatePointerRollbackRecord(recordPath)` -/
def readCandidatePointerRollbackRecord : PointerScript PointerRecord := do
  let parent ← call .inspectParent
  demand parent "Untrusted release pointer directory"
  let trusted ← call .inspectRecord
  demand trusted "Untrusted candidate pointer rollback record"
  let r ← call .readRecord
  validate r

/-- Whether the link is absent. Otherwise it is the candidate's. -/
def pointerView (target : String) : PointerScript Bool := do
  let trusted ← call .inspectRelease
  demand trusted "Candidate release directory differs from version pointer"
  let previous ← absent .lstatPrevious
  demand previous "First migration requires no previous release or activation lock"
  let lock ← absent .lstatActivationLock
  demand lock "First migration requires no previous release or activation lock"
  let gone ← absent .lstatCurrent
  if gone then pure true
  else do
    let link ← call .readCurrent
    demand (link == .link target) "Current release pointer changed from journaled candidate"
    pure false

/-- `replacementProof({ ledgerPath, stateDatabase, ...boundary })` -/
def replacementProof : PointerScript Replacement := do
  let replacement ← call .inspectReplacement
  demand replacement.completed "Live old-state replacement has not completed"
  demand replacement.same "Migration changed after state replacement"
  pure replacement

/-- `update(recordPath, previous, phase)` -/
def update (previous : PointerRecord) (phase : String) : PointerScript PointerRecord := do
  let again ← readCandidatePointerRollbackRecord
  demand (again == previous) "Candidate pointer rollback record changed"
  let next ← validate { previous with phase := phase }
  call .settle
  Script.andFinally (do
    call .settle
    call .settle) (call .settle)
  call (.renameRecord next)
  syncDirectory .syncParent
  pure next

/-- The record of this removal, in a phase. -/
def Inputs.recordAt (i : Inputs) (replacement : Replacement) (digest phase : String) : PointerRecord :=
  ⟨FORMAT, phase, i.releaseRoot, i.target, i.ledgerPath, digest, replacement.transactionId⟩

/-- The record that is there, or a new one. -/
def intended (i : Inputs) (replacement : Replacement) (digest : String) : PointerScript PointerRecord := do
  let new ← absent .lstatRecord
  if new then do
    let gone ← pointerView i.target
    demand (!gone) "Candidate current pointer was removed without rollback intent"
    let record ← validate (i.recordAt replacement digest "prepared")
    call (.createRecord record)
    pure record
  else readCandidatePointerRollbackRecord

/-- The intent to remove the link is recorded. -/
def announced (record : PointerRecord) (gone : Bool) : PointerScript PointerRecord :=
  if record.phase == "prepared" then do
    demand (!gone) "Pointer changed before removal intent"
    update record "removing"
  else pure record

def unlinkUnless (gone : Bool) : PointerScript Unit := if gone then pure () else call .unlinkCurrent

/-- The link is removed, and that is recorded. -/
def removed (target : String) (record : PointerRecord) (gone : Bool) : PointerScript PointerRecord :=
  if record.phase == "removing" then do
    unlinkUnless gone
    syncDirectory .syncRoot
    let gone ← pointerView target
    demand gone "Candidate pointer removal is uncertain"
    update record "removed"
  else pure record

/-- `deactivateCandidatePointer` -/
def deactivateCandidatePointer (i : Inputs) : PointerScript PointerRecord := do
  demand (i.rooted && i.valid && (versionOf i.versionDir).isSome)
    "Root, first-migration pointer and separate rollback record are required"
  let parent ← call .inspectParent
  demand parent "Untrusted release pointer directory"
  let replacement ← replacementProof
  demand (("-" ++ replacement.newCommit).toList.isSuffixOf i.versionDir.toList) "Candidate commit differs from migration"
  demand replacement.outside "Pointer rollback record must be outside live state, units and backups"
  let digest ← call .digestLedger
  let record ← intended i replacement digest
  demand (record.releaseRoot == i.releaseRoot && record.target == i.target && record.ledgerPath == i.ledgerPath &&
    record.ledgerSha256 == digest && record.migrationTransactionId == replacement.transactionId)
    "Candidate pointer rollback record belongs to another migration"
  let gone ← pointerView i.target
  let record ← announced record gone
  let record ← removed i.target record gone
  demand (record.phase == "removed") "Candidate pointer rollback is incomplete"
  let gone ← pointerView i.target
  demand gone "Candidate pointer rollback is incomplete"
  let _ ← replacementProof
  pure record

/-! ## What the record says of the link -/

section Removal

variable {i : Inputs} {start : Option Link} {s s' : PointerSite} {h : List (Entry PointerOp Errno)} {α β : Type}

/-- The record of this removal, in a phase. -/
def PointerSite.recordAt (s : PointerSite) (i : Inputs) (phase : String) : PointerRecord :=
  i.recordAt s.replacement s.ledgerSha256 phase

/-- What a phase says of the link. -/
inductive PhaseFits (candidate : Link) : String → Option Link → Prop
  | prepared : PhaseFits candidate "prepared" (some candidate)
  | unremoved : PhaseFits candidate "removing" (some candidate)
  | unlinked : PhaseFits candidate "removing" none
  | removed : PhaseFits candidate "removed" none

theorem PhaseFits.mem {candidate : Link} {phase : String} {current : Option Link} (hfits : PhaseFits candidate phase current) :
    phase ∈ ["prepared", "removing", "removed"] := by
  cases hfits <;> decide

theorem PhaseFits.prepared_iff {candidate : Link} {current : Option Link} :
    PhaseFits candidate "prepared" current ↔ current = some candidate := by
  refine ⟨fun hfits => ?_, fun hcurrent => hcurrent ▸ .prepared⟩
  generalize hphase : "prepared" = phase at hfits
  cases hfits <;> simp_all

theorem PhaseFits.removed_iff {candidate : Link} {current : Option Link} :
    PhaseFits candidate "removed" current ↔ current = none := by
  refine ⟨fun hfits => ?_, fun hcurrent => hcurrent ▸ .removed⟩
  generalize hphase : "removed" = phase at hfits
  cases hfits <;> simp_all

/-- The record and the link fit: there is no record and the link is as it was, or it was the candidate's, the record is
that of this removal, and its phase fits the link. -/
def Fits (i : Inputs) (start : Option Link) (s : PointerSite) : Option PointerRecord → Option Link → Prop
  | none, current => current = start
  | some r, current => start = some (.link i.target) ∧ r = s.recordAt i r.phase ∧ PhaseFits (.link i.target) r.phase current

/-- Whatever a crash leaves of the record and of the link fits. -/
def Good (i : Inputs) (start : Option Link) (s : PointerSite) : Prop :=
  s.record.All fun r => s.current.All (Fits i start s r)

/-- A record that says removing lasts. -/
def Settled (s : PointerSite) : Prop :=
  ∀ r, s.record.now = some r → r.phase = "removing" → s.record.stale = []

/-- What is owed: the link is removed under a record that lasts, and it is the candidate's. -/
def Announced (i : Inputs) (s : PointerSite) : Prop :=
  s.record = ⟨some (s.recordAt i "removing"), []⟩ ∧ s.current.now = some (.link i.target)

def owes (i : Inputs) (start : Option Link) : {β : Type} → PointerOp β → PointerSite → Prop
  | _, .unlinkCurrent, s => Good i start s ∧ Announced i s
  | _, _, s => Good i start s

/-- A call may fail, but what is there is never said to be missing. -/
def Fault (e : Errno) : Prop := e ≠ .ENOENT

/-- How a script ends: in `P`, or in a throw that leaves everything fitting. -/
def Ends (i : Inputs) (start : Option Link) (P : α → PointerSite → Prop) (r : Except PointerError α) (s : PointerSite) :
    Prop := Good i start s ∧ ∀ a, r = .ok a → P a s

/-- Every run keeps what fits, pays what it owes, and ends in `P` if it returns. -/
abbrev Keeps (i : Inputs) (start : Option Link) (p : PointerScript α) (P : α → PointerSite → Prop)
    (h : List (Entry PointerOp Errno)) (s : PointerSite) : Prop :=
  Script.Meets pointer Fault (fun _ op s => owes i start op s) p (fun _ r s' => Ends i start P r s') h s

variable {P : α → PointerSite → Prop}

theorem ends_ok {a : α} (hs : Good i start s) (hP : P a s) : Ends i start P (.ok a) s :=
  ⟨hs, fun b hb => by rwa [← Except.ok.inj hb]⟩

theorem ends_error {e : PointerError} (hs : Good i start s) : Ends i start P (.error e) s := ⟨hs, nofun⟩

theorem keeps_bind {p : PointerScript β} {f : β → PointerScript α} {R : β → PointerSite → Prop}
    (hp : Keeps i start p R h s)
    (hf : ∀ b h' s', Good i start s' → R b s' → Keeps i start (f b) P h' s') : Keeps i start (p >>= f) P h s := by
  apply Script.meets_bind hp
  · exact fun h' b s' hs' => hf b h' s' hs'.1 (hs'.2 b rfl)
  · exact fun h' e s' hs' => ends_error hs'.1

/-- After what only looks everything is as it was. -/
theorem keeps_after {p : PointerScript β} {f : β → PointerScript α} {P' : β → Prop}
    (hp : Keeps i start p (fun b s' => s' = s ∧ P' b) h s) (hf : ∀ b h', P' b → Keeps i start (f b) P h' s) :
    Keeps i start (p >>= f) P h s := by
  apply keeps_bind hp
  rintro b h' _ - ⟨rfl, hb⟩
  exact hf b h' hb

theorem keeps_pure {a : α} (hs : Good i start s) (hP : P a s) : Keeps i start (pure a) P h s := ends_ok hs hP

theorem keeps_demand {holds : Bool} {text : String} (hs : Good i start s) :
    Keeps i start (demand holds text) (fun _ s' => s' = s ∧ holds = true) h s := by
  cases holds with
  | true => exact keeps_pure hs ⟨rfl, rfl⟩
  | false => exact Script.meets_throw (ends_error hs)

theorem keeps_call {op : PointerOp α} (hs : Good i start s) (howes : owes i start op s)
    (hok : ∀ a s', s.exec op = .ok (a, s') → Good i start s' ∧ P a s') : Keeps i start (call op) P h s := by
  apply Script.meets_perform howes
  · exact fun a s' hexec => ends_ok (hok a s' hexec).1 (hok a s' hexec).2
  · exact fun e => ends_error hs

/-- The calls that only look. -/
def PointerOp.looks : {β : Type} → PointerOp β → Bool
  | _, .createRecord _ => false
  | _, .renameRecord _ => false
  | _, .syncParent => false
  | _, .unlinkCurrent => false
  | _, .syncRoot => false
  | _, _ => true

theorem exec_looks {op : PointerOp α} {a : α} (hlooks : op.looks = true) (hexec : s.exec op = .ok (a, s')) : s' = s := by
  cases op with
  | createRecord | renameRecord | syncParent | unlinkCurrent | syncRoot => cases hlooks
  | lstatRecord | inspectRecord | readRecord =>
    cases hrecord : s.record.now with
    | none => simp [PointerSite.exec, hrecord] at hexec
    | some r => simp_all [PointerSite.exec]
  | lstatCurrent | readCurrent =>
    cases hcurrent : s.current.now with
    | none => simp [PointerSite.exec, hcurrent] at hexec
    | some link => simp_all [PointerSite.exec]
  | lstatPrevious =>
    cases hprevious : s.previous with
    | false => simp [PointerSite.exec, hprevious] at hexec
    | true => simp_all [PointerSite.exec]
  | lstatActivationLock =>
    cases hlock : s.activationLock with
    | false => simp [PointerSite.exec, hlock] at hexec
    | true => simp_all [PointerSite.exec]
  | inspectParent | inspectReplacement | digestLedger | inspectRelease | settle =>
    exact (Prod.mk.inj (Except.ok.inj hexec)).2.symm

theorem owes_looks {op : PointerOp α} (hlooks : op.looks = true) (hs : Good i start s) : owes i start op s := by
  cases op with
  | unlinkCurrent => cases hlooks
  | _ => exact hs

/-- What only looks leaves everything as it is. -/
theorem keeps_look {op : PointerOp α} (hs : Good i start s) (hlooks : op.looks = true) :
    Keeps i start (call op) (fun a s' => s' = s ∧ s.exec op = .ok (a, s)) h s := by
  apply keeps_call hs (owes_looks hlooks hs)
  intro a s' hexec
  obtain rfl := exec_looks hlooks hexec
  exact ⟨hs, rfl, hexec⟩

theorem keeps_settle (hs : Good i start s) :
    Keeps i start (call .settle) (fun u s' => s' = s ∧ s.exec .settle = .ok (u, s)) h s := keeps_look hs rfl

/-- A handle is closed. -/
theorem keeps_closing {p : PointerScript α} (hp : Keeps i start p P h s) :
    Keeps i start (Script.andFinally p (call .settle)) P h s := by
  apply Script.meets_finally hp
  intro h' r s' hs'
  apply Script.meets_mono (keeps_settle hs'.1)
  rintro h'' (e | u) s'' ⟨hgood, hsame⟩
  · exact ends_error hgood
  · rw [(hsame u rfl).1]
    exact hs'

/-- What is asked for is absent exactly when the call says so. -/
theorem keeps_absent {lstat : PointerOp Unit} (hs : Good i start s) (hlooks : lstat.looks = true) :
    Keeps i start (absent lstat)
      (fun gone s' => s' = s ∧ s.exec lstat = bif gone then .error .ENOENT else .ok ((), s)) h s := by
  refine Script.meets_tryCatch (P := fun _ r s' => s' = s ∧ match r with
    | .ok gone => gone = false ∧ s.exec lstat = .ok ((), s)
    | .error e => e = .call .ENOENT → s.exec lstat = .error .ENOENT) ?_ ?_ ?_
  · refine Script.meets_bind (P := fun _ r s' => s' = s ∧ match r with
      | .ok () => s.exec lstat = .ok ((), s)
      | .error e => e = .call .ENOENT → s.exec lstat = .error .ENOENT) ?_ ?_ ?_
    · apply Script.meets_answer (owes_looks hlooks hs)
      · intro a s' hexec
        obtain rfl := exec_looks hlooks hexec
        exact ⟨rfl, hexec⟩
      · rintro e hexec
        exact ⟨rfl, fun he => by rw [← PointerError.call.inj he]; exact hexec⟩
      · exact fun e hfault => ⟨rfl, fun he => absurd (PointerError.call.inj he) hfault⟩
    · exact fun h' u s' hs' => ⟨hs'.1, rfl, hs'.2⟩
    · exact fun h' e s' hs' => hs'
  · rintro h' gone s' ⟨rfl, rfl, hexec⟩
    exact ends_ok hs ⟨rfl, hexec⟩
  · rintro h' e s' ⟨rfl, hexec⟩
    split
    · exact keeps_pure hs ⟨rfl, hexec rfl⟩
    · exact Script.meets_throw (ends_error hs)

/-! ## What a call keeps -/

theorem keeps_pointerView {target : String} (hs : Good i start s) :
    Keeps i start (pointerView target)
      (fun gone s' => s' = s ∧ s.current.now = bif gone then none else some (.link target)) h s := by
  rw [pointerView]
  apply keeps_after (keeps_look hs rfl)
  rintro trusted h₁ -
  apply keeps_after (keeps_demand hs)
  rintro _ h₂ -
  apply keeps_after (keeps_absent hs rfl)
  rintro previous h₃ -
  apply keeps_after (keeps_demand hs)
  rintro _ h₄ -
  apply keeps_after (keeps_absent hs rfl)
  rintro lock h₅ -
  apply keeps_after (keeps_demand hs)
  rintro _ h₆ -
  apply keeps_after (keeps_absent hs rfl)
  intro gone h₇ hgone
  cases gone with
  | true =>
    apply keeps_pure hs
    cases hcurrent : s.current.now with
    | none => exact ⟨rfl, rfl⟩
    | some link => simp [PointerSite.exec, hcurrent] at hgone
  | false =>
    apply keeps_after (keeps_look hs rfl)
    intro link h₈ hlink
    apply keeps_after (keeps_demand hs)
    intro _ h₉ hcandidate
    apply keeps_pure hs
    cases hcurrent : s.current.now with
    | none => simp [PointerSite.exec, hcurrent] at hlink
    | some link' =>
      simp only [PointerSite.exec, hcurrent, Option.elim_some, Except.ok.injEq, Prod.mk.injEq, and_true] at hlink
      refine ⟨rfl, ?_⟩
      rw [hlink, eq_of_beq hcandidate]
      rfl

theorem keeps_validate {r : PointerRecord} (hs : Good i start s) :
    Keeps i start (validate r) (fun r' s' => s' = s ∧ r' = r) h s := by
  rw [validate]
  apply keeps_after (keeps_demand hs)
  rintro _ h₁ -
  exact keeps_pure hs ⟨rfl, rfl⟩

theorem keeps_readRecord (hs : Good i start s) :
    Keeps i start readCandidatePointerRollbackRecord (fun r s' => s' = s ∧ s.record.now = some r) h s := by
  rw [readCandidatePointerRollbackRecord]
  apply keeps_after (keeps_look hs rfl)
  rintro parent h₁ -
  apply keeps_after (keeps_demand hs)
  rintro _ h₂ -
  apply keeps_after (keeps_look hs rfl)
  rintro trusted h₃ -
  apply keeps_after (keeps_demand hs)
  rintro _ h₄ -
  apply keeps_after (keeps_look hs rfl)
  intro r h₅ hread
  have hnow : s.record.now = some r := by
    cases hrecord : s.record.now with
    | none => simp [PointerSite.exec, hrecord] at hread
    | some r' => simp_all [PointerSite.exec]
  rw [validate]
  apply keeps_after (keeps_demand hs)
  rintro _ h₆ -
  exact keeps_pure hs ⟨rfl, hnow⟩

theorem keeps_replacementProof (hs : Good i start s) :
    Keeps i start replacementProof (fun replacement s' => s' = s ∧ replacement = s.replacement) h s := by
  rw [replacementProof]
  apply keeps_after (keeps_look hs rfl)
  intro replacement h₁ hexec
  apply keeps_after (keeps_demand hs)
  rintro _ h₂ -
  apply keeps_after (keeps_demand hs)
  rintro _ h₃ -
  exact keeps_pure hs ⟨rfl, (Prod.mk.inj (Except.ok.inj hexec)).1.symm⟩

/-- The directory of the record is synchronised. -/
theorem keeps_syncParent (hs : Good i start s) :
    Keeps i start (syncDirectory .syncParent) (fun _ s' => s' = s.withRecord s.record.sync) h s := by
  rw [syncDirectory]
  apply keeps_after (keeps_settle hs)
  rintro _ h₁ -
  apply keeps_closing
  apply keeps_call hs
  · exact hs
  · intro u s' hexec
    obtain ⟨-, rfl⟩ := Prod.mk.inj (Except.ok.inj hexec)
    exact ⟨Cell.all_sync hs, rfl⟩

/-- The directory of the link is synchronised. -/
theorem keeps_syncRoot (hs : Good i start s) :
    Keeps i start (syncDirectory .syncRoot) (fun _ s' => s' = s.withCurrent s.current.sync) h s := by
  rw [syncDirectory]
  apply keeps_after (keeps_settle hs)
  rintro _ h₁ -
  apply keeps_closing
  apply keeps_call hs
  · exact hs
  · intro u s' hexec
    obtain ⟨-, rfl⟩ := Prod.mk.inj (Except.ok.inj hexec)
    exact ⟨Cell.All.mono (fun r hr => Cell.all_sync hr) hs, rfl⟩

/-- A new record lasts once the directory is synchronised, and fits at once. -/
theorem keeps_update {phase phase' : String} (hs : Good i start s) (hstart : start = some (.link i.target))
    (hfits : s.current.All (PhaseFits (.link i.target) phase')) :
    Keeps i start (update (s.recordAt i phase) phase')
      (fun r s' => r = s.recordAt i phase' ∧ s' = s.withRecord ⟨some r, []⟩) h s := by
  rw [update]
  apply keeps_after (keeps_readRecord hs)
  intro again h₁ hnow
  apply keeps_after (keeps_demand hs)
  rintro _ h₂ -
  apply keeps_after (keeps_validate hs)
  rintro _ h₃ rfl
  apply keeps_after (keeps_settle hs)
  rintro _ h₄ -
  have hsettled : Keeps i start (Script.andFinally (do
      call .settle
      call .settle) (call .settle)) (fun u s' => s' = s ∧ s.exec .settle = .ok (u, s)) h₄ s := by
    apply keeps_closing
    apply keeps_after (keeps_settle hs)
    rintro _ h₅ -
    exact keeps_settle hs
  apply keeps_after hsettled
  rintro _ h₆ -
  have hwritten : Good i start (s.withRecord (s.record.write (some (s.recordAt i phase')))) :=
    Cell.all_write (Cell.All.mono (fun c hc => ⟨hstart, rfl, hc⟩) hfits) hs
  apply keeps_bind (R := fun _ s' => s' = s.withRecord (s.record.write (some (s.recordAt i phase'))))
  · apply keeps_call hs
    · exact hs
    · intro u s' hexec
      obtain ⟨-, rfl⟩ := Prod.mk.inj (Except.ok.inj hexec)
      exact ⟨hwritten, rfl⟩
  · rintro _ h₇ _ - rfl
    apply keeps_bind (keeps_syncParent hwritten)
    rintro _ h₈ _ hs₈ rfl
    exact keeps_pure hs₈ ⟨rfl, rfl⟩

theorem Good.start_of_record (hs : Good i start s) {r : PointerRecord} (hr : s.record.now = some r) :
    start = some (.link i.target) ∧ r = s.recordAt i r.phase ∧ s.current.All (PhaseFits (.link i.target) r.phase) := by
  have hfits := hs.1
  rw [hr] at hfits
  exact ⟨hfits.1.1, hfits.1.2.1, Cell.All.mono (fun _ hc => hc.2.2) hfits⟩

theorem keeps_intended {replacement : Replacement} {digest : String} (hs : Good i start s) (hsettled : Settled s)
    (hreplacement : replacement = s.replacement) (hdigest : digest = s.ledgerSha256) :
    Keeps i start (intended i replacement digest) (fun r s' => s'.record.now = some r ∧ Settled s') h s := by
  rw [intended]
  apply keeps_after (keeps_absent hs rfl)
  intro new h₁ hnew
  cases new with
  | false =>
    apply Script.meets_mono (keeps_readRecord hs)
    rintro h₂ r s' ⟨hs', hread⟩
    refine ⟨hs', fun r' hr' => ?_⟩
    obtain ⟨rfl, hr⟩ := hread r' hr'
    exact ⟨hr, hsettled⟩
  | true =>
    apply keeps_after (keeps_pointerView hs)
    intro gone h₂ hgone
    apply keeps_after (keeps_demand hs)
    intro _ h₃ hhere
    apply keeps_after (keeps_validate hs)
    rintro _ h₄ rfl
    have hnone : s.record.now = none := by
      cases hrecord : s.record.now with
      | none => rfl
      | some r => simp [PointerSite.exec, hrecord] at hnew
    -- before there is a record the link is what it was
    have hcandidate : start = some (.link i.target) ∧ s.current.All fun c => c = some (.link i.target) := by
      have hfits := hs.1
      rw [hnone] at hfits
      have hstart : start = some (.link i.target) := by
        rw [Bool.not_eq_true'] at hhere
        rw [hhere] at hgone
        exact hfits.1.symm.trans hgone
      refine ⟨hstart, ?_⟩
      rw [← hstart]
      exact hfits
    apply keeps_bind (R := fun _ s' => s' = s.withRecord ⟨some (s.recordAt i "prepared"), []⟩)
    · apply keeps_call hs
      · exact hs
      · intro u s' hexec
        rw [hreplacement, hdigest] at hexec
        simp only [PointerSite.exec, hnone, Option.elim_none, Except.ok.injEq, Prod.mk.injEq, true_and] at hexec
        subst hexec
        refine ⟨Cell.all_settled rfl (Cell.All.mono ?_ hcandidate.2), rfl⟩
        rintro _ rfl
        exact ⟨hcandidate.1, rfl, .prepared⟩
    · rintro _ h₅ _ hs₅ rfl
      apply keeps_pure hs₅
      rw [hreplacement, hdigest]
      exact ⟨rfl, fun _ _ _ => rfl⟩

/-- The intent is recorded, and lasts. -/
theorem keeps_announced {r : PointerRecord} {gone : Bool} (hs : Good i start s) (hr : s.record.now = some r)
    (hsettled : Settled s) :
    Keeps i start (announced r gone)
      (fun r' s' => s'.record.now = some r' ∧ Settled s' ∧ s'.current = s.current) h s := by
  obtain ⟨hstart, hrecord, hphase⟩ := hs.start_of_record hr
  rw [announced]
  split
  · next hprepared =>
    apply keeps_after (keeps_demand hs)
    rintro _ h₁ -
    rw [hrecord]
    apply Script.meets_mono (keeps_update hs hstart (Cell.All.mono ?_ hphase))
    · rintro h₂ r' s' ⟨hs', hupdated⟩
      refine ⟨hs', fun r'' hr'' => ?_⟩
      obtain ⟨-, rfl⟩ := hupdated r'' hr''
      exact ⟨rfl, fun _ _ _ => rfl, rfl⟩
    · intro c hc
      rw [eq_of_beq hprepared, PhaseFits.prepared_iff] at hc
      rw [hc]
      exact .unremoved
  · exact keeps_pure hs ⟨hr, hsettled, rfl⟩

/-- The link is removed under a record that lasts. -/
theorem keeps_unlinkUnless {gone : Bool} (hs : Good i start s) (hr : s.record = ⟨some (s.recordAt i "removing"), []⟩)
    (hcurrent : s.current.now = bif gone then none else some (.link i.target)) :
    Keeps i start (unlinkUnless gone) (fun _ s' => s'.record = s.record ∧ s'.recordAt i = s.recordAt i) h s := by
  obtain ⟨hstart, hrecord, hphase⟩ := hs.start_of_record (congrArg Cell.now hr)
  cases gone with
  | true => exact keeps_pure hs ⟨rfl, rfl⟩
  | false =>
    apply keeps_call hs
    · exact ⟨hs, hr, hcurrent⟩
    · intro u s' hexec
      change s.current.now.elim _ _ = _ at hexec
      rw [hcurrent] at hexec
      obtain ⟨-, rfl⟩ := Prod.mk.inj (Except.ok.inj hexec)
      refine ⟨?_, rfl, rfl⟩
      have hremoving : s.record.All fun r => Fits i start s r none := by
        rw [hr]
        exact Cell.all_settled rfl ⟨hstart, rfl, .unlinked⟩
      exact ⟨Cell.all_write hremoving.1 hs.1, fun r hstale => Cell.all_write (hremoving.2 r hstale) (hs.2 r hstale)⟩

theorem keeps_removed {r : PointerRecord} {gone : Bool} (hs : Good i start s) (hr : s.record.now = some r)
    (hsettled : Settled s) (hcurrent : s.current.now = bif gone then none else some (.link i.target)) :
    Keeps i start (removed i.target r gone) (fun r' s' => s'.record.now = some r') h s := by
  obtain ⟨hstart, hrecord, hphase⟩ := hs.start_of_record hr
  rw [removed]
  split
  · next hremoving =>
    have hlasts : s.record = ⟨some (s.recordAt i "removing"), []⟩ := by
      rw [eq_of_beq hremoving] at hrecord
      rw [← hrecord, ← hr, ← hsettled r hr (eq_of_beq hremoving)]
    apply keeps_bind (keeps_unlinkUnless hs hlasts hcurrent)
    rintro _ h₁ s₁ hs₁ ⟨hsame, hat⟩
    apply keeps_bind (keeps_syncRoot hs₁)
    rintro _ h₂ _ hs₂ rfl
    apply keeps_after (keeps_pointerView hs₂)
    intro gone' h₃ hgone'
    apply keeps_after (keeps_demand hs₂)
    rintro _ h₄ rfl
    have hrecord' : r = (s₁.withCurrent s₁.current.sync).recordAt i "removing" := by
      rw [hrecord, eq_of_beq hremoving]
      exact (congrFun hat _).symm
    rw [hrecord']
    apply Script.meets_mono (keeps_update hs₂ hstart (Cell.all_settled rfl ?_))
    · rintro h₅ r' s' ⟨hs', hupdated⟩
      refine ⟨hs', fun r'' hr'' => ?_⟩
      obtain ⟨-, rfl⟩ := hupdated r'' hr''
      rfl
    · rw [hgone']
      exact .removed
  · exact keeps_pure hs hr

/-- **What a call keeps**, and when the link is removed. -/
theorem keeps_deactivateCandidatePointer (hs : Good i start s) (hsettled : Settled s) :
    Keeps i start (deactivateCandidatePointer i) (fun _ _ => True) h s := by
  rw [deactivateCandidatePointer]
  apply keeps_after (keeps_demand hs)
  rintro _ h₁ -
  apply keeps_after (keeps_look hs rfl)
  rintro parent h₂ -
  apply keeps_after (keeps_demand hs)
  rintro _ h₃ -
  apply keeps_after (keeps_replacementProof hs)
  intro replacement h₄ hreplacement
  apply keeps_after (keeps_demand hs)
  rintro _ h₅ -
  apply keeps_after (keeps_demand hs)
  rintro _ h₆ -
  apply keeps_after (keeps_look hs rfl)
  intro digest h₇ hdigest
  apply keeps_bind (keeps_intended hs hsettled hreplacement (Prod.mk.inj (Except.ok.inj hdigest)).1.symm)
  rintro r h₈ s₁ hs₁ ⟨hr₁, hsettled₁⟩
  apply keeps_after (keeps_demand hs₁)
  rintro _ h₉ -
  apply keeps_after (keeps_pointerView hs₁)
  intro gone h₁₀ hgone
  apply keeps_bind (keeps_announced hs₁ hr₁ hsettled₁)
  rintro r₂ h₁₁ s₂ hs₂ ⟨hr₂, hsettled₂, hcurrent⟩
  rw [← hcurrent] at hgone
  apply keeps_bind (keeps_removed hs₂ hr₂ hsettled₂ hgone)
  intro r₃ h₁₂ s₃ hs₃ hr₃
  apply keeps_after (keeps_demand hs₃)
  rintro _ h₁₃ -
  apply keeps_after (keeps_pointerView hs₃)
  rintro gone' h₁₄ -
  apply keeps_after (keeps_demand hs₃)
  rintro _ h₁₅ -
  apply keeps_after (keeps_replacementProof hs₃)
  rintro _ h₁₆ -
  exact keeps_pure hs₃ trivial

/-! ## A call that is not interrupted -/

/-- What a call needs, besides the record and the link. -/
structure Ready (i : Inputs) (s : PointerSite) : Prop where
  called : (i.rooted && i.valid && (versionOf i.versionDir).isSome) = true
  commit : ("-" ++ s.replacement.newCommit).toList.isSuffixOf i.versionDir.toList = true
  completed : s.replacement.completed = true
  same : s.replacement.same = true
  outside : s.replacement.outside = true
  valid : fieldsValid (s.recordAt i "prepared") = true
  parentTrusted : s.parentTrusted = true
  recordTrusted : s.recordTrusted = true
  releaseTrusted : s.releaseTrusted = true
  previous : s.previous = false
  activationLock : s.activationLock = false

theorem Ready.withRecord {record : Cell (Option PointerRecord)} (hs : Ready i s) : Ready i (s.withRecord record) :=
  ⟨hs.called, hs.commit, hs.completed, hs.same, hs.outside, hs.valid, hs.parentTrusted, hs.recordTrusted,
    hs.releaseTrusted, hs.previous, hs.activationLock⟩

theorem Ready.withCurrent {current : Cell (Option Link)} (hs : Ready i s) : Ready i (s.withCurrent current) :=
  ⟨hs.called, hs.commit, hs.completed, hs.same, hs.outside, hs.valid, hs.parentTrusted, hs.recordTrusted,
    hs.releaseTrusted, hs.previous, hs.activationLock⟩

variable {Q : α → PointerSite → Prop}

theorem total_call {op : PointerOp α} {a : α} (hexec : s.exec op = .ok (a, s')) (hQ : Q a s') :
    Script.Total pointer (call op) Q s := Script.total_perform hexec hQ

theorem total_demand {holds : Bool} {text : String} {Q : Unit → PointerSite → Prop} (hholds : holds = true) (hQ : Q () s) :
    Script.Total pointer (demand holds text) Q s := by
  rw [demand, hholds]
  exact Script.total_pure hQ

theorem total_absent {lstat : PointerOp Unit} (gone : Bool) {Q : Bool → PointerSite → Prop}
    (hexec : s.exec lstat = bif gone then .error .ENOENT else .ok ((), s)) (hQ : Q gone s) :
    Script.Total pointer (absent lstat) Q s := by
  cases gone with
  | true =>
    have hcall : pointer.exec lstat s = .error .ENOENT := hexec
    refine Script.total_caught (e := .call .ENOENT) (t := s) ?_ (Script.total_pure hQ)
    change Prog.eval pointer (.call lstat _) s = _
    rw [Prog.eval, hcall]
    rfl
  | false =>
    apply Script.total_tryCatch
    apply Script.total_bind
    exact total_call hexec (Script.total_pure hQ)

theorem total_syncDirectory {sync : PointerOp Unit} {Q : Unit → PointerSite → Prop}
    (hexec : s.exec sync = .ok ((), s')) (hQ : Q () s') : Script.Total pointer (syncDirectory sync) Q s := by
  apply Script.total_bind
  apply total_call rfl
  apply Script.total_finally
  exact total_call hexec (total_call rfl hQ)

/-- The link, as it is found. -/
theorem total_pointerView {target : String} (gone : Bool) {Q : Bool → PointerSite → Prop} (hs : Ready i s)
    (hcurrent : s.current.now = bif gone then none else some (.link target)) (hQ : Q gone s) :
    Script.Total pointer (pointerView target) Q s := by
  apply Script.total_bind
  apply total_call rfl
  apply Script.total_bind
  apply total_demand hs.releaseTrusted
  apply Script.total_bind
  apply total_absent true
  · simp [PointerSite.exec, hs.previous]
  apply Script.total_bind
  apply total_demand rfl
  apply Script.total_bind
  apply total_absent true
  · simp [PointerSite.exec, hs.activationLock]
  apply Script.total_bind
  apply total_demand rfl
  apply Script.total_bind
  apply total_absent gone
  · cases gone <;> simp [PointerSite.exec, hcurrent]
  cases gone with
  | true => exact Script.total_pure hQ
  | false =>
    have hread : s.exec .readCurrent = .ok (.link target, s) := by simp [PointerSite.exec, hcurrent]
    apply Script.total_bind
    apply total_call hread
    apply Script.total_bind
    apply total_demand (beq_self_eq_true _)
    exact Script.total_pure hQ

theorem total_validate {phase : String} {Q : PointerRecord → PointerSite → Prop} (hs : Ready i s)
    (hphase : phase ∈ ["prepared", "removing", "removed"]) (hQ : Q (s.recordAt i phase) s) :
    Script.Total pointer (validate (s.recordAt i phase)) Q s := by
  apply Script.total_bind
  apply total_demand
  · rw [Bool.and_eq_true, decide_eq_true_iff]
    exact ⟨hphase, hs.valid⟩
  · exact Script.total_pure hQ

theorem total_readRecord {phase : String} {Q : PointerRecord → PointerSite → Prop} (hs : Ready i s)
    (hrecord : s.record.now = some (s.recordAt i phase)) (hphase : phase ∈ ["prepared", "removing", "removed"])
    (hQ : Q (s.recordAt i phase) s) : Script.Total pointer readCandidatePointerRollbackRecord Q s := by
  have hinspect : s.exec .inspectRecord = .ok (s.recordTrusted, s) := by simp [PointerSite.exec, hrecord]
  have hread : s.exec .readRecord = .ok (s.recordAt i phase, s) := by simp [PointerSite.exec, hrecord]
  apply Script.total_bind
  apply total_call rfl
  apply Script.total_bind
  apply total_demand hs.parentTrusted
  apply Script.total_bind
  apply total_call hinspect
  apply Script.total_bind
  apply total_demand hs.recordTrusted
  apply Script.total_bind
  apply total_call hread
  exact total_validate hs hphase hQ

theorem total_update {phase phase' : String} {Q : PointerRecord → PointerSite → Prop} (hs : Ready i s)
    (hrecord : s.record.now = some (s.recordAt i phase)) (hphase : phase ∈ ["prepared", "removing", "removed"])
    (hphase' : phase' ∈ ["prepared", "removing", "removed"])
    (hQ : Q (s.recordAt i phase') (s.withRecord ⟨some (s.recordAt i phase'), []⟩)) :
    Script.Total pointer (update (s.recordAt i phase) phase') Q s := by
  apply Script.total_bind
  apply total_readRecord hs hrecord hphase
  apply Script.total_bind
  apply total_demand (beq_self_eq_true _)
  apply Script.total_bind
  apply total_validate hs hphase'
  apply Script.total_bind
  apply total_call rfl
  apply Script.total_bind
  apply Script.total_finally
  apply Script.total_bind
  apply total_call rfl
  apply total_call rfl
  apply total_call rfl
  apply Script.total_bind
  apply total_call rfl
  apply Script.total_bind
  apply total_syncDirectory rfl
  exact Script.total_pure hQ

theorem total_replacementProof {Q : Replacement → PointerSite → Prop} (hs : Ready i s) (hQ : Q s.replacement s) :
    Script.Total pointer replacementProof Q s := by
  apply Script.total_bind
  apply total_call rfl
  apply Script.total_bind
  apply total_demand hs.completed
  apply Script.total_bind
  apply total_demand hs.same
  exact Script.total_pure hQ

/-- The record that there is once the removal is begun. -/
theorem total_intended (hs : Ready i s) (hfits : Fits i (some (.link i.target)) s s.record.now s.current.now) :
    Script.Total pointer (intended i s.replacement s.ledgerSha256) (fun r s' => ∃ phase, r = s.recordAt i phase ∧
      s' = s.withRecord ⟨some r, s'.record.stale⟩ ∧ PhaseFits (.link i.target) phase s.current.now) s := by
  rw [intended]
  apply Script.total_bind
  cases hrecord : s.record.now with
  | none =>
    have hlstat : s.exec .lstatRecord = .error .ENOENT := by simp [PointerSite.exec, hrecord]
    have hcreate : s.exec (.createRecord (s.recordAt i "prepared")) =
        .ok ((), s.withRecord ⟨some (s.recordAt i "prepared"), []⟩) := by simp [PointerSite.exec, hrecord]
    rw [hrecord] at hfits
    apply total_absent true hlstat
    apply Script.total_bind
    apply total_pointerView false hs hfits
    apply Script.total_bind
    apply total_demand rfl
    apply Script.total_bind
    apply total_validate hs (by decide)
    apply Script.total_bind
    apply total_call hcreate
    apply Script.total_pure
    refine ⟨"prepared", rfl, rfl, ?_⟩
    rw [hfits]
    exact .prepared
  | some r =>
    have hlstat : s.exec .lstatRecord = .ok ((), s) := by simp [PointerSite.exec, hrecord]
    rw [hrecord] at hfits
    obtain ⟨-, hr, hphase⟩ := hfits
    apply total_absent false hlstat
    refine total_readRecord hs (hrecord.trans (congrArg some hr)) hphase.mem ⟨r.phase, rfl, ?_, hphase⟩
    rw [← hr, ← hrecord]
    rfl

theorem total_announced {phase : String} {gone : Bool} (hs : Ready i s)
    (hrecord : s.record.now = some (s.recordAt i phase)) (hfits : PhaseFits (.link i.target) phase s.current.now)
    (hgone : s.current.now = bif gone then none else some (.link i.target)) :
    Script.Total pointer (announced (s.recordAt i phase) gone) (fun r s' => ∃ phase', r = s.recordAt i phase' ∧
      s' = s.withRecord ⟨some r, s'.record.stale⟩ ∧ (phase' = "removing" ∨ phase' = "removed" ∧ gone = true)) s := by
  have hkept : s = s.withRecord ⟨some (s.recordAt i phase), s.record.stale⟩ := by
    rw [← hrecord]
    rfl
  generalize hcurrent : s.current.now = current at hfits hgone
  cases hfits with
  | prepared =>
    cases gone with
    | true => cases hgone
    | false =>
      apply Script.total_bind
      apply total_demand rfl
      apply total_update hs hrecord (by decide) (by decide)
      exact ⟨"removing", rfl, rfl, .inl rfl⟩
  | unremoved => exact Script.total_pure ⟨"removing", rfl, hkept, .inl rfl⟩
  | unlinked => exact Script.total_pure ⟨"removing", rfl, hkept, .inl rfl⟩
  | removed =>
    cases gone with
    | true => exact Script.total_pure ⟨"removed", rfl, hkept, .inr ⟨rfl, rfl⟩⟩
    | false => cases hgone

theorem total_unlinkUnless {gone : Bool} (hgone : s.current.now = bif gone then none else some (.link i.target)) :
    Script.Total pointer (unlinkUnless gone) (fun _ s' => s' = s.withCurrent ⟨none, s'.current.stale⟩) s := by
  cases gone with
  | true =>
    apply Script.total_pure
    rw [cond_true] at hgone
    rw [← hgone]
    rfl
  | false =>
    have hunlink : s.exec .unlinkCurrent = .ok ((), s.withCurrent (s.current.write none)) := by
      simp [PointerSite.exec, hgone]
    exact total_call hunlink rfl

/-- The removal has ended. -/
structure Ended (i : Inputs) (s : PointerSite) (r : PointerRecord) (s' : PointerSite) : Prop where
  record : s'.record.now = some r
  phase : r = s.recordAt i "removed"
  current : s'.current.now = none
  ready : Ready i s'

theorem total_removed {phase : String} {gone : Bool} (hs : Ready i s)
    (hrecord : s.record.now = some (s.recordAt i phase)) (hphase : phase = "removing" ∨ phase = "removed" ∧ gone = true)
    (hgone : s.current.now = bif gone then none else some (.link i.target)) :
    Script.Total pointer (removed i.target (s.recordAt i phase) gone) (Ended i s) s := by
  rcases hphase with rfl | ⟨rfl, rfl⟩
  · apply Script.total_bind
    refine Script.total_mono ?_ (total_unlinkUnless hgone)
    intro _ s₁ hs₁
    rw [hs₁]
    generalize s₁.current.stale = stale
    have hready : Ready i ((s.withCurrent ⟨none, stale⟩).withCurrent ⟨none, []⟩) := hs.withCurrent.withCurrent
    apply Script.total_bind
    apply total_syncDirectory rfl
    apply Script.total_bind
    apply total_pointerView true hready rfl
    apply Script.total_bind
    apply total_demand rfl
    refine total_update hready hrecord (by decide) (by decide) ?_
    exact ⟨rfl, rfl, rfl, hready.withRecord⟩
  · exact Script.total_pure ⟨hrecord, rfl, hgone, hs⟩

/-- **A call that is not interrupted** ends with the link removed, and that is recorded. -/
theorem total_deactivateCandidatePointer (hs : Ready i s)
    (hfits : Fits i (some (.link i.target)) s s.record.now s.current.now) :
    Script.Total pointer (deactivateCandidatePointer i) (Ended i s) s := by
  apply Script.total_bind
  apply total_demand hs.called
  apply Script.total_bind
  apply total_call rfl
  apply Script.total_bind
  apply total_demand hs.parentTrusted
  apply Script.total_bind
  apply total_replacementProof hs
  apply Script.total_bind
  apply total_demand hs.commit
  apply Script.total_bind
  apply total_demand hs.outside
  apply Script.total_bind
  apply total_call rfl
  apply Script.total_bind
  refine Script.total_mono ?_ (total_intended hs hfits)
  rintro _ s₁ ⟨phase, rfl, hs₁, hphase⟩
  rw [hs₁]
  generalize s₁.record.stale = stale
  have hready₁ : Ready i (s.withRecord ⟨some (s.recordAt i phase), stale⟩) := hs.withRecord
  apply Script.total_bind
  apply total_demand (by simp [PointerSite.recordAt, Inputs.recordAt])
  have hgone : s.current.now = bif s.current.now.isNone then none else some (.link i.target) := by
    generalize s.current.now = current at hphase
    cases hphase <;> rfl
  apply Script.total_bind
  apply total_pointerView s.current.now.isNone hready₁ hgone
  apply Script.total_bind
  refine Script.total_mono ?_ (total_announced hready₁ rfl hphase hgone)
  rintro _ s₂ ⟨phase', rfl, hs₂, hphase'⟩
  rw [hs₂]
  generalize s₂.record.stale = stale'
  have hready₂ : Ready i ((s.withRecord ⟨some (s.recordAt i phase), stale⟩).withRecord
      ⟨some (s.recordAt i phase'), stale'⟩) := hready₁.withRecord
  apply Script.total_bind
  refine Script.total_mono ?_ (total_removed hready₂ rfl hphase' hgone)
  rintro _ s₃ ⟨hrecord, rfl, hcurrent, hready⟩
  apply Script.total_bind
  apply total_demand rfl
  apply Script.total_bind
  apply total_pointerView true hready hcurrent
  apply Script.total_bind
  apply total_demand rfl
  apply Script.total_bind
  apply total_replacementProof hready
  exact Script.total_pure ⟨hrecord, rfl, hcurrent, hready⟩

/-! ## Calls and crashes -/

/-- What is reached: at first there is no record, then calls are made and cut anywhere, and there are crashes. No call
begins while a record that says removing may still be lost. -/
inductive Reach (i : Inputs) (start : Option Link) : PointerSite → Prop
  | first {s : PointerSite} (hrecord : s.record = ⟨none, []⟩) (hcurrent : s.current = ⟨start, []⟩) : Reach i start s
  | call {s s' : PointerSite} {tr : List (Entry PointerOp Errno)} (hs : Reach i start s) (hsettled : Settled s)
    (hvisits : Visits pointer Fault (deactivateCandidatePointer i).run s tr s') : Reach i start s'
  | crash {s : PointerSite} {record : Cell (Option PointerRecord)} {current : Cell (Option Link)} (hs : Reach i start s)
    (hrecord : Cell.Crashed s.record record) (hcurrent : Cell.Crashed s.current current) :
    Reach i start ((s.withRecord record).withCurrent current)

theorem good_visits {tr : List (Entry PointerOp Errno)} (hs : Good i start s) (hsettled : Settled s)
    (hvisits : Visits pointer Fault (deactivateCandidatePointer i).run s tr s') : Good i start s' := by
  refine (keeps_deactivateCandidatePointer (h := []) hs hsettled).invariant (I := fun _ => Good i start) ?_ ?_ hvisits
  · intro γ h op s howes
    cases op with
    | unlinkCurrent => exact howes.1
    | _ => exact howes
  · exact fun _ _ _ hends => hends.1

/-- **What the record says of the link fits** whatever calls are cut, and whatever crashes there are. -/
theorem Reach.good (hs : Reach i start s) : Good i start s := by
  induction hs with
  | first hrecord hcurrent =>
    rw [Good, hrecord, hcurrent]
    exact Cell.all_settled rfl (Cell.all_settled rfl rfl)
  | call hs hsettled hvisits ih => exact good_visits ih hsettled hvisits
  | crash hs hrecord hcurrent ih => exact Cell.Crashed.all hrecord (Cell.All.mono (fun r hr => hcurrent.all hr) ih)

end Removal

/-! ## Runs that are computed -/

def sampleInputs : Inputs :=
  ⟨true, true, "/rollback/ledger", "/opt/bridge", "1.2.3-0123456789012345678901234567890123456789"⟩

/-- The old state is back, and the link is the candidate's. -/
def sampleSite : PointerSite where
  replacement := ⟨true, true, true, "00000000-0000-0000-0000-000000000000", "0123456789012345678901234567890123456789"⟩
  ledgerSha256 := "0000000000000000000000000000000000000000000000000000000000000000"
  parentTrusted := true
  recordTrusted := true
  releaseTrusted := true
  previous := false
  activationLock := false
  record := ⟨none, []⟩
  current := ⟨some (.link sampleInputs.target), []⟩

def sampleRecord (phase : String) : Option PointerRecord := some (sampleSite.recordAt sampleInputs phase)

theorem sampleSite_ready : Ready sampleInputs sampleSite := by
  constructor <;> decide

/-- The run in which one call fails. -/
def sampleRun (n : Nat) (s : PointerSite) : List (Entry PointerOp Errno) × Except PointerError PointerRecord × PointerSite :=
  (deactivateCandidatePointer sampleInputs).run.planned pointer (List.replicate n none ++ [some .other]) s

/-- The record says removing, and its directory is not synchronised. -/
def unsyncedSite : PointerSite := sampleSite.withRecord ⟨sampleRecord "removing", [sampleRecord "prepared"]⟩

theorem unsynced_record : (sampleRun 24 sampleSite).2 = (.error (.call .other), unsyncedSite) := rfl

theorem unsynced_link :
    (sampleRun 13 unsyncedSite).2 = (.error (.call .other), unsyncedSite.withCurrent (sampleSite.current.write none)) :=
  rfl

end BegetBridge.PointerRemoval
