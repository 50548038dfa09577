import BegetBridge.Files.Staging

/-!
# Uploads and copies are all or nothing

A transfer that returns has delivered what it received, and one that throws leaves the destination as it was.
There are two exceptions: where the temporary file cannot be unlinked after it was linked to the destination,
and where an upload cannot close the directory after the commit, the transfer throws although the
destination has been delivered.

## Main definitions

* `Attempted`, `Finished`: how the writing ends, before and after the temporary file is removed
* `Unclosed`: the directory could not be closed after the commit
* `UploadKept`, `CopyKept`: what is promised

## Main results

* `upload_atomic`, `copy_atomic`: a transfer keeps its promise unless one of the exceptions occurs
-/

namespace BegetBridge.Files

open Posix Interleaving Script

/-- Every name leads to a node. -/
def Closed (fs : Disk) : Prop := ∀ d n i, fs.entry d n = some i → fs.shape i ≠ none

/-- The writing of a temporary file and its commit, where `content` of the result is what was written. -/
def Attempted {α : Type} (fs : Disk) (names : Names) (content : α → List UInt8) (tr : List (Entry Syscall Errno))
    (r : Except FileError α) (fs' : Disk) : Prop :=
  (∃ a, r = .ok a ∧ (∃ t, Staged fs names t (content a) none (some t) fs') ∧ Replaceable fs names ∧
    ¬Stranded names.temporary tr ∧ Committed names.temporary tr) ∨
  ((∃ e, r = .error e) ∧
    (fs' = fs ∨ ∃ t bytes, Staged fs names t bytes (some t) (fs.entry names.parent.ino names.last) fs') ∧
    ¬Stranded names.temporary tr ∧ ¬Committed names.temporary tr) ∨
  ((∃ e, r = .error e) ∧ (∃ t bytes, Staged fs names t bytes (some t) (some t) fs') ∧ Replaceable fs names ∧
    Stranded names.temporary tr)

/-- The same after an error has been cleaned up. -/
def Finished {α : Type} (fs : Disk) (names : Names) (content : α → List UInt8) (tr : List (Entry Syscall Errno))
    (r : Except FileError α) (fs' : Disk) : Prop :=
  (∃ a, r = .ok a ∧ (∃ t, Staged fs names t (content a) none (some t) fs') ∧ Replaceable fs names ∧
    ¬Stranded names.temporary tr ∧ Committed names.temporary tr) ∨
  ((∃ e, r = .error e) ∧
    (fs' = fs ∨ ∃ t bytes x, Staged fs names t bytes x (fs.entry names.parent.ino names.last) fs' ∧
      (x = none ∨ RemovalFailed names.temporary tr)) ∧
    ¬Stranded names.temporary tr ∧ ¬Committed names.temporary tr) ∨
  ((∃ e, r = .error e) ∧ (∃ t bytes x, Staged fs names t bytes x (some t) fs') ∧ Replaceable fs names ∧
    Stranded names.temporary tr)

section Attempt

variable {α : Type} {m : FileManager} {fs fs' : Disk} {names : Names} {content : α → List UInt8} {overwrite : Bool}
  {p : FileScript α} {Φ : Except FileError α → Prop}

/-- **After an error the temporary file is removed.** -/
theorem run_cleanedUp (hvacant : fs.entry names.parent.ino names.temporary = none)
    (h : Run (fun _ => True) p (fun tr r fs' => Attempted fs names content tr r fs' ∧ Φ r) fs) :
    Run (fun _ => True) (onError p (sys (.rm names.parent names.temporary)))
      (fun tr r fs' => Finished fs names content tr r fs' ∧ Φ r) fs := by
  refine run_onError (ends_mono ?_ h)
  rintro tr (e | a) fs' - ⟨hattempt, hΦ⟩
  · rcases hattempt with ⟨_, hr, -⟩ | ⟨-, hstate, hno, hno'⟩ | ⟨-, ⟨t, bytes, hstaged⟩, hold, hstranded⟩
    · cases hr
    · rcases hstate with rfl | ⟨t, bytes, hstaged⟩
      · refine ends_mono ?_ (run_removeNothing hvacant)
        rintro tr' r fs'' - ⟨rfl, hno₁, hno₂⟩
        exact ⟨.inr (.inl ⟨⟨e, rfl⟩, .inl rfl, by simp [hno, hno₁], by simp [hno', hno₂]⟩), hΦ⟩
      · refine ends_mono ?_ (run_removeTemporary hstaged (.inr rfl))
        rintro tr' r fs'' - ⟨⟨x, hstaged', hx⟩, hno₁, hno₂⟩
        refine ⟨.inr (.inl ⟨⟨e, rfl⟩, .inr ⟨t, bytes, x, hstaged', ?_⟩, by simp [hno, hno₁], by simp [hno', hno₂]⟩), hΦ⟩
        exact hx.imp id fun hfailed => by simp [hfailed]
    · refine ends_mono ?_ (run_removeTemporary hstaged (.inr rfl))
      rintro tr' r fs'' - ⟨⟨x, hstaged', -⟩, -, -⟩
      exact ⟨.inr (.inr ⟨⟨e, rfl⟩, ⟨t, bytes, x, hstaged'⟩, hold, by simp [hstranded]⟩), hΦ⟩
  · rcases hattempt with ⟨b, hr, hrest⟩ | ⟨⟨_, hr⟩, -⟩ | ⟨⟨_, hr⟩, -⟩
    · exact ⟨.inl ⟨b, hr, hrest⟩, hΦ⟩
    · cases hr
    · cases hr

/-- What has only been looked at so far. -/
theorem attempted_quiet {tr : List (Entry Syscall Errno)} {e : FileError} (h : ∀ x ∈ tr, Quiet x.op) :
    Attempted fs names content tr (.error e) fs :=
  .inr (.inl ⟨⟨e, rfl⟩, .inl rfl, not_stranded_of_quiet h, not_committed_of_quiet h⟩)

/-- The commit after quiet calls. -/
theorem attempted_commit (content : α → List UInt8) {t : Ino} {bytes : List UInt8} (hdir : fs.isDir names.parent.ino = true)
    (hclosed : ∀ i, fs.entry names.parent.ino names.last = some i → fs.shape i ≠ none)
    (hstaged : Staged fs names t bytes (some t) (fs.entry names.parent.ino names.last) fs')
    {tr₀ : List (Entry Syscall Errno)} (hquiet : ∀ x ∈ tr₀, Quiet x.op) (a : α) (hbytes : bytes = content a) :
    Run (fun _ => True) (FileManager.commitTemporary names.parent names.temporary names.last overwrite)
      (fun tr r fs'' => Attempted fs names content (tr₀ ++ tr) (r.map fun _ => a) fs'') fs' := by
  have hno : ¬Stranded names.temporary tr₀ := not_stranded_of_quiet hquiet
  have hno' : ¬Committed names.temporary tr₀ := not_committed_of_quiet hquiet
  refine ends_mono ?_ (run_commitTemporary hdir hclosed hstaged)
  rintro tr r fs'' - (⟨rfl, hdone, hold, hno₁, hcommitted⟩ | ⟨⟨e, rfl⟩, hsame, hno₁, hno₂⟩ | ⟨⟨e, rfl⟩, hlinked, hold, hyes⟩)
  · exact .inl ⟨a, rfl, ⟨t, hbytes ▸ hdone⟩, hold, by simp [hno, hno₁], by simp [hcommitted]⟩
  · exact .inr (.inl ⟨⟨e, rfl⟩, .inr ⟨t, bytes, hsame⟩, by simp [hno, hno₁], by simp [hno', hno₂]⟩)
  · exact .inr (.inr ⟨⟨e, rfl⟩, ⟨t, bytes, hlinked⟩, hold, by simp [hyes]⟩)

end Attempt

section Quietly

variable {m : FileManager} {fs : Disk} {names : Names} {dir : Handle} {temporary : Name}

/-- The notes of one who has seen the directory. -/
def held (dir : Handle) : Held := ⟨[(dir, [])], []⟩

theorem held_below (dir : Handle) : (held dir).Below [] dir := ⟨[], List.mem_cons_self, List.prefix_rfl⟩

theorem run_quietReserve {incoming : Int} :
    Run (fun _ => True) (m.assertStorageReserve dir incoming)
      (fun tr _ fs' => (∀ x ∈ tr, Quiet x.op) ∧ fs' = fs) fs :=
  run_quiet (permit_assertStorageReserve (n := held dir) (quiet_licence [] []).looks) run_assertStorageReserve

theorem run_quietPipeline {request : FileManager.Upload} :
    Run (fun _ => True) (m.pipeline names.parent names.temporary request) (fun tr r fs' =>
      (∀ x ∈ tr, Quiet x.op) ∧
      ((fs' = fs ∧ ∃ e, r = .error e) ∨
      fs.entry names.parent.ino names.temporary = none ∧
      ∃ t bytes, Staged fs names t bytes (some t) (fs.entry names.parent.ino names.last) fs' ∧
        ∀ all, r = .ok all → all = bytes ∧ all = request.chunks.flatten ∧
          all.length ≤ m.uploadMaxBytes ∧ request.fails = false)) fs :=
  run_quiet (permit_pipeline (quiet_licence [] names.temporary) (held_below names.parent)) run_pipeline

theorem run_quietCopyFile {source : Handle} {content : List UInt8}
    (hsource : fs.shape source.ino = some (.file content)) :
    Run (fun _ => True) (FileManager.copyFile source names.parent names.temporary) (fun tr r fs' =>
      (∀ x ∈ tr, Quiet x.op) ∧
      ((fs' = fs ∧ ∃ e, r = .error e) ∨
      fs.entry names.parent.ino names.temporary = none ∧
      ∃ t bytes, Staged fs names t bytes (some t) (fs.entry names.parent.ino names.last) fs' ∧
        (r = .ok () → bytes = content))) fs :=
  run_quiet (permit_copyFile (quiet_licence [] names.temporary) (held_below names.parent)) (run_copyFile hsource)

theorem run_quietUploadParent {policy : PathPolicy} :
    Run (fun _ => True) (policy.assertSharedUploadParent dir)
      (fun tr _ fs' => (∀ x ∈ tr, Quiet x.op) ∧ fs' = fs) fs :=
  run_quiet (permit_assertSharedUploadParent (n := held dir) (quiet_licence [] []).looks)
    (run_assertSharedUploadParent trivial)

end Quietly

section Upload

variable {m : FileManager} {fs fs' : Disk} {names : Names} {request : FileManager.Upload} {overwrite : Bool}

/-- What is known of the bytes that an upload has received. -/
def Received (m : FileManager) (request : FileManager.Upload) (r : Except FileError (List UInt8)) : Prop :=
  ∀ all, r = .ok all → all = request.chunks.flatten ∧ all.length ≤ m.uploadMaxBytes ∧ request.fails = false

/-- A file that is staged but not committed when something goes wrong. -/
theorem attempted_staged {α : Type} {content : α → List UInt8} {tr : List (Entry Syscall Errno)} {e : FileError}
    {t : Ino} {bytes : List UInt8} (hquiet : ∀ x ∈ tr, Quiet x.op)
    (h : Staged fs names t bytes (some t) (fs.entry names.parent.ino names.last) fs') :
    Attempted fs names content tr (.error e) fs' :=
  .inr (.inl ⟨⟨e, rfl⟩, .inr ⟨t, bytes, h⟩, not_stranded_of_quiet hquiet, not_committed_of_quiet hquiet⟩)

/-- **The upload up to its commit.** -/
theorem run_uploadAttempt (m : FileManager) (request : FileManager.Upload) (overwrite : Bool)
    (hdir : fs.isDir names.parent.ino = true)
    (hclosed : ∀ i, fs.entry names.parent.ino names.last = some i → fs.shape i ≠ none) :
    Run (fun _ => True) (do
      m.assertStorageReserve names.parent (request.contentLength.getD 1)
      let received ← m.pipeline names.parent names.temporary request
      m.pathPolicy.assertSharedUploadParent names.parent
      FileManager.commitTemporary names.parent names.temporary names.last overwrite
      pure received) (fun tr r fs' => Attempted fs names id tr r fs' ∧ Received m request r) fs := by
  refine ends_bind (ends_mono ?_ run_quietReserve)
  rintro tr₁ (e | u) fs₁ - ⟨hquiet₁, rfl⟩
  · exact ⟨attempted_quiet hquiet₁, nofun⟩
  refine ends_bind (ends_mono ?_ run_quietPipeline)
  rintro tr₂ (e | received) fs₂ - ⟨hquiet₂, hpipeline⟩
  · have hquiet : ∀ x ∈ tr₁ ++ tr₂, Quiet x.op := List.forall_mem_append.mpr ⟨hquiet₁, hquiet₂⟩
    rcases hpipeline with ⟨rfl, -⟩ | ⟨-, t, bytes, hstaged, -⟩
    · exact ⟨attempted_quiet hquiet, nofun⟩
    · exact ⟨attempted_staged hquiet hstaged, nofun⟩
  obtain ⟨-, t, bytes, hstaged, hall⟩ := hpipeline.resolve_left fun h => absurd h.2 nofun
  obtain ⟨hbytes, hreceived⟩ := hall received rfl
  refine ends_bind (ends_mono ?_ run_quietUploadParent)
  rintro tr₃ (e | u') fs₃ - ⟨hquiet₃, rfl⟩
  · refine ⟨attempted_staged ?_ hstaged, nofun⟩
    simp only [List.forall_mem_append]
    exact ⟨hquiet₁, hquiet₂, hquiet₃⟩
  have hquiet : ∀ x ∈ tr₁ ++ (tr₂ ++ tr₃), Quiet x.op := by
    simp only [List.forall_mem_append]
    exact ⟨hquiet₁, hquiet₂, hquiet₃⟩
  refine ends_bind (ends_mono ?_ (attempted_commit id hdir hclosed hstaged hquiet received hbytes.symm))
  rintro tr₄ (e | u'') fs₄ - hattempted
  · refine ⟨?_, nofun⟩
    simpa [List.append_assoc, Except.map] using hattempted
  · refine ends_pure trivial ⟨?_, fun all hr => ?_⟩
    · simpa [List.append_assoc, Except.map] using hattempted
    · obtain rfl := Except.ok.inj hr
      exact hreceived

end Upload

/-! ## What is promised -/

/-- The path of the temporary file. -/
def temporaryPath (reference : Reference) (temporary : Name) : Location :=
  reference.root ++ reference.parents ++ [temporary]

/-- The destination is what it was, and all nodes hold what they held. -/
def AsBefore (fs : Disk) (reference : Reference) (fs' : Disk) : Prop :=
  fs'.follow reference.displayPath = fs.follow reference.displayPath ∧ ∀ j, fs.shape j ≠ none → fs'.shape j = fs.shape j

/-- A transfer that throws: the destination is what it was, and the temporary file is gone unless removing it
has failed. -/
def Undone (fs : Disk) (reference : Reference) (temporary : Name) (tr : List (Entry Syscall Errno)) (fs' : Disk) :
    Prop :=
  AsBefore fs reference fs' ∧ (¬RemovalFailed temporary tr → fs'.follow (temporaryPath reference temporary) = none)

/-- A transfer that returns: the destination has these bytes, and the temporary file is gone. -/
def Delivered (reference : Reference) (temporary : Name) (bytes : List UInt8) (fs' : Disk) : Prop :=
  (∃ t, fs'.follow reference.displayPath = some t ∧ fs'.bytes t = some bytes) ∧
    fs'.follow (temporaryPath reference temporary) = none

section Promises

variable {fs fs₁ fs' : Disk} {names : Names} {reference : Reference} {t : Ino} {bytes : List UInt8}
  {x : Option Ino} {tr : List (Entry Syscall Errno)}

/-- The parent directory of a reference is held, and the names of the transfer are those of the reference. -/
structure Aimed (fs fs₁ : Disk) (reference : Reference) (names : Names) : Prop where
  prepared : Prepared fs fs₁ (reference.root ++ reference.parents) names.parent.ino
  last : names.last = reference.last
  segments : reference.segments ≠ []
  closed : Closed fs
  vacant : fs.follow (temporaryPath reference names.temporary) = none

theorem Aimed.vacant_entry (h : Aimed fs fs₁ reference names) :
    fs₁.entry names.parent.ino names.temporary = none := h.prepared.entry_eq.trans h.vacant

theorem Aimed.destination (h : Aimed fs fs₁ reference names) :
    fs.follow reference.displayPath = fs₁.entry names.parent.ino names.last := by
  rw [displayPath_eq h.segments, h.prepared.entry_eq, h.last]

theorem shape_of_follow {place : Location} {n : Name} {i : Ino} (hclosed : Closed fs)
    (h : fs.follow (place ++ [n]) = some i) : fs.shape i ≠ none := by
  rw [follow_snoc] at h
  obtain ⟨d, -, hi⟩ := Option.bind_eq_some_iff.mp h
  exact hclosed d n i hi

theorem Aimed.shape_old (h : Aimed fs fs₁ reference names) {i : Ino}
    (hi : fs₁.entry names.parent.ino names.last = some i) : fs.shape i ≠ none := by
  rw [← h.destination, displayPath_eq h.segments] at hi
  exact shape_of_follow h.closed hi

theorem Aimed.shape_entry (h : Aimed fs fs₁ reference names) :
    ∀ i, fs₁.entry names.parent.ino names.last = some i → fs₁.shape i ≠ none := by
  intro i hi
  rw [h.prepared.shape i (h.shape_old hi)]
  exact h.shape_old hi

theorem Aimed.follow_snoc {y : Option Ino} {n : Name} (h : Aimed fs fs₁ reference names)
    (hstaged : Staged fs₁ names t bytes x y fs')
    (hold : y = fs₁.entry names.parent.ino names.last ∨ Replaceable fs₁ names) :
    fs'.follow (reference.root ++ reference.parents ++ [n]) = fs'.entry names.parent.ino n :=
  hstaged.follow_snoc h.vacant_entry hold h.prepared.follow h.prepared.isDir

/-- **The file is delivered.** -/
theorem Aimed.delivered (h : Aimed fs fs₁ reference names) (hstaged : Staged fs₁ names t bytes none (some t) fs')
    (hold : Replaceable fs₁ names) : Delivered reference names.temporary bytes fs' := by
  refine ⟨⟨t, ?_, hstaged.bytes_eq⟩, ?_⟩
  · rw [displayPath_eq h.segments, h.follow_snoc hstaged (.inr hold), ← h.last, hstaged.entry_last]
  · rw [temporaryPath, h.follow_snoc hstaged (.inr hold), hstaged.entry_temporary]

/-- **Nothing is committed.** -/
theorem Aimed.undone (h : Aimed fs fs₁ reference names)
    (hstaged : Staged fs₁ names t bytes x (fs₁.entry names.parent.ino names.last) fs')
    (hx : x = none ∨ RemovalFailed names.temporary tr) : Undone fs reference names.temporary tr fs' := by
  refine ⟨⟨?_, fun j hj => ?_⟩, fun hno => ?_⟩
  · rw [h.destination, displayPath_eq h.segments, h.follow_snoc hstaged (.inl rfl), ← h.last, hstaged.entry_last]
  · have hsame := h.prepared.shape j hj
    rw [hstaged.shape_old (by rw [hsame]; exact hj), hsame]
  · rw [temporaryPath, h.follow_snoc hstaged (.inl rfl), hstaged.entry_temporary]
    exact hx.resolve_right hno

theorem Aimed.undone_same (h : Aimed fs fs₁ reference names) : Undone fs reference names.temporary tr fs₁ := by
  refine ⟨⟨?_, h.prepared.shape⟩, fun _ => ?_⟩
  · rw [h.destination, displayPath_eq h.segments, Posix.follow_snoc, h.prepared.follow, Option.bind_some, h.last]
  · rw [temporaryPath, Posix.follow_snoc, h.prepared.follow, Option.bind_some, h.vacant_entry]

/-- **The destination has changed.** -/
theorem Aimed.changed (h : Aimed fs fs₁ reference names) (hstaged : Staged fs₁ names t bytes x (some t) fs')
    (hold : Replaceable fs₁ names) : ¬AsBefore fs reference fs' := by
  rintro ⟨hsame, -⟩
  rw [h.destination, displayPath_eq h.segments, h.follow_snoc hstaged (.inr hold), ← h.last, hstaged.entry_last] at hsame
  -- the new file would have been there before
  exact h.shape_entry t hsame.symm hstaged.new

end Promises

/-! ## Uploads -/

/-- A call that could not close. -/
def failsToClose : Entry Syscall Errno → Bool
  | ⟨.close _, .error _⟩ => true
  | _ => false

/-- The directory could not be closed after the commit. -/
def Unclosed (temporary : Name) (tr : List (Entry Syscall Errno)) : Prop :=
  Committed temporary tr ∧ tr.getLast?.any failsToClose = true

instance (temporary : Name) (tr : List (Entry Syscall Errno)) : Decidable (Unclosed temporary tr) :=
  inferInstanceAs (Decidable (_ ∧ _))

/-- **What an upload promises.** -/
def UploadKept {δ : Type} (sha256 : List UInt8 → δ) (m : FileManager) (request : FileManager.Upload) (fs : Disk)
    (reference : Reference) (temporary : Name) (tr : List (Entry Syscall Errno)) :
    Except FileError (FileManager.Uploaded δ) → Disk → Prop
  | .ok u, fs' => u.path = reference.displayPath ∧ Delivered reference temporary request.chunks.flatten fs' ∧
      u.size = request.chunks.flatten.length ∧ u.sha256 = sha256 request.chunks.flatten ∧
      u.size ≤ m.uploadMaxBytes ∧ request.fails = false
  | .error _, fs' => Undone fs reference temporary tr fs'

section Upload

variable {δ : Type} {sha256 : List UInt8 → δ} {m : FileManager} {fs fs₁ fs' : Disk} {names : Names}
  {request : FileManager.Upload} {reference : Reference} {overwrite : Bool} {temporary : Name}
  {tr : List (Entry Syscall Errno)} {active : Nat} {candidate : List Char}

theorem not_unclosed_of_last {x : Entry Syscall Errno} {tr₀ : List (Entry Syscall Errno)} (hx : ¬failsToClose x) :
    ¬Unclosed temporary (tr₀ ++ [x]) := by
  rintro ⟨-, hfails⟩
  rw [List.getLast?_concat] at hfails
  exact hx hfails

/-- Quiet calls that end in an error. -/
theorem upload_quiet_kept {e : FileError} (hquiet : ∀ x ∈ tr, Quiet x.op)
    (hundone : Undone fs reference temporary tr fs') :
    UploadKept sha256 m request fs reference temporary tr (.error e) fs' ↔
      ¬(Stranded temporary tr ∨ Unclosed temporary tr) := by
  refine iff_of_true hundone ?_
  rintro (hstranded | ⟨hcommitted, -⟩)
  · exact not_stranded_of_quiet hquiet hstranded
  · exact not_committed_of_quiet hquiet hcommitted

/-- **The upload with its parent directory held.** -/
theorem run_uploadInto (h : Aimed fs fs₁ reference names) {tr₀ : List (Entry Syscall Errno)}
    (hquiet : ∀ x ∈ tr₀, Quiet x.op) :
    Run (fun _ => True) (do
      let received ← m.uploadInto ⟨names.parent, names.last⟩ names.temporary request overwrite
      pure (⟨reference.displayPath, received.length, sha256 received⟩ : FileManager.Uploaded δ))
      (fun tr r fs' => UploadKept sha256 m request fs reference names.temporary (tr₀ ++ tr) r fs' ↔
        ¬(Stranded names.temporary (tr₀ ++ tr) ∨ Unclosed names.temporary (tr₀ ++ tr))) fs₁ := by
  have hno : ¬Stranded names.temporary tr₀ := not_stranded_of_quiet hquiet
  have hno' : ¬Committed names.temporary tr₀ := not_committed_of_quiet hquiet
  have hattempt := run_cleanedUp h.vacant_entry
    (run_uploadAttempt m request overwrite h.prepared.isDir h.shape_entry)
  refine ends_bind (ends_finally (ends_mono ?_ hattempt))
  rintro tr r fs' - ⟨hfinished, hreceived⟩
  rcases hfinished with ⟨all, rfl, ⟨t, hstaged⟩, hold, hno₁, hcommitted⟩ |
    ⟨⟨e, rfl⟩, hstate, hno₁, hno₂⟩ | ⟨⟨e, rfl⟩, ⟨t, bytes, x, hstaged⟩, hold, hstranded⟩
  · obtain ⟨rfl, hsize, hends⟩ := hreceived all rfl
    refine run_sys trivial (fun u fs'' hexec => ⟨trivial, ?_⟩) fun e => ?_
    · obtain rfl := close_eq_ok hexec
      refine ends_pure trivial (iff_of_true ⟨rfl, h.delivered hstaged hold, rfl, rfl, hsize, hends⟩ ?_)
      rintro (hbad | hbad)
      · simp [hno, hno₁, strands] at hbad
      · rw [List.append_nil, ← List.append_assoc] at hbad
        exact not_unclosed_of_last (by simp [failsToClose]) hbad
    · -- the destination is committed, and the upload throws
      refine iff_of_false (fun hundone => h.changed hstaged hold hundone.1) fun hgood => hgood (.inr ⟨?_, ?_⟩)
      · simp [hcommitted]
      · rw [← List.append_assoc, List.getLast?_concat]
        rfl
  · -- nothing is committed, so that closing the directory changes nothing
    refine run_sys trivial (fun u fs'' hexec => ⟨trivial, ?_⟩) fun e' => ?_
    · obtain rfl := close_eq_ok hexec
      refine iff_of_true ?_ ?_
      · rcases hstate with rfl | ⟨t, bytes, x, hstaged, hx⟩
        · exact h.undone_same
        · exact h.undone hstaged (hx.imp id fun hfailed => by simp [hfailed])
      · rintro (hbad | ⟨hbad, -⟩)
        · simp [hno, hno₁, strands] at hbad
        · simp [hno', hno₂, commits] at hbad
    · refine iff_of_true ?_ ?_
      · rcases hstate with rfl | ⟨t, bytes, x, hstaged, hx⟩
        · exact h.undone_same
        · exact h.undone hstaged (hx.imp id fun hfailed => by simp [hfailed])
      · rintro (hbad | ⟨hbad, -⟩)
        · simp [hno, hno₁, strands] at hbad
        · simp [hno', hno₂, commits] at hbad
  · refine run_sys trivial (fun u fs'' hexec => ⟨trivial, ?_⟩) fun e' => ?_
    · obtain rfl := close_eq_ok hexec
      exact iff_of_false (fun hundone => h.changed hstaged hold hundone.1) fun hgood => hgood (by simp [hstranded])
    · exact iff_of_false (fun hundone => h.changed hstaged hold hundone.1) fun hgood => hgood (by simp [hstranded])

/-- **An upload is all or nothing**, unless it fails after its commit. -/
theorem upload_atomic (hclosed : Closed fs) (href : m.pathPolicy.mutation candidate = .ok reference)
    (hvacant : fs.follow (temporaryPath reference temporary) = none) (hne : temporary ≠ reference.last)
    {r : Except FileError (FileManager.Uploaded δ)}
    (hrun : Runs posix AnyFault (m.upload sha256 active request candidate overwrite temporary).run fs tr r fs') :
    UploadKept sha256 m request fs reference temporary tr r fs' ↔
      ¬(Stranded temporary tr ∨ Unclosed temporary tr) := by
  obtain ⟨hroot, hsegments⟩ := mutation_reference href
  have hself : ∀ tr, Undone fs reference temporary tr fs := fun _ => ⟨⟨rfl, fun _ _ => rfl⟩, fun _ => hvacant⟩
  have key : Run (fun _ => True) (m.upload sha256 active request candidate overwrite temporary) (fun tr r fs' =>
      UploadKept sha256 m request fs reference temporary tr r fs' ↔
        ¬(Stranded temporary tr ∨ Unclosed temporary tr)) fs := by
    refine ends_bind (run_ensure trivial (fun _ => ?_) fun _ => upload_quiet_kept nofun (hself _))
    rw [href]
    refine ends_bind (run_fromPolicy trivial (fun x hx => ?_) nofun)
    obtain rfl := Except.ok.inj hx
    refine ends_bind (ends_mono ?_ (run_quiet
      (permit_openMutationParent (n := held ⟨0⟩) (quiet_licence reference.root temporary) (segments_valid href))
      (run_openMutationParent hroot fun _ _ => trivial)))
    rintro tr₀ (e | pinned) fs₁ - ⟨hquiet, hspared, hfollow, hpinned⟩
    · refine upload_quiet_kept (by simpa using hquiet) ⟨⟨?_, hspared.1.shape⟩, fun _ => ?_⟩
      · rw [displayPath_eq hsegments]
        exact hfollow _
      · exact (hfollow _).trans hvacant
    obtain ⟨hname, hprepared⟩ := hpinned pinned rfl
    have haimed : Aimed fs fs₁ reference ⟨pinned.parent, temporary, pinned.name, hname ▸ hne⟩ :=
      ⟨hprepared, hname, hsegments, hclosed, hvacant⟩
    show Run _ (if _ then _ else _) _ _
    split
    · refine ends_bind (run_sys trivial (fun u fs₂ hexec => ⟨trivial, ?_⟩) fun e => ?_)
      · obtain rfl := close_eq_ok hexec
        refine ends_throw trivial (upload_quiet_kept ?_ haimed.undone_same)
        simpa using fun x hx => hx.elim (hquiet x) fun heq => heq ▸ trivial
      · refine upload_quiet_kept ?_ haimed.undone_same
        simpa using fun x hx => hx.elim (hquiet x) fun heq => heq ▸ trivial
    · exact run_uploadInto haimed hquiet
  exact Prog.Ends.runs key hrun

end Upload

/-! ## Copies -/

/-- **What a copy promises.** -/
def CopyKept (fs : Disk) (from' to' : Reference) (temporary : Name) (tr : List (Entry Syscall Errno)) :
    Except FileError FileManager.Transferred → Disk → Prop
  | .ok t, fs' => t.done = true → ∃ i content, fs.follow from'.displayPath = some i ∧ fs.bytes i = some content ∧
      Delivered to' temporary content fs'
  | .error _, fs' => Undone fs to' temporary tr fs'

/-- How the copy of a file with this content ends. -/
def CopyEnd (fs : Disk) (to' : Reference) (temporary : Name) (content : List UInt8) (tr : List (Entry Syscall Errno))
    (r : Except FileError Unit) (fs' : Disk) : Prop :=
  (r = .ok () ∧ Delivered to' temporary content fs' ∧ ¬Stranded temporary tr) ∨
  ((∃ e, r = .error e) ∧ Undone fs to' temporary tr fs' ∧ ¬Stranded temporary tr) ∨
  ((∃ e, r = .error e) ∧ ¬AsBefore fs to' fs' ∧ Stranded temporary tr)

section Copy

variable {m : FileManager} {fs fs' : Disk} {names : Names} {from' to' : Reference} {overwrite : Bool}
  {temporary : Name} {content : List UInt8} {tr : List (Entry Syscall Errno)} {r : Except FileError Unit}
  {source : Handle} {candidate : List Char}

/-- Quiet calls before and after do not matter. -/
theorem CopyEnd.widen {whole : List (Entry Syscall Errno)} (h : CopyEnd fs to' temporary content tr r fs')
    (hmem : ∀ x ∈ tr, x ∈ whole) (hquiet : ∀ x ∈ whole, x ∈ tr ∨ Quiet x.op) :
    CopyEnd fs to' temporary content whole r fs' := by
  have hno : ¬Stranded temporary tr → ¬Stranded temporary whole := by
    rintro hno ⟨x, hx, hstrands⟩
    rcases hquiet x hx with hx | hx
    · exact hno ⟨x, hx, hstrands⟩
    · have hone : ¬Stranded temporary [x] := not_stranded_of_quiet (by simpa using hx)
      exact hone ⟨x, List.mem_singleton.mpr rfl, hstrands⟩
  rcases h with ⟨rfl, hdelivered, h⟩ | ⟨herror, ⟨hbefore, hcleared⟩, h⟩ | ⟨herror, hchanged, x, hx, hstrands⟩
  · exact .inl ⟨rfl, hdelivered, hno h⟩
  · refine .inr (.inl ⟨herror, ⟨hbefore, fun hremoved => hcleared ?_⟩, hno h⟩)
    rintro ⟨x, hx, hfails⟩
    exact hremoved ⟨x, hmem x hx, hfails⟩
  · exact .inr (.inr ⟨herror, hchanged, x, hmem x hx, hstrands⟩)

theorem copyEnd_quiet {e : FileError} (hquiet : ∀ x ∈ tr, Quiet x.op)
    (hundone : Undone fs to' temporary tr fs') : CopyEnd fs to' temporary content tr (.error e) fs' :=
  .inr (.inl ⟨⟨e, rfl⟩, hundone, not_stranded_of_quiet hquiet⟩)

/-- A file is closed, and what that throws is ignored. -/
theorem run_quietClose {file : Handle} :
    Run (fun _ => True) (sys (.close file)).ignored
      (fun tr r fs' => (∀ x ∈ tr, Quiet x.op) ∧ fs' = fs ∧ r = .ok ()) fs := by
  refine ends_ignored (run_sys trivial (fun u fs' hexec => ?_) fun e => ⟨?_, rfl, rfl⟩)
  · obtain rfl := close_eq_ok hexec
    exact ⟨trivial, by simp [Quiet], rfl, rfl⟩
  · simp [Quiet]

/-- A copy stays what it is when files are closed afterwards. -/
theorem run_copyEnd_close {p : FileScript Unit} {file : Handle} {fs₁ : Disk}
    (h : Run (fun _ => True) p (CopyEnd fs to' temporary content) fs₁) :
    Run (fun _ => True) (p.andFinally (sys (.close file)).ignored) (CopyEnd fs to' temporary content) fs₁ := by
  refine ends_finally (ends_mono ?_ h)
  rintro tr r fs' - hend
  refine ends_mono ?_ run_quietClose
  rintro tr' r' fs'' - ⟨hquiet, rfl, rfl⟩
  refine hend.widen (fun x hx => List.mem_append_left _ hx) fun x hx => ?_
  exact (List.mem_append.mp hx).imp_right (hquiet x)

/-- **The copy with its parent directory held.** -/
theorem run_copyInto {size : Nat} (h : Aimed fs fs to' names) (hsource : fs.shape source.ino = some (.file content)) :
    Run (fun _ => True) (m.copyInto source size ⟨names.parent, names.last⟩ overwrite names.temporary)
      (CopyEnd fs to' names.temporary content) fs := by
  refine ends_bind (ends_mono ?_ run_quietReserve)
  rintro tr₁ (e | u) fs₁ - ⟨hquiet₁, rfl⟩
  · exact copyEnd_quiet hquiet₁ h.undone_same
  have hattempt : Run (fun _ => True) (do
      FileManager.copyFile source names.parent names.temporary
      FileManager.commitTemporary names.parent names.temporary names.last overwrite)
      (fun tr r fs' => Attempted fs₁ names (fun _ : Unit => content) tr r fs' ∧ True) fs₁ := by
    refine ends_bind (ends_mono ?_ (run_quietCopyFile hsource))
    rintro tr₂ (e | u') fs₂ - ⟨hquiet₂, hcopied⟩
    · rcases hcopied with ⟨rfl, -⟩ | ⟨-, t, bytes, hstaged, -⟩
      · exact ⟨attempted_quiet hquiet₂, trivial⟩
      · exact ⟨attempted_staged hquiet₂ hstaged, trivial⟩
    obtain ⟨-, t, bytes, hstaged, hbytes⟩ := hcopied.resolve_left fun h => absurd h.2 nofun
    refine ends_mono ?_ (attempted_commit (fun _ : Unit => content) h.prepared.isDir h.shape_entry hstaged hquiet₂ ()
      (hbytes rfl))
    rintro tr₃ (e | u'') fs₃ - hattempted
    · exact ⟨hattempted, trivial⟩
    · exact ⟨hattempted, trivial⟩
  refine ends_mono ?_ (run_cleanedUp h.vacant_entry hattempt)
  rintro tr r fs' - ⟨hfinished, -⟩
  suffices CopyEnd fs₁ to' names.temporary content tr r fs' from
    this.widen (fun x hx => List.mem_append_right _ hx) fun x hx => ((List.mem_append.mp hx).imp_left (hquiet₁ x)).symm
  rcases hfinished with ⟨_, rfl, ⟨t, hstaged⟩, hold, hno, -⟩ | ⟨herror, hstate, hno, -⟩ |
    ⟨herror, ⟨t, bytes, x, hstaged⟩, hold, hstranded⟩
  · exact .inl ⟨rfl, h.delivered hstaged hold, hno⟩
  · refine .inr (.inl ⟨herror, ?_, hno⟩)
    rcases hstate with rfl | ⟨t, bytes, x, hstaged, hx⟩
    · exact h.undone_same
    · exact h.undone hstaged hx
  · exact .inr (.inr ⟨herror, h.changed hstaged hold, hstranded⟩)

/-- **The copy with the source file held.** -/
theorem run_copyFrom (hto : m.pathPolicy.mutation candidate = .ok to') (hclosed : Closed fs)
    (hvacant : fs.follow (temporaryPath to' temporary) = none) (hne : temporary ≠ to'.last) :
    Run (fun _ => True) (m.copyFrom source to' overwrite temporary) (fun tr r fs' =>
      (∃ content, fs.bytes source.ino = some content ∧ CopyEnd fs to' temporary content tr r fs') ∨
      ((∃ e, r = .error e) ∧ (∀ x ∈ tr, Quiet x.op) ∧ fs' = fs)) fs := by
  obtain ⟨hroot, hsegments⟩ := mutation_reference hto
  refine ends_bind (run_sys trivial (fun stat fs' hexec => ?_) fun e => .inr ⟨⟨_, rfl⟩, by simp [Quiet], rfl⟩)
  obtain ⟨rfl, node, hnode, rfl⟩ := fstat_eq_ok hexec
  refine ⟨trivial, ends_bind (run_ensure trivial (fun hregular => ?_)
    fun _ => .inr ⟨⟨_, rfl⟩, by simp [Quiet], rfl⟩)⟩
  obtain ⟨content, hbytes, hshape⟩ := bytes_of_isFile hnode hregular
  refine ends_bind (ends_mono ?_ (run_quiet
    (permit_openMutationParent (n := held ⟨0⟩) (quiet_licence to'.root temporary) (segments_valid hto))
    (run_openExistingParent hroot trivial)))
  rintro tr₀ (e | pinned) fs₁ - ⟨hquiet, rfl, hpinned⟩
  · refine .inr ⟨⟨e, rfl⟩, ?_, rfl⟩
    simpa [Quiet] using hquiet
  obtain ⟨hname, hdir, hparent⟩ := hpinned pinned rfl
  have haimed : Aimed fs₁ fs₁ to' ⟨pinned.parent, temporary, pinned.name, hname ▸ hne⟩ :=
    ⟨prepared_start hparent hdir, hname, hsegments, hclosed, hvacant⟩
  refine ends_mono ?_ (run_copyEnd_close (run_copyInto haimed hshape))
  rintro tr r fs' - hend
  refine .inl ⟨content, hbytes, hend.widen (fun x hx => by simp [hx]) fun x hx => ?_⟩
  simp only [List.mem_append, List.mem_cons, List.not_mem_nil, or_false] at hx
  rcases hx with rfl | hx | hx | hx
  · exact .inr trivial
  · exact hx.elim
  · exact .inr (hquiet x hx)
  · exact .inl hx

/-- The source is opened, and nothing changes. -/
theorem run_openSource {pinned : Pinned} :
    Run (fun _ => True) (FileManager.openSource pinned) (fun tr r fs' => (∀ x ∈ tr, Quiet x.op) ∧ fs' = fs ∧
      ∀ file, r = .ok file → fs.entry pinned.parent.ino pinned.name = some file.ino) fs := by
  refine ends_tryCatch (run_sys trivial (fun file fs' hexec => ?_) fun e => ?_)
  · obtain ⟨rfl, hentry⟩ := openFileAt_eq_ok hexec
    refine ⟨trivial, by simp [Quiet], rfl, fun file' hfile => ?_⟩
    obtain rfl := Except.ok.inj hfile
    exact hentry
  · show Run _ (if _ then _ else _) _ _
    split <;> exact ends_throw trivial ⟨by simp [Quiet], rfl, nofun⟩

/-- **A copy is all or nothing**, unless its temporary file cannot be unlinked. -/
theorem copy_atomic {a b : List Char} (hclosed : Closed fs) (hfrom : m.pathPolicy.mutation a = .ok from')
    (hto : m.pathPolicy.mutation b = .ok to') (hvacant : fs.follow (temporaryPath to' temporary) = none)
    (hne : temporary ≠ to'.last) {r : Except FileError FileManager.Transferred}
    (hrun : Runs posix AnyFault (m.copy a b overwrite temporary).run fs tr r fs') :
    CopyKept fs from' to' temporary tr r fs' ↔ ¬Stranded temporary tr := by
  obtain ⟨hroot, hsegments⟩ := mutation_reference hfrom
  have hself : ∀ tr, Undone fs to' temporary tr fs := fun _ => ⟨⟨rfl, fun _ _ => rfl⟩, fun _ => hvacant⟩
  have key : Run (fun _ => True) (m.copy a b overwrite temporary) (fun tr r fs' =>
      CopyKept fs from' to' temporary tr r fs' ↔ ¬Stranded temporary tr) fs := by
    rw [FileManager.copy, hfrom, hto]
    refine ends_bind (run_fromPolicy trivial (fun x hx => ?_) nofun)
    obtain rfl := Except.ok.inj hx
    refine ends_bind (run_fromPolicy trivial (fun y hy => ?_) nofun)
    obtain rfl := Except.ok.inj hy
    show Run _ (if _ then _ else _) _ _
    split
    · exact ends_pure trivial (iff_of_true nofun (by simp))
    refine ends_bind (run_fromPolicy trivial (fun _ _ => ?_) fun _ _ => iff_of_true (hself _) (by simp))
    refine ends_bind (ends_mono ?_ (run_quiet
      (permit_openMutationParent (n := held ⟨0⟩) (quiet_licence from'.root temporary) (segments_valid hfrom))
      (run_openExistingParent hroot trivial)))
    rintro tr₀ (e | pinned) fs₁ - ⟨hquiet₀, rfl, hpinned⟩
    · exact iff_of_true (hself _) (by simpa using not_stranded_of_quiet hquiet₀)
    obtain ⟨hname, hdir, hparent⟩ := hpinned pinned rfl
    have hsource : ∀ i, fs₁.entry pinned.parent.ino pinned.name = some i → fs₁.follow from'.displayPath = some i := by
      intro i hi
      rw [displayPath_eq hsegments, Posix.follow_snoc, hparent, Option.bind_some, ← hname, hi]
    refine ends_bind (ends_finally (ends_mono (Q := fun tr r fs' =>
      (∃ i content, fs₁.follow from'.displayPath = some i ∧ fs₁.bytes i = some content ∧
        CopyEnd fs₁ to' temporary content tr r fs') ∨
      ((∃ e, r = .error e) ∧ (∀ x ∈ tr, Quiet x.op) ∧ fs' = fs₁)) ?_ ?_))
    · rintro tr₁ r fs₂ - hend
      refine ends_mono ?_ run_quietClose
      rintro tr₂ r' fs₃ - ⟨hquiet₂, rfl, rfl⟩
      have hno : ¬Stranded temporary tr₁ → ¬Stranded temporary ([] ++ ([] ++ ([] ++ (tr₀ ++ (tr₁ ++ tr₂))))) := by
        simpa using fun h => ⟨not_stranded_of_quiet hquiet₀, h, not_stranded_of_quiet hquiet₂⟩
      rcases r with e | u
      · rcases hend with ⟨i, content, -, -, hend⟩ | ⟨-, hquiet₁, rfl⟩
        · rcases hend with ⟨herror, -⟩ | ⟨-, ⟨hbefore, hcleared⟩, hno₁⟩ | ⟨-, hchanged, hstranded⟩
          · cases herror
          · refine iff_of_true ⟨hbefore, fun hremoved => hcleared fun hfailed => hremoved ?_⟩ (hno hno₁)
            simp [hfailed]
          · exact iff_of_false (fun hundone => hchanged hundone.1) fun hgood => hgood (by simp [hstranded])
        · exact iff_of_true (hself _) (hno (not_stranded_of_quiet hquiet₁))
      · rcases hend with ⟨i, content, hi, hbytes, hend⟩ | ⟨⟨_, herror⟩, -⟩
        · rcases hend with ⟨-, hdelivered, hno₁⟩ | ⟨⟨_, herror⟩, -⟩ | ⟨⟨_, herror⟩, -⟩
          · refine ends_pure trivial (iff_of_true (fun _ => ⟨i, content, hi, hbytes, hdelivered⟩) ?_)
            rw [List.append_nil]
            exact hno hno₁
          · cases herror
          · cases herror
        · cases herror
    · refine ends_bind (ends_mono ?_ run_openSource)
      rintro tr₁ (e | source) fs₂ - ⟨hquiet₁, rfl, hopened⟩
      · exact .inr ⟨⟨e, rfl⟩, hquiet₁, rfl⟩
      refine ends_finally (ends_mono ?_ (run_copyFrom hto hclosed hvacant hne))
      rintro tr₂ r fs₃ - hend
      refine ends_mono ?_ run_quietClose
      rintro tr₃ r' fs₄ - ⟨hquiet₃, rfl, rfl⟩
      rcases hend with ⟨content, hbytes, hend⟩ | ⟨herror, hquiet₂, rfl⟩
      · refine .inl ⟨source.ino, content, hsource _ (hopened source rfl), hbytes,
          hend.widen (fun x hx => by simp [hx]) fun x hx => ?_⟩
        simp only [List.mem_append] at hx
        rcases hx with hx | hx | hx
        · exact .inr (hquiet₁ x hx)
        · exact .inl hx
        · exact .inr (hquiet₃ x hx)
      · refine .inr ⟨herror, ?_, rfl⟩
        simp only [List.forall_mem_append]
        exact ⟨hquiet₁, hquiet₂, hquiet₃⟩
  exact Prog.Ends.runs key hrun

end Copy

end BegetBridge.Files
