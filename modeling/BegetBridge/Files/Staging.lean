import BegetBridge.Files.Move
import BegetBridge.Files.Licence

/-!
# Temporary files

An upload and a copy write a temporary file beside the destination and give it the name when it is complete.
Here are the calls that do so, and what the file system is after each of them.

## Main definitions

* `Staged`: the temporary file with what it holds, and where the two names lead
* `AsBefore`, `Cleared`: what is promised when a mutation throws

## Main results

* `run_pipeline`, `run_copyFile`: the temporary file is written
* `run_commitTemporary`: it gets the name of the destination
* `run_removeTemporary`: it is removed
-/

namespace BegetBridge.Files

open Posix Interleaving Script

/-- The two names of a transfer: that of the temporary file and that of the destination, in one directory. -/
structure Names where
  parent : Handle
  temporary : Name
  last : Name
  ne : temporary ≠ last

/-- Since `fs` the file `t` was made with these bytes, and the two names have come to lead where is said. -/
structure Staged (fs : Disk) (names : Names) (t : Ino) (bytes : List UInt8) (temporary destination : Option Ino)
    (fs' : Disk) : Prop where
  root : fs'.root = fs.root
  new : fs.shape t = none
  shape : ∀ j, fs'.shape j = if j = t then some (.file bytes) else fs.shape j
  entry : ∀ d n, fs'.entry d n =
    if d = names.parent.ino ∧ n = names.temporary then temporary
    else if d = names.parent.ino ∧ n = names.last then destination
    else fs.entry d n

section Staged

variable {m : FileManager} {fs fs' : Disk} {names : Names} {t : Ino} {bytes received : List UInt8}
  {x y : Option Ino} {overwrite : Bool}

theorem Staged.entry_temporary (h : Staged fs names t bytes x y fs') :
    fs'.entry names.parent.ino names.temporary = x := by
  rw [h.entry, if_pos ⟨rfl, rfl⟩]

theorem Staged.entry_last (h : Staged fs names t bytes x y fs') :
    fs'.entry names.parent.ino names.last = y := by
  rw [h.entry, if_neg fun heq => names.ne heq.2.symm, if_pos ⟨rfl, rfl⟩]

theorem Staged.bytes_eq (h : Staged fs names t bytes x y fs') : fs'.bytes t = some bytes := by
  have hshape := h.shape t
  rw [if_pos rfl] at hshape
  obtain ⟨node, hnode, hkind⟩ := Option.map_eq_some_iff.mp hshape
  rw [Disk.bytes, Disk.kind, hnode, Option.map_some]
  rcases hk : node.kind with bytes' | _ | _ | _ <;> rw [Node.shape, hk] at hkind
  · rw [Kind.file.inj hkind]
  all_goals cases hkind

theorem Staged.isDir_new (h : Staged fs names t bytes x y fs') : fs'.isDir t = false := by
  rw [Disk.isDir]
  have hbytes := h.bytes_eq
  rw [Disk.bytes] at hbytes
  split at hbytes
  · rename_i hkind
    rw [Disk.entries, hkind]
    rfl
  · cases hbytes

/-- What was there before holds what it held. -/
theorem Staged.shape_old (h : Staged fs names t bytes x y fs') {j : Ino} (hj : fs.shape j ≠ none) :
    fs'.shape j = fs.shape j := by
  rw [h.shape, if_neg]
  rintro rfl
  exact hj h.new

theorem shape_of_isDir {i : Ino} (h : fs.isDir i = true) : fs.shape i ≠ none := by
  intro hnone
  have hnode : fs.node i = none := Option.map_eq_none_iff.mp hnone
  rw [Disk.isDir, entries_eq, hnode] at h
  cases h

theorem Staged.isDir_old (h : Staged fs names t bytes x y fs') {d : Ino} (hd : fs.isDir d = true) :
    fs'.isDir d = true := by
  rw [isDir_of_shape (h.shape_old (shape_of_isDir hd)), hd]

/-- The parent directory is where it was, where no directory has lost its name. -/
theorem Staged.follow_snoc {place : Location} {n : Name} (h : Staged fs names t bytes x y fs')
    (hvacant : fs.entry names.parent.ino names.temporary = none)
    (hold : y = fs.entry names.parent.ino names.last ∨
      ∀ j, fs.entry names.parent.ino names.last = some j → fs.isDir j = false)
    (hplace : fs.follow place = some names.parent.ino) (hdir : fs.isDir names.parent.ino = true) :
    fs'.follow (place ++ [n]) = fs'.entry names.parent.ino n := by
  have hentries : ∀ d n i, fs.entry d n = some i → fs.isDir i = true → fs'.entry d n = some i := by
    intro d n i hi hidir
    rw [h.entry]
    split
    · rename_i heq
      rw [heq.1, heq.2, hvacant] at hi
      cases hi
    split
    · rename_i heq
      rw [heq.1, heq.2] at hi
      rcases hold with hsame | hfile
      · rw [hsame, hi]
      · rw [hfile i hi] at hidir
        cases hidir
    · exact hi
  rw [Posix.follow_snoc, follow_of_entries h.root hentries hplace hdir, Option.bind_some]

/-- The temporary file is made. -/
theorem staged_create {file : Handle} (h : Disk.exec (.create names.parent names.temporary) fs = .ok (file, fs')) :
    fs.entry names.parent.ino names.temporary = none ∧
      Staged fs names file.ino [] (some file.ino) (fs.entry names.parent.ino names.last) fs' := by
  obtain ⟨rfl, hmade⟩ := create_eq_ok h
  refine ⟨hmade.vacant, hmade.root, shape_fresh, hmade.shape, fun d n => ?_⟩
  rw [hmade.entry]
  split
  · rfl
  split
  · rename_i heq
    rw [heq.1, heq.2]
  · rfl

/-- It gets other bytes. -/
theorem Staged.rewrite {fs'' : Disk} {bytes' : List UInt8} (h : Staged fs names t bytes x y fs')
    (hroot : fs''.root = fs'.root) (hentry : ∀ d n, fs''.entry d n = fs'.entry d n)
    (hshape : ∀ j, fs''.shape j = if j = t then some (.file bytes') else fs'.shape j) :
    Staged fs names t bytes' x y fs'' where
  root := hroot.trans h.root
  new := h.new
  shape j := by
    rw [hshape, h.shape]
    split <;> rfl
  entry d n := (hentry d n).trans (h.entry d n)

/-- The space that is free is asked for, and nothing changes. -/
theorem run_assertStorageReserve {target : Handle} {incoming : Int} :
    Run (fun _ => True) (m.assertStorageReserve target incoming) (fun _ _ fs' => fs' = fs) fs := by
  rw [FileManager.assertStorageReserve]
  split
  · exact ends_pure trivial rfl
  refine ends_bind (run_sys trivial (fun free fs' hexec => ?_) fun e => rfl)
  obtain rfl := statfs_eq_ok hexec
  exact ⟨trivial, run_ensure trivial (fun _ => rfl) fun _ => rfl⟩

/-- **The chunks are written**, by induction on what is still to come. -/
theorem run_receive {parent : Handle} {fails : Bool} {chunks : List (List UInt8)}
    (hsize : received.length ≤ m.uploadMaxBytes) (h : Staged fs names t received x y fs') :
    Run (fun _ => True) (m.receive parent ⟨t⟩ fails received chunks) (fun _ r fs'' =>
      ∃ bytes, Staged fs names t bytes x y fs'' ∧ ∀ all, r = .ok all →
        all = bytes ∧ all = received ++ chunks.flatten ∧ all.length ≤ m.uploadMaxBytes ∧ fails = false) fs' := by
  induction chunks generalizing received fs' with
  | nil =>
    refine ends_bind (ends_mono (Q := fun _ r fs'' => fs'' = fs' ∧ (r = .ok () → fails = false)) ?_ ?_)
    · rintro tr (e | u) fs'' - ⟨rfl, hends⟩
      · exact ⟨_, h, by rintro _ ⟨⟩⟩
      refine ends_bind (run_sys trivial (fun u fs'' hexec => ?_) fun e => ⟨_, h, by rintro _ ⟨⟩⟩)
      obtain rfl := close_eq_ok hexec
      refine ⟨trivial, ends_pure trivial ⟨_, h, fun all hall => ?_⟩⟩
      obtain rfl := Except.ok.inj hall
      exact ⟨rfl, by simp, hsize, hends rfl⟩
    · rw [provided]
      split
      · exact ends_throw trivial ⟨rfl, by rintro ⟨⟩⟩
      · rename_i hends
        exact ends_pure trivial ⟨rfl, fun _ => Bool.eq_false_iff.mpr hends⟩
  | cons chunk rest ih =>
    refine ends_bind (run_ensure trivial (fun hfits => ?_) fun _ => ⟨_, h, by rintro _ ⟨⟩⟩)
    refine ends_bind (ends_mono ?_ run_assertStorageReserve)
    rintro tr (e | u) fs'' - rfl
    · exact ⟨_, h, by rintro _ ⟨⟩⟩
    refine ends_bind (run_sys trivial (fun u' fs₃ hexec => ?_) fun e => ⟨_, h, by rintro _ ⟨⟩⟩)
    obtain ⟨before, hbefore, hroot, hentry, hshape⟩ := write_eq_ok hexec
    obtain rfl := Option.some.inj (h.bytes_eq.symm.trans hbefore)
    refine ⟨trivial, ends_mono ?_ (ih (of_decide_eq_true hfits) (h.rewrite hroot hentry hshape))⟩
    rintro tr' r fs₄ - ⟨bytes, hstaged, hall⟩
    refine ⟨bytes, hstaged, fun all hr => ?_⟩
    obtain ⟨hbytes, hflat, hlen, hends⟩ := hall all hr
    exact ⟨hbytes, by rw [hflat, List.flatten_cons, List.append_assoc], hlen, hends⟩

/-- **The temporary file of an upload.** -/
theorem run_pipeline {request : FileManager.Upload} :
    Run (fun _ => True) (m.pipeline names.parent names.temporary request) (fun _ r fs' =>
      (fs' = fs ∧ ∃ e, r = .error e) ∨
      fs.entry names.parent.ino names.temporary = none ∧
      ∃ t bytes, Staged fs names t bytes (some t) (fs.entry names.parent.ino names.last) fs' ∧
        ∀ all, r = .ok all → all = bytes ∧ all = request.chunks.flatten ∧
          all.length ≤ m.uploadMaxBytes ∧ request.fails = false) fs := by
  refine ends_bind (run_sys trivial (fun file fs' hexec => ?_) fun e => .inl ⟨rfl, _, rfl⟩)
  obtain ⟨hvacant, hstaged⟩ := staged_create hexec
  refine ⟨trivial, ends_mono ?_ (run_receive (Nat.zero_le _) hstaged)⟩
  rintro tr r fs'' - ⟨bytes, hstaged', hall⟩
  exact .inr ⟨hvacant, file.ino, bytes, hstaged', hall⟩

/-- **The temporary file of a copy.** -/
theorem run_copyFile {source : Handle} {content : List UInt8} (hsource : fs.shape source.ino = some (.file content)) :
    Run (fun _ => True) (FileManager.copyFile source names.parent names.temporary) (fun _ r fs' =>
      (fs' = fs ∧ ∃ e, r = .error e) ∨
      fs.entry names.parent.ino names.temporary = none ∧
      ∃ t bytes, Staged fs names t bytes (some t) (fs.entry names.parent.ino names.last) fs' ∧
        (r = .ok () → bytes = content)) fs := by
  refine ends_bind (run_sys trivial (fun file fs' hexec => ?_) fun e => .inl ⟨rfl, _, rfl⟩)
  obtain ⟨hvacant, hstaged⟩ := staged_create hexec
  refine ⟨trivial, run_sys trivial (fun u fs'' hexec' => ?_) fun e => ?_⟩
  · obtain ⟨bytes, hbytes, hroot, hentry, hshape⟩ := copyData_eq_ok hexec'
    refine ⟨trivial, .inr ⟨hvacant, file.ino, bytes, hstaged.rewrite hroot hentry hshape, fun _ => ?_⟩⟩
    have hsame : fs'.shape source.ino = some (.file content) := by
      rw [hstaged.shape_old (by rw [hsource]; simp), hsource]
    obtain ⟨node, hnode, hkind⟩ := Option.map_eq_some_iff.mp hsame
    rw [Disk.bytes, Disk.kind, hnode, Option.map_some] at hbytes
    rcases hk : node.kind with bytes' | _ | _ | _ <;> rw [Node.shape, hk] at hkind <;> rw [hk] at hbytes
    · exact (Option.some.inj hbytes).symm.trans (Kind.file.inj hkind)
    all_goals cases hkind
  · exact .inr ⟨hvacant, file.ino, [], hstaged, by rintro ⟨⟩⟩

end Staged

/-! ## What the trace tells -/

/-- The temporary file could not be unlinked after it had got the name of the destination. -/
def strands (temporary : Name) : Entry Syscall Errno → Bool
  | ⟨.unlink _ n, .error _⟩ => n == temporary
  | _ => false

/-- The temporary file has become the destination. -/
def commits (temporary : Name) : Entry Syscall Errno → Bool
  | ⟨.unlink _ n, .ok _⟩ => n == temporary
  | ⟨.rename _ n _ _, .ok _⟩ => n == temporary
  | _ => false

/-- The temporary file could not be removed after an error. -/
def failsToRemove (temporary : Name) : Entry Syscall Errno → Bool
  | ⟨.rm _ n, .error _⟩ => n == temporary
  | _ => false

/-- A call that is no part of a commit and that removes nothing. -/
def Quiet {γ : Type} : Syscall γ → Prop
  | .unlink .. | .rename .. | .rm .. => False
  | _ => True

def Stranded (temporary : Name) (tr : List (Entry Syscall Errno)) : Prop := ∃ x ∈ tr, strands temporary x

def Committed (temporary : Name) (tr : List (Entry Syscall Errno)) : Prop := ∃ x ∈ tr, commits temporary x

def RemovalFailed (temporary : Name) (tr : List (Entry Syscall Errno)) : Prop := ∃ x ∈ tr, failsToRemove temporary x

instance (temporary : Name) (tr : List (Entry Syscall Errno)) : Decidable (Stranded temporary tr) :=
  inferInstanceAs (Decidable (∃ x ∈ tr, strands temporary x = true))

instance (temporary : Name) (tr : List (Entry Syscall Errno)) : Decidable (Committed temporary tr) :=
  inferInstanceAs (Decidable (∃ x ∈ tr, commits temporary x = true))

section Trace

variable {temporary : Name} {tr tr' : List (Entry Syscall Errno)} {x : Entry Syscall Errno}

@[simp] theorem stranded_append : Stranded temporary (tr ++ tr') ↔ Stranded temporary tr ∨ Stranded temporary tr' := by
  simp [Stranded, or_and_right, exists_or]

@[simp] theorem committed_append :
    Committed temporary (tr ++ tr') ↔ Committed temporary tr ∨ Committed temporary tr' := by
  simp [Committed, or_and_right, exists_or]

@[simp] theorem removalFailed_append :
    RemovalFailed temporary (tr ++ tr') ↔ RemovalFailed temporary tr ∨ RemovalFailed temporary tr' := by
  simp [RemovalFailed, or_and_right, exists_or]

@[simp] theorem stranded_nil : ¬Stranded temporary [] := by simp [Stranded]

@[simp] theorem committed_nil : ¬Committed temporary [] := by simp [Committed]

@[simp] theorem stranded_cons :
    Stranded temporary (x :: tr) ↔ strands temporary x ∨ Stranded temporary tr := by simp [Stranded]

@[simp] theorem committed_cons :
    Committed temporary (x :: tr) ↔ commits temporary x ∨ Committed temporary tr := by simp [Committed]

@[simp] theorem removalFailed_cons :
    RemovalFailed temporary (x :: tr) ↔ failsToRemove temporary x ∨ RemovalFailed temporary tr := by
  simp [RemovalFailed]

theorem not_stranded_of_quiet (h : ∀ x ∈ tr, Quiet x.op) : ¬Stranded temporary tr := by
  rintro ⟨⟨op, r⟩, hx, hstrands⟩
  have hquiet := h _ hx
  cases op <;> first | exact hquiet.elim | cases hstrands

theorem not_committed_of_quiet (h : ∀ x ∈ tr, Quiet x.op) : ¬Committed temporary tr := by
  rintro ⟨⟨op, r⟩, hx, hcommits⟩
  have hquiet := h _ hx
  cases op <;> first | exact hquiet.elim | cases hcommits

/-- A program of quiet calls. -/
theorem run_quiet {α : Type} {p : FileScript α} {n : Held} {R : Except FileError α → Held → Prop} {I : Disk → Prop}
    {Q : List (Entry Syscall Errno) → Except FileError α → Disk → Prop} {fs : Disk}
    (hp : Permit (fun {_} op _ => Quiet op) p R n) (h : Run I p Q fs) :
    Run I p (fun tr r fs' => (∀ x ∈ tr, Quiet x.op) ∧ Q tr r fs') fs :=
  Prog.ends_every (Prog.every_of_along hp) h

theorem quiet_licence (root : Location) (temporary : Name) :
    Licence (fun {_} op _ => Quiet op) root temporary where
  looks op _ h := by cases op <;> first | exact h.elim | trivial
  mkdir _ _ := trivial
  create _ := trivial
  write _ := trivial
  copyData _ := trivial

end Trace

/-! ## The commit -/

section Commit

variable {fs fs' : Disk} {names : Names} {t : Ino} {bytes : List UInt8} {x y : Option Ino} {overwrite : Bool}

/-- What is at the destination is no directory. -/
def Replaceable (fs : Disk) (names : Names) : Prop :=
  ∀ j, fs.entry names.parent.ino names.last = some j → fs.isDir j = false

theorem Staged.attach_last (h : Staged fs names t bytes x y fs') (hdir : fs.isDir names.parent.ino = true)
    (i : Ino) : Staged fs names t bytes x (some i) (fs'.attach names.parent.ino names.last i) where
  root := root_attach.trans h.root
  new := h.new
  shape j := shape_attach.trans (h.shape j)
  entry d n := by
    rw [entry_attach (h.isDir_old hdir), h.entry]
    by_cases hlast : d = names.parent.ino ∧ n = names.last
    · have hne : ¬(d = names.parent.ino ∧ n = names.temporary) := fun h' => names.ne (h'.2.symm.trans hlast.2)
      rw [if_pos hlast, if_neg hne, if_pos hlast]
    · rw [if_neg hlast, if_neg hlast, if_neg hlast]

theorem Staged.detach_temporary (h : Staged fs names t bytes x y fs') :
    Staged fs names t bytes none y (fs'.detach names.parent.ino names.temporary) where
  root := root_detach.trans h.root
  new := h.new
  shape j := shape_detach.trans (h.shape j)
  entry d n := by
    rw [entry_detach, h.entry]
    split <;> rfl

/-- **The temporary file gets the name of the destination.** -/
theorem run_commitTemporary (hdir : fs.isDir names.parent.ino = true)
    (hclosed : ∀ i, fs.entry names.parent.ino names.last = some i → fs.shape i ≠ none)
    (h : Staged fs names t bytes (some t) (fs.entry names.parent.ino names.last) fs') :
    Run (fun _ => True) (FileManager.commitTemporary names.parent names.temporary names.last overwrite)
      (fun tr r fs'' =>
        (r = .ok () ∧ Staged fs names t bytes none (some t) fs'' ∧ Replaceable fs names ∧
          ¬Stranded names.temporary tr ∧ Committed names.temporary tr) ∨
        ((∃ e, r = .error e) ∧ Staged fs names t bytes (some t) (fs.entry names.parent.ino names.last) fs'' ∧
          ¬Stranded names.temporary tr ∧ ¬Committed names.temporary tr) ∨
        ((∃ e, r = .error e) ∧ Staged fs names t bytes (some t) (some t) fs'' ∧ Replaceable fs names ∧
          Stranded names.temporary tr)) fs' := by
  have hreplaceable : (∀ j, fs'.entry names.parent.ino names.last = some j → fs'.isDir j = false) →
      Replaceable fs names := by
    intro hfile j hj
    rcases hdir' : fs.isDir j with _ | _
    · rfl
    · have hno := hfile j (h.entry_last.trans hj)
      rw [h.isDir_old hdir'] at hno
      cases hno
  rw [FileManager.commitTemporary]
  split
  · refine run_sys trivial (fun u fs'' hexec => ⟨trivial, .inl ?_⟩) fun e => .inr (.inl ⟨⟨_, rfl⟩, h, ?_⟩)
    · rcases rename_eq_ok hexec h.entry_temporary h.isDir_new with ⟨hsame, -⟩ | ⟨-, -, hfile, rfl⟩
      · -- the destination would be the new file already
        exact absurd h.new (hclosed t (h.entry_last.symm.trans hsame))
      · exact ⟨rfl, h.detach_temporary.attach_last hdir t, hreplaceable hfile, by simp [strands, commits]⟩
    · simp [strands, commits]
  · refine ends_bind (ends_tryCatch (run_sys trivial (fun u fs'' hexec => ⟨trivial, ?_⟩) fun e => ?_))
    · obtain ⟨i, hi, -, -, hvacant, rfl⟩ := link_eq_ok hexec
      obtain rfl := Option.some.inj (h.entry_temporary.symm.trans hi)
      have hlinked := h.attach_last hdir t
      have hnone : Replaceable fs names := hreplaceable fun j hj => by rw [hvacant] at hj; cases hj
      refine run_sys trivial (fun u' fs₃ hexec' => ⟨trivial, .inl ?_⟩) fun e => .inr (.inr ⟨⟨_, rfl⟩, hlinked, hnone, ?_⟩)
      · obtain ⟨j, -, -, rfl⟩ := unlink_eq_ok hexec'
        exact ⟨rfl, hlinked.detach_temporary, hnone, by simp [strands, commits]⟩
      · simp [strands]
    · show Run _ (if _ then _ else _) _ _
      split
      · exact ends_throw trivial (.inr (.inl ⟨⟨_, rfl⟩, h, by simp [strands, commits]⟩))
      · exact ends_throw trivial (.inr (.inl ⟨⟨_, rfl⟩, h, by simp [strands, commits]⟩))

/-- **The temporary file is removed**, unless that fails. -/
theorem run_removeTemporary (h : Staged fs names t bytes x y fs') (hx : x = none ∨ x = some t) :
    Run (fun _ => True) (sys (.rm names.parent names.temporary)) (fun tr _ fs'' =>
      (∃ x', Staged fs names t bytes x' y fs'' ∧ (x' = none ∨ RemovalFailed names.temporary tr)) ∧
        ¬Stranded names.temporary tr ∧ ¬Committed names.temporary tr) fs' := by
  refine run_sys trivial (fun u fs'' hexec => ⟨trivial, ?_⟩) fun e => ?_
  · refine ⟨?_, by simp [strands, commits]⟩
    rcases rm_eq_ok hexec with ⟨i, -, -, rfl⟩ | ⟨rfl, hmissing⟩
    · exact ⟨none, h.detach_temporary, .inl rfl⟩
    · rcases hx with rfl | rfl
      · exact ⟨none, h, .inl rfl⟩
      · -- the file is there, so that it would have been removed
        have hnone := hmissing t h.entry_temporary
        rw [h.shape, if_pos rfl] at hnone
        cases hnone
  · refine ⟨⟨x, h, ?_⟩, by simp [strands, commits]⟩
    exact .inr (by simp [failsToRemove])

/-- Where there is no temporary file, nothing is removed. -/
theorem run_removeNothing (hvacant : fs.entry names.parent.ino names.temporary = none) :
    Run (fun _ => True) (sys (.rm names.parent names.temporary)) (fun tr _ fs' => fs' = fs ∧
      ¬Stranded names.temporary tr ∧ ¬Committed names.temporary tr) fs := by
  refine run_sys trivial (fun u fs' hexec => ⟨trivial, ?_⟩) fun e => ⟨rfl, by simp [strands, commits]⟩
  rcases rm_eq_ok hexec with ⟨i, hi, -, -⟩ | ⟨rfl, -⟩
  · rw [hvacant] at hi
    cases hi
  · exact ⟨rfl, by simp [strands, commits]⟩

end Commit

end BegetBridge.Files
