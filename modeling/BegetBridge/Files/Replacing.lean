import BegetBridge.Files.Transfer
import BegetBridge.Posix.Targets

/-!
# What is there is not replaced

Without overwriting, a transfer gives its file a name by a call that refuses a name in use. So no entry that
is there when a call is made is changed, whoever has made it, and no file but the transfer's own is written.

## Main definitions

* `Careful`: a call that leaves what is there

## Main results

* `careful_transfers`: transfers without overwriting perform careful calls only
* `transfer_atomic`: what holds of uploads and copies
-/

namespace BegetBridge.Files

open Posix Interleaving Script

/-- In every file system, the call leaves all entries but temporary ones, and all nodes but those that the
transfer has made. -/
def Careful (temporary : Name) {γ : Type} (op : Syscall γ) (n : Held) : Prop :=
  ∀ fs r fs', Answer posix AnyFault op fs r fs' →
    (∀ d name i, name ≠ temporary → fs.entry d name = some i → fs'.entry d name = some i) ∧
    ∀ i, ⟨i⟩ ∉ n.made → fs.shape i ≠ none → fs'.shape i = fs.shape i

section Careful

variable {fs fs' : Disk} {temporary : Name} {n : Held} {dir dir' : Handle} {name name' : Name} {γ : Type}
  {reference : Reference}

/-- A call that only looks changes nothing. -/
theorem looks_same {op : Syscall γ} {r : Except Errno γ} (hlooks : Looks op)
    (h : Answer posix AnyFault op fs r fs') : fs' = fs := by
  cases h with
  | refusal _ => rfl
  | fault _ => rfl
  | effect h =>
    change Disk.exec op fs = _ at h
    cases op
    case openDirectory =>
      change fs.openDirectory _ = _ at h
      rw [Disk.openDirectory] at h
      split at h
      · cases h
      split at h
      · cases h
      · cases h
      split at h
      · split at h
        · exact ((Prod.mk.inj (Except.ok.inj h)).2).symm
        · cases h
      · cases h
    case openDirectoryAt => exact (openDirectoryAt_eq_ok h).1
    case openFileAt => exact (openFileAt_eq_ok h).1
    case fstat => exact (fstat_eq_ok h).1
    case realpath => exact (realpath_eq_ok h).1
    case getfacl => exact getfacl_eq_ok h
    case lstat => exact (lstat_eq_ok h).1
    case statfs => exact statfs_eq_ok h
    case close => exact close_eq_ok h
    all_goals exact hlooks.elim

theorem careful_looks {op : Syscall γ} (hlooks : Looks op) : Careful temporary op n := by
  intro fs r fs' h
  obtain rfl := looks_same hlooks h
  exact ⟨fun _ _ _ _ hi => hi, fun _ _ _ => rfl⟩

/-- What a call does that takes effect, where the others are harmless. -/
theorem careful_of_effect {op : Syscall γ}
    (h : ∀ fs a fs', Disk.exec op fs = .ok (a, fs') →
      (∀ d name i, name ≠ temporary → fs.entry d name = some i → fs'.entry d name = some i) ∧
      ∀ i, ⟨i⟩ ∉ n.made → fs.shape i ≠ none → fs'.shape i = fs.shape i) : Careful temporary op n := by
  intro fs r fs' hans
  cases hans with
  | effect hexec => exact h _ _ _ hexec
  | refusal _ => exact ⟨fun _ _ _ _ hi => hi, fun _ _ _ => rfl⟩
  | fault _ => exact ⟨fun _ _ _ _ hi => hi, fun _ _ _ => rfl⟩

/-- A node that is made gets a name that was free. -/
theorem Disk.Made.careful {kind : Kind} (h : Disk.Made fs fs' dir name kind) :
    (∀ d name' i, name' ≠ temporary → fs.entry d name' = some i → fs'.entry d name' = some i) ∧
      ∀ i, ⟨i⟩ ∉ n.made → fs.shape i ≠ none → fs'.shape i = fs.shape i := by
  refine ⟨fun d name' i _ hi => ?_, fun i _ hi => ?_⟩
  · rw [h.entry, if_neg, hi]
    rintro ⟨rfl, rfl⟩
    rw [h.vacant] at hi
    cases hi
  · rw [h.shape, if_neg]
    rintro rfl
    exact hi shape_fresh

/-- Writing changes the file that is written. -/
theorem careful_write {file : Handle} {bytes : List UInt8} (hfile : file ∈ n.made) :
    Careful temporary (.write file bytes) n := by
  refine careful_of_effect fun fs a fs' hexec => ?_
  obtain ⟨before, -, -, hentry, hshape⟩ := write_eq_ok hexec
  refine ⟨fun d name i _ hi => (hentry d name).trans hi, fun i hno _ => ?_⟩
  rw [hshape, if_neg]
  rintro rfl
  exact hno hfile

theorem careful_copyData {source file : Handle} (hfile : file ∈ n.made) :
    Careful temporary (.copyData source file) n := by
  refine careful_of_effect fun fs a fs' hexec => ?_
  obtain ⟨bytes, -, -, hentry, hshape⟩ := copyData_eq_ok hexec
  refine ⟨fun d name i _ hi => (hentry d name).trans hi, fun i hno _ => ?_⟩
  rw [hshape, if_neg]
  rintro rfl
  exact hno hfile

/-- A link takes a name that is free. -/
theorem careful_link : Careful temporary (.link dir name dir' name') n := by
  refine careful_of_effect fun fs a fs' hexec => ?_
  obtain ⟨i, -, -, hdir, hvacant, rfl⟩ := link_eq_ok hexec
  refine ⟨fun d name'' j _ hj => ?_, fun j _ _ => shape_attach⟩
  rw [entry_attach hdir, if_neg, hj]
  rintro ⟨rfl, rfl⟩
  rw [hvacant] at hj
  cases hj

/-- A temporary name is removed, and no other one. -/
theorem careful_detach : (∀ d name i, name ≠ temporary → fs.entry d name = some i →
      (fs.detach dir.ino temporary).entry d name = some i) ∧
    ∀ i, ⟨i⟩ ∉ n.made → fs.shape i ≠ none → (fs.detach dir.ino temporary).shape i = fs.shape i := by
  refine ⟨fun d name i hne hi => ?_, fun i _ _ => shape_detach⟩
  rw [entry_detach, if_neg fun heq => hne heq.2, hi]

theorem careful_unlink : Careful temporary (.unlink dir temporary) n := by
  refine careful_of_effect fun fs a fs' hexec => ?_
  obtain ⟨i, -, -, rfl⟩ := unlink_eq_ok hexec
  exact careful_detach

theorem careful_rm : Careful temporary (.rm dir temporary) n := by
  refine careful_of_effect fun fs a fs' hexec => ?_
  rcases rm_eq_ok hexec with ⟨i, -, -, rfl⟩ | ⟨rfl, -⟩
  · exact careful_detach
  · exact ⟨fun _ _ _ _ hi => hi, fun _ _ _ => rfl⟩

theorem careful_licence (root : Location) (temporary : Name) :
    Licence (fun {_} => Careful temporary) root temporary where
  looks _ _ h := careful_looks h
  mkdir _ _ := careful_of_effect fun _ _ _ hexec => Disk.Made.careful (mkdir_eq_ok hexec)
  create _ := careful_of_effect fun _ _ _ hexec => Disk.Made.careful (create_eq_ok hexec).2
  write hfile := careful_write hfile
  copyData hfile := careful_copyData hfile

/-- **Transfers without overwriting are careful.** -/
theorem careful_transfers (reference : Reference) (temporary : Name) :
    Transfers (fun {_} => Careful temporary) reference temporary false where
  toLicence := careful_licence reference.root temporary
  commit _ := by
    refine along_bind (permit_rethrow (fun e n hQ => ?_) (along_mono ?_ (permit_call careful_link)))
    · show Permit _ (if _ then _ else _) _ _
      split
      · exact along_throw (hQ e)
      · exact along_throw (hQ e)
    · rintro (e | u) n₁ hle
      · exact fun _ => hle
      · exact along_mono (fun _ _ h => hle.trans h) (permit_call careful_unlink)
  rm _ := careful_rm

/-- **Uploads and copies are all or nothing**: an upload keeps its promise unless a call fails after its commit,
and a copy unless its temporary file cannot be unlinked after its commit. Without overwriting, neither of them
performs a call that changes an entry that is there, but for the temporary one. -/
theorem transfer_atomic (m : FileManager) (hclosed : Closed fs) :
    (∀ (δ : Type) (sha256 : List UInt8 → δ) active request candidate reference overwrite temporary tr r fs',
      m.pathPolicy.mutation candidate = .ok reference → fs.follow (temporaryPath reference temporary) = none →
      temporary ≠ reference.last →
      Runs posix AnyFault (m.upload sha256 active request candidate overwrite temporary).run fs tr r fs' →
      (UploadKept sha256 m request fs reference temporary tr r fs' ↔
        ¬(Stranded temporary tr ∨ Unclosed temporary tr))) ∧
    (∀ a b from' to' overwrite temporary tr r fs',
      m.pathPolicy.mutation a = .ok from' → m.pathPolicy.mutation b = .ok to' →
      fs.follow (temporaryPath to' temporary) = none → temporary ≠ to'.last →
      Runs posix AnyFault (m.copy a b overwrite temporary).run fs tr r fs' →
      (CopyKept fs from' to' temporary tr r fs' ↔ ¬Stranded temporary tr)) ∧
    (∀ (δ : Type) (sha256 : List UInt8 → δ) active request candidate temporary,
      (m.upload sha256 active request candidate false temporary).run.Along (fun {_} => Careful temporary) noteHeld
        (fun _ _ => True) ⟨[], []⟩) ∧
    ∀ a b temporary, (m.copy a b false temporary).run.Along (fun {_} => Careful temporary) noteHeld
      (fun _ _ => True) ⟨[], []⟩ := by
  refine ⟨?_, ?_, ?_, ?_⟩
  · intro δ sha256 active request candidate reference overwrite temporary tr r fs' href hvacant hne hrun
    exact upload_atomic hclosed href hvacant hne hrun
  · intro a b from' to' overwrite temporary tr r fs' hfrom hto hvacant hne hrun
    exact copy_atomic hclosed hfrom hto hvacant hne hrun
  · intro δ sha256 active request candidate temporary
    exact permit_upload fun reference _ => careful_transfers reference temporary
  · intro a b temporary
    exact permit_copy (fun reference _ => careful_licence reference.root temporary)
      fun reference _ => careful_transfers reference temporary

/-- The upload of one byte to `/r/a`. -/
def sampleUpload : FileScript (FileManager.Uploaded Unit) :=
  sampleManager.upload (fun _ => ()) 0 ⟨none, [[7]], false⟩ "/r/a".toList false ['t']

/-- What was uploaded is not replaced by the same upload. -/
example : (sampleUpload.run.eval posix (sampleUpload.run.eval posix (rootedDisk [])).2).1.isOk = false := by
  decide +kernel

theorem rootedDisk_closed : Closed (rootedDisk []) := by
  intro d n i hi
  obtain ⟨entries, hentries, hlookup⟩ := Option.bind_eq_some_iff.mp hi
  match d with
  | 0 =>
    obtain rfl : [⟨['r'], 1⟩].toAList = entries := Option.some.inj hentries
    by_cases hn : n = ['r']
    · subst hn
      obtain rfl : 1 = i := Option.some.inj hlookup
      decide +kernel
    · rw [AList.lookup_to_alist, List.dlookup_cons_ne _ _ hn] at hlookup
      cases hlookup
  | 1 =>
    obtain rfl : [].toAList = entries := Option.some.inj hentries
    cases hlookup
  | 2 => cases hentries
  | d + 3 =>
    have hnode : (rootedDisk []).node (d + 3) = none := by
      rw [Disk.node, rootedDisk, AList.lookup_to_alist]
      simp [List.dlookup]
    rw [entries_eq, hnode] at hentries
    cases hentries

/-- Where no call fails, the byte is delivered. -/
theorem transfer_atomic_upload : Delivered ⟨[['r']], [['a']]⟩ ['t'] [7]
    (sampleUpload.run.planned posix [] (rootedDisk [])).2.2 := by
  have hresult : (sampleUpload.run.planned posix [] (rootedDisk [])).2.1 = .ok ⟨[['r'], ['a']], 1, ()⟩ := by
    decide +kernel
  have hkept : UploadKept (fun _ => ()) sampleManager ⟨none, [[7]], false⟩ (rootedDisk []) ⟨[['r']], [['a']]⟩ ['t']
      (sampleUpload.run.planned posix [] (rootedDisk [])).1 (sampleUpload.run.planned posix [] (rootedDisk [])).2.1
      (sampleUpload.run.planned posix [] (rootedDisk [])).2.2 :=
    ((transfer_atomic sampleManager rootedDisk_closed).1 Unit (fun _ => ()) 0 ⟨none, [[7]], false⟩
      "/r/a".toList ⟨[['r']], [['a']]⟩ false ['t'] _ _ _ (by decide +kernel) (by decide +kernel) (by decide)
      (Prog.planned_runs (fun _ => trivial) _ [] _)).mpr (by decide +kernel)
  rw [hresult] at hkept
  exact hkept.2.1

/-- The temporary file was linked to the destination and cannot be unlinked: the upload throws, and the
destination has the byte. -/
theorem upload_stranded : ∃ tr e fs', Runs posix AnyFault sampleUpload.run (rootedDisk []) tr (.error e) fs' ∧
    (rootedDisk []).follow [['r'], ['a']] = none ∧
      ∃ i, fs'.follow [['r'], ['a']] = some i ∧ fs'.bytes i = some [7] := by
  have hrun : Runs posix AnyFault sampleUpload.run (rootedDisk []) _ _ _ :=
    Prog.planned_runs (fun _ => trivial) _ (List.replicate 7 none ++ [some .other]) _
  have hresult : (sampleUpload.run.planned posix (List.replicate 7 none ++ [some .other]) (rootedDisk [])).2.1 =
      .error (.errno .other) := by decide +kernel
  rw [hresult] at hrun
  exact ⟨_, _, _, hrun, by decide +kernel, 3, by decide +kernel, by decide +kernel⟩

end Careful

end BegetBridge.Files
