import BegetBridge.Posix.Syscall

/-!
# What a call changes

Every call names the entries that it may create, replace or remove. The entries elsewhere stay.

## Main definitions

* `targets`: the names that a call may change

## Main results

* `entry_changed`: a call changes its targets only
-/

namespace Posix

open Relational Interleaving

/-- The names that a call may create, replace or remove. -/
def targets {γ : Type} : Syscall γ → List (Handle × Name)
  | .mkdir dir n _ => [(dir, n)]
  | .create dir n => [(dir, n)]
  | .link _ _ dir n => [(dir, n)]
  | .rename dir n dir' n' => [(dir, n), (dir', n')]
  | .unlink dir n => [(dir, n)]
  | .rmdir dir n => [(dir, n)]
  | .rm dir n => [(dir, n)]
  | _ => []

section Targets

variable {fs fs' : Disk} {d : Ino} {n : Name} {dir dir' : Handle} {m m' : Name}

theorem entry_of_attach {i : Ino} (h : (fs.attach dir.ino m i).entry d n ≠ fs.entry d n) : d = dir.ino ∧ n = m := by
  by_contra hno
  refine h ?_
  rw [Disk.entry, Disk.entry, Disk.attach, entries_setEntries]
  by_cases hd : d = dir.ino
  · rw [if_pos hd, hd]
    rcases fs.entries dir.ino with _ | entries
    · rfl
    · exact AList.lookup_insert_ne fun hn => hno ⟨hd, hn⟩
  · rw [if_neg hd]

theorem entry_of_detach (h : (fs.detach dir.ino m).entry d n ≠ fs.entry d n) : d = dir.ino ∧ n = m := by
  by_contra hno
  exact h (by rw [entry_detach, if_neg hno])

/-- A directory that goes to another place keeps its own names. -/
theorem entry_of_renameDirectory {i : Ino} {target : Option Node} {u : Unit}
    (h : fs.renameDirectory i dir m dir' m' target = .ok (u, fs')) (hne : fs'.entry d n ≠ fs.entry d n) :
    (d = dir.ino ∧ n = m) ∨ d = dir'.ino ∧ n = m' := by
  have hmoved : fs' = Disk.renameDirectory.moved fs i dir m dir' m' := by
    rw [Disk.renameDirectory] at h
    split at h
    · cases h
    split at h
    · split at h
      · exact ((Prod.mk.inj (Except.ok.inj h)).2).symm
      · cases h
    · cases h
    · exact ((Prod.mk.inj (Except.ok.inj h)).2).symm
  subst hmoved
  rw [Disk.renameDirectory.moved] at hne
  split at hne
  · rename_i node hnode
    split at hne
    · rename_i parent name entries hkind
      by_contra hno
      rw [not_or] at hno
      -- the two names apart, only the place that the directory says has changed
      have hset : ((fs.detach dir.ino m).setNode i { node with kind := .dir dir'.ino m' entries }).entry d n =
          (fs.detach dir.ino m).entry d n := by
        rw [Disk.entry, Disk.entry, entries_setNode]
        split
        · rename_i hd
          rw [hd, entries_eq, hnode, Option.bind_some, Node.entries, Node.entries, hkind]
        · rfl
      refine hne ?_
      have hattach : ∀ fs₁ : Disk, (fs₁.attach dir'.ino m' i).entry d n = fs₁.entry d n := by
        intro fs₁
        by_contra h₁
        exact hno.2 (entry_of_attach h₁)
      rw [hattach, hset, entry_detach, if_neg hno.1]
    · exact absurd rfl hne
  · exact absurd rfl hne

theorem entry_of_unlink {u : Unit} (h : Disk.exec (.unlink dir m) fs = .ok (u, fs'))
    (hne : fs'.entry d n ≠ fs.entry d n) : d = dir.ino ∧ n = m := by
  obtain ⟨i, -, -, rfl⟩ := unlink_eq_ok h
  exact entry_of_detach hne

/-- **A call changes its targets only.** -/
theorem entry_changed {γ : Type} {op : Syscall γ} {r : Except Errno γ} {Fault : Errno → Prop}
    (h : Answer posix Fault op fs r fs') (hne : fs'.entry d n ≠ fs.entry d n) : (⟨d⟩, n) ∈ targets op := by
  cases h with
  | refusal _ => exact absurd rfl hne
  | fault _ => exact absurd rfl hne
  | effect h =>
    change Disk.exec op fs = _ at h
    cases op with
    | openDirectory path =>
      change fs.openDirectory path = _ at h
      exfalso
      refine hne ?_
      rw [Disk.openDirectory] at h
      split at h
      · cases h
      split at h
      · cases h
      · cases h
      split at h
      · split at h
        · obtain ⟨-, rfl⟩ := Prod.mk.inj (Except.ok.inj h)
          rfl
        · cases h
      · cases h
    | openDirectoryAt dir m => exact absurd rfl ((openDirectoryAt_eq_ok h).1 ▸ hne)
    | openFileAt dir m => exact absurd rfl ((openFileAt_eq_ok h).1 ▸ hne)
    | fstat file => exact absurd rfl ((fstat_eq_ok h).1 ▸ hne)
    | realpath dir => exact absurd rfl ((realpath_eq_ok h).1 ▸ hne)
    | getfacl dir => exact absurd rfl (getfacl_eq_ok h ▸ hne)
    | lstat dir m => exact absurd rfl ((lstat_eq_ok h).1 ▸ hne)
    | statfs dir => exact absurd rfl (statfs_eq_ok h ▸ hne)
    | close file => exact absurd rfl (close_eq_ok h ▸ hne)
    | write file bytes =>
      obtain ⟨-, -, -, hentry, -⟩ := write_eq_ok h
      exact absurd (hentry d n) hne
    | copyData source file =>
      obtain ⟨-, -, -, hentry, -⟩ := copyData_eq_ok h
      exact absurd (hentry d n) hne
    | mkdir dir m isolated =>
      rw [(mkdir_eq_ok h).entry] at hne
      split at hne
      · rename_i heq
        exact List.mem_singleton.mpr (by rw [heq.1, heq.2])
      · exact absurd rfl hne
    | create dir m =>
      rw [(create_eq_ok h).2.entry] at hne
      split at hne
      · rename_i heq
        exact List.mem_singleton.mpr (by rw [heq.1, heq.2])
      · exact absurd rfl hne
    | link dir m dir' m' =>
      obtain ⟨i, -, -, -, -, rfl⟩ := link_eq_ok h
      obtain ⟨rfl, rfl⟩ := entry_of_attach hne
      exact List.mem_singleton.mpr rfl
    | rename dir m dir' m' =>
      change fs.rename dir m dir' m' = _ at h
      have htargets : (d = dir.ino ∧ n = m) ∨ (d = dir'.ino ∧ n = m') →
          ((⟨d⟩, n) : Handle × Name) ∈ targets (.rename dir m dir' m') := by
        rintro (⟨rfl, rfl⟩ | ⟨rfl, rfl⟩)
        · exact List.mem_cons_self
        · exact List.mem_cons_of_mem _ List.mem_cons_self
      refine htargets ?_
      rw [Disk.rename] at h
      split at h
      · cases h
      split at h
      · cases h
      split at h
      · obtain ⟨-, rfl⟩ := Prod.mk.inj (Except.ok.inj h)
        exact absurd rfl hne
      split at h
      · cases h
      simp only at h
      split at h
      · exact entry_of_renameDirectory h hne
      split at h
      · cases h
      · obtain ⟨-, rfl⟩ := Prod.mk.inj (Except.ok.inj h)
        by_contra hno
        rw [not_or] at hno
        refine hne ?_
        by_contra h₁
        rcases Decidable.em ((fs.detach dir.ino m).entry d n = fs.entry d n) with hsame | hother
        · rw [← hsame] at h₁
          exact hno.2 (entry_of_attach h₁)
        · exact hno.1 (entry_of_detach hother)
    | unlink dir m =>
      obtain ⟨rfl, rfl⟩ := entry_of_unlink h hne
      exact List.mem_singleton.mpr rfl
    | rmdir dir m =>
      change fs.rmdir dir m = _ at h
      rw [Disk.rmdir] at h
      split at h
      · cases h
      split at h
      · split at h
        · obtain ⟨-, rfl⟩ := Prod.mk.inj (Except.ok.inj h)
          obtain ⟨rfl, rfl⟩ := entry_of_detach hne
          exact List.mem_singleton.mpr rfl
        · cases h
      · cases h
    | rm dir m =>
      rcases rm_eq_ok h with ⟨i, -, -, rfl⟩ | ⟨rfl, -⟩
      · obtain ⟨rfl, rfl⟩ := entry_of_detach hne
        exact List.mem_singleton.mpr rfl
      · exact absurd rfl hne

end Targets

end Posix
