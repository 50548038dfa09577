import BegetBridge.Files.FileManager

/-!
# The parent directory that is held

When nothing interferes, the directory that a mutation holds is the one that its reference names: it is
reached from the canonical root through directories only. Directories that are missing are made on the way.

## Main definitions

* `Prepared`: a file system after directories were made on the way to a name, and the directory reached

## Main results

* `ends_openMutationParent`: the directory that is held, and what has become of the file system
* `ends_openExistingParent`: the same where no directory is made
-/

namespace BegetBridge.Files

open Posix Interleaving Script

/-- Any call may fail in any way. -/
def AnyFault (_ : Errno) : Prop := True

/-- How the runs of a mutation end. -/
abbrev Run {α : Type} (I : Disk → Prop) (p : FileScript α)
    (Q : List (Entry Syscall Errno) → Except FileError α → Disk → Prop) (fs : Disk) : Prop :=
  Script.Ends posix AnyFault I p Q fs

/-- Since `fs₀` directories were made, and nothing else. -/
structure Grown (fs₀ fs : Disk) : Prop where
  root : fs.root = fs₀.root
  shape : ∀ i, fs₀.shape i ≠ none → fs.shape i = fs₀.shape i
  entry : ∀ d n i, fs₀.entry d n = some i → fs.entry d n = some i

/-- What has become of the names below a directory is what they were in `fs₀`, where that directory is at a
place. -/
structure Prepared (fs₀ fs : Disk) (place : Location) (d : Ino) : Prop extends Grown fs₀ fs where
  follow : fs.follow place = some d
  isDir : fs.isDir d = true
  below : ∀ n rest, List.foldlM fs.entry d (n :: rest) = fs₀.follow (place ++ n :: rest)

section Calls

variable {α : Type} {I : Disk → Prop} {fs fs₀ : Disk} {op : Syscall α}
  {Q : List (Entry Syscall Errno) → Except FileError α → Disk → Prop}

theorem run_sys (hI : I fs)
    (hok : ∀ a fs', Disk.exec op fs = .ok (a, fs') → I fs' ∧ Q [⟨op, .ok a⟩] (.ok a) fs')
    (herror : ∀ e, Q [⟨op, .error e⟩] (.error (.errno e)) fs) : Run I (sys op) Q fs :=
  ends_perform hI hok herror

theorem run_ensure {holds : Bool} {e : Terminal.BridgeError} {Q : List (Entry Syscall Errno) → Except FileError Unit → Disk → Prop}
    (hI : I fs) (hok : holds = true → Q [] (.ok ()) fs) (herror : holds = false → Q [] (.error (.bridge e)) fs) :
    Run I (ensure holds e) Q fs := by
  rw [ensure]
  split
  · rename_i h
    exact ends_pure hI (hok h)
  · rename_i h
    exact ends_throw hI (herror (Bool.eq_false_iff.mpr h))

theorem run_fromPolicy {r : Except Terminal.BridgeError α} (hI : I fs) (hok : ∀ a, r = .ok a → Q [] (.ok a) fs)
    (herror : ∀ e, r = .error e → Q [] (.error (.bridge e)) fs) : Run I (fromPolicy r) Q fs := by
  cases r with
  | ok a => exact ends_pure hI (hok a rfl)
  | error e => exact ends_throw hI (herror e rfl)

/-- After an error comes what is done about it, and then it is thrown. -/
theorem run_onError {p : FileScript α} {cleanup : FileScript Unit}
    (h : Run I p (fun tr r fs' =>
      match r with
      | .ok a => Q tr (.ok a) fs'
      | .error e => Run I cleanup (fun tr' _ fs'' => Q (tr ++ tr') (.error e) fs'') fs') fs) :
    Run I (onError p cleanup) Q fs := by
  refine ends_tryCatch (ends_mono ?_ h)
  rintro tr (e | a) fs' hI hQ
  · refine ends_bind (ends_ignored (ends_mono ?_ hQ))
    intro tr' _ fs'' hI' hQ'
    refine ends_throw hI' ?_
    rw [List.append_nil]
    exact hQ'
  · exact hQ

/-- A file is closed: nothing changes. -/
theorem run_close {file : Handle} {Q : List (Entry Syscall Errno) → Except FileError Unit → Disk → Prop}
    (hI : I fs) (h : ∀ tr r, Q tr r fs) : Run I (sys (.close file)) Q fs := by
  refine run_sys hI (fun a fs' hexec => ?_) fun e => h _ _
  obtain rfl := close_eq_ok hexec
  exact ⟨hI, h _ _⟩

end Calls

section Pinning

variable {policy : PathPolicy} {fs fs₀ : Disk} {handle current : Handle} {root place : Location}
  {segment : Name} {createParents : Bool} {I : Disk → Prop}

/-- A directory that is held below a root. -/
theorem run_assertPinnedDirectory (hI : I fs) :
    Run I (assertPinnedDirectory handle root) (fun _ r fs' => fs' = fs ∧
      (r = .ok () → fs.isDir handle.ino = true ∧
        ∃ place, fs.follow place = some handle.ino ∧ root <+: place)) fs := by
  refine ends_bind (run_sys hI (fun stat fs' hexec => ?_) fun e => ⟨rfl, nofun⟩)
  obtain ⟨rfl, node, hnode, rfl⟩ := fstat_eq_ok hexec
  refine ⟨hI, ends_bind (run_ensure hI (fun hdir => ?_) fun _ => ⟨rfl, nofun⟩)⟩
  refine ends_bind (run_sys hI (fun actual fs'' hexec' => ?_) fun e => ⟨rfl, nofun⟩)
  obtain ⟨rfl, hplace⟩ := realpath_eq_ok hexec'
  refine ⟨hI, run_ensure hI (fun hwithin => ⟨rfl, fun _ => ?_⟩) fun _ => ⟨rfl, nofun⟩⟩
  rw [pinnedWithin, Bool.and_eq_true] at hwithin
  exact ⟨(isDir_of_node hnode).trans hdir, actual, hplace, prefix_of_isWithin hwithin.1⟩

/-- The permissions are looked at, and nothing changes. -/
theorem run_assertSharedUploadParent (hI : I fs) :
    Run I (policy.assertSharedUploadParent handle) (fun _ _ fs' => fs' = fs) fs := by
  rw [PathPolicy.assertSharedUploadParent]
  split
  · exact ends_pure hI rfl
  refine ends_bind (run_sys hI (fun stat fs' hexec => ?_) fun e => rfl)
  obtain ⟨rfl, -⟩ := fstat_eq_ok hexec
  refine ⟨hI, ends_bind (run_ensure hI (fun _ => ?_) fun _ => rfl)⟩
  refine ends_bind (ends_tryCatch (run_sys hI (fun acl fs'' hexec' => ?_) fun e => ?_))
  · obtain rfl := getfacl_eq_ok hexec'
    exact ⟨hI, run_ensure hI (fun _ => rfl) fun _ => rfl⟩
  · exact ends_throw hI rfl

theorem prepared_start {d : Ino} (hfollow : fs.follow place = some d) (hdir : fs.isDir d = true) :
    Prepared fs fs place d where
  root := rfl
  shape _ _ := rfl
  entry _ _ _ h := h
  follow := hfollow
  isDir := hdir
  below n rest := by rw [follow_append, hfollow, Option.bind_some]

/-- What a reference names has stayed as it was. -/
theorem Prepared.destination {d : Ino} {rest : Location} (h : Prepared fs₀ fs place d) (hne : rest ≠ []) :
    fs.follow (place ++ rest) = fs₀.follow (place ++ rest) := by
  rw [follow_append, h.follow, Option.bind_some]
  cases rest with
  | nil => exact absurd rfl hne
  | cons n rest => exact h.below n rest

theorem Prepared.entry_eq {d : Ino} {n : Name} (h : Prepared fs₀ fs place d) :
    fs.entry d n = fs₀.follow (place ++ [n]) := by
  rw [← h.below n []]
  exact (Option.bind_fun_some _).symm

/-- A directory is made on the way. -/
theorem Prepared.made {fs' : Disk} (h : Prepared fs₀ fs place current.ino)
    (hmade : Disk.Made fs fs' current segment (.dir 0 [] ∅)) :
    Grown fs₀ fs' ∧ fs'.follow place = some current.ino ∧ fs'.isDir current.ino = true ∧
      fs'.entry current.ino segment = some fs.fresh ∧ (∀ n, fs'.entry fs.fresh n = none) ∧
      ∀ rest, fs₀.follow (place ++ segment :: rest) = none := by
  have hentry : ∀ d n i, fs.entry d n = some i → fs'.entry d n = some i := by
    intro d n i hi
    rw [hmade.entry, if_neg, hi]
    rintro ⟨rfl, rfl⟩
    rw [hmade.vacant] at hi
    cases hi
  have hshape : ∀ i, fs.shape i ≠ none → fs'.shape i = fs.shape i := by
    intro i hi
    rw [hmade.shape, if_neg]
    rintro rfl
    exact hi shape_fresh
  have hdir : ∀ i, fs.isDir i = true → fs'.isDir i = true := by
    intro i hi
    have hsome : fs.shape i ≠ none := by
      intro hnone
      have hnode : fs.node i = none := Option.map_eq_none_iff.mp hnone
      rw [Disk.isDir, entries_eq, hnode] at hi
      cases hi
    rw [isDir_of_shape (hshape i hsome), hi]
  refine ⟨⟨hmade.root.trans h.root, fun i hi => ?_, fun d n i hi => hentry d n i (h.entry d n i hi)⟩,
    follow_of_entries hmade.root (fun d n i hi _ => hentry d n i hi) h.follow h.isDir,
    hdir _ h.isDir, ?_, fun n => ?_, fun rest => ?_⟩
  · rw [hshape i (by rw [h.shape i hi]; exact hi), h.shape i hi]
  · rw [hmade.entry, if_pos ⟨rfl, rfl⟩]
  · rw [hmade.entry, if_neg, Disk.entry, entries_eq, node_fresh]
    · rfl
    · rintro ⟨hcurrent, -⟩
      have hdir := hmade.isDir
      rw [← hcurrent, Disk.isDir, entries_eq, node_fresh] at hdir
      cases hdir
  · rw [← h.below segment rest, List.foldlM_cons, hmade.vacant]
    rfl

/-- Directories are made only where that is asked for. -/
def Spared (createParents : Bool) (fs₀ fs : Disk) : Prop := Grown fs₀ fs ∧ (createParents = false → fs = fs₀)

/-- A name on the way is ready to be opened: what is below it is what was there. -/
structure Ready (createParents : Bool) (fs₀ fs : Disk) (place : Location) (segment : Name) (d : Ino) : Prop where
  spared : Spared createParents fs₀ fs
  destination : ∀ rest, rest ≠ [] → fs.follow (place ++ segment :: rest) = fs₀.follow (place ++ segment :: rest)
  next : ∀ i, fs.entry d segment = some i → fs.isDir i = true → Prepared fs₀ fs (place ++ [segment]) i

theorem Prepared.ready {d : Ino} (h : Prepared fs₀ fs place d) (hspared : createParents = false → fs = fs₀) :
    Ready createParents fs₀ fs place segment d where
  spared := ⟨h.toGrown, hspared⟩
  destination rest _ := h.destination (List.cons_ne_nil _ _)
  next i hi hdir :=
    { toGrown := h.toGrown
      follow := by rw [follow_snoc, h.follow, Option.bind_some, hi]
      isDir := hdir
      below := by
        intro n rest
        have hbelow := h.below segment (n :: rest)
        rw [List.foldlM_cons, hi] at hbelow
        rw [List.append_assoc]
        exact hbelow }

theorem Prepared.ready_made {fs' : Disk} (h : Prepared fs₀ fs place current.ino)
    (hmade : Disk.Made fs fs' current segment (.dir 0 [] ∅)) : Ready true fs₀ fs' place segment current.ino := by
  obtain ⟨hgrown, hfollow, hdir, hentry, hempty, hnone⟩ := h.made hmade
  -- nothing is below a directory that was made just now
  have hbelow : ∀ n rest, List.foldlM fs'.entry fs.fresh (n :: rest) = none := by
    intro n rest
    rw [List.foldlM_cons, hempty]
    rfl
  refine ⟨⟨hgrown, nofun⟩, fun rest hne => ?_, fun i hi hdir' => ⟨hgrown, ?_, hdir', fun n rest => ?_⟩⟩
  · rw [hnone, follow_append, hfollow, Option.bind_some, List.foldlM_cons, hentry]
    cases rest with
    | nil => exact absurd rfl hne
    | cons n rest => exact hbelow n rest
  · rw [follow_snoc, hfollow, Option.bind_some, hi]
  · obtain rfl := Option.some.inj (hentry.symm.trans hi)
    rw [hbelow, List.append_assoc]
    exact (hnone _).symm

/-- Before a name on the way is opened, it may be made. -/
theorem run_makeParent (hprep : Prepared fs₀ fs place current.ino) (hspared : createParents = false → fs = fs₀)
    (hI : ∀ fs', Spared createParents fs₀ fs' → I fs') :
    Run I (provided createParents (do
        policy.assertSharedUploadParent current
        makeDirectory current segment policy.shared)) (fun _ _ fs' => Ready createParents fs₀ fs' place segment current.ino) fs := by
  have hready : Ready createParents fs₀ fs place segment current.ino := hprep.ready hspared
  have hhere : I fs := hI fs hready.spared
  rw [provided]
  split
  · rename_i hcreate
    refine ends_bind (ends_mono ?_ (run_assertSharedUploadParent hhere))
    rintro tr (e | u) fs' - rfl
    · exact hready
    refine ends_tryCatch (run_sys hhere (fun u fs'' hexec => ?_) fun e => ?_)
    · have hmade := hprep.ready_made (mkdir_eq_ok hexec)
      rw [hcreate]
      exact ⟨hI _ (hcreate ▸ hmade.spared), hmade⟩
    · show Run I (if _ then _ else _) _ _
      split
      · exact ends_pure hhere hready
      · exact ends_throw hhere hready
  · exact ends_pure hhere hready

/-- **One segment on the way to the parent.** -/
theorem run_descendOnce (hprep : Prepared fs₀ fs place current.ino) (hspared : createParents = false → fs = fs₀)
    (hI : ∀ fs', Spared createParents fs₀ fs' → I fs') :
    Run I (policy.descendOnce root createParents current segment) (fun _ r fs' =>
      Spared createParents fs₀ fs' ∧
      (∀ rest, rest ≠ [] → fs'.follow (place ++ segment :: rest) = fs₀.follow (place ++ segment :: rest)) ∧
      ∀ next, r = .ok next → Prepared fs₀ fs' (place ++ [segment]) next.ino) fs := by
  refine ends_bind (ends_mono ?_ (run_makeParent hprep hspared hI))
  rintro tr (e | u) fs' hhere hready
  · exact ⟨hready.spared, hready.destination, nofun⟩
  refine ends_bind (ends_tryCatch (run_sys hhere (fun next fs'' hexec => ?_) fun e => ?_))
  · obtain ⟨rfl, hentry, hdir⟩ := openDirectoryAt_eq_ok hexec
    refine ⟨hhere, ends_bind (ends_mono ?_ (run_assertPinnedDirectory hhere))⟩
    rintro tr' (e | u') fs''' - ⟨rfl, -⟩
    · exact ⟨hready.spared, hready.destination, nofun⟩
    refine ends_bind (run_sys hhere (fun u fs'' hclose => ?_) fun e =>
      ⟨hready.spared, hready.destination, nofun⟩)
    obtain rfl := close_eq_ok hclose
    refine ⟨hhere, ends_pure hhere ⟨hready.spared, hready.destination, fun next' hnext => ?_⟩⟩
    obtain rfl := Except.ok.inj hnext
    exact hready.next _ hentry hdir
  · show Run I (if _ then _ else _) _ _
    split
    · exact ends_throw hhere ⟨hready.spared, hready.destination, nofun⟩
    · exact ends_throw hhere ⟨hready.spared, hready.destination, nofun⟩

/-- The way to the parent, by induction on what is left of it. -/
theorem run_descend {names : List Name} (hprep : Prepared fs₀ fs place current.ino)
    (hspared : createParents = false → fs = fs₀) (hI : ∀ fs', Spared createParents fs₀ fs' → I fs') :
    Run I (policy.descend root createParents current names) (fun _ r fs' =>
      Spared createParents fs₀ fs' ∧
      (∀ rest, rest ≠ [] → fs'.follow (place ++ names ++ rest) = fs₀.follow (place ++ names ++ rest)) ∧
      ∀ parent, r = .ok parent → Prepared fs₀ fs' (place ++ names) parent.ino) fs := by
  induction names generalizing fs place current with
  | nil =>
    refine ends_pure (hI fs ⟨hprep.toGrown, hspared⟩) ⟨⟨hprep.toGrown, hspared⟩, fun rest hne => ?_,
      fun parent hparent => ?_⟩
    · rw [List.append_nil]
      exact hprep.destination hne
    · obtain rfl := Except.ok.inj hparent
      rwa [List.append_nil]
  | cons segment names ih =>
    have hassoc : place ++ segment :: names = place ++ [segment] ++ names := by rw [List.append_assoc]; rfl
    refine ends_bind (run_onError (ends_mono ?_ (run_descendOnce hprep hspared hI)))
    rintro tr (e | next) fs' hhere ⟨hspared', hdest, hnext⟩
    · refine run_close hhere fun _ _ => ⟨hspared', fun rest hne => ?_, nofun⟩
      rw [List.append_assoc]
      exact hdest (names ++ rest) (by simp [hne])
    · rw [hassoc]
      exact ih (hnext next rfl) hspared'.2

theorem displayPath_eq {reference : Reference} (hne : reference.segments ≠ []) :
    reference.displayPath = reference.root ++ reference.parents ++ [reference.last] := by
  rw [Reference.displayPath, Reference.parents, Reference.last, List.append_assoc,
    List.getLastD_eq_getLast?, List.getLast?_eq_some_getLast hne, Option.getD_some,
    List.dropLast_append_getLast hne]

/-- **The directory that is held** is the parent that the reference names. -/
theorem run_openMutationParent {reference : Reference} (hroot : ∀ n ∈ reference.root, n.Valid)
    (hI : ∀ fs', Spared createParents fs fs' → I fs') :
    Run I (policy.openMutationParent reference createParents) (fun _ r fs' =>
      Spared createParents fs fs' ∧
      (∀ n, fs'.follow (reference.root ++ reference.parents ++ [n]) =
        fs.follow (reference.root ++ reference.parents ++ [n])) ∧
      ∀ pinned, r = .ok pinned → pinned.name = reference.last ∧
        Prepared fs fs' (reference.root ++ reference.parents) pinned.parent.ino) fs := by
  have hsame : Spared createParents fs fs := ⟨⟨rfl, fun _ _ => rfl, fun _ _ _ h => h⟩, fun _ => rfl⟩
  have hhere : I fs := hI fs hsame
  refine ends_bind (run_sys hhere (fun current fs' hexec => ?_) fun e => ⟨hsame, fun _ => rfl, nofun⟩)
  obtain ⟨rfl, -, hopened⟩ := openDirectory_eq_ok hroot hexec
  refine ⟨hhere, ends_bind (run_onError (ends_mono ?_ (run_assertPinnedDirectory hhere)))⟩
  rintro tr (e | u) fs' - ⟨rfl, hpinned⟩
  · exact run_close hhere fun _ _ => ⟨hsame, fun _ => rfl, nofun⟩
  obtain ⟨hdir, at', hat, below, rfl⟩ := hpinned rfl
  -- the root is on the way to the directory, so that it has no links
  have hplace : fs'.Place reference.root := by
    cases below with
    | nil =>
      obtain ⟨entries, he⟩ := Option.isSome_iff_exists.mp hdir
      rw [List.append_nil] at hat
      exact ⟨_, hat, real_of_entries he⟩
    | cons n below =>
      obtain ⟨d, entries, hd, he⟩ := follow_above hat
      exact ⟨d, hd, real_of_entries he⟩
  refine ends_bind (ends_mono ?_ (run_descend
    (prepared_start (hopened hplace) hdir) (fun _ => rfl) hI))
  rintro tr' (e | parent) fs'' hhere' ⟨hspared, hdest, hparent⟩
  · exact ⟨hspared, fun n => hdest [n] (List.cons_ne_nil _ _), nofun⟩
  refine ends_bind (ends_mono (Q := fun _ _ fs' => fs' = fs'') ?_ ?_)
  · rintro tr'' (e | u') fs''' - rfl
    · exact ⟨hspared, fun n => hdest [n] (List.cons_ne_nil _ _), nofun⟩
    · refine ends_pure hhere' ⟨hspared, fun n => hdest [n] (List.cons_ne_nil _ _), fun pinned hp => ?_⟩
      obtain rfl := Except.ok.inj hp
      exact ⟨rfl, hparent parent rfl⟩
  · rw [provided]
    split
    · refine run_onError (ends_mono ?_ (run_assertSharedUploadParent hhere'))
      rintro tr'' (e | u') fs''' - rfl
      · exact run_close hhere' fun _ _ => rfl
      · rfl
    · exact ends_pure hhere' rfl

/-- **An existing parent**: nothing changes. -/
theorem run_openExistingParent {reference : Reference} (hroot : ∀ n ∈ reference.root, n.Valid) (hI : I fs) :
    Run I (policy.openMutationParent reference false) (fun _ r fs' => fs' = fs ∧
      ∀ pinned, r = .ok pinned → pinned.name = reference.last ∧ fs.isDir pinned.parent.ino = true ∧
        fs.follow (reference.root ++ reference.parents) = some pinned.parent.ino) fs := by
  refine ends_mono ?_ (run_openMutationParent hroot fun fs' hspared => ?_)
  · rintro tr r fs' - ⟨hspared, -, hpinned⟩
    obtain rfl := hspared.2 rfl
    refine ⟨rfl, fun pinned hp => ?_⟩
    obtain ⟨hname, hprep⟩ := hpinned pinned hp
    exact ⟨hname, hprep.isDir, hprep.follow⟩
  · obtain rfl := hspared.2 rfl
    exact hI

end Pinning

end BegetBridge.Files
