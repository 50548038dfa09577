import BegetBridge.Files.Licence
import BegetBridge.Files.Move
import BegetBridge.Posix.Targets

/-!
# Mutations stay below their roots

Uploads, copies, moves and removals run at the same time, and between any two system calls others may do
with the file system what they want. Every name that a mutation changes is still one of a directory that it
holds, and that it has seen at or below the canonical root of its reference.

## Main definitions

* `Request`, `mutations`: the mutations that run at the same time
* `Contained`: a call on directories that were seen below the root of a reference

## Main results

* `permit_mutation`: a mutation performs no other calls
* `mutation_contained`: what is changed in any run
-/

namespace BegetBridge.Files

open Posix Interleaving Script

/-- The name that is drawn for a temporary file. -/
abbrev TemporaryName := { name : Name // name.Valid }

/-- A mutation that is asked for. -/
inductive Request
  | upload (activeTransfers : Nat) (request : FileManager.Upload) (candidate : List Char) (overwrite : Bool)
      (temporary : TemporaryName)
  | copy (source destination : List Char) (overwrite : Bool) (temporary : TemporaryName)
  | move (source destination : List Char) (overwrite : Bool)
  | remove (candidate : List Char) (recursive : Bool)

namespace Request

/-- The paths that a request gives. -/
def candidates : Request → List (List Char)
  | .upload _ _ candidate _ _ => [candidate]
  | .copy source destination _ _ => [source, destination]
  | .move source destination _ => [source, destination]
  | .remove candidate _ => [candidate]

/-- The mutation without what it returns. -/
def script (m : FileManager) : Request → FileScript Unit
  | .upload active request candidate overwrite temporary => do
    let _ ← m.upload (fun _ => ()) active request candidate overwrite temporary.1
    pure ()
  | .copy source destination overwrite temporary => do
    let _ ← m.copy source destination overwrite temporary.1
    pure ()
  | .move source destination overwrite => do
    let _ ← m.move source destination overwrite
    pure ()
  | .remove candidate recursive => do
    let _ ← m.remove candidate recursive
    pure ()

end Request

/-- What a mutation has seen: the file system, a directory that it holds, and the place of that. -/
structure Sight where
  fs : Disk
  dir : Handle
  place : Location

/-- The mutations at the same time, each with what it has seen. Others may do anything to the file system. -/
def mutations (m : FileManager) : Calls Syscall Errno Disk Request (List Sight) Unit (Except FileError Unit) where
  toBackend := posix
  Fault := AnyFault
  ready _ _ := True
  program request := (request.script m).run
  notes _ := []
  note := fun op reply fs seen =>
    match op, reply with
    | .realpath dir, place => ⟨fs, dir, place⟩ :: seen
    | _, _ => seen
  elsewhere _ _ _ := True

/-- The call aims at plain names in directories that were seen below the root of a reference. -/
def Contained (policy : PathPolicy) (candidates : List (List Char)) {γ : Type} (op : Syscall γ) (n : Held) : Prop :=
  ∀ dir name, (dir, name) ∈ targets op → name.Valid ∧ ∃ candidate ∈ candidates, ∃ reference,
    policy.mutation candidate = .ok reference ∧ n.Below reference.root dir

section Contained

variable {m : FileManager} {policy : PathPolicy} {candidates : List (List Char)} {candidate : List Char}
  {reference : Reference} {n : Held} {temporary name : Name} {parent : Handle} {overwrite : Bool}

theorem contained_looks {γ : Type} (op : Syscall γ) (n : Held) (h : Looks op) : Contained policy candidates op n := by
  intro dir name hmem
  cases op <;> first | exact absurd hmem List.not_mem_nil | exact h.elim

/-- A call on one directory that was seen. -/
theorem contained_one {γ : Type} {op : Syscall γ} (hmem : candidate ∈ candidates)
    (href : policy.mutation candidate = .ok reference) (hbelow : n.Below reference.root parent) (hname : name.Valid)
    (hop : targets op = [(parent, name)]) : Contained policy candidates op n := by
  intro dir name' htarget
  rw [hop] at htarget
  obtain ⟨rfl, rfl⟩ := Prod.mk.inj (List.mem_singleton.mp htarget)
  exact ⟨hname, candidate, hmem, reference, href, hbelow⟩

/-- What leads up to a commit is contained. -/
theorem contained_licence (hmem : candidate ∈ candidates) (href : policy.mutation candidate = .ok reference)
    (htemporary : temporary.Valid) :
    Licence (fun {_} => Contained policy candidates) reference.root temporary where
  looks op n h := contained_looks op n h
  mkdir hbelow hname := contained_one hmem href hbelow hname rfl
  create hbelow := contained_one hmem href hbelow htemporary rfl
  write _ := fun _ _ h => absurd h List.not_mem_nil
  copyData _ := fun _ _ h => absurd h List.not_mem_nil

theorem permit_linkNew {parent' : Handle} {name' : Name} (hmem : candidate ∈ candidates)
    (href : policy.mutation candidate = .ok reference) (hbelow : n.Below reference.root parent')
    (hname : name'.Valid) :
    Permit (fun {_} => Contained policy candidates) (linkNew parent name parent' name') (fun _ n' => n.Le n') n := by
  refine permit_rethrow (fun e n hQ => ?_) (along_mono ?_ (permit_call (contained_one hmem href hbelow hname rfl)))
  · show Permit _ (if _ then _ else _) _ _
    split
    · exact along_throw (hQ e)
    · exact along_throw (hQ e)
  · rintro (e | u) n' hle
    · exact fun _ => hle
    · exact hle

/-- **The commit.** -/
theorem permit_commitTemporary (hmem : candidate ∈ candidates) (href : policy.mutation candidate = .ok reference)
    (hbelow : n.Below reference.root parent) (htemporary : temporary.Valid) (hname : name.Valid) :
    Permit (fun {_} => Contained policy candidates) (FileManager.commitTemporary parent temporary name overwrite)
      (fun _ n' => n.Le n') n := by
  rw [FileManager.commitTemporary]
  split
  · refine permit_call fun dir name' htarget => ?_
    rcases List.mem_cons.mp htarget with heq | htarget
    · obtain ⟨rfl, rfl⟩ := Prod.mk.inj heq
      exact ⟨htemporary, candidate, hmem, reference, href, hbelow⟩
    · obtain ⟨rfl, rfl⟩ := Prod.mk.inj (List.mem_singleton.mp htarget)
      exact ⟨hname, candidate, hmem, reference, href, hbelow⟩
  · refine along_bind (along_mono ?_ (permit_linkNew hmem href hbelow hname))
    rintro (e | u) n₁ hle
    · exact hle
    · exact along_mono (fun _ _ h => hle.trans h)
        (permit_call (contained_one hmem href (hbelow.mono hle) htemporary rfl))

/-- A transfer to a reference is contained. -/
theorem contained_transfers (hmem : candidate ∈ candidates) (href : policy.mutation candidate = .ok reference)
    (htemporary : temporary.Valid) :
    Transfers (fun {_} => Contained policy candidates) reference temporary overwrite where
  toLicence := contained_licence hmem href htemporary
  commit hbelow := permit_commitTemporary hmem href hbelow htemporary (last_valid href)
  rm hbelow := contained_one hmem href hbelow htemporary rfl

theorem permit_moveInto {source' destination' : Pinned} {from' to' : Reference} {source destination : List Char}
    (hsource : source ∈ candidates) (hdestination : destination ∈ candidates)
    (hfrom : policy.mutation source = .ok from') (hto : policy.mutation destination = .ok to')
    (hfromName : source'.name = from'.last) (htoName : destination'.name = to'.last)
    (hbelow : n.Below from'.root source'.parent) (hbelow' : n.Below to'.root destination'.parent) :
    Permit (fun {_} => Contained policy candidates) (FileManager.moveInto source' destination' overwrite)
      (fun _ _ => True) n := by
  have hname : source'.name.Valid := hfromName ▸ last_valid hfrom
  have hname' : destination'.name.Valid := htoName ▸ last_valid hto
  rw [FileManager.moveInto]
  split
  · refine along_bind (along_mono (Q := fun _ n' => n.Le n') ?_ ?_)
    · rintro (e | u) n₁ hle
      · trivial
      refine along_mono (fun _ _ _ => trivial) (permit_call fun dir name htarget => ?_)
      rcases List.mem_cons.mp htarget with heq | htarget
      · obtain ⟨rfl, rfl⟩ := Prod.mk.inj heq
        exact ⟨hname, source, hsource, from', hfrom, hbelow.mono hle⟩
      · obtain ⟨rfl, rfl⟩ := Prod.mk.inj (List.mem_singleton.mp htarget)
        exact ⟨hname', destination, hdestination, to', hto, hbelow'.mono hle⟩
    · refine along_tryCatch (along_bind (along_mono ?_ (permit_call (contained_looks _ _ trivial))))
      rintro (e | stat) n₁ hle
      · show Permit _ (if _ then _ else _) _ _
        split
        · exact along_pure hle
        · exact along_throw hle
      · exact permit_ensure (fun _ => hle) (along_throw hle)
  · refine along_bind (along_mono ?_ (permit_linkNew hdestination hto hbelow' hname'))
    rintro (e | u) n₁ hle
    · trivial
    refine permit_onError (along_mono ?_ (permit_call (contained_one hsource hfrom (hbelow.mono hle) hname rfl)))
    rintro (e | u') n₂ hle'
    · exact along_mono (fun _ _ _ => trivial) (permit_call
        (contained_one hdestination hto (hbelow'.mono (hle.trans hle')) hname' rfl))
    · trivial

theorem permit_move {source destination : List Char} (hsource : source ∈ candidates)
    (hdestination : destination ∈ candidates) :
    Permit (fun {_} => Contained m.pathPolicy candidates) (m.move source destination overwrite)
      (fun _ _ => True) n := by
  refine along_bind (permit_fromPolicy (fun from' hfrom => ?_) fun _ => trivial)
  refine along_bind (permit_fromPolicy (fun to' hto => ?_) fun _ => trivial)
  have hlicence := contained_licence hsource hfrom (last_valid hfrom)
  have hlicence' := contained_licence hdestination hto (last_valid hto)
  show Permit _ (if _ then _ else _) _ _
  split
  · exact along_pure trivial
  refine along_bind (permit_fromPolicy (fun _ _ => ?_) fun _ => trivial)
  refine along_bind (along_mono ?_ (permit_openMutationParent hlicence (segments_valid hfrom)))
  rintro (e | sourceParent) n₁ ⟨-, hsourceParent⟩
  · trivial
  obtain ⟨hfromName, hbelow⟩ := hsourceParent sourceParent rfl
  refine along_bind (along_andFinally (along_mono (Q := fun _ _ => True) ?_ ?_))
  · rintro r n₂ -
    refine along_mono ?_ (permit_ignoredClose hlicence.looks)
    rintro (e | u) n₃ -
    · trivial
    · rcases r with e | u' <;> trivial
  refine permit_rethrow (fun e n _ => ?_) (along_mono (Q := fun _ _ => True) ?_ ?_)
  · show Permit _ (if _ then _ else _) _ _
    split <;> exact along_throw trivial
  · rintro (e | u) n₂ -
    · exact fun _ => trivial
    · trivial
  refine along_bind (along_mono ?_ (permit_call (contained_looks _ _ trivial)))
  rintro (e | stat) n₂ hle
  · trivial
  refine along_bind (permit_ensure (fun _ => ?_) trivial)
  refine along_bind (along_mono ?_ (permit_openMutationParent hlicence' (segments_valid hto)))
  rintro (e | destinationParent) n₃ ⟨hle', hdestinationParent⟩
  · trivial
  obtain ⟨htoName, hbelow'⟩ := hdestinationParent destinationParent rfl
  refine along_andFinally (along_mono ?_ (permit_moveInto hsource hdestination hfrom hto hfromName htoName
    (hbelow.mono (hle.trans hle')) hbelow'))
  rintro r n₄ -
  exact along_mono (fun _ _ _ => trivial) (permit_ignoredClose hlicence.looks)

theorem permit_remove {recursive : Bool} (hmem : candidate ∈ candidates) :
    Permit (fun {_} => Contained m.pathPolicy candidates) (m.remove candidate recursive) (fun _ _ => True) n := by
  refine along_bind (permit_fromPolicy (fun reference href => ?_) fun _ => trivial)
  have hlicence := contained_licence hmem href (last_valid href)
  refine along_bind (permit_ensure (fun _ => ?_) trivial)
  refine along_bind (along_mono ?_ (permit_openMutationParent hlicence (segments_valid href)))
  rintro (e | pinned) n₁ ⟨-, hpinned⟩
  · trivial
  obtain ⟨hname, hbelow⟩ := hpinned pinned rfl
  have hlast : pinned.name.Valid := hname ▸ last_valid href
  refine along_bind (along_andFinally (along_mono (Q := fun _ _ => True) ?_ ?_))
  · rintro r n₂ -
    refine along_mono ?_ (permit_close hlicence.looks)
    rintro (e | u) n₃ -
    · trivial
    · rcases r with e | u' <;> trivial
  refine along_bind (along_mono ?_ (permit_call (contained_looks _ _ trivial)))
  rintro (e | stat) n₂ hle
  · trivial
  show Permit _ (if _ then _ else _) _ _
  split
  · exact along_mono (fun _ _ _ => trivial) (permit_call (contained_one hmem href (hbelow.mono hle) hlast rfl))
  · exact along_mono (fun _ _ _ => trivial) (permit_call (contained_one hmem href (hbelow.mono hle) hlast rfl))

/-- **A mutation performs contained calls only.** -/
theorem permit_mutation (request : Request) :
    (request.script m).run.Along (fun {_} => Contained m.pathPolicy request.candidates) noteHeld (fun _ _ => True)
      ⟨[], []⟩ := by
  cases request with
  | upload active request candidate overwrite temporary =>
    refine along_bind (along_mono ?_ (permit_upload fun reference href =>
      contained_transfers (List.mem_singleton.mpr rfl) href temporary.2))
    rintro (e | u) n - <;> trivial
  | copy source destination overwrite temporary =>
    refine along_bind (along_mono ?_ (permit_copy
      (fun reference href => contained_licence (by simp [Request.candidates]) href temporary.2)
      fun reference href => contained_transfers (by simp [Request.candidates]) href temporary.2))
    rintro (e | u) n - <;> trivial
  | move source destination overwrite =>
    refine along_bind (along_mono ?_ (permit_move (by simp [Request.candidates]) (by simp [Request.candidates])))
    rintro (e | u) n - <;> trivial
  | remove candidate recursive =>
    refine along_bind (along_mono ?_ (permit_remove (List.mem_singleton.mpr rfl)))
    rintro (e | u) n - <;> trivial

/-- What a mutation knows of its directories is what it has seen. -/
def Witnessed (known : Held) (seen : List Sight) : Prop :=
  ∀ dir place, (dir, place) ∈ known.seen → ∃ sight ∈ seen, sight.dir = dir ∧ sight.place = place ∧
    sight.fs.follow place = some dir.ino

theorem witnessed_step {known : Held} {seen : List Sight} {γ : Type} (op : Syscall γ) (r : Except Errno γ)
    (fs fs' : Disk) (h : Witnessed known seen) (hans : Answer posix AnyFault op fs r fs') :
    Witnessed (noteHeld op r known) ((mutations m).noted op r fs' seen) := by
  cases hans with
  | refusal _ => cases op <;> exact h
  | fault _ => cases op <;> exact h
  | effect hexec =>
    rename_i reply
    cases op
    case realpath dir =>
      obtain ⟨rfl, hplace⟩ := realpath_eq_ok (show Disk.exec (.realpath dir) fs = .ok (reply, fs') from hexec)
      intro dir' place' hmem
      rcases List.mem_cons.mp hmem with heq | hmem
      · obtain ⟨rfl, rfl⟩ := Prod.mk.inj heq
        exact ⟨⟨fs', dir', place'⟩, List.mem_cons_self, rfl, rfl, hplace⟩
      · obtain ⟨sight, hsight, hrest⟩ := h dir' place' hmem
        exact ⟨sight, List.mem_cons_of_mem _ hsight, hrest⟩
    all_goals exact h

instance : Decides (mutations m) (Condition.any : Condition Syscall Disk Request (List Sight) Unit) where
  ready _ _ := isTrue trivial
  operation _ _ _ _ _ := isTrue trivial
  beside _ _ _ _ := trivial

end Contained

end BegetBridge.Files
