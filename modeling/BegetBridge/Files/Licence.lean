import BegetBridge.Files.FileManager
import BegetBridge.Interleaving.Noting

/-!
# What a mutation may do

A mutation may change a directory that it holds, once it has seen that directory at or below the root of its
reference, and it may write the files that it has made itself. This does not depend on what the others do
meanwhile: it is a matter of the replies that the mutation has had.

## Main definitions

* `Held`, `noteHeld`: the directories that were seen at a place, and the files that were made
* `Licence`: what the steps up to the commit have to be permitted

## Main results

* `along_openMutationParent`: the way to the parent directory keeps to a licence
* `along_pipeline`, `along_copyFile`: so does what writes the temporary file
-/

namespace BegetBridge.Files

open Posix Interleaving Script

/-- The directories that were seen, with their places, and the files that were made. -/
structure Held where
  seen : List (Handle × Location)
  made : List Handle

/-- What is noted of a reply. -/
def noteHeld {γ : Type} (op : Syscall γ) (r : Except Errno γ) (n : Held) : Held :=
  match op, r with
  | .realpath dir, .ok place => { n with seen := (dir, place) :: n.seen }
  | .create _ _, .ok file => { n with made := file :: n.made }
  | _, _ => n

/-- The directory was seen at or below the root. -/
def Held.Below (n : Held) (root : Location) (dir : Handle) : Prop := ∃ place, (dir, place) ∈ n.seen ∧ root <+: place

/-- Notes are added only. -/
def Held.Le (n n' : Held) : Prop := n.seen ⊆ n'.seen ∧ n.made ⊆ n'.made

/-- A call that changes nothing. -/
def Looks {γ : Type} : Syscall γ → Prop
  | .mkdir .. | .create .. | .write .. | .copyData .. | .link .. | .rename .. | .unlink .. | .rmdir .. | .rm .. => False
  | _ => True

/-- What is permitted on the way to a commit: to look, to make directories in one that was seen below the
root, and the temporary file, and to write that. -/
structure Licence (P : {γ : Type} → Syscall γ → Held → Prop) (root : Location) (temporary : Name) : Prop where
  looks : ∀ {γ : Type} (op : Syscall γ) n, Looks op → P op n
  mkdir : ∀ {dir name isolated n}, n.Below root dir → name.Valid → P (.mkdir dir name isolated) n
  create : ∀ {dir n}, n.Below root dir → P (.create dir temporary) n
  write : ∀ {file bytes n}, file ∈ n.made → P (.write file bytes) n
  copyData : ∀ {source file n}, file ∈ n.made → P (.copyData source file) n

section Licence

variable {P : {γ : Type} → Syscall γ → Held → Prop} {root : Location} {temporary : Name} {n n' n'' : Held}
  {α : Type} {dir handle : Handle}

theorem Held.Le.refl (n : Held) : n.Le n := ⟨List.Subset.refl _, List.Subset.refl _⟩

theorem Held.Le.trans (h : n.Le n') (h' : n'.Le n'') : n.Le n'' :=
  ⟨fun _ hx => h'.1 (h.1 hx), fun _ hx => h'.2 (h.2 hx)⟩

theorem Held.Below.mono (h : n.Below root dir) (hle : n.Le n') : n'.Below root dir :=
  h.imp fun _ hplace => ⟨hle.1 hplace.1, hplace.2⟩

theorem noteHeld_le {γ : Type} (op : Syscall γ) (r : Except Errno γ) (n : Held) : n.Le (noteHeld op r n) := by
  cases op
  case realpath => cases r <;> simp [noteHeld, Held.Le]
  case create => cases r <;> simp [noteHeld, Held.Le]
  all_goals exact .refl n

/-- How a mutation goes on within what is permitted. -/
abbrev Permit (P : {γ : Type} → Syscall γ → Held → Prop) (p : FileScript α)
    (Q : Except FileError α → Held → Prop) (n : Held) : Prop :=
  Script.Along P noteHeld p Q n

theorem permit_sys {op : Syscall α} {Q : Except FileError α → Held → Prop} (hP : P op n)
    (h : ∀ r n', n' = noteHeld op r n → n.Le n' → Q (r.mapError .errno) n') : Permit P (sys op) Q n :=
  along_perform hP (fun a => h (.ok a) _ rfl (noteHeld_le op _ n)) fun e => h (.error e) _ rfl (noteHeld_le op _ n)

/-- A call of which only the reply matters. -/
theorem permit_call {op : Syscall α} (hP : P op n) : Permit P (sys op) (fun _ n' => n.Le n') n :=
  permit_sys hP fun _ _ _ hle => hle

theorem permit_ensure {holds : Bool} {e : Terminal.BridgeError} {Q : Except FileError Unit → Held → Prop}
    (hok : holds = true → Q (.ok ()) n) (herror : Q (.error (.bridge e)) n) : Permit P (ensure holds e) Q n := by
  rw [ensure]
  split
  · rename_i h
    exact along_pure (hok h)
  · exact along_throw herror

theorem permit_fromPolicy {r : Except Terminal.BridgeError α} {Q : Except FileError α → Held → Prop}
    (hok : ∀ a, r = .ok a → Q (.ok a) n) (herror : ∀ e, Q (.error (.bridge e)) n) :
    Permit P (fromPolicy r) Q n := by
  cases r with
  | ok a => exact along_pure (hok a rfl)
  | error e => exact along_throw (herror e)

/-- After an error comes what is done about it. -/
theorem permit_onError {p : FileScript α} {cleanup : FileScript Unit} {Q : Except FileError α → Held → Prop}
    (h : Permit P p (fun r n =>
      match r with
      | .ok a => Q (.ok a) n
      | .error e => Permit P cleanup (fun _ n => Q (.error e) n) n) n) : Permit P (onError p cleanup) Q n := by
  refine along_tryCatch (along_mono ?_ h)
  rintro (e | a) n hQ
  · exact along_bind (along_ignored hQ)
  · exact hQ

theorem permit_close (hlooks : ∀ {γ : Type} (op : Syscall γ) n, Looks op → P op n) :
    Permit P (sys (.close handle)) (fun _ n' => n.Le n') n := permit_call (hlooks _ _ trivial)

theorem permit_ignoredClose (hlooks : ∀ {γ : Type} (op : Syscall γ) n, Looks op → P op n) :
    Permit P (sys (.close handle)).ignored (fun _ n' => n.Le n') n := along_ignored (permit_close hlooks)

/-- An error is told in other words, and nothing is done about it. -/
theorem permit_rethrow {p : FileScript α} {f : FileError → FileScript α} {Q : Except FileError α → Held → Prop}
    (hf : ∀ e n, (∀ e', Q (.error e') n) → Permit P (f e) Q n)
    (h : Permit P p (fun r n => match r with | .ok a => Q (.ok a) n | .error _ => ∀ e', Q (.error e') n) n) :
    Permit P (tryCatch p f) Q n := by
  refine along_tryCatch (along_mono ?_ h)
  rintro (e | a) n hQ
  · exact hf e n hQ
  · exact hQ

/-- **A directory that passes the check** was seen at or below the root. -/
theorem permit_assertPinnedDirectory (hlooks : ∀ {γ : Type} (op : Syscall γ) n, Looks op → P op n) :
    Permit P (assertPinnedDirectory handle root) (fun r n' => n.Le n' ∧ (r = .ok () → n'.Below root handle)) n := by
  refine along_bind (along_mono ?_ (permit_call (hlooks _ _ trivial)))
  rintro (e | stat) n₁ hle
  · exact ⟨hle, nofun⟩
  refine along_bind (permit_ensure (fun _ => ?_) ⟨hle, nofun⟩)
  refine along_bind (permit_sys (hlooks _ _ trivial) fun r n₂ hnote hle' => ?_)
  rcases r with e | place
  · exact ⟨hle.trans hle', nofun⟩
  refine permit_ensure (fun hwithin => ⟨hle.trans hle', fun _ => ⟨place, ?_, ?_⟩⟩) ⟨hle.trans hle', nofun⟩
  · rw [hnote]
    exact List.mem_cons_self
  · rw [pinnedWithin, Bool.and_eq_true] at hwithin
    exact prefix_of_isWithin hwithin.1

variable {policy : PathPolicy} {createParents : Bool} {current : Handle} {segment : Name}

theorem permit_assertSharedUploadParent (hlooks : ∀ {γ : Type} (op : Syscall γ) n, Looks op → P op n) :
    Permit P (policy.assertSharedUploadParent handle) (fun _ n' => n.Le n') n := by
  rw [PathPolicy.assertSharedUploadParent]
  split
  · exact along_pure (.refl n)
  refine along_bind (along_mono ?_ (permit_call (hlooks _ _ trivial)))
  rintro (e | stat) n₁ hle
  · exact hle
  refine along_bind (permit_ensure (fun _ => ?_) hle)
  refine along_bind (permit_rethrow (fun e n hQ => ?_) (along_mono ?_ (permit_call (hlooks _ _ trivial))))
  · exact along_throw (hQ (.bridge (workspacePermissionsChanged "Shared upload parent ACL is unproven")))
  rintro (e | acl) n₂ hle'
  · exact fun _ => hle.trans hle'
  · exact permit_ensure (fun _ => hle.trans hle') (hle.trans hle')

/-- **One segment on the way to the parent.** -/
theorem permit_descendOnce (hP : Licence P root temporary) (hcurrent : n.Below root current)
    (hsegment : segment.Valid) :
    Permit P (policy.descendOnce root createParents current segment)
      (fun r n' => n.Le n' ∧ ∀ next, r = .ok next → n'.Below root next) n := by
  refine along_bind (along_mono (Q := fun _ n' => n.Le n') ?_ ?_)
  · rintro (e | u) n₁ hle
    · exact ⟨hle, nofun⟩
    refine along_bind (permit_rethrow (fun e n hQ => ?_) (along_mono ?_ (permit_call (hP.looks _ _ trivial))))
    · show Permit P (if _ then _ else _) _ _
      split
      · exact along_throw (hQ _)
      · exact along_throw (hQ _)
    rintro (e | next) n₂ hle'
    · exact fun _ => ⟨hle.trans hle', nofun⟩
    refine along_bind (along_mono ?_ (permit_assertPinnedDirectory hP.looks))
    rintro (e | u') n₃ ⟨hle'', hbelow⟩
    · exact ⟨hle.trans (hle'.trans hle''), nofun⟩
    refine along_bind (along_mono ?_ (permit_close hP.looks))
    rintro (e | u'') n₄ hle₄
    · exact ⟨hle.trans (hle'.trans (hle''.trans hle₄)), nofun⟩
    refine along_pure ⟨hle.trans (hle'.trans (hle''.trans hle₄)), fun next' hnext => ?_⟩
    obtain rfl := Except.ok.inj hnext
    exact (hbelow rfl).mono hle₄
  · rw [provided]
    split
    · refine along_bind (along_mono ?_ (permit_assertSharedUploadParent hP.looks))
      rintro (e | u) n₁ hle
      · exact hle
      refine along_tryCatch (along_mono ?_ (permit_call (hP.mkdir (hcurrent.mono hle) hsegment)))
      rintro (e | u') n₂ hle'
      · show Permit P (if _ then _ else _) _ _
        split
        · exact along_pure (hle.trans hle')
        · exact along_throw (hle.trans hle')
      · exact hle.trans hle'
    · exact along_pure (.refl n)

/-- The way to the parent, by induction on what is left of it. -/
theorem permit_descend {names : List Name} (hP : Licence P root temporary) (hcurrent : n.Below root current)
    (hnames : ∀ segment ∈ names, segment.Valid) :
    Permit P (policy.descend root createParents current names)
      (fun r n' => n.Le n' ∧ ∀ parent, r = .ok parent → n'.Below root parent) n := by
  induction names generalizing n current with
  | nil =>
    refine along_pure ⟨.refl n, fun parent hparent => ?_⟩
    obtain rfl := Except.ok.inj hparent
    exact hcurrent
  | cons segment names ih =>
    refine along_bind (permit_onError (along_mono ?_
      (permit_descendOnce hP hcurrent (hnames segment List.mem_cons_self))))
    rintro (e | next) n₁ ⟨hle, hnext⟩
    · exact along_mono (fun _ _ hle' => ⟨hle.trans hle', nofun⟩) (permit_close hP.looks)
    · refine along_mono ?_ (ih (hnext next rfl) fun s hs => hnames s (List.mem_cons_of_mem _ hs))
      rintro r n₂ ⟨hle', hparent⟩
      exact ⟨hle.trans hle', hparent⟩

/-- **The directory that is held** was seen at or below the root. -/
theorem permit_openMutationParent {reference : Reference} (hP : Licence P reference.root temporary)
    (hsegments : ∀ segment ∈ reference.segments, segment.Valid) :
    Permit P (policy.openMutationParent reference createParents) (fun r n' => n.Le n' ∧
      ∀ pinned, r = .ok pinned → pinned.name = reference.last ∧ n'.Below reference.root pinned.parent) n := by
  refine along_bind (along_mono ?_ (permit_call (hP.looks _ _ trivial)))
  rintro (e | current) n₁ hle
  · exact ⟨hle, nofun⟩
  refine along_bind (permit_onError (along_mono ?_ (permit_assertPinnedDirectory hP.looks)))
  rintro (e | u) n₂ ⟨hle', hcurrent⟩
  · exact along_mono (fun _ _ hle'' => ⟨hle.trans (hle'.trans hle''), nofun⟩) (permit_close hP.looks)
  refine along_bind (along_mono ?_ (permit_descend hP (hcurrent rfl)
    fun segment hs => hsegments segment (List.mem_of_mem_dropLast hs)))
  rintro (e | parent) n₃ ⟨hle'', hparent⟩
  · exact ⟨hle.trans (hle'.trans hle''), nofun⟩
  refine along_bind (along_mono (Q := fun _ n' => n₃.Le n') ?_ ?_)
  · rintro (e | u') n₄ hle₄
    · exact ⟨hle.trans (hle'.trans (hle''.trans hle₄)), nofun⟩
    refine along_pure ⟨hle.trans (hle'.trans (hle''.trans hle₄)), fun pinned hpinned => ?_⟩
    obtain rfl := Except.ok.inj hpinned
    exact ⟨rfl, (hparent parent rfl).mono hle₄⟩
  · rw [provided]
    split
    · refine permit_onError (along_mono ?_ (permit_assertSharedUploadParent hP.looks))
      rintro (e | u') n₄ hle₄
      · exact along_mono (fun _ _ hle₅ => hle₄.trans hle₅) (permit_close hP.looks)
      · exact hle₄
    · exact along_pure (.refl n₃)

variable {m : FileManager}

theorem permit_assertStorageReserve {incoming : Int} (hlooks : ∀ {γ : Type} (op : Syscall γ) n, Looks op → P op n) :
    Permit P (m.assertStorageReserve dir incoming) (fun _ n' => n.Le n') n := by
  rw [FileManager.assertStorageReserve]
  split
  · exact along_pure (.refl n)
  refine along_bind (along_mono ?_ (permit_call (hlooks _ _ trivial)))
  rintro (e | free) n₁ hle
  · exact hle
  · exact permit_ensure (fun _ => hle) hle

theorem permit_receive {fails : Bool} {chunks : List (List UInt8)} {received : List UInt8} {file : Handle}
    (hP : Licence P root temporary) (hfile : file ∈ n.made) :
    Permit P (m.receive dir file fails received chunks) (fun _ n' => n.Le n') n := by
  induction chunks generalizing n received with
  | nil =>
    refine along_bind (along_mono (Q := fun _ n' => n.Le n') ?_ ?_)
    · rintro (e | u) n₁ hle
      · exact hle
      refine along_bind (along_mono ?_ (permit_close hP.looks))
      rintro (e | u') n₂ hle'
      · exact hle.trans hle'
      · exact along_pure (hle.trans hle')
    · rw [provided]
      split
      · exact along_throw (.refl n)
      · exact along_pure (.refl n)
  | cons chunk rest ih =>
    refine along_bind (permit_ensure (fun _ => ?_) (.refl n))
    refine along_bind (along_mono ?_ (permit_assertStorageReserve hP.looks))
    rintro (e | u) n₁ hle
    · exact hle
    refine along_bind (along_mono ?_ (permit_call (hP.write (hle.2 hfile))))
    rintro (e | u') n₂ hle'
    · exact hle.trans hle'
    · exact along_mono (fun _ _ h => hle.trans (hle'.trans h)) (ih (hle'.2 (hle.2 hfile)))

/-- The temporary file of an upload. -/
theorem permit_pipeline {request : FileManager.Upload} (hP : Licence P root temporary)
    (hdir : n.Below root dir) :
    Permit P (m.pipeline dir temporary request) (fun _ n' => n.Le n') n := by
  refine along_bind (permit_sys (hP.create hdir) fun r n₁ hnote hle => ?_)
  rcases r with e | file
  · exact hle
  · refine along_mono (fun _ _ hle' => hle.trans hle') (permit_receive hP ?_)
    rw [hnote]
    exact List.mem_cons_self

/-- The temporary file of a copy. -/
theorem permit_copyFile {source : Handle} (hP : Licence P root temporary) (hdir : n.Below root dir) :
    Permit P (FileManager.copyFile source dir temporary) (fun _ n' => n.Le n') n := by
  refine along_bind (permit_sys (hP.create hdir) fun r n₁ hnote hle => ?_)
  rcases r with e | file
  · exact hle
  · refine along_mono (fun _ _ hle' => hle.trans hle') (permit_call (hP.copyData ?_))
    rw [hnote]
    exact List.mem_cons_self

/-- What a transfer to a reference has to be permitted: the commit and the removal besides. -/
structure Transfers (P : {γ : Type} → Syscall γ → Held → Prop) (reference : Reference) (temporary : Name)
    (overwrite : Bool) : Prop extends Licence P reference.root temporary where
  commit : ∀ {parent n}, n.Below reference.root parent → Permit P
    (FileManager.commitTemporary parent temporary reference.last overwrite) (fun _ n' => n.Le n') n
  rm : ∀ {parent n}, n.Below reference.root parent → P (.rm parent temporary) n

variable {candidate : List Char} {overwrite : Bool}

theorem permit_upload {δ : Type} {sha256 : List UInt8 → δ} {active : Nat} {request : FileManager.Upload}
    (hP : ∀ reference, m.pathPolicy.mutation candidate = .ok reference → Transfers P reference temporary overwrite) :
    Permit P
      (m.upload sha256 active request candidate overwrite temporary) (fun _ _ => True) n := by
  refine along_bind (permit_ensure (fun _ => ?_) trivial)
  refine along_bind (permit_fromPolicy (fun destination href => ?_) fun _ => trivial)
  have hlicence := hP destination href
  refine along_bind (along_mono ?_ (permit_openMutationParent hlicence.toLicence (segments_valid href)))
  rintro (e | pinned) n₁ ⟨-, hpinned⟩
  · trivial
  obtain ⟨hname, hbelow⟩ := hpinned pinned rfl
  show Permit P (if _ then _ else _) _ _
  split
  · refine along_bind (along_mono ?_ (permit_close hlicence.looks))
    rintro (e | u) n₂ -
    · trivial
    · exact along_throw trivial
  refine along_bind (along_andFinally (permit_onError (along_mono (Q := fun _ n' => n₁.Le n') ?_ ?_)))
  · -- what is left is to remove the temporary file after an error, and to close the directory
    rintro (e | received) n₂ hle
    · refine along_mono ?_ (permit_call (hlicence.rm (hbelow.mono hle)))
      rintro _ n₃ -
      refine along_mono ?_ (permit_close hlicence.looks)
      rintro (e' | u) n₄ - <;> trivial
    · refine along_mono ?_ (permit_close hlicence.looks)
      rintro (e' | u) n₃ -
      · trivial
      · exact along_pure trivial
  · refine along_bind (along_mono ?_ (permit_assertStorageReserve hlicence.looks))
    rintro (e | u) n₂ hle
    · exact hle
    refine along_bind (along_mono ?_ (permit_pipeline hlicence.toLicence (hbelow.mono hle)))
    rintro (e | received) n₃ hle'
    · exact hle.trans hle'
    refine along_bind (along_mono ?_ (permit_assertSharedUploadParent hlicence.looks))
    rintro (e | u') n₄ hle''
    · exact hle.trans (hle'.trans hle'')
    have hle₄ := hle.trans (hle'.trans hle'')
    refine along_bind (along_mono ?_ (hname ▸ hlicence.commit (hbelow.mono hle₄)))
    rintro (e | u'') n₅ hle₅
    · exact hle₄.trans hle₅
    · exact along_pure (hle₄.trans hle₅)

theorem permit_copy {source destination : List Char}
    (hP : ∀ reference, m.pathPolicy.mutation source = .ok reference → Licence P reference.root temporary)
    (hP' : ∀ reference, m.pathPolicy.mutation destination = .ok reference →
      Transfers P reference temporary overwrite) :
    Permit P (m.copy source destination overwrite temporary)
      (fun _ _ => True) n := by
  refine along_bind (permit_fromPolicy (fun from' hfrom => ?_) fun _ => trivial)
  refine along_bind (permit_fromPolicy (fun to' hto => ?_) fun _ => trivial)
  have hlicence := hP' to' hto
  show Permit P (if _ then _ else _) _ _
  split
  · exact along_pure trivial
  refine along_bind (permit_fromPolicy (fun _ _ => ?_) fun _ => trivial)
  refine along_bind (along_mono ?_
    (permit_openMutationParent (hP from' hfrom) (segments_valid hfrom)))
  rintro (e | sourceParent) n₁ -
  · trivial
  refine along_bind (along_andFinally (along_mono (Q := fun _ _ => True) ?_ ?_))
  · rintro r n₂ -
    refine along_mono ?_ (permit_ignoredClose hlicence.looks)
    rintro (e | u) n₃ -
    · trivial
    · rcases r with e | u' <;> trivial
  refine along_bind (along_mono (Q := fun _ _ => True) ?_ ?_)
  · rintro (e | file) n₂ -
    · trivial
    refine along_andFinally (along_mono (Q := fun _ _ => True) ?_ ?_)
    · rintro r n₃ -
      refine along_mono ?_ (permit_ignoredClose hlicence.looks)
      intro _ _ _
      trivial
    refine along_bind (along_mono ?_ (permit_call (hlicence.looks _ _ trivial)))
    rintro (e | stat) n₃ -
    · trivial
    refine along_bind (permit_ensure (fun _ => ?_) trivial)
    refine along_bind (along_mono ?_ (permit_openMutationParent hlicence.toLicence (segments_valid hto)))
    rintro (e | pinned) n₄ ⟨-, hpinned⟩
    · trivial
    obtain ⟨hname, hbelow⟩ := hpinned pinned rfl
    refine along_andFinally (along_mono (Q := fun _ _ => True) ?_ ?_)
    · rintro r n₅ -
      refine along_mono ?_ (permit_ignoredClose hlicence.looks)
      intro _ _ _
      trivial
    refine along_bind (along_mono ?_ (permit_assertStorageReserve hlicence.looks))
    rintro (e | u) n₅ hle
    · trivial
    refine permit_onError (along_mono (Q := fun _ n' => n₅.Le n') ?_ ?_)
    · rintro (e | u') n₆ hle'
      · exact along_mono (fun _ _ _ => trivial) (permit_call (hlicence.rm (hbelow.mono (hle.trans hle'))))
      · trivial
    · refine along_bind (along_mono ?_ (permit_copyFile hlicence.toLicence (hbelow.mono hle)))
      rintro (e | u') n₆ hle'
      · exact hle'
      · exact along_mono (fun _ _ h => hle'.trans h) (hname ▸ hlicence.commit (hbelow.mono (hle.trans hle')))
  · refine permit_rethrow (fun e n _ => ?_) (along_mono ?_ (permit_call (hlicence.looks _ _ trivial)))
    · show Permit P (if _ then _ else _) _ _
      split <;> exact along_throw trivial
    · rintro (e | file) n₂ -
      · exact fun _ => trivial
      · trivial

end Licence

end BegetBridge.Files
