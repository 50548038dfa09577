import BegetBridge.Interleaving.Handler
import BegetBridge.Posix.Disk
import BegetBridge.Release.Admission

/-!
# The flag that pauses admission

An update pauses admission by a flag, verifies the pause by the flag, and resumes admission when the services are
healthy. The flag is created before it is written, so a call that is cut may leave a part of its text. A later call
takes any sound flag for a pause, whatever is in it, and the verification does not.

## Main definitions

* `Maintenance`, `MaintenanceOp`: the directories with the flag, and the calls
* `verifyAdmissionPause`, `pauseAdmission`, `resumeAdmission`: what the update does
* `Verifiable`, `Complete`: what a pause promises, and what it takes
* `Attempts`: any number of calls that pause, with what a crash leaves of them

## Main results

* `runs_pauseAdmission`: what a call that returns leaves
* `meets_resumeAdmission`: what a call that resumes keeps
* `pause_verifiable_iff`: which pauses are verified
-/

namespace BegetBridge.AdmissionPause

open Posix Interleaving Release

/-! ## The directories and the flag -/

/-- A directory, and whether its path leads to it without links. -/
structure DirectoryInfo where
  real : Bool
  isDirectory : Bool
  uid : Nat
  mode : Nat
  deriving DecidableEq

structure FlagInfo where
  isFile : Bool
  nlink : Nat
  uid : Nat
  mode : Nat
  content : List UInt8
  deriving DecidableEq

/-- The directory of the flag, the one above it, the flag, and what the process takes from the mode of what it
creates. -/
structure Maintenance where
  parent : Option DirectoryInfo
  directory : Option DirectoryInfo
  flag : Option FlagInfo
  umask : Nat
  deriving DecidableEq

inductive Place
  | parent
  | directory
  deriving DecidableEq

/-- The calls. The text is written byte by byte: a call may be cut, or fail, after any of them. -/
inductive MaintenanceOp : Type → Type
  | realpath (place : Place) : MaintenanceOp Bool
  | stat (place : Place) : MaintenanceOp DirectoryInfo
  | mkdir : MaintenanceOp Unit
  | openFlag : MaintenanceOp Unit
  | write (byte : UInt8) : MaintenanceOp Unit
  | lstatFlag : MaintenanceOp FlagInfo
  | readFlag : MaintenanceOp (List UInt8)
  | unlinkFlag : MaintenanceOp Unit
  | openDirectory : MaintenanceOp Unit
  | sync : MaintenanceOp Unit
  | close : MaintenanceOp Unit
  | assertHealthy : MaintenanceOp Unit

namespace Maintenance

/-- The directory at a place. -/
def directoryAt (s : Maintenance) : Place → Option DirectoryInfo
  | .parent => s.parent
  | .directory => s.directory

/-- The mode of what is created. -/
def created (s : Maintenance) (mode : Nat) : Nat := mode &&& (0o777 ^^^ (s.umask &&& 0o777))

def withFlag (s : Maintenance) (flag : Option FlagInfo) : Maintenance := { s with flag := flag }

def withDirectory (s : Maintenance) (directory : DirectoryInfo) : Maintenance := { s with directory := some directory }

def exec : {β : Type} → MaintenanceOp β → Maintenance → Except Errno (β × Maintenance)
  | _, .realpath place, s => (s.directoryAt place).elim (.error .ENOENT) fun d => .ok (d.real, s)
  | _, .stat place, s => (s.directoryAt place).elim (.error .ENOENT) fun d => .ok (d, s)
  | _, .mkdir, s => s.directory.elim (.ok ((), s.withDirectory ⟨true, true, 0, s.created 0o755⟩)) fun _ => .error .EEXIST
  | _, .openFlag, s =>
    s.flag.elim (.ok ((), s.withFlag (some ⟨true, 1, 0, s.created 0o644, []⟩))) fun _ => .error .EEXIST
  | _, .write byte, s => .ok ((), s.withFlag (s.flag.map fun f => { f with content := f.content ++ [byte] }))
  | _, .lstatFlag, s => s.flag.elim (.error .ENOENT) fun f => .ok (f, s)
  | _, .readFlag, s => s.flag.elim (.error .ENOENT) fun f => .ok (f.content, s)
  | _, .unlinkFlag, s => s.flag.elim (.error .ENOENT) fun _ => .ok ((), s.withFlag none)
  | _, .openDirectory, s => s.directory.elim (.error .ENOENT) fun d => if d.isDirectory then .ok ((), s) else .error .ENOTDIR
  | _, .sync, s => .ok ((), s)
  | _, .close, s => .ok ((), s)
  -- The callback is not here. It may throw anything, as every call may.
  | _, .assertHealthy, s => .ok ((), s)

end Maintenance

def maintenance : Backend MaintenanceOp Errno Maintenance := ⟨Maintenance.exec⟩

/-- What is thrown. -/
inductive PauseError
  | call (e : Errno)
  | message (text : String)
  deriving DecidableEq

abbrev PauseScript := Script MaintenanceOp Errno PauseError

def call {β : Type} (op : MaintenanceOp β) : PauseScript β := .perform .call op

def demand (holds : Bool) (text : String) : PauseScript Unit := if holds then pure () else throw (.message text)

/-! ## What the update does -/

/-- `info.isDirectory()`, of root, not writable by others, and traversable. -/
def DirectoryInfo.trusted (d : DirectoryInfo) : Bool :=
  d.isDirectory && d.uid == 0 && d.mode &&& 0o022 == 0 && d.mode &&& 0o005 == 0o005

/-- A regular file of root with one name, not writable by others, and small. -/
def FlagInfo.sound (f : FlagInfo) : Bool :=
  f.isFile && f.nlink == 1 && f.uid == 0 && f.mode &&& 0o022 == 0 && decide (f.content.length ≤ 128)

/-- The text of the flag. It is ASCII, and no other bytes are decoded to it. -/
def PAUSED : List UInt8 := "dp-beget-bridge-admission-paused-v1\n".toList.map fun c => .ofNat c.toNat

/-- `trustedDirectory(directory)`. A directory of an absolute path has an absolute path. -/
def trustedDirectory (place : Place) : PauseScript Unit := do
  let real ← call (.realpath place)
  demand real "Admission gate directory must be a real absolute path"
  let info ← call (.stat place)
  demand info.trusted "Admission gate directory must be traversable, root-owned and not writable by other users"

/-- `syncDirectory(directory)` -/
def syncDirectory : PauseScript Unit := do
  call .openDirectory
  Script.andFinally (call .sync) (call .close)

/-- `assertFlag(flag)` -/
def assertFlag : PauseScript Unit := do
  let info ← call .lstatFlag
  demand info.sound "Admission gate flag is not a root-owned regular file"

/-- `verifyAdmissionPause({ flag })` -/
def verifyAdmissionPause (rooted : Bool) (flag : String) : PauseScript Unit := do
  demand (rooted && isAbsolute flag) "Root and an absolute admission flag path are required"
  trustedDirectory .directory
  assertFlag
  let content ← call .readFlag
  demand (content == PAUSED) "Unexpected admission pause flag content"

/-- `handle.writeFile(text)` -/
def writeFile : List UInt8 → PauseScript Unit
  | [] => pure ()
  | byte :: bytes => do
    call (.write byte)
    writeFile bytes

/-- The directory is created, unless there is one. -/
def ensureDirectory : PauseScript Unit :=
  tryCatch (call .mkdir) fun
  | .call .EEXIST => pure ()
  | error => throw error

/-- The flag is created, unless there is one. -/
def createFlag : PauseScript Bool :=
  tryCatch (do
    call .openFlag
    pure true) fun
  | .call .EEXIST => pure false
  | error => throw error

/-- The flag is written, or the one that is there is looked at. Whether there was one is returned. -/
def flagged (fresh : Bool) : PauseScript Bool :=
  if fresh then do
    Script.andFinally (do
      writeFile PAUSED
      call .sync) (call .close)
    syncDirectory
    pure false
  else do
    -- What is in the flag is not looked at here.
    assertFlag
    pure true

/-- `pauseAdmission({ flag })`: what it returns is `paused: true`, and whether the flag was there. -/
def pauseAdmission (rooted : Bool) (flag : String) : PauseScript Bool := do
  demand rooted "Root is required to pause admissions"
  demand (isAbsolute flag) "Absolute admission gate flag path is required"
  trustedDirectory .parent
  ensureDirectory
  trustedDirectory .directory
  let fresh ← createFlag
  flagged fresh

/-- `resumeAdmission({ flag, assertHealthy })`, where `callback` says whether the callback is a function. -/
def resumeAdmission (rooted callback : Bool) (flag : String) : PauseScript Unit := do
  demand (rooted && callback) "Root and a health verification callback are required to resume admissions"
  demand (isAbsolute flag) "Absolute admission gate flag path is required"
  trustedDirectory .directory
  assertFlag
  call .assertHealthy
  assertFlag
  call .unlinkFlag
  syncDirectory

/-! ## What a pause promises -/

/-- The servers, which do nothing else here. -/
def servers : Backend (ServerOp Empty Empty) Empty (ServerState Unit) := ⟨fun op w => .ok (op.exec (fun h _ => h.elim) w)⟩

/-- The pause is verified, and the servers that see the flag find admission paused. -/
def Verifiable (rooted : Bool) (flag : String) (s : Maintenance) : Prop :=
  Script.Total maintenance (verifyAdmissionPause rooted flag) (fun _ t => t = s) s ∧
    ∀ w : ServerState Unit, w.entries flag = s.flag.isSome →
      ((isAdmissionPaused (some flag)).run.eval servers w).1 = .ok true

/-- If there is a flag, its text is there as a whole. -/
def Complete (s : Maintenance) : Prop := ∀ f, s.flag = some f → f.content = PAUSED

/-- What a crash leaves: the flag, or none, or one with other content. -/
def Crashed (s s' : Maintenance) : Prop :=
  ∃ flag, s' = s.withFlag flag ∧
    (flag = s.flag ∨ flag = none ∨ ∃ f content, s.flag = some f ∧ flag = some { f with content := content })

/-- A call, with the states at its start and at its end. One that is cut returns nothing. -/
structure Attempt where
  before : Maintenance
  returned : Option (Except PauseError Bool)
  after : Maintenance

/-- **Calls that pause**, one after another, from any state. Every operation may fail, and every call may be cut. -/
inductive Attempts (rooted : Bool) (flag : String) (start : Maintenance) : List Attempt → Maintenance → Prop
  | first : Attempts rooted flag start [] start
  | cut {l : List Attempt} {s s₁ s' : Maintenance} {tr : List (Entry MaintenanceOp Errno)}
    (hl : Attempts rooted flag start l s)
    (hvisits : Visits maintenance (fun _ => True) (pauseAdmission rooted flag).run s tr s₁) (hcrash : Crashed s₁ s') :
    Attempts rooted flag start (l ++ [⟨s, none, s'⟩]) s'
  | returned {l : List Attempt} {s s' : Maintenance} {tr : List (Entry MaintenanceOp Errno)}
    {r : Except PauseError Bool} (hl : Attempts rooted flag start l s)
    (hruns : Runs maintenance (fun _ => True) (pauseAdmission rooted flag).run s tr r s') :
    Attempts rooted flag start (l ++ [⟨s, some r, s'⟩]) s'

/-! ## What a call does -/

abbrev Meets {α : Type} (p : PauseScript α)
    (Q : List (Entry MaintenanceOp Errno) → Except PauseError α → Maintenance → Prop)
    (h : List (Entry MaintenanceOp Errno)) (s : Maintenance) : Prop :=
  Script.Meets maintenance (fun _ => True) (fun _ _ _ => True) p Q h s

section Calls

variable {h : List (Entry MaintenanceOp Errno)} {s : Maintenance} {flag : String} {α β : Type}

theorem meets_demand {holds : Bool} {text : String}
    {Q : List (Entry MaintenanceOp Errno) → Except PauseError Unit → Maintenance → Prop}
    (hok : holds = true → Q h (.ok ()) s) (herror : Q h (.error (.message text)) s) : Meets (demand holds text) Q h s := by
  cases holds with
  | true => exact hok rfl
  | false => exact herror

/-- What is demanded before the rest. -/
theorem meets_demanded {holds : Bool} {text : String} {p : PauseScript α}
    {Q : List (Entry MaintenanceOp Errno) → Except PauseError α → Maintenance → Prop}
    (hp : holds = true → Meets p Q h s) (herror : Q h (.error (.message text)) s) :
    Meets (demand holds text >>= fun _ => p) Q h s := by
  cases holds with
  | true => exact hp rfl
  | false => exact herror

/-- An operation that answers what is at a place, if anything is. -/
theorem exec_found {γ : Type} {x : Option γ} {b : β} {s' : Maintenance} {f : γ → β}
    (hexec : x.elim (.error .ENOENT) (fun d => .ok (f d, s)) = (.ok (b, s') : Except Errno (β × Maintenance))) :
    ∃ d, x = some d ∧ b = f d ∧ s' = s := by
  cases x with
  | none => cases hexec
  | some d =>
    obtain ⟨rfl, rfl⟩ := Prod.mk.inj (Except.ok.inj hexec)
    exact ⟨d, rfl, rfl, rfl⟩

/-- What is trusted is as it was. -/
theorem meets_trustedDirectory {place : Place} : Meets (trustedDirectory place) (fun _ r s' => s' = s ∧
    ∀ u, r = .ok u → ∃ d, s.directoryAt place = some d ∧ d.real = true ∧ d.trusted = true) h s := by
  unfold trustedDirectory
  apply Script.meets_call trivial
  · intro real s₁ hexec
    obtain ⟨d, hd, rfl, rfl⟩ := exec_found (f := DirectoryInfo.real) hexec
    apply meets_demanded
    · intro hreal
      apply Script.meets_call trivial
      · intro info s₂ hexec
        obtain ⟨d', hd', rfl, rfl⟩ := exec_found (f := id) hexec
        obtain rfl := Option.some.inj (hd.symm.trans hd')
        apply meets_demand
        · exact fun htrusted => ⟨rfl, fun _ _ => ⟨d, hd, hreal, htrusted⟩⟩
        · exact ⟨rfl, nofun⟩
      · exact fun _ => ⟨rfl, nofun⟩
    · exact ⟨rfl, nofun⟩
  · exact fun _ => ⟨rfl, nofun⟩

/-- A flag that is looked at is as it was. -/
theorem meets_assertFlag : Meets assertFlag (fun _ r s' => s' = s ∧
    ∀ u, r = .ok u → ∃ f, s.flag = some f ∧ f.sound = true) h s := by
  unfold assertFlag
  apply Script.meets_call trivial
  · intro info s₁ hexec
    obtain ⟨f, hf, rfl, rfl⟩ := exec_found (f := id) hexec
    apply meets_demand
    · exact fun hsound => ⟨rfl, fun _ _ => ⟨info, hf, hsound⟩⟩
    · exact ⟨rfl, nofun⟩
  · exact fun _ => ⟨rfl, nofun⟩

/-- A call that changes nothing. -/
theorem meets_settled {op : MaintenanceOp Unit} (hop : ∀ b s', s.exec op = .ok (b, s') → s' = s) :
    Meets (call op) (fun _ _ s' => s' = s) h s := by
  apply Script.meets_perform trivial
  · exact fun b s' hexec => hop b s' hexec
  · exact fun _ => rfl

theorem meets_close : Meets (call .close) (fun _ _ s' => s' = s) h s := by
  apply meets_settled
  intro b s' hexec
  exact (Prod.mk.inj (Except.ok.inj hexec)).2.symm

theorem meets_sync : Meets (call .sync) (fun _ _ s' => s' = s) h s := by
  apply meets_settled
  intro b s' hexec
  exact (Prod.mk.inj (Except.ok.inj hexec)).2.symm

theorem exec_openDirectory {u : Unit} {s' : Maintenance} (hexec : s.exec .openDirectory = .ok (u, s')) : s' = s := by
  simp only [Maintenance.exec] at hexec
  cases hd : s.directory with
  | none =>
    rw [hd] at hexec
    cases hexec
  | some d =>
    rw [hd, Option.elim_some] at hexec
    split at hexec
    · exact (Prod.mk.inj (Except.ok.inj hexec)).2.symm
    · cases hexec

theorem meets_openDirectory : Meets (call .openDirectory) (fun _ _ s' => s' = s) h s :=
  meets_settled fun _ _ hexec => exec_openDirectory hexec

theorem meets_syncDirectory : Meets syncDirectory (fun _ _ s' => s' = s) h s := by
  unfold syncDirectory
  apply Script.meets_bind meets_openDirectory
  · rintro h' b _ rfl
    apply Script.meets_finally meets_sync
    rintro h'' r _ rfl
    exact meets_close
  · exact fun _ _ _ hs => hs

/-! ### The flag -/

/-- The directory may be new. -/
theorem meets_ensureDirectory : Meets ensureDirectory (fun _ _ s' => s'.flag = s.flag) h s := by
  unfold ensureDirectory
  apply Script.meets_tryCatch (P := fun _ _ s' => s'.flag = s.flag)
  · apply Script.meets_perform trivial
    · intro b s' hexec
      simp only [maintenance, Maintenance.exec] at hexec
      cases hd : s.directory with
      | none =>
        rw [hd] at hexec
        rw [← (Prod.mk.inj (Except.ok.inj hexec)).2]
        rfl
      | some d =>
        rw [hd] at hexec
        cases hexec
    · exact fun _ => rfl
  · exact fun _ _ _ hs => hs
  · intro h' e s' hs
    split
    · exact hs
    · exact hs

/-- The flag is created empty where there is none, and where there is one it is left. -/
theorem meets_createFlag : Meets createFlag (fun _ r s' =>
    (r = .ok true → s.flag = none ∧ s' = s.withFlag (some ⟨true, 1, 0, s.created 0o644, []⟩)) ∧
      (r = .ok false → s' = s)) h s := by
  unfold createFlag
  apply Script.meets_tryCatch (P := fun _ r s' =>
    (∀ b, r = .ok b → b = true ∧ s.flag = none ∧ s' = s.withFlag (some ⟨true, 1, 0, s.created 0o644, []⟩)) ∧
      (∀ e, r = .error e → s' = s))
  · apply Script.meets_call trivial
    · intro b s' hexec
      simp only [maintenance, Maintenance.exec] at hexec
      cases hf : s.flag with
      | none =>
        rw [hf] at hexec
        refine ⟨fun c hc => ⟨(Except.ok.inj hc).symm, rfl, ?_⟩, nofun⟩
        exact (Prod.mk.inj (Except.ok.inj hexec)).2.symm
      | some f =>
        rw [hf] at hexec
        cases hexec
    · exact fun _ => ⟨nofun, fun _ _ => rfl⟩
  · intro h' b s' hP
    obtain ⟨rfl, hb⟩ := hP.1 b rfl
    exact ⟨fun _ => hb, nofun⟩
  · intro h' e s' hP
    split
    · exact ⟨nofun, fun _ => hP.2 _ rfl⟩
    · exact ⟨nofun, nofun⟩

/-- **What is written is appended**, by induction on the bytes. -/
theorem meets_writeFile {bytes : List UInt8} {f : FlagInfo} (hf : s.flag = some f) :
    Meets (writeFile bytes) (fun _ r s' => ∀ u, r = .ok u →
      s' = s.withFlag (some { f with content := f.content ++ bytes })) h s := by
  induction bytes generalizing f h s with
  | nil =>
    intro u _
    rw [List.append_nil, ← hf]
    rfl
  | cons byte bytes ih =>
    apply Script.meets_call trivial
    · intro b s₁ hexec
      obtain ⟨_, rfl⟩ := Prod.mk.inj (Except.ok.inj hexec)
      rw [hf]
      apply Script.meets_mono (ih rfl)
      intro h' r s' hs u hu
      rw [hs u hu, List.append_assoc]
      rfl
    · exact fun _ => nofun

/-- The new flag has the whole text. -/
theorem meets_flagged_fresh {f : FlagInfo} (hf : s.flag = some f) (hempty : f.content = []) :
    Meets (flagged true) (fun _ r s' => ∀ b, r = .ok b → s' = s.withFlag (some { f with content := PAUSED })) h s := by
  change Meets (do
    Script.andFinally (do
      writeFile PAUSED
      call .sync) (call .close)
    syncDirectory
    pure false) _ h s
  apply Script.meets_bind (P := fun _ r s' => ∀ u, r = .ok u → s' = s.withFlag (some { f with content := PAUSED }))
  · apply Script.meets_finally (P := fun _ r s' =>
      ∀ u, r = .ok u → s' = s.withFlag (some { f with content := PAUSED }))
    · apply Script.meets_bind (meets_writeFile hf)
      · intro h' u s' hs
        apply Script.meets_mono meets_sync
        rintro h'' r _ rfl _ _
        rw [hs u rfl, hempty, List.nil_append]
      · exact fun _ _ _ _ => nofun
    · intro h' r s' hs
      apply Script.meets_mono meets_close
      rintro h'' (e | u) _ rfl v hv
      · cases hv
      · exact hs v hv
  · intro h' u s' hs
    apply Script.meets_bind meets_syncDirectory
    · rintro h'' v _ rfl
      exact fun _ _ => hs u rfl
    · exact fun _ _ _ _ => nofun
  · exact fun _ _ _ _ => nofun

/-- The flag that is there is left. -/
theorem meets_flagged_existing : Meets (flagged false) (fun _ r s' => s' = s ∧
    ∀ b, r = .ok b → ∃ f, s.flag = some f ∧ f.sound = true) h s := by
  change Meets (do
    assertFlag
    pure true) _ h s
  apply Script.meets_bind meets_assertFlag
  · rintro h' u s' ⟨rfl, hsound⟩
    exact ⟨rfl, fun _ _ => hsound u rfl⟩
  · rintro h' e s' ⟨rfl, -⟩
    exact ⟨rfl, nofun⟩

/-- What a pause leaves of a flag, by what was there. -/
def Left (s s' : Maintenance) : Prop :=
  ∃ f, s'.flag = some f ∧ f.sound = true ∧ (f.content = PAUSED ↔ Complete s)

/-- What the mode of a new flag is: others do not write it. -/
theorem created_sound : (⟨true, 1, 0, s.created 0o644, PAUSED⟩ : FlagInfo).sound = true := by
  have hmode : s.created 0o644 &&& 0o022 = 0 := by
    unfold Maintenance.created
    rw [Nat.and_assoc, Nat.and_comm _ 0o022, ← Nat.and_assoc]
    exact Nat.zero_and _
  have hlength : PAUSED.length ≤ 128 := by decide
  simp [FlagInfo.sound, hmode, hlength]

variable {rooted : Bool}

theorem meets_pauseAdmission : Meets (pauseAdmission rooted flag) (fun _ r s' => ∀ b, r = .ok b →
    rooted = true ∧ isAbsolute flag = true ∧ Left s s' ∧
      ∃ d, s'.directory = some d ∧ d.real = true ∧ d.trusted = true) h s := by
  unfold pauseAdmission
  refine meets_demanded (fun hrooted => ?_) nofun
  refine meets_demanded (fun habsolute => ?_) nofun
  refine Script.meets_bind meets_trustedDirectory ?_ fun _ _ _ _ => nofun
  rintro h₁ u₁ s₁ ⟨rfl, -⟩
  refine Script.meets_bind meets_ensureDirectory ?_ fun _ _ _ _ => nofun
  intro h₂ u₂ s₂ hflag
  refine Script.meets_bind meets_trustedDirectory ?_ fun _ _ _ _ => nofun
  rintro h₃ u₃ s₃ ⟨rfl, htrusted⟩
  obtain ⟨d, hd, hreal, htrust⟩ := htrusted u₃ rfl
  refine Script.meets_bind meets_createFlag ?_ fun _ _ _ _ => nofun
  -- Whether the flag is new decides what becomes of it.
  rintro h₄ (_ | _) s₄ ⟨hfresh, hexisting⟩
  case false =>
    obtain rfl := hexisting rfl
    apply Script.meets_mono meets_flagged_existing
    rintro h₅ r s₅ ⟨rfl, hsound⟩ b hb
    obtain ⟨f, hf, hsound⟩ := hsound b hb
    refine ⟨hrooted, habsolute, ⟨f, hf, hsound, ?_⟩, d, hd, hreal, htrust⟩
    rw [Complete, ← hflag, hf]
    exact ⟨fun hcontent g hg => Option.some.inj hg ▸ hcontent, fun hcomplete => hcomplete f rfl⟩
  case true =>
    obtain ⟨hnone, rfl⟩ := hfresh rfl
    apply Script.meets_mono (meets_flagged_fresh rfl rfl)
    intro h₅ r s₅ hs b hb
    rw [hs b hb]
    refine ⟨hrooted, habsolute, ⟨_, rfl, created_sound, ?_⟩, d, hd, hreal, htrust⟩
    rw [Complete, ← hflag, hnone]
    exact ⟨fun _ => nofun, fun _ => rfl⟩

/-! ### The verification -/

theorem total_demand_iff {holds : Bool} {text : String} {Q : Unit → Maintenance → Prop} :
    Script.Total maintenance (demand holds text) Q s ↔ holds = true ∧ Q () s := by
  cases holds with
  | true => exact ⟨fun hQ => ⟨rfl, Script.total_pure_iff.mp hQ⟩, fun hQ => Script.total_pure_iff.mpr hQ.2⟩
  | false => exact ⟨fun hQ => absurd hQ Script.not_total_throw, fun hQ => absurd hQ.1 nofun⟩

theorem total_found_iff {γ : Type} (op : MaintenanceOp β) (x : Option γ) (f : γ → β) {Q : β → Maintenance → Prop}
    (hop : s.exec op = x.elim (.error .ENOENT) fun d => .ok (f d, s)) :
    Script.Total maintenance (call op) Q s ↔ ∃ d, x = some d ∧ Q (f d) s := by
  rw [call, Script.total_perform_iff]
  change (∃ y, s.exec op = .ok y ∧ _) ↔ _
  rw [hop]
  cases x with
  | none => simp
  | some d => simp

/-- When a pause is verified. -/
theorem total_verifyAdmissionPause_iff : Script.Total maintenance (verifyAdmissionPause rooted flag) (fun _ t => t = s) s ↔
    rooted = true ∧ isAbsolute flag = true ∧ (∃ d, s.directory = some d ∧ d.real = true ∧ d.trusted = true) ∧
      ∃ f, s.flag = some f ∧ f.sound = true ∧ f.content = PAUSED := by
  unfold verifyAdmissionPause trustedDirectory assertFlag
  simp only [Script.total_bind_iff, total_demand_iff, Bool.and_eq_true,
    total_found_iff (.realpath .directory) s.directory DirectoryInfo.real rfl,
    total_found_iff (.stat .directory) s.directory id rfl, total_found_iff .lstatFlag s.flag id rfl,
    total_found_iff .readFlag s.flag FlagInfo.content rfl, id, beq_iff_eq, and_true]
  constructor
  · rintro ⟨⟨hrooted, habsolute⟩, d, hd, hreal, d', hd', htrusted, f, hf, hsound, f', hf', hcontent⟩
    obtain rfl := Option.some.inj (hd.symm.trans hd')
    obtain rfl := Option.some.inj (hf.symm.trans hf')
    exact ⟨hrooted, habsolute, ⟨d, hd, hreal, htrusted⟩, f, hf, hsound, hcontent⟩
  · rintro ⟨hrooted, habsolute, ⟨d, hd, hreal, htrusted⟩, f, hf, hsound, hcontent⟩
    exact ⟨⟨hrooted, habsolute⟩, d, hd, hreal, d, hd, htrusted, f, hf, hsound, f, hf, hcontent⟩

/-- The servers find any flag, whatever is in it. -/
theorem eval_isAdmissionPaused {w : ServerState Unit} (hw : w.entries flag = true) :
    ((isAdmissionPaused (some flag)).run.eval servers w).1 = .ok true := by
  simp only [isAdmissionPaused]
  split
  · change (Prog.eval servers (.call (.lstat flag) _) w).1 = _
    simp only [Prog.eval, servers, ServerOp.exec, hw]
    cases w.unreadable with
    | true => rfl
    | false => rfl
  · rfl

/-- **What a call that returns leaves**: a pause that is verified where its text was there as a whole, or no flag. -/
theorem runs_pauseAdmission {tr : List (Entry MaintenanceOp Errno)} {existing : Bool} {s' : Maintenance}
    (hruns : Runs maintenance (fun _ => True) (pauseAdmission rooted flag).run s tr (.ok existing) s') :
    Verifiable rooted flag s' ↔ Complete s := by
  obtain ⟨hrooted, habsolute, ⟨f, hf, hsound, hcontent⟩, d, hd⟩ :=
    (meets_pauseAdmission (h := [])).runs hruns existing rfl
  have hvisible : ∀ w : ServerState Unit, w.entries flag = s'.flag.isSome →
      ((isAdmissionPaused (some flag)).run.eval servers w).1 = .ok true := by
    intro w hw
    rw [hf] at hw
    exact eval_isAdmissionPaused hw
  rw [Verifiable, total_verifyAdmissionPause_iff]
  constructor
  · rintro ⟨⟨-, -, -, f', hf', -, htext⟩, -⟩
    obtain rfl := Option.some.inj (hf.symm.trans hf')
    exact hcontent.mp htext
  · intro hcomplete
    exact ⟨⟨hrooted, habsolute, ⟨d, hd⟩, f, hf, hsound, hcontent.mpr hcomplete⟩, hvisible⟩

/-! ### The end of a pause -/

/-- The callback has succeeded before. -/
def Healthy (h : List (Entry MaintenanceOp Errno)) : Prop := ⟨.assertHealthy, .ok ()⟩ ∈ h

/-- The flag was removed, after the callback had succeeded. -/
def Removed (h : List (Entry MaintenanceOp Errno)) : Prop :=
  ∃ h₁ h₂, h = h₁ ++ ⟨.unlinkFlag, .ok ()⟩ :: h₂ ∧ Healthy h₁

/-- What is owed by a call that resumes: the flag is as it was until it was removed, and it is removed after the callback
has succeeded. -/
def owed (s : Maintenance) {γ : Type} (h : List (Entry MaintenanceOp Errno)) (op : MaintenanceOp γ) (s' : Maintenance) :
    Prop :=
  (s'.flag = s.flag ∨ Removed h) ∧ match op with
    | .unlinkFlag => Healthy h
    | _ => True

abbrev Resumes {α : Type} (s : Maintenance) (p : PauseScript α)
    (Q : List (Entry MaintenanceOp Errno) → Except PauseError α → Maintenance → Prop)
    (h : List (Entry MaintenanceOp Errno)) (s' : Maintenance) : Prop :=
  Script.Meets maintenance (fun _ => True) (fun h op s' => owed s h op s') p Q h s'

/-- The operations that look. -/
def looks : {β : Type} → MaintenanceOp β → Prop
  | _, .realpath _ | _, .stat _ | _, .lstatFlag | _, .readFlag | _, .openDirectory | _, .sync | _, .close => True
  | _, _ => False

theorem exec_looks {op : MaintenanceOp β} {b : β} {s' : Maintenance} (hop : looks op) (hexec : s.exec op = .ok (b, s')) :
    s' = s := by
  cases op with
  | realpath place => exact (exec_found (f := DirectoryInfo.real) hexec).choose_spec.2.2
  | stat place => exact (exec_found (f := id) hexec).choose_spec.2.2
  | lstatFlag => exact (exec_found (f := id) hexec).choose_spec.2.2
  | readFlag => exact (exec_found (f := FlagInfo.content) hexec).choose_spec.2.2
  | openDirectory => exact exec_openDirectory hexec
  | sync => exact (Prod.mk.inj (Except.ok.inj hexec)).2.symm
  | close => exact (Prod.mk.inj (Except.ok.inj hexec)).2.symm
  | mkdir | openFlag | write | unlinkFlag | assertHealthy => exact hop.elim

/-- What only looks keeps what is known of the flag and of what was done. -/
theorem resumes_looks {p : PauseScript α} {I : List (Entry MaintenanceOp Errno) → Maintenance → Prop} {s' : Maintenance}
    (hp : Script.Every looks p) (hsnoc : ∀ h x s', I h s' → I (h ++ [x]) s')
    (hI : ∀ h s', I h s' → s'.flag = s.flag ∨ Removed h) (hs : I h s') :
    Resumes s p (fun h' _ s'' => I h' s'') h s' := by
  apply Prog.meets_every (P := looks)
  · intro γ h' op s₁ hop hs₁
    refine ⟨hI h' s₁ hs₁, ?_⟩
    cases op with
    | unlinkFlag => exact hop.elim
    | _ => trivial
  · intro γ op h' s₁ s₂ r hop hs₁ hans
    cases hans with
    | effect hexec =>
      obtain rfl := exec_looks hop hexec
      exact hsnoc _ _ _ hs₁
    | refusal => exact hsnoc _ _ _ hs₁
    | fault => exact hsnoc _ _ _ hs₁
  · exact hp
  · exact hs

theorem looks_demand {holds : Bool} {text : String} : Script.Every looks (demand holds text) := by
  cases holds with
  | true => exact Script.every_pure
  | false => exact Script.every_throw

theorem looks_trustedDirectory {place : Place} : Script.Every looks (trustedDirectory place) := by
  apply Script.every_bind (Script.every_perform trivial)
  intro real
  apply Script.every_bind looks_demand
  intro u
  exact Script.every_bind (Script.every_perform trivial) fun _ => looks_demand

theorem looks_assertFlag : Script.Every looks assertFlag :=
  Script.every_bind (Script.every_perform trivial) fun _ => looks_demand

theorem looks_syncDirectory : Script.Every looks syncDirectory :=
  Script.every_bind (Script.every_perform trivial) fun _ =>
    Script.every_finally (Script.every_perform trivial) (Script.every_perform trivial)

theorem Removed.snoc {x : Entry MaintenanceOp Errno} (hh : Removed h) : Removed (h ++ [x]) := by
  obtain ⟨h₁, h₂, rfl, hhealthy⟩ := hh
  exact ⟨h₁, h₂ ++ [x], by simp, hhealthy⟩

/-- **A call that resumes**, by what it does before the callback, after it, and after the flag is removed. -/
theorem resumes_resumeAdmission {callback : Bool} :
    Resumes s (resumeAdmission rooted callback flag) (fun h' _ s' => s'.flag = s.flag ∨ Removed h') h s := by
  have hbefore : ∀ {α : Type} {p : PauseScript α} {h' : List (Entry MaintenanceOp Errno)} {s' : Maintenance},
      Script.Every looks p → s'.flag = s.flag → Resumes s p (fun _ _ s'' => s''.flag = s.flag) h' s' := by
    intro α p h' s' hp hs
    apply resumes_looks (I := fun _ s'' => s''.flag = s.flag) hp
    · exact fun _ _ _ hs => hs
    · exact fun _ _ hs => .inl hs
    · exact hs
  unfold resumeAdmission
  refine Script.meets_bind (hbefore looks_demand rfl) ?_ fun _ _ _ hs => .inl hs
  intro h₁ u₁ s₁ hs₁
  refine Script.meets_bind (hbefore looks_demand hs₁) ?_ fun _ _ _ hs => .inl hs
  intro h₂ u₂ s₂ hs₂
  refine Script.meets_bind (hbefore looks_trustedDirectory hs₂) ?_ fun _ _ _ hs => .inl hs
  intro h₃ u₃ s₃ hs₃
  refine Script.meets_bind (hbefore looks_assertFlag hs₃) ?_ fun _ _ _ hs => .inl hs
  intro h₄ u₄ s₄ hs₄
  refine Script.meets_call ⟨.inl hs₄, trivial⟩ ?_ fun _ => .inl hs₄
  intro u₅ s₅ hexec
  obtain ⟨_, rfl⟩ := Prod.mk.inj (Except.ok.inj hexec)
  -- From here on the callback has succeeded.
  have hhealthy : Healthy (h₄ ++ [⟨.assertHealthy, .ok u₅⟩]) := List.mem_append_right _ (List.mem_singleton.mpr rfl)
  refine Script.meets_bind (resumes_looks (I := fun h' s' => s'.flag = s.flag ∧ Healthy h') looks_assertFlag ?_ ?_
    ⟨hs₄, hhealthy⟩) ?_ fun _ _ _ hs => .inl hs.1
  · exact fun _ _ _ hs => ⟨hs.1, List.mem_append_left _ hs.2⟩
  · exact fun _ _ hs => .inl hs.1
  rintro h₆ u₆ s₆ ⟨hs₆, hhealthy⟩
  refine Script.meets_call ⟨.inl hs₆, hhealthy⟩ ?_ fun _ => .inl hs₆
  intro u₇ s₇ hexec
  have hremoved : Removed (h₆ ++ [⟨.unlinkFlag, .ok u₇⟩]) := ⟨h₆, [], rfl, hhealthy⟩
  apply Script.meets_mono (resumes_looks (I := fun h' _ => Removed h') looks_syncDirectory ?_ ?_ hremoved)
  · exact fun _ _ _ hs => .inr hs
  · exact fun _ _ _ hs => hs.snoc
  · exact fun _ _ hs => .inr hs

/-! ## Any number of calls -/

/-- The calls are judged one by one, by induction on them. -/
theorem Attempts.judged {start s' : Maintenance} {l : List Attempt} (hl : Attempts rooted flag start l s') :
    ∀ a ∈ l, ∀ existing, a.returned = some (.ok existing) → (Verifiable rooted flag a.after ↔ Complete a.before) := by
  induction hl with
  | first =>
    intro a ha
    cases ha
  | cut hl hvisits hcrash ih =>
    intro a ha existing hreturned
    rcases List.mem_append.mp ha with ha | ha
    · exact ih a ha existing hreturned
    · obtain rfl := List.mem_singleton.mp ha
      cases hreturned
  | returned hl hruns ih =>
    intro a ha existing hreturned
    rcases List.mem_append.mp ha with ha | ha
    · exact ih a ha existing hreturned
    · obtain rfl := List.mem_singleton.mp ha
      obtain rfl := Option.some.inj hreturned
      exact runs_pauseAdmission hruns

end Calls

/-- **Which pauses are verified.** In any sequence of calls, those that return leave a pause that is verified, if and
only if they find no flag, or one whose text is there as a whole. A call that resumes removes the flag after its callback
has succeeded, and leaves it until then. -/
theorem pause_verifiable_iff {rooted : Bool} {flag : String} :
    (∀ start l s', Attempts rooted flag start l s' →
      ((∀ a ∈ l, ∀ existing, a.returned = some (.ok existing) → Verifiable rooted flag a.after) ↔
        ∀ a ∈ l, ∀ existing, a.returned = some (.ok existing) → Complete a.before)) ∧
    (∀ callback s tr s', Visits maintenance (fun _ => True) (resumeAdmission rooted callback flag).run s tr s' →
      s'.flag = s.flag ∨ Removed tr) ∧
    ∀ callback s tr q rest s', Visits maintenance (fun _ => True) (resumeAdmission rooted callback flag).run s
      (tr ++ ⟨.unlinkFlag, q⟩ :: rest) s' → Healthy tr := by
  refine ⟨fun start l s' hl => ?_, fun callback s tr s' hvisits => ?_, fun callback s tr q rest s' hvisits => ?_⟩
  · constructor
    · exact fun hall a ha existing hreturned => (hl.judged a ha existing hreturned).mp (hall a ha existing hreturned)
    · exact fun hall a ha existing hreturned => (hl.judged a ha existing hreturned).mpr (hall a ha existing hreturned)
  · exact (resumes_resumeAdmission (h := [])).invariant (fun _ _ _ howed => howed.1) (fun _ _ _ hs => hs) hvisits
  · obtain ⟨s₁, s₂, -, -, howed⟩ := (resumes_resumeAdmission (h := [])).owes hvisits
    exact howed.2

/-! ## A flag without its text -/

def ADMISSION_FLAG : String := "/var/lib/dp-beget-bridge-maintenance/admission-paused"

def rootDirectory : DirectoryInfo := ⟨true, true, 0, 0o755⟩

/-- Admission is not paused. -/
def opened : Maintenance := ⟨some rootDirectory, some rootDirectory, none, 0o022⟩

/-- A call was cut after it had created the flag. -/
def leftover : Maintenance := opened.withFlag (some ⟨true, 1, 0, 0o644, []⟩)

/-- Admission is paused. -/
def closed : Maintenance := opened.withFlag (some ⟨true, 1, 0, 0o644, PAUSED⟩)

theorem runs_closed : ∃ tr, Runs maintenance (fun _ => True) (pauseAdmission true ADMISSION_FLAG).run opened tr (.ok false)
    closed := by
  have heval : (pauseAdmission true ADMISSION_FLAG).run.eval maintenance opened = (.ok false, closed) := by decide
  refine ⟨(pauseAdmission true ADMISSION_FLAG).run.trace maintenance opened, ?_⟩
  have hruns : Runs maintenance (fun _ => True) _ opened _ _ _ := eval_runs (pauseAdmission true ADMISSION_FLAG).run opened
  rwa [heval] at hruns

theorem runs_leftover : ∃ tr, Runs maintenance (fun _ => True) (pauseAdmission true ADMISSION_FLAG).run leftover tr
    (.ok true) leftover := by
  have heval : (pauseAdmission true ADMISSION_FLAG).run.eval maintenance leftover = (.ok true, leftover) := by decide
  refine ⟨(pauseAdmission true ADMISSION_FLAG).run.trace maintenance leftover, ?_⟩
  have hruns : Runs maintenance (fun _ => True) _ leftover _ _ _ :=
    eval_runs (pauseAdmission true ADMISSION_FLAG).run leftover
  rwa [heval] at hruns

/-- A pause that is verified, and a call that resumes. -/
theorem pause_verifiable_iff_closed : Verifiable true ADMISSION_FLAG closed ∧
    (closed.flag = closed.flag ∨ Removed []) := by
  obtain ⟨tr, hruns⟩ := runs_closed
  have hfirst : Attempts true ADMISSION_FLAG opened [] opened := .first
  refine ⟨?_, pause_verifiable_iff.2.1 true closed [] closed (.here (resumeAdmission true true ADMISSION_FLAG).run closed)⟩
  apply (pause_verifiable_iff.1 opened _ closed (hfirst.returned hruns)).mpr _ ⟨opened, some (.ok false), closed⟩ (by simp) false rfl
  intro a ha existing hreturned f hf
  obtain rfl := List.mem_singleton.mp ha
  cases hf

/-- **A pause that is not verified.** A call is cut after it has created the flag. The next one returns that admission is
paused, and the verification throws. -/
theorem leftover_unverifiable :
    Attempts true ADMISSION_FLAG opened [⟨opened, none, leftover⟩, ⟨leftover, some (.ok true), leftover⟩] leftover ∧
      ¬Verifiable true ADMISSION_FLAG leftover := by
  obtain ⟨tr, hruns⟩ := runs_leftover
  obtain ⟨tr', hvisits⟩ : ∃ tr', Visits maintenance (fun _ => True) _ opened tr' _ :=
    Prog.cut_visits (pauseAdmission true ADMISSION_FLAG).run 6 opened
  have hcut : (pauseAdmission true ADMISSION_FLAG).run.cut maintenance 6 opened = leftover := by decide
  rw [hcut] at hvisits
  refine ⟨.returned (.cut .first hvisits ⟨_, rfl, .inl rfl⟩) hruns, fun hverifiable => ?_⟩
  have hcomplete := (runs_pauseAdmission hruns).mp hverifiable _ rfl
  exact absurd hcomplete (by decide)

end BegetBridge.AdmissionPause
