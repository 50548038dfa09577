import BegetBridge.Interleaving.History
import BegetBridge.Release.CleanInstallJournal

/-!
# The retry of a transition

A transition of the journal of a clean installation that fails keeps its lock file, or gives it back. Which of these is
decided by the failure alone: by its code, or by what its text contains.

## Main definitions

* `answering`: a transition, where the answers change all the time
* `caught`: what is done with a failure
* `Failure`: a transition fails, and that is caught
* `Rejects`, `Expected`: the failures that are rejections, and those that give the lock file back

## Main results

* `kept_of_runs`: the lock file is there until it is removed, and the journal is untouched until it is renamed
* `transition_outcome`: how a transition fails
* `rejected_transition_retryable_iff`: exactly which rejections can be retried
-/

namespace BegetBridge.CleanInstallJournal

open Core Interleaving LockedFile Journal

/-! ## Answers that change -/

/-- The journal, and what will be answered, one time after the other. -/
abbrev Watched := FileState Inspection Finding InstallRecord × (Nat → Inspection → Finding)

abbrev InstallOp := FileOp Inspection Finding InstallRecord

abbrev InstallEntry := Entry InstallOp FileError

def answering : Backend InstallOp FileError Watched where
  exec op x := (op.exec { x.1 with answers := x.2 0 }).map fun y => (y.1, y.2, fun n => x.2 (n + 1))

/-- What is done with a failure. -/
def caught (error : InstallError) : InstallScript InstallRecord := do
  onlyIf error.retried do
    (perform .file .unlock).ignored
    syncDir .file
  throw error

/-- A message, or what an inspection has thrown. -/
def InstallError.Rejects : InstallError → Prop
  | .message _ | .thrown _ _ => True
  | .file _ => False

/-- The messages that are meant to be retried. -/
def retriedMessages : List String :=
  ["Clean-install journal transition rejected", "Clean-install candidate changed during transaction"]

/-- The other messages of a transition. -/
def otherMessages : List String :=
  ["Root is required to advance a clean-install journal",
    "Invalid clean-install journal",
    "Invalid clean-install journal path",
    "Untrusted clean-install journal parent",
    "Untrusted clean-install journal",
    "Clean-install identity plan changed during transaction",
    "Clean-install authorization phase does not match its bound profile",
    "Identity installation has an unresolved lock",
    "Configuration installation has an unresolved lock",
    "Unit installation has an unresolved lock",
    "Data installation has an unresolved lock",
    "Version-root installation has an unresolved lock",
    "Release promotion has an unresolved lock",
    "Clean-install pointer has an unresolved lock",
    "Clean-install systemd reload has an unresolved lock",
    "Clean-install admission pause has an unresolved lock",
    "Clean owner installation has an unresolved lock",
    "Created clean-install identities are unproven",
    "Installed clean-install configuration is unproven",
    "Clean-install unit targets are occupied",
    "Installed clean-install units are unproven",
    "Clean-install data targets are occupied",
    "Installed clean-install data directories are unproven",
    "Clean-install version root target is occupied",
    "Clean-install version root is unproven",
    "Promoted clean-install release is unproven",
    "Clean-install current pointer is unproven",
    "Clean-install systemd boundary is unproven",
    "Clean-install admission target is occupied",
    "Clean-install admission pause is unproven",
    "Clean-install public ingress is not proven closed",
    "Clean-install OAuth owner is unproven",
    "Clean-install running services or paused health are unproven"]

/-- The failures that give the lock file back. Of the messages of a transition itself these are two only. -/
def InstallError.Expected : InstallError → Prop
  | .message text => text ∈ retriedMessages
  | .thrown noEntry text => noEntry = true ∨ contains text "transition rejected" = true ∨
      contains text "candidate changed" = true
  | .file e => e = .missing

/-- The new record has become the journal. -/
def publishes : {β : Type} → InstallOp β → Except FileError β → Bool
  | _, .publish _, .ok _ => true
  | _, _, _ => false

/-- The lock file has been removed. -/
def unlocks : {β : Type} → InstallOp β → Except FileError β → Bool
  | _, .unlock, .ok _ => true
  | _, _, _ => false

def Renamed (h : List InstallEntry) : Prop := ∃ x ∈ h, publishes x.op x.reply = true

def Unlocked (h : List InstallEntry) : Prop := ∃ x ∈ h, unlocks x.op x.reply = true

section Retry

variable {call : InstallCall} {journalPath : String} {h : List InstallEntry} {x x' : Watched} {α β : Type}

theorem renamed_append {more : List InstallEntry} : Renamed (h ++ more) ↔ Renamed h ∨ Renamed more := by
  simp [Renamed, or_and_right, exists_or]

theorem unlocked_append {more : List InstallEntry} : Unlocked (h ++ more) ↔ Unlocked h ∨ Unlocked more := by
  simp [Unlocked, or_and_right, exists_or]

theorem not_renamed_nil : ¬Renamed [] := by
  simp [Renamed]

theorem not_unlocked_nil : ¬Unlocked [] := by
  simp [Unlocked]

theorem renamed_singleton {op : InstallOp β} {r : Except FileError β} :
    Renamed [⟨op, r⟩] ↔ publishes op r = true := by
  simp [Renamed]

theorem unlocked_singleton {op : InstallOp β} {r : Except FileError β} :
    Unlocked [⟨op, r⟩] ↔ unlocks op r = true := by
  simp [Unlocked]

/-! ## The files -/

/-- The journal is the one that was there until it is replaced, and the lock file is there as long as it is not
removed. -/
def Kept (x₀ : Watched) (h : List InstallEntry) (x : Watched) : Prop :=
  (¬Renamed h → x.1.record = x₀.1.record) ∧ (x.1.locked = true ↔ x₀.1.locked = true ∧ ¬Unlocked h)

/-- Every operation but the creation of the lock file. -/
def Inner : {β : Type} → InstallOp β → Prop
  | _, .lock => False
  | _, _ => True

theorem exec_inner {op : InstallOp β} {b : β} {s s' : FileState Inspection Finding InstallRecord} (hinner : Inner op)
    (hexec : op.exec s = .ok (b, s')) :
    (publishes op (.ok b) = false → s'.record = s.record) ∧ s'.locked = (s.locked && !unlocks op (.ok b)) := by
  cases op with
  | lock => exact hinner.elim
  | settle | ask | write =>
    obtain ⟨-, rfl⟩ := Prod.mk.inj (Except.ok.inj hexec)
    simp [publishes, unlocks]
  | read | create | publish | discard =>
    rw [FileOp.exec] at hexec
    split at hexec
    all_goals
      cases hexec
      try simp [publishes, unlocks]
  | unlock =>
    rw [FileOp.exec] at hexec
    split at hexec
    · cases hexec
      simp [publishes, unlocks]
    · cases hexec

theorem kept_answer {x₀ : Watched} {op : InstallOp β} {r : Except FileError β} (hinner : Inner op)
    (hx : Kept x₀ h x) (hans : Answer answering (fun _ => True) op x r x') : Kept x₀ (h ++ [⟨op, r⟩]) x' := by
  have hfailed : ∀ e, Kept x₀ (h ++ [⟨op, .error e⟩]) x := by
    intro e
    rw [Kept, renamed_append, unlocked_append, renamed_singleton, unlocked_singleton]
    simpa [publishes, unlocks, Kept] using hx
  cases hans with
  | refusal _ => exact hfailed _
  | fault _ => exact hfailed _
  | effect hexec =>
    rename_i b
    change (op.exec _).map _ = _ at hexec
    rcases hop : op.exec { x.1 with answers := x.2 0 } with e | ⟨b', s'⟩
    · rw [hop] at hexec
      cases hexec
    · rw [hop] at hexec
      obtain ⟨rfl, rfl⟩ := Prod.mk.inj (Except.ok.inj hexec)
      obtain ⟨hrecord, hlocked⟩ := exec_inner hinner hop
      rw [Kept, renamed_append, unlocked_append, renamed_singleton, unlocked_singleton, not_or, not_or,
        Bool.not_eq_true, Bool.not_eq_true]
      refine ⟨fun hnot => (hrecord hnot.2).trans (hx.1 hnot.1), ?_⟩
      rw [← and_assoc, ← hx.2]
      simp [hlocked]

/-- The program does not create the lock file, and ends in `Q`. -/
abbrev Proper (p : InstallScript α) (Q : List InstallEntry → Except InstallError α → Watched → Prop)
    (h : List InstallEntry) (x : Watched) : Prop :=
  Script.Meets answering (fun _ => True) (fun _ op _ => Inner op) p Q h x

/-- **The lock file is there until it is removed**, and the journal is untouched until a new record is renamed to it. -/
theorem kept_of_runs {x₀ : Watched} {p : InstallScript α} {tr : List InstallEntry}
    {r : Except InstallError α} {Q : List InstallEntry → Except InstallError α → Watched → Prop} (hp : Proper p Q h x)
    (hx : Kept x₀ h x) (hruns : Runs answering (fun _ => True) p.run x tr r x') : Kept x₀ (h ++ tr) x' := by
  change Prog.Meets answering (fun _ => True) (fun _ op _ => Inner op) p.run Q h x at hp
  generalize p.run = q at hruns hp
  induction hruns generalizing h with
  | done =>
    rw [List.append_nil]
    exact hx
  | call hans _ ih =>
    rw [List.append_cons]
    exact ih (kept_answer hp.1 hx hans) (hp.2 _ _ hans)

/-! ## What only asks -/

theorem otherMessages_not_retried : ∀ text ∈ otherMessages, (InstallError.message text).retried = false := by
  simp only [otherMessages, InstallError.retried, contains, List.forall_mem_cons]
  repeat rw [String.toList_ofList]
  decide +kernel

theorem retriedMessages_retried : ∀ text ∈ retriedMessages, (InstallError.message text).retried = true := by
  simp only [retriedMessages, InstallError.retried, contains, List.forall_mem_cons]
  repeat rw [String.toList_ofList]
  decide +kernel

theorem expected_of_other {text : String} (htext : text ∈ otherMessages) :
    (InstallError.message text).retried = true ↔ (InstallError.message text).Expected := by
  have hnot := otherMessages_not_retried text htext
  rw [hnot]
  refine ⟨nofun, fun hexpected => ?_⟩
  rw [← hnot]
  exact retriedMessages_retried text hexpected

theorem expected_of_retried {text : String} (htext : text ∈ retriedMessages) :
    (InstallError.message text).retried = true ↔ (InstallError.message text).Expected :=
  ⟨fun _ => htext, fun _ => retriedMessages_retried text htext⟩

theorem expected_thrown {noEntry : Bool} {text : String} :
    (InstallError.thrown noEntry text).retried = true ↔ (InstallError.thrown noEntry text).Expected := by
  simp [InstallError.retried, InstallError.Expected, or_assoc]

theorem expected_file {e : FileError} :
    (InstallError.file e).retried = true ↔ (InstallError.file e).Expected := by
  simp [InstallError.retried, InstallError.Expected]

/-- Nothing was renamed or removed, and what is thrown is retried where that is expected. -/
def Calm (h : List InstallEntry) (r : Except InstallError α) (h' : List InstallEntry) : Prop :=
  (Renamed h' → Renamed h) ∧ (Unlocked h' → Unlocked h) ∧ ∀ e, r = .error e → (e.retried = true ↔ e.Expected)

/-- A part of a transition that only asks. -/
def Asks (p : InstallScript α) : Prop := ∀ h x, Proper p (fun h' r _ => Calm h r h') h x

theorem asks_pure {a : α} : Asks (pure a) := fun _ _ => ⟨id, id, nofun⟩

theorem asks_throw {e : InstallError} (he : e.retried = true ↔ e.Expected) : Asks (throw e : InstallScript α) :=
  fun _ _ => ⟨id, id, fun e' he' => by rwa [← Except.error.inj he']⟩

theorem asks_demand {holds : Bool} {e : InstallError} (he : e.retried = true ↔ e.Expected) : Asks (demand holds e) := by
  cases holds with
  | true => exact asks_pure
  | false => exact asks_throw he

theorem asks_bind {p : InstallScript β} {f : β → InstallScript α} (hp : Asks p) (hf : ∀ b, Asks (f b)) :
    Asks (p >>= f) := by
  intro h x
  apply Script.meets_bind (hp h x)
  · intro h₁ b x₁ h₁'
    apply Script.meets_mono (hf b h₁ x₁)
    exact fun h₂ r x₂ h₂' => ⟨fun hr => h₁'.1 (h₂'.1 hr), fun hr => h₁'.2.1 (h₂'.2.1 hr), h₂'.2.2⟩
  · exact fun h₁ e x₁ h₁' => ⟨h₁'.1, h₁'.2.1, fun e' he' => h₁'.2.2 e' (by rw [← Except.error.inj he'])⟩

theorem asks_perform {op : InstallOp α} (hinner : Inner op) (hpublishes : ∀ r, publishes op r = false)
    (hunlocks : ∀ r, unlocks op r = false) : Asks (perform .file op) := by
  have hcalm : ∀ (h : List InstallEntry) r, (Renamed (h ++ [⟨op, r⟩]) → Renamed h) ∧
      (Unlocked (h ++ [⟨op, r⟩]) → Unlocked h) := by
    intro h r
    rw [renamed_append, unlocked_append, renamed_singleton, unlocked_singleton, hpublishes, hunlocks]
    simp
  intro h x
  apply Script.meets_perform hinner
  · exact fun a x' _ => ⟨(hcalm h _).1, (hcalm h _).2, nofun⟩
  · exact fun e => ⟨(hcalm h _).1, (hcalm h _).2, fun e' he' => by rw [← Except.error.inj he']; exact expected_file⟩

theorem asks_read : Asks (perform .file .read) := by
  apply asks_perform
  · trivial
  · exact fun _ => rfl
  · exact fun _ => rfl

theorem asks_inspect {q : Inspection} : Asks (inspect q) := by
  apply asks_bind (asks_perform (by trivial) (fun _ => rfl) fun _ => rfl)
  intro found
  split
  · exact asks_throw expected_thrown
  · exact asks_pure

theorem asks_prove {q : Inspection} {expected : Finding} {text : String} (htext : text ∈ otherMessages) :
    Asks (prove q expected text) := by
  apply asks_bind asks_inspect
  exact fun _ => asks_demand (expected_of_other htext)

theorem asks_onlyIf {c : Bool} {p : InstallScript Unit} (hp : Asks p) : Asks (onlyIf c p) := by
  cases c with
  | true => exact hp
  | false => exact asks_pure

theorem asks_validate {record : InstallRecord} : Asks (orThrow (validate record)) := by
  rw [validate]
  split
  · exact asks_pure
  · exact asks_throw (expected_of_other (by simp [otherMessages]))

theorem asks_readCleanInstallJournal : Asks (readCleanInstallJournal journalPath) := by
  apply asks_bind
  · apply asks_bind (asks_demand (expected_of_other (by simp [otherMessages])))
    exact fun _ => asks_prove (by simp [otherMessages])
  intro _
  apply asks_bind (asks_prove (by simp [otherMessages]))
  intro _
  apply asks_bind asks_read
  exact fun _ => asks_validate

theorem asks_inspectCandidate {current : InstallRecord} : Asks (inspectCandidate current) := by
  apply asks_bind
  · apply asks_bind asks_inspect
    intro found
    split
    · exact asks_demand (expected_of_retried (by simp [retriedMessages]))
    · exact asks_throw expected_thrown
  · exact fun _ => asks_prove (by simp [otherMessages])

theorem asks_boundProfile : Asks (boundProfile call) := by
  rw [boundProfile]
  split
  · apply asks_bind asks_inspect
    intro found
    split
    · apply asks_bind (asks_demand (expected_of_other (by simp [otherMessages])))
      exact fun _ => asks_pure
    · exact asks_throw (expected_of_other (by simp [otherMessages]))
  · exact asks_pure

theorem asks_noLeftover {suffix text : String} (htext : text ∈ otherMessages) : Asks (noLeftover suffix text) := by
  have hlooked : Asks (do
      let _ ← inspect (.leftover suffix)
      throw (.message text) : InstallScript Unit) :=
    asks_bind asks_inspect fun _ => asks_throw (expected_of_other htext)
  intro h x
  apply Script.meets_tryCatch (hlooked h x)
  · exact fun h' u x' hcalm => hcalm
  · intro h' e x' hcalm
    split
    · exact ⟨hcalm.1, hcalm.2.1, nofun⟩
    · exact hcalm

theorem asks_noLeftovers {authMode : String} : Asks (noLeftovers call authMode) := by
  rw [noLeftovers]
  iterate 9
    apply asks_bind (asks_onlyIf (asks_noLeftover (by simp [otherMessages])))
    intro _
  exact asks_onlyIf (asks_noLeftover (by simp [otherMessages]))

theorem asks_proofs {authMode : String} : Asks (proofs call authMode) := by
  rw [proofs]
  apply asks_bind (asks_prove (by simp [otherMessages]))
  intro _
  iterate 14
    apply asks_bind (asks_onlyIf (asks_prove (by simp [otherMessages])))
    intro _
  apply asks_onlyIf
  apply asks_bind (asks_prove (by simp [otherMessages]))
  exact fun _ => asks_prove (by simp [otherMessages])

/-! ## How a transition fails -/

/-- How a transition ends: it is a file that fails once the new record has become the journal, and the lock file is
removed after that only. -/
def Outcome (h : List InstallEntry) (r : Except InstallError α) : Prop :=
  (∀ e, r = .error e → (e.retried = true ↔ e.Expected) ∧ (Renamed h → ¬e.Rejects)) ∧ (Unlocked h → Renamed h)

/-- Nothing was renamed or removed. -/
def Before (h : List InstallEntry) : Prop := ¬Renamed h ∧ ¬Unlocked h

theorem outcome_file {e : FileError} (hunlocked : Unlocked h → Renamed h) :
    Outcome h (.error (.file e) : Except InstallError α) := by
  refine ⟨fun e' he' => ?_, hunlocked⟩
  rw [← Except.error.inj he']
  exact ⟨expected_file, fun _ => id⟩

/-- What comes first only asks. -/
theorem outcome_asks {p : InstallScript β} {f : β → InstallScript α} (hh : Before h) (hp : Asks p)
    (hf : ∀ b h' x', Before h' → Proper (f b) (fun h'' r _ => Outcome h'' r) h' x') :
    Proper (p >>= f) (fun h' r _ => Outcome h' r) h x := by
  apply Script.meets_bind (hp h x)
  · exact fun h₁ b x₁ hcalm => hf b h₁ x₁ ⟨fun hr => hh.1 (hcalm.1 hr), fun hu => hh.2 (hcalm.2.1 hu)⟩
  · intro h₁ e x₁ hcalm
    refine ⟨fun e' he' => ?_, fun hu => absurd (hcalm.2.1 hu) hh.2⟩
    rw [← Except.error.inj he']
    exact ⟨hcalm.2.2 e rfl, fun hr => absurd (hcalm.1 hr) hh.1⟩

/-- The lock file was not removed before the new record had become the journal. -/
def Ordered (h : List InstallEntry) : Prop := Unlocked h → Renamed h

/-- What is known at a stage stays known while nothing is renamed or removed. -/
structure Stage (P : List InstallEntry → Prop) : Prop where
  stable : ∀ {β : Type} h (op : InstallOp β) r, publishes op r = false → unlocks op r = false → P h → P (h ++ [⟨op, r⟩])
  ordered : ∀ h, P h → Ordered h

/-- A part that works on the files. It goes from one stage to another, or throws what a file has thrown. -/
def Works (p : InstallScript α) (P P' : List InstallEntry → Prop) : Prop :=
  ∀ h x, P h → Proper p (fun h' r _ => match r with
    | .ok _ => P' h'
    | .error e => Ordered h' ∧ ∃ f, e = .file f) h x

theorem renamed_plain {op : InstallOp β} {r : Except FileError β} (hop : publishes op r = false) :
    Renamed (h ++ [⟨op, r⟩]) ↔ Renamed h := by
  rw [renamed_append, renamed_singleton, hop]
  simp

theorem unlocked_plain {op : InstallOp β} {r : Except FileError β} (hop : unlocks op r = false) :
    Unlocked (h ++ [⟨op, r⟩]) ↔ Unlocked h := by
  rw [unlocked_append, unlocked_singleton, hop]
  simp

theorem stage_before : Stage Before where
  stable h op r hpublishes hunlocks hh := by
    rw [Before, renamed_plain hpublishes, unlocked_plain hunlocks]
    exact hh
  ordered h hh hu := absurd hu hh.2

theorem stage_renamed : Stage Renamed where
  stable _ _ _ hpublishes _ hh := (renamed_plain hpublishes).mpr hh
  ordered _ hh _ := hh

theorem stage_ordered : Stage Ordered where
  stable h op r hpublishes hunlocks hh := by
    rw [Ordered, renamed_plain hpublishes, unlocked_plain hunlocks]
    exact hh
  ordered h hh := hh

variable {P P' P'' : List InstallEntry → Prop}

theorem works_bind {p : InstallScript β} {f : β → InstallScript α} (hp : Works p P P') (hf : ∀ b, Works (f b) P' P'') :
    Works (p >>= f) P P'' := by
  intro h x hP
  apply Script.meets_bind (hp h x hP)
  · exact fun h₁ b x₁ hP' => hf b h₁ x₁ hP'
  · exact fun h₁ e x₁ hfiled => hfiled

/-- An operation that renames and removes nothing. -/
theorem works_plain {op : InstallOp α} (hP : Stage P) (hinner : Inner op) (hpublishes : ∀ r, publishes op r = false)
    (hunlocks : ∀ r, unlocks op r = false) : Works (perform .file op) P P := by
  intro h x hh
  apply Script.meets_perform hinner
  · exact fun a x' _ => hP.stable h op _ (hpublishes _) (hunlocks _) hh
  · exact fun e => ⟨hP.ordered _ (hP.stable h op _ (hpublishes _) (hunlocks _) hh), e, rfl⟩

theorem works_settle (hP : Stage P) : Works (settle .file) P P :=
  works_plain hP (by trivial) (fun _ => rfl) fun _ => rfl

theorem works_closing {p : InstallScript α} (hP' : Stage P') (hp : Works p P P') :
    Works (p.andFinally (settle .file)) P P' := by
  intro h x hh
  apply Script.meets_finally (hp h x hh)
  rintro h₁ (e | a) x₁ hfiled
  · apply Script.meets_mono (works_settle stage_ordered h₁ x₁ hfiled.1)
    rintro h₂ (e' | u) x₂ hsettled
    · exact hsettled
    · exact ⟨hsettled, hfiled.2⟩
  · apply Script.meets_mono (works_settle hP' h₁ x₁ hfiled)
    rintro h₂ (e' | u) x₂ hsettled
    · exact hsettled
    · exact hsettled

theorem works_syncDir (hP : Stage P) : Works (syncDir .file) P P :=
  works_bind (works_settle hP) fun _ => works_closing hP (works_settle hP)

theorem works_publish {name : String} : Works (perform .file (.publish name)) Before Renamed := by
  intro h x hh
  apply Script.meets_perform (by trivial)
  · exact fun a x' _ => renamed_append.mpr (.inr (renamed_singleton.mpr rfl))
  · intro e
    refine ⟨?_, e, rfl⟩
    rw [Ordered, unlocked_plain rfl]
    exact fun hu => absurd hu hh.2

theorem works_unlock : Works (perform .file .unlock) Renamed Renamed := by
  intro h x hh
  apply Script.meets_perform (by trivial)
  · exact fun a x' _ => renamed_append.mpr (.inl hh)
  · exact fun e => ⟨fun _ => renamed_append.mpr (.inl hh), e, rfl⟩

theorem works_unlocked : Works (unlocked .file) Renamed Renamed :=
  works_bind works_unlock fun _ => works_syncDir stage_renamed

/-- **The new record becomes the journal**, or what is thrown comes from a file. -/
theorem works_replaced {temporary : String} {next : InstallRecord} :
    Works (replaced .file temporary next) Before Renamed := by
  apply works_bind (works_plain stage_before (by trivial) (fun _ => rfl) fun _ => rfl)
  intro _
  apply works_bind
  · apply works_closing stage_before
    apply works_bind (works_plain stage_before (by trivial) (fun _ => rfl) fun _ => rfl)
    exact fun _ => works_settle stage_before
  intro _ h x hh
  have hdiscard : Works (perform .file (.discard temporary)) Ordered Ordered :=
    works_plain stage_ordered (by trivial) (fun _ => rfl) fun _ => rfl
  apply Script.meets_tryCatch (works_bind works_publish (fun _ => works_syncDir stage_renamed) h x hh)
  · exact fun h₁ u x₁ hr => hr
  · rintro h₁ e x₁ ⟨hordered, hfile⟩
    apply Script.meets_bind (P := fun h' r _ => Ordered h' ∧ r = .ok ())
    · apply Script.meets_ignored
      apply Script.meets_mono (hdiscard h₁ x₁ hordered)
      rintro h₂ (e' | u) x₂ hdiscarded
      · exact ⟨hdiscarded.1, rfl⟩
      · exact ⟨hdiscarded, rfl⟩
    · exact fun h₂ u x₂ hdiscarded => ⟨hdiscarded.1, hfile⟩
    · exact fun h₂ e' x₂ hdiscarded => absurd hdiscarded.2 nofun

/-- **How a transition fails**: its own messages are retried where that is expected, and once the new record has become
the journal only a file fails. -/
theorem transition_outcome (hh : Before h) :
    Proper (transition call journalPath) (fun h' r _ => Outcome h' r) h x := by
  apply outcome_asks hh asks_readCleanInstallJournal
  intro current h₁ x₁ hh₁
  apply outcome_asks hh₁ (asks_demand (expected_of_retried (by simp [retriedMessages])))
  intro _ h₂ x₂ hh₂
  apply outcome_asks hh₂ asks_inspectCandidate
  intro _ h₃ x₃ hh₃
  apply outcome_asks hh₃ asks_boundProfile
  intro authMode h₄ x₄ hh₄
  apply outcome_asks hh₄ asks_noLeftovers
  intro _ h₅ x₅ hh₅
  apply outcome_asks hh₅ (asks_onlyIf asks_proofs)
  intro _ h₆ x₆ hh₆
  apply outcome_asks hh₆ asks_validate
  intro next h₇ x₇ hh₇
  have hworks : Works (do
      replaced .file call.temporary next
      unlocked .file
      pure next : InstallScript InstallRecord) Before Renamed := by
    apply works_bind works_replaced
    intro _
    apply works_bind works_unlocked
    exact fun _ _ _ hr => hr
  apply Script.meets_mono (hworks h₇ x₇ hh₇)
  rintro h₈ (e | r) x₈ hfiled
  · obtain ⟨hordered, f, rfl⟩ := hfiled
    exact outcome_file hordered
  · exact ⟨nofun, fun _ => hfiled⟩

/-- The handler does not rename, and removes the lock file only for what is retried. -/
theorem caught_outcome {e : InstallError} :
    Proper (caught e) (fun h' _ _ => (Renamed h' → Renamed h) ∧ (Unlocked h' → Unlocked h ∨ e.retried = true)) h x := by
  have hplain : ∀ {op : InstallOp Unit} {h₁ : List InstallEntry} {x₁ : Watched}, Inner op →
      (∀ r, publishes op r = false) → (Renamed h₁ → Renamed h) →
      Proper (perform .file op) (fun h' _ _ => Renamed h' → Renamed h) h₁ x₁ := by
    intro op h₁ x₁ hinner hpublishes hh₁
    apply Script.meets_perform hinner
    · exact fun u x' _ => by rwa [renamed_plain (hpublishes _)]
    · exact fun e' => by rwa [renamed_plain (hpublishes _)]
  have hsettle : ∀ {h₁ : List InstallEntry} {x₁ : Watched}, (Renamed h₁ → Renamed h) →
      Proper (settle .file) (fun h' _ _ => Renamed h' → Renamed h) h₁ x₁ := hplain (by trivial) fun _ => rfl
  apply Script.meets_bind (P := fun h' _ _ => (Renamed h' → Renamed h) ∧ (Unlocked h' → Unlocked h ∨ e.retried = true))
  · by_cases he : e.retried = true
    · -- whatever happens to the lock file, the failure is retried
      rw [onlyIf, if_pos he]
      apply Script.meets_mono (Q := fun h' _ _ => Renamed h' → Renamed h)
      · apply Script.meets_bind (P := fun h' _ _ => Renamed h' → Renamed h)
        · exact Script.meets_ignored (hplain (by trivial) (fun _ => rfl) id)
        · intro h₁ u x₁ hh₁
          apply Script.meets_bind (hsettle hh₁)
          · intro h₂ v x₂ hh₂
            apply Script.meets_finally (hsettle hh₂)
            exact fun h₃ r x₃ hh₃ => hsettle hh₃
          · exact fun h₂ e' x₂ hh₂ => hh₂
        · exact fun h₁ e' x₁ hh₁ => hh₁
      · exact fun h' r x' hh' => ⟨hh', fun _ => .inr he⟩
    · rw [onlyIf, if_neg he]
      exact ⟨id, .inl⟩
  · exact fun h₁ u x₁ hh₁ => hh₁
  · exact fun h₁ e' x₁ hh₁ => hh₁

/-! ## Which rejections can be retried -/

/-- A transition fails under its lock file, and that is caught. -/
structure Failure (call : InstallCall) (journalPath : String) (x : Watched) (e : InstallError) (tr : List InstallEntry)
    (x₁ : Watched) (handling : List InstallEntry) (r : Except InstallError InstallRecord) (x' : Watched) : Prop where
  fails : Runs answering (fun _ => True) (transition call journalPath).run x tr (.error e) x₁
  caught : Runs answering (fun _ => True) (caught e).run x₁ handling r x'

/-- What is claimed of a failure: a rejection leaves the journal alone and gives the lock file back, and what fails
once the new record has become the journal keeps the lock file. -/
def Retryable (x : Watched) (e : InstallError) (tr : List InstallEntry) (x' : Watched) : Prop :=
  (e.Rejects → x'.1.record = x.1.record ∧ x'.1.locked = false) ∧ (Renamed tr → x'.1.locked = true)

/-- Where that is so: the rejection is one of those that are expected, and the lock file can be removed; and once the new
record has become the journal, nothing fails after the lock file is removed, or by a missing name. -/
def Spares (e : InstallError) (tr handling : List InstallEntry) : Prop :=
  (e.Rejects → e.Expected ∧ Unlocked handling) ∧ (Renamed tr → ¬Unlocked tr ∧ ¬(e = .file .missing ∧ Unlocked handling))

theorem kept_self (x : Watched) : Kept x [] x :=
  ⟨fun _ => rfl, fun hlocked => ⟨hlocked, not_unlocked_nil⟩, fun hlocked => hlocked.1⟩

theorem retryable_iff {e : InstallError} {tr handling : List InstallEntry} {x₁ : Watched}
    {r : Except InstallError InstallRecord} (hlocked : x.1.locked = true)
    (hfailure : Failure call journalPath x e tr x₁ handling r x') : Retryable x e tr x' ↔ Spares e tr handling := by
  have hbefore : Before [] := ⟨not_renamed_nil, not_unlocked_nil⟩
  have houtcome : Proper (transition call journalPath) (fun h' r _ => Outcome h' r) [] x := transition_outcome hbefore
  obtain ⟨herror, hordered⟩ := houtcome.runs hfailure.fails
  obtain ⟨hretried, hrenamed⟩ := herror e rfl
  obtain ⟨hnot, hunlocked⟩ := (caught_outcome (h := []) (x := x₁) (e := e)).runs hfailure.caught
  rw [List.nil_append] at hrenamed hordered hnot hunlocked
  -- what is left of the files
  have hmiddle : Kept x tr x₁ := kept_of_runs (transition_outcome (h := []) hbefore) (kept_self x) hfailure.fails
  obtain ⟨hrecord, hleft⟩ : Kept x (tr ++ handling) x' := kept_of_runs caught_outcome hmiddle hfailure.caught
  rw [renamed_append] at hrecord
  rw [unlocked_append, hlocked] at hleft
  have hgiven : x'.1.locked = false ↔ Unlocked tr ∨ Unlocked handling := by
    rw [← Bool.not_eq_true, hleft, eq_self, true_and, not_not]
  -- the handler removes the lock file only for what is expected
  have hexpected : Unlocked handling → e.Expected := fun hu => hretried.mp ((hunlocked hu).resolve_left hbefore.2)
  constructor
  · rintro ⟨hrejected, hafter⟩
    refine ⟨fun hrejects => ?_, fun hr => ?_⟩
    · have hhandling : Unlocked handling :=
        (hgiven.mp (hrejected hrejects).2).resolve_left fun hu => hrenamed (hordered hu) hrejects
      exact ⟨hexpected hhandling, hhandling⟩
    · have hnone := (hleft.mp (hafter hr)).2
      exact ⟨fun hu => hnone (.inl hu), fun hu => hnone (.inr hu.2)⟩
  · rintro ⟨hrejected, hafter⟩
    refine ⟨fun hrejects => ⟨?_, hgiven.mpr (.inr (hrejected hrejects).2)⟩, fun hr => ?_⟩
    · apply hrecord
      rintro (hr | hr)
      · exact hrenamed hr hrejects
      · exact hbefore.1 (hnot hr)
    · obtain ⟨hu, hmissing⟩ := hafter hr
      refine hleft.mpr ⟨rfl, ?_⟩
      rintro (hu' | hu')
      · exact hu hu'
      · cases e with
        | message text => exact hrenamed hr trivial
        | thrown noEntry text => exact hrenamed hr trivial
        | file f => exact hmissing ⟨congrArg _ (hexpected hu'), hu'⟩

/-! ## Calls -/

/-- The lock file is there, and the journal was left alone. -/
def Held (h₀ : List InstallEntry) (x₀ : Watched) (h : List InstallEntry) (x : Watched) : Prop :=
  x.1.record = x₀.1.record ∧ x.1.locked = true ∧ (Renamed h → Renamed h₀)

/-- A part that is done with the lock file, and throws what a file has thrown. -/
def Holds (h₀ : List InstallEntry) (x₀ : Watched) (p : InstallScript Unit) : Prop :=
  ∀ h x, Held h₀ x₀ h x → Script.Meets answering (fun _ => True) (fun _ _ _ => True) p
    (fun h' r x' => Held h₀ x₀ h' x' ∧ ∀ e, r = .error e → ∃ f, e = .file f) h x

variable {h₀ : List InstallEntry} {x₀ : Watched}

theorem holds_settle : Holds h₀ x₀ (settle .file) := by
  intro h x hx
  apply Script.meets_perform trivial
  · intro u x' hexec
    obtain ⟨-, rfl⟩ := Prod.mk.inj (Except.ok.inj hexec)
    exact ⟨⟨hx.1, hx.2.1, fun hr => hx.2.2 ((renamed_plain rfl).mp hr)⟩, nofun⟩
  · exact fun e => ⟨⟨hx.1, hx.2.1, fun hr => hx.2.2 ((renamed_plain rfl).mp hr)⟩,
      fun e' he' => ⟨e, (Except.error.inj he').symm⟩⟩

theorem holds_bind {p q : InstallScript Unit} (hp : Holds h₀ x₀ p) (hq : Holds h₀ x₀ q) : Holds h₀ x₀ (do p; q) := by
  intro h x hx
  apply Script.meets_bind (hp h x hx)
  · exact fun h₁ u x₁ hx₁ => hq h₁ x₁ hx₁.1
  · exact fun h₁ e x₁ hx₁ => hx₁

theorem holds_closing {p : InstallScript Unit} (hp : Holds h₀ x₀ p) : Holds h₀ x₀ (p.andFinally (settle .file)) := by
  intro h x hx
  apply Script.meets_finally (hp h x hx)
  intro h₁ r x₁ hx₁
  apply Script.meets_mono (holds_settle h₁ x₁ hx₁.1)
  rintro h₂ (e | u) x₂ hx₂
  · exact hx₂
  · exact ⟨hx₂.1, hx₁.2⟩

/-- The lock file is created, and the journal left alone. -/
theorem meets_locked :
    Script.Meets answering (fun _ => True) (fun _ _ _ => True) (locked InstallError.file) (fun h' r x' =>
      (x'.1.record = x.1.record ∧ (Renamed h' → Renamed h)) ∧ match r with
        | .ok _ => x'.1.locked = true
        | .error e => ∃ f, e = .file f) h x := by
  apply Script.meets_call trivial
  · intro u x₁ hexec
    have hheld : Held h x (h ++ [⟨.lock, .ok u⟩]) x₁ := by
      refine ⟨?_, ?_, (renamed_plain rfl).mp⟩
      all_goals
        change (FileOp.lock.exec _).map _ = _ at hexec
        rw [FileOp.exec] at hexec
        split at hexec
        · cases hexec
        · obtain ⟨-, rfl⟩ := Prod.mk.inj (Except.ok.inj hexec)
          rfl
    have hrest : Holds h x (do
        Script.andFinally (do settle .file; settle .file) (settle .file)
        syncDir .file) :=
      holds_bind (holds_closing (holds_bind holds_settle holds_settle))
        (holds_bind holds_settle (holds_closing holds_settle))
    apply Script.meets_mono (hrest _ x₁ hheld)
    rintro h₂ (e | v) x₂ ⟨hx₂, hfile⟩
    · exact ⟨⟨hx₂.1, hx₂.2.2⟩, hfile e rfl⟩
    · exact ⟨⟨hx₂.1, hx₂.2.2⟩, hx₂.2.1⟩
  · exact fun e => ⟨⟨rfl, (renamed_plain rfl).mp⟩, e, rfl⟩

/-- What only asks leaves the files alone. -/
theorem Asks.leaves {p : InstallScript α} {tr : List InstallEntry} {r : Except InstallError α} (hp : Asks p)
    (hruns : Runs answering (fun _ => True) p.run x tr r x') :
    ¬Renamed tr ∧ x'.1.record = x.1.record ∧ x'.1.locked = x.1.locked := by
  obtain ⟨hrenamed, hunlocked, -⟩ := (hp [] x).runs hruns
  obtain ⟨hrecord, hlocked⟩ := kept_of_runs (hp [] x) (kept_self x) hruns
  have hnot : ¬Renamed tr := fun hr => not_renamed_nil (hrenamed hr)
  refine ⟨hnot, hrecord hnot, Bool.eq_iff_iff.mpr (hlocked.trans (and_iff_left fun hu => ?_))⟩
  exact not_unlocked_nil (hunlocked hu)

end Retry

/-! ## Runs that are computed -/

def watchedHex (n : Nat) : String := String.ofList (List.replicate n 'a')

def watchedPlan : IdentityPlan := ⟨"agent", "/work", "example.test", "ipc", "mcp", "/release", "group", "worker"⟩

/-- A new installation. -/
def watchedRecord : InstallRecord where
  format := FORMAT
  transactionId := watchedHex 36
  phase := "prepared"
  workspace := "/candidate"
  releaseRoot := "/release"
  manifestSha256 := watchedHex 64
  artifactSha256 := watchedHex 64
  version := "1.0.0"
  commit := watchedHex 40
  identityPlan := watchedPlan

/-- Everything is as it should be, but for the plan. -/
def watchedAnswers (domain : String) : Inspection → Finding
  | .candidate => .candidate (watchedHex 64) (watchedHex 40) "1.0.0"
  | .identityPlan => .plan { watchedPlan with domain := domain }
  | _ => .truth true

def watchedState (domain : String) : Watched :=
  (⟨some watchedRecord, false, fun _ => none, watchedAnswers domain, []⟩, fun _ => watchedAnswers domain)

def firstCall : InstallCall := ⟨watchedHex 36, "prepared", "identities-intent", "/journal.tmp"⟩

/-- Where nothing has changed, the journal is advanced. -/
example : ((advanceCleanInstallJournal firstCall "/journal").run.eval answering (watchedState "example.test")).1.isOk =
    true := by
  decide +kernel

/-- The plan is changed, which is noticed, and the plan is as it was when the call is made again. -/
def rejectedRun : Except InstallError InstallRecord × Watched :=
  (advanceCleanInstallJournal firstCall "/journal").run.eval answering (watchedState "changed.test")

end BegetBridge.CleanInstallJournal
