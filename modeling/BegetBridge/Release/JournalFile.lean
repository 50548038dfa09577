import BegetBridge.Core.Text
import BegetBridge.Interleaving.Faults
import BegetBridge.Interleaving.LockedFile
import BegetBridge.Release.Admission

/-!
# Journals in a file

A journal is a record with a phase, in one file. A transition takes the lock file, reads the record, checks it, writes
the next one to a temporary file and renames that to the journal.

## Main definitions

* `normalize`: the path without empty segments and dots
* `locked`, `replaced`: how a transition begins, and how it replaces the record

## Main results

* `permit_locked`, `permit_replaced`: both are permitted
* `careful_locked`, `careful_replaced`: both report what fails
-/

namespace BegetBridge.Journal

open Core Interleaving LockedFile
open Release (isAbsolute)

/-! ## Texts -/

/-- `[0-9a-f]` -/
def hexChar (c : Char) : Bool := c.isDigit || 'a' ≤ c && c ≤ 'f'

/-- `/^[0-9a-f]{64}$/` -/
def sha256 (s : String) : Bool := within hexChar 64 64 s

/-- `/^[0-9a-f]{40}$/` -/
def commit (s : String) : Bool := within hexChar 40 40 s

/-- `/^[0-9a-f-]{36}$/` -/
def transaction (s : String) : Bool := within (fun c => hexChar c || c == '-') 36 36 s

/-- `phases.indexOf(phase)` -/
def indexOf (phases : List String) (phase : String) : Int :=
  if phase ∈ phases then phases.idxOf phase else -1

/-- One segment of a path, with those before it, the last one first. -/
def climb (absolute : Bool) (stack : List (List Char)) (segment : List Char) : List (List Char) :=
  if segment = [] ∨ segment = ['.'] then stack
  else if segment = ['.', '.'] then
    match stack with
    | [] => if absolute then [] else [segment]
    | top :: rest => if top = ['.', '.'] then segment :: stack else rest
  else segment :: stack

/-- `path.normalize(p)` -/
def normalize (p : String) : String :=
  if p = "" then "."
  else
    let absolute := isAbsolute p
    let trailing := p.toList.getLast? == some '/'
    let body := ['/'].intercalate ((p.toList.splitOn '/').foldl (climb absolute) []).reverse
    if body = [] then if absolute then "/" else if trailing then "./" else "."
    else String.ofList ((if absolute then ['/'] else []) ++ body ++ if trailing then ['/'] else [])

/-- `path.isAbsolute(p) && path.normalize(p) === p` -/
def normalized (p : String) : Bool := isAbsolute p && normalize p == p

example : normalize "/a//b/../c/." = "/a/c" := by decide +kernel

/-! ## The file -/

section Programs

variable {Q V R ξ α : Type} (throws : FileError → ξ)

abbrev FileScript (Q V R ξ α : Type) := Script (FileOp Q V R) FileError ξ α

def demand (holds : Bool) (e : ξ) : FileScript Q V R ξ Unit := if holds then pure () else throw e

def orThrow : Except ξ α → FileScript Q V R ξ α
  | .ok a => pure a
  | .error e => throw e

def perform {β : Type} (op : FileOp Q V R β) : FileScript Q V R ξ β := Script.perform throws op

/-- To write to a handle that others do not read, to synchronise it, or to close it. -/
def settle : FileScript Q V R ξ Unit := perform throws .settle

/-- The directory is opened, synchronised and closed. -/
def syncDir : FileScript Q V R ξ Unit := do
  settle throws
  (settle throws).andFinally (settle throws)

/-- The lock file is created, for this transition only. -/
def locked : FileScript Q V R ξ Unit := do
  perform throws .lock
  (do settle throws; settle throws).andFinally (settle throws)
  syncDir throws

/-- The lock file is removed. -/
def unlocked : FileScript Q V R ξ Unit := do
  perform throws .unlock
  syncDir throws

/-- The next record is written to a temporary file, which becomes the journal. -/
def replaced (temporary : String) (next : R) : FileScript Q V R ξ Unit := do
  perform throws (.create temporary)
  (do perform throws (.write temporary next); settle throws).andFinally (settle throws)
  tryCatch (do perform throws (.publish temporary); syncDir throws) fun error => do
    (perform throws (.discard temporary)).ignored
    throw error

end Programs

/-! ## What is permitted -/

section Along

variable {Q V R κ ξ α : Type} {Change : κ → List (Q × V) → R → R → Prop} {kind : κ} {throws : FileError → ξ}
  {known : Known Q V R}

/-- A program may do what it does. -/
abbrev Permitted (Change : κ → List (Q × V) → R → R → Prop) (kind : κ) (p : FileScript Q V R ξ α)
    (P : Except ξ α → Known Q V R → Prop) (known : Known Q V R) : Prop :=
  Script.Along (allowed Change kind) (fun op r => Known.after op r) p P known

theorem permit_demand {holds : Bool} {e : ξ} {P : Except ξ Unit → Known Q V R → Prop}
    (hok : holds = true → P (.ok ()) known) (herror : P (.error e) known) :
    Permitted Change kind (demand holds e) P known := by
  cases holds with
  | true => exact Script.along_pure (hok rfl)
  | false => exact Script.along_throw herror

theorem permit_orThrow {x : Except ξ α} {P : Except ξ α → Known Q V R → Prop} (hx : P x known) :
    Permitted Change kind (orThrow x) P known := by
  cases x with
  | ok a => exact Script.along_pure hx
  | error e => exact Script.along_throw hx

/-- A failure that a plain operation has: what is known stays, or it is known to be broken. -/
def Known.Failed (known : Known Q V R) (e : FileError) (m : Known Q V R) : Prop :=
  m.notes = known.notes ∧ (m.broken = true ∨ e = .io)

theorem permit_plain {β : Type} {op : FileOp Q V R β} {P : Except ξ β → Known Q V R → Prop} (hplain : op.plain = true)
    (hop : allowed Change kind op known)
    (hok : ∀ b, P (.ok b) { known with notes := known.notes.noted op b 0 })
    (herror : ∀ e m, Known.Failed known e m → P (.error (throws e)) m) :
    Permitted Change kind (perform throws op) P known := by
  refine Script.along_perform hop hok fun e => herror e _ ⟨rfl, ?_⟩
  by_cases he : e = .io
  · exact .inr he
  · refine .inl ?_
    show (known.broken || op.plain && e != .io) = true
    simp [hplain, he]

theorem permit_settle {P : Except ξ Unit → Known Q V R → Prop} (hok : P (.ok ()) known)
    (herror : ∀ e m, Known.Failed known e m → P (.error (throws e)) m) :
    Permitted Change kind (settle throws) P known :=
  permit_plain rfl (.inr trivial) (fun _ => hok) herror

theorem Known.Failed.trans {e e' : FileError} {m m' : Known Q V R} (h : Known.Failed known e m)
    (h' : Known.Failed m e' m') : Known.Failed known e' m' := ⟨h'.1.trans h.1, h'.2⟩

/-- Other settling at the end: what is known stays. -/
theorem permit_settled {p : FileScript Q V R ξ Unit} {P : Except ξ Unit → Known Q V R → Prop}
    (hp : Permitted Change kind p (fun r m => match r with
      | .ok _ => m = known
      | .error x => ∃ e, x = throws e ∧ Known.Failed known e m) known) (hok : P (.ok ()) known)
    (herror : ∀ e m, Known.Failed known e m → P (.error (throws e)) m) :
    Permitted Change kind (p.andFinally (settle throws)) P known := by
  refine Script.along_andFinally (Script.along_mono ?_ hp)
  rintro (x | ⟨⟩) m hm
  · obtain ⟨e, rfl, hm⟩ := hm
    exact permit_settle (herror e m hm) fun e' m' hm' => herror e' m' (hm.trans hm')
  · obtain rfl := hm
    exact permit_settle hok herror

theorem permit_syncDir {P : Except ξ Unit → Known Q V R → Prop} (hok : P (.ok ()) known)
    (herror : ∀ e m, Known.Failed known e m → P (.error (throws e)) m) :
    Permitted Change kind (syncDir throws) P known := by
  refine Script.along_bind (permit_settle ?_ herror)
  exact permit_settled (permit_settle rfl fun e m hm => ⟨e, rfl, hm⟩) hok herror

/-- The lock file is this call's still, or the failure is not that a name is missing. -/
def Known.Left (e : FileError) (m : Known Q V R) : Prop := m.broken = true ∨ m.notes.Inside ∨ e = .io

theorem Known.Failed.left {e : FileError} {m : Known Q V R} (h : Known.Failed known e m) : Known.Left e m :=
  h.2.imp_right .inr

theorem permit_locked {P : Except ξ Unit → Known Q V R → Prop}
    (hstart : known.notes.phase = .outside ∧ known.notes.seen = none ∧ known.notes.staged = none)
    (hok : P (.ok ()) { known with notes := { known.notes with phase := .holding } })
    (herror : ∀ e m, P (.error (throws e)) m) : Permitted Change kind (locked throws) P known := by
  refine Script.along_bind (Script.along_perform (.inr hstart) ?_ fun e => herror e _)
  rintro ⟨⟩
  refine Script.along_bind (permit_settled (Script.along_bind (permit_settle ?_ ?_)) ?_ ?_)
  · exact permit_settle rfl fun e m hm => ⟨e, rfl, hm⟩
  · exact fun e m hm => ⟨e, rfl, hm⟩
  · exact permit_syncDir hok fun e m _ => herror e m
  · exact fun e m _ => herror e m

theorem permit_unlocked {P : Except ξ Unit → Known Q V R → Prop} (hinside : known.notes.Inside)
    (hok : P (.ok ()) { known with notes := { known.notes with phase := .gone } })
    (herror : ∀ e m, Known.Left e m → P (.error (throws e)) m) :
    Permitted Change kind (unlocked throws) P known := by
  refine Script.along_bind (Script.along_perform (.inr hinside) ?_ fun e => herror e _ (.inr (.inl hinside)))
  rintro ⟨⟩
  exact permit_syncDir hok fun e m hm => herror e m hm.left

/-- A call that holds the lock file may replace the record that it has read. -/
theorem permit_replaced {P : Except ξ Unit → Known Q V R → Prop} {temporary : String} {next : R}
    (hphase : known.notes.phase = .holding) (hstaged : known.notes.staged = none)
    (hchange : ∃ prev, known.notes.seen = some prev ∧ Change kind known.notes.asked prev next)
    (hok : ∀ m, m.notes.phase = .published → m.notes.publishedAt.isSome = true → P (.ok ()) m)
    (herror : ∀ e m, Known.Left e m → P (.error (throws e)) m) :
    Permitted Change kind (replaced throws temporary next) P known := by
  refine Script.along_bind (Script.along_perform (.inr ⟨hphase, hstaged⟩) ?_ fun e => herror e _ (.inr (.inl (.inl hphase))))
  rintro ⟨⟩
  -- until the record is published, the call holds the lock file
  have hheld : ∀ e (m : Known Q V R), m.notes.phase = .holding → P (.error (throws e)) m := fun e m hm =>
    herror e m (.inr (.inl (.inl hm)))
  have hdiscard : ∀ e (m : Known Q V R), m.notes.Inside →
      Permitted Change kind (do (perform throws (.discard temporary)).ignored; throw (throws e)) P m := by
    intro e m hm
    refine Script.along_bind (Script.along_ignored (Script.along_perform (.inr hm) ?_ ?_))
    · exact fun _ => Script.along_throw (herror e _ (.inr (.inl hm)))
    · exact fun _ => Script.along_throw (herror e _ (.inr (.inl hm)))
  refine Script.along_bind (Script.along_andFinally (Script.along_bind (permit_plain rfl ?_ (fun ⟨⟩ => ?_) ?_)))
  · exact .inr ⟨hphase, hstaged, rfl, hchange⟩
  · refine permit_settle (permit_settle ?_ ?_) ?_
    · -- the record is in the temporary file
      refine Script.along_tryCatch (Script.along_bind (Script.along_perform (.inr ⟨hphase, next, rfl⟩) (fun ⟨⟩ => ?_) ?_))
      · exact permit_syncDir (hok _ rfl rfl) fun e m hm => hdiscard e m (.inr (hm.1 ▸ rfl))
      · exact fun e => hdiscard e _ (.inl hphase)
    · exact fun e m hm => hheld e m (hm.1 ▸ hphase)
    · intro e m hm
      exact permit_settle (hheld e m (hm.1 ▸ hphase)) fun e' m' hm' => hheld e' m' ((hm'.1.trans hm.1) ▸ hphase)
  · intro e m hm
    exact permit_settle (hheld e m (hm.1 ▸ hphase)) fun e' m' hm' => hheld e' m' ((hm'.1.trans hm.1) ▸ hphase)

end Along

/-! ## What is reported -/

section Careful

variable {Q V R ξ α : Type} {throws : FileError → ξ} {Fault : FileError → Prop}

theorem careful_demand {holds : Bool} {e : ξ} : Script.Careful Fault (Journal.demand holds e : FileScript Q V R ξ Unit) := by
  cases holds with
  | true => exact Script.careful_pure
  | false => exact Script.careful_throw

theorem careful_orThrow {x : Except ξ α} : Script.Careful Fault (orThrow x : FileScript Q V R ξ α) := by
  cases x with
  | ok a => exact Script.careful_pure
  | error e => exact Script.careful_throw

theorem careful_syncDir : Script.Careful Fault (syncDir throws : FileScript Q V R ξ Unit) := by
  apply Script.careful_bind Script.careful_perform
  exact fun _ => Script.careful_finally Script.careful_perform Script.careful_perform

theorem careful_locked : Script.Careful Fault (locked throws : FileScript Q V R ξ Unit) := by
  apply Script.careful_bind Script.careful_perform
  intro _
  apply Script.careful_bind
  · apply Script.careful_finally
    · exact Script.careful_bind Script.careful_perform fun _ => Script.careful_perform
    · exact Script.careful_perform
  · exact fun _ => careful_syncDir

theorem careful_unlocked : Script.Careful Fault (unlocked throws : FileScript Q V R ξ Unit) :=
  Script.careful_bind Script.careful_perform fun _ => careful_syncDir

theorem careful_replaced {temporary : String} {next : R} :
    Script.Careful Fault (replaced throws temporary next : FileScript Q V R ξ Unit) := by
  apply Script.careful_bind Script.careful_perform
  intro _
  apply Script.careful_bind
  · apply Script.careful_finally
    · exact Script.careful_bind Script.careful_perform fun _ => Script.careful_perform
    · exact Script.careful_perform
  · intro _
    apply Script.careful_tryCatch
    · exact Script.careful_bind Script.careful_perform fun _ => careful_syncDir
    · exact fun e => Script.throws_bind fun _ => Script.throws_throw

end Careful

end BegetBridge.Journal
