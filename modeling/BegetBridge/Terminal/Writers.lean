import BegetBridge.Interleaving.Pool
import BegetBridge.Terminal.HostSpecs

/-!
# The writers of a session

Closing a session, degrading it, saving it for the first time and purging it are programs of several
steps each, which read the row, write the whole row and then `session.json`. They may run at the same
time. Where a writer replaces a row that is no longer the one it has read, what the other one wrote is
lost: a closed session may be open again, a degraded one active, and a purged one back.

Where no writer does, the session only moves on.

## Main definitions

* `Writing`, `writers`: the programs, and the pool they run in
* `Session.Onward`: what may not be lost
* `undisturbed`: the condition on the steps of a run
* `Moves`: how the store changes then

## Main results

* `save_moves`, `closeSession_moves`, `updateTranscript_moves`, `purgeSession_moves`: the programs
* `session_onward`: runs whose steps all meet the condition
-/

namespace BegetBridge.Terminal

open Core Relational Interleaving Transcript

/-! ## The pool -/

/-- The host, and whether the row of the session has been written there. -/
structure Life where
  host : Host
  been : Bool

/-- What the writers of a session see of it. -/
def Life.view (id : String) (l : Life) : Option Session × Bool := (l.host.row id, l.been)

/-- The writers of a session. A degradation comes from a read, and the first save from `open`. -/
inductive Writing (id : String)
  | opening (session : Session) (hid : session.id = id)
  | close (now : Nat)
  | degrade (reason : CaptureGap)
  | purge
  deriving DecidableEq

/-- What a writer has seen of the session: what it read first, or what it wrote itself. -/
abbrev Seen := Option (Option Session × Bool)

/-- A writer returns the session that it has saved. -/
def Writing.program {id : String} : Writing id → Prog HostOp FsError (Except Thrown (Option Session))
  | .opening session _ => (some <$> save session).run
  | .close now => (some <$> closeSession id now).run
  | .degrade reason => (some <$> updateTranscript id (degradedBy reason)).run
  | .purge => ((fun _ => none) <$> purgeSession id).run

/-- The operation writes the row of the session. -/
def Service.writesRow (id : String) {β : Type} : Service β → Bool
  | .upsert s => s.id == id
  | _ => false

def HostOp.writesRow (id : String) {β : Type} : HostOp β → Bool
  | .service op => op.writesRow id
  | .file _ _ => false

/-- What a writer has seen after an operation that leads to `l`. -/
def Service.seen (id : String) (l : Life) (seen : Seen) {β : Type} : Service β → Seen
  | .select _ => seen.or (some (l.view id))
  | .upsert _ => some (l.view id)
  | _ => seen

/-- The writers of a session, while anything may happen to other sessions, to the transcripts and to the
terminals. Any operation may fail. -/
def writers (id : String) :
    Calls HostOp FsError Life (Writing id) Seen Unit (Except Thrown (Option Session)) where
  exec op l := (op.exec l.host).map fun r => (r.1, ⟨r.2, l.been || op.writesRow id⟩)
  Fault e := e = .fault
  ready _ _ := True
  program := Writing.program
  notes
    | .opening _ _ => some (none, false)
    | _ => none
  note
    | .service op, _, l, seen => op.seen id l seen
    | .file _ _, _, _, seen => seen
  elsewhere _ l l' := l'.view id = l.view id ∧
    (l'.host.dirs.lookup id).map (fun d => (d.metadata, d.part)) =
      (l.host.dirs.lookup id).map fun d => (d.metadata, d.part)

/-! ## Moving on -/

/-- A session that is closed stays closed as of then, and one that is degraded with a reason stays so. -/
structure Session.Onward (s s' : Session) : Prop where
  closed : ∀ t, s.closedAt = some t → s'.closedAt = some t
  degraded : s.transcriptCaptureState = .DEGRADED → ∀ reason, s.transcriptGapReason = some reason →
    s'.transcriptCaptureState = .DEGRADED ∧ s'.transcriptGapReason = some reason

/-- The condition on an operation of a writer. A row is replaced only where it is still what the writer
has seen, or already what it writes, and `session.json` is written only after the row that is there. A
degradation does not begin with a session that is degraded for another reason. -/
def Service.Undisturbed {id : String} (kind : Writing id) (seen : Seen) (l : Life) {β : Type} :
    Service β → Prop
  | .select _ => ∀ reason, kind = .degrade reason → seen = none → ∀ s ∈ l.host.row id,
      s.transcriptCaptureState = .DEGRADED →
        s.transcriptGapReason = none ∨ s.transcriptGapReason = some reason
  | .mkdir _ => seen = some (l.view id) ∨ (l.host.row id).isSome
  | .upsert s => seen = some (l.view id) ∨ l.host.row id = some s.row
  | .writePart _ _ => seen = some (l.view id) ∨ l.host.dirs.lookup id = none
  | _ => True

def HostOp.Undisturbed {id : String} (kind : Writing id) (seen : Seen) (l : Life) {β : Type} :
    HostOp β → Prop
  | .service op => op.Undisturbed kind seen l
  | .file _ _ => True

def undisturbed (id : String) : Condition HostOp Life (Writing id) Seen Unit where
  operation kind seen _ op l := op.Undisturbed kind seen l
  beside _ _ _ _ := True
  elsewhere _ _ := True
  aside _ _ _ _ := True

/-- What the row says, if there still is one, is onward from `w`. -/
def RowAt (id : String) (w : Session) (l : Life) : Prop :=
  l.been = true ∧ ∀ r ∈ l.host.row id, w.Onward r

def PartAt (id : String) (w : Session) (l : Life) : Prop := ∀ p ∈ l.host.part id, w.Onward p

def MetadataAt (id : String) (w : Session) (l : Life) : Prop := ∀ m ∈ l.host.metadata id, w.Onward m

/-- `session.json` and the file it is written through are not ahead of the row. -/
structure Agrees (id : String) (l : Life) : Prop where
  been : (l.host.row id).isSome → l.been = true
  fresh : l.been = false → l.host.metadata id = none ∧ l.host.part id = none
  metadata_row : ∀ m ∈ l.host.metadata id, ∀ r ∈ l.host.row id, m.Onward r
  part_row : ∀ p ∈ l.host.part id, ∀ r ∈ l.host.row id, p.Onward r
  metadata_part : ∀ m ∈ l.host.metadata id, ∀ p ∈ l.host.part id, m.Onward p

/-- How the writers change the store where none disturbs another one. -/
structure Moves (id : String) (l l' : Life) : Prop where
  agrees : Agrees id l → Agrees id l'
  been : l.been = true → l'.been = true
  row : ∀ w, RowAt id w l → RowAt id w l'
  part : ∀ w, RowAt id w l → PartAt id w l → PartAt id w l'
  metadata : ∀ w, RowAt id w l → PartAt id w l → MetadataAt id w l → MetadataAt id w l'
  gone : l.been = true → l.host.row id = none → l'.host.row id = none
  removed : l.been = true → l.host.row id = none → l.host.dirs.lookup id = none →
    l'.host.dirs.lookup id = none

/-- What a writer that returns a session has reached, and one that purges it. -/
def Reached (id : String) : Writing id → Except Thrown (Option Session) → Life → Prop
  | kind, .ok (some s), l => RowAt id s l ∧ PartAt id s l ∧ MetadataAt id s l ∧
      ∀ now, kind = .close now → s.closedAt.isSome = true
  | .purge, .ok none, l => l.been = true ∧ l.host.row id = none ∧ l.host.dirs.lookup id = none
  | _, _, _ => True

section Moves

variable {id : String} {l l₁ l₂ l₃ : Life} {s s' s'' w : Session}

theorem Session.Onward.refl (s : Session) : s.Onward s := ⟨fun _ h => h, fun h _ h' => ⟨h, h'⟩⟩

theorem Session.Onward.trans (h : s.Onward s') (h' : s'.Onward s'') : s.Onward s'' where
  closed t ht := h'.closed t (h.closed t ht)
  degraded hs reason hreason := by
    obtain ⟨hs', hreason'⟩ := h.degraded hs reason hreason
    exact h'.degraded hs' reason hreason'

theorem onward_row (s : Session) : s.Onward s.row := ⟨fun _ h => h, fun h _ h' => ⟨h, h'⟩⟩

theorem row_onward (s : Session) : s.row.Onward s := ⟨fun _ h => h, fun h _ h' => ⟨h, h'⟩⟩

theorem onward_normalized {existing : Option Session} (h : s.Onward s') :
    s.Onward (s'.normalized existing) where
  closed := h.closed
  degraded hs reason hreason := by
    obtain ⟨hs', hreason'⟩ := h.degraded hs reason hreason
    refine ⟨hs', ?_⟩
    rw [Session.normalized, hreason']
    rfl

theorem onward_closed (s : Session) (now : Nat) : s.Onward (s.closed now) where
  closed t ht := by
    rw [Session.closed, ht]
    rfl
  degraded hs reason hreason := ⟨by rw [Session.closed, if_pos hs], hreason⟩

theorem onward_degraded {reason : CaptureGap} (h : s.transcriptCaptureState = .DEGRADED →
    s.transcriptGapReason = none ∨ s.transcriptGapReason = some reason) :
    s.Onward (s.updated (degradedBy reason)) where
  closed _ ht := ht
  degraded hs reason' hreason := by
    refine ⟨rfl, ?_⟩
    rcases h hs with hnone | hsome
    · rw [hnone] at hreason
      exact absurd hreason nofun
    · rw [hsome] at hreason
      exact hreason

theorem Moves.refl (l : Life) : Moves id l l where
  agrees h := h
  been h := h
  row _ h := h
  part _ _ h := h
  metadata _ _ _ h := h
  gone _ h := h
  removed _ _ h := h

theorem Moves.trans (h : Moves id l₁ l₂) (h' : Moves id l₂ l₃) : Moves id l₁ l₃ where
  agrees ha := h'.agrees (h.agrees ha)
  been hb := h'.been (h.been hb)
  row w hr := h'.row w (h.row w hr)
  part w hr hp := h'.part w (h.row w hr) (h.part w hr hp)
  metadata w hr hp hm := h'.metadata w (h.row w hr) (h.part w hr hp) (h.metadata w hr hp hm)
  gone hb hg := h'.gone (h.been hb) (h.gone hb hg)
  removed hb hg hd := h'.removed (h.been hb) (h.gone hb hg) (h.removed hb hg hd)

/-- What a writer has reached stays reached. -/
theorem Reached.moves {kind : Writing id} {r : Except Thrown (Option Session)} (h : Reached id kind r l₁)
    (hm : Moves id l₁ l₂) : Reached id kind r l₂ := by
  rcases r with e | _ | s
  · cases kind <;> exact trivial
  · cases kind with
    | purge =>
      obtain ⟨hbeen, hrow, hdir⟩ := h
      exact ⟨hm.been hbeen, hm.gone hbeen hrow, hm.removed hbeen hrow hdir⟩
    | _ => exact trivial
  · obtain ⟨hrow, hpart, hmeta, hclosed⟩ : RowAt id s l₁ ∧ PartAt id s l₁ ∧ MetadataAt id s l₁ ∧
        ∀ now, kind = .close now → s.closedAt.isSome = true := by cases kind <;> exact h
    have hreached : RowAt id s l₂ ∧ PartAt id s l₂ ∧ MetadataAt id s l₂ ∧
        ∀ now, kind = .close now → s.closedAt.isSome = true :=
      ⟨hm.row s hrow, hm.part s hrow hpart, hm.metadata s hrow hpart hmeta, hclosed⟩
    cases kind <;> exact hreached

end Moves

/-! ## The operations of a writer -/

section Operations

variable {id : String} {l : Life} {h : Host} {dir : SessionDir} {s w : Session}

/-- What happens elsewhere. -/
theorem moves_elsewhere {l' : Life} (h : (writers id).elsewhere () l l') : Moves id l l' := by
  obtain ⟨hview, hdir⟩ := h
  have hrow : l'.host.row id = l.host.row id := congrArg Prod.fst hview
  have hbeen : l'.been = l.been := congrArg Prod.snd hview
  have hmeta : l'.host.metadata id = l.host.metadata id := by
    have := congrArg (fun x => x.bind Prod.fst) hdir
    rwa [Option.bind_map, Option.bind_map] at this
  have hpart : l'.host.part id = l.host.part id := by
    have := congrArg (fun x => x.bind Prod.snd) hdir
    rwa [Option.bind_map, Option.bind_map] at this
  refine ⟨fun ha => ⟨?_, ?_, ?_, ?_, ?_⟩, ?_, ?_, ?_, ?_, ?_, ?_⟩
  · rw [hrow, hbeen]
    exact ha.been
  · rw [hbeen, hmeta, hpart]
    exact ha.fresh
  · rw [hmeta, hrow]
    exact ha.metadata_row
  · rw [hpart, hrow]
    exact ha.part_row
  · rw [hmeta, hpart]
    exact ha.metadata_part
  · rw [hbeen]
    exact fun hb => hb
  · intro w hr
    rwa [RowAt, hrow, hbeen]
  · intro w _ hp
    rwa [PartAt, hpart]
  · intro w _ _ hm
    rwa [MetadataAt, hmeta]
  · intro _ hgone
    rwa [hrow]
  · intro _ _ hno
    rw [hno] at hdir
    exact Option.map_eq_none_iff.mp hdir

/-- A directory is made where the session is there, or has never been there. -/
theorem moves_mkdir (hthere : (l.host.row id).isSome ∨ l.been = false) :
    Moves id l ⟨if (l.host.dirs.lookup id).isSome then l.host else l.host.setDir id .empty, l.been⟩ := by
  by_cases hdir : (l.host.dirs.lookup id).isSome = true
  · rw [if_pos hdir]
    exact .refl l
  · rw [if_neg hdir]
    have hlook : (l.host.setDir id .empty).dirs.lookup id = some .empty := by rw [lookup_setDir, if_pos rfl]
    have hmeta : (l.host.setDir id .empty).metadata id = none := metadata_of_lookup hlook
    have hpart : (l.host.setDir id .empty).part id = none := part_of_lookup hlook
    refine ⟨fun ha => ⟨ha.been, fun _ => ⟨hmeta, hpart⟩, ?_, ?_, ?_⟩, fun hb => hb, fun _ hr => hr, ?_, ?_,
      fun _ hg => hg, ?_⟩
    · intro m hm
      rw [hmeta] at hm
      exact absurd hm nofun
    · intro p hp
      rw [hpart] at hp
      exact absurd hp nofun
    · intro m hm
      rw [hmeta] at hm
      exact absurd hm nofun
    · intro w _ _ p hp
      rw [hpart] at hp
      exact absurd hp nofun
    · intro w _ _ _ m hm
      rw [hmeta] at hm
      exact absurd hm nofun
    · intro hbeen hgone _
      -- a session that is gone has been there
      rcases hthere with hsome | hnew
      · rw [hgone] at hsome
        exact absurd hsome nofun
      · rw [hnew] at hbeen
        exact absurd hbeen nofun

/-- A row is replaced by one that is onward from it. -/
theorem moves_upsert (hid : w.id = id) (honward : ∀ r ∈ l.host.row id, r.Onward w)
    (hnew : l.host.row id = none → l.been = false) :
    Moves id l ⟨{ l.host with rows := l.host.rows.upsert w.row }, true⟩ := by
  have hrow : Host.row { l.host with rows := l.host.rows.upsert w.row } id = some w.row := by
    rw [row_upsert]
    exact if_pos hid
  have hto : ∀ u : Session, (∀ r ∈ l.host.row id, u.Onward r) → (l.host.row id).isSome → u.Onward w.row := by
    intro u hu hsome
    obtain ⟨r, hr⟩ := Option.isSome_iff_exists.mp hsome
    exact ((hu r hr).trans (honward r hr)).trans (onward_row w)
  have hsome : l.been = true → (l.host.row id).isSome := by
    intro hbeen
    rw [Option.isSome_iff_ne_none]
    intro hnone
    rw [hnew hnone] at hbeen
    exact absurd hbeen nofun
  refine ⟨fun ha => ⟨fun _ => rfl, nofun, ?_, ?_, ha.metadata_part⟩, fun _ => rfl, ?_, ?_, ?_, ?_, ?_⟩
  · intro m hm r hr
    obtain rfl := Option.some.inj (hrow.symm.trans hr)
    refine hto m (ha.metadata_row m hm) ?_
    by_cases hbeen : l.been = true
    · exact hsome hbeen
    · have hnone := (ha.fresh (by simpa using hbeen)).1
      exact absurd (hnone.symm.trans hm) nofun
  · intro p hp r hr
    obtain rfl := Option.some.inj (hrow.symm.trans hr)
    refine hto p (ha.part_row p hp) ?_
    by_cases hbeen : l.been = true
    · exact hsome hbeen
    · have hnone := (ha.fresh (by simpa using hbeen)).2
      exact absurd (hnone.symm.trans hp) nofun
  · rintro u ⟨hbeen, hu⟩
    refine ⟨rfl, fun r hr => ?_⟩
    obtain rfl := Option.some.inj (hrow.symm.trans hr)
    exact hto u hu (hsome hbeen)
  · exact fun _ _ hp => hp
  · exact fun _ _ _ hm => hm
  · intro hbeen hnone
    rw [hnew hnone] at hbeen
    exact absurd hbeen nofun
  · intro hbeen hnone
    rw [hnew hnone] at hbeen
    exact absurd hbeen nofun

/-- The next `session.json` is written, of the row that is there. -/
theorem moves_writePart (hdir : l.host.dirs.lookup id = some dir) (hrow : l.host.row id = some s.row) :
    Moves id l ⟨l.host.setDir id { dir with part := some s }, l.been⟩ := by
  have hlook : (l.host.setDir id { dir with part := some s }).dirs.lookup id =
      some { dir with part := some s } := by rw [lookup_setDir, if_pos rfl]
  have hpart := part_of_lookup hlook
  have hmeta := (metadata_of_lookup hlook).trans (metadata_of_lookup hdir).symm
  refine ⟨fun ha => ⟨ha.been, ?_, ?_, ?_, ?_⟩, fun hb => hb, fun _ hr => hr, ?_, ?_, fun _ hg => hg, ?_⟩
  · intro hfresh
    have := ha.been (by rw [hrow]; rfl)
    rw [hfresh] at this
    exact absurd this nofun
  · rw [hmeta]
    exact ha.metadata_row
  · intro p hp r hr
    obtain rfl := Option.some.inj (hpart.symm.trans hp)
    obtain rfl := Option.some.inj (hrow.symm.trans hr)
    exact onward_row _
  · intro m hm p hp
    rw [hmeta] at hm
    obtain rfl := Option.some.inj (hpart.symm.trans hp)
    exact (ha.metadata_row m hm _ hrow).trans (row_onward _)
  · rintro u ⟨-, hu⟩ - p hp
    obtain rfl := Option.some.inj (hpart.symm.trans hp)
    exact (hu _ hrow).trans (row_onward _)
  · intro u _ _ hm
    rwa [MetadataAt, hmeta]
  · intro _ hgone
    exact absurd (hrow.symm.trans hgone) nofun

/-- It becomes `session.json`. -/
theorem moves_renamePart (hdir : l.host.dirs.lookup id = some dir) (hpart : dir.part = some s) :
    Moves id l ⟨l.host.setDir id { dir with metadata := some s, part := none }, l.been⟩ := by
  have hlook : (l.host.setDir id { dir with metadata := some s, part := none }).dirs.lookup id =
      some { dir with metadata := some s, part := none } := by rw [lookup_setDir, if_pos rfl]
  have hnone : _ = none := part_of_lookup hlook
  have hmeta : _ = some s := metadata_of_lookup hlook
  have hold : s ∈ l.host.part id := (part_of_lookup hdir).trans hpart
  have hno : ∀ p, p ∈ Host.part _ id → False := fun p hp => absurd (hnone.symm.trans hp) nofun
  refine ⟨fun ha => ⟨ha.been, ?_, ?_, fun p hp => (hno p hp).elim, fun _ _ p hp => (hno p hp).elim⟩,
    fun hb => hb, fun _ hr => hr, fun _ _ _ p hp => (hno p hp).elim, ?_, fun _ hg => hg, ?_⟩
  · intro hfresh
    have := (ha.fresh hfresh).2
    exact absurd (hold.symm.trans this) nofun
  · intro m hm
    obtain rfl := Option.some.inj (hmeta.symm.trans hm)
    exact ha.part_row _ hold
  · intro u _ hp _ m hm
    obtain rfl := Option.some.inj (hmeta.symm.trans hm)
    exact hp _ hold
  · intro _ _ hgone
    exact absurd (hdir.symm.trans hgone) nofun

theorem moves_deleteRow :
    Moves id l ⟨{ l.host with rows := l.host.rows.delete fun s => s.id == id }, l.been⟩ := by
  have hrow : Host.row { l.host with rows := l.host.rows.delete fun s => s.id == id } id = none := by
    rw [row_delete]
    exact if_pos rfl
  have hno : ∀ r, r ∈ Host.row { l.host with rows := l.host.rows.delete fun s => s.id == id } id →
      False := fun r hr => absurd (hrow.symm.trans hr) nofun
  refine ⟨fun ha => ⟨?_, ha.fresh, fun _ _ r hr => (hno r hr).elim, fun _ _ r hr => (hno r hr).elim,
    ha.metadata_part⟩, fun hb => hb, fun w hr => ⟨hr.1, fun r hr => (hno r hr).elim⟩, fun _ _ hp => hp,
    fun _ _ _ hm => hm, fun _ _ => hrow, fun _ _ hd => hd⟩
  intro hsome
  obtain ⟨r, hr⟩ := Option.isSome_iff_exists.mp hsome
  exact (hno r hr).elim

theorem moves_rmdir : Moves id l ⟨{ l.host with dirs := l.host.dirs.erase id }, l.been⟩ := by
  have hlook : (l.host.dirs.erase id).lookup id = none := AList.lookup_erase _ _
  have hmeta : Host.metadata { l.host with dirs := l.host.dirs.erase id } id = none := by
    rw [Host.metadata, hlook]
    rfl
  have hpart : Host.part { l.host with dirs := l.host.dirs.erase id } id = none := by
    rw [Host.part, hlook]
    rfl
  have hnometa : ∀ m, m ∈ Host.metadata { l.host with dirs := l.host.dirs.erase id } id → False :=
    fun m hm => by cases hmeta.symm.trans hm
  have hnopart : ∀ p, p ∈ Host.part { l.host with dirs := l.host.dirs.erase id } id → False :=
    fun p hp => by cases hpart.symm.trans hp
  exact ⟨fun ha => ⟨ha.been, fun _ => ⟨hmeta, hpart⟩, fun m hm => (hnometa m hm).elim,
    fun p hp => (hnopart p hp).elim, fun m hm => (hnometa m hm).elim⟩, fun hb => hb, fun _ hr => hr,
    fun _ _ _ p hp => (hnopart p hp).elim, fun _ _ _ _ m hm => (hnometa m hm).elim, fun _ hg => hg,
    fun _ _ _ => hlook⟩

end Operations

/-! ## The programs -/

/-- A writer among the others. -/
abbrev writing {id : String} (kind : Writing id) : Setting HostOp FsError (Life × Seen) :=
  (writers id).setting (undisturbed id) (fun _ _ => Moves id) (Moves id) kind

section Programs

variable {id : String} {kind : Writing id} {l : Life} {seen : Seen} {s : Session} {β : Type}

/-- One operation of a writer, which may fail. -/
theorem wp_writing {op : Service β} {Q : Except Thrown β → Life × Seen → Prop}
    (hok : ∀ (l₁ : Life) b h, Moves id l l₁ → op.Undisturbed kind seen l₁ →
      op.exec l₁.host = .ok (b, h) → Moves id l₁ ⟨h, l₁.been || op.writesRow id⟩ ∧
        Q (.ok b) (⟨h, l₁.been || op.writesRow id⟩, op.seen id ⟨h, l₁.been || op.writesRow id⟩ seen))
    (herr : ∀ l₁ e, Moves id l l₁ → Q (.error (.fs e)) (l₁, seen)) :
    wpThrow (writing kind) (service op) Q (l, seen) := by
  show wp (writing kind) (.call (.service op) fun r => .done (r.mapError Thrown.fs)) Q (l, seen)
  refine wp_setting_call fun l₁ hl _ hmeets r l₂ hans => ?_
  have hno : ∀ e, Q (.error (.fs e)) (l₁, seen) := fun e => herr l₁ e hl
  cases hans with
  | effect he =>
    change (op.exec l₁.host).map _ = _ at he
    rcases hexec : op.exec l₁.host with e | ⟨b, h⟩
    · rw [hexec] at he
      exact absurd he nofun
    · rw [hexec] at he
      obtain ⟨rfl, rfl⟩ := Prod.mk.inj (Except.ok.inj he)
      obtain ⟨hmoves, hQ⟩ := hok l₁ b h hl hmeets hexec
      exact ⟨⟨hmoves, fun _ _ _ => hmoves⟩, hQ⟩
  | refusal he => exact ⟨⟨.refl _, fun _ _ _ => .refl _⟩, hno _⟩
  | fault hf => exact ⟨⟨.refl _, fun _ _ _ => .refl _⟩, hno _⟩

/-- An operation that neither reads the row nor writes it. -/
theorem wp_writing_beside {op : Service β} {Q : Except Thrown β → Life × Seen → Prop}
    (hrow : op.writesRow id = false) (hseen : ∀ l, op.seen id l seen = seen)
    (hok : ∀ (l₁ : Life) b h, Moves id l l₁ → op.Undisturbed kind seen l₁ →
      op.exec l₁.host = .ok (b, h) → Moves id l₁ ⟨h, l₁.been⟩ ∧ Q (.ok b) (⟨h, l₁.been⟩, seen))
    (herr : ∀ l₁ e, Moves id l l₁ → Q (.error (.fs e)) (l₁, seen)) :
    wpThrow (writing kind) (service op) Q (l, seen) := by
  refine wp_writing (fun l₁ b h hl hmeets he => ?_) herr
  rw [hrow, Bool.or_false, hseen]
  exact hok l₁ b h hl hmeets he

theorem wp_writing_select {Q : Except Thrown (Option Session) → Life × Seen → Prop}
    (hok : ∀ l₁, Moves id l l₁ → Service.Undisturbed kind seen l₁ (.select id) →
      Q (.ok (l₁.host.row id)) (l₁, seen.or (some (l₁.view id))))
    (herr : ∀ l₁ e, Moves id l l₁ → Q (.error (.fs e)) (l₁, seen)) :
    wpThrow (writing kind) (service (.select id)) Q (l, seen) := by
  refine wp_writing (fun l₁ b h hl hmeets he => ?_) herr
  obtain ⟨rfl, rfl⟩ := Prod.mk.inj (Except.ok.inj he)
  have hno : Service.writesRow id (.select id) = false := rfl
  rw [hno, Bool.or_false]
  exact ⟨.refl l₁, hok l₁ hl hmeets⟩

/-- What `save` returns: the session as it is in `session.json`. -/
def Saved (id : String) (session : Session) (r : Except Thrown Session) (x : Life × Seen) : Prop :=
  ∀ s, r = .ok s → (∃ existing, s = session.normalized existing) ∧ RowAt id s x.1 ∧ PartAt id s x.1 ∧
    MetadataAt id s x.1

/-- The second half of a save: `session.json` is written, of the row that is there now. -/
theorem writeMetadata_moves {n : Session} {existing : Option Session}
    (hn : n = s.normalized existing) (hrow : l.host.row id = some n.row) (hat : RowAt id n l) :
    wpThrow (writing kind) (do
      service (.writePart id n)
      service (.renamePart id)
      return n) (Saved id s) (l, some (l.view id)) := by
  have herror : ∀ (e : Thrown) x, Saved id s (.error e) x := fun e x s' heq => by cases heq
  rw [wpThrow_bind]
  refine wp_writing_beside rfl (fun _ => rfl) (fun l₁ _ h₁ hl₁ hmeets he => ?_) fun _ _ _ => herror _ _
  rw [Service.exec] at he
  split at he
  · rename_i dir hdir
    obtain ⟨-, rfl⟩ := Prod.mk.inj (Except.ok.inj he)
    have hrow₁ : l₁.host.row id = some n.row := by
      rcases hmeets with hseen | hno
      · obtain ⟨hsame, -⟩ := Prod.mk.inj (Option.some.inj hseen)
        exact hsame.symm.trans hrow
      · cases hdir.symm.trans hno
    have hmoves₁ := moves_writePart hdir hrow₁
    refine ⟨hmoves₁, ?_⟩
    set l₂ : Life := ⟨l₁.host.setDir id { dir with part := some n }, l₁.been⟩ with hl₂
    have hat₂ : RowAt id n l₂ := hmoves₁.row n (hl₁.row n hat)
    have hpart₂ : PartAt id n l₂ := by
      intro p hp
      have hlook : l₂.host.dirs.lookup id = some { dir with part := some n } := by
        rw [hl₂, lookup_setDir, if_pos rfl]
      obtain rfl := Option.some.inj ((part_of_lookup hlook).symm.trans hp)
      exact .refl n
    rw [onOk_ok, wpThrow_bind]
    refine wp_writing_beside rfl (fun _ => rfl) (fun l₃ _ h₃ hl₃ _ he => ?_) fun _ _ _ => herror _ _
    rw [Service.exec] at he
    split at he
    · rename_i dir₃ hdir₃
      split at he
      · rename_i p hp
        obtain ⟨-, rfl⟩ := Prod.mk.inj (Except.ok.inj he)
        have hmoves₃ := moves_renamePart hdir₃ hp
        refine ⟨hmoves₃, ?_⟩
        rw [onOk_ok, wpThrow_pure]
        intro s' heq
        obtain rfl := Except.ok.inj heq
        have hat₃ := hl₃.row n hat₂
        have hpart₃ := hl₃.part n hat₂ hpart₂
        refine ⟨⟨existing, hn⟩, hmoves₃.row n hat₃, hmoves₃.part n hat₃ hpart₃, fun m hm => ?_⟩
        -- what was renamed is what was in the file, and that is onward from the session
        have hlook : (l₃.host.setDir id { dir₃ with metadata := some p, part := none }).dirs.lookup id =
            some { dir₃ with metadata := some p, part := none } := by rw [lookup_setDir, if_pos rfl]
        obtain rfl := Option.some.inj ((metadata_of_lookup hlook).symm.trans hm)
        exact hpart₃ _ ((part_of_lookup hdir₃).trans hp)
      · cases he
    · cases he
  · cases he

/-- **A save** moves the session on, where what it has seen is not ahead of what it writes. -/
theorem save_moves (hid : s.id = id) {row : Option Session} {been : Bool}
    (honward : ∀ r ∈ row, r.Onward s) (hnew : row = none → been = false) :
    wpThrow (writing kind) (save s) (Saved id s) (l, some (row, been)) := by
  subst hid
  have herror : ∀ (e : Thrown) x, Saved s.id s (.error e) x := fun e x s' heq => by cases heq
  -- the view of the writer decides what it replaces
  have hview : ∀ l₁ : Life, some (row, been) = some (l₁.view s.id) →
      l₁.host.row s.id = row ∧ l₁.been = been := by
    intro l₁ hseen
    obtain ⟨hrow, hbeen⟩ := Prod.mk.inj (Option.some.inj hseen)
    exact ⟨hrow.symm, hbeen.symm⟩
  rw [save, wpThrow_bind]
  refine wp_writing_beside rfl (fun _ => rfl) (fun l₁ _ h₁ hl₁ hmeets he => ?_) fun _ _ _ => herror _ _
  obtain ⟨-, rfl⟩ := Prod.mk.inj (Except.ok.inj he)
  refine ⟨moves_mkdir ?_, ?_⟩
  · rcases hmeets with hseen | hsome
    · obtain ⟨hrow, hbeen⟩ := hview l₁ hseen
      rw [hrow, hbeen]
      rcases hr : row with _ | r
      · exact .inr (hnew hr)
      · exact .inl rfl
    · exact .inl hsome
  rw [onOk_ok, wpThrow_bind]
  refine wp_writing_select (fun l₂ _ _ => ?_) fun _ _ _ => herror _ _
  rw [Option.or_some, onOk_ok, wpThrow_bind]
  set n := s.normalized (l₂.host.row s.id) with hn
  refine wp_writing (fun l₃ _ h₃ hl₃ hmeets he => ?_) fun _ _ _ => herror _ _
  obtain ⟨-, rfl⟩ := Prod.mk.inj (Except.ok.inj he)
  have hwrites : Service.writesRow s.id (.upsert n) = true := beq_self_eq_true _
  rw [hwrites, Bool.or_true]
  refine ⟨moves_upsert rfl ?_ ?_, ?_⟩
  · intro r hr
    rcases hmeets with hseen | hsame
    · obtain ⟨hrow, -⟩ := hview l₃ hseen
      exact onward_normalized (honward r (hrow ▸ hr))
    · obtain rfl := Option.some.inj (hsame.symm.trans hr)
      exact row_onward n
  · intro hnone
    rcases hmeets with hseen | hsame
    · obtain ⟨hrow, hbeen⟩ := hview l₃ hseen
      rw [hbeen]
      exact hnew (hrow.symm.trans hnone)
    · cases hsame.symm.trans hnone
  set l₄ : Life := ⟨{ l₃.host with rows := l₃.host.rows.upsert n.row }, true⟩ with hl₄
  have hrow₄ : l₄.host.row s.id = some n.row := by
    rw [hl₄, row_upsert]
    exact if_pos rfl
  have hat₄ : RowAt s.id n l₄ := by
    refine ⟨rfl, fun r hr => ?_⟩
    obtain rfl := Option.some.inj (hrow₄.symm.trans hr)
    exact onward_row n
  exact writeMetadata_moves hn hrow₄ hat₄

/-- The session that a writer reads first. -/
theorem getSession_moves {Q : Except Thrown Session → Life × Seen → Prop} (ha : Agrees id l)
    (hok : ∀ l₁ s, Moves id l l₁ → Service.Undisturbed kind none l₁ (.select id) → s.id = id →
      l₁.been = true → l₁.host.row id = some s → Q (.ok s) (l₁, some (some s, true)))
    (herr : ∀ e x, Q (.error e) x) :
    wpThrow (writing kind) (getSession id) Q (l, none) := by
  rw [getSession, wpThrow_bind]
  refine wp_writing_select (fun l₁ hl₁ hmeets => ?_) fun _ _ _ => herr _ _
  rw [onOk_ok]
  rcases hrow : l₁.host.row id with _ | s
  · exact herr _ _
  · have hbeen : l₁.been = true := (hl₁.agrees ha).been (by rw [hrow]; rfl)
    have hview : l₁.view id = (some s, true) := by rw [Life.view, hrow, hbeen]
    rw [hview]
    exact hok l₁ s hl₁ hmeets (row_id hrow) hbeen hrow

theorem closeSession_moves (ha : Agrees id l) {now : Nat} :
    wpThrow (writing (.close now : Writing id)) (closeSession id now)
      (fun r x => Reached id (.close now) (r.map some) x.1) (l, none) := by
  rw [closeSession, wpThrow_bind]
  refine getSession_moves ha (fun l₁ s hl₁ _ hid _ _ => ?_) fun _ _ => trivial
  rw [onOk_ok]
  refine wpThrow_mono ?_ (save_moves (s := s.closed now) hid (fun r hr => ?_) ?_)
  · rintro (e | s') x hsaved
    · exact trivial
    · obtain ⟨⟨existing, rfl⟩, hrow, hpart, hmeta⟩ := hsaved s' rfl
      refine ⟨hrow, hpart, hmeta, fun now' _ => ?_⟩
      show (s.closedAt.or (some now)).isSome = true
      rcases s.closedAt with _ | t <;> rfl
  · obtain rfl := Option.some.inj hr
    exact onward_closed s now
  · intro hnone
    exact absurd hnone nofun

theorem updateTranscript_moves (ha : Agrees id l) {reason : CaptureGap} :
    wpThrow (writing (.degrade reason : Writing id)) (updateTranscript id (degradedBy reason))
      (fun r x => Reached id (.degrade reason) (r.map some) x.1) (l, none) := by
  rw [updateTranscript, wpThrow_bind]
  refine getSession_moves ha (fun l₁ s hl₁ hmeets hid _ hrow => ?_) fun _ _ => trivial
  rw [onOk_ok]
  refine wpThrow_mono ?_ (save_moves (s := s.updated (degradedBy reason)) hid
    (fun r hr => ?_) ?_)
  · rintro (e | s') x hsaved
    · exact trivial
    · obtain ⟨-, hrow, hpart, hmeta⟩ := hsaved s' rfl
      exact ⟨hrow, hpart, hmeta, by rintro _ ⟨⟩⟩
  · obtain rfl := Option.some.inj hr
    exact onward_degraded (hmeets reason rfl rfl s hrow)
  · intro hnone
    cases hnone

theorem purgeSession_moves (ha : Agrees id l) :
    wpThrow (writing (.purge : Writing id)) (purgeSession id)
      (fun r x => Reached id .purge (r.map fun _ => none) x.1) (l, none) := by
  rw [purgeSession, wpThrow_bind]
  refine getSession_moves ha (fun l₁ s hl₁ _ _ hbeen _ => ?_) fun _ _ => trivial
  rw [onOk_ok]
  split
  · exact trivial
  rw [wpThrow_bind]
  refine wp_writing_beside rfl (fun _ => rfl) (fun l₂ _ h₂ hl₂ _ he => ?_) fun _ _ _ => trivial
  obtain ⟨-, rfl⟩ := Prod.mk.inj (Except.ok.inj he)
  refine ⟨moves_deleteRow, ?_⟩
  set l₃ : Life := ⟨{ l₂.host with rows := l₂.host.rows.delete fun s => s.id == id }, l₂.been⟩ with hl₃
  have hgone₃ : l₃.host.row id = none := by
    rw [hl₃, row_delete]
    exact if_pos rfl
  have hbeen₃ : l₃.been = true := hl₂.been hbeen
  rw [onOk_ok]
  refine wp_writing_beside rfl (fun _ => rfl) (fun l₄ _ h₄ hl₄ _ he => ?_) fun _ _ _ => trivial
  obtain ⟨-, rfl⟩ := Prod.mk.inj (Except.ok.inj he)
  exact ⟨moves_rmdir, hl₄.been hbeen₃, hl₄.gone hbeen₃ hgone₃, AList.lookup_erase _ _⟩

theorem opening_moves (hid : s.id = id) :
    wpThrow (writing (.opening s hid)) (save s)
      (fun r x => Reached id (.opening s hid) (r.map some) x.1) (l, some (none, false)) := by
  refine wpThrow_mono ?_ (save_moves hid nofun fun _ => rfl)
  rintro (e | s') x hsaved
  · exact trivial
  · obtain ⟨-, hrow, hpart, hmeta⟩ := hsaved s' rfl
    exact ⟨hrow, hpart, hmeta, nofun⟩

/-- **The writers of a session**, where none disturbs another one. -/
theorem writers_discipline (id : String) :
    Discipline (writers id) (undisturbed id) (Agrees id) (fun _ _ => Moves id) (Moves id)
      (fun kind _ => Reached id kind) where
  refl := .refl
  trans h h' := h.trans h'
  keeps ha hm := hm.agrees ha
  rely_refl _ _ := .refl
  rely_trans h h' := h.trans h'
  stable h hm := h.moves hm
  elsewhere _ _ h := ⟨moves_elsewhere h, fun _ _ _ => moves_elsewhere h⟩
  begins := by
    intro kind l ha
    cases kind with
    | opening s hid => exact wpThrow_map.mpr (opening_moves hid)
    | close now => exact wpThrow_map.mpr (closeSession_moves ha)
    | degrade reason => exact wpThrow_map.mpr (updateTranscript_moves ha)
    | purge => exact wpThrow_map.mpr (purgeSession_moves ha)

end Programs

/-! ## Runs -/

section Runs

variable {id : String} {l : Life} {
  h : List (Event (Writing id) Seen Unit (Except Thrown (Option Session)) ×
    Pool HostOp FsError Life (Writing id) Seen (Except Thrown (Option Session)))}
  {p : Pool HostOp FsError Life (Writing id) Seen (Except Thrown (Option Session))}

/-- **A session only moves on**, in every run whose steps are undisturbed. Once it has been closed, its
row and `session.json` have it closed as of then. Once it is degraded with a reason, it stays so. Once it
has been purged, neither its row nor its directory is there. -/
theorem session_onward (ha : Agrees id l)
    (hp : Path (Pool.Steps (writers id) (undisturbed id)) (.still l) h p) :
    (∀ x ∈ h, ∀ i now n s, x.1 = .returns i (.close now) n (.ok (some s)) →
      ∃ t, s.closedAt = some t ∧ (∀ r ∈ p.store.host.row id, r.closedAt = some t) ∧
        ∀ m ∈ p.store.host.metadata id, m.closedAt = some t) ∧
    (∀ q ∈ Pool.still l :: h.map Prod.snd,
      (∀ s ∈ q.store.host.row id, ∀ r ∈ p.store.host.row id, s.Onward r) ∧
        ∀ s ∈ q.store.host.metadata id, ∀ m ∈ p.store.host.metadata id, s.Onward m) ∧
    ∀ x ∈ h, ∀ i n, x.1 = .returns i .purge n (.ok none) →
      p.store.host.row id = none ∧ p.store.host.dirs.lookup id = none := by
  have hD := writers_discipline id
  obtain ⟨-, hmoves, hall⟩ := hD.run (Pool.still_sound l) ha hp
  -- what a writer has returned is reached in the end
  have hreached : ∀ x ∈ h, ∀ i kind n a, x.1 = .returns i kind n a → Reached id kind a p.store :=
    fun x hx i kind n a heq => ((hall x hx).2 i kind n a heq).moves (hall x hx).1
  refine ⟨fun x hx i now n s heq => ?_, fun q hq => ?_, fun x hx i n heq => ?_⟩
  · obtain ⟨hrow, -, hmeta, hclosed⟩ := hreached x hx i _ _ _ heq
    obtain ⟨t, ht⟩ := Option.isSome_iff_exists.mp (hclosed now rfl)
    exact ⟨t, ht, fun r hr => (hrow.2 r hr).closed t ht, fun m hm => (hmeta m hm).closed t ht⟩
  · obtain ⟨hagrees, hmoves⟩ : Agrees id q.store ∧ Moves id q.store p.store := by
      rcases List.mem_cons.mp hq with rfl | hq
      · exact ⟨ha, hmoves⟩
      · obtain ⟨x, hx, rfl⟩ := List.mem_map.mp hq
        exact ⟨hD.passes (Pool.still_sound l) ha hp hx, (hall x hx).1⟩
    constructor
    · intro s hs r hr
      have hat : RowAt id s q.store := by
        refine ⟨hagrees.been (by rw [hs]; rfl), fun r hr => ?_⟩
        obtain rfl := Option.some.inj (hs.symm.trans hr)
        exact .refl s
      exact (hmoves.row s hat).2 r hr
    · intro s hs m hm
      have hbeen : q.store.been = true := by
        by_contra hno
        have hnone := (hagrees.fresh (by simpa using hno)).1
        exact absurd (hnone.symm.trans hs) nofun
      refine hmoves.metadata s ⟨hbeen, hagrees.metadata_row s hs⟩ (hagrees.metadata_part s hs) ?_ m hm
      intro m' hm'
      obtain rfl := Option.some.inj (hs.symm.trans hm')
      exact .refl s
  · obtain ⟨-, hrow, hdir⟩ := hreached x hx i _ _ _ heq
    exact ⟨hrow, hdir⟩

instance {kind : Writing id} {seen : Seen} {β : Type} (op : Service β) :
    Decidable (op.Undisturbed kind seen l) :=
  match op with
  | .select _ =>
    match kind with
    | .degrade reason => decidable_of_iff (seen = none → ∀ s ∈ l.host.row id,
        s.transcriptCaptureState = .DEGRADED →
          s.transcriptGapReason = none ∨ s.transcriptGapReason = some reason)
        ⟨fun h _ heq => Writing.degrade.inj heq ▸ h, fun h => h reason rfl⟩
    | .opening _ _ | .close _ | .purge => isTrue nofun
  | .mkdir _ => inferInstanceAs (Decidable (_ ∨ _))
  | .upsert _ => inferInstanceAs (Decidable (_ ∨ _))
  | .writePart _ _ => inferInstanceAs (Decidable (_ ∨ _))
  | .selectAll | .deleteRow _ | .rmdir _ | .writeOutput _ | .renamePart _ | .openMarker _ | .statfs
  | .newSession _ | .hasSession _ | .killSession _ | .setOption _ | .pipePane _ _ => isTrue trivial

instance : Decides (writers id) (undisturbed id) where
  ready _ _ := isTrue trivial
  operation _ _ _ op _ :=
    match op with
    | .service op => inferInstanceAs (Decidable (op.Undisturbed _ _ _))
    | .file _ _ => isTrue trivial
  beside _ _ _ _ := trivial

instance : Decides (writers id) .any where
  ready _ _ := isTrue trivial
  operation _ _ _ _ _ := isTrue trivial
  beside _ _ _ _ := trivial

/-- A session that is open. -/
def sampleOpen : Session where
  id := "s"
  label := "Terminal"
  cwd := "."
  createdAt := 0
  closedAt := none
  transcriptStreamId := "t"
  transcriptEpoch := 1
  transcriptEarliestOffset := 0
  transcriptCaptureState := .ACTIVE
  transcriptGapReason := none
  stream_ne := sampleStream_ne
  epoch_pos := Nat.one_pos

/-- A session that is closed again stays closed as of the first time. -/
example : ((sampleOpen.closed 5).closed 7).closedAt = some 5 := by decide +kernel

def sampleLife : Life where
  host :=
    { rows := Table.empty.upsert sampleOpen
      dirs := AList.singleton "s" .empty
      live := {"s"}
      piped := {"s"}
      free := 0 }
  been := true

theorem sampleLife_agrees : Agrees "s" sampleLife := by
  refine ⟨fun _ => rfl, nofun, fun m hm => ?_, fun p hp => ?_, fun m hm => ?_⟩
  · exact absurd hm nofun
  · exact absurd hp nofun
  · exact absurd hm nofun

/-- What closing that session at `5` returns. -/
def sampleClosed : Session := (sampleOpen.closed 5).normalized (some sampleOpen)

def sampleReturns : Event (Writing "s") Seen Unit (Except Thrown (Option Session)) :=
  .returns 0 (.close 5) (some (some sampleClosed.row, true)) (.ok (some sampleClosed))

/-- The session is closed, and nobody else is at work on it. -/
theorem session_onward_closed : ∃ h p,
    Path (Pool.Steps (writers "s") (undisturbed "s")) (.still sampleLife) h p ∧ h ≠ [] ∧
      ∀ r ∈ p.store.host.row "s", r.closedAt = some 5 := by
  have hplay : ((Pool.play (writers "s") (undisturbed "s")
      (.start 0 (.close 5) :: List.replicate 7 (.go 0)) (.still sampleLife)).map
        fun r => r.1.map Prod.fst) =
      some (.begins 0 (.close 5) :: List.replicate 6 (.operates 0) ++
        [sampleReturns]) := by decide +kernel
  obtain ⟨⟨h, p⟩, hr, hevents⟩ := Option.map_eq_some_iff.mp hplay
  have hmem : sampleReturns ∈ h.map Prod.fst := by
    rw [hevents]
    exact List.mem_append_right _ List.mem_cons_self
  obtain ⟨x, hx, heq⟩ := List.mem_map.mp hmem
  obtain ⟨t, ht, hrow, -⟩ := (session_onward sampleLife_agrees (Pool.play_path hr)).1 x hx 0 5 _ _ heq
  obtain rfl : 5 = t := Option.some.inj ht
  exact ⟨h, p, Pool.play_path hr, List.ne_nil_of_mem hx, hrow⟩

/-- The session is closed and degraded at the same time: both have read the row before either writes it.
After the close has returned, the other one writes the session as it was, open. -/
theorem session_reopened : ∃ h p,
    Path (Pool.Step (writers "s")) (.still sampleLife) h p ∧
      (∃ x ∈ h, x.1 = sampleReturns) ∧
      ∃ r ∈ p.store.host.row "s", r.closedAt = none := by
  have hplay : ((Pool.play (writers "s") .any
      ([.start 0 (.close 5), .start 1 (.degrade .transcript_limit), .go 0, .go 1] ++
        List.replicate 6 (.go 0) ++ List.replicate 5 (.go 1)) (.still sampleLife)).map
        fun r => (decide (sampleReturns ∈ r.1.map Prod.fst),
          (r.2.store.host.row "s").map Session.closedAt)) = some (true, some none) := by
    decide +kernel
  obtain ⟨⟨h, p⟩, hr, hend⟩ := Option.map_eq_some_iff.mp hplay
  obtain ⟨hmem, hrow⟩ := Prod.mk.inj hend
  obtain ⟨x, hx, heq⟩ := List.mem_map.mp (of_decide_eq_true hmem)
  obtain ⟨r, hr', hopen⟩ := Option.map_eq_some_iff.mp hrow
  exact ⟨h, p, Pool.step_of_steps (Pool.play_path hr), ⟨x, hx, heq⟩, r, hr', hopen⟩

end Runs

end BegetBridge.Terminal
