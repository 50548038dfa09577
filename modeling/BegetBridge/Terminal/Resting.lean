import BegetBridge.Terminal.ReadSpecs
import BegetBridge.Transcript.Growth

/-!
# Sessions that are left alone

While other calls leave a session alone, a read of it does what it does when nothing else runs: its
response is the page of all its transcript. It fails only where the record of a storage stop is there and
not valid, or where the page is refused. A session rests when its terminal is gone, too.

## Main definitions

* `Apart`: what the others may do
* `Standing`: a session with its transcript, its record of a storage stop, and its terminal or none
* `Resting`: a session without a terminal, whose record of a storage stop is valid

## Main results

* `save_standing`, `updateTranscript_standing`: the programs of the store
* `readOutput_standing`: the whole read
* `readOutput_resting`: the read of a session that rests
-/

namespace BegetBridge.Terminal

open Core Relational Interleaving Transcript

/-- The others leave a session alone. -/
structure Apart (id : String) (h h' : Host) : Prop where
  row : h'.row id = h.row id
  dir : h'.dirs.lookup id = h.dirs.lookup id
  live : id ∈ h'.live ↔ id ∈ h.live

/-- A session with the stream of `s` and the transcript `d`, whose terminal is gone. A record of a storage
stop, where there is one, is valid. -/
structure Resting (id : String) (s : Session) (d : Dir) (h : Host) : Prop where
  row : ∃ s', h.row id = some s' ∧ s.SameStream s'
  files : h.files id = d
  dead : id ∉ h.live
  marker : ∀ dir file, h.dirs.lookup id = some dir →
    dir.files.lookup (captureMarker outputName) = some file →
    Marker.Valid ⟨file.stat, dir.markerOwned, file.bytes⟩

/-- The record of a storage stop in the directory of a session. -/
def SessionDir.stopRecord (dir : SessionDir) : Option Marker :=
  (dir.files.lookup (captureMarker outputName)).map fun file => ⟨file.stat, dir.markerOwned, file.bytes⟩

/-- The record of a storage stop of a session. -/
def Host.stopRecord (h : Host) (id : String) : Option Marker :=
  (h.dirs.lookup id).bind SessionDir.stopRecord

/-- What stands while a session is left alone: its stream is that of `s`, its transcript `d` and its record
of a storage stop `record`, and its terminal lives or not. -/
structure Standing (id : String) (s : Session) (d : Dir) (record : Option Marker) (alive : Bool)
    (h : Host) : Prop where
  row : ∃ s', h.row id = some s' ∧ s.SameStream s'
  files : h.files id = d
  record : h.stopRecord id = record
  alive : decide (id ∈ h.live) = alive

/-- What a program returns that leaves a session standing: the session, with its stream. -/
def KeptStanding (id : String) (s : Session) (d : Dir) (record : Option Marker) (alive : Bool)
    (r : Except Thrown Session) (h : Host) : Prop :=
  Standing id s d record alive h ∧ ∃ s', r = .ok s' ∧ s'.id = id ∧ s.SameStream s'

section Standing

variable {id : String} {s s' : Session} {d : Dir} {record : Option Marker} {alive : Bool} {h h' : Host}
  {dir : SessionDir}

theorem Apart.refl (h : Host) : Apart id h h := ⟨rfl, rfl, Iff.rfl⟩

theorem Apart.stopRecord (ha : Apart id h h') : h'.stopRecord id = h.stopRecord id := by
  rw [Host.stopRecord, Host.stopRecord, ha.dir]

theorem stopRecord_of_lookup (hdir : h.dirs.lookup id = some dir) : h.stopRecord id = dir.stopRecord := by
  rw [Host.stopRecord, hdir]
  rfl

theorem Standing.apart (hs : Standing id s d record alive h) (ha : Apart id h h') :
    Standing id s d record alive h' where
  row := ha.row ▸ hs.row
  files := by
    rw [Host.files, ha.dir]
    exact hs.files
  record := ha.stopRecord.trans hs.record
  alive := by
    rw [← hs.alive]
    exact decide_eq_decide.mpr ha.live

theorem kept_standing : Kept (Apart id) Eq id (Standing id s d record alive) where
  refl := Apart.refl
  keeps hs ha := hs.apart ha
  files hs ha := hs.files.trans (hs.apart ha).files.symm
  dir _ ha hdir := by
    rw [ha.dir]
    exact hdir

/-- The directory changes but for its files. -/
theorem Standing.setDir (hs : Standing id s d record alive h) (hdir : h.dirs.lookup id = some dir)
    (dir' : SessionDir) (hfiles : dir'.files = dir.files) (howned : dir'.markerOwned = dir.markerOwned) :
    Standing id s d record alive (h.setDir id dir') where
  row := hs.row
  files := by
    rw [files_setDir_same hdir hfiles]
    exact hs.files
  record := by
    have hlater : (h.setDir id dir').dirs.lookup id = some dir' := by rw [lookup_setDir, if_pos rfl]
    rw [stopRecord_of_lookup hlater, SessionDir.stopRecord, hfiles, howned, ← hs.record,
      stopRecord_of_lookup hdir]
    rfl
  alive := hs.alive

/-- A service that does not fail. -/
theorem wp_served {β : Type} {op : Service β} {Q : Except Thrown β → Host → Prop}
    (h₀ : ∀ h₁, Apart id h h₁ → ∃ b h₂, op.exec h₁ = .ok (b, h₂) ∧ Q (.ok b) h₂) :
    wpThrow (among (Apart id)) (service op) Q h := by
  refine wp_service (fun h₁ b h₂ ha he => ?_) (fun h₁ e ha he => ?_)
  · obtain ⟨b', h₂', he', hQ⟩ := h₀ h₁ ha
    obtain ⟨rfl, rfl⟩ := Prod.mk.inj (Except.ok.inj (he'.symm.trans he))
    exact hQ
  · obtain ⟨b', h₂', he', -⟩ := h₀ h₁ ha
    exact absurd (he'.symm.trans he) nofun

theorem save_standing (hs : Standing id s d record alive h) (hid : s'.id = id) (hsame : s.SameStream s') :
    wpThrow (among (Apart id)) (save s') (KeptStanding id s d record alive) h := by
  subst hid
  rw [save, wpThrow_bind]
  refine wp_served fun h₁ ha₁ => ⟨(), _, rfl, ?_⟩
  have hs₁ := hs.apart ha₁
  -- the directory is there now
  obtain ⟨h₂, hh₂, hs₂, dir₂, hdir₂⟩ : ∃ h₂, (if (h₁.dirs.lookup s'.id).isSome then h₁
      else h₁.setDir s'.id .empty) = h₂ ∧ Standing s'.id s d record alive h₂ ∧
      ∃ dir, h₂.dirs.lookup s'.id = some dir := by
    split
    · rename_i hsome
      exact ⟨h₁, rfl, hs₁, Option.isSome_iff_exists.mp hsome⟩
    · rename_i hnone
      have hlook := Option.not_isSome_iff_eq_none.mp hnone
      have hdir : (h₁.setDir s'.id .empty).dirs.lookup s'.id = some .empty := by
        rw [lookup_setDir, if_pos rfl]
      refine ⟨_, rfl, ⟨hs₁.row, ?_, ?_, hs₁.alive⟩, _, hdir⟩
      · -- a new directory is as empty as one that is not there
        rw [files_of_lookup hdir, ← hs₁.files, Host.files, hlook]
        rfl
      · rw [stopRecord_of_lookup hdir, ← hs₁.record, Host.stopRecord, hlook]
        rfl
  rw [hh₂, onOk_ok, wpThrow_bind]
  refine wp_served fun h₃ ha₃ => ⟨_, _, rfl, ?_⟩
  have hs₃ := hs₂.apart ha₃
  have hdir₃ := ha₃.dir.trans hdir₂
  rw [onOk_ok, wpThrow_bind]
  set normalized := s'.normalized (h₃.row s'.id) with hnormalized
  have hsame' : s.SameStream normalized := hsame.trans (normalized_sameStream s' _)
  refine wp_served fun h₄ ha₄ => ⟨_, _, rfl, ?_⟩
  have hs₄ := hs₃.apart ha₄
  have hdir₄ := ha₄.dir.trans hdir₃
  have hs₄' : Standing s'.id s d record alive { h₄ with rows := h₄.rows.upsert normalized.row } := by
    refine ⟨⟨normalized.row, ?_, hsame'.trans (row_sameStream _)⟩, hs₄.files, hs₄.record, hs₄.alive⟩
    rw [row_upsert]
    exact if_pos rfl
  rw [onOk_ok, wpThrow_bind]
  refine wp_served fun h₅ ha₅ => ?_
  have hs₅ := hs₄'.apart ha₅
  have hdir₅ : h₅.dirs.lookup s'.id = some dir₂ := ha₅.dir.trans hdir₄
  refine ⟨_, _, by rw [Service.exec, hdir₅], ?_⟩
  have hs₅' := hs₅.setDir hdir₅ { dir₂ with part := some normalized } rfl rfl
  rw [onOk_ok, wpThrow_bind]
  refine wp_served fun h₆ ha₆ => ?_
  have hs₆ := hs₅'.apart ha₆
  have hdir₆ : h₆.dirs.lookup s'.id = some { dir₂ with part := some normalized } := by
    rw [ha₆.dir, lookup_setDir, if_pos rfl]
  refine ⟨_, _, by rw [Service.exec, hdir₆], ?_⟩
  rw [onOk_ok, wpThrow_pure]
  exact ⟨hs₆.setDir hdir₆ _ rfl rfl, normalized, rfl, rfl, hsame'⟩

/-- The row of a session, as it is. -/
theorem getSession_row (hs : Standing id s d record alive h) (hrow : h.row id = some s') :
    wpThrow (among (Apart id)) (getSession id)
      (fun r h' => Standing id s d record alive h' ∧ h'.row id = some s' ∧ r = .ok s') h := by
  rw [getSession, wpThrow_bind]
  refine wp_served fun h₁ ha => ⟨_, _, rfl, ?_⟩
  have hrow₁ := ha.row.trans hrow
  rw [hrow₁]
  exact ⟨hs.apart ha, hrow₁, rfl⟩

theorem getSession_standing (hs : Standing id s d record alive h) :
    wpThrow (among (Apart id)) (getSession id) (KeptStanding id s d record alive) h := by
  obtain ⟨s', hrow, hsame⟩ := hs.row
  refine wpThrow_mono ?_ (getSession_row hs hrow)
  rintro r h₁ ⟨hs₁, hrow₁, rfl⟩
  exact ⟨hs₁, s', rfl, row_id hrow₁, hsame⟩

theorem updateTranscript_standing (hs : Standing id s d record alive h) {reason : CaptureGap} :
    wpThrow (among (Apart id)) (updateTranscript id (degradedBy reason))
      (KeptStanding id s d record alive) h := by
  rw [updateTranscript, wpThrow_bind]
  refine wpThrow_mono ?_ (getSession_standing hs)
  rintro r h₁ ⟨hs₁, s', rfl, hid, hsame⟩
  exact save_standing hs₁ hid (hsame.trans (degraded_sameStream s'))

/-- To open the record of a storage stop is to find it. -/
theorem exec_openMarker : Service.exec (.openMarker id) h =
    match h.stopRecord id with
    | some marker => .ok (marker, h)
    | none => .error .enoent := by
  rw [Service.exec, Host.stopRecord]
  rcases h.dirs.lookup id with _ | dir
  · rfl
  · rw [Option.bind_some, SessionDir.stopRecord]
    rcases hfile : dir.files.lookup (captureMarker outputName) with _ | file
    · simp [hfile]
    · simp [hfile]

/-- The record of a storage stop is read where the session is not degraded: there, one that is not valid
fails the read. -/
theorem observeCaptureStop_standing (hs : Standing id s d record alive h) (hid : s'.id = id)
    (hsame : s.SameStream s') :
    wpThrow (among (Apart id)) (observeCaptureStop id s') (fun r h' =>
      if s'.transcriptCaptureState = .DEGRADED ∨ ∀ marker ∈ record, marker.Valid then
        KeptStanding id s d record alive r h'
      else r = .error (.bridge captureInvalid)) h := by
  rw [observeCaptureStop]
  by_cases hdegraded : s'.transcriptCaptureState = .DEGRADED
  · rw [if_pos hdegraded]
    show ite _ _ _
    rw [if_pos (.inl hdegraded)]
    exact ⟨hs, s', rfl, hid, hsame⟩
  · rw [if_neg hdegraded, wpThrow_bind, wpThrow_lift]
    simp only [hdegraded, false_or]
    refine wp_attempt (fun h₁ marker h₂ ha he => ?_) (fun h₁ e ha he => ?_)
    all_goals
      have hs₁ := hs.apart ha
      change Service.exec (.openMarker id) h₁ = _ at he
      rw [exec_openMarker, hs₁.record] at he
      rw [onOk_ok]
    · -- the record is there
      rcases record with _ | marker'
      · cases he
      obtain ⟨rfl, rfl⟩ := Prod.mk.inj (Except.ok.inj he)
      show wpThrow _ (if _ then _ else _) _ h₁
      by_cases hvalid : marker'.Valid
      · rw [if_pos hvalid]
        simp only [Option.mem_some_iff, forall_eq', hvalid, if_true]
        exact updateTranscript_standing hs₁
      · rw [if_neg hvalid]
        simp only [Option.mem_some_iff, forall_eq', hvalid, if_false]
        rfl
    · rcases record with _ | marker'
      · obtain rfl := Except.error.inj he
        simp only [Option.not_mem_none, false_imp_iff, implies_true, if_true]
        exact ⟨hs₁, s', rfl, hid, hsame⟩
      · cases he

theorem isAlive_standing (hs : Standing id s d record alive h) :
    wpThrow (among (Apart id)) (isAlive id)
      (fun r h' => Standing id s d record alive h' ∧ r = .ok alive) h := by
  rw [isAlive, wpThrow_bind, wpThrow_lift]
  refine wp_attempt (fun h₁ b h₂ ha he => ?_) (fun h₁ e ha he => by cases he)
  obtain ⟨rfl, rfl⟩ := Prod.mk.inj (Except.ok.inj he)
  have hs₁ := hs.apart ha
  exact ⟨hs₁, congrArg Except.ok hs₁.alive⟩

/-- The capture of a terminal that lives can be stopped. -/
theorem degrade_standing (hs : Standing id s d record true h) {reason : CaptureGap} :
    wpThrow (among (Apart id)) (do
      tmux (.pipePane id false)
      updateTranscript id (degradedBy reason)) (KeptStanding id s d record true) h := by
  rw [wpThrow_bind]
  have hexec : ∀ h₁, Apart id h h₁ → ∃ piped, HostOp.exec (.service (.pipePane id false)) h₁ =
      .ok ((), { h₁ with piped := piped }) ∧ Standing id s d record true { h₁ with piped := piped } := by
    intro h₁ ha
    have hs₁ := hs.apart ha
    refine ⟨h₁.piped.erase id, ?_, ⟨hs₁.row, hs₁.files, hs₁.record, hs₁.alive⟩⟩
    show Service.exec (.pipePane id false) h₁ = _
    rw [Service.exec, if_pos (of_decide_eq_true hs₁.alive)]
    rfl
  intro h₁ ha
  obtain ⟨piped, he, hs₁⟩ := hexec h₁ ha
  refine ⟨trivial, fun r h₂ hans => ?_⟩
  cases hans with
  | effect he' =>
    obtain ⟨rfl, rfl⟩ := Prod.mk.inj (Except.ok.inj (he.symm.trans he'))
    exact updateTranscript_standing hs₁
  | refusal he' => cases he.symm.trans he'
  | fault hf => exact hf.elim

variable {config : HostConfig}

theorem enforceCaptureReserve_standing (hs : Standing id s d record alive h) (hid : s'.id = id)
    (hsame : s.SameStream s') :
    wpThrow (among (Apart id)) (enforceCaptureReserve config id s' alive)
      (KeptStanding id s d record alive) h := by
  rw [enforceCaptureReserve]
  split
  · exact ⟨hs, s', rfl, hid, hsame⟩
  · rename_i hcheck
    obtain rfl : alive = true := by simpa using fun hdead => hcheck (.inl hdead)
    rw [wpThrow_bind]
    refine wp_served fun h₁ ha => ⟨_, _, rfl, ?_⟩
    have hs₁ := hs.apart ha
    rw [onOk_ok]
    split
    · exact ⟨hs₁, s', rfl, hid, hsame⟩
    · exact degrade_standing hs₁

theorem enforceCaptureCeiling_standing (hs : Standing id s d record alive h) (hid : s'.id = id)
    (hsame : s.SameStream s') {range : OutputRange} :
    wpThrow (among (Apart id)) (enforceCaptureCeiling config id s' alive range)
      (KeptStanding id s d record alive) h := by
  rw [enforceCaptureCeiling]
  split
  · exact ⟨hs, s', rfl, hid, hsame⟩
  · rename_i hcheck
    obtain rfl : alive = true := by simpa using fun hdead => hcheck (.inl hdead)
    exact degrade_standing hs

end Standing

section Reads

variable {id : String} {s s' : Session} {d : Dir} {record : Option Marker} {alive : Bool} {h : Host}
  {seg : Nat} {files : List Bytes} {config : HostConfig}

/-- What `outputRange` returns for a session that is left alone: its whole transcript. -/
def RangeStanding (seg : Nat) (id : String) (s : Session) (d : Dir) (record : Option Marker)
    (alive : Bool) (files : List Bytes) (r : Except Thrown (OutputRange × Session)) (h : Host) : Prop :=
  Standing id s d record alive h ∧ ∃ range s', r = .ok (range, s') ∧ s'.id = id ∧ s.SameStream s' ∧
    Measured seg (h.files id) s' range files.flatten

theorem missingRange_standing (hs : Standing id s d record alive h) (hfiles : Stored seg d [])
    (hid : s'.id = id) (hsame : s.SameStream s') :
    wpThrow (among (Apart id)) (missingRange id s') (RangeStanding seg id s d record alive []) h := by
  rw [missingRange, wpThrow_bind]
  refine wpThrow_mono (Q := KeptStanding id s d record alive) ?_ ?_
  · rintro r h₁ ⟨hs₁, s'', rfl, hid', hsame'⟩
    rw [onOk_ok, wpThrow_pure]
    refine ⟨hs₁, _, s'', rfl, hid', hsame', measured_nil [] ?_⟩
    rwa [hs₁.files]
  · rw [recordMissing]
    split
    · exact ⟨hs, s', rfl, hid, hsame⟩
    · exact updateTranscript_standing hs

theorem outputRange_standing (hpos : 1 ≤ seg) (hconfig : config.segmentBytes ≤ maxSafeInteger)
    (hs : Standing id s d record alive h) (hfiles : Stored seg d files) (hid : s'.id = id)
    (hsame : s.SameStream s')
    (hsafe : s.transcriptEarliestOffset + files.flatten.length ≤ maxSafeInteger) :
    wpThrow (among (Apart id)) (outputRange config id s')
      (RangeStanding seg id s d record alive files) h := by
  rw [outputRange, wpThrow_bind, onFiles, wpThrow_lift]
  refine wp_mono ?_ (inspect_found kept_standing growth_eq hpos HostConfig.segmentBytes_pos hs
    (hs.files.symm ▸ hfiles))
  rintro r h₁ ⟨hs₁, hfound⟩
  rw [onOk_ok]
  have hmissing : files = [] → wpThrow (among (Apart id)) (missingRange id s')
      (RangeStanding seg id s d record alive files) h₁ := by
    rintro rfl
    exact missingRange_standing hs₁ hfiles hid hsame
  rcases hfound with ⟨inv, files', rfl, hfiles', -, hcov, hlen, hsize, -⟩ | ⟨rfl, hnil⟩ | ⟨hlarge, -⟩
  · rw [hs₁.files] at hfiles'
    obtain rfl := hfiles.holds.unique hfiles'.holds
    show wpThrow _ (if inv.missing = true then _ else _) _ h₁
    split
    · rename_i hgone
      refine hmissing (List.length_eq_zero_iff.mp ?_)
      rw [hcov.missing.mp hgone] at hlen
      exact Nat.le_zero.mp hlen
    · have hall : inv.size = files.flatten.length := le_antisymm hcov.size_le hsize
      rw [wpThrow_pure]
      refine ⟨hs₁, _, s', rfl, hid, hsame, rfl, hall, fun _ => ?_, files, inv, ?_, hcov, rfl, hall,
        List.prefix_refl _⟩
      · rw [hall, ← Nat.cast_add, toDouble_natCast (hsame.earliest ▸ hsafe)]
      · rwa [hs₁.files]
  · exact hmissing hnil
  · exact absurd hconfig (not_le.mpr hlarge)

/-- **A read of a session that is left alone** fails where the record of a storage stop is to be read and
is not valid. Elsewhere its result is the page of the transcript. -/
theorem readOutput_standing (hpos : 1 ≤ seg) (hconfig : config.segmentBytes ≤ maxSafeInteger)
    (hs : Standing id s d record alive h) (hrow : h.row id = some s') (hfiles : Stored seg d files)
    (hsafe : s.transcriptEarliestOffset + files.flatten.length ≤ maxSafeInteger)
    {cursor : CursorValue} {requested : Requested} (hparse : parseCursor cursor s = .ok requested)
    (maxBytes : Number) :
    wpThrow (among (Apart id)) (readOutput config id cursor maxBytes) (fun r h' =>
      if s'.transcriptCaptureState = .DEGRADED ∨ ∀ marker ∈ record, marker.Valid then
        Standing id s d record alive h' ∧ ∃ s'', s.SameStream s'' ∧
          r = (pageOf id alive s'' files.flatten requested maxBytes).mapError
            fun _ => .bridge transcriptChanged
      else r = .error (.bridge captureInvalid)) h := by
  obtain ⟨s₀, hrow₀, hsame₀⟩ := hs.row
  obtain rfl := Option.some.inj (hrow₀.symm.trans hrow)
  rw [readOutput, wpThrow_bind]
  refine wpThrow_mono ?_ (getSession_row hs hrow)
  rintro r h₁ ⟨hs₁, hrow₁, rfl⟩
  rw [onOk_ok, wpThrow_bind]
  refine wpThrow_mono ?_ (observeCaptureStop_standing hs₁ (row_id hrow₁) hsame₀)
  intro r h₂ hr
  by_cases hreadable : s₀.transcriptCaptureState = .DEGRADED ∨ ∀ marker ∈ record, marker.Valid
  · simp only [if_pos hreadable] at hr ⊢
    obtain ⟨hs₂, s₂, rfl, hid, hsame⟩ := hr
    rw [onOk_ok, wpThrow_bind]
    refine wpThrow_mono ?_ (isAlive_standing hs₂)
    rintro r h₃ ⟨hs₃, rfl⟩
    rw [onOk_ok, wpThrow_bind]
    refine wpThrow_mono ?_ (enforceCaptureReserve_standing hs₃ hid hsame)
    rintro r h₄ ⟨hs₄, s₄, rfl, hid, hsame⟩
    rw [onOk_ok, wpThrow_bind]
    refine wpThrow_mono ?_ (outputRange_standing hpos hconfig hs₄ hfiles hid hsame hsafe)
    rintro r h₅ ⟨hs₅, range, s₅, rfl, hid, hsame, hmeasured⟩
    rw [onOk_ok, wpThrow_bind]
    refine wpThrow_mono ?_ (enforceCaptureCeiling_standing hs₅ hid hsame)
    rintro r h₆ ⟨hs₆, s₆, rfl, -, hsame₆⟩
    -- the transcript is what it was measured as
    have hmeasured₆ := hmeasured.sameStream (hsame.symm.trans hsame₆)
    rw [hs₅.files, ← hs₆.files] at hmeasured₆
    rw [onOk_ok, wpThrow_bind, ← parseCursor_congr hsame₆, hparse, wpThrow_result]
    refine wpThrow_mono ?_ (readPage_spec kept_standing growth_eq hs₆ hmeasured₆
      (hsame₆.earliest ▸ hsafe))
    rintro r h₇ ⟨hs₇, rfl⟩
    exact ⟨hs₇, s₆, hsame₆, rfl⟩
  · simp only [if_neg hreadable] at hr ⊢
    rw [hr]
    rfl

/-! ## Sessions that rest -/

/-- A session rests where it stands without a terminal, and the record of a storage stop is valid. -/
theorem resting_iff : Resting id s d h ↔
    ∃ record : Option Marker, (∀ marker ∈ record, marker.Valid) ∧ Standing id s d record false h := by
  constructor
  · intro hr
    refine ⟨h.stopRecord id, fun marker hmem => ?_, hr.row, hr.files, rfl, decide_eq_false hr.dead⟩
    obtain ⟨dir, hdir, hrecord⟩ := Option.bind_eq_some_iff.mp hmem
    obtain ⟨file, hfile, rfl⟩ := Option.map_eq_some_iff.mp hrecord
    exact hr.marker dir file hdir hfile
  · rintro ⟨record, hvalid, hs⟩
    refine ⟨hs.row, hs.files, of_decide_eq_false hs.alive, fun dir file hdir hfile => hvalid _ ?_⟩
    rw [Option.mem_def, ← hs.record, stopRecord_of_lookup hdir, SessionDir.stopRecord, hfile]
    rfl

/-- **A read of a session that rests** returns the page of its transcript. -/
theorem readOutput_resting (hpos : 1 ≤ seg) (hconfig : config.segmentBytes ≤ maxSafeInteger)
    (hr : Resting id s d h) (hs : Stored seg d files)
    (hsafe : s.transcriptEarliestOffset + files.flatten.length ≤ maxSafeInteger)
    {cursor : CursorValue} {requested : Requested} (hparse : parseCursor cursor s = .ok requested)
    {maxBytes : Number} :
    wpThrow (among (Apart id)) (readOutput config id cursor maxBytes)
      (fun r h' => Resting id s d h' ∧ ∃ s', s.SameStream s' ∧
        r = (pageOf id false s' files.flatten requested maxBytes).mapError
          fun _ => .bridge transcriptChanged) h := by
  obtain ⟨record, hvalid, hstanding⟩ := resting_iff.mp hr
  obtain ⟨s₀, hrow, -⟩ := hr.row
  refine wpThrow_mono ?_ (readOutput_standing hpos hconfig hstanding hrow hs hsafe hparse maxBytes)
  intro r h' hread
  rw [if_pos (.inr hvalid)] at hread
  obtain ⟨hstanding', s', hsame, rfl⟩ := hread
  exact ⟨resting_iff.mpr ⟨record, hvalid, hstanding'⟩, s', hsame, rfl⟩

end Reads

end BegetBridge.Terminal
