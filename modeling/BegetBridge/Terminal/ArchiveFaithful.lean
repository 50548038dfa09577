import BegetBridge.Terminal.ArchiveCopy

/-!
# Archives are faithful

The inventory covers a part of the transcript as it is when the copy begins. What the copy reads is that part,
and when the second inspection finds no more than that, the transcript was that part throughout.

## Main definitions

* `Faithful`: an archive that has the transcript as it was throughout the copy
* `Outcome`: how an archive ends

## Main results

* `beside_archived`: what is done in the new directory
* `archiveTerminal_faithful`: how an archive ends
* `directory_left`: the directory stays where its removal fails
-/

namespace BegetBridge.TerminalArchive

open Core Relational Interleaving Transcript Script

/-! ## The steps -/

section Steps

variable {digest : Bytes → String} {seg : Nat} {s : Site} {files : List Bytes}

theorem beside_readClosedSession :
    Beside seg readClosedSession (fun r s' => Kept seg s s' ∧ ∀ row, r = .ok row → s.session = some row) s := by
  refine beside_looks (looks_own rfl) (fun _ s₁ h₁ => ?_) fun e s' h => ⟨h, nofun⟩
  refine wpThrow_bind.mpr (beside_demand (fun _ => ?_) fun e => ⟨h₁, nofun⟩)
  refine wpThrow_bind.mpr (beside_look rfl (fun s₂ found s₃ h₂ h₃ hselect => ?_) fun e s' h => ⟨h₁.trans h, nofun⟩)
  obtain ⟨rfl, rfl⟩ := Prod.mk.inj (Except.ok.inj hselect)
  have hs := h₁.trans h₂
  cases hrow : s₂.session with
  | none => exact ⟨hs, nofun⟩
  | some row =>
    refine wpThrow_bind.mpr (beside_demand (fun _ => ⟨hs, fun row' hrow' => ?_⟩) fun e => ⟨hs, nofun⟩)
    obtain rfl := Except.ok.inj hrow'
    exact hs.session.symm.trans hrow

/-- What is looked at again has no more than the inventory. -/
theorem beside_unchanged {session : SessionRow} {inventory : Inventory} (hpos : 1 ≤ seg)
    (hs : Stored seg s.source files) :
    Beside seg (unchanged session inventory)
      (fun r s' => Kept seg s s' ∧ ∀ u, r = .ok u → files.flatten.length ≤ inventory.size) s := by
  refine wpThrow_bind.mpr (wpThrow_mono ?_ beside_readClosedSession)
  rintro (e | again) s₁ ⟨h₁, -⟩
  · exact ⟨h₁, nofun⟩
  refine wpThrow_bind.mpr (beside_demand (fun _ => ?_) fun e => ⟨h₁, nofun⟩)
  obtain ⟨files₁, hs₁, hext⟩ := h₁.grows files hs
  refine wpThrow_bind.mpr (wpThrow_mono ?_ (beside_inspect hs₁ hpos))
  rintro (e | after) s₂ ⟨h₂, hafter⟩
  · exact ⟨h₁.trans h₂, nofun⟩
  obtain ⟨inv, files₂, hinv, -, -, -, -, hsize, -⟩ := hafter after rfl
  obtain rfl := Except.ok.inj hinv
  refine beside_demand (fun hsame => ⟨h₁.trans h₂, fun _ _ => ?_⟩) fun e => ⟨h₁.trans h₂, nofun⟩
  calc files.flatten.length ≤ files₁.flatten.length := (hext.flatten_prefix hs.shape hs₁.shape).length_le
    _ ≤ after.size := hsize
    _ = inventory.size := hsame.1

theorem beside_validate {α : Type} {r : ArchiveRecord} {f : ArchiveRecord → ArchiveM α}
    {Q : Except ArchiveFailure α → Site → Prop} (hok : r.Valid → Beside seg (f r) Q s)
    (herror : ∀ e, Q (.error e) s) : Beside seg (validateArchive (some r) >>= f) Q s :=
  wpThrow_bind.mpr (wpThrow_bind.mpr (beside_demand (fun h => hok h) herror))

theorem beside_writeRecord {record : ArchiveRecord} :
    Beside seg (writeRecord record) (fun r s' => Quiet seg s s' ∧ ∀ u, r = .ok u →
      ∃ o m, s'.out = some o ∧ o.manifest = some m ∧ m.record = some record) s := by
  refine wpThrow_bind.mpr (beside_own (fun s₁ u s₂ h₁ hcreate => ?_) fun e s₁ h₁ => ⟨h₁.kept.quiet, nofun⟩)
  have hquiet₂ := h₁.kept.quiet.trans (quiet_execOwn hcreate)
  refine beside_close (fun r t u hr h => ⟨hr.1.trans h.quiet, fun v hv => ?_⟩) (fun _ _ _ hr => ⟨hr.1, nofun⟩) ?_
  · obtain ⟨o, m, hout, hm⟩ := hr.2 v hv
    exact ⟨o, m, h.out.trans hout, hm⟩
  refine wpThrow_bind.mpr (beside_own (fun s₃ u s₄ h₃ hwrite => ?_)
    fun e s₃ h₃ => ⟨hquiet₂.trans h₃.kept.quiet, nofun⟩)
  have hquiet₄ := hquiet₂.trans (h₃.kept.quiet.trans (quiet_execOwn hwrite))
  obtain ⟨o, o', hout, hexec, rfl⟩ := onOut_ok hwrite
  obtain ⟨-, rfl⟩ := Prod.mk.inj (Except.ok.inj hexec)
  exact looks_own rfl _ _ fun r s₅ h₅ => ⟨hquiet₄.trans h₅.quiet, fun _ _ => ⟨_, _, h₅.out, rfl, rfl⟩⟩

/-- What is accepted has the bytes that the manifest describes. -/
theorem contents_of_described (hdigest : Function.Injective digest) {o : OutDir} {items : List ArchiveFile}
    {contents : List Bytes} (hd : List.Forall₂ (Describes digest) items contents)
    (h : ∀ item ∈ items, ∃ f, o.files.lookup item.name = some f ∧ FileOk digest item f) :
    List.Forall₂ (fun item bytes => o.files.lookup item.name = some ⟨true, 1, bytes⟩) items contents := by
  induction hd with
  | nil => exact .nil
  | cons hitem _ ih =>
    obtain ⟨f, hf, hok⟩ := h _ List.mem_cons_self
    refine .cons ?_ (ih fun other hother => h other (List.mem_cons_of_mem _ hother))
    have hbytes := hdigest (hok.sha256.trans hitem.2)
    rw [hf]
    cases f
    exact congrArg some ((File.mk.injEq ..).mpr ⟨hok.isFile, hok.nlink, hbytes⟩)

theorem mkdir_ok {s' : Site} {u : Unit} (h : s.execOwn .mkdir = .ok (u, s')) :
    s.out = none ∧ s' = s.withOut (some ⟨none, ∅⟩) := by
  rw [Site.execOwn] at h
  split at h
  · cases h
  · obtain ⟨_, rfl⟩ := Prod.mk.inj (Except.ok.inj h)
    exact ⟨‹_›, rfl⟩

end Steps

/-! ## The archive -/

/-- An archive of a session with this row, whose files have these contents. -/
structure Faithful (digest : Bytes → String) (sessionId : String) (row : SessionRow) (seg : Nat) (s : Site)
    (o : OutDir) (m : ManifestFile) (record : ArchiveRecord) (contents : List Bytes) : Prop where
  out : s.out = some o
  accepted : Accepted digest o m record
  identity : record.sessionId = sessionId ∧ record.streamId = row.streamId ∧ record.epoch = row.epoch ∧
    record.earliestOffset = row.earliestOffset
  files : List.Forall₂ (fun item bytes => o.files.lookup item.name = some ⟨true, 1, bytes⟩) record.files contents
  seen : s.seen ≠ []
  throughout : ∀ d ∈ s.seen, ∃ files, Stored seg d files ∧ contents.flatten = files.flatten

/-- How an archive ends. -/
structure Outcome (digest : Bytes → String) (sessionId : String) (seg : Nat) (s : Site)
    (r : Except ArchiveFailure Report) (s' : Site) : Prop where
  session : s'.session = s.session
  grows : Grows seg s.source s'.source
  returned : ∀ report, r = .ok report → ∃ row o m record contents, s.session = some row ∧
    Faithful digest sessionId row seg s' o m record contents
  threw : ∀ e, r = .error e → (∀ f, e ≠ .removal f) → (∀ f, e ≠ .closing f) → s'.out = s.out

section Archive

variable {digest : Bytes → String} {sessionId : String} {seg : Nat} {s s' s'' : Site} {files : List Bytes}
  {r : Except ArchiveFailure Report}

theorem Faithful.kept {row : SessionRow} {o : OutDir} {m : ManifestFile} {record : ArchiveRecord}
    {contents : List Bytes} (h : Faithful digest sessionId row seg s o m record contents) (hkept : Kept seg s s') :
    Faithful digest sessionId row seg s' o m record contents :=
  { h with
    out := hkept.out.trans h.out
    seen := hkept.seen.symm ▸ h.seen
    throughout := fun d hd => h.throughout d (hkept.seen ▸ hd) }

theorem Outcome.early {e : ArchiveFailure} (h : Kept seg s s') :
    Outcome digest sessionId seg s (.error e) s' :=
  ⟨h.session, h.grows, nofun, fun _ _ _ _ => h.out⟩

theorem Outcome.after (h : Kept seg s s') (ho : Outcome digest sessionId seg s' r s'') :
    Outcome digest sessionId seg s r s'' where
  session := ho.session.trans h.session
  grows := h.grows.trans ho.grows
  returned report hr := by
    obtain ⟨row, o, m, record, contents, hrow, hfaithful⟩ := ho.returned report hr
    exact ⟨row, o, m, record, contents, h.session.symm.trans hrow, hfaithful⟩
  threw e he hremoval hclosing := (ho.threw e he hremoval hclosing).trans h.out

theorem Outcome.kept (ho : Outcome digest sessionId seg s r s') (h : Kept seg s' s'') :
    Outcome digest sessionId seg s r s'' where
  session := h.session.trans ho.session
  grows := ho.grows.trans h.grows
  returned report hr := by
    obtain ⟨row, o, m, record, contents, hrow, hfaithful⟩ := ho.returned report hr
    exact ⟨row, o, m, record, contents, hrow, hfaithful.kept h⟩
  threw e he hremoval hclosing := h.out.trans (ho.threw e he hremoval hclosing)

/-- **What is done in the new directory**: it returns with the transcript as it was throughout. -/
theorem beside_archived {row : SessionRow} {inventory : Inventory} (hdigest : Function.Injective digest)
    (hpos : 1 ≤ seg) (hs : Stored seg s.source files) (hcov : inventory.Covers files)
    (hmissing : inventory.missing = false) (hseen : s.seen = []) :
    Beside seg (archived digest sessionId row inventory) (fun r s' => Onward seg s s' ∧ ∀ report, r = .ok report →
      ∃ o m record contents, Faithful digest sessionId row seg s' o m record contents) s := by
  refine wpThrow_bind.mpr (wpThrow_mono ?_ (beside_copyAll (k := 0) ⟨files, hs, .refl _⟩ hcov.segments))
  rintro (e | items) s₁ ⟨h₁, hitems⟩
  · exact ⟨h₁, nofun⟩
  obtain ⟨hdescribes, hsome⟩ := hitems items rfl
  obtain ⟨files₁, hs₁, -⟩ := h₁.grows files hs
  refine wpThrow_bind.mpr (wpThrow_mono ?_ (beside_unchanged hpos hs₁))
  rintro (e | u) s₂ ⟨h₂, hunchanged⟩
  · exact ⟨h₁.trans h₂.quiet.onward, nofun⟩
  have hsize := hunchanged () rfl
  refine beside_validate (fun _ => ?_) fun e => ⟨h₁.trans h₂.quiet.onward, nofun⟩
  refine wpThrow_bind.mpr (wpThrow_mono ?_ beside_writeRecord)
  rintro (e | u) s₃ ⟨h₃, hwritten⟩
  · exact ⟨h₁.trans (h₂.quiet.trans h₃).onward, nofun⟩
  have hquiet₃ := h₂.quiet.trans h₃
  obtain ⟨o, m, hout, hm, hrecord⟩ := hwritten () rfl
  refine beside_looks syncFolder_looks (fun _ s₄ h₄ => ?_)
    fun e s₄ h₄ => ⟨h₁.trans (hquiet₃.trans h₄.quiet).onward, nofun⟩
  refine wpThrow_bind.mpr (wpThrow_mono ?_ beside_verify)
  rintro (e | report) s₅ ⟨h₅, haccepts⟩
  · exact ⟨h₁.trans (hquiet₃.trans (h₄.trans h₅).quiet).onward, nofun⟩
  -- what the verification has read is what was written
  obtain ⟨o', m', record, hout', haccepted⟩ := haccepts report rfl
  obtain rfl := Option.some.inj (hout'.symm.trans (h₄.out.trans hout))
  obtain rfl := Option.some.inj (haccepted.manifest.symm.trans hm)
  obtain rfl := Option.some.inj (haccepted.denotes.symm.trans hrecord)
  refine beside_looks syncFolder_looks (fun _ s₆ h₆ => ?_)
    fun e s₆ h₆ => ⟨h₁.trans (hquiet₃.trans ((h₄.trans h₅).trans h₆).quiet).onward, nofun⟩
  have hkept := (h₄.trans h₅).trans h₆
  have hquiet := hquiet₃.trans hkept.quiet
  refine ⟨h₁.trans hquiet.onward, fun _ _ =>
    ⟨o', m', recordOf sessionId row inventory items, covered inventory.segments files, ?_⟩⟩
  have hne : inventory.segments ≠ [] := fun hnil => by
    rw [hcov.missing.mpr hnil] at hmissing
    cases hmissing
  refine ⟨hkept.out.trans hout, haccepted, ⟨rfl, rfl, rfl, rfl⟩,
    contents_of_described hdigest hdescribes haccepted.files, hquiet.seen.symm ▸ hsome hne, fun d hd => ?_⟩
  rw [hquiet.seen] at hd
  rcases h₁.seen d hd with hd | ⟨hfrom, hto⟩
  · rw [hseen] at hd
    cases hd
  -- it lies between what the inventory covers and what the second inspection has found
  obtain ⟨filesd, hsd, hext⟩ := hfrom files hs
  obtain ⟨files', hs', hext'⟩ := hto filesd hsd
  obtain rfl := hs'.holds.unique hs₁.holds
  obtain ⟨hpre, hlength⟩ := covered_prefix hcov.segments
  refine ⟨filesd, hsd, (hpre.trans (hext.flatten_prefix hs.shape hsd.shape)).eq_of_length_le ?_⟩
  calc filesd.flatten.length ≤ files'.flatten.length := (hext'.flatten_prefix hsd.shape hs'.shape).length_le
    _ ≤ inventory.size := hsize
    _ = _ := hcov.size.trans hlength.symm

theorem beside_archiving (hdigest : Function.Injective digest) (hpos : 1 ≤ seg) (hs : Stored seg s.source files)
    (hseen : s.seen = []) :
    Beside seg (archiving digest sessionId) (Outcome digest sessionId seg s) s := by
  refine wpThrow_bind.mpr (wpThrow_mono ?_ beside_readClosedSession)
  rintro (e | row) s₁ ⟨h₁, hrow⟩
  · exact .early h₁
  obtain ⟨files₁, hs₁, -⟩ := h₁.grows files hs
  refine wpThrow_bind.mpr (wpThrow_mono ?_ (beside_inspect hs₁ hpos))
  rintro (e | inventory) s₂ ⟨h₂, hinspected⟩
  · exact .early (h₁.trans h₂)
  obtain ⟨inv, files₂, hinv, hs₂, -, hcov, -⟩ := hinspected inventory rfl
  obtain rfl := Except.ok.inj hinv
  have hkept₂ := h₁.trans h₂
  refine wpThrow_bind.mpr (beside_demand (fun hmissing => ?_) fun e => .early hkept₂)
  refine beside_looks capacity_looks (fun _ s₃ h₃ => ?_) fun e s₃ h₃ => .early (hkept₂.trans h₃)
  refine wpThrow_bind.mpr (beside_own (fun s₄ u s₅ h₄ hmkdir => ?_)
    fun e s₄ h₄ => .early (hkept₂.trans (h₃.trans h₄.kept)))
  have hkept₄ := hkept₂.trans (h₃.trans h₄.kept)
  obtain ⟨hnone, rfl⟩ := mkdir_ok hmkdir
  obtain ⟨files₄, hs₄, hext⟩ := (h₃.trans h₄.kept).grows files₂ hs₂
  refine wpThrow_tryCatch.mpr (wpThrow_mono ?_ (beside_archived hdigest hpos hs₄ (hcov.grows hs₂ hs₄ hext)
    hmissing (hkept₄.seen.trans hseen)))
  rintro (e | report) s₆ ⟨h₆, hfaithful⟩
  · -- the directory is removed
    refine wpThrow_bind.mpr (beside_perform (fun s₇ u s₈ h₇ hrm => ?_) fun f s₇ h₇ => ?_)
    · have hquiet := h₇.kept.quiet.trans (quiet_execOwn hrm)
      obtain ⟨-, rfl⟩ := Prod.mk.inj (Except.ok.inj hrm)
      exact ⟨hquiet.session.trans (h₆.session.trans hkept₄.session),
        hkept₄.grows.trans (h₆.grows.trans hquiet.grows), nofun,
        fun _ _ _ _ => hnone.symm.trans hkept₄.out⟩
    · refine ⟨h₇.kept.session.trans (h₆.session.trans hkept₄.session),
        hkept₄.grows.trans (h₆.grows.trans h₇.grows), nofun, fun _ he hremoval _ => ?_⟩
      exact absurd (Except.error.inj he).symm (hremoval f)
  · refine ⟨h₆.session.trans hkept₄.session, hkept₄.grows.trans h₆.grows, fun _ _ => ?_, nofun⟩
    obtain ⟨o, m, record, contents, hall⟩ := hfaithful report rfl
    exact ⟨row, o, m, record, contents, hrow row rfl, hall⟩

theorem beside_archiveTerminal (hdigest : Function.Injective digest) (hpos : 1 ≤ seg)
    (hs : Stored seg s.source files) (hseen : s.seen = []) :
    Beside seg (archiveTerminal digest sessionId) (Outcome digest sessionId seg s) s := by
  refine wpThrow_bind.mpr (beside_demand (fun _ => ?_) fun e => .early .refl)
  refine beside_looks safeDirectory_looks (fun _ s₁ h₁ => ?_) fun e s₁ h₁ => .early h₁
  refine beside_looks safeDirectory_looks (fun _ s₂ h₂ => ?_) fun e s₂ h₂ => .early (h₁.trans h₂)
  have hkept₂ := h₁.trans h₂
  refine beside_looks safeDirectory_looks (fun _ s₃ h₃ => ?_) fun e s₃ h₃ => .early (hkept₂.trans h₃)
  have hkept₃ := hkept₂.trans h₃
  refine beside_looks safeDirectory_looks (fun _ s₄ h₄ => ?_) fun e s₄ h₄ => .early (hkept₃.trans h₄)
  have hkept₄ := hkept₃.trans h₄
  refine beside_looks (looks_own rfl) (fun _ s₅ h₅ => ?_) fun e s₅ h₅ => .early (hkept₄.trans h₅)
  have hkept := hkept₄.trans h₅
  obtain ⟨files', hs', -⟩ := hkept.grows files hs
  refine wpThrow_finally (wpThrow_mono (fun r s₆ ho => ?_) (beside_archiving hdigest hpos hs'
    (hkept.seen.trans hseen)))
  refine beside_perform (fun s₇ u s₈ h₇ hclose => ?_) fun f s₇ h₇ => ?_
  · exact (ho.kept (h₇.kept.trans (execOwn_kept rfl hclose))).after hkept
  · have hend := (ho.kept h₇.kept).after hkept
    refine ⟨hend.session, hend.grows, nofun, fun _ he _ hclosing => ?_⟩
    exact absurd (Except.error.inj he).symm (hclosing f)

/-- **An archive ends** with the transcript as it was throughout the copy, in a directory that is accepted, and
with no other files is not; or it throws, and the directory is gone unless the removal or the closing fails. -/
theorem archiveTerminal_faithful (hdigest : Function.Injective digest) (hpos : 1 ≤ seg)
    (hs : Stored seg s.source files) (hseen : s.seen = []) :
    Beside seg (archiveTerminal digest sessionId) (fun r s' =>
      s'.session = s.session ∧ Grows seg s.source s'.source ∧
      (∀ report, r = .ok report → ∃ row o m record contents, s.session = some row ∧
        Faithful digest sessionId row seg s' o m record contents ∧
        (∀ t : Site, t.out = some o → t.safe t.asked = true →
          Total site (verifyTerminalArchive digest) (fun _ _ => True) t) ∧
        (∀ (t : Site) (o' : OutDir), t.out = some o' → o'.manifest = some m →
          (∃ name, o'.files.lookup name ≠ o.files.lookup name) →
          Beside seg (verifyTerminalArchive digest) (fun r' _ => ∀ report', r' ≠ .ok report') t)) ∧
      (∀ e, r = .error e → (∀ f, e ≠ .removal f) → (∀ f, e ≠ .closing f) → s'.out = s.out)) s := by
  refine wpThrow_mono ?_ (beside_archiveTerminal hdigest hpos hs hseen)
  rintro r s' ⟨hsession, hgrows, hreturned, hthrew⟩
  refine ⟨hsession, hgrows, fun report hr => ?_, hthrew⟩
  obtain ⟨row, o, m, record, contents, hrow, hfaithful⟩ := hreturned report hr
  refine ⟨row, o, m, record, contents, hrow, hfaithful, fun t hout hsafe => ?_, fun t o' hout hm hother => ?_⟩
  · exact total_mono (fun _ _ _ => trivial) (total_verify hfaithful.accepted hout hsafe)
  · refine wpThrow_mono ?_ beside_verify
    rintro r' t' ⟨-, haccepts⟩ report' hr'
    obtain ⟨o₁, m₁, record₁, hout₁, haccepted⟩ := haccepts report' hr'
    obtain rfl := Option.some.inj (hout.symm.trans hout₁)
    obtain rfl := Option.some.inj (hm.symm.trans haccepted.manifest)
    obtain rfl := Option.some.inj (hfaithful.accepted.denotes.symm.trans haccepted.denotes)
    obtain ⟨name, hname⟩ := hother
    exact hname (hfaithful.accepted.unique hdigest haccepted name)

end Archive

/-- A digest for the file of the sample. -/
def sampleDigest (bytes : Bytes) : String :=
  String.ofList (if bytes = [1, 2] then List.replicate 64 '0' else 'x' :: bytes.map Char.ofUInt8)

theorem ofUInt8_injective : Function.Injective Char.ofUInt8 := by
  intro a b h
  have hval : a.toUInt32 = b.toUInt32 := congrArg Char.val h
  have hnat : a.toUInt32.toNat = b.toUInt32.toNat := congrArg UInt32.toNat hval
  rw [UInt8.toNat_toUInt32, UInt8.toNat_toUInt32] at hnat
  exact UInt8.toNat_inj.mp hnat

theorem sampleDigest_injective : Function.Injective sampleDigest := by
  intro a b h
  have hlists := String.ofList_injective h
  split at hlists
  · split at hlists
    · rename_i ha hb
      exact ha.trans hb.symm
    · exact absurd (List.cons.inj hlists).1 (by decide)
  · split at hlists
    · exact absurd (List.cons.inj hlists).1 (by decide)
    · exact List.map_injective_iff.mpr ofUInt8_injective (List.cons.inj hlists).2

/-- A closed session with a transcript of two bytes. -/
def sampleSite : Site :=
  ⟨AList.singleton .first ⟨true, 1, [1, 2]⟩, 2, some ⟨"2026-01-02", "stream-1", 1, 0, "STOPPED", none⟩, none,
    fun _ => 400, fun _ => true, fun _ => 2 ^ 40, fun _ => 7, 0, []⟩

theorem sampleSite_stored : Stored 4 sampleSite.source [[1, 2]] where
  holds := holds_singleton [1, 2]
  shape := (by decide : ([1, 2] : Bytes).length ≤ 4)
  safe := by decide

/-- The archive of the sample, where some calls fail. -/
def sampleArchive (plan : List (Option FsError)) :
    List (Entry ArchiveOp FsError) × Except ArchiveFailure Report × Site :=
  (archiveTerminal sampleDigest "s1").run.planned site plan sampleSite

example : (sampleArchive [some .fault]).2.2.out.isNone = true := by decide +kernel

theorem sampleArchive_runs (plan : List (Option FsError)) (hfault : ∀ e, some e ∈ plan → e = .fault) :
    Runs site (fun e => e = .fault) (archiveTerminal sampleDigest "s1").run sampleSite (sampleArchive plan).1
      (sampleArchive plan).2.1 (sampleArchive plan).2.2 :=
  Prog.planned_runs_of _ plan sampleSite hfault

theorem archiveTerminal_faithful_sample :
    (sampleArchive []).2.1 = .ok ⟨"s1", 2, 1⟩ ∧
    Beside 4 (archiveTerminal sampleDigest "s1") (fun r s' => ∀ report, r = .ok report →
      ∃ row o m record contents, Faithful sampleDigest "s1" row 4 s' o m record contents) sampleSite := by
  refine ⟨by decide +kernel, wpThrow_mono ?_ (archiveTerminal_faithful sampleDigest_injective (by decide)
    sampleSite_stored rfl)⟩
  rintro r s' ⟨-, -, hreturned, -⟩ report hr
  obtain ⟨row, o, m, record, contents, -, hfaithful, -⟩ := hreturned report hr
  exact ⟨row, o, m, record, contents, hfaithful⟩

/-- When an archive throws, the directory that it has created is gone. -/
def GoneWhenThrown (digest : Bytes → String) (sessionId : String) (s : Site) : Prop :=
  ∀ tr e s', Runs site (fun e => e = .fault) (archiveTerminal digest sessionId).run s tr (.error e) s' →
    s.out = none → s'.out = none

/-- **The directory stays** where its removal fails. -/
theorem directory_left : ¬GoneWhenThrown sampleDigest "s1" sampleSite := by
  intro hgone
  -- the directory is there, then the free space is not told, and then the directory is not removed
  let plan := List.replicate 11 none ++ [some FsError.fault, some FsError.fault]
  have hthrown : (sampleArchive plan).2.1 = .error (.removal .fault) := by decide +kernel
  have hleft : (sampleArchive plan).2.2.out.isSome = true := by decide +kernel
  have hrun := sampleArchive_runs plan (by simp [plan])
  rw [hthrown] at hrun
  rw [hgone _ _ _ hrun rfl] at hleft
  cases hleft

end BegetBridge.TerminalArchive
