import BegetBridge.Terminal.ArchiveTerminal

/-!
# What a verification accepts

A verification returns only for an archive whose files are those of its manifest, each with its size and its
digest. Two archives with one manifest that are both accepted have the same files.

## Main definitions

* `beside`: an archive is made while a capture may still append to the transcript
* `Kept`, `Looks`: the scripts that only look
* `Accepted`: what a verification accepts

## Main results

* `beside_verify`, `total_verify`: a verification returns only for what it accepts, and does
* `Accepted.unique`: no other files go with a manifest
-/

namespace BegetBridge.TerminalArchive

open Core Relational Interleaving Transcript Script

/-! ## Among others -/

/-- A capture that is late lets the transcript grow. It leaves everything else as it is. -/
structure Elsewhere (seg : Nat) (s s' : Site) : Prop where
  grows : Grows seg s.source s'.source
  same : s' = { s with source := s'.source }

/-- An archive, while a capture may append, and where any call may fail. No call of it changes the session. -/
def beside (seg : Nat) : Setting ArchiveOp FsError Site where
  toBackend := site
  Fault e := e = .fault
  rely _ s s' := Elsewhere seg s s'
  oblige op s := ∀ b s', Site.exec op s = .ok (b, s') → s'.source = s.source ∧ s'.session = s.session

abbrev Beside {α : Type} (seg : Nat) (p : ArchiveM α) (Q : Except ArchiveFailure α → Site → Prop) (s : Site) :
    Prop := wpThrow (beside seg) p Q s

/-- What looking leaves as it is. -/
structure Kept (seg : Nat) (s s' : Site) : Prop where
  out : s'.out = s.out
  session : s'.session = s.session
  textLength : s'.textLength = s.textLength
  seen : s'.seen = s.seen
  grows : Grows seg s.source s'.source

section Kept

variable {seg : Nat} {s s' : Site} {α β γ : Type}

theorem Kept.refl : Kept seg s s := ⟨rfl, rfl, rfl, rfl, .refl _⟩

theorem Kept.trans {s'' : Site} (h : Kept seg s s') (h' : Kept seg s' s'') : Kept seg s s'' :=
  ⟨h'.out.trans h.out, h'.session.trans h.session, h'.textLength.trans h.textLength, h'.seen.trans h.seen,
    h.grows.trans h'.grows⟩

theorem Elsewhere.kept (h : Elsewhere seg s s') : Kept seg s s' := by
  rw [h.same]
  exact ⟨rfl, rfl, rfl, rfl, h.grows⟩

theorem Elsewhere.refl : Elsewhere seg s s := ⟨.refl _, rfl⟩

/-- The calls that only look at the directory of the archive. -/
def OwnOp.looks : OwnOp β → Bool
  | .mkdir => false
  | .createOut _ => false
  | .writeOut _ _ => false
  | .createManifest => false
  | .writeManifest _ => false
  | .rmOut => false
  | _ => true

theorem withOut_self {o : OutDir} (h : s.out = some o) : s.withOut (some o) = s := by
  rw [Site.withOut, ← h]

theorem onOut_ok {f : OutDir → Except FsError (γ × OutDir)} {x : γ} (h : s.onOut f = .ok (x, s')) :
    ∃ o o', s.out = some o ∧ f o = .ok (x, o') ∧ s' = s.withOut (some o') := by
  rw [Site.onOut] at h
  cases hout : s.out with
  | none =>
    rw [hout] at h
    cases h
  | some o =>
    rw [hout] at h
    cases hf : f o with
    | error e =>
      simp only [hf, Except.map] at h
      cases h
    | ok r =>
      simp only [hf, Except.map, Except.ok.injEq, Prod.mk.injEq] at h
      obtain ⟨rfl, rfl⟩ := h
      exact ⟨o, r.2, rfl, hf, rfl⟩

theorem onManifest_ok {f : ManifestFile → γ} {x : γ} (h : s.onManifest f = .ok (x, s')) :
    s' = s ∧ ∃ o m, s.out = some o ∧ o.manifest = some m ∧ x = f m := by
  obtain ⟨o, o', hout, hf, rfl⟩ := onOut_ok h
  cases hm : o.manifest with
  | none =>
    rw [hm] at hf
    cases hf
  | some m =>
    rw [hm] at hf
    obtain ⟨rfl, rfl⟩ := Prod.mk.inj (Except.ok.inj hf)
    exact ⟨withOut_self hout, o, m, hout, hm, rfl⟩

theorem onFile_ok {name : FileName} {f : File → γ} {x : γ} (h : s.onFile name f = .ok (x, s')) :
    s' = s ∧ ∃ o file, s.out = some o ∧ o.files.lookup name = some file ∧ x = f file := by
  obtain ⟨o, o', hout, hf, rfl⟩ := onOut_ok h
  cases hm : o.files.lookup name with
  | none =>
    rw [hm] at hf
    cases hf
  | some file =>
    rw [hm] at hf
    obtain ⟨rfl, rfl⟩ := Prod.mk.inj (Except.ok.inj hf)
    exact ⟨withOut_self hout, o, file, hout, hm, rfl⟩

theorem readdirOut_ok {names : List FileName} (h : s.execOwn .readdirOut = .ok (names, s')) :
    s' = s ∧ ∃ o, s.out = some o ∧ names = o.files.keys := by
  obtain ⟨o, o', hout, hf, rfl⟩ := onOut_ok h
  obtain ⟨rfl, rfl⟩ := Prod.mk.inj (Except.ok.inj hf)
  exact ⟨withOut_self hout, o, hout, rfl⟩

/-- No call but those of the copy touches the session directory, and none changes it. -/
theorem execOwn_spares {op : OwnOp β} {b : β} (h : s.execOwn op = .ok (b, s')) :
    s'.source = s.source ∧ s'.session = s.session ∧ s'.seen = s.seen ∧ s'.textLength = s.textLength := by
  cases op
  case mkdir =>
    rw [Site.execOwn] at h
    split at h
    · cases h
    · obtain ⟨_, rfl⟩ := Prod.mk.inj (Except.ok.inj h)
      exact ⟨rfl, rfl, rfl, rfl⟩
  case createOut | writeOut | createManifest | writeManifest | readdirOut =>
    obtain ⟨_, _, _, _, rfl⟩ := onOut_ok h
    exact ⟨rfl, rfl, rfl, rfl⟩
  case openManifest | statManifest | readManifest =>
    obtain ⟨rfl, _⟩ := onManifest_ok h
    exact ⟨rfl, rfl, rfl, rfl⟩
  case openOut | statOut | readOut =>
    obtain ⟨rfl, _⟩ := onFile_ok h
    exact ⟨rfl, rfl, rfl, rfl⟩
  all_goals
    obtain ⟨_, rfl⟩ := Prod.mk.inj (Except.ok.inj h)
    exact ⟨rfl, rfl, rfl, rfl⟩

theorem execOwn_kept {op : OwnOp β} {b : β} (hlooks : op.looks = true) (h : s.execOwn op = .ok (b, s')) :
    Kept seg s s' := by
  obtain ⟨hsource, hsession, hseen, htext⟩ := execOwn_spares h
  refine ⟨?_, hsession, htext, hseen, hsource ▸ .refl _⟩
  cases op <;> simp only [OwnOp.looks, Bool.false_eq_true] at hlooks
  case readdirOut =>
    rw [(readdirOut_ok h).1]
  case openManifest | statManifest | readManifest =>
    rw [(onManifest_ok h).1]
  case openOut | statOut | readOut =>
    rw [(onFile_ok h).1]
  all_goals
    obtain ⟨_, rfl⟩ := Prod.mk.inj (Except.ok.inj h)
    rfl

/-! ### Rules -/

variable {Q : Except ArchiveFailure β → Site → Prop}

/-- A call of its own: the capture may act before it. -/
theorem beside_perform {throws : FsError → ArchiveFailure} {op : OwnOp β}
    (hok : ∀ s₁ b s₂, Elsewhere seg s s₁ → s₁.execOwn op = .ok (b, s₂) → Q (.ok b) s₂)
    (herror : ∀ e s₁, Elsewhere seg s s₁ → Q (.error (throws e)) s₁) :
    Beside seg (Script.perform throws (.own op)) Q s := by
  intro s₁ hrely
  refine ⟨fun b s₂ h => ?_, fun r s₂ hans => ?_⟩
  · obtain ⟨hsource, hsession, -⟩ := execOwn_spares h
    exact ⟨hsource, hsession⟩
  · cases hans with
    | effect h => exact hok s₁ _ s₂ hrely h
    | refusal h => exact herror _ s₁ hrely
    | fault h => exact herror _ s₁ hrely

theorem beside_own {op : OwnOp β}
    (hok : ∀ s₁ b s₂, Elsewhere seg s s₁ → s₁.execOwn op = .ok (b, s₂) → Q (.ok b) s₂)
    (herror : ∀ e s₁, Elsewhere seg s s₁ → Q (.error e) s₁) : Beside seg (own op) Q s :=
  beside_perform hok fun _ s₁ h => herror _ s₁ h

/-- A call that only looks. -/
theorem beside_look {op : OwnOp β} (hlooks : op.looks = true)
    (hok : ∀ s₁ b s₂, Kept seg s s₁ → Kept seg s s₂ → s₁.execOwn op = .ok (b, s₂) → Q (.ok b) s₂)
    (herror : ∀ e s₁, Kept seg s s₁ → Q (.error e) s₁) : Beside seg (own op) Q s :=
  beside_own (fun s₁ b s₂ h hexec => hok s₁ b s₂ h.kept (h.kept.trans (execOwn_kept hlooks hexec)) hexec)
    fun e s₁ h => herror e s₁ h.kept

theorem beside_demand {c : Prop} [Decidable c] {text : String} {Q : Except ArchiveFailure Unit → Site → Prop}
    (hok : c → Q (.ok ()) s) (herror : ∀ e, Q (.error e) s) : Beside seg (demand c text) Q s := by
  rw [demand]
  split
  · exact hok ‹_›
  · exact herror _

/-- The script only looks. -/
def Looks {α : Type} (seg : Nat) (p : ArchiveM α) : Prop :=
  ∀ s (Q : Except ArchiveFailure α → Site → Prop), (∀ r s', Kept seg s s' → Q r s') → Beside seg p Q s

theorem looks_own {op : OwnOp β} (hlooks : op.looks = true) : Looks seg (own op) :=
  fun _ _ hQ => beside_look hlooks (fun _ _ _ _ h _ => hQ _ _ h) fun _ _ h => hQ _ _ h

theorem looks_pure {a : α} : Looks seg (pure a) := fun _ _ hQ => hQ _ _ .refl

theorem looks_throw {e : ArchiveFailure} : Looks seg (throw e : ArchiveM α) := fun _ _ hQ => hQ _ _ .refl

theorem looks_bind {p : ArchiveM β} {f : β → ArchiveM α} (hp : Looks seg p) (hf : ∀ b, Looks seg (f b)) :
    Looks seg (p >>= f) := by
  intro s Q hQ
  refine wpThrow_bind.mpr (hp s _ ?_)
  rintro (e | b) s' hs
  · exact hQ _ _ hs
  · exact hf b s' _ fun r s'' hs' => hQ _ _ (hs.trans hs')

theorem looks_finally {p : ArchiveM α} {last : ArchiveM Unit} (hp : Looks seg p) (hlast : Looks seg last) :
    Looks seg (p.andFinally last) :=
  fun s _ hQ => wpThrow_finally (hp s _ fun _ s' hs => hlast s' _ fun _ _ hs' => hQ _ _ (hs.trans hs'))

theorem looks_demand {c : Prop} [Decidable c] {text : String} : Looks seg (demand c text) :=
  fun _ _ hQ => beside_demand (fun _ => hQ _ _ .refl) fun _ => hQ _ _ .refl

/-- A script that only looks, and what comes after it. -/
theorem beside_looks {p : ArchiveM β} {f : β → ArchiveM α} {Q : Except ArchiveFailure α → Site → Prop}
    (hp : Looks seg p) (hf : ∀ b s', Kept seg s s' → Beside seg (f b) Q s')
    (herror : ∀ e s', Kept seg s s' → Q (.error e) s') : Beside seg (p >>= f) Q s := by
  refine wpThrow_bind.mpr (hp s _ ?_)
  rintro (e | b) s' hs
  · exact herror e s' hs
  · exact hf b s' hs

/-- What is known when something returns is known after its file is closed. -/
theorem beside_closed {p : ArchiveM α} {last : ArchiveM Unit} {P : α → Prop} {R : Site → Prop}
    (hlast : ∀ s', R s' → Beside seg last (fun _ s'' => R s'') s')
    (h : Beside seg p (fun r s' => R s' ∧ ∀ a, r = .ok a → P a) s) :
    Beside seg (p.andFinally last) (fun r s' => R s' ∧ ∀ a, r = .ok a → P a) s := by
  refine wpThrow_finally (wpThrow_mono ?_ h)
  rintro r s' ⟨hR, hP⟩
  refine wpThrow_mono ?_ (hlast s' hR)
  rintro (e | u) s'' hR'
  · exact ⟨hR', nofun⟩
  · exact ⟨hR', hP⟩

theorem safeDirectory_looks : Looks seg safeDirectory := looks_bind (looks_own rfl) fun _ => looks_demand

theorem capacity_looks {bytes : Nat} : Looks seg (capacity bytes) := looks_bind (looks_own rfl) fun _ => looks_demand

theorem syncFolder_looks : Looks seg syncFolder :=
  looks_bind (looks_own rfl) fun _ => looks_finally (looks_own rfl) (looks_own rfl)

end Kept

/-! ## The verification -/

/-- A file that goes with its entry in the manifest. -/
structure FileOk (digest : Bytes → String) (item : ArchiveFile) (f : File) : Prop where
  isFile : f.isFile = true
  nlink : f.nlink = 1
  size : f.bytes.length = item.size
  sha256 : digest f.bytes = item.sha256

/-- What a verification accepts. -/
structure Accepted (digest : Bytes → String) (o : OutDir) (m : ManifestFile) (record : ArchiveRecord) : Prop where
  manifest : o.manifest = some m
  stat : m.isFile = true ∧ m.nlink = 1 ∧ m.size ≤ 256 * 1024
  denotes : m.record = some record
  valid : record.Valid
  names : o.files.keys.Perm (record.files.map (·.name))
  files : ∀ item ∈ record.files, ∃ f, o.files.lookup item.name = some f ∧ FileOk digest item f

section Verification

variable {digest : Bytes → String} {seg : Nat} {s s' : Site} {o o' : OutDir}

/-- **No other files go with a manifest.** -/
theorem Accepted.unique (hdigest : Function.Injective digest) {m : ManifestFile} {record : ArchiveRecord}
    (h : Accepted digest o m record) (h' : Accepted digest o' m record) (name : FileName) :
    o'.files.lookup name = o.files.lookup name := by
  have hmem : name ∈ o'.files.keys ↔ name ∈ o.files.keys := h'.names.mem_iff.trans h.names.mem_iff.symm
  by_cases hname : name ∈ o.files.keys
  · obtain ⟨item, hitem, rfl⟩ := List.mem_map.mp (h.names.mem_iff.mp hname)
    obtain ⟨f, hf, hok⟩ := h.files item hitem
    obtain ⟨f', hf', hok'⟩ := h'.files item hitem
    have hbytes : f'.bytes = f.bytes := hdigest (hok'.sha256.trans hok.sha256.symm)
    have hisFile := hok'.isFile.trans hok.isFile.symm
    have hnlink := hok'.nlink.trans hok.nlink.symm
    have hsame : f' = f := by
      cases f
      cases f'
      exact (File.mk.injEq ..).mpr ⟨hisFile, hnlink, hbytes⟩
    rw [hf, hf', hsame]
  · rw [AList.lookup_eq_none.mpr hname, AList.lookup_eq_none.mpr fun hno => hname (hmem.mp hno)]

theorem beside_verifyFile {item : ArchiveFile} :
    Beside seg (verifyFile digest item) (fun r s' => Kept seg s s' ∧ ∀ u, r = .ok u →
      ∃ o f, s.out = some o ∧ o.files.lookup item.name = some f ∧ FileOk digest item f) s := by
  refine beside_looks (looks_own rfl) (fun _ s₁ h₁ => ?_) fun e s' h => ⟨h, nofun⟩
  refine beside_closed (fun s' h => looks_own rfl _ _ fun _ _ h' => h.trans h') ?_
  refine wpThrow_bind.mpr (beside_look rfl (fun s₂ info s₃ h₂ h₃ hstat => ?_) fun e s' h => ⟨h₁.trans h, nofun⟩)
  obtain ⟨rfl, o, f, hout, hf, rfl⟩ := onFile_ok hstat
  have hs := h₁.trans h₃
  refine wpThrow_bind.mpr (beside_demand (fun hinfo => ?_) fun e => ⟨hs, nofun⟩)
  refine wpThrow_bind.mpr (beside_look rfl (fun s₄ bytes s₅ h₄ h₅ hread => ?_) fun e s' h => ⟨hs.trans h, nofun⟩)
  obtain ⟨rfl, o', f', hout', hf', rfl⟩ := onFile_ok hread
  have hsame : o' = o := Option.some.inj (hout'.symm.trans (h₅.out.trans hout))
  subst hsame
  obtain rfl := Option.some.inj (hf.symm.trans hf')
  refine beside_demand (fun hsha => ⟨hs.trans h₅, fun _ _ => ?_⟩) fun e => ⟨hs.trans h₅, nofun⟩
  exact ⟨o', f, hs.out ▸ hout, hf, hinfo.1, hinfo.2.1, hinfo.2.2, hsha⟩

theorem beside_verifyFiles {files : List ArchiveFile} :
    Beside seg (verifyFiles digest files) (fun r s' => Kept seg s s' ∧ ∀ u, r = .ok u → ∀ item ∈ files,
      ∃ o f, s.out = some o ∧ o.files.lookup item.name = some f ∧ FileOk digest item f) s := by
  induction files generalizing s with
  | nil => exact ⟨.refl, fun _ _ => nofun⟩
  | cons item files ih =>
    refine wpThrow_bind.mpr (wpThrow_mono ?_ beside_verifyFile)
    rintro (e | u) s₁ ⟨h₁, hitem⟩
    · exact ⟨h₁, nofun⟩
    · refine wpThrow_mono ?_ ih
      rintro r s₂ ⟨h₂, hrest⟩
      refine ⟨h₁.trans h₂, fun u hr other hother => ?_⟩
      rcases List.mem_cons.mp hother with rfl | hother
      · exact hitem () rfl
      · rw [← h₁.out]
        exact hrest u hr other hother

theorem beside_readManifestFile :
    Beside seg readManifestFile (fun r s' => Kept seg s s' ∧ ∀ record, r = .ok record →
      ∃ o m, s.out = some o ∧ o.manifest = some m ∧ (m.isFile = true ∧ m.nlink = 1 ∧ m.size ≤ 256 * 1024) ∧
        m.record = some record ∧ record.Valid) s := by
  refine beside_looks (looks_own rfl) (fun _ s₁ h₁ => ?_) fun e s' h => ⟨h, nofun⟩
  refine beside_closed (fun s' h => looks_own rfl _ _ fun _ _ h' => h.trans h') ?_
  refine wpThrow_bind.mpr (beside_look rfl (fun s₂ info s₃ h₂ h₃ hstat => ?_) fun e s' h => ⟨h₁.trans h, nofun⟩)
  obtain ⟨rfl, o, m, hout, hm, rfl⟩ := onManifest_ok hstat
  have hs := h₁.trans h₃
  refine wpThrow_bind.mpr (beside_demand (fun hinfo => ?_) fun e => ⟨hs, nofun⟩)
  refine wpThrow_bind.mpr (beside_look rfl (fun s₄ record s₅ h₄ h₅ hread => ?_) fun e s' h => ⟨hs.trans h, nofun⟩)
  obtain ⟨rfl, o', m', hout', hm', rfl⟩ := onManifest_ok hread
  have hsame : o' = o := Option.some.inj (hout'.symm.trans (h₅.out.trans hout))
  subst hsame
  obtain rfl := Option.some.inj (hm.symm.trans hm')
  have hs₅ := hs.trans h₅
  show Beside seg (validateArchive m.record) _ _
  cases hrecord : m.record with
  | none => exact ⟨hs₅, nofun⟩
  | some record =>
    refine wpThrow_bind.mpr (beside_demand (fun hvalid => ⟨hs₅, fun r hr => ?_⟩) fun e => ⟨hs₅, nofun⟩)
    obtain rfl := Except.ok.inj hr
    exact ⟨o', m, hs.out ▸ hout, hm, hinfo, hrecord, hvalid⟩

/-- **A verification returns** only for what it accepts. -/
theorem beside_verify :
    Beside seg (verifyTerminalArchive digest) (fun r s' => Kept seg s s' ∧ ∀ report, r = .ok report →
      ∃ o m record, s.out = some o ∧ Accepted digest o m record) s := by
  refine beside_looks safeDirectory_looks (fun _ s₁ h₁ => ?_) fun e s' h => ⟨h, nofun⟩
  refine wpThrow_bind.mpr (wpThrow_mono ?_ beside_readManifestFile)
  rintro (e | record) s₂ ⟨h₂, hrecord⟩
  · exact ⟨h₁.trans h₂, nofun⟩
  obtain ⟨o, m, hout, hm, hstat, hmrecord, hvalid⟩ := hrecord record rfl
  have hs := h₁.trans h₂
  refine wpThrow_bind.mpr (beside_look rfl (fun s₃ present s₄ h₃ h₄ hreaddir => ?_) fun e s' h => ⟨hs.trans h, nofun⟩)
  obtain ⟨rfl, o', hout', rfl⟩ := readdirOut_ok hreaddir
  have hsame : o' = o := Option.some.inj (hout'.symm.trans ((h₂.trans h₄).out.trans hout))
  subst hsame
  have hs₄ := hs.trans h₄
  refine wpThrow_bind.mpr (beside_demand (fun hnames => ?_) fun e => ⟨hs₄, nofun⟩)
  refine wpThrow_bind.mpr (wpThrow_mono ?_ beside_verifyFiles)
  rintro (e | u) s₅ ⟨h₅, hfiles⟩
  · exact ⟨hs₄.trans h₅, nofun⟩
  refine ⟨hs₄.trans h₅, fun _ _ => ⟨o', m, record, h₁.out ▸ hout, hm, hstat, hmrecord, hvalid, hnames,
    fun item hitem => ?_⟩⟩
  obtain ⟨o, f, hout, hf⟩ := hfiles () rfl item hitem
  obtain rfl := Option.some.inj (hout'.symm.trans hout)
  exact ⟨f, hf⟩

/-! ### The run without faults -/

theorem onOut_eq {γ : Type} {f : OutDir → Except FsError (γ × OutDir)} {x : γ} (hout : s.out = some o)
    (hf : f o = .ok (x, o)) : s.onOut f = .ok (x, s) := by
  simp only [Site.onOut, hout, hf, Except.map, withOut_self hout]

theorem onManifest_eq {γ : Type} {f : ManifestFile → γ} {m : ManifestFile} (hout : s.out = some o)
    (hm : o.manifest = some m) : s.onManifest f = .ok (f m, s) :=
  onOut_eq hout (by simp only [hm])

theorem onFile_eq {γ : Type} {name : FileName} {f : File → γ} {file : File} (hout : s.out = some o)
    (hf : o.files.lookup name = some file) : s.onFile name f = .ok (f file, s) :=
  onOut_eq hout (by simp only [hf])

theorem total_own {β : Type} {op : OwnOp β} {b : β} {t : Site} {Q : β → Site → Prop}
    (h : s.execOwn op = .ok (b, t)) (hQ : Q b t) : Total site (own op) Q s := total_perform h hQ

theorem total_demand {c : Prop} [Decidable c] {text : String} {Q : Unit → Site → Prop} (h : c) (hQ : Q () s) :
    Total site (demand c text) Q s := by
  rw [demand, if_pos h]
  exact total_pure hQ

theorem total_verifyFiles {files : List ArchiveFile} (hout : s.out = some o)
    (h : ∀ item ∈ files, ∃ f, o.files.lookup item.name = some f ∧ FileOk digest item f) :
    Total site (verifyFiles digest files) (fun _ s' => s' = s) s := by
  induction files with
  | nil => exact total_pure rfl
  | cons item files ih =>
    obtain ⟨f, hf, hok⟩ := h item List.mem_cons_self
    refine total_bind (total_bind (total_own (onFile_eq hout hf) (total_finally (total_bind
      (total_own (onFile_eq hout hf) (total_bind (total_demand ⟨hok.isFile, hok.nlink, hok.size⟩
        (total_bind (total_own (onFile_eq hout hf) (total_demand hok.sha256 ?_))))))))))
    exact total_own rfl (ih fun other hother => h other (List.mem_cons_of_mem _ hother))

/-- **A verification returns** for what it accepts. -/
theorem total_verify {m : ManifestFile} {record : ArchiveRecord} (h : Accepted digest o m record)
    (hout : s.out = some o) (hsafe : s.safe s.asked = true) :
    Total site (verifyTerminalArchive digest)
      (fun report _ => report = ⟨record.sessionId, record.size, record.files.length⟩) s := by
  have hout₁ : s.ask.out = some o := hout
  refine total_bind (total_bind (total_own rfl (total_demand hsafe ?_)))
  have hvalidated : Total site (validateArchive m.record) (fun r s' => r = record ∧ s' = s.ask) s.ask := by
    rw [h.denotes]
    exact total_bind (total_demand h.valid (total_pure ⟨rfl, rfl⟩))
  refine total_bind (total_bind (total_own (onManifest_eq hout₁ h.manifest) (total_finally (total_bind
    (total_own (onManifest_eq hout₁ h.manifest) (total_bind (total_demand h.stat (total_bind
      (total_own (onManifest_eq hout₁ h.manifest) (total_mono ?_ hvalidated))))))))))
  rintro _ _ ⟨rfl, rfl⟩
  refine total_own rfl (total_bind (total_own (onOut_eq hout₁ rfl) (total_bind (total_demand h.names
    (total_bind (total_mono ?_ (total_verifyFiles hout₁ h.files)))))))
  rintro _ _ rfl
  exact total_pure rfl

end Verification

end BegetBridge.TerminalArchive
