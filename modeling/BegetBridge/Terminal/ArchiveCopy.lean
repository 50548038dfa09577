import BegetBridge.Terminal.ArchiveVerified

/-!
# The copy of a transcript

The transcript only grows while it is copied, so that the bytes that an inspection has measured are read
as they were then, whenever they are read.

## Main definitions

* `Inspecting`: programs that end at the first fault
* `Later`: the transcript has grown from what it was
* `covered`: the bytes that an inventory covers
* `Onward`: what every step of an archive does, with the session directories that it has seen

## Main results

* `beside_inspect`: an inspection among others, with faults
* `beside_copyAll`: the digests are those of the bytes that the inventory covers
-/

namespace BegetBridge.TerminalArchive

open Core Relational Interleaving Transcript Script

/-! ## Inspections with faults -/

/-- The program ends with the first fault, and opens no file. -/
def Inspecting {α : Type} : Prog Fs FsError (Except Failure α) → Prop
  | .done _ => True
  | .call op k => opens op = false ∧ k (.error .fault) = .done (.error (.fs .fault)) ∧ ∀ r, Inspecting (k r)

section Inspecting

variable {R : Dir → Dir → Prop} {d : Dir} {α β : Type}

/-- Programs that look among others, where any operation may fail. -/
def faulty (R : Dir → Dir → Prop) : Setting Fs FsError Dir where
  toBackend := fsBackend
  Fault e := e = .fault
  rely _ d d' := R d d'
  oblige op _ := op.reads = true ∧ opens op = false

/-- What holds without faults holds, or there was one. -/
theorem wp_faulty {p : Prog Fs FsError (Except Failure α)} {Q : Except Failure α → Dir → Prop}
    (hp : Inspecting p) (h : wp (sharing R) p Q d) :
    wp (faulty R) p (fun r d' => Q r d' ∨ r = .error (.fs .fault)) d := by
  induction p generalizing d with
  | done a => exact .inl h
  | call op k ih =>
    intro d₁ hrely
    obtain ⟨hreads, hk⟩ := h d₁ hrely
    refine ⟨⟨hreads, hp.1⟩, fun r d₂ hans => ?_⟩
    cases hans with
    | effect he => exact ih _ (hp.2.2 _) (hk _ _ (.effect he))
    | refusal he => exact ih _ (hp.2.2 _) (hk _ _ (.refusal he))
    | fault he =>
      subst he
      rw [hp.2.1]
      exact .inr rfl

theorem inspecting_then {p : Prog Fs FsError (Except Failure β)}
    {g : Except Failure β → Prog Fs FsError (Except Failure α)} (hp : Inspecting p)
    (hfault : g (.error (.fs .fault)) = .done (.error (.fs .fault))) (hg : ∀ r, Inspecting (g r)) :
    Inspecting (p.bind g) := by
  induction p with
  | done r => exact hg r
  | call op k ih =>
    refine ⟨hp.1, ?_, fun r => ih r (hp.2.2 r)⟩
    show (k (.error .fault)).bind g = _
    rw [hp.2.1]
    exact hfault

theorem inspecting_bind {p : FsM β} {f : β → FsM α} (hp : Inspecting p.run) (hf : ∀ b, Inspecting (f b).run) :
    Inspecting (p >>= f).run := by
  refine inspecting_then hp rfl ?_
  rintro (e | b)
  · trivial
  · exact hf b

theorem inspecting_perform {op : Fs β} (h : opens op = false) : Inspecting (perform op).run :=
  ⟨h, rfl, fun _ => trivial⟩

theorem inspecting_ensure {c : Prop} [Decidable c] {text : String} : Inspecting (ensure c text).run := by
  rw [ensure]
  split
  · trivial
  · trivial

theorem regularSize_inspecting {name : FileName} : Inspecting (regularSize name).run :=
  inspecting_bind (inspecting_perform rfl) fun _ => inspecting_bind inspecting_ensure fun _ => trivial

theorem inspectFrom_inspecting {numbered : List String} {actual count index size : Nat} :
    Inspecting (inspectFrom numbered actual count index size).run := by
  induction count generalizing index size with
  | zero => trivial
  | succ count ih =>
    refine inspecting_bind (p := ExceptT.mk (.done (segmentPath index))) trivial fun _ => ?_
    refine inspecting_bind inspecting_ensure fun _ => inspecting_bind regularSize_inspecting fun _ => ?_
    refine inspecting_bind inspecting_ensure fun _ => inspecting_bind inspecting_ensure fun _ => ?_
    exact inspecting_bind ih fun _ => trivial

theorem firstSize_inspecting {numbered : List String} : Inspecting (firstSize numbered).run := by
  refine inspecting_then regularSize_inspecting ?_ ?_
  · show (if _ then _ else _) = _
    rw [if_neg fun h => absurd h.1 nofun]
    rfl
  · rintro (e | first)
    · show Inspecting (if _ then _ else _)
      split
      · trivial
      · trivial
    · trivial

theorem inspectTranscriptSegments_inspecting {segmentBytes : Nat} :
    Inspecting (inspectTranscriptSegments segmentBytes).run := by
  refine inspecting_bind inspecting_ensure fun _ => inspecting_bind (inspecting_perform rfl) fun _ => ?_
  refine inspecting_bind inspecting_ensure fun _ => inspecting_bind firstSize_inspecting fun first => ?_
  cases first with
  | none => trivial
  | some first =>
    exact inspecting_bind inspecting_ensure fun _ => inspecting_bind inspectFrom_inspecting fun _ => trivial

end Inspecting

/-! ## The session directory -/

section Source

variable {seg : Nat} {s s' : Site} {α β : Type}

theorem look_spares {b : Bool} : (s.look b).source = s.source ∧ (s.look b).session = s.session ∧
    (s.look b).out = s.out ∧ (s.look b).textLength = s.textLength := by
  rw [Site.look]
  split
  · exact ⟨rfl, rfl, rfl, rfl⟩
  · exact ⟨rfl, rfl, rfl, rfl⟩

theorem exec_source {op : Fs β} {b : β} (hreads : op.reads = true) (h : Site.exec (.source op) s = .ok (b, s')) :
    op.exec s.source = .ok (b, s.source) ∧ s' = s.look (opens op) := by
  cases hexec : op.exec s.source with
  | error e =>
    simp only [Site.exec, hexec, Except.map] at h
    cases h
  | ok r =>
    simp only [Site.exec, hexec, Except.map, Except.ok.injEq, Prod.mk.injEq] at h
    obtain ⟨rfl, rfl⟩ := h
    have hsame := Fs.exec_reads hreads hexec
    refine ⟨by rw [← hsame], ?_⟩
    rw [hsame]
    rw [Site.look]
    split
    · rfl
    · rfl

/-- A look at the session directory: the capture may append before it. -/
theorem beside_source {op : Fs β} {Q : Except ArchiveFailure β → Site → Prop} (hreads : op.reads = true)
    (hok : ∀ s₁ b, Elsewhere seg s s₁ → op.exec s₁.source = .ok (b, s₁.source) →
      Q (.ok b) (s₁.look (opens op)))
    (herror : ∀ e s₁, Elsewhere seg s s₁ → Q (.error e) s₁) : Beside seg (source op) Q s := by
  intro s₁ hrely
  refine ⟨fun b s₂ h => ?_, fun r s₂ hans => ?_⟩
  · obtain ⟨_, rfl⟩ := exec_source hreads h
    exact ⟨look_spares.1, look_spares.2.1⟩
  · cases hans with
    | effect h =>
      obtain ⟨hexec, rfl⟩ := exec_source hreads h
      exact hok s₁ _ hrely hexec
    | refusal h => exact herror _ s₁ hrely
    | fault h => exact herror _ s₁ hrely

theorem look_false : s.look false = s := rfl

theorem looks_source {op : Fs β} (hreads : op.reads = true) (hopens : opens op = false) :
    Looks seg (source op) := by
  intro s Q hQ
  refine beside_source hreads (fun s₁ b h₁ _ => ?_) fun e s₁ h₁ => hQ _ _ h₁.kept
  rw [hopens, look_false]
  exact hQ _ _ h₁.kept

theorem statOpen_looks {name : FileName} : Looks seg (statOpen name) :=
  looks_bind (looks_source rfl rfl) fun _ => looks_bind (looks_own rfl) fun _ => looks_pure

/-- **An inspection** among others, where any of its operations may fail. -/
theorem beside_inspect {files : List Bytes} (hs : Stored seg s.source files) (hpos : 1 ≤ seg) :
    Beside seg (within (inspectTranscriptSegments defaultSegmentBytes)) (fun r s' => Kept seg s s' ∧
      ∀ inv, r = .ok inv → Inspected seg defaultSegmentBytes files (.ok inv) s'.source) s := by
  have hseg : 1 ≤ defaultSegmentBytes ∧ defaultSegmentBytes ≤ maxSafeInteger := by decide
  have hspec := wp_faulty inspectTranscriptSegments_inspecting
    (inspectTranscriptSegments_spec (Grows.growth seg) hseg hs hpos)
  refine wp_bind.mpr (wp_mono ?_ (wp_mapOp (C := faulty (Grows seg)) (P := fun t => Elsewhere seg s t) Site.source
    ?_ ?_ .refl hspec))
  · rintro r s' ⟨helse, hr⟩
    refine ⟨helse.kept, fun inv hinv => ?_⟩
    rcases hr with hr | rfl
    · cases r with
      | error e => cases hinv
      | ok inv' =>
        obtain rfl := Except.ok.inj hinv
        exact hr
    · cases hinv
  · rintro γ op s₁ s₂ h₁ hrely
    refine ⟨⟨h₁.grows.trans hrely.grows, ?_⟩, hrely.grows⟩
    rw [hrely.same, h₁.same]
  · rintro γ op s₁ h₁ ⟨hreads, hopens⟩
    refine ⟨fun b s₂ h => ?_, fun r s₂ hans => ?_⟩
    · obtain ⟨_, rfl⟩ := exec_source hreads h
      exact ⟨look_spares.1, look_spares.2.1⟩
    · cases hans with
      | effect h =>
        obtain ⟨hexec, rfl⟩ := exec_source hreads h
        rw [hopens, look_false]
        exact ⟨h₁, .effect hexec⟩
      | refusal h =>
        refine ⟨h₁, ?_⟩
        cases hexec : op.exec s₁.source with
        | error e =>
          change (op.exec s₁.source).map _ = _ at h
          rw [hexec] at h
          obtain rfl := Except.error.inj h
          exact .refusal hexec
        | ok x =>
          change (op.exec s₁.source).map _ = _ at h
          rw [hexec] at h
          cases h
      | fault h => exact ⟨h₁, .fault h⟩

end Source

/-! ## What an inventory covers -/

section Covered

variable {seg index start : Nat} {segments : List Segment} {files files' : List Bytes}

/-- The bytes that an inventory covers, file by file. -/
def covered (segments : List Segment) (files : List Bytes) : List Bytes :=
  List.zipWith (fun s b => b.take s.size) segments files

theorem covered_prefix (h : CoversFrom index start segments files) :
    (covered segments files).flatten <+: files.flatten ∧
      (covered segments files).flatten.length = (segments.map (·.size)).sum := by
  induction segments generalizing index start files with
  | nil => exact ⟨List.nil_prefix, rfl⟩
  | cons s segments ih =>
    rcases files with _ | ⟨b, files⟩
    · exact h.elim
    · obtain ⟨-, -, hle, hfull, hrest⟩ := h
      obtain ⟨hpre, hlength⟩ := ih hrest
      refine ⟨?_, ?_⟩
      · show b.take s.size ++ (covered segments files).flatten <+: b ++ files.flatten
        by_cases hne : segments = []
        · subst hne
          show b.take s.size ++ [] <+: _
          rw [List.append_nil]
          exact (List.take_prefix s.size b).trans (List.prefix_append b _)
        · rw [hfull hne, List.take_length]
          exact (List.prefix_append_right_inj b).mpr hpre
      · show (b.take s.size ++ (covered segments files).flatten).length = s.size + _
        rw [List.length_append, hlength, List.length_take_of_le hle]
        rfl

/-- The transcript has grown from these files. -/
def Later (seg : Nat) (files : List Bytes) (d : Dir) : Prop := ∃ files', Stored seg d files' ∧ Extends files files'

theorem Later.grows {d d' : Dir} (h : Later seg files d) (hd : Grows seg d d') : Later seg files d' := by
  obtain ⟨files', hs, hext⟩ := h
  obtain ⟨files'', hs', hext'⟩ := hd files' hs
  exact ⟨files'', hs', hext.trans hext'⟩

/-- A file of the transcript is there, with more bytes at its end. -/
theorem Later.lookup {d : Dir} {k : Nat} {b : Bytes} {rest : List Bytes} (h : Later seg files d)
    (hk : files.drop k = b :: rest) : ∃ b', d.lookup (segmentName k) = some ⟨true, 1, b'⟩ ∧ b <+: b' := by
  obtain ⟨files', hs, hext⟩ := h
  have hdrop := hext.drop (k := k)
  rw [hk] at hdrop
  cases hk' : files'.drop k with
  | nil =>
    rw [hk'] at hdrop
    exact hdrop.elim
  | cons b' rest' =>
    rw [hk'] at hdrop
    exact ⟨b', hs.lookup hk', hdrop.1⟩

end Covered

/-! ## The copy -/

/-- What every step of an archive does. The session directories that it sees lie between where it starts and
where it ends. -/
structure Onward (seg : Nat) (s s' : Site) : Prop where
  session : s'.session = s.session
  grows : Grows seg s.source s'.source
  seen : ∀ d ∈ s'.seen, d ∈ s.seen ∨ Grows seg s.source d ∧ Grows seg d s'.source
  older : ∀ d ∈ s.seen, d ∈ s'.seen

/-- What a step does that sees no session directory. -/
structure Quiet (seg : Nat) (s s' : Site) : Prop where
  session : s'.session = s.session
  grows : Grows seg s.source s'.source
  seen : s'.seen = s.seen

section Onward

variable {seg : Nat} {s s' s'' : Site} {α β : Type}

theorem Quiet.refl : Quiet seg s s := ⟨rfl, .refl _, rfl⟩

theorem Quiet.trans (h : Quiet seg s s') (h' : Quiet seg s' s'') : Quiet seg s s'' :=
  ⟨h'.session.trans h.session, h.grows.trans h'.grows, h'.seen.trans h.seen⟩

theorem Kept.quiet (h : Kept seg s s') : Quiet seg s s' := ⟨h.session, h.grows, h.seen⟩

theorem quiet_execOwn {op : OwnOp β} {b : β} (h : s.execOwn op = .ok (b, s')) : Quiet seg s s' := by
  obtain ⟨hsource, hsession, hseen, -⟩ := execOwn_spares h
  exact ⟨hsession, hsource ▸ .refl _, hseen⟩

theorem Quiet.onward (h : Quiet seg s s') : Onward seg s s' :=
  ⟨h.session, h.grows, fun _ hd => .inl (h.seen ▸ hd), fun _ hd => h.seen.symm ▸ hd⟩

theorem Onward.refl : Onward seg s s := Quiet.refl.onward

theorem Onward.trans (h : Onward seg s s') (h' : Onward seg s' s'') : Onward seg s s'' := by
  refine ⟨h'.session.trans h.session, h.grows.trans h'.grows, fun d hd => ?_, fun d hd => h'.older d (h.older d hd)⟩
  rcases h'.seen d hd with hd | ⟨hfrom, hto⟩
  · rcases h.seen d hd with hd | ⟨hfrom, hto⟩
    · exact .inl hd
    · exact .inr ⟨hfrom, hto.trans h'.grows⟩
  · exact .inr ⟨h.grows.trans hfrom, hto⟩

/-- A look at the session directory. -/
theorem Elsewhere.looked (h : Elsewhere seg s s') : Onward seg s (s'.look true) := by
  refine ⟨h.kept.session, h.kept.grows, fun d hd => ?_, fun d hd => ?_⟩
  · rcases List.mem_cons.mp hd with rfl | hd
    · exact .inr ⟨h.grows, .refl _⟩
    · exact .inl (h.kept.seen ▸ hd)
  · exact List.mem_cons_of_mem _ (h.kept.seen.symm ▸ hd)

/-- How a part of the copy ends: what it returns, and what was seen by then. -/
def Ended (seg : Nat) (s : Site) (P : α → List Dir → Prop) (r : Except ArchiveFailure α) (s' : Site) : Prop :=
  Onward seg s s' ∧ ∀ a, r = .ok a → P a s'.seen

variable {P : α → List Dir → Prop}

theorem Ended.kept {r : Except ArchiveFailure α} (h : Ended seg s P r s') (hkept : Kept seg s' s'') :
    Ended seg s P r s'' :=
  ⟨h.1.trans hkept.quiet.onward, fun a ha => hkept.seen.symm ▸ h.2 a ha⟩

/-- What holds when something ends holds after its file is closed. -/
theorem beside_close {p : ArchiveM α} {Q : Except ArchiveFailure α → Site → Prop}
    (hkept : ∀ r t u, Q r t → Kept seg t u → Q r u) (herror : ∀ r t e, Q r t → Q (.error e) t)
    (h : Beside seg p Q s') : Beside seg (p.andFinally (own (.plain .close))) Q s' := by
  refine wpThrow_finally (wpThrow_mono (fun r t hr => ?_) h)
  refine looks_own rfl _ _ fun r' u hlast => ?_
  rcases r' with e | v
  · exact herror r u e (hkept r t u hr hlast)
  · exact hkept r t u hr hlast

theorem ended_close {p : ArchiveM α} (h : Beside seg p (Ended seg s P) s') :
    Beside seg (p.andFinally (own (.plain .close))) (Ended seg s P) s' :=
  beside_close (fun _ _ _ hr => hr.kept) (fun _ _ _ hr => ⟨hr.1, nofun⟩) h

end Onward

section Copy

variable {digest : Bytes → String} {seg k : Nat} {s s' : Site} {files : List Bytes} {b : Bytes} {rest : List Bytes}

theorem chunkLengths_sum (size : Nat) : (chunkLengths size).sum = size := by
  have hfull : (List.replicate (size / 65536) 65536).sum = size / 65536 * 65536 := List.sum_replicate_nat
  rw [chunkLengths, List.sum_append, hfull]
  split
  · rw [List.sum_nil]
    omega
  · rw [List.sum_singleton]
    omega

/-- The loop of the copy reads what was there when the file was measured. -/
theorem beside_copyChunks {offset : Nat} {lengths : List Nat} (hlater : Later seg files s.source)
    (hk : files.drop k = b :: rest) (hle : offset + lengths.sum ≤ b.length) :
    Beside seg (copyChunks (segmentName k) offset lengths)
      (Ended seg s fun bytes _ => bytes = (b.drop offset).take lengths.sum) s := by
  induction lengths generalizing offset s with
  | nil => exact ⟨.refl, fun bytes hbytes => (Except.ok.inj hbytes).symm⟩
  | cons length lengths ih =>
    rw [List.sum_cons] at hle
    refine wpThrow_bind.mpr (beside_source rfl (fun s₁ bytes h₁ hread => ?_)
      fun e s₁ h₁ => ⟨h₁.kept.quiet.onward, nofun⟩)
    obtain ⟨b', hb', hpre⟩ := (hlater.grows h₁.grows).lookup hk
    rw [Fs.exec, hb'] at hread
    obtain ⟨rfl, -⟩ := Prod.mk.inj (Except.ok.inj hread)
    have hslice : (b'.drop offset).take length = (b.drop offset).take length :=
      slice_of_isPrefix hpre (by omega)
    have hon₁ : Onward seg s (s₁.look true) := h₁.looked
    refine wpThrow_bind.mpr (beside_demand (fun _ => ?_) fun e => ⟨hon₁, nofun⟩)
    refine wpThrow_bind.mpr (beside_own (fun s₂ u s₃ h₂ hwrite => ?_)
      fun e s₂ h₂ => ⟨hon₁.trans h₂.kept.quiet.onward, nofun⟩)
    have hon₃ := hon₁.trans (h₂.kept.quiet.trans (quiet_execOwn hwrite)).onward
    refine wpThrow_bind.mpr (wpThrow_mono ?_ (ih (hlater.grows hon₃.grows) (by omega)))
    rintro (e | more) s₄ ⟨h₄, hmore⟩
    · exact ⟨hon₃.trans h₄, nofun⟩
    · refine ⟨hon₃.trans h₄, fun bytes hbytes => ?_⟩
      obtain rfl := Except.ok.inj hbytes
      show _ ++ more = _
      rw [hmore more rfl, hslice, List.sum_cons, List.take_add, List.drop_drop]

/-- **A file is copied** as it was when it was measured, or grown. -/
theorem beside_copyChecked {size : Nat} (hlater : Later seg files s.source) (hk : files.drop k = b :: rest)
    (hle : size ≤ b.length) :
    Beside seg (copyChecked digest (segmentName k) size)
      (Ended seg s fun sha256 seen => sha256 = digest (b.take size) ∧ seen ≠ []) s := by
  refine wpThrow_bind.mpr (beside_source rfl (fun s₁ u h₁ _ => ?_)
    fun e s₁ h₁ => ⟨h₁.kept.quiet.onward, nofun⟩)
  have hon₁ : Onward seg s (s₁.look true) := h₁.looked
  refine ended_close ?_
  refine beside_looks statOpen_looks (fun before s₂ h₂ => ?_) fun e s₂ h₂ => ⟨hon₁.trans h₂.quiet.onward, nofun⟩
  have hon₂ := hon₁.trans h₂.quiet.onward
  refine wpThrow_bind.mpr (beside_demand (fun _ => ?_) fun e => ⟨hon₂, nofun⟩)
  refine wpThrow_bind.mpr (beside_own (fun s₃ u s₄ h₃ hcreate => ?_)
    fun e s₃ h₃ => ⟨hon₂.trans h₃.kept.quiet.onward, nofun⟩)
  have hquiet := h₂.quiet.trans (h₃.kept.quiet.trans (quiet_execOwn hcreate))
  have hon₄ := hon₁.trans hquiet.onward
  have hmem : s₁.source ∈ s₄.seen := hquiet.seen.symm ▸ List.mem_cons_self
  refine ended_close ?_
  refine wpThrow_bind.mpr (wpThrow_mono ?_ (beside_copyChunks (hlater.grows hon₄.grows) hk
    (by rw [chunkLengths_sum, Nat.zero_add]; exact hle)))
  rintro (e | bytes) s₅ ⟨h₅, hbytes⟩
  · exact ⟨hon₄.trans h₅, nofun⟩
  have hon₅ := hon₄.trans h₅
  refine beside_looks statOpen_looks (fun after s₆ h₆ => ?_) fun e s₆ h₆ => ⟨hon₅.trans h₆.quiet.onward, nofun⟩
  have hon₆ := hon₅.trans h₆.quiet.onward
  refine wpThrow_bind.mpr (beside_demand (fun _ => ?_) fun e => ⟨hon₆, nofun⟩)
  refine beside_looks (looks_own rfl) (fun _ s₇ h₇ => ?_) fun e s₇ h₇ => ⟨hon₆.trans h₇.quiet.onward, nofun⟩
  refine ⟨hon₆.trans h₇.quiet.onward, fun sha256 hsha => ?_⟩
  obtain rfl := Except.ok.inj hsha
  refine ⟨?_, ?_⟩
  · rw [hbytes bytes rfl, chunkLengths_sum, List.drop_zero]
  · rw [(h₆.trans h₇).seen]
    exact List.ne_nil_of_mem (h₅.older _ hmem)

/-- What the manifest says of a file that is copied. -/
def Describes (digest : Bytes → String) (item : ArchiveFile) (bytes : Bytes) : Prop :=
  item.size = bytes.length ∧ item.sha256 = digest bytes

/-- **The segments are copied** as the inventory covers them, while the transcript grows. -/
theorem beside_copyAll {start : Nat} {segments : List Segment} (hlater : Later seg files s.source)
    (hcov : CoversFrom k start segments (files.drop k)) :
    Beside seg (copyAll digest segments) (Ended seg s fun items seen =>
      List.Forall₂ (Describes digest) items (covered segments (files.drop k)) ∧ (segments ≠ [] → seen ≠ [])) s := by
  induction segments generalizing k start s with
  | nil =>
    refine ⟨.refl, fun items hitems => ?_⟩
    obtain rfl := Except.ok.inj hitems
    exact ⟨.nil, fun h => absurd rfl h⟩
  | cons entry segments ih =>
    cases hk : files.drop k with
    | nil =>
      rw [hk] at hcov
      exact hcov.elim
    | cons b rest =>
      rw [hk] at hcov
      obtain ⟨hname, -, hle, -, hrest⟩ := hcov
      have hnext : files.drop (k + 1) = rest := by rw [← List.drop_drop, hk, List.drop_one, List.tail_cons]
      rw [← hnext] at hrest
      refine beside_looks capacity_looks (fun _ s₁ h₁ => ?_) fun e s₁ h₁ => ⟨h₁.quiet.onward, nofun⟩
      have hon₁ := h₁.quiet.onward
      rw [hname]
      refine wpThrow_bind.mpr (wpThrow_mono ?_ (beside_copyChecked (hlater.grows hon₁.grows) hk hle))
      rintro (e | sha256) s₂ ⟨h₂, hsha⟩
      · exact ⟨hon₁.trans h₂, nofun⟩
      obtain ⟨rfl, hseen⟩ := hsha sha256 rfl
      have hon₂ := hon₁.trans h₂
      refine wpThrow_bind.mpr (wpThrow_mono ?_ (ih (hlater.grows hon₂.grows) hrest))
      rintro (e | items) s₃ ⟨h₃, hitems⟩
      · exact ⟨hon₂.trans h₃, nofun⟩
      refine ⟨hon₂.trans h₃, fun all hall => ?_⟩
      obtain rfl := Except.ok.inj hall
      obtain ⟨d, hd⟩ := List.exists_mem_of_ne_nil _ hseen
      refine ⟨.cons ⟨(List.length_take_of_le hle).symm, rfl⟩ ?_, fun _ => List.ne_nil_of_mem (h₃.older d hd)⟩
      rw [← hnext]
      exact (hitems items rfl).1

end Copy

end BegetBridge.TerminalArchive
