import BegetBridge.Interleaving.Transition
import BegetBridge.Transcript.RoundTrip

/-!
# One writer and its readers

A capture runs while readers come and go. A reader inspects the transcript and then reads ranges of
what it found, as often as it likes. One operation on a file is one step, so a step of the capture
may lie between any two operations of a reader.

## Main definitions

* `Reader`, `System`: the programs in progress and the directory they share
* `Step`: one operation, or the start or the end of a reader's program
* `System.Sound`: the invariant

## Main results

* `concurrent_sound`: inspections succeed and never shrink, and what is read is the transcript
-/

namespace BegetBridge.Transcript

open Core Relational Interleaving

/-- A reader: it inspects, holds what it found, or reads a range of it. -/
inductive Reader : Type 1
  | inspecting (p : Prog Fs FsError (Except Failure Inventory))
  | failed (e : Failure)
  | inspected (inv : Inventory)
  | reading (inv : Inventory) (offset length : Nat) (p : Prog Fs FsError (Except Failure Bytes))

/-- The directory, what is left of the capture, and the readers that have come so far. -/
structure System : Type 1 where
  dir : Dir
  writer : Prog Fs FsError (Except Failure (Option Stop))
  readers : Nat → Option Reader

/-- The start of a capture, before any reader. -/
def System.start (o : CaptureOptions) (input : List Bytes) (d : Dir) : System where
  dir := d
  writer := (captureTranscript o input).run
  readers _ := none

/-- What a step shows. -/
inductive Label
  | write
  | inspect (i segmentBytes : Nat)
  | operate (i : Nat)
  | inspected (i : Nat) (r : Except Failure Inventory)
  | read (i offset length : Nat)
  | returned (i : Nat) (inv : Inventory) (offset length : Nat) (r : Except Failure Bytes)
  deriving DecidableEq

def System.setReader (s : System) (i : Nat) (reader : Reader) : System :=
  { s with readers := Function.update s.readers i (some reader) }

@[simp] theorem System.setReader_self {s : System} {i : Nat} {reader : Reader} :
    (s.setReader i reader).readers i = some reader := Function.update_self ..

@[simp] theorem System.setReader_of_ne {s : System} {i j : Nat} {reader : Reader} (h : j ≠ i) :
    (s.setReader i reader).readers j = s.readers j := Function.update_of_ne h ..

/-- A reader with its inventory, or without. -/
def Reader.ofResult : Except Failure Inventory → Reader
  | .ok inv => .inspected inv
  | .error e => .failed e

/-- An operation of a file without faults. -/
abbrev Answers {β : Type} (op : Fs β) (d : Dir) (r : Except FsError β) (d' : Dir) : Prop :=
  Answer fsBackend (fun _ => False) op d r d'

inductive Step : System → Label → System → Prop
  | write {s : System} {β : Type} {op : Fs β} {k r d'} (hw : s.writer = .call op k)
      (h : Answers op s.dir r d') : Step s .write { s with dir := d', writer := k r }
  | inspect {s : System} {i segmentBytes : Nat} (hi : s.readers i = none)
      (hseg : 1 ≤ segmentBytes ∧ segmentBytes ≤ maxSafeInteger) :
      Step s (.inspect i segmentBytes)
        (s.setReader i (.inspecting (inspectTranscriptSegments segmentBytes).run))
  | measure {s : System} {i : Nat} {β : Type} {op : Fs β} {k r d'}
      (hi : s.readers i = some (.inspecting (.call op k))) (h : Answers op s.dir r d') :
      Step s (.operate i) { s.setReader i (.inspecting (k r)) with dir := d' }
  | inspected {s : System} {i : Nat} {r} (hi : s.readers i = some (.inspecting (.done r))) :
      Step s (.inspected i r) (s.setReader i (.ofResult r))
  | read {s : System} {i : Nat} {inv offset length} (hi : s.readers i = some (.inspected inv)) :
      Step s (.read i offset length) (s.setReader i
        (.reading inv offset length (readTranscriptBytes inv.segments offset length).run))
  | fetch {s : System} {i : Nat} {inv offset length} {β : Type} {op : Fs β} {k r d'}
      (hi : s.readers i = some (.reading inv offset length (.call op k)))
      (h : Answers op s.dir r d') :
      Step s (.operate i) { s.setReader i (.reading inv offset length (k r)) with dir := d' }
  | returned {s : System} {i : Nat} {inv offset length r}
      (hi : s.readers i = some (.reading inv offset length (.done r))) :
      Step s (.returned i inv offset length r) (s.setReader i (.inspected inv))

/-- An inspection finds a transcript of at least `n` bytes. -/
def Finds (seg n : Nat) (r : Except Failure Inventory) (d : Dir) : Prop :=
  ∃ inv files, r = .ok inv ∧ Stored seg d files ∧ inv.Covers files ∧ n ≤ inv.size

/-- A reader in good order. -/
def Reader.Sound (seg : Nat) (d : Dir) : Reader → Prop
  | .inspecting p => wp (sharing (Grows seg)) p (Finds seg 0) d
  | .failed _ => False
  | .inspected inv => ∃ files, Stored seg d files ∧ inv.Covers files
  | .reading inv offset length p => (∃ files, Stored seg d files ∧ inv.Covers files) ∧
      wp (sharing (Grows seg)) p (fun r d' => offset + length ≤ inv.size → length ≤ readLimit →
        ∃ files, Stored seg d' files ∧ inv.Covers files ∧
          r = .ok ((files.flatten.drop offset).take length)) d

/-- The transcript is stored, the capture keeps it so, and every reader is in good order. -/
structure System.Sound (seg : Nat) (s : System) : Prop where
  stored : ∃ files, Stored seg s.dir files
  writer : wp (capturing seg) s.writer (fun _ _ => True) s.dir
  readers : ∀ i reader, s.readers i = some reader → reader.Sound seg s.dir

section Steps

variable {seg n : Nat} {d d' : Dir} {files : List Bytes} {inv : Inventory} {s s' : System} {l : Label}

theorem Finds.grows {r : Except Failure Inventory} (h : Finds seg n r d) (hd : Grows seg d d') :
    Finds seg n r d' := by
  obtain ⟨inv, files, hr, hs, hcov, hn⟩ := h
  obtain ⟨files', hs', hext⟩ := hd files hs
  exact ⟨inv, files', hr, hs', hcov.grows hs hs' hext, hn⟩

/-- A range that an inventory covers reads the same later. -/
theorem slice_grows {files' : List Bytes} {offset length : Nat} (hs : Stored seg d files)
    (hs' : Stored seg d' files') (hext : Extends files files') (hcov : inv.Covers files)
    (hend : offset + length ≤ inv.size) :
    (files'.flatten.drop offset).take length = (files.flatten.drop offset).take length :=
  slice_of_isPrefix (hext.flatten_prefix hs.shape hs'.shape) (hend.trans hcov.size_le)

theorem Reader.Sound.grows {reader : Reader} (h : reader.Sound seg d) (hd : Grows seg d d') :
    reader.Sound seg d' := by
  cases reader with
  | inspecting p => exact wp_stable h hd.trans fun r hr => hr.grows hd
  | failed e => exact h
  | inspected inv =>
    obtain ⟨files, hs, hcov⟩ := h
    obtain ⟨files', hs', hext⟩ := hd files hs
    exact ⟨files', hs', hcov.grows hs hs' hext⟩
  | reading inv offset length p =>
    obtain ⟨⟨files, hs, hcov⟩, hp⟩ := h
    obtain ⟨files', hs', hext⟩ := hd files hs
    refine ⟨⟨files', hs', hcov.grows hs hs' hext⟩, wp_stable hp hd.trans ?_⟩
    intro r hr hend hlimit
    obtain ⟨files₁, hs₁, hcov₁, hr⟩ := hr hend hlimit
    obtain ⟨files₂, hs₂, hext₂⟩ := hd files₁ hs₁
    exact ⟨files₂, hs₂, hcov₁.grows hs₁ hs₂ hext₂,
      by rw [hr, slice_grows hs₁ hs₂ hext₂ hcov₁ hend]⟩

/-- A program among others also knows that the transcript has only grown. -/
theorem wp_sharing_stored {α : Type} {p : Prog Fs FsError α} {Q : α → Dir → Prop}
    (h : wp (sharing (Grows seg)) p Q d) (hs : Stored seg d files) :
    wp (sharing (Grows seg)) p
      (fun a d' => Q a d' ∧ ∃ files', Stored seg d' files' ∧ Extends files files') d := by
  refine wp_mono (fun a d' hr => ?_) (wp_sharing_within (Grows.growth seg) h)
  exact ⟨hr.1, hr.2 files hs⟩

/-- An operation of a reader leaves the directory alone, and the reader on its way. -/
theorem wp_sharing_answer {α β : Type} {op : Fs β} {k : Except FsError β → Prog Fs FsError α}
    {Q : α → Dir → Prop} {r : Except FsError β} (h : wp (sharing (Grows seg)) (.call op k) Q d)
    (hans : Answers op d r d') : d' = d ∧ wp (sharing (Grows seg)) (k r) Q d := by
  obtain ⟨hreads, hk⟩ := wp_answer h (Grows.refl d) hans
  obtain rfl : d' = d := by
    cases hans with
    | effect he => exact Fs.exec_reads hreads he
    | refusal => rfl
    | fault => rfl
  exact ⟨rfl, hk⟩

theorem System.Sound.setReader {i : Nat} {reader : Reader} (hs : s.Sound seg)
    (hr : reader.Sound seg s.dir) : (s.setReader i reader).Sound seg where
  stored := hs.stored
  writer := hs.writer
  readers := by
    intro j reader' hj
    by_cases hij : j = i
    · subst hij
      rw [System.setReader_self] at hj
      exact Option.some.inj hj ▸ hr
    · rw [System.setReader_of_ne hij] at hj
      exact hs.readers j reader' hj

/-- An inspection that begins finds at least what is there. -/
theorem finds_of_stored {segmentBytes : Nat} (hpos : 1 ≤ seg)
    (hseg : 1 ≤ segmentBytes ∧ segmentBytes ≤ maxSafeInteger) (hs : Stored seg d files) :
    wp (sharing (Grows seg)) (inspectTranscriptSegments segmentBytes).run
      (Finds seg files.flatten.length) d := by
  refine wp_mono ?_ (inspectTranscriptSegments_spec (Grows.growth seg) hseg hs hpos)
  rintro r d' ⟨inv, files', hr, hs', -, hcov, -, hsize, -⟩
  exact ⟨inv, files', hr, hs', hcov, hsize⟩

theorem Finds.mono {m : Nat} {r : Except Failure Inventory} (h : Finds seg n r d) (hm : m ≤ n) :
    Finds seg m r d := by
  obtain ⟨inv, files, hr, hs, hcov, hn⟩ := h
  exact ⟨inv, files, hr, hs, hcov, hm.trans hn⟩

/-- A read changes nothing, whatever its range. -/
theorem readTranscriptBytes_reads {R : Dir → Dir → Prop} {segments : List Segment}
    {offset length : Nat} :
    wpThrow (sharing R) (readTranscriptBytes segments offset length) (fun _ _ => True) d := by
  have hfrom : ∀ copied d, wpThrow (sharing R) (readFrom offset length segments copied)
      (fun _ _ => True) d := by
    induction segments with
    | nil =>
      intro copied d
      rw [readFrom, wpThrow_ensure_bind]
      exact ⟨fun _ => trivial, fun _ => trivial⟩
    | cons entry segments ih =>
      intro copied d
      rw [readFrom]
      split
      · trivial
      split
      · exact ih copied d
      · rw [wpThrow_ensure_bind]
        refine ⟨fun _ => ?_, fun _ => trivial⟩
        rw [wpThrow_bind]
        refine wp_perform rfl (fun d₁ _ d₂ _ _ => ?_) (fun _ _ _ _ => trivial)
        rw [onOk_ok, wpThrow_bind]
        refine wp_perform rfl (fun d₁ info d₂ _ _ => ?_) (fun _ _ _ _ => trivial)
        rw [onOk_ok, wpThrow_ensure_bind]
        refine ⟨fun _ => ?_, fun _ => trivial⟩
        rw [wpThrow_bind]
        refine wp_perform rfl (fun d₁ bytes d₂ _ _ => ?_) (fun _ _ _ _ => trivial)
        rw [onOk_ok, wpThrow_ensure_bind]
        refine ⟨fun _ => ?_, fun _ => trivial⟩
        rw [wpThrow_bind]
        refine wpThrow_mono ?_ (ih _ d₂)
        rintro (e | bytes) d' - <;> trivial
  rw [readTranscriptBytes, wpThrow_ensure_bind]
  exact ⟨fun _ => hfrom 0 d, fun _ => trivial⟩

/-- A read that begins is in good order. -/
theorem reading_sound {offset length : Nat} (h : (Reader.inspected inv).Sound seg d) :
    (Reader.reading inv offset length (readTranscriptBytes inv.segments offset length).run).Sound seg
      d := by
  obtain ⟨files, hs, hcov⟩ := id h
  refine ⟨h, ?_⟩
  by_cases hrange : offset + length ≤ inv.size ∧ length ≤ readLimit
  · refine wp_mono ?_ (wp_sharing_stored
      (readTranscriptBytes_spec (Grows.growth seg) hs hcov hrange.1 hrange.2) hs)
    rintro r d' ⟨rfl, files', hs', hext⟩ hend _
    exact ⟨files', hs', hcov.grows hs hs' hext, by rw [slice_grows hs hs' hext hcov hend]⟩
  · refine wp_mono (fun r d' _ hend hlimit => ?_) readTranscriptBytes_reads
    exact absurd ⟨hend, hlimit⟩ hrange

/-- **Step lemma**: every step keeps the system in good order, and the transcript only grows. -/
theorem Step.sound (hpos : 1 ≤ seg) (h : Step s l s') (hs : s.Sound seg) :
    s'.Sound seg ∧ Grows seg s.dir s'.dir := by
  cases h with
  | @write _ _ _ _ d' hw hans =>
    have hwp := hs.writer
    rw [hw] at hwp
    obtain ⟨howes, hk⟩ := wp_answer hwp rfl hans
    have hgrows : Grows seg s.dir d' := by
      cases hans with
      | effect he => exact howes _ _ he
      | refusal => exact Grows.refl _
      | fault hf => exact hf.elim
    obtain ⟨files, hfiles⟩ := hs.stored
    obtain ⟨files', hfiles', -⟩ := hgrows files hfiles
    exact ⟨⟨⟨files', hfiles'⟩, hk, fun i reader hi => (hs.readers i reader hi).grows hgrows⟩, hgrows⟩
  | inspect hi hseg =>
    obtain ⟨files, hfiles⟩ := hs.stored
    refine ⟨hs.setReader (wp_mono (fun r d hr => ?_) (finds_of_stored hpos hseg hfiles)), Grows.refl _⟩
    exact hr.mono (Nat.zero_le _)
  | measure hi hans =>
    obtain ⟨rfl, hk⟩ := wp_sharing_answer (hs.readers _ _ hi) hans
    exact ⟨hs.setReader hk, Grows.refl _⟩
  | inspected hi =>
    obtain ⟨inv, files, rfl, hfiles, hcov, -⟩ := hs.readers _ _ hi
    exact ⟨hs.setReader ⟨files, hfiles, hcov⟩, Grows.refl _⟩
  | read hi => exact ⟨hs.setReader (reading_sound (hs.readers _ _ hi)), Grows.refl _⟩
  | fetch hi hans =>
    obtain ⟨hcov, hp⟩ := hs.readers _ _ hi
    obtain ⟨rfl, hk⟩ := wp_sharing_answer hp hans
    exact ⟨hs.setReader ⟨hcov, hk⟩, Grows.refl _⟩
  | returned hi => exact ⟨hs.setReader (hs.readers _ _ hi).1, Grows.refl _⟩

/-- A reader that has come before, and finds at least `n` bytes if it still inspects. -/
def System.AtLeast (seg n j : Nat) (s : System) : Prop :=
  s.readers j ≠ none ∧ ∀ p, s.readers j = some (.inspecting p) →
    wp (sharing (Grows seg)) p (Finds seg n) s.dir

theorem System.atLeast_inspecting {j : Nat} {p : Prog Fs FsError (Except Failure Inventory)}
    (hp : wp (sharing (Grows seg)) p (Finds seg n) s.dir) :
    (s.setReader j (.inspecting p)).AtLeast seg n j := by
  rw [System.AtLeast, System.setReader_self]
  refine ⟨nofun, fun p' hp' => ?_⟩
  obtain rfl := Reader.inspecting.inj (Option.some.inj hp')
  exact hp

theorem System.AtLeast.setReader {i j : Nat} {reader : Reader} (h : s.AtLeast seg n j)
    (hi : i ≠ j ∨ ∀ p, reader = .inspecting p → wp (sharing (Grows seg)) p (Finds seg n) s.dir) :
    (s.setReader i reader).AtLeast seg n j := by
  by_cases hij : j = i
  · subst hij
    rw [System.AtLeast, System.setReader_self]
    refine ⟨nofun, fun p hp => ?_⟩
    exact (hi.resolve_left fun hne => hne rfl) p (Option.some.inj hp)
  · rw [System.AtLeast, System.setReader_of_ne hij]
    exact h

theorem Step.atLeast {j : Nat} (hpos : 1 ≤ seg) (h : Step s l s') (hs : s.Sound seg)
    (hj : s.AtLeast seg n j) : s'.AtLeast seg n j := by
  have hgrows := (h.sound hpos hs).2
  cases h with
  | write hw hans =>
    exact ⟨hj.1, fun p hp => wp_stable (hj.2 p hp) hgrows.trans fun r hr => hr.grows hgrows⟩
  | @inspect i _ hi _ =>
    -- a reader comes only once
    exact hj.setReader (.inl fun hij => hj.1 (hij ▸ hi))
  | @measure i _ _ _ _ _ hi hans =>
    obtain ⟨rfl, -⟩ := wp_sharing_answer (hs.readers _ _ hi) hans
    refine hj.setReader ?_
    by_cases hij : i = j
    · subst hij
      refine .inr ?_
      rintro _ ⟨⟩
      exact (wp_sharing_answer (hj.2 _ hi) hans).2
    · exact .inl hij
  | inspected hi =>
    obtain ⟨inv, files, rfl, -⟩ := hs.readers _ _ hi
    exact hj.setReader (.inr nofun)
  | read hi => exact hj.setReader (.inr nofun)
  | fetch hi hans =>
    obtain ⟨rfl, -⟩ := wp_sharing_answer (hs.readers _ _ hi).2 hans
    exact hj.setReader (.inr nofun)
  | returned hi => exact hj.setReader (.inr nofun)

end Steps

/-! ## Runs -/

section Runs

variable {seg : Nat} {s s' : System} {h : List (Label × System)}

/-- **Run lemma**: the system stays in good order, and the transcript only grows. -/
theorem run_sound (hpos : 1 ≤ seg) (hp : Path Step s h s') (hs : s.Sound seg) :
    s'.Sound seg ∧ Grows seg s.dir s'.dir :=
  hp.invariant (I := fun s' => s'.Sound seg ∧ Grows seg s.dir s'.dir) ⟨hs, Grows.refl _⟩
    fun hI hstep => ⟨(hstep.sound hpos hI.1).1, hI.2.trans (hstep.sound hpos hI.1).2⟩

/-- A label of a run, between the run before it and the run after it. -/
theorem label_at {k : Nat} {l : Label} (hpos : 1 ≤ seg) (hp : Path Step s h s') (hs : s.Sound seg)
    (hk : (h.map Prod.fst)[k]? = some l) :
    ∃ s₁ s₂, Path Step s (h.take k) s₁ ∧ s₁.Sound seg ∧ Step s₁ l s₂ ∧ s₂.Sound seg ∧
      Path Step s₂ (h.drop (k + 1)) s' := by
  rw [List.getElem?_map, Option.map_eq_some_iff] at hk
  obtain ⟨x, hx, rfl⟩ := hk
  obtain ⟨s₁, h₁, hstep, h₂⟩ := hp.step_at hx
  have hs₁ := (run_sound hpos h₁ hs).1
  exact ⟨s₁, x.2, h₁, hs₁, hstep, (hstep.sound hpos hs₁).1, h₂⟩

/-- The labels after a place of a run. -/
theorem label_drop {k t : Nat} {l : Label} (hkt : k < t) (ht : (h.map Prod.fst)[t]? = some l) :
    ((h.drop (k + 1)).map Prod.fst)[t - (k + 1)]? = some l := by
  rw [List.map_drop, List.getElem?_drop, ← ht]
  congr 1
  omega

/-- The start is in good order, in segments of some length. -/
theorem start_sound {o : CaptureOptions} {d : Dir} {segmentBytes : Nat} (hvalid : o.Valid)
    (hwrites : o.Writes) (input : List Bytes)
    (haccepted : ∃ inv, ((inspectTranscriptSegments segmentBytes).run.eval fsBackend d).1 = .ok inv) :
    ∃ seg, 1 ≤ seg ∧ (System.start o input d).Sound seg := by
  obtain ⟨-, seg, files, hpos, hs⟩ := inspectTranscriptSegments_ok_iff.mp haccepted
  obtain ⟨seg', hpos', hs', -, hspec⟩ := captureTranscript_spec hvalid hwrites hpos hs input
  exact ⟨seg', hpos', ⟨files, hs'⟩, wp_mono (fun _ _ _ => trivial) hspec, fun _ _ => nofun⟩

/-- **One writer and its readers**: in every run, every inspection succeeds, an inspection that begins
after another one ended finds no less, and what is read inside an inventory is that range of the
transcript from then on. -/
theorem concurrent_sound {o : CaptureOptions} {d : Dir} {segmentBytes : Nat} (hvalid : o.Valid)
    (hwrites : o.Writes) {input : List Bytes}
    (haccepted : ∃ inv, ((inspectTranscriptSegments segmentBytes).run.eval fsBackend d).1 = .ok inv)
    (hp : Path Step (System.start o input d) h s) :
    (∀ i r, .inspected i r ∈ h.map Prod.fst → ∃ inv, r = .ok inv) ∧
    (∀ (p q t i j : Nat) (inv inv' : Inventory) (segmentBytes' : Nat), p < q → q < t →
      (h.map Prod.fst)[p]? = some (.inspected i (.ok inv)) →
      (h.map Prod.fst)[q]? = some (.inspect j segmentBytes') →
      (h.map Prod.fst)[t]? = some (.inspected j (.ok inv')) → inv.size ≤ inv'.size) ∧
    (∀ i inv offset length r, .returned i inv offset length r ∈ h.map Prod.fst →
      offset + length ≤ inv.size → length ≤ readLimit →
      ∃ files, Holds s.dir files ∧ r = .ok ((files.flatten.drop offset).take length)) := by
  obtain ⟨seg, hpos, hsound⟩ := start_sound hvalid hwrites input haccepted
  refine ⟨fun i r hmem => ?_, fun p q t i j inv inv' segmentBytes' hpq hqt hlp hlq hlt => ?_,
    fun i inv offset length r hmem hend hlimit => ?_⟩
  · obtain ⟨k, hk⟩ := List.mem_iff_getElem?.mp hmem
    obtain ⟨s₁, s₂, -, hs₁, hstep, -, -⟩ := label_at hpos hp hsound hk
    cases hstep with
    | inspected hi =>
      obtain ⟨inv, -, hr, -⟩ := hs₁.readers i _ hi
      exact ⟨inv, hr⟩
  · obtain ⟨s₁, s₂, -, hs₁, hstep₁, hs₂, hp₂⟩ := label_at hpos hp hsound hlp
    obtain ⟨s₃, s₄, hp₃, hs₃, hstep₃, hs₄, hp₄⟩ := label_at hpos hp₂ hs₂ (label_drop hpq hlq)
    -- what the first inspection found is there when the second one begins
    obtain ⟨files, hfiles, hle⟩ : ∃ files, Stored seg s₃.dir files ∧ inv.size ≤ files.flatten.length := by
      cases hstep₁ with
      | inspected hi =>
        obtain ⟨inv₁, files, hr, hfiles, hcov, -⟩ := hs₁.readers i _ hi
        obtain rfl := Except.ok.inj hr
        obtain ⟨files', hfiles', hext⟩ := (run_sound hpos hp₃ hs₂).2 files hfiles
        exact ⟨files', hfiles', (hcov.grows hfiles hfiles' hext).size_le⟩
    have hj : s₄.AtLeast seg inv.size j := by
      cases hstep₃ with
      | inspect hi hseg =>
        exact System.atLeast_inspecting
          (wp_mono (fun r d hr => hr.mono hle) (finds_of_stored hpos hseg hfiles))
    obtain ⟨s₅, s₆, hp₅, hs₅, hstep₅, -, -⟩ := label_at hpos hp₄ hs₄
      (k := t - (p + 1) - (q - (p + 1) + 1)) (label_drop (by omega) (label_drop (by omega) hlt))
    have hj₅ := hp₅.invariant (I := fun s => s.Sound seg ∧ s.AtLeast seg inv.size j) ⟨hs₄, hj⟩
      fun hI hstep => ⟨(hstep.sound hpos hI.1).1, hstep.atLeast hpos hI.1 hI.2⟩
    cases hstep₅ with
    | inspected hi =>
      obtain ⟨inv₂, files₂, hr, -, -, hsize⟩ := hj₅.2.2 _ hi
      exact Except.ok.inj hr ▸ hsize
  · obtain ⟨k, hk⟩ := List.mem_iff_getElem?.mp hmem
    obtain ⟨s₁, s₂, -, hs₁, hstep, hs₂, hrest⟩ := label_at hpos hp hsound hk
    cases hstep with
    | returned hi =>
      obtain ⟨files, hfiles, hcov, hr⟩ := (hs₁.readers i _ hi).2 hend hlimit
      obtain ⟨files', hfiles', hext⟩ := (run_sound hpos hrest hs₂).2 files hfiles
      exact ⟨files', hfiles'.holds, by rw [hr, slice_grows hfiles hfiles' hext hcov hend]⟩

end Runs

/-! ## Playing a schedule -/

section Play

/-- Who moves next: the writer, a reader that comes, one that goes on, or one that reads a range. -/
inductive Turn
  | writer
  | arrives (i segmentBytes : Nat)
  | reader (i : Nat)
  | reads (i offset length : Nat)

/-- The reply to an operation, and the directory after it. -/
def Fs.answer {β : Type} (op : Fs β) (d : Dir) : Except FsError β × Dir :=
  match op.exec d with
  | .ok (b, d') => (.ok b, d')
  | .error e => (.error e, d)

theorem Fs.answer_answers {β : Type} (op : Fs β) (d : Dir) :
    Answers op d (op.answer d).1 (op.answer d).2 := by
  rw [Fs.answer]
  split
  · rename_i h
    exact .effect h
  · rename_i h
    exact .refusal h

/-- The step of a turn, where there is one. -/
def System.turn (s : System) : Turn → Option (Label × System)
  | .writer =>
    match s.writer with
    | .call op k => some (.write, { s with dir := (op.answer s.dir).2, writer := k (op.answer s.dir).1 })
    | .done _ => none
  | .arrives i segmentBytes =>
    match s.readers i with
    | none =>
      if 1 ≤ segmentBytes ∧ segmentBytes ≤ maxSafeInteger then
        some (.inspect i segmentBytes,
          s.setReader i (.inspecting (inspectTranscriptSegments segmentBytes).run))
      else none
    | some _ => none
  | .reader i =>
    match s.readers i with
    | some (.inspecting (.call op k)) => some (.operate i,
        { s.setReader i (.inspecting (k (op.answer s.dir).1)) with dir := (op.answer s.dir).2 })
    | some (.inspecting (.done r)) => some (.inspected i r, s.setReader i (.ofResult r))
    | some (.reading inv offset length (.call op k)) => some (.operate i,
        { s.setReader i (.reading inv offset length (k (op.answer s.dir).1)) with
          dir := (op.answer s.dir).2 })
    | some (.reading inv offset length (.done r)) =>
      some (.returned i inv offset length r, s.setReader i (.inspected inv))
    | _ => none
  | .reads i offset length =>
    match s.readers i with
    | some (.inspected inv) => some (.read i offset length, s.setReader i
        (.reading inv offset length (readTranscriptBytes inv.segments offset length).run))
    | _ => none

theorem System.turn_step {s s' : System} {t : Turn} {l : Label} (h : s.turn t = some (l, s')) :
    Step s l s' := by
  cases t with
  | writer =>
    rw [System.turn] at h
    split at h
    · rename_i hw
      obtain ⟨rfl, rfl⟩ := Prod.mk.inj (Option.some.inj h)
      exact .write hw (Fs.answer_answers _ _)
    · exact absurd h nofun
  | arrives i segmentBytes =>
    rw [System.turn] at h
    split at h
    · rename_i hi
      split at h
      · rename_i hseg
        obtain ⟨rfl, rfl⟩ := Prod.mk.inj (Option.some.inj h)
        exact .inspect hi hseg
      · exact absurd h nofun
    · exact absurd h nofun
  | reader i =>
    rw [System.turn] at h
    split at h
    · rename_i hi
      obtain ⟨rfl, rfl⟩ := Prod.mk.inj (Option.some.inj h)
      exact .measure hi (Fs.answer_answers _ _)
    · rename_i hi
      obtain ⟨rfl, rfl⟩ := Prod.mk.inj (Option.some.inj h)
      exact .inspected hi
    · rename_i hi
      obtain ⟨rfl, rfl⟩ := Prod.mk.inj (Option.some.inj h)
      exact .fetch hi (Fs.answer_answers _ _)
    · rename_i hi
      obtain ⟨rfl, rfl⟩ := Prod.mk.inj (Option.some.inj h)
      exact .returned hi
    · exact absurd h nofun
  | reads i offset length =>
    rw [System.turn] at h
    split at h
    · rename_i hi
      obtain ⟨rfl, rfl⟩ := Prod.mk.inj (Option.some.inj h)
      exact .read hi
    · exact absurd h nofun

/-- The history of a schedule and the state it ends in, where every turn has a step. -/
def System.play : System → List Turn → Option (List (Label × System) × System)
  | s, [] => some ([], s)
  | s, t :: turns =>
    match s.turn t with
    | some (l, s') => (s'.play turns).map fun r => ((l, s') :: r.1, r.2)
    | none => none

theorem System.play_path {s s' : System} {turns : List Turn} {h : List (Label × System)}
    (hplay : s.play turns = some (h, s')) : Path Step s h s' := by
  induction turns generalizing s h with
  | nil =>
    obtain ⟨rfl, rfl⟩ := Prod.mk.inj (Option.some.inj hplay)
    exact .nil
  | cons t turns ih =>
    rw [System.play] at hplay
    split at hplay
    · rename_i l s₁ hturn
      obtain ⟨r, hr, heq⟩ := Option.map_eq_some_iff.mp hplay
      obtain ⟨rfl, rfl⟩ := Prod.mk.inj heq
      exact (Path.single (System.turn_step hturn)).trans (ih hr)
    · exact absurd hplay nofun

/-- Reader `0` inspects while the capture begins, and reader `1` while it writes; then `1` reads across
the two files it found. -/
def sampleTurns : List Turn :=
  [.arrives 0 2, .reader 0, .writer, .reader 0, .reader 0, .writer, .writer, .writer, .arrives 1 2,
    .reader 1, .reader 1, .writer, .reader 1, .reader 1, .reads 1 1 2] ++ List.replicate 7 (.reader 1)

/-- Every turn has a step. -/
example : ((System.start sampleCapture [[3], [4]] sampleTranscript).play sampleTurns).isSome = true := by
  decide +kernel

/-- What reader `1` found. -/
def sampleInventory : Inventory :=
  ⟨[⟨.first, 0, 2⟩, ⟨.part "000001", 2, 2⟩], 4, false, 2⟩

theorem concurrent_sound_across : ∃ h s files,
    Path Step (System.start sampleCapture [[3], [4]] sampleTranscript) h s ∧
    .returned 1 sampleInventory 1 2 (.ok [2, 3]) ∈ h.map Prod.fst ∧
    Holds s.dir files ∧ (files.flatten.drop 1).take 2 = [2, 3] := by
  have hlabels : (((System.start sampleCapture [[3], [4]] sampleTranscript).play sampleTurns).map
      fun r => (r.1.map Prod.fst)[21]?) =
      some (some (.returned 1 sampleInventory 1 2 (.ok [2, 3]))) := by decide +kernel
  obtain ⟨⟨h, s⟩, hplay, hlast⟩ := Option.map_eq_some_iff.mp hlabels
  have hp := System.play_path hplay
  have hmem := List.mem_of_getElem? hlast
  have haccepted : ((inspectTranscriptSegments 2).run.eval fsBackend sampleTranscript).1 =
      .ok ⟨[⟨.first, 0, 2⟩], 2, false, 2⟩ := by decide +kernel
  obtain ⟨files, hfiles, hr⟩ := (concurrent_sound (by decide) sampleCapture_writes ⟨_, haccepted⟩
    hp).2.2 _ _ _ _ _ hmem (by decide) (by decide)
  exact ⟨h, s, files, hp, hmem, hfiles, (Except.ok.inj hr).symm⟩

end Play

end BegetBridge.Transcript
