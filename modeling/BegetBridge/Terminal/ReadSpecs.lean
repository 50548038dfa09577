import BegetBridge.Terminal.HostSpecs
import BegetBridge.Terminal.Page

/-!
# Reads among others

A `readOutput` that succeeds returns the page of the transcript as it was measured, whatever others have
added since and whatever segments the transcript is divided into.

## Main definitions

* `Measured`: what a range says of the transcript

## Main results

* `readChunk_spec`, `readPage_spec`: the reads of a page
* `readOutput_near`: the whole read
-/

namespace BegetBridge.Terminal

open Core Relational Interleaving Transcript

/-! ## Ranges -/

/-- What a range says of the transcript: it covers its first bytes, `text`. -/
structure Measured (seg : Nat) (d : Dir) (s : Session) (range : OutputRange) (text : Bytes) : Prop where
  earliest : range.earliest = s.transcriptEarliestOffset
  size : range.physicalSize = text.length
  «end» : s.transcriptEarliestOffset + text.length ≤ maxSafeInteger →
    range.end = s.transcriptEarliestOffset + text.length
  covered : ∃ (files : List Bytes) (inv : Inventory), Stored seg d files ∧ inv.Covers files ∧ range.segments = inv.segments ∧
    inv.size = text.length ∧ text <+: files.flatten

section Ranges

variable {seg : Nat} {R : Dir → Dir → Prop} {d d' : Dir} {s s' : Session} {range : OutputRange}
  {text : Bytes}

theorem Measured.grows (hR : Growth seg R) (h : Measured seg d s range text) (hd : R d d') :
    Measured seg d' s range text := by
  obtain ⟨files, inv, hs, hcov, hsegments, hsize, htext⟩ := h.covered
  obtain ⟨files', hs', hext⟩ := hR.grows hd hs
  exact { h with covered := ⟨files', inv, hs', hcov.grows hs hs' hext, hsegments, hsize,
    htext.trans (hext.flatten_prefix hs.shape hs'.shape)⟩ }

theorem Measured.sameStream (h : Measured seg d s range text) (hs : s.SameStream s') :
    Measured seg d s' range text :=
  ⟨hs.earliest ▸ h.earliest, h.size, hs.earliest ▸ h.end, h.covered⟩

/-- A range within the transcript is read as it was measured. -/
theorem readRange_spec (hR : Growth seg R) (h : Measured seg d s range text) {offset length : Nat}
    (hend : offset + length ≤ text.length) (hlimit : length ≤ readLimit) :
    wpThrow (sharing R) (readRange range.segments offset length)
      (fun r d' => r = .ok ((text.drop offset).take length) ∧ Measured seg d' s range text) d := by
  obtain ⟨files, inv, hs, hcov, hsegments, hsize, htext⟩ := id h.covered
  rw [readRange, if_pos ⟨⟨whole_natCast _, Nat.cast_nonneg _⟩, whole_natCast _, Nat.cast_nonneg _⟩,
    Int.floor_natCast, Int.floor_natCast, Int.toNat_natCast, Int.toNat_natCast, hsegments,
    ← slice_of_isPrefix htext hend]
  refine wp_mono ?_ (wp_sharing_within hR
    (readTranscriptBytes_spec hR hs hcov (hend.trans hsize.ge) hlimit))
  rintro r d' ⟨rfl, hd⟩
  exact ⟨rfl, h.grows hR hd⟩

/-- **The reads of a page** find the bytes of the transcript. -/
theorem readChunk_spec (hR : Growth seg R) (h : Measured seg d s range text)
    (hsafe : s.transcriptEarliestOffset + text.length ≤ maxSafeInteger) {k : Nat}
    (hk : k ≤ text.length) (x : Number) :
    wpThrow (sharing R) (readChunk range (s.transcriptEarliestOffset + k) (requestedMax x))
      (fun r _ => r = chunkOf (text.drop k) (requestedMax x)) d := by
  set e := s.transcriptEarliestOffset with he
  have hearliest : range.earliest = e := h.earliest
  have hend : range.end = ((e + text.length : ℕ) : ℚ) := by
    rw [h.end hsafe]
    push_cast
    rfl
  -- every sum is a whole number, and safe
  have hphysical : toDouble ((e : ℚ) + k - range.earliest) = (k : ℕ) := by
    rw [hearliest, add_sub_cancel_left, toDouble_natCast (by omega)]
  have hfirst : min 4 (toDouble ((range.physicalSize : ℚ) - (k : ℕ))) =
      ((min 4 (text.length - k) : ℕ) : ℚ) := by
    rw [h.size, ← Nat.cast_sub hk, toDouble_natCast (by omega)]
    push_cast
    rfl
  have hlen : (text.drop k).length = text.length - k := List.length_drop
  rw [readChunk, hphysical, hfirst, wpThrow_bind]
  refine wpThrow_mono ?_ (readRange_spec hR h (by omega) (by rw [readLimit]; omega))
  rintro r d₁ ⟨rfl, h₁⟩
  rw [onOk_ok]
  have htake : (text.drop k).take (min 4 (text.length - k)) = (text.drop k).take 4 := by
    rw [← hlen, List.take_eq_take_iff, min_assoc, min_self]
  rw [htake]
  have hle : skippedOf (text.drop k) ≤ text.length - k := (skippedOf_le _).trans_eq hlen
  rw [show (((text.drop k).take 4).takeWhile continuation).length = skippedOf (text.drop k) from rfl]
  simp only [chunkOf]
  set skipped := skippedOf (text.drop k) with hskipped
  have hstart : toDouble (range.end - toDouble ((e : ℚ) + k + skipped)) =
      ((text.length - k - skipped : ℕ) : ℚ) := by
    have hsum : (e : ℚ) + k + skipped = ((e + k + skipped : ℕ) : ℚ) := by
      push_cast
      rfl
    rw [hsum, toDouble_natCast (by omega), hend, ← Nat.cast_sub (by omega), toDouble_natCast (by omega)]
    congr 1
    omega
  have hphysical' : toDouble (((k : ℕ) : ℚ) + skipped) = ((k + skipped : ℕ) : ℚ) := by
    rw [← Nat.cast_add, toDouble_natCast (by omega)]
  have hrest : ((text.drop k).drop skipped).length = text.length - k - skipped := by
    rw [List.length_drop, hlen]
  obtain ⟨hlow, hhigh⟩ := toDouble_requestedMax_bounds x
  simp only [hrest, hstart, hphysical', wpThrow_bind]
  set length := min ((text.length - k - skipped : ℕ) : ℚ) (toDouble (requestedMax x + 3)) with hlength
  have h0 : 0 ≤ length := le_min (Nat.cast_nonneg _) (by linarith)
  by_cases hwhole : Whole length
  · obtain ⟨l, hl⟩ := hwhole.exists_nat h0
    have hl1 : l ≤ text.length - k - skipped := by
      exact_mod_cast hl.symm.le.trans (min_le_left _ _)
    have hl2 : l ≤ readLimit := by
      exact_mod_cast hl.symm.le.trans ((min_le_right _ _).trans hhigh)
    rw [if_pos hwhole, hl]
    refine wpThrow_mono ?_ (readRange_spec hR h₁ (by omega) hl2)
    rintro r d₂ ⟨rfl, -⟩
    rw [onOk_ok, wpThrow_pure, List.drop_drop, Int.floor_natCast, Int.toNat_natCast]
  · rw [if_neg hwhole, readRange, if_neg fun hr => hwhole hr.2.1]
    rfl

end Ranges

/-! ## Pages among others -/

section Pages

variable {A : Host → Host → Prop} {R : Dir → Dir → Prop} {P : Host → Prop} {seg : Nat} {h : Host}
  {id : String} {alive : Bool} {s : Session} {range : OutputRange} {text : Bytes}

/-- A range is that of the transcript, but for its segments. -/
theorem Measured.eq {d : Dir} (h : Measured seg d s range text)
    (hsafe : s.transcriptEarliestOffset + text.length ≤ maxSafeInteger) :
    range = { wholeRange s text with segments := range.segments } := by
  have hend := h.end hsafe
  have hearliest := h.earliest
  have hsize := h.size
  rcases range with ⟨earliest, «end», size, segments⟩
  simp only [wholeRange, OutputRange.mk.injEq]
  exact ⟨hearliest, hend, hsize, trivial⟩

/-- A transcript that is not empty has a directory. -/
theorem Measured.dir (h' : Measured seg (h.files id) s range text) (htext : text ≠ []) :
    (h.dirs.lookup id).isSome = true := by
  obtain ⟨files, inv, hs, -, -, -, hpre⟩ := h'.covered
  rcases hlook : h.dirs.lookup id with _ | dir
  · have hnone : h.files id = ∅ := by
      rw [Host.files, hlook]
      rfl
    rw [hnone] at hs
    rcases files with _ | ⟨b, files⟩
    · exact absurd (List.prefix_nil.mp hpre) htext
    · cases hs.holds.from_first.1
  · rfl

/-- **The rest of a read** returns the page of the transcript that was measured. -/
theorem readPage_spec (hA : Kept A R id P) (hR : Growth seg R) (hP : P h)
    (hm : Measured seg (h.files id) s range text)
    (hsafe : s.transcriptEarliestOffset + text.length ≤ maxSafeInteger) {requested : Requested}
    {x : Number} :
    wpThrow (among A) (readPage id alive s range requested x)
      (fun r h' => P h' ∧
        r = (pageOf id alive s text requested x).mapError fun _ => .bridge transcriptChanged) h := by
  have heq := hm.eq hsafe
  have hstart : startOf requested range = startOf requested (wholeRange s text) := by
    rw [heq]
    rfl
  have hk := position_le s.transcriptEarliestOffset text.length requested
  set k := position s.transcriptEarliestOffset text.length requested with hkdef
  have hfst : (startOf requested range).1 = s.transcriptEarliestOffset + k := by
    rw [hstart, startOf_wholeRange]
  rw [readPage, pageOf, ← hkdef]
  simp only [hfst]
  have hend : range.end = s.transcriptEarliestOffset + k ↔ k = text.length := by
    rw [hm.end hsafe, add_right_inj, Nat.cast_inj]
    exact eq_comm
  by_cases hdone : k = text.length
  · rw [if_pos (hend.mpr hdone), if_pos hdone, wpThrow_pure, hstart]
    refine ⟨hP, ?_⟩
    rw [heq]
    rfl
  · rw [if_neg fun h => hdone (hend.mp h), if_neg hdone, wpThrow_bind, onFiles, wpThrow_lift]
    have htext : text ≠ [] := by
      rintro rfl
      exact hdone (Nat.le_zero.mp hk)
    refine wp_mono ?_ (onFiles_spec hA hP (hm.dir htext) (readChunk_spec hR hm hsafe hk x))
    rintro r h' ⟨hP', rfl⟩
    rw [onOk_ok]
    rcases chunkOf (text.drop k) (requestedMax x) with e | chunk
    · exact ⟨hP', rfl⟩
    · rw [wpThrow_pure, hstart]
      refine ⟨hP', ?_⟩
      rw [heq]
      rfl

end Pages

/-! ## Reads among others -/

section Reads

variable {R : Dir → Dir → Prop} {seg : Nat} {h : Host} {id : String} {s₀ s : Session} {d : Dir}
  {files : List Bytes} {config : HostConfig} {alive : Bool}

theorem Around.refl (hR : Growth seg R) (h : Host) : Around R id h h :=
  ⟨fun s hs => ⟨s, hs, .refl s⟩, fun hdir => hdir, hR.refl _⟩

theorem kept_near (hR : Growth seg R) : Kept (Around R id) R id (Near R id s₀ d) where
  refl := Around.refl hR
  keeps hn ha := hn.around hR ha
  files _ ha := ha.files
  dir _ ha := ha.dir

theorem observeCaptureStop_near (hR : Growth seg R) (hn : Near R id s₀ d h) (hid : s.id = id)
    (hs : s₀.SameStream s) :
    wpThrow (among (Around R id)) (observeCaptureStop id s) (KeptNear R id s₀ d) h := by
  have hsame : ∀ h₁, Near R id s₀ d h₁ → KeptNear R id s₀ d (.ok s) h₁ := by
    intro h₁ hn₁
    refine ⟨hn₁, fun s' heq => ?_⟩
    obtain rfl := Except.ok.inj heq
    exact ⟨hid, hs⟩
  rw [observeCaptureStop]
  split
  · exact hsame h hn
  · rw [wpThrow_bind, wpThrow_lift]
    refine wp_attempt (fun h₁ marker h₂ ha he => ?_) (fun h₁ e ha he => ?_)
    · have hn₂ : Near R id s₀ d h₂ := Service.Keeps.exec (.openMarker id) trivial he (hn.around hR ha)
      rw [onOk_ok]
      split
      · rename_i heq
        exact absurd heq nofun
      · rename_i heq
        exact absurd heq nofun
      · split
        · exact updateTranscript_near hR hn₂
        · exact ⟨hn₂, nofun⟩
    · have hn₁ := hn.around hR ha
      rw [onOk_ok]
      split
      · exact hsame h₁ hn₁
      · exact ⟨hn₁, nofun⟩
      · rename_i heq
        exact absurd heq nofun

theorem isAlive_near (hR : Growth seg R) (hn : Near R id s₀ d h) :
    wpThrow (among (Around R id)) (isAlive id) (fun _ h' => Near R id s₀ d h') h := by
  rw [isAlive, wpThrow_bind, wpThrow_lift]
  refine wp_attempt (fun h₁ b h₂ ha he => ?_) (fun h₁ e ha he => hn.around hR ha)
  exact Service.Keeps.exec (.hasSession id) trivial he (hn.around hR ha)

/-- The capture is stopped, and the session told so. -/
theorem degrade_near (hR : Growth seg R) (hn : Near R id s₀ d h) {reason : CaptureGap} :
    wpThrow (among (Around R id)) (do
      tmux (.pipePane id false)
      updateTranscript id (degradedBy reason)) (KeptNear R id s₀ d) h := by
  rw [wpThrow_bind]
  refine wp_tmux (fun h₁ b h₂ ha he => ?_) fun h₁ ha => ⟨hn.around hR ha, nofun⟩
  exact updateTranscript_near hR (Service.Keeps.exec (.pipePane id false) trivial he (hn.around hR ha))

theorem enforceCaptureReserve_near (hR : Growth seg R) (hn : Near R id s₀ d h) (hid : s.id = id)
    (hs : s₀.SameStream s) :
    wpThrow (among (Around R id)) (enforceCaptureReserve config id s alive) (KeptNear R id s₀ d) h := by
  have hsame : ∀ h₁, Near R id s₀ d h₁ → KeptNear R id s₀ d (.ok s) h₁ := by
    intro h₁ hn₁
    refine ⟨hn₁, fun s' heq => ?_⟩
    obtain rfl := Except.ok.inj heq
    exact ⟨hid, hs⟩
  rw [enforceCaptureReserve]
  split
  · exact hsame h hn
  · rw [wpThrow_bind]
    refine wp_near hR trivial hn (fun _ available h₁ _ hn₁ _ => ?_) fun h₁ e hn₁ _ => ⟨hn₁, nofun⟩
    rw [onOk_ok]
    split
    · exact hsame h₁ hn₁
    · exact degrade_near hR hn₁

theorem enforceCaptureCeiling_near (hR : Growth seg R) (hn : Near R id s₀ d h) (hid : s.id = id)
    (hs : s₀.SameStream s) {range : OutputRange} :
    wpThrow (among (Around R id)) (enforceCaptureCeiling config id s alive range) (KeptNear R id s₀ d)
      h := by
  rw [enforceCaptureCeiling]
  split
  · refine ⟨hn, fun s' heq => ?_⟩
    obtain rfl := Except.ok.inj heq
    exact ⟨hid, hs⟩
  · exact degrade_near hR hn

/-- What `outputRange` returns among others: a range of the transcript, with at least the bytes of
`files`. -/
def RangeNear (R : Dir → Dir → Prop) (seg : Nat) (id : String) (s₀ : Session) (d : Dir)
    (files : List Bytes) (r : Except Thrown (OutputRange × Session)) (h : Host) : Prop :=
  Near R id s₀ d h ∧ ∀ range s, r = .ok (range, s) → s.id = id ∧ s₀.SameStream s ∧
    ∃ text, Measured seg (h.files id) s range text ∧ files.flatten <+: text

/-- An empty range. -/
theorem measured_nil {d : Dir} (files : List Bytes) (hs : Stored seg d files) :
    Measured seg d s ⟨s.transcriptEarliestOffset, s.transcriptEarliestOffset, 0, []⟩ [] := by
  refine ⟨rfl, rfl, fun _ => by simp, files, ⟨[], 0, true, 0⟩, hs, ⟨trivial, rfl, by simp⟩, rfl, rfl,
    List.nil_prefix⟩

theorem missingRange_near (hR : Growth seg R) (hn : Near R id s₀ d h) (hs : Stored seg d [])
    (hid : s.id = id) (hsame : s₀.SameStream s) :
    wpThrow (among (Around R id)) (missingRange id s) (RangeNear R seg id s₀ d []) h := by
  rw [missingRange, wpThrow_bind]
  refine wpThrow_mono (Q := KeptNear R id s₀ d) (fun r h₁ hr => ?_) ?_
  · obtain ⟨hn₁, hr⟩ := hr
    rcases r with e | s'
    · exact ⟨hn₁, nofun⟩
    · obtain ⟨hid', hsame'⟩ := hr s' rfl
      rw [onOk_ok, wpThrow_pure]
      refine ⟨hn₁, fun range s'' heq => ?_⟩
      obtain ⟨rfl, rfl⟩ := Prod.mk.inj (Except.ok.inj heq)
      obtain ⟨files', hs', -⟩ := hn₁.stored hR hs
      exact ⟨hid', hsame', [], measured_nil _ hs', List.nil_prefix⟩
  · rw [recordMissing]
    split
    · refine ⟨hn, fun s' heq => ?_⟩
      obtain rfl := Except.ok.inj heq
      exact ⟨hid, hsame⟩
    · exact updateTranscript_near hR hn

theorem HostConfig.segmentBytes_pos : 1 ≤ config.segmentBytes := by
  rw [HostConfig.segmentBytes]
  split
  · decide
  · omega

theorem outputRange_near (hR : Growth seg R) (hpos : 1 ≤ seg) (hn : Near R id s₀ d h)
    (hs : Stored seg d files) (hid : s.id = id) (hsame : s₀.SameStream s) :
    wpThrow (among (Around R id)) (outputRange config id s) (RangeNear R seg id s₀ d files) h := by
  obtain ⟨files₀, hs₀, hext₀⟩ := hn.stored hR hs
  have hpre := hext₀.flatten_prefix hs.shape hs₀.shape
  rw [outputRange, wpThrow_bind, onFiles, wpThrow_lift]
  refine wp_mono ?_ (inspect_found (kept_near hR) hR hpos HostConfig.segmentBytes_pos hn hs₀)
  rintro r h₁ ⟨hn₁, hfound⟩
  rw [onOk_ok]
  -- nothing was there to be measured
  have hmissing : files₀ = [] → wpThrow (among (Around R id)) (missingRange id s)
      (RangeNear R seg id s₀ d files) h₁ := by
    rintro rfl
    obtain rfl := List.length_eq_zero_iff.mp (Nat.le_zero.mp hext₀.length_le)
    exact missingRange_near hR hn₁ hs hid hsame
  rcases hfound with ⟨inv, files', rfl, hs', hext', hcov, hlen, hsize, -⟩ | ⟨rfl, hnil⟩ | ⟨-, text, rfl⟩
  · show wpThrow _ (if inv.missing = true then _ else _) _ h₁
    split
    · rename_i hgone
      refine hmissing (List.length_eq_zero_iff.mp ?_)
      rw [hcov.missing.mp hgone] at hlen
      exact Nat.le_zero.mp hlen
    · rw [wpThrow_pure]
      refine ⟨hn₁, fun range s' heq => ?_⟩
      obtain ⟨rfl, rfl⟩ := Prod.mk.inj (Except.ok.inj heq)
      have hlength : (files'.flatten.take inv.size).length = inv.size := by
        rw [List.length_take]
        exact min_eq_left hcov.size_le
      refine ⟨hid, hsame, files'.flatten.take inv.size, ⟨rfl, hlength.symm, fun hsafe => ?_, files', inv,
        hs', hcov, rfl, hlength.symm, List.take_prefix _ _⟩, ?_⟩
      · rw [hlength] at hsafe ⊢
        rw [← Nat.cast_add, toDouble_natCast hsafe]
      · exact List.prefix_take_iff.mpr ⟨hpre.trans (hext'.flatten_prefix hs₀.shape hs'.shape),
          hpre.length_le.trans hsize⟩
  · exact hmissing hnil
  · exact ⟨hn₁, nofun⟩

/-- What a read returns among others, from a transcript `files` on: a page of what it has measured. -/
def PageNear (R : Dir → Dir → Prop) (seg : Nat) (id : String) (s₀ : Session) (d : Dir)
    (files : List Bytes) (cursor : CursorValue) (maxBytes : Number) (r : Except Thrown Response)
    (h : Host) : Prop :=
  Near R id s₀ d h ∧ ∀ resp, r = .ok resp → ∃ s text alive requested, s.id = id ∧ s₀.SameStream s ∧
    files.flatten <+: text ∧ (∃ files', Stored seg (h.files id) files' ∧ text <+: files'.flatten) ∧
    parseCursor cursor s = .ok requested ∧ pageOf id alive s text requested maxBytes = .ok resp

/-- **A read among others** returns a page of the transcript, with at least the bytes that were there when
it began, where the offsets stay safe integers. -/
theorem readOutput_near (hR : Growth seg R) (hpos : 1 ≤ seg) (hrow : h.row id = some s₀)
    (hs : Stored seg (h.files id) files)
    (hsafe : ∀ d files', R (h.files id) d → Stored seg d files' →
      s₀.transcriptEarliestOffset + files'.flatten.length ≤ maxSafeInteger)
    {cursor : CursorValue} {maxBytes : Number} :
    wpThrow (among (Around R id)) (readOutput config id cursor maxBytes)
      (PageNear R seg id s₀ (h.files id) files cursor maxBytes) h := by
  have hn : Near R id s₀ (h.files id) h := ⟨⟨s₀, hrow, .refl s₀⟩, hR.refl _⟩
  generalize h.files id = d at hn hs hsafe ⊢
  have herror : ∀ h₁ (e : Thrown), Near R id s₀ d h₁ →
      PageNear R seg id s₀ d files cursor maxBytes (.error e) h₁ :=
    fun h₁ e hn₁ => ⟨hn₁, fun resp heq => absurd heq (by simp)⟩
  rw [readOutput, wpThrow_bind]
  refine wpThrow_mono ?_ (getSession_near hR hn)
  rintro (e | s) h₁ ⟨hn₁, hr⟩
  · exact herror h₁ e hn₁
  obtain ⟨hid, hsame⟩ := hr s rfl
  rw [onOk_ok, wpThrow_bind]
  refine wpThrow_mono ?_ (observeCaptureStop_near hR hn₁ hid hsame)
  rintro (e | s) h₂ ⟨hn₂, hr⟩
  · exact herror h₂ e hn₂
  obtain ⟨hid, hsame⟩ := hr s rfl
  rw [onOk_ok, wpThrow_bind]
  refine wpThrow_mono ?_ (isAlive_near hR hn₂)
  rintro (e | alive) h₃ hn₃
  · exact herror h₃ e hn₃
  rw [onOk_ok, wpThrow_bind]
  refine wpThrow_mono ?_ (enforceCaptureReserve_near hR hn₃ hid hsame)
  rintro (e | s) h₄ ⟨hn₄, hr⟩
  · exact herror h₄ e hn₄
  obtain ⟨hid, hsame⟩ := hr s rfl
  rw [onOk_ok, wpThrow_bind]
  refine wpThrow_mono ?_ (outputRange_near hR hpos hn₄ hs hid hsame)
  rintro (e | ⟨range, s⟩) h₅ ⟨hn₅, hr⟩
  · exact herror h₅ e hn₅
  obtain ⟨hid, hsame, text, hm, hpre⟩ := hr range s rfl
  rw [onOk_ok, wpThrow_bind]
  -- from here on, what was measured stays there
  have hn₅' : Near R id s₀ (h₅.files id) h₅ := ⟨hn₅.row, hR.refl _⟩
  refine wpThrow_mono ?_ (enforceCaptureCeiling_near hR hn₅' hid hsame)
  rintro (e | s') h₆ ⟨hn₆, hr⟩
  · exact herror h₆ e ⟨hn₆.row, hR.trans hn₅.files hn₆.files⟩
  obtain ⟨hid', hsame'⟩ := hr s' rfl
  have hm₆ := (hm.grows hR hn₆.files).sameStream (hsame.symm.trans hsame')
  have hn₆ : Near R id s₀ d h₆ := ⟨hn₆.row, hR.trans hn₅.files hn₆.files⟩
  rw [onOk_ok, wpThrow_bind, wpThrow_result]
  rcases hparse : parseCursor cursor s' with e | requested
  · exact herror h₆ _ hn₆
  have hsafe' : s'.transcriptEarliestOffset + text.length ≤ maxSafeInteger := by
    obtain ⟨files', -, hs', -, -, -, htext⟩ := hm₆.covered
    have := hsafe _ files' hn₆.files hs'
    have := htext.length_le
    rw [← hsame'.earliest]
    omega
  have hn₆' : Near R id s₀ (h₆.files id) h₆ := ⟨hn₆.row, hR.refl _⟩
  refine wpThrow_mono ?_ (readPage_spec (kept_near hR) hR hn₆' hm₆ hsafe')
  rintro r h₇ ⟨hn₇, rfl⟩
  refine ⟨⟨hn₇.row, hR.trans hn₆.files hn₇.files⟩, fun resp heq => ?_⟩
  have hm₇ := hm₆.grows hR hn₇.files
  obtain ⟨files', -, hs', -, -, -, htext⟩ := hm₇.covered
  refine ⟨s', text, alive, requested, hid', hsame', hpre, ⟨files', hs', htext⟩, hparse, ?_⟩
  rcases hpage : pageOf id alive s' text requested maxBytes with e | resp'
  · rw [hpage] at heq
    exact absurd heq (by simp [Except.mapError])
  · rw [hpage] at heq
    exact congrArg Except.ok (Except.ok.inj heq)

end Reads

/-! ## A closed session -/

section Samples

def sampleConfig : HostConfig where
  terminalMaxActive := 8
  sessionOutputMaxBytes := 64
  transcriptSegmentBytes := 8
  transcriptTotalMaxBytes := none
  storageMinFreeBytes := 0

def sampleSession : Session where
  id := "s"
  label := "Terminal"
  cwd := "."
  createdAt := 0
  closedAt := some 1
  transcriptStreamId := "t"
  transcriptEpoch := 1
  transcriptEarliestOffset := 0
  transcriptCaptureState := .STOPPED
  transcriptGapReason := none
  stream_ne := sampleStream_ne
  epoch_pos := Nat.one_pos

/-- A closed session with a transcript of one file. -/
def sampleHost (bytes : Bytes) : Host where
  rows := Table.empty.upsert sampleSession
  dirs := AList.singleton "s" { SessionDir.empty with files := AList.singleton .first ⟨true, 1, bytes⟩ }
  live := ∅
  piped := ∅
  free := 0

theorem sampleHost_row {bytes : Bytes} : (sampleHost bytes).row "s" = some sampleSession := rfl

theorem sampleHost_stored (bytes : Bytes) (h : bytes.length ≤ 8) :
    Stored 8 ((sampleHost bytes).files "s") [bytes] where
  holds := holds_singleton bytes
  shape := h
  safe := by
    rw [List.flatten_singleton]
    exact h.trans (by decide)

/-- A session whose earliest offset is `0` has safe offsets only. -/
theorem safe_of_earliest {R : Dir → Dir → Prop} {seg : Nat} {d₀ : Dir} {s : Session}
    (h : s.transcriptEarliestOffset = 0) (d : Dir) (files : List Bytes) (_ : R d₀ d)
    (hs : Stored seg d files) : s.transcriptEarliestOffset + files.flatten.length ≤ maxSafeInteger := by
  rw [h, Nat.zero_add]
  exact hs.safe

theorem among_idle {A : Host → Host → Prop} (hA : ∀ h, A h h) : (among A).Idle := fun _ h => hA h

/-- What a program that is left alone ends with. -/
theorem eval_of_among {A : Host → Host → Prop} (hA : ∀ h, A h h) {α : Type} {p : HostM α}
    {Q : Except Thrown α → Host → Prop} {h : Host} (hp : wpThrow (among A) p Q h) :
    Q (p.run.eval hostBackend h).1 (p.run.eval hostBackend h).2 :=
  wp_sound (among_idle hA) hp (eval_runs _ _)

end Samples

end BegetBridge.Terminal
