import BegetBridge.Terminal.Resting

/-!
# Intact transcripts

Whoever asks for a page of an intact transcript says how large it may be, and that number is not checked:
it may be fractional. The reads of the page are given bounds that come from it, and refuse bounds that are
not whole. So a page fails exactly where its size, with the three bytes that are read beyond it, is not
whole and more than that is left to read.

## Main definitions

* `firstBounds`, `pageBounds`: what the two reads of a page are given
* `InBounds`: bounds that a transcript has
* `Answered`: a request that gets a response, by reads within bounds
* `Askable`: a size of a page that can be asked for

## Main results

* `readChunk_eq`: the reads of a page have these bounds
* `answered_iff`: which requests are answered
-/

namespace BegetBridge.Terminal

open Core Relational Interleaving Transcript

/-- The bounds of the read at the start of a page. -/
def firstBounds (range : OutputRange) (start : ℚ) : ℚ × ℚ :=
  let physicalStart := toDouble (start - range.earliest)
  (physicalStart, min 4 (toDouble (range.physicalSize - physicalStart)))

/-- The bounds of the read of a page, where `skipped` bytes at its start are left out. -/
def pageBounds (range : OutputRange) (start requestedMax : ℚ) (skipped : Nat) : ℚ × ℚ :=
  (toDouble (toDouble (start - range.earliest) + skipped),
    min (toDouble (range.end - toDouble (start + skipped))) (toDouble (requestedMax + 3)))

theorem readChunk_eq {range : OutputRange} {start requestedMax : ℚ} :
    readChunk range start requestedMax = (do
      let first ← readRange range.segments (firstBounds range start).1 (firstBounds range start).2
      let skipped := (first.takeWhile continuation).length
      let buffer ← readRange range.segments (pageBounds range start requestedMax skipped).1
        (pageBounds range start requestedMax skipped).2
      return ⟨skipped, buffer, utf8SafePrefixLength buffer (min requestedMax buffer.length)⟩) := rfl

/-- The bounds are safe integers within the limit of a read, and within a transcript of `size` bytes. -/
def InBounds (size : Nat) (bounds : ℚ × ℚ) : Prop :=
  ∃ offset length : Nat, bounds = ((offset : ℚ), (length : ℚ)) ∧ offset ≤ maxSafeInteger ∧
    length ≤ readLimit ∧ offset + length ≤ size

/-- A request for a page of the transcript `text` gets a response, whatever happens to other sessions
meanwhile, and its reads are within bounds. -/
structure Answered (config : HostConfig) (h : Host) (s : Session) (text : Bytes) (cursor : CursorValue)
    (requested : Requested) (maxBytes : Number) : Prop where
  answer : wpThrow (among (Apart s.id)) (readOutput config s.id cursor maxBytes)
    (fun r _ => ∃ resp, r = .ok resp) h
  first : InBounds text.length
    (firstBounds (wholeRange s text) (startOf requested (wholeRange s text)).1)
  page : InBounds text.length (pageBounds (wholeRange s text)
    (startOf requested (wholeRange s text)).1 (requestedMax maxBytes)
    (skippedOf (text.drop (position s.transcriptEarliestOffset text.length requested))))

/-- Where `rest` bytes are left, a page of this size can be asked for. -/
def Askable (rest : Nat) (requestedMax : ℚ) : Prop :=
  (rest : ℚ) ≤ toDouble (requestedMax + 3) ∨ Whole (toDouble (requestedMax + 3))

/-- The capture of a session is degraded, or no record of a storage stop is there, or a valid one. -/
def CaptureReadable (h : Host) (s : Session) : Prop :=
  s.transcriptCaptureState = .DEGRADED ∨ ∀ marker ∈ h.stopRecord s.id, marker.Valid

section Bounds

variable {s : Session} {text : Bytes} {requested : Requested} {x : Number} {m : ℚ} {rest : Nat}

theorem whole_min_iff : Whole (min (rest : ℚ) (toDouble (m + 3))) ↔ Askable rest m := by
  rw [Askable]
  rcases le_total (rest : ℚ) (toDouble (m + 3)) with hle | hle
  · rw [min_eq_left hle]
    exact iff_of_true (whole_natCast rest) (.inl hle)
  · rw [min_eq_right hle]
    constructor
    · exact .inr
    · rintro (hge | hwhole)
      · -- both are what is left
        rw [le_antisymm hle hge]
        exact whole_natCast rest
      · exact hwhole

theorem chunkOf_ok_iff {bytes : Bytes} : (∃ chunk, chunkOf bytes m = .ok chunk) ↔
    Askable (bytes.length - skippedOf bytes) m := by
  rw [← whole_min_iff, chunkOf, List.length_drop]
  by_cases hwhole : Whole (min ((bytes.length - skippedOf bytes : ℕ) : ℚ) (toDouble (m + 3)))
  · simp [hwhole]
  · simp [hwhole]

/-- The first read is within bounds. -/
theorem firstBounds_inBounds (hsafe : s.transcriptEarliestOffset + text.length ≤ maxSafeInteger) :
    InBounds text.length
      (firstBounds (wholeRange s text) (startOf requested (wholeRange s text)).1) := by
  have hk := position_le s.transcriptEarliestOffset text.length requested
  rw [startOf_wholeRange, firstBounds]
  set k := position s.transcriptEarliestOffset text.length requested
  have hstart : toDouble ((s.transcriptEarliestOffset : ℚ) + k - s.transcriptEarliestOffset) = (k : ℕ) := by
    rw [add_sub_cancel_left, toDouble_natCast (by omega)]
  have hleft : toDouble ((text.length : ℚ) - (k : ℕ)) = ((text.length - k : ℕ) : ℚ) := by
    rw [← Nat.cast_sub hk, toDouble_natCast (by omega)]
  refine ⟨k, min 4 (text.length - k), ?_, by omega, by rw [readLimit]; omega, by omega⟩
  simp only [wholeRange, hstart, hleft]
  push_cast
  rfl

/-- The read of the page is within bounds exactly where its size can be asked for. -/
theorem pageBounds_inBounds_iff
    (hsafe : s.transcriptEarliestOffset + text.length ≤ maxSafeInteger) :
    InBounds text.length (pageBounds (wholeRange s text) (startOf requested (wholeRange s text)).1
      (requestedMax x)
      (skippedOf (text.drop (position s.transcriptEarliestOffset text.length requested)))) ↔
      Askable (text.length - firstByte s.transcriptEarliestOffset text requested) (requestedMax x) := by
  have hfirst := firstByte_le s.transcriptEarliestOffset text requested
  obtain ⟨hlow, hhigh⟩ := toDouble_requestedMax_bounds x
  rw [startOf_wholeRange, ← whole_min_iff, pageBounds]
  rw [firstByte] at hfirst ⊢
  set e := s.transcriptEarliestOffset with he
  set k := position e text.length requested
  set skipped := skippedOf (text.drop k)
  -- every sum is a whole number, and safe
  have hstart : toDouble (toDouble ((e : ℚ) + k - e) + skipped) = ((k + skipped : ℕ) : ℚ) := by
    rw [add_sub_cancel_left, toDouble_natCast (by omega), ← Nat.cast_add, toDouble_natCast (by omega)]
  have hleft : toDouble ((e : ℚ) + text.length - toDouble ((e : ℚ) + k + skipped)) =
      ((text.length - (k + skipped) : ℕ) : ℚ) := by
    have hsum : (e : ℚ) + k + skipped = ((e + (k + skipped) : ℕ) : ℚ) := by
      push_cast
      ring
    rw [hsum, toDouble_natCast (by omega), ← Nat.cast_add, ← Nat.cast_sub (by omega),
      toDouble_natCast (by omega)]
    congr 1
    omega
  simp only [wholeRange, ← he, hstart, hleft]
  set rest := text.length - (k + skipped) with hrest
  constructor
  · rintro ⟨offset, length, hbounds, -⟩
    rw [(Prod.mk.inj hbounds).2]
    exact whole_natCast length
  · intro hwhole
    obtain ⟨length, hlength⟩ := hwhole.exists_nat (le_min (Nat.cast_nonneg _) (by linarith))
    have hle : length ≤ rest := by
      exact_mod_cast hlength.symm.le.trans (min_le_left _ _)
    have hlimit : length ≤ readLimit := by
      exact_mod_cast hlength.symm.le.trans ((min_le_right _ _).trans hhigh)
    exact ⟨k + skipped, length, by rw [hlength], by omega, hlimit, by omega⟩

/-- A page is there exactly where its size can be asked for. -/
theorem pageOf_ok_iff {id : String} {alive : Bool} :
    (∃ resp, pageOf id alive s text requested x = .ok resp) ↔
      Askable (text.length - firstByte s.transcriptEarliestOffset text requested) (requestedMax x) := by
  rw [pageOf]
  set k := position s.transcriptEarliestOffset text.length requested with hk
  have hfirst : firstByte s.transcriptEarliestOffset text requested = k + skippedOf (text.drop k) := rfl
  by_cases hdone : k = text.length
  · -- nothing is left, and nothing is read
    have hnone : text.length - firstByte s.transcriptEarliestOffset text requested = 0 := by omega
    rw [if_pos hdone, hnone]
    refine iff_of_true ⟨_, rfl⟩ (.inl ?_)
    have hlow := (toDouble_requestedMax_bounds x).1
    push_cast
    linarith
  · have hrest : text.length - firstByte s.transcriptEarliestOffset text requested =
        (text.drop k).length - skippedOf (text.drop k) := by
      rw [hfirst, List.length_drop]
      omega
    rw [if_neg hdone, hrest, ← chunkOf_ok_iff]
    rcases chunkOf (text.drop k) (requestedMax x) with err | chunk
    · exact iff_of_false (by simp [Except.map]) (by simp)
    · exact iff_of_true ⟨_, rfl⟩ ⟨_, rfl⟩

end Bounds

section Answers

variable {config : HostConfig} {h : Host} {s : Session} {files : List Bytes} {cursor : CursorValue}
  {requested : Requested} {maxBytes : Number}

/-- **Which requests are answered**: a transcript that an inspection accepts, and that stands still, is
read exactly where the size of the page can be asked for, and the capture of the session is readable. -/
theorem answered_iff (hrow : h.row s.id = some s) (hfiles : Holds (h.files s.id) files)
    (haccepted : ∃ inv, ((inspectTranscriptSegments config.segmentBytes).run.eval fsBackend
      (h.files s.id)).1 = .ok inv)
    (hsafe : s.transcriptEarliestOffset + files.flatten.length ≤ maxSafeInteger)
    (hparse : parseCursor cursor s = .ok requested) :
    Answered config h s files.flatten cursor requested maxBytes ↔
      Askable (files.flatten.length - firstByte s.transcriptEarliestOffset files.flatten requested)
        (requestedMax maxBytes) ∧ CaptureReadable h s := by
  obtain ⟨⟨-, hconfig⟩, seg, files', hpos, hstored⟩ := inspectTranscriptSegments_ok_iff.mp haccepted
  obtain rfl := hfiles.unique hstored.holds
  have hstanding : Standing s.id s (h.files s.id) (h.stopRecord s.id) (decide (s.id ∈ h.live)) h :=
    ⟨⟨s, hrow, .refl s⟩, rfl, rfl, rfl⟩
  have hread := readOutput_standing hpos hconfig hstanding hrow hstored hsafe hparse maxBytes
  constructor
  · intro ha
    refine ⟨(pageBounds_inBounds_iff hsafe).mp ha.page, ?_⟩
    -- a record that is not valid fails the read, when nothing else runs
    by_contra hunreadable
    rw [CaptureReadable] at hunreadable
    obtain ⟨resp, hresp⟩ := eval_of_among Apart.refl ha.answer
    have hfails := eval_of_among Apart.refl hread
    rw [if_neg hunreadable, hresp] at hfails
    exact absurd hfails nofun
  · rintro ⟨haskable, hreadable⟩
    rw [CaptureReadable] at hreadable
    refine ⟨wpThrow_mono (fun r h' hr => ?_) hread, firstBounds_inBounds hsafe,
      (pageBounds_inBounds_iff hsafe).mpr haskable⟩
    rw [if_pos hreadable] at hr
    obtain ⟨-, s', hsame, rfl⟩ := hr
    rw [hsame.earliest] at haskable
    obtain ⟨resp, hresp⟩ := (@pageOf_ok_iff _ _ _ _ s.id (decide (s.id ∈ h.live))).mpr haskable
    exact ⟨resp, by rw [hresp]; rfl⟩

theorem sampleHost_accepted : ∃ inv,
    ((inspectTranscriptSegments sampleConfig.segmentBytes).run.eval fsBackend
      ((sampleHost [97, 98, 99, 100, 101, 102]).files sampleSession.id)).1 = .ok inv :=
  inspectTranscriptSegments_ok_iff.mpr ⟨by decide, 8, _, by decide, sampleHost_stored _ (by decide)⟩

/-- Pages of two bytes of a transcript of six. -/
theorem answered_two : Answered sampleConfig (sampleHost [97, 98, 99, 100, 101, 102]) sampleSession
    [97, 98, 99, 100, 101, 102] .absent ⟨0, false⟩ (.finite (2 : ℕ)) := by
  have hstored := sampleHost_stored [97, 98, 99, 100, 101, 102] (by decide)
  have hcursor : parseCursor .absent sampleSession = .ok ⟨0, false⟩ := rfl
  refine (answered_iff sampleHost_row hstored.holds sampleHost_accepted (by decide) hcursor).mpr
    ⟨.inr ?_, .inr ?_⟩
  · -- two and three are five
    rw [requestedMax_natCast (by decide), show ((min 2 262144 : ℕ) : ℚ) + 3 = ((5 : ℕ) : ℚ) by norm_num,
      toDouble_natCast (by decide)]
    exact whole_natCast 5
  · exact fun marker hmem => absurd hmem nofun

/-- A page of one byte and a half is asked of the same transcript. The transcript is blamed. -/
theorem unanswered_fractional :
    (∃ inv, ((inspectTranscriptSegments sampleConfig.segmentBytes).run.eval fsBackend
      ((sampleHost [97, 98, 99, 100, 101, 102]).files sampleSession.id)).1 = .ok inv) ∧
    parseCursor .absent sampleSession = .ok ⟨0, false⟩ ∧
    ((readOutput sampleConfig sampleSession.id .absent (.finite (3 / 2))).run.eval hostBackend
      (sampleHost [97, 98, 99, 100, 101, 102])).1 = .error (.bridge transcriptChanged) ∧
    pageBounds (wholeRange sampleSession [97, 98, 99, 100, 101, 102]) 0 (requestedMax (.finite (3 / 2))) 0 =
      (0, 9 / 2) :=
  ⟨sampleHost_accepted, rfl, by decide +kernel, by decide +kernel⟩

end Answers

end BegetBridge.Terminal
