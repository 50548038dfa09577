import BegetBridge.Transcript.Capture
import BegetBridge.Transcript.Growth

/-!
# What a capture leaves behind

The variables of the loop describe the directory: full files, then the current segment. A turn of
the loop rolls over where the segment is full, and writes at least one byte. So the loop ends, and
the transcript has grown by the longest part of the input that fits under the maximum.

## Main definitions

* `Writer.At`: the variables describe the directory
* `CaptureEnd`: what the loop leaves behind
* `CaptureOptions.segmentLength`: the segment length for an existing transcript

## Main results

* `writeChunk_spec`, `captureChunks_spec`: the loops
* `captureTranscript_spec`: the program
-/

namespace BegetBridge.Transcript

open Core Relational Interleaving

/-! ## The loop -/

/-- The variables describe the directory: the full files before the current segment, and the bytes of
that segment, whose file is yet to be created where `newSegment` says so. -/
structure Writer.At (w : Writer) (maximum : Nat) (d : Dir) (full : List Bytes) (current : Bytes) :
    Prop where
  filled : ∀ b ∈ full, b.length = w.segmentBytes
  index : full.length = w.index
  size : current.length = w.segmentSize
  room : w.segmentSize ≤ w.segmentBytes
  pos : 1 ≤ w.segmentBytes
  bound : w.index ≤ maxTranscriptSegments
  fresh : w.newSegment = true → current = [] ∧ w.opened = false
  holds : Holds d (if w.newSegment then full else full ++ [current])
  left : full.flatten.length + current.length + w.remaining = maximum

section Loop

variable {w : Writer} {maximum : Nat} {d : Dir} {full : List Bytes} {current : Bytes}
  {o : CaptureOptions} {α : Type}

theorem Writer.At.filename (h : w.At maximum d full current) :
    w.filename = .ok (segmentName full.length) := by
  have hbound := h.bound
  rw [Writer.filename, segmentPath, segmentName, h.index]
  split
  · rfl
  · rw [if_pos ⟨by omega, hbound⟩]

theorem Writer.At.stored (h : w.At maximum d full current) (hmax : maximum ≤ maxSafeInteger) :
    Stored w.segmentBytes d (if w.newSegment then full else full ++ [current]) where
  holds := h.holds
  shape := by
    split
    · exact shape_full h.filled
    · exact shape_snoc.mpr ⟨h.filled, h.size ▸ h.room⟩
  safe := by
    have := h.left
    split
    · omega
    · rw [List.flatten_append, List.length_append, List.flatten_singleton]
      omega

theorem Writer.At.flatten (h : w.At maximum d full current) :
    (if w.newSegment then full else full ++ [current]).flatten = full.flatten ++ current := by
  split
  · rename_i hnew
    rw [(h.fresh hnew).1, List.append_nil]
  · rw [List.flatten_append, List.flatten_singleton]

/-- After the turn of a segment there is room in the current one. -/
theorem Writer.At.rollOver (h : w.At maximum d full current) :
    (∃ w' full' current', w.rollOver = .ok w' ∧ w'.At maximum d full' current' ∧
      w'.segmentSize < w'.segmentBytes ∧ w'.segmentBytes = w.segmentBytes ∧
      w'.remaining = w.remaining ∧ full'.flatten ++ current' = full.flatten ++ current) ∨
    (w.rollOver = .error (.message "Transcript segment index exceeds its limit") ∧
      (full.flatten ++ current).length = (maxTranscriptSegments + 1) * w.segmentBytes) := by
  have hroom := h.room
  have hfulllen := flatten_full h.filled
  rw [Writer.rollOver]
  by_cases heq : w.segmentSize = w.segmentBytes
  · rw [if_pos heq, segmentPath]
    -- the current segment is full, so its file is there
    have hnew : w.newSegment = false := by
      by_contra hnew
      have hnil := (h.fresh (by simpa using hnew)).1
      have := h.size
      have := h.pos
      rw [hnil, List.length_nil] at *
      omega
    by_cases hbound : w.index + 1 ≤ maxTranscriptSegments
    · rw [if_pos ⟨by omega, hbound⟩]
      refine .inl ⟨_, full ++ [current], [], rfl, ⟨?_, ?_, rfl, Nat.zero_le _, h.pos, hbound,
        fun _ => ⟨rfl, rfl⟩, ?_, ?_⟩, h.pos, rfl, rfl, by simp⟩
      · intro b hb
        rcases List.mem_append.mp hb with hb | hb
        · exact h.filled b hb
        · rw [List.mem_singleton.mp hb, h.size, heq]
      · simp [h.index]
      · simpa [hnew] using h.holds
      · have := h.left
        simp only [List.flatten_append, List.flatten_singleton, List.length_append, List.length_nil]
        omega
    · rw [if_neg (by omega)]
      refine .inr ⟨rfl, ?_⟩
      have hindex : w.index = maxTranscriptSegments := le_antisymm h.bound (by omega)
      rw [List.length_append, hfulllen, h.size, heq, h.index, hindex, Nat.succ_mul]
  · rw [if_neg heq]
    exact .inl ⟨w, full, current, rfl, h, by omega, rfl, rfl, rfl⟩

/-- An operation of the writer, with what it owes. -/
theorem wp_capturing {seg : Nat} {op : Fs α} {Q : Except Failure α → Dir → Prop}
    (hgrows : ∀ b d', op.exec d = .ok (b, d') → Grows seg d d')
    (hok : ∀ b d', op.exec d = .ok (b, d') → Q (.ok b) d') (herr : ∀ e, Q (.error (.fs e)) d) :
    wpThrow (capturing seg) (perform op) Q d := by
  rintro _ rfl
  refine ⟨hgrows, fun r d₁ hans => ?_⟩
  cases hans with
  | effect he => exact hok _ _ he
  | refusal he => exact herr _
  | fault hf => exact hf.elim

/-- The same for one that takes effect. -/
theorem wp_captured {seg : Nat} {op : Fs α} {b : α} {d' : Dir}
    {Q : Except Failure α → Dir → Prop} (he : op.exec d = .ok (b, d')) (hgrows : Grows seg d d')
    (hQ : Q (.ok b) d') : wpThrow (capturing seg) (perform op) Q d := by
  rintro _ rfl
  refine ⟨fun b₁ d₁ he₁ => ?_, fun r d₁ hans => ?_⟩
  · obtain ⟨-, rfl⟩ := Prod.mk.inj (Except.ok.inj (he.symm.trans he₁))
    exact hgrows
  · cases hans with
    | effect he₁ =>
      obtain ⟨rfl, rfl⟩ := Prod.mk.inj (Except.ok.inj (he.symm.trans he₁))
      exact hQ
    | refusal he₁ => exact absurd (he.symm.trans he₁) nofun
    | fault hf => exact hf.elim

/-- Recording a storage stop leaves the transcript alone. -/
theorem recordStorageStop_spec {seg : Nat} {outputName pid : String}
    {Q : Except Failure Unit → Dir → Prop} (hQ : ∀ r d', Q r d') :
    wpThrow (capturing seg) (recordStorageStop outputName pid) Q d := by
  rw [recordStorageStop, wpThrow_bind]
  refine wp_capturing (fun b d' he => ?_) (fun _ d₁ _ => ?_) (fun _ => hQ _ _)
  · rw [Fs.exec] at he
    split at he
    · cases he
    · obtain ⟨-, rfl⟩ := Prod.mk.inj (Except.ok.inj he)
      exact grows_of_same fun name hname => AList.lookup_insert_ne (hname _)
  rw [onOk_ok, wpThrow_bind]
  refine wp_capturing (fun b d' he => ?_) (fun _ d₂ _ => ?_) (fun _ => hQ _ _)
  · rw [Fs.exec] at he
    split at he
    · obtain ⟨-, rfl⟩ := Prod.mk.inj (Except.ok.inj he)
      exact grows_of_same fun name hname => AList.lookup_insert_ne (hname _)
    · cases he
  rw [onOk_ok, wpThrow_tryCatch]
  refine wp_capturing (fun b d' he => ?_) (fun _ d₃ _ => hQ _ _) (fun e => ?_)
  · rw [Fs.exec] at he
    split at he
    · obtain ⟨-, rfl⟩ := Prod.mk.inj (Except.ok.inj he)
      exact grows_of_same fun name hname =>
        (AList.lookup_insert_ne (hname (outputName ++ captureStopSuffix))).trans
          (AList.lookup_erase_ne (hname _))
    · cases he
  · show wpThrow (capturing seg) (perform _ >>= _) Q d₂
    rw [wpThrow_bind]
    refine wp_capturing (fun b d' he => ?_) (fun _ _ _ => hQ _ _) (fun _ => hQ _ _)
    obtain ⟨-, rfl⟩ := Prod.mk.inj (Except.ok.inj he)
    exact grows_of_same fun name hname => AList.lookup_erase_ne (hname _)

/-- The file of the current segment is there after it is opened. -/
theorem openSegment_spec (hmax : maximum ≤ maxSafeInteger) (h : w.At maximum d full current) :
    wpThrow (capturing w.segmentBytes) (openSegment w) (fun r d' =>
      r = .ok { w with newSegment := false, opened := true } ∧
        Writer.At { w with newSegment := false, opened := true } maximum d' full current) d := by
  rw [openSegment]
  by_cases hopen : w.opened = true
  · have hnew : w.newSegment = false := by
      by_contra hnew
      have := (h.fresh (by simpa using hnew)).2
      cases hopen.symm.trans this
    have hw : { w with newSegment := false, opened := true } = w := by
      rw [← hopen, ← hnew]
    rw [if_pos hopen, hw, wpThrow_pure]
    exact ⟨rfl, h⟩
  · have hbound : full.length ≤ maxTranscriptSegments := h.index ▸ h.bound
    rw [if_neg hopen, h.filename, wpThrow_bind, wpThrow_result, onOk_ok, wpThrow_bind]
    have hstored := h.stored hmax
    by_cases hnew : w.newSegment = true
    · -- a new file is created empty
      obtain ⟨rfl, -⟩ := h.fresh hnew
      rw [if_pos hnew] at hstored ⊢
      have hlook := hstored.holds.lookup_next hbound
      have hholds := hstored.holds.put (.inl rfl) hbound (b := [])
      refine wp_captured (b := ()) (by rw [Fs.exec, hlook]; rfl) (fun files hs => ?_) ?_
      · obtain rfl := hs.holds.unique hstored.holds
        refine ⟨_, ⟨hholds, shape_snoc.mpr ⟨h.filled, Nat.zero_le _⟩, ?_⟩, extends_append _ _⟩
        simpa using hs.safe
      · rw [onOk_ok, wpThrow_pure]
        exact ⟨rfl, { h with fresh := by rintro ⟨⟩, holds := hholds }⟩
    · rw [if_neg hnew] at hstored ⊢
      have hlook := holdsFrom_iff.mp hstored.holds.from_first full.length (by simp)
      rw [Nat.zero_add] at hlook
      refine wp_captured (b := ()) (by rw [Fs.exec, hlook]; rfl) (Grows.refl d) ?_
      rw [onOk_ok, wpThrow_pure]
      exact ⟨rfl, { h with fresh := by rintro ⟨⟩, holds := hstored.holds }⟩

/-- The pieces of a write land one after the other at the end of the last file. -/
theorem appendAll_spec {seg : Nat} {pieces : List Bytes} (hfull : ∀ b ∈ full, b.length = seg)
    (hbound : full.length ≤ maxTranscriptSegments) (h : Holds d (full ++ [current]))
    (hroom : current.length + pieces.flatten.length ≤ seg)
    (hsafe : full.flatten.length + current.length + pieces.flatten.length ≤ maxSafeInteger) :
    wpThrow (capturing seg) (appendAll (segmentName full.length) pieces)
      (fun r d' => r = .ok () ∧ Holds d' (full ++ [current ++ pieces.flatten])) d := by
  induction pieces generalizing d current with
  | nil => exact ⟨rfl, by simpa using h⟩
  | cons piece pieces ih =>
    rw [List.flatten_cons, List.length_append] at hroom hsafe
    have hlook := holdsFrom_iff.mp h.from_first full.length (by simp)
    rw [Nat.zero_add] at hlook
    have hholds := h.put (.inr ⟨_, rfl⟩) hbound (b := current ++ piece)
    rw [appendAll, wpThrow_bind]
    refine wp_captured (b := ()) (by rw [Fs.exec, hlook]) (fun files hs => ?_) ?_
    · obtain rfl := hs.holds.unique h
      refine ⟨_, ⟨by simpa using hholds, shape_snoc.mpr ⟨hfull, ?_⟩, ?_⟩,
        extends_snoc (List.prefix_append current piece)⟩
      · rw [List.length_append]
        omega
      · simp only [List.flatten_append, List.flatten_singleton, List.length_append]
        omega
    · rw [onOk_ok, List.flatten_cons, ← List.append_assoc]
      refine ih (by simpa using hholds) ?_ ?_
      · rw [List.length_append]
        omega
      · rw [List.length_append]
        omega

/-- The variables after a write. -/
theorem Writer.At.written {d' : Dir} {p : Bytes} (h : w.At maximum d full current)
    (hopen : w.newSegment = false) (hrem : p.length ≤ w.remaining)
    (hroom : w.segmentSize + p.length ≤ w.segmentBytes)
    (hholds : Holds d' (full ++ [current ++ p])) :
    Writer.At { w with
      remaining := w.remaining - p.length
      segmentSize := w.segmentSize + p.length
      checks := w.checks + 1 } maximum d' full (current ++ p) where
  filled := h.filled
  index := h.index
  size := by rw [List.length_append, h.size]
  room := hroom
  pos := h.pos
  bound := h.bound
  fresh hnew := absurd (hnew.symm.trans hopen) nofun
  holds := by simpa [hopen] using hholds
  left := by
    have := h.left
    rw [List.length_append]
    show _ + (w.remaining - p.length) = maximum
    omega

theorem Writer.portion_length (chunk : Bytes) : (w.portion chunk).length =
    min (min chunk.length w.remaining) (w.segmentBytes - w.segmentSize) := by
  rw [Writer.portion, List.length_take]
  omega

/-- A check of the free space that fails for some write of at most `maximum` bytes. -/
def CaptureOptions.ReserveStop (o : CaptureOptions) : Prop :=
  0 < o.minimumFree ∧ ∃ n count, count ≤ o.maximum ∧
    sufficient o.minimumFree count (o.inspectFilesystem n) = false

/-- What the loop over a chunk leaves behind, from the text `text` with `w.remaining` bytes to go. -/
def ChunkEnd (o : CaptureOptions) (w : Writer) (text chunk : Bytes) :
    Except Failure (Writer × Option Stop) → Dir → Prop
  | .ok (_, some .storageReserve), _ => o.ReserveStop
  | .ok (w', stopped), d' => ∃ full current, w'.At o.maximum d' full current ∧
      w'.segmentBytes = w.segmentBytes ∧ (w'.remaining = 0 ↔ stopped = some .transcriptLimit) ∧
      full.flatten ++ current = text ++ chunk.take w.remaining
  | .error e, _ => o.ReserveStop ∨ e = .message "Transcript segment index exceeds its limit" ∧
      (maxTranscriptSegments + 1) * w.segmentBytes < (text ++ chunk.take w.remaining).length

theorem ChunkEnd.of_eq {w' : Writer} {text text' chunk chunk' : Bytes}
    {r : Except Failure (Writer × Option Stop)} (h : ChunkEnd o w text chunk r d)
    (hseg : w.segmentBytes = w'.segmentBytes)
    (htext : text ++ chunk.take w.remaining = text' ++ chunk'.take w'.remaining) :
    ChunkEnd o w' text' chunk' r d := by
  rcases r with e | ⟨w₁, _ | _ | _⟩
  · simpa only [ChunkEnd, hseg, htext] using h
  · simpa only [ChunkEnd, hseg, htext] using h
  · exact h
  · simpa only [ChunkEnd, hseg, htext] using h

theorem writeChunk_spec (hmax : o.maximum ≤ maxSafeInteger) (hwrites : o.Writes) {turns : Nat}
    {chunk : Bytes} (hturns : chunk.length ≤ turns) (h : w.At o.maximum d full current)
    (hrem : 0 < w.remaining) :
    wpThrow (capturing w.segmentBytes) (writeChunk o turns chunk w)
      (ChunkEnd o w (full.flatten ++ current) chunk) d := by
  induction turns generalizing chunk w d full current with
  | zero =>
    obtain rfl := List.length_eq_zero_iff.mp (Nat.le_zero.mp hturns)
    exact ⟨full, current, h, rfl, by simp [hrem.ne'], by simp⟩
  | succ turns ih =>
    rcases chunk with _ | ⟨byte, bytes⟩
    · exact ⟨full, current, h, rfl, by simp [hrem.ne'], by simp⟩
    rw [writeChunk, wpThrow_bind, wpThrow_result]
    rcases h.rollOver with ⟨w₁, full₁, current₁, hw₁, h₁, hroom, hseg, hrem₁, htext⟩ | ⟨hw₁, hlen⟩
    · rw [hw₁, onOk_ok]
      set chunk := byte :: bytes with hchunk
      have hpos : 0 < chunk.length := Nat.succ_pos _
      have hlen := w₁.portion_length chunk
      set portion := w₁.portion chunk with hportion
      have htake : portion = chunk.take portion.length := by
        rw [hlen, hportion, Writer.portion]
      have hleft := h₁.left
      have hsize := h₁.size
      show wpThrow _ (if reserveHolds o w₁ portion.length = true then _ else _) _ d
      split
      · rename_i hreserve
        rw [wpThrow_bind, ← hseg]
        refine wpThrow_mono ?_ (openSegment_spec hmax h₁)
        rintro _ d₁ ⟨rfl, h₂⟩
        rw [onOk_ok, wpThrow_bind, h₂.filename, wpThrow_result, onOk_ok, wpThrow_bind]
        have hbound : full₁.length ≤ maxTranscriptSegments := h₂.index ▸ h₂.bound
        refine wpThrow_mono ?_ (appendAll_spec h₂.filled hbound h₂.holds ?_ ?_)
        · rintro _ d₂ ⟨rfl, hholds⟩
          rw [hwrites portion] at hholds
          have hfits : portion.length ≤ w₁.remaining ∧
              w₁.segmentSize + portion.length ≤ w₁.segmentBytes := by omega
          have h₃ := h₂.written rfl hfits.1 hfits.2 hholds
          rw [onOk_ok]
          set w₃ : Writer := { w₁ with
            newSegment := false
            opened := true
            remaining := w₁.remaining - portion.length
            segmentSize := w₁.segmentSize + portion.length
            checks := w₁.checks + 1 } with hw₃
          have hrem₃ : w.remaining = portion.length + w₃.remaining := by
            show w.remaining = portion.length + (w₁.remaining - portion.length)
            omega
          have htext₃ : full₁.flatten ++ (current₁ ++ portion) =
              full.flatten ++ current ++ chunk.take portion.length := by
            rw [← List.append_assoc, htext, ← htake]
          show wpThrow _ (if w₃.remaining = 0 then _ else _) _ d₂
          split
          · rename_i hzero
            rw [wpThrow_pure]
            refine ⟨full₁, current₁ ++ portion, h₃, hseg, by simp [hzero], ?_⟩
            rw [htext₃, hrem₃, hzero, Nat.add_zero]
          · rename_i hmore
            refine wpThrow_mono (fun r d' hend => hend.of_eq hseg ?_) (ih ?_ h₃ (by omega))
            · rw [List.length_drop]
              omega
            · rw [htext₃, hrem₃, List.take_add, List.append_assoc]
        · rw [hwrites portion]
          omega
        · rw [hwrites portion]
          omega
      · rename_i hreserve
        rw [wpThrow_bind]
        refine recordStorageStop_spec fun r d' => ?_
        have hstop : o.ReserveStop := by
          simp only [reserveHolds, Bool.or_eq_true, beq_iff_eq, not_or, Bool.not_eq_true] at hreserve
          exact ⟨Nat.pos_of_ne_zero hreserve.1, _, _, by omega, hreserve.2⟩
        rcases r with e | u
        · exact .inl hstop
        · exact hstop
    · -- the text fills all the files there may be, and more is to come
      rw [hw₁, onOk_error]
      refine .inr ⟨rfl, ?_⟩
      rw [List.length_append, hlen, List.length_take, List.length_cons]
      omega

/-- What the whole loop leaves behind, from the text `text` with `w.remaining` bytes to go. -/
def CaptureEnd (o : CaptureOptions) (seg : Nat) (text : Bytes) :
    Except Failure (Option Stop) → Dir → Prop
  | .ok (some .storageReserve), _ => o.ReserveStop
  | .ok _, d' => ∃ files, Stored seg d' files ∧ files.flatten = text
  | .error e, _ => o.ReserveStop ∨ e = .message "Transcript segment index exceeds its limit" ∧
      (maxTranscriptSegments + 1) * seg < text.length

theorem captureChunks_spec (hmax : o.maximum ≤ maxSafeInteger) (hwrites : o.Writes)
    {input : List Bytes} (h : w.At o.maximum d full current) (hrem : 0 < w.remaining) :
    wpThrow (capturing w.segmentBytes) (captureChunks o input w)
      (CaptureEnd o w.segmentBytes (full.flatten ++ current ++ input.flatten.take w.remaining)) d := by
  induction input generalizing w d full current with
  | nil =>
    refine ⟨_, h.stored hmax, ?_⟩
    rw [List.flatten_nil, List.take_nil, List.append_nil, h.flatten]
  | cons chunk input ih =>
    rw [captureChunks, wpThrow_bind]
    refine wpThrow_mono (fun r d' hend => ?_) (writeChunk_spec hmax hwrites le_rfl h hrem)
    rw [List.flatten_cons, List.take_append, ← List.append_assoc]
    rcases r with e | ⟨w', stopped⟩
    · refine hend.imp_right fun hfull => ⟨hfull.1, hfull.2.trans_le ?_⟩
      exact (List.prefix_append _ _).length_le
    · by_cases hreserve : stopped = some .storageReserve
      · subst hreserve
        exact hend
      obtain ⟨full', current', h', hseg, hstop, htext⟩ :
          ∃ full' current', w'.At o.maximum d' full' current' ∧ w'.segmentBytes = w.segmentBytes ∧
            (w'.remaining = 0 ↔ stopped = some .transcriptLimit) ∧
            full'.flatten ++ current' = full.flatten ++ current ++ chunk.take w.remaining := by
        rcases stopped with _ | _ | _
        · exact hend
        · exact absurd rfl hreserve
        · exact hend
      -- what is left after the chunk
      have hleft : w'.remaining = w.remaining - chunk.length := by
        have h₁ := h.left
        have h₂ := h'.left
        have h₃ := congrArg List.length htext
        simp only [List.length_append, List.length_take] at h₃
        omega
      rw [← htext, ← hleft, ← hseg, onOk_ok]
      rcases stopped with _ | _ | _
      · exact ih h' (Nat.pos_of_ne_zero fun hzero => absurd (hstop.mp hzero) nofun)
      · exact absurd rfl hreserve
      · rw [hstop.mpr rfl, List.take_zero, List.append_nil]
        exact ⟨_, h'.stored hmax, h'.flatten⟩

end Loop

/-! ## From an existing transcript -/

/-- The length of the segments in which a transcript is continued. -/
def CaptureOptions.segmentLength (o : CaptureOptions) : List Bytes → Nat
  | [] => min o.segmentBytes o.maximum
  | [b] => if min o.segmentBytes o.maximum < b.length then o.maximum
      else min o.segmentBytes o.maximum
  | b :: _ :: _ => b.length

section Existing

variable {o : CaptureOptions} {seg : Nat} {d : Dir} {files : List Bytes} {inv : Inventory}

theorem CoversFrom.length_le {index start : Nat} {segments : List Segment}
    (h : CoversFrom index start segments files) : segments.length ≤ files.length := by
  induction segments generalizing index start files with
  | nil => exact Nat.zero_le _
  | cons s segments ih =>
    rcases files with _ | ⟨b, files⟩
    · exact h.elim
    · exact Nat.succ_le_succ (ih h.2.2.2.2)

/-- An inventory of all the bytes gives the length of every file. -/
theorem CoversFrom.exact {index start : Nat} {segments : List Segment}
    (h : CoversFrom index start segments files) (hlen : files.length ≤ segments.length)
    (hsize : files.flatten.length ≤ (segments.map (·.size)).sum) :
    segments.map (·.size) = files.map List.length := by
  induction segments generalizing index start files with
  | nil => rw [List.length_eq_zero_iff.mp (Nat.le_zero.mp hlen), List.map_nil, List.map_nil]
  | cons s segments ih =>
    rcases files with _ | ⟨b, files⟩
    · exact h.elim
    · obtain ⟨-, -, hle, -, hrest⟩ := h
      have hrest_le := hrest.size_le
      rw [List.flatten_cons, List.length_append, List.map_cons, List.sum_cons] at hsize
      rw [List.map_cons, List.map_cons, ih hrest (Nat.le_of_succ_le_succ hlen) (by omega)]
      congr 1
      omega

/-- Reading leaves a directory that stands still as it is. -/
theorem wp_capturing_of_still {α : Type} {p : Prog Fs FsError α} {Q : α → Dir → Prop}
    (h : wp (sharing Eq) p Q d) : wp (capturing seg) p (fun a d' => Q a d' ∧ d' = d) d := by
  induction p with
  | done a => exact ⟨h, rfl⟩
  | call op k ih =>
    rintro _ rfl
    obtain ⟨hreads, hk⟩ := h d rfl
    refine ⟨fun b d' he => ?_, fun r d' hans => ?_⟩
    · rw [Fs.exec_reads hreads he]
      exact Grows.refl d
    · have hrest := hk r d' hans
      obtain rfl : d' = d := by
        cases hans with
        | effect he => exact Fs.exec_reads hreads he
        | refusal => rfl
        | fault => rfl
      exact ih r hrest

/-- What an inspection of a transcript that stands still returns. -/
theorem inspected_still {segmentBytes : Nat} (hs : Stored seg d files)
    (h : Inspected seg segmentBytes files (.ok inv) d) :
    inv.segments.map (·.size) = files.map List.length ∧ inv.size = files.flatten.length ∧
      inv.Covers files ∧ inv.segmentBytes = if files.length ≤ 1 then segmentBytes else seg := by
  obtain ⟨_, files', heq, hs', -, hcov, hlen, hsize, hbytes⟩ := h
  obtain rfl := Except.ok.inj heq
  obtain rfl := hs.holds.unique hs'.holds
  have hle := hcov.segments.length_le
  rw [hcov.size] at hsize
  refine ⟨hcov.segments.exact hlen hsize, ?_, hcov, ?_⟩
  · rw [hcov.size]
    exact le_antisymm hcov.segments.size_le hsize
  · rw [hbytes, le_antisymm hle hlen]

/-- The length it picks fits the files, unless the maximum is reached. -/
theorem shape_segmentLength (hshape : Shape seg files) (hlt : files.flatten.length < o.maximum) :
    Shape (o.segmentLength files) files := by
  rcases files with _ | ⟨b, _ | ⟨b', files⟩⟩
  · trivial
  · rw [CaptureOptions.segmentLength]
    simp only [List.flatten_cons, List.flatten_nil, List.append_nil] at hlt
    split
    · exact hlt.le
    · rename_i hle
      exact not_lt.mp hle
  · rw [CaptureOptions.segmentLength, hshape.head_eq (List.cons_ne_nil _ _)]
    exact hshape

theorem segmentLength_pos (hpos : 1 ≤ seg) (hshape : Shape seg files) (hlimits : 1 ≤ o.segmentBytes)
    (hlt : files.flatten.length < o.maximum) : 1 ≤ o.segmentLength files := by
  have hmax : 1 ≤ o.maximum := Nat.one_le_of_lt hlt
  rcases files with _ | ⟨b, _ | ⟨b', files⟩⟩
  · exact le_min hlimits hmax
  · rw [CaptureOptions.segmentLength]
    split
    · exact hmax
    · exact le_min hlimits hmax
  · rw [CaptureOptions.segmentLength, hshape.1]
    exact hpos

/-- The variables at the start of the loop. -/
theorem writer_at (hpos : 1 ≤ seg) (hs : Stored seg d files) (hlimits : 1 ≤ o.segmentBytes)
    (hlt : files.flatten.length < o.maximum)
    (hsizes : inv.segments.map (·.size) = files.map List.length)
    (hsize : inv.size = files.flatten.length)
    (hbytes : inv.segmentBytes = if files.length ≤ 1 then min o.segmentBytes o.maximum else seg) :
    ∃ full current,
      (inv.writer o.maximum (min o.segmentBytes o.maximum)).At o.maximum d full current ∧
      (inv.writer o.maximum (min o.segmentBytes o.maximum)).segmentBytes = o.segmentLength files ∧
      full.flatten ++ current = files.flatten := by
  have hlen : inv.segments.length = files.length := by
    simpa using congrArg List.length hsizes
  have hseg : inv.segmentLength o.maximum (min o.segmentBytes o.maximum) = o.segmentLength files := by
    rw [Inventory.segmentLength, hlen, hsize, hbytes]
    rcases files with _ | ⟨b, _ | ⟨b', files⟩⟩
    · simp [CaptureOptions.segmentLength]
    · simp [CaptureOptions.segmentLength]
    · simp [CaptureOptions.segmentLength, hs.shape.1]
  have hlast : inv.segments.getLast?.map Segment.size = files.getLast?.map List.length := by
    rw [← List.getLast?_map, ← List.getLast?_map, hsizes]
  have hshape := shape_segmentLength hs.shape hlt
  have hempty : inv.segments.isEmpty = files.isEmpty := by
    simpa using congrArg List.isEmpty hsizes
  rw [Inventory.writer, hseg, hlast, hlen, hsize, hempty]
  rcases List.eq_nil_or_concat files with rfl | ⟨full, current, rfl⟩
  · refine ⟨[], [], ⟨nofun, rfl, rfl, Nat.zero_le _, ?_, Nat.zero_le _, fun _ => ⟨rfl, rfl⟩,
      hs.holds, ?_⟩, rfl, rfl⟩
    · exact le_min hlimits (Nat.one_le_of_lt hlt)
    · simp
  · rw [List.concat_eq_append] at *
    obtain ⟨hfull, hcurrent⟩ := shape_snoc.mp hshape
    refine ⟨full, current, ⟨hfull, by simp, by simp, ?_, ?_, ?_, by simp, by simpa using hs.holds, ?_⟩,
      rfl, by simp⟩
    · simpa using hcurrent
    · exact segmentLength_pos hpos hs.shape hlimits hlt
    · have := hs.holds.bounded
      simpa using this
    · simp only [List.flatten_append, List.flatten_singleton, List.length_append] at hlt ⊢
      omega

/-- **What `captureTranscript` leaves behind**, from a stored transcript. On the way the transcript only
grows, in segments of a length that fits it. -/
theorem captureTranscript_spec (hvalid : o.Valid) (hwrites : o.Writes) (hpos : 1 ≤ seg)
    (hs : Stored seg d files) (input : List Bytes) :
    ∃ seg', 1 ≤ seg' ∧ Stored seg' d files ∧
      (files.flatten.length < o.maximum → seg' = o.segmentLength files) ∧
      wpThrow (capturing seg') (captureTranscript o input) (CaptureEnd o seg'
        (files.flatten ++ input.flatten.take (o.maximum - files.flatten.length))) d := by
  obtain ⟨⟨hmax1, hmax⟩, -, hbytes1, hbytes⟩ := id hvalid
  have hmin : 1 ≤ min o.segmentBytes o.maximum ∧ min o.segmentBytes o.maximum ≤ maxSafeInteger := by
    omega
  -- the inspection, whatever the length that is owed
  have hinspect : ∀ (seg' : Nat) (Q : Except Failure (Option Stop) → Dir → Prop),
      (∀ inv : Inventory, inv.segments.map (·.size) = files.map List.length →
        inv.size = files.flatten.length →
        inv.segmentBytes = (if files.length ≤ 1 then min o.segmentBytes o.maximum else seg) →
        wpThrow (capturing seg') (if (inv.writer o.maximum (min o.segmentBytes o.maximum)).remaining = 0
          then return some .transcriptLimit
          else captureChunks o input (inv.writer o.maximum (min o.segmentBytes o.maximum))) Q d) →
      wpThrow (capturing seg') (captureTranscript o input) Q d := by
    intro seg' Q hQ
    rw [captureTranscript]
    refine wpThrow_ensured hvalid ?_
    rw [wpThrow_bind]
    refine wp_mono ?_ (wp_capturing_of_still
      (inspectTranscriptSegments_spec growth_eq hmin hs hpos))
    rintro r _ ⟨hr, rfl⟩
    rcases r with e | inv
    · obtain ⟨inv, -, habs, -⟩ := hr
      exact absurd habs nofun
    · obtain ⟨hsizes, hsize, -, hbytes⟩ := inspected_still hs hr
      exact hQ inv hsizes hsize hbytes
  by_cases hlt : files.flatten.length < o.maximum
  · have hseg := segmentLength_pos hpos hs.shape hbytes1 hlt
    refine ⟨_, hseg, ⟨hs.holds, shape_segmentLength hs.shape hlt, hs.safe⟩, fun _ => rfl,
      hinspect _ _ fun inv hsizes hsize hbytes => ?_⟩
    obtain ⟨full, current, hat, heq, htext⟩ := writer_at hpos hs hbytes1 hlt hsizes hsize hbytes
    have hrem : (inv.writer o.maximum (min o.segmentBytes o.maximum)).remaining =
        o.maximum - files.flatten.length := by
      rw [Inventory.writer, hsize]
    rw [if_neg (by omega), ← heq, ← hrem, ← htext]
    exact captureChunks_spec hmax hwrites hat (by omega)
  · refine ⟨seg, hpos, hs, fun h => absurd h hlt, hinspect _ _ fun inv _ hsize _ => ?_⟩
    have hrem : (inv.writer o.maximum (min o.segmentBytes o.maximum)).remaining = 0 := by
      rw [Inventory.writer, hsize]
      exact Nat.sub_eq_zero_of_le (not_lt.mp hlt)
    rw [if_pos hrem, wpThrow_pure]
    refine ⟨files, hs, ?_⟩
    rw [Nat.sub_eq_zero_of_le (not_lt.mp hlt), List.take_zero, List.append_nil]

end Existing

end BegetBridge.Transcript
