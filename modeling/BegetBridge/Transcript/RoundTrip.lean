import BegetBridge.Transcript.CaptureSpecs

/-!
# The round trip of a transcript

What `captureTranscript` leaves behind is accepted by `inspectTranscriptSegments` again, and
`readTranscriptBytes` reads every range of it back.

## Main definitions

* `ReadsBack`: the files of a directory are accepted and read back
* `numberedNeeded`: the numbered files that a text takes

## Main results

* `captureTranscript_roundTrip`: the round trip, and the one reason for a capture to fail
-/

namespace BegetBridge.Transcript

open Core Relational Interleaving

/-- The numbered files of a text in segments of length `seg`. -/
def numberedNeeded (seg total : Nat) : Nat := (total + seg - 1) / seg - 1

section RoundTrip

variable {o : CaptureOptions} {d : Dir} {files : List Bytes}

theorem capturing_idle {seg : Nat} : (capturing seg).Idle := fun _ _ => rfl

theorem numberedNeeded_lt {seg total n : Nat} (hseg : 1 ≤ seg) (h : (n + 1) * seg < total) :
    n < numberedNeeded seg total := by
  rw [numberedNeeded, Nat.lt_sub_iff_add_lt, Nat.lt_iff_add_one_le, Nat.le_div_iff_mul_le hseg,
    Nat.succ_mul]
  omega

/-- Every file but the last of a stored transcript has one length. -/
theorem Shape.dropLast {seg : Nat} (h : Shape seg files) : ∀ b ∈ files.dropLast, b.length = seg := by
  rcases List.eq_nil_or_concat files with rfl | ⟨full, current, rfl⟩
  · exact nofun
  · rw [List.concat_eq_append] at h ⊢
    rw [List.dropLast_concat]
    exact (shape_snoc.mp h).1

theorem Shape.flatten_le {seg : Nat} (h : Shape seg files) :
    files.flatten.length ≤ files.length * seg := by
  induction files with
  | nil => exact Nat.zero_le _
  | cons b files ih =>
    have := ih h.tail
    have := h.head_le
    rw [List.flatten_cons, List.length_append, List.length_cons, Nat.succ_mul]
    omega

/-- The files of the directory are accepted by an inspection with `segmentBytes` configured, have one
length but for the last, and every range of them is read back. -/
structure ReadsBack (d : Dir) (segmentBytes : Nat) (files : List Bytes) (inv : Inventory) : Prop where
  holds : Holds d files
  inspected : (inspectTranscriptSegments segmentBytes).run.eval fsBackend d = (.ok inv, d)
  size : inv.size = files.flatten.length
  lengths : ∃ seg, ∀ b ∈ files.dropLast, b.length = seg
  slices : ∀ offset length, offset + length ≤ files.flatten.length → length ≤ readLimit →
    (readTranscriptBytes inv.segments offset length).run.eval fsBackend d =
      (.ok ((files.flatten.drop offset).take length), d)

/-- A program that only reads ends where it began. -/
theorem eval_still {α : Type} {p : FsM α} {Q : Except Failure α → Dir → Prop}
    (h : wpThrow (sharing Eq) p Q d) :
    Q (p.run.eval fsBackend d).1 d ∧ (p.run.eval fsBackend d).2 = d := by
  obtain ⟨hQ, heq⟩ : Q (p.run.eval fsBackend d).1 (p.run.eval fsBackend d).2 ∧
      (p.run.eval fsBackend d).2 = d :=
    wp_sound (C := capturing 0) capturing_idle (wp_capturing_of_still h) (eval_runs _ _)
  rw [heq] at hQ
  exact ⟨hQ, heq⟩

theorem Stored.readsBack {seg segmentBytes : Nat} (hpos : 1 ≤ seg) (hs : Stored seg d files)
    (hseg : 1 ≤ segmentBytes ∧ segmentBytes ≤ maxSafeInteger) :
    ∃ inv, ReadsBack d segmentBytes files inv := by
  obtain ⟨hinspected, heq⟩ := eval_still (inspectTranscriptSegments_spec growth_eq hseg hs hpos)
  obtain ⟨inv, -, hr, -⟩ := id hinspected
  rw [hr] at hinspected
  obtain ⟨-, hsize, hcov, -⟩ := inspected_still hs hinspected
  refine ⟨inv, hs.holds, Prod.ext hr heq, hsize, ⟨seg, hs.shape.dropLast⟩, fun offset length hend hlimit => ?_⟩
  obtain ⟨hslice, heq⟩ := eval_still
    (readTranscriptBytes_spec growth_eq hs hcov (hend.trans_eq hsize.symm) hlimit)
  exact Prod.ext hslice heq

/-- **Round trip**: what `captureTranscript` adds to an accepted transcript is accepted again and read
back, and it fails only for want of a segment number. -/
theorem captureTranscript_roundTrip (hvalid : o.Valid) (hwrites : o.Writes) (input : List Bytes)
    {segmentBytes : Nat}
    (haccepted : ∃ inv, ((inspectTranscriptSegments segmentBytes).run.eval fsBackend d).1 = .ok inv) :
    ∃ files, Holds d files ∧ ∃ r d', (captureTranscript o input).run.eval fsBackend d = (r, d') ∧
      (∀ stopped, r = .ok stopped → stopped ≠ some .storageReserve →
        ∃ files' inv, ReadsBack d' o.segmentBytes files' inv ∧
          files'.flatten =
            files.flatten ++ input.flatten.take (o.maximum - files.flatten.length) ∧
          files'.flatten.length ≤ max o.maximum files.flatten.length) ∧
      (∀ e, r = .error e → ¬o.ReserveStop →
        maxTranscriptSegments < numberedNeeded (o.segmentLength files) (files.flatten ++
          input.flatten.take (o.maximum - files.flatten.length)).length) := by
  obtain ⟨-, seg, files, hpos, hs⟩ := inspectTranscriptSegments_ok_iff.mp haccepted
  obtain ⟨seg', hpos', hs', hlen, hspec⟩ := captureTranscript_spec hvalid hwrites hpos hs input
  refine ⟨files, hs.holds, _, _, rfl, ?_⟩
  set out := (captureTranscript o input).run.eval fsBackend d with hout
  have hend : CaptureEnd o seg' (files.flatten ++
      input.flatten.take (o.maximum - files.flatten.length)) out.1 out.2 :=
    wp_sound capturing_idle hspec (eval_runs _ _)
  constructor
  · intro stopped hr hstop
    rw [hr] at hend
    obtain ⟨files', hs'', htext⟩ : ∃ files', Stored seg' out.2 files' ∧ files'.flatten =
        files.flatten ++ input.flatten.take (o.maximum - files.flatten.length) := by
      rcases stopped with _ | _ | _
      · exact hend
      · exact absurd rfl hstop
      · exact hend
    obtain ⟨inv, hinv⟩ := hs''.readsBack hpos' ⟨hvalid.2.2.1, hvalid.2.2.2⟩
    refine ⟨files', inv, hinv, htext, ?_⟩
    rw [htext, List.length_append, List.length_take]
    omega
  · intro e hr hreserve
    rw [hr] at hend
    obtain ⟨-, hfull⟩ := Or.resolve_left hend hreserve
    by_cases hlt : files.flatten.length < o.maximum
    · rw [← hlen hlt]
      exact numberedNeeded_lt hpos' hfull
    · -- the files were within their number before, and nothing was to be added
      rw [Nat.sub_eq_zero_of_le (not_lt.mp hlt), List.take_zero, List.append_nil] at hfull
      have := hs'.shape.flatten_le
      have := Nat.mul_le_mul_right seg' hs.holds.bounded
      omega

/-- A transcript of one file. -/
def sampleTranscript : Dir := AList.singleton .first ⟨true, 1, [1, 2]⟩

/-- A capture that writes byte by byte. -/
def sampleCapture : CaptureOptions where
  outputName := "terminal.log"
  pid := "7"
  maximum := 5
  minimumFree := 0
  segmentBytes := 2
  inspectFilesystem _ := none
  pieces := List.map fun b => [b]

theorem sampleCapture_writes : sampleCapture.Writes := by
  intro b
  induction b with
  | nil => rfl
  | cons x b ih => exact congrArg (x :: ·) ih

theorem captureTranscript_roundTrip_rollOver : ∃ d' files inv,
    (captureTranscript sampleCapture [[3, 4, 5], [6]]).run.eval fsBackend sampleTranscript =
      (.ok (some .transcriptLimit), d') ∧
    ReadsBack d' 2 files inv ∧ files.flatten = [1, 2, 3, 4, 5] := by
  have haccepted : ((inspectTranscriptSegments 2).run.eval fsBackend sampleTranscript).1 =
      .ok ⟨[⟨.first, 0, 2⟩], 2, false, 2⟩ := by decide +kernel
  have hlimit : ((captureTranscript sampleCapture [[3, 4, 5], [6]]).run.eval fsBackend
      sampleTranscript).1 = .ok (some .transcriptLimit) := by decide +kernel
  obtain ⟨files, hholds, r, d', heval, hok, -⟩ := captureTranscript_roundTrip (by decide)
    sampleCapture_writes [[3, 4, 5], [6]] ⟨_, haccepted⟩
  rw [heval] at hlimit
  obtain rfl : r = _ := hlimit
  obtain rfl := hholds.unique (holds_singleton [1, 2])
  obtain ⟨files', inv, hback, htext, -⟩ := hok _ rfl nofun
  exact ⟨d', files', inv, heval, hback, htext⟩

end RoundTrip

end BegetBridge.Transcript
