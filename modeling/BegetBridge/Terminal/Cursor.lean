import BegetBridge.Core.Text
import BegetBridge.Terminal.Session

/-!
# Transcript cursors

A cursor names a stream, its epoch and an absolute byte offset. `parseCursor` also takes the plain
offsets of older clients, and no cursor at all.

## Main definitions

* `encodeCursor`, `parseCursor`: the two functions
* `CursorValue`: what a caller passes

## Main results

* `parseCursor_encodeCursor`: a cursor is read as it was written
* `parseCursor_encodeCursor_ok`: where it is read at all, as that offset of that stream
* `encodeCursor_inj`: a cursor tells its offset, and whether it is whole
-/

namespace BegetBridge.Terminal

open Core

/-- `CURSOR_VERSION` -/
def cursorVersion : Nat := 1

/-- `encodeCursor(session, offset)` -/
def encodeCursor (session : Session) (offset : ℚ) : String :=
  "v" ++ toString cursorVersion ++ ":" ++ session.transcriptStreamId ++ ":" ++
    toString session.transcriptEpoch ++ ":" ++ numberText offset

/-- What a caller passes for a cursor: nothing, a number, or a text. -/
inductive CursorValue
  | absent
  | number (x : Number)
  | text (value : String)
  deriving DecidableEq, Repr

/-- Where a read is to start, and whether the cursor is of another stream. -/
structure Requested where
  offset : Nat
  mismatch : Bool
  deriving DecidableEq, Repr

/-- `/^\d+$/` -/
def isDigits (value : List Char) : Bool := !value.isEmpty && value.all Char.isDigit

/-- `Number(digits)` -/
def digitsValue (digits : List Char) : Nat := Nat.ofDigitChars 10 digits 0

def invalidCursor : BridgeError := ⟨"invalid_cursor", "Invalid transcript cursor", 400⟩

def unsupportedCursor : BridgeError := ⟨"invalid_cursor", "Unsupported transcript cursor", 400⟩

/-- A plain offset. -/
def plainOffset (offset : Nat) : Except BridgeError Requested :=
  if offset ≤ maxSafeInteger then .ok ⟨offset, false⟩ else .error invalidCursor

/-- The parts of a versioned cursor, between its colons, where each has its form. -/
def versionedCursor (session : Session) (version streamId epoch offset : List Char) :
    Except BridgeError Requested :=
  match version with
  | 'v' :: digits =>
    if isDigits digits && within idChar 1 80 (String.ofList streamId) && isDigits epoch &&
        isDigits offset then
      if digitsValue digits = cursorVersion ∧
          (1 ≤ digitsValue epoch ∧ digitsValue epoch ≤ maxSafeInteger) ∧
          digitsValue offset ≤ maxSafeInteger then
        .ok ⟨digitsValue offset, decide (String.ofList streamId ≠ session.transcriptStreamId ∨
          digitsValue epoch ≠ session.transcriptEpoch)⟩
      else .error unsupportedCursor
    else .error invalidCursor
  | _ => .error invalidCursor

/-- `parseCursor(value, session)` -/
def parseCursor (value : CursorValue) (session : Session) : Except BridgeError Requested :=
  match value with
  | .absent => .ok ⟨session.transcriptEarliestOffset, false⟩
  | .number (.finite q) =>
    if Whole q ∧ 0 ≤ q then plainOffset ⌊q⌋.toNat else .error invalidCursor
  | .number _ => .error invalidCursor
  | .text value =>
    if value = "" then .ok ⟨session.transcriptEarliestOffset, false⟩
    else if isDigits value.toList then plainOffset (digitsValue value.toList)
    else
      match value.toList.splitOn ':' with
      | [version, streamId, epoch, offset] => versionedCursor session version streamId epoch offset
      | _ => .error invalidCursor

section Codec

variable {s s' : Session} {n : Nat}

/-- A cursor depends on the stream of its session only. -/
theorem encodeCursor_congr (h : s.SameStream s') {x : ℚ} : encodeCursor s x = encodeCursor s' x := by
  rw [encodeCursor, encodeCursor, h.stream, h.epoch]

theorem parseCursor_congr (h : s.SameStream s') {value : CursorValue} :
    parseCursor value s = parseCursor value s' := by
  have hversioned : ∀ v t e o, versionedCursor s v t e o = versionedCursor s' v t e o := by
    intro v t e o
    simp only [versionedCursor, h.stream, h.epoch]
  cases value with
  | absent => rw [parseCursor, parseCursor, h.earliest]
  | number x => cases x <;> rfl
  | text value => simp only [parseCursor, h.earliest, hversioned]

theorem isDigits_toDigits : isDigits (Nat.toDigits 10 n) = true := by
  rw [isDigits, Bool.and_eq_true]
  refine ⟨by simp [Nat.toDigits_ne_nil], List.all_eq_true.mpr fun c hc => ?_⟩
  exact Nat.isDigit_of_mem_toDigits (by decide) (by decide) hc

theorem colon_notMem_toDigits : ':' ∉ Nat.toDigits 10 n := by
  intro h
  exact absurd (Nat.isDigit_of_mem_toDigits (by decide) (by decide) h) (by decide)

theorem digitsValue_toDigits : digitsValue (Nat.toDigits 10 n) = n := Nat.ofDigitChars_ten_toDigits

/-- The text of a cursor, part by part. -/
theorem toList_encodeCursor {x : ℚ} : (encodeCursor s x).toList =
    ['v', '1'] ++ ':' :: (s.transcriptStreamId.toList ++
      ':' :: (Nat.toDigits 10 s.transcriptEpoch ++ ':' :: (numberText x).toList)) := by
  have hversion : (toString cursorVersion).toList = ['1'] := by decide
  simp only [encodeCursor, String.toList_append, hversion]
  rw [show (toString s.transcriptEpoch).toList = Nat.toDigits 10 s.transcriptEpoch from Nat.toList_repr]
  simp

theorem toList_numberText : (numberText (n : ℚ)).toList = Nat.toDigits 10 n := by
  rw [numberText_natCast]
  exact Nat.toList_repr

theorem splitOn_encodeCursor : (encodeCursor s n).toList.splitOn ':' =
    [['v', '1']] ++ (s.transcriptStreamId.toList.splitOn ':' ++
      ([Nat.toDigits 10 s.transcriptEpoch] ++ [Nat.toDigits 10 n])) := by
  rw [toList_encodeCursor, toList_numberText, List.splitOn_append_cons_self,
    List.splitOn_append_cons_self, List.splitOn_append_cons_self, List.splitOn_eq_singleton,
    List.splitOn_eq_singleton colon_notMem_toDigits, List.splitOn_eq_singleton colon_notMem_toDigits]
  decide

/-- A versioned cursor is no plain offset. -/
theorem not_isDigits_encodeCursor {x : ℚ} : isDigits (encodeCursor s x).toList = false := by
  rw [toList_encodeCursor]
  rfl

theorem encodeCursor_ne_empty {x : ℚ} : encodeCursor s x ≠ "" := by
  intro h
  have := congrArg String.toList h
  rw [toList_encodeCursor] at this
  exact absurd this nofun

theorem parseCursor_of_splitOn {c : String} {version streamId epoch offset : List Char} (hne : c ≠ "")
    (hdigits : isDigits c.toList = false)
    (hsplit : c.toList.splitOn ':' = [version, streamId, epoch, offset]) :
    parseCursor (.text c) s = versionedCursor s version streamId epoch offset := by
  rw [parseCursor, if_neg hne, if_neg (by rw [hdigits]; exact nofun), hsplit]

/-- The parts that a cursor was written from. -/
theorem versionedCursor_digits {streamId : List Char} {epoch : Nat} :
    versionedCursor s' ['v', '1'] streamId (Nat.toDigits 10 epoch) (Nat.toDigits 10 n) =
      if within idChar 1 80 (String.ofList streamId) = true then
        if (1 ≤ epoch ∧ epoch ≤ maxSafeInteger) ∧ n ≤ maxSafeInteger then
          .ok ⟨n, decide (String.ofList streamId ≠ s'.transcriptStreamId ∨ epoch ≠ s'.transcriptEpoch)⟩
        else .error unsupportedCursor
      else .error invalidCursor := by
  have hversion : isDigits ['1'] = true ∧ digitsValue ['1'] = cursorVersion := by decide
  rw [versionedCursor, hversion.1, hversion.2, isDigits_toDigits, isDigits_toDigits,
    digitsValue_toDigits, digitsValue_toDigits]
  simp

/-- **A cursor is read as it was written**, by a session of its stream or of another one. -/
theorem parseCursor_encodeCursor (hstream : within idChar 1 80 s.transcriptStreamId = true)
    (hepoch : s.transcriptEpoch ≤ maxSafeInteger) (hn : n ≤ maxSafeInteger) :
    parseCursor (.text (encodeCursor s n)) s' =
      .ok ⟨n, decide (s.transcriptStreamId ≠ s'.transcriptStreamId ∨
        s.transcriptEpoch ≠ s'.transcriptEpoch)⟩ := by
  have hcolon : ':' ∉ s.transcriptStreamId.toList := by
    intro hmem
    rw [within, Bool.and_eq_true, List.all_eq_true] at hstream
    exact absurd (hstream.2 _ hmem) (by decide)
  have hsplit := splitOn_encodeCursor (s := s) (n := n)
  rw [List.splitOn_eq_singleton hcolon] at hsplit
  rw [parseCursor_of_splitOn encodeCursor_ne_empty not_isDigits_encodeCursor hsplit,
    versionedCursor_digits, String.ofList_toList, if_pos hstream, if_pos ⟨⟨s.epoch_pos, hepoch⟩, hn⟩]

/-- Where a cursor is read at all, it is read as that offset of that stream. -/
theorem parseCursor_encodeCursor_ok {requested : Requested}
    (h : parseCursor (.text (encodeCursor s n)) s' = .ok requested) :
    requested = ⟨n, decide (s.transcriptStreamId ≠ s'.transcriptStreamId ∨
      s.transcriptEpoch ≠ s'.transcriptEpoch)⟩ := by
  rcases hparts : s.transcriptStreamId.toList.splitOn ':' with _ | ⟨streamId, _ | ⟨part, parts⟩⟩
  · exact absurd hparts (List.splitOn_ne_nil _ _)
  · -- a stream without colons
    have hsplit := splitOn_encodeCursor (s := s) (n := n)
    have hstream : s.transcriptStreamId = String.ofList streamId := by
      have hjoin : [':'].intercalate (s.transcriptStreamId.toList.splitOn ':') =
          s.transcriptStreamId.toList := List.intercalate_splitOn ':'
      rw [hparts, List.intercalate_singleton] at hjoin
      rw [hjoin, String.ofList_toList]
    rw [hparts] at hsplit
    rw [parseCursor_of_splitOn encodeCursor_ne_empty not_isDigits_encodeCursor hsplit,
      versionedCursor_digits, ← hstream] at h
    split_ifs at h
    exact (Except.ok.inj h).symm
  · -- a stream with a colon gives more parts than a cursor has
    have hsplit := splitOn_encodeCursor (s := s) (n := n)
    rw [hparts] at hsplit
    rw [parseCursor, if_neg encodeCursor_ne_empty, not_isDigits_encodeCursor, if_neg (by simp), hsplit] at h
    rcases parts with _ | ⟨part', parts⟩
    · simp at h
    · simp at h

theorem point_notMem_toDigits : '.' ∉ Nat.toDigits 10 n := by
  intro h
  exact absurd (Nat.isDigit_of_mem_toDigits (by decide) (by decide) h) (by decide)

/-- A cursor tells its offset, and whether it is whole. -/
theorem encodeCursor_inj {x : ℚ} (hx : 0 ≤ x) (h : encodeCursor s x = encodeCursor s n) : x = n := by
  have htext := congrArg String.toList h
  rw [toList_encodeCursor, toList_encodeCursor, List.append_cancel_left_eq, List.cons_inj_right,
    List.append_cancel_left_eq, List.cons_inj_right, List.append_cancel_left_eq, List.cons_inj_right,
    toList_numberText] at htext
  by_cases hwhole : Whole x
  · obtain ⟨k, rfl⟩ := hwhole.exists_nat hx
    rw [toList_numberText] at htext
    have hdigits := congrArg digitsValue htext
    rw [digitsValue_toDigits, digitsValue_toDigits] at hdigits
    rw [hdigits]
  · -- a number that is not whole shows its point
    exact absurd (htext ▸ point_mem_numberText hwhole) point_notMem_toDigits

end Codec

end BegetBridge.Terminal
