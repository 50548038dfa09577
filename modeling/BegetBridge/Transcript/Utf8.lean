import BegetBridge.Core.Number
import BegetBridge.Transcript.Segments

/-!
# Pages of whole characters

A page of a transcript should end at a character boundary. `utf8SafePrefixLength` finds the end from
the lead byte of the last sequence in the page, which announces how long that sequence is.

In text, every sequence is as long as its lead byte announces, and the page holds whole characters,
one at least. Among arbitrary bytes the prefix may be empty though bytes remain: exactly where the
first byte announces more bytes than there are, and no second sequence begins within the page.

## Main definitions

* `utf8SequenceLength`, `utf8SafePrefixLength`: the two functions
* `decodeUtf8`: `buffer.toString("utf8")`
* `IsCharacter`: the bytes of a character, as these functions see them

## Main results

* `utf8SafePrefix_eq_zero_iff`: when a page is empty
* `utf8SafePrefix_of_characters`: a page of text
* `decodeUtf8_encode`: text decodes to itself, character by character
-/

namespace BegetBridge.Transcript

open Core

/-! ## The functions -/

/-- `(byte & 0xc0) === 0x80` -/
def continuation (byte : UInt8) : Bool := byte &&& 0xc0 == 0x80

/-- `utf8SequenceLength(byte)` -/
def utf8SequenceLength (byte : UInt8) : Nat :=
  if byte &&& 0x80 = 0 then 1
  else if byte &&& 0xe0 = 0xc0 then 2
  else if byte &&& 0xf0 = 0xe0 then 3
  else if byte &&& 0xf8 = 0xf0 then 4
  else 1

/-- The loop that walks back from an index to the lead byte of its sequence. -/
def leadIndex (buffer : Bytes) : Nat → Nat
  | 0 => 0
  | index + 1 => if continuation (buffer.getD (index + 1) 0) then leadIndex buffer index else index + 1

/-- `utf8SafePrefixLength(buffer, preferredLength)`, for a whole `preferredLength`. -/
def utf8SafePrefix (buffer : Bytes) (preferred : Nat) : Nat :=
  let length := min preferred buffer.length
  if length = 0 then 0
  else
    let lead := leadIndex buffer (length - 1)
    let expected := utf8SequenceLength (buffer.getD lead 0)
    let length := if length < lead + expected then lead else length
    if length = 0 then
      let first := utf8SequenceLength (buffer.getD 0 0)
      if first ≤ buffer.length then first else length
    else length

/-- `utf8SafePrefixLength(buffer, preferredLength)`. An index that is not whole finds no byte, which
counts as a sequence of its own. -/
def utf8SafePrefixLength (buffer : Bytes) (preferred : ℚ) : ℚ :=
  let length := min preferred buffer.length
  if Whole length then utf8SafePrefix buffer ⌊length⌋.toNat else length

/-! ## Decoding -/

/-- The bounds of the bytes that follow a lead byte in a well-formed sequence. -/
def following (lead : UInt8) : List (UInt8 × UInt8) :=
  if 0xc2 ≤ lead ∧ lead ≤ 0xdf then [(0x80, 0xbf)]
  else if lead = 0xe0 then [(0xa0, 0xbf), (0x80, 0xbf)]
  else if lead = 0xed then [(0x80, 0x9f), (0x80, 0xbf)]
  else if 0xe1 ≤ lead ∧ lead ≤ 0xef then [(0x80, 0xbf), (0x80, 0xbf)]
  else if lead = 0xf0 then [(0x90, 0xbf), (0x80, 0xbf), (0x80, 0xbf)]
  else if lead = 0xf4 then [(0x80, 0x8f), (0x80, 0xbf), (0x80, 0xbf)]
  else if 0xf1 ≤ lead ∧ lead ≤ 0xf3 then [(0x80, 0xbf), (0x80, 0xbf), (0x80, 0xbf)]
  else []

/-- How many bytes stay within these bounds. -/
def matching : List (UInt8 × UInt8) → Bytes → Nat
  | (low, high) :: bounds, byte :: bytes =>
    if low ≤ byte ∧ byte ≤ high then matching bounds bytes + 1 else 0
  | _, _ => 0

/-- The loop of `decodeUtf8`, in at most as many turns as there are bytes. -/
def decodeFrom : Nat → Bytes → List Char
  | 0, _ => []
  | _, [] => []
  | turns + 1, lead :: rest =>
    match (lead :: rest).toByteArray.utf8DecodeChar? 0 with
    | some c => c :: decodeFrom turns ((lead :: rest).drop c.utf8Size)
    | none => '\uFFFD' :: decodeFrom turns (rest.drop (matching (following lead) rest))

/-- `buffer.toString("utf8")`: every longest start of a sequence that is not well-formed becomes one
replacement character. -/
def decodeUtf8 (buffer : Bytes) : String := String.ofList (decodeFrom buffer.length buffer)

theorem decodeFrom_encode {turns : Nat} {text : List Char}
    (h : (text.flatMap String.utf8EncodeChar).length ≤ turns) :
    decodeFrom turns (text.flatMap String.utf8EncodeChar) = text := by
  induction text generalizing turns with
  | nil => cases turns <;> rfl
  | cons c text ih =>
    obtain ⟨lead, rest, hlead⟩ := List.exists_cons_of_ne_nil (String.utf8EncodeChar_ne_nil (c := c))
    have hlen := String.length_utf8EncodeChar c
    have hpos := c.utf8Size_pos
    rw [List.flatMap_cons, List.length_append, hlen] at h
    obtain ⟨turns, rfl⟩ := Nat.exists_eq_add_of_le' (show 1 ≤ turns by omega)
    have hdecode : ByteArray.utf8DecodeChar?
        (String.utf8EncodeChar c ++ text.flatMap String.utf8EncodeChar).toByteArray 0 = some c := by
      rw [List.toByteArray_append]
      exact ByteArray.utf8DecodeChar?_utf8EncodeChar_append
    rw [List.flatMap_cons]
    rw [hlead, List.cons_append] at hdecode ⊢
    rw [decodeFrom, hdecode, ← List.cons_append, ← hlead]
    show c :: decodeFrom turns (List.drop c.utf8Size _) = c :: text
    rw [← hlen, List.drop_left, ih (by omega)]

/-- **Text decodes to itself.** -/
theorem decodeUtf8_encode (text : List Char) :
    decodeUtf8 (text.flatMap String.utf8EncodeChar) = String.ofList text := by
  rw [decodeUtf8, decodeFrom_encode le_rfl]

/-! ## Characters -/

/-- The bytes of a character: a lead byte that announces their number, and continuation bytes. -/
def IsCharacter : Bytes → Prop
  | [] => False
  | lead :: tail => utf8SequenceLength lead = tail.length + 1 ∧ continuation lead = false ∧
      ∀ byte ∈ tail, continuation byte = true

theorem byte_induction {P : UInt8 → Prop} (h : ∀ n : Fin 256, P (UInt8.ofNat n)) (byte : UInt8) :
    P byte := by
  have := h ⟨byte.toNat, byte.toNat_lt⟩
  rwa [UInt8.ofNat_toNat] at this

theorem continuation_or (x : UInt8) : continuation (x &&& 0x3f ||| 0x80) = true := by
  revert x
  exact byte_induction (by decide +kernel)

theorem lead_two (x : UInt8) : utf8SequenceLength (x &&& 0x1f ||| 0xc0) = 2 ∧
    continuation (x &&& 0x1f ||| 0xc0) = false := by
  revert x
  exact byte_induction (by decide +kernel)

theorem lead_three (x : UInt8) : utf8SequenceLength (x &&& 0x0f ||| 0xe0) = 3 ∧
    continuation (x &&& 0x0f ||| 0xe0) = false := by
  revert x
  exact byte_induction (by decide +kernel)

example : utf8SequenceLength 0xe2 = 3 := by decide +kernel

theorem lead_four (x : UInt8) : utf8SequenceLength (x &&& 0x07 ||| 0xf0) = 4 ∧
    continuation (x &&& 0x07 ||| 0xf0) = false := by
  revert x
  exact byte_induction (by decide +kernel)

theorem lead_one {x : UInt8} (h : x ≤ 0x7f) : utf8SequenceLength x = 1 ∧ continuation x = false := by
  exact byte_induction (P := fun x => x ≤ 0x7f → utf8SequenceLength x = 1 ∧ continuation x = false)
    (by decide +kernel) x h

theorem utf8SequenceLength_bounds (byte : UInt8) :
    1 ≤ utf8SequenceLength byte ∧ utf8SequenceLength byte ≤ 4 := by
  unfold utf8SequenceLength
  split_ifs <;> decide

/-- Every encoded character is one. -/
theorem isCharacter_encode (c : Char) : IsCharacter (String.utf8EncodeChar c) := by
  rcases c.utf8Size_eq with h | h | h | h
  · rw [String.utf8EncodeChar_eq_singleton h]
    have hle : c.val.toUInt8 ≤ 0x7f := by
      have hval := UInt32.le_iff_toNat_le.mp (Char.utf8Size_eq_one_iff.mp h)
      rw [UInt8.le_iff_toNat_le, UInt32.toNat_toUInt8]
      exact (Nat.mod_le _ _).trans hval
    exact ⟨(lead_one hle).1, (lead_one hle).2, nofun⟩
  · rw [String.utf8EncodeChar_eq_cons_cons h]
    exact ⟨(lead_two _).1, (lead_two _).2, by simp [continuation_or]⟩
  · rw [String.utf8EncodeChar_eq_cons_cons_cons h]
    exact ⟨(lead_three _).1, (lead_three _).2, by simp [continuation_or]⟩
  · rw [String.utf8EncodeChar_eq_cons_cons_cons_cons h]
    exact ⟨(lead_four _).1, (lead_four _).2, by simp [continuation_or]⟩

/-! ## The prefix -/

section Prefix

variable {buffer : Bytes} {index preferred : Nat}

theorem leadIndex_le (buffer : Bytes) (index : Nat) : leadIndex buffer index ≤ index := by
  induction index with
  | zero => exact le_rfl
  | succ index ih =>
    rw [leadIndex]
    split
    · exact ih.trans (Nat.le_succ index)
    · exact le_rfl

/-- The walk passes continuation bytes only. -/
theorem continuation_of_leadIndex_lt {i : Nat} (hlt : leadIndex buffer index < i) (hle : i ≤ index) :
    continuation (buffer.getD i 0) = true := by
  induction index with
  | zero => omega
  | succ index ih =>
    rw [leadIndex] at hlt
    split at hlt
    · rename_i hcont
      rcases hle.eq_or_lt with rfl | hle
      · exact hcont
      · exact ih hlt (Nat.lt_succ_iff.mp hle)
    · omega

/-- It ends at the last byte that is no continuation byte. -/
theorem leadIndex_eq {lead : Nat} (hle : lead ≤ index)
    (hlead : lead = 0 ∨ continuation (buffer.getD lead 0) = false)
    (hcont : ∀ i, lead < i → i ≤ index → continuation (buffer.getD i 0) = true) :
    leadIndex buffer index = lead := by
  induction index with
  | zero => exact (Nat.le_zero.mp hle).symm
  | succ index ih =>
    rw [leadIndex]
    rcases hle.eq_or_lt with rfl | hlt
    · rw [if_neg]
      rw [hlead.resolve_left (Nat.succ_ne_zero index)]
      exact nofun
    · rw [if_pos (hcont _ hlt le_rfl)]
      exact ih (Nat.lt_succ_iff.mp hlt) fun i hi hle => hcont i hi (hle.trans (Nat.le_succ index))

/-- **When a page is empty**: the first byte announces more bytes than there are, and only
continuation bytes follow it in the page. -/
theorem utf8SafePrefix_eq_zero_iff (hpos : 1 ≤ preferred) (hbuffer : buffer ≠ []) :
    utf8SafePrefix buffer preferred = 0 ↔ buffer.length < utf8SequenceLength (buffer.getD 0 0) ∧
      ∀ i, 0 < i → i < min preferred buffer.length → continuation (buffer.getD i 0) = true := by
  have hlen := List.length_pos_iff.mpr hbuffer
  have hfirst := utf8SequenceLength_bounds (buffer.getD 0 0)
  rw [utf8SafePrefix]
  set length := min preferred buffer.length with hlength
  have hpage : 0 < length ∧ length ≤ buffer.length := by omega
  simp only [if_neg hpage.1.ne']
  have hle := leadIndex_le buffer (length - 1)
  have hexpected := utf8SequenceLength_bounds (buffer.getD (leadIndex buffer (length - 1)) 0)
  constructor
  · intro h
    by_cases hshort : length < leadIndex buffer (length - 1) +
        utf8SequenceLength (buffer.getD (leadIndex buffer (length - 1)) 0)
    · rw [if_pos hshort] at h
      by_cases hzero : leadIndex buffer (length - 1) = 0
      · rw [if_pos hzero] at h
        refine ⟨?_, fun i hi hlt => continuation_of_leadIndex_lt (hzero ▸ hi) (by omega)⟩
        by_contra hfits
        rw [if_pos (not_lt.mp hfits)] at h
        omega
      · rw [if_neg hzero] at h
        exact absurd h hzero
    · rw [if_neg hshort, if_neg hpage.1.ne'] at h
      exact absurd h hpage.1.ne'
  · rintro ⟨hannounced, hcont⟩
    have hlead : leadIndex buffer (length - 1) = 0 :=
      leadIndex_eq (Nat.zero_le _) (.inl rfl) fun i hi hle => hcont i hi (by omega)
    have hshort : length < 0 + utf8SequenceLength (buffer.getD 0 0) := by omega
    simp only [hlead, if_pos hshort, if_neg (not_le.mpr hannounced), ite_self]

theorem utf8SafePrefix_le : utf8SafePrefix buffer preferred ≤ buffer.length := by
  rw [utf8SafePrefix]
  have hle := leadIndex_le buffer (min preferred buffer.length - 1)
  simp only []
  split_ifs <;> omega

/-! ### Pages of text -/

variable {chars : List Bytes}

theorem IsCharacter.length_pos {e : Bytes} (h : IsCharacter e) : 0 < e.length := by
  cases e with
  | nil => exact h.elim
  | cons lead tail => exact Nat.succ_pos _

theorem IsCharacter.length_le {e : Bytes} (h : IsCharacter e) : e.length ≤ 4 := by
  cases e with
  | nil => exact h.elim
  | cons lead tail =>
    rw [List.length_cons, ← h.1]
    exact (utf8SequenceLength_bounds lead).2

/-- The character that holds a byte. -/
theorem exists_character {i : Nat} (hi : i < chars.flatten.length) :
    ∃ before e rest, chars = before ++ e :: rest ∧ before.flatten.length ≤ i ∧
      i < before.flatten.length + e.length := by
  induction chars generalizing i with
  | nil => exact absurd hi (Nat.not_lt_zero i)
  | cons e chars ih =>
    by_cases hlt : i < e.length
    · exact ⟨[], e, chars, rfl, Nat.zero_le i, by simpa using hlt⟩
    · rw [List.flatten_cons, List.length_append] at hi
      obtain ⟨before, e', rest, rfl, hle, hlt'⟩ := ih (i := i - e.length) (by omega)
      refine ⟨e :: before, e', rest, rfl, ?_, ?_⟩ <;>
        rw [List.flatten_cons, List.length_append] <;> omega

/-- The bytes of a character in a page. -/
theorem getD_character {before rest : List Bytes} {e : Bytes} {m j : Nat} (hj : j < e.length)
    (hm : before.flatten.length + j < m) :
    ((before ++ e :: rest).flatten.take m).getD (before.flatten.length + j) 0 = e.getD j 0 := by
  rw [List.getD_eq_getElem?_getD, List.getD_eq_getElem?_getD, List.getElem?_take_of_lt hm,
    List.flatten_append, List.getElem?_append_right (Nat.le_add_right _ _), Nat.add_sub_cancel_left,
    List.flatten_cons, List.getElem?_append_left hj]

/-- **A page of text** holds whole characters, and one at least. -/
theorem utf8SafePrefix_of_characters {m : Nat} (hchars : ∀ e ∈ chars, IsCharacter e)
    (hne : chars ≠ []) (hpos : 1 ≤ preferred)
    (hm : preferred + 3 ≤ m ∨ chars.flatten.length ≤ m) :
    ∃ k, 0 < k ∧ k ≤ chars.length ∧
      utf8SafePrefix (chars.flatten.take m) preferred = (chars.take k).flatten.length := by
  have htotal : 0 < chars.flatten.length := by
    obtain ⟨e, rest, rfl⟩ := List.exists_cons_of_ne_nil hne
    have := (hchars e List.mem_cons_self).length_pos
    rw [List.flatten_cons, List.length_append]
    omega
  have hbuffer : (chars.flatten.take m).length = min m chars.flatten.length := List.length_take ..
  set length := min preferred (chars.flatten.take m).length with hlength
  have hpage : 0 < length ∧ length ≤ m ∧ length ≤ chars.flatten.length := by omega
  have hlast : length - 1 < chars.flatten.length := by omega
  obtain ⟨before, e, rest, rfl, hle, hlt⟩ := exists_character hlast
  have he := hchars e (by simp)
  obtain ⟨lead, tail, rfl⟩ := List.exists_cons_of_length_pos he.length_pos
  obtain ⟨hannounced, hstart, hcont⟩ := id he
  have hfour := he.length_le
  -- the walk ends at the lead byte of that character
  have hget : ∀ j, j < tail.length + 1 → before.flatten.length + j < m →
      ((before ++ (lead :: tail) :: rest).flatten.take m).getD (before.flatten.length + j) 0 =
        (lead :: tail).getD j 0 := fun j hj hjm => getD_character hj hjm
  have hlead : leadIndex ((before ++ (lead :: tail) :: rest).flatten.take m) (length - 1) =
      before.flatten.length := by
    refine leadIndex_eq hle (.inr ?_) fun i hi hle' => ?_
    · exact (congrArg continuation (hget 0 (Nat.succ_pos _) (by omega))).trans hstart
    · obtain ⟨j, rfl⟩ := Nat.exists_eq_add_of_lt hi
      rw [List.length_cons] at hlt
      have hj : j < tail.length := by omega
      rw [Nat.add_assoc, hget (j + 1) (by omega) (by omega), List.getD_cons_succ]
      rw [List.getD_eq_getElem?_getD, List.getElem?_eq_getElem hj, Option.getD_some]
      exact hcont _ (List.getElem_mem hj)
  have hexpected : utf8SequenceLength
      (((before ++ (lead :: tail) :: rest).flatten.take m).getD before.flatten.length 0) =
        tail.length + 1 :=
    (congrArg utf8SequenceLength (hget 0 (Nat.succ_pos _) (by omega))).trans hannounced
  rw [List.length_cons] at hlt hfour
  have hflatten : (before ++ (lead :: tail) :: rest).flatten.length =
      before.flatten.length + (tail.length + 1 + rest.flatten.length) := by
    simp only [List.flatten_append, List.flatten_cons, List.length_append, List.length_cons]
  simp only [utf8SafePrefix, ← hlength, if_neg hpage.1.ne', hlead, hexpected]
  by_cases hshort : length < before.flatten.length + (tail.length + 1)
  · rw [if_pos hshort]
    by_cases hzero : before.flatten.length = 0
    · -- the page ends in the first character, which is read whole
      obtain rfl : before = [] := by
        rcases before with _ | ⟨e, before⟩
        · rfl
        · have := (hchars e (by simp)).length_pos
          rw [List.flatten_cons, List.length_append] at hzero
          omega
      rw [List.flatten_nil, List.length_nil] at hexpected hflatten
      refine ⟨1, Nat.one_pos, by simp, ?_⟩
      rw [if_pos hzero, hexpected, if_pos (by omega)]
      simp
    · refine ⟨before.length, ?_, by simp, ?_⟩
      · exact List.length_pos_iff.mpr fun h => hzero (by rw [h]; rfl)
      · rw [if_neg hzero, List.take_left]
  · rw [if_neg hshort, if_neg hpage.1.ne']
    refine ⟨before.length + 1, Nat.succ_pos _, by simp, ?_⟩
    rw [List.take_add_one, List.take_left, List.getElem?_append_right le_rfl, Nat.sub_self]
    simp only [List.getElem?_cons_zero, Option.toList_some, List.flatten_append,
      List.flatten_singleton, List.length_append, List.length_cons]
    omega

end Prefix

end BegetBridge.Transcript
