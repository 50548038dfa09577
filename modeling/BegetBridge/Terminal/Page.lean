import BegetBridge.Terminal.ReadOutput

/-!
# The page of a transcript

`pageOf` is the page that a read returns, computed from the bytes of the transcript alone.

## Main definitions

* `position`: where in the transcript a read starts
* `chunkOf`, `pageOf`: the page from there on
-/

namespace BegetBridge.Terminal

open Core Relational Interleaving Transcript

/-! ## Pages of bytes -/

/-- The range of a transcript. -/
def wholeRange (s : Session) (text : Bytes) : OutputRange where
  earliest := s.transcriptEarliestOffset
  «end» := s.transcriptEarliestOffset + text.length
  physicalSize := text.length
  segments := []

/-- The position in a transcript of `n` bytes from `earliest` on that a read starts from. -/
def position (earliest n : Nat) (requested : Requested) : Nat :=
  if requested.mismatch then 0 else min (requested.offset - earliest) n

/-- How many bytes a read skips, of a character that its start cuts. -/
def skippedOf (rest : Bytes) : Nat := ((rest.take 4).takeWhile continuation).length

/-- The position of the first byte that a read returns. -/
def firstByte (earliest : Nat) (text : Bytes) (requested : Requested) : Nat :=
  position earliest text.length requested +
    skippedOf (text.drop (position earliest text.length requested))

/-- What a read finds in the bytes from its start on. -/
def chunkOf (rest : Bytes) (requestedMax : ℚ) : Except Failure Chunk :=
  let after := rest.drop (skippedOf rest)
  let length : ℚ := min after.length (toDouble (requestedMax + 3))
  if Whole length then
    let buffer := after.take ⌊length⌋.toNat
    .ok ⟨skippedOf rest, buffer, utf8SafePrefixLength buffer (min requestedMax buffer.length)⟩
  else .error (.message "Invalid transcript read bounds")

/-- The page of a transcript. -/
def pageOf (id : String) (alive : Bool) (s : Session) (text : Bytes) (requested : Requested)
    (maxBytes : Number) : Except Failure Response :=
  let k := position s.transcriptEarliestOffset text.length requested
  let start := (s.transcriptEarliestOffset : ℚ) + k
  let gap := (startOf requested (wholeRange s text)).2
  if k = text.length then .ok (response id alive s (wholeRange s text) start "" gap)
  else (chunkOf (text.drop k) (requestedMax maxBytes)).map
    (chunkResponse id alive s (wholeRange s text) start gap)

theorem position_le (earliest n : Nat) (requested : Requested) : position earliest n requested ≤ n := by
  rw [position]
  split
  · exact Nat.zero_le n
  · exact min_le_right _ _

theorem requestedMax_bounds (x : Number) : 1 ≤ requestedMax x ∧ requestedMax x ≤ 262144 := by
  cases x with
  | finite q => exact ⟨le_max_left _ _, max_le (by norm_num) (min_le_right _ _)⟩
  | nan | infinity | negInfinity => norm_num [requestedMax]

theorem floor_requestedMax_le (x : Number) : ⌊requestedMax x + 3⌋.toNat ≤ maxSafeInteger := by
  have hhigh := (requestedMax_bounds x).2
  have hle : ⌊requestedMax x + 3⌋ ≤ (262147 : ℕ) := Int.floor_le_iff.mpr (by push_cast; linarith)
  rw [maxSafeInteger]
  omega

/-- The largest buffer of a page. -/
theorem toDouble_requestedMax_bounds (x : Number) :
    4 ≤ toDouble (requestedMax x + 3) ∧ toDouble (requestedMax x + 3) ≤ readLimit := by
  obtain ⟨hlow, hhigh⟩ := requestedMax_bounds x
  have hfloor := floor_requestedMax_le x
  constructor
  · exact_mod_cast le_toDouble (n := 4) hfloor (by push_cast; linarith)
  · exact toDouble_le hfloor (by rw [readLimit]; push_cast; linarith)

theorem requestedMax_natCast {n : Nat} (hn : 1 ≤ n) :
    requestedMax (.finite n) = (min n 262144 : ℕ) := by
  have hne : (n : ℚ) ≠ 0 := by exact_mod_cast (Nat.one_le_iff_ne_zero.mp hn)
  have hone : (1 : ℚ) ≤ min (n : ℚ) 262144 := le_min (by exact_mod_cast hn) (by norm_num)
  rw [requestedMax, if_neg hne, max_eq_right hone]
  push_cast
  rfl

theorem startOf_wholeRange {s : Session} {text : Bytes} {requested : Requested} :
    (startOf requested (wholeRange s text)).1 =
      s.transcriptEarliestOffset + position s.transcriptEarliestOffset text.length requested := by
  set e := s.transcriptEarliestOffset with he
  rw [startOf, position]
  simp only [wholeRange, ← he]
  by_cases hmismatch : requested.mismatch = true
  · simp [hmismatch]
  · simp only [hmismatch, Bool.false_eq_true, if_false]
    by_cases hbefore : requested.offset < e
    · rw [if_pos (by exact_mod_cast hbefore), Nat.sub_eq_zero_of_le hbefore.le]
      simp
    · rw [if_neg (by exact_mod_cast hbefore)]
      by_cases hahead : e + text.length < requested.offset
      · rw [if_pos (by exact_mod_cast hahead), min_eq_right (by omega)]
      · rw [if_neg (by exact_mod_cast hahead), min_eq_left (by omega), ← Nat.cast_add,
          Nat.add_sub_cancel' (not_lt.mp hbefore)]

/-! ## Chunks -/

section Chunks

variable {rest : Bytes} {m : ℚ} {chunk : Chunk} {buffer : Bytes} {n : Nat}

theorem skippedOf_le (rest : Bytes) : skippedOf rest ≤ rest.length := by
  refine (List.takeWhile_prefix _).length_le.trans ?_
  rw [List.length_take]
  exact min_le_right _ _

theorem utf8SafePrefixLength_natCast :
    utf8SafePrefixLength buffer n = (utf8SafePrefix buffer n : ℕ) := by
  have hmin : min (n : ℚ) buffer.length = ((min n buffer.length : ℕ) : ℚ) := by
    push_cast
    rfl
  rw [utf8SafePrefixLength, hmin, if_pos (whole_natCast _), Int.floor_natCast, Int.toNat_natCast]
  simp only [utf8SafePrefix, min_assoc, min_self]

/-- The chunk of a whole limit. -/
theorem chunkOf_natCast (hn : n + 3 ≤ maxSafeInteger) : chunkOf rest n =
    .ok ⟨skippedOf rest, (rest.drop (skippedOf rest)).take (n + 3),
      (utf8SafePrefix ((rest.drop (skippedOf rest)).take (n + 3)) n : ℕ)⟩ := by
  set after := rest.drop (skippedOf rest) with hafter
  have hlength : min (after.length : ℚ) (toDouble ((n : ℚ) + 3)) =
      ((min after.length (n + 3) : ℕ) : ℚ) := by
    rw [show (n : ℚ) + 3 = ((n + 3 : ℕ) : ℚ) by push_cast; rfl, toDouble_natCast hn]
    push_cast
    rfl
  have htake : after.take (min after.length (n + 3)) = after.take (n + 3) := by
    rw [List.take_eq_take_iff, min_comm after.length, min_assoc, min_self]
  simp only [chunkOf, ← hafter, hlength, if_pos (whole_natCast _), Int.floor_natCast, Int.toNat_natCast,
    htake]
  have hmin : min (n : ℚ) (after.take (n + 3)).length =
      ((min n (after.take (n + 3)).length : ℕ) : ℚ) := by
    push_cast
    rfl
  rw [hmin, utf8SafePrefixLength_natCast]
  simp only [utf8SafePrefix, min_assoc, min_self]

/-- What a chunk returns, where no limit cuts it, or a whole one. -/
theorem chunkOf_whole (h : chunkOf rest m = .ok chunk) (hm : 0 ≤ m)
    (hwhole : Whole m ∨ ((rest.drop (skippedOf rest)).length : ℚ) ≤ m) :
    ∃ n ≤ (rest.drop (skippedOf rest)).length, chunk.safeLength = n ∧
      chunk.buffer.take n = (rest.drop (skippedOf rest)).take n := by
  set after := rest.drop (skippedOf rest) with hafter
  simp only [chunkOf, ← hafter] at h
  split at h
  · obtain rfl := Except.ok.inj h
    set buffer := after.take ⌊min (after.length : ℚ) (toDouble (m + 3))⌋.toNat with hbuffer
    have hpre : buffer <+: after := List.take_prefix _ _
    -- the limit of the page is whole
    obtain ⟨n, hn⟩ : ∃ n : Nat, min m buffer.length = n := by
      rcases hwhole with hwhole | hle
      · obtain ⟨n, rfl⟩ := hwhole.exists_nat hm
        exact ⟨min n buffer.length, by push_cast; rfl⟩
      · refine ⟨buffer.length, min_eq_right (le_trans ?_ hle)⟩
        exact_mod_cast hpre.length_le
    refine ⟨utf8SafePrefix buffer n, utf8SafePrefix_le.trans hpre.length_le, ?_, ?_⟩
    · rw [hn, utf8SafePrefixLength_natCast]
    · obtain ⟨t, ht⟩ := hpre
      rw [← ht, List.take_append_of_le_length utf8SafePrefix_le]
  · exact absurd h nofun

/-- What a chunk returns, where a limit cuts it that is not whole. -/
theorem chunkOf_fractional (h : chunkOf rest m = .ok chunk) (hm : 0 ≤ m)
    (hfloor : ⌊m + 3⌋.toNat ≤ maxSafeInteger) (hwhole : ¬Whole m)
    (hlt : m < ((rest.drop (skippedOf rest)).length : ℚ)) :
    chunk.safeLength = m ∧
      chunk.buffer.take ⌊m⌋.toNat = (rest.drop (skippedOf rest)).take ⌊m⌋.toNat := by
  set after := rest.drop (skippedOf rest) with hafter
  simp only [chunkOf, ← hafter] at h
  split at h
  · rename_i hlength
    obtain rfl := Except.ok.inj h
    set length := min (after.length : ℚ) (toDouble (m + 3)) with hlen
    have hm0 : ((⌊m⌋.toNat : ℕ) : ℚ) = ⌊m⌋ := by
      exact_mod_cast Int.toNat_of_nonneg (Int.floor_nonneg.mpr hm)
    have hpast : m < toDouble (m + 3) := by
      have hle := le_toDouble (x := m + 3) (n := ⌊m⌋.toNat + 3) hfloor (by
        push_cast
        rw [hm0]
        linarith [Int.floor_le m])
      push_cast at hle
      rw [hm0] at hle
      linarith [Int.lt_floor_add_one m]
    have hmlt : m < length := lt_min hlt hpast
    obtain ⟨l, hl⟩ := hlength.exists_nat (hm.trans hmlt.le)
    have hle : l ≤ after.length := by exact_mod_cast hl.symm.le.trans (min_le_left _ _)
    rw [hl, Int.floor_natCast, Int.toNat_natCast]
    have hbuffer : (after.take l).length = l := by
      rw [List.length_take]
      exact min_eq_left hle
    rw [hl] at hmlt
    constructor
    · rw [hbuffer, min_eq_left hmlt.le, utf8SafePrefixLength, hbuffer, min_eq_left hmlt.le,
        if_neg hwhole]
    · have hfl : ⌊m⌋.toNat ≤ l := by
        have : ((⌊m⌋.toNat : ℕ) : ℚ) ≤ l := hm0.le.trans ((Int.floor_le m).trans hmlt.le)
        exact_mod_cast this
      rw [List.take_take, min_eq_left hfl]
  · exact absurd h nofun

end Chunks

/-! ## Responses -/

section Responses

variable {id : String} {alive : Bool} {s : Session} {text : Bytes} {requested : Requested} {x : Number}
  {resp : Response}

theorem firstByte_le (earliest : Nat) (text : Bytes) (requested : Requested) :
    firstByte earliest text requested ≤ text.length := by
  have hk := position_le earliest text.length requested
  have hskip := skippedOf_le (text.drop (position earliest text.length requested))
  rw [List.length_drop] at hskip
  rw [firstByte]
  omega

/-- No gap is reported at the start of a read exactly where it starts where it was asked to. -/
theorem startOf_gap_iff : (startOf requested (wholeRange s text)).2 = none ↔
    requested.mismatch = false ∧ requested.offset = s.transcriptEarliestOffset +
      position s.transcriptEarliestOffset text.length requested := by
  simp only [startOf, wholeRange, position]
  by_cases hmismatch : requested.mismatch = true
  · simp [hmismatch]
  by_cases hbefore : (requested.offset : ℚ) < s.transcriptEarliestOffset
  · have hlt : requested.offset < s.transcriptEarliestOffset := by exact_mod_cast hbefore
    simp only [hmismatch, hbefore, Bool.false_eq_true, if_false, if_true, reduceCtorEq, false_iff]
    omega
  have hle : s.transcriptEarliestOffset ≤ requested.offset := by exact_mod_cast not_lt.mp hbefore
  by_cases hahead : (s.transcriptEarliestOffset : ℚ) + text.length < requested.offset
  · have hlt : s.transcriptEarliestOffset + text.length < requested.offset := by exact_mod_cast hahead
    simp only [hmismatch, hbefore, hahead, Bool.false_eq_true, if_false, if_true, reduceCtorEq, false_iff]
    omega
  · have hge : requested.offset ≤ s.transcriptEarliestOffset + text.length := by
      exact_mod_cast not_lt.mp hahead
    refine iff_of_true (by simp [hmismatch, hbefore, hahead]) ⟨by simpa using hmismatch, ?_⟩
    rw [if_neg hmismatch, min_eq_left (by omega)]
    omega

/-- The position at which a read starts from a cursor of its session. -/
theorem position_of_cursor {earliest n last : Nat}
    (h : parseCursor (.text (encodeCursor s last)) s = .ok requested) :
    position earliest n requested = min (last - earliest) n := by
  rw [parseCursor_encodeCursor_ok h, position, if_neg (by simp)]

/-- **What a page says**: it ends where the bytes after its first one end, and a gap tells that its first
byte is not the one requested. -/
theorem pageOf_ok (h : pageOf id alive s text requested x = .ok resp)
    (hsafe : s.transcriptEarliestOffset + text.length ≤ maxSafeInteger) :
    ∃ chunk, (chunkOf (text.drop (position s.transcriptEarliestOffset text.length requested))
        (requestedMax x) = .ok chunk ∨
          position s.transcriptEarliestOffset text.length requested = text.length ∧
            chunk = ⟨0, [], 0⟩) ∧
      resp.cursor = encodeCursor s (toDouble
        ((s.transcriptEarliestOffset + firstByte s.transcriptEarliestOffset text requested : ℕ) +
          chunk.safeLength)) ∧
      resp.output = decodeUtf8 (chunk.buffer.take ⌊chunk.safeLength⌋.toNat) ∧
      resp.hasMore = decide (toDouble
        ((s.transcriptEarliestOffset + firstByte s.transcriptEarliestOffset text requested : ℕ) +
          chunk.safeLength) < s.transcriptEarliestOffset + text.length) ∧
      (resp.gap = none ↔ requested.mismatch = false ∧ requested.offset =
        s.transcriptEarliestOffset + firstByte s.transcriptEarliestOffset text requested) := by
  have hk := position_le s.transcriptEarliestOffset text.length requested
  have hfirst := firstByte_le s.transcriptEarliestOffset text requested
  rw [pageOf] at h
  set e := s.transcriptEarliestOffset with he
  set k := position e text.length requested with hkdef
  split at h
  · -- nothing is left
    rename_i hdone
    obtain rfl := Except.ok.inj h
    have hzero : firstByte e text requested = k := by
      rw [firstByte, ← hkdef, hdone, List.drop_length]
      rfl
    have hend : toDouble ((e + firstByte e text requested : ℕ) + (0 : ℚ)) = e + k := by
      rw [add_zero, toDouble_natCast (by omega), hzero]
      push_cast
      rfl
    refine ⟨⟨0, [], 0⟩, .inr ⟨hdone, rfl⟩, ?_, rfl, ?_, ?_⟩
    · rw [hend]
      rfl
    · rw [hend]
      rfl
    · rw [hzero]
      exact startOf_gap_iff
  · rename_i hmore
    rcases hchunk : chunkOf (text.drop k) (requestedMax x) with err | chunk
    · rw [hchunk] at h
      exact absurd h nofun
    · rw [hchunk] at h
      obtain rfl := Except.ok.inj h
      have hskipped : chunk.skipped = skippedOf (text.drop k) := by
        rw [chunkOf] at hchunk
        split at hchunk
        · rw [← Except.ok.inj hchunk]
        · exact absurd hchunk nofun
      have hstart : toDouble ((e : ℚ) + k + chunk.skipped) = (e + firstByte e text requested : ℕ) := by
        have hsum : (e : ℚ) + k + chunk.skipped = ((e + firstByte e text requested : ℕ) : ℚ) := by
          rw [hskipped, firstByte, ← hkdef]
          push_cast
          rw [add_assoc]
        rw [hsum, toDouble_natCast (by omega)]
      refine ⟨chunk, .inl rfl, ?_, rfl, ?_, ?_⟩
      · rw [← hstart]
        rfl
      · rw [← hstart]
        rfl
      · have hfirst : firstByte e text requested = k + chunk.skipped := by
          rw [hskipped]
          rfl
        have hposition : requested.mismatch = false → k = min (requested.offset - e) text.length := by
          intro hmismatch
          rw [hkdef, position, if_neg (by rw [hmismatch]; exact nofun)]
        simp only [chunkResponse, response]
        by_cases hskip : 0 < chunk.skipped
        · -- a skip is a gap, and the first byte is beyond the position asked for
          rw [if_pos hskip]
          constructor
          · intro hgap
            rcases hgap₀ : (startOf requested (wholeRange s text)).2 with _ | gap
            · rw [hgap₀] at hgap
              exact absurd hgap nofun
            · rw [hgap₀] at hgap
              exact absurd hgap nofun
          · rintro ⟨hmismatch, hoffset⟩
            have := hposition hmismatch
            omega
        · rw [if_neg hskip, hfirst, Nat.eq_zero_of_not_pos hskip, Nat.add_zero]
          exact startOf_gap_iff

/-- A cursor of another stream is reported so. -/
theorem pageOf_stream_changed (h : pageOf id alive s text requested x = .ok resp)
    (hmismatch : requested.mismatch = true) :
    ∃ gap, resp.gap = some gap ∧ gap.reason = .stream_changed := by
  have hgap : (startOf requested (wholeRange s text)).2 =
      some ⟨.stream_changed, requested.offset, s.transcriptEarliestOffset⟩ := by
    rw [startOf, hmismatch]
    rfl
  rw [pageOf, hgap] at h
  split at h
  · obtain rfl := Except.ok.inj h
    exact ⟨_, rfl, rfl⟩
  · rcases hchunk : chunkOf (text.drop (position s.transcriptEarliestOffset text.length requested))
        (requestedMax x) with err | chunk
    · rw [hchunk] at h
      exact absurd h nofun
    · rw [hchunk] at h
      obtain rfl := Except.ok.inj h
      refine ⟨⟨.stream_changed, requested.offset, s.transcriptEarliestOffset⟩, ?_, rfl⟩
      simp only [chunkResponse, response, Option.some_or, ite_self]

/-- How many bytes a page returns after its first byte, of a whole size. -/
def pageLength (after : Bytes) (n : Nat) : Nat :=
  utf8SafePrefix (after.take (min n 262144 + 3)) (min n 262144)

/-- **The page of a whole size.** -/
theorem pageOf_natCast {n : Nat} (hn : 1 ≤ n)
    (h : pageOf id alive s text requested (.finite n) = .ok resp)
    (hsafe : s.transcriptEarliestOffset + text.length ≤ maxSafeInteger) :
    let a := firstByte s.transcriptEarliestOffset text requested
    let length := pageLength (text.drop a) n
    a + length ≤ text.length ∧
      resp.cursor = encodeCursor s (s.transcriptEarliestOffset + a + length : ℕ) ∧
      resp.output = decodeUtf8 ((text.drop a).take length) ∧
      resp.hasMore = decide (a + length < text.length) := by
  obtain ⟨chunk, hchunk, hcursor, houtput, hmore, -⟩ := pageOf_ok h hsafe
  have hle := firstByte_le s.transcriptEarliestOffset text requested
  set e := s.transcriptEarliestOffset with he
  set a := firstByte e text requested with ha
  intro a' length
  obtain ⟨hlength, hsafeLength, hbytes⟩ : a + length ≤ text.length ∧ chunk.safeLength = (length : ℕ) ∧
      chunk.buffer.take length = (text.drop a).take length := by
    have hpre : length ≤ ((text.drop a).take (min n 262144 + 3)).length := utf8SafePrefix_le
    rcases hchunk with hchunk | ⟨hdone, rfl⟩
    · have hdrop : (text.drop (position e text.length requested)).drop
          (skippedOf (text.drop (position e text.length requested))) = text.drop a := by
        rw [List.drop_drop, ha, firstByte]
      have hlimit : min n 262144 + 3 ≤ maxSafeInteger := by
        rw [maxSafeInteger]
        omega
      rw [requestedMax_natCast hn, chunkOf_natCast hlimit, hdrop] at hchunk
      obtain rfl := Except.ok.inj hchunk
      refine ⟨?_, rfl, ?_⟩
      · have htake := hpre.trans (List.take_prefix _ _).length_le
        rw [List.length_drop] at htake
        omega
      · rw [List.take_take]
        congr 1
        rw [List.length_take] at hpre
        omega
    · have haend : a = text.length := by
        rw [ha, firstByte, hdone, List.drop_length]
        rfl
      have hzero : length = 0 := by
        rw [haend, List.drop_length, List.take_nil] at hpre
        exact Nat.le_zero.mp hpre
      rw [hzero, haend]
      exact ⟨le_rfl, rfl, by simp⟩
  have hsum : toDouble ((e + a : ℕ) + chunk.safeLength) = (e + a + length : ℕ) := by
    rw [hsafeLength, ← Nat.cast_add, toDouble_natCast (by omega)]
  refine ⟨hlength, ?_, ?_, ?_⟩
  · rw [hcursor, hsum]
  · rw [houtput, hsafeLength, Int.floor_natCast, Int.toNat_natCast, hbytes]
  · rw [hmore, hsum, decide_eq_decide, ← Nat.cast_add, Nat.cast_lt]
    omega

end Responses

end BegetBridge.Terminal
