import BegetBridge.Terminal.ReadSpecs

/-!
# Reads that skip nothing

A read returns the bytes from one position of the transcript to another one, and its cursor tells where
they end. Wherever the first of them is not the byte that was asked for, the response reports a gap, so
that reads which follow each other's cursors leave no byte out unnoticed.

The one exception is a page size that is not whole, where it cuts the page: the cursor then stands
between two bytes.

## Main definitions

* `Returns`: a response returns a range of bytes
* `Faithful`: it returns a range, and tells where that is not the one requested
* `Cut`: a page size cuts a page between two bytes

## Main results

* `readOutput_faithful`: every read whose page is not cut so
-/

namespace BegetBridge.Terminal

open Core Relational Interleaving Transcript

/-- The response returns the bytes of the transcript from `a` to `b`. -/
structure Returns (s : Session) (text : Bytes) (resp : Response) (a b : Nat) : Prop where
  le : a ≤ b
  le_length : b ≤ text.length
  cursor : resp.cursor = encodeCursor s (s.transcriptEarliestOffset + b : ℕ)
  output : resp.output = decodeUtf8 ((text.drop a).take (b - a))

/-- The response returns a range of bytes. Where it reports no gap, that range begins at the position
requested, and so where the range of an earlier response ends, if the request is its cursor. -/
def Faithful (s : Session) (text : Bytes) (cursor : CursorValue) (requested : Requested)
    (resp : Response) : Prop :=
  ∃ a b, Returns s text resp a b ∧ (resp.gap = none →
    requested.mismatch = false ∧ requested.offset = s.transcriptEarliestOffset + a ∧
    ∀ (s₁ : Session) (end₁ : Nat), cursor = .text (encodeCursor s₁ end₁) →
      end₁ = s.transcriptEarliestOffset + a)

/-- The page size ends a page between two bytes. -/
def Cut (earliest : Nat) (text : Bytes) (requested : Requested) (maxBytes : Number) : Prop :=
  ¬Whole (requestedMax maxBytes) ∧
    requestedMax maxBytes < (text.length - firstByte earliest text requested : ℕ)

/-- The offset at which a page that is cut so ends. -/
def cutOffset (earliest : Nat) (text : Bytes) (requested : Requested) (maxBytes : Number) : ℚ :=
  toDouble ((earliest + firstByte earliest text requested : ℕ) + requestedMax maxBytes)

section Pages

variable {id : String} {alive : Bool} {s : Session} {text : Bytes} {requested : Requested}
  {x : Number} {resp : Response} {cursor : CursorValue}

theorem Faithful.congr {s' : Session} (hs : s.SameStream s')
    (h : Faithful s text cursor requested resp) : Faithful s' text cursor requested resp := by
  obtain ⟨a, b, hreturns, hgap⟩ := h
  refine ⟨a, b, ⟨hreturns.le, hreturns.le_length, ?_, hreturns.output⟩, ?_⟩
  · rw [hreturns.cursor, hs.earliest, encodeCursor_congr hs]
  · rw [← hs.earliest]
    exact hgap

theorem drop_firstByte {e : Nat} :
    (text.drop (position e text.length requested)).drop
      (skippedOf (text.drop (position e text.length requested))) =
        text.drop (firstByte e text requested) := by
  rw [List.drop_drop, firstByte]

/-- Whose cursor the request is, it asks for the offset of that cursor. -/
theorem requested_of_cursor {a : Nat} (hparse : parseCursor cursor s = .ok requested)
    (hoffset : requested.offset = s.transcriptEarliestOffset + a) (s₁ : Session) (end₁ : Nat)
    (hcursor : cursor = .text (encodeCursor s₁ end₁)) : end₁ = s.transcriptEarliestOffset + a := by
  subst hcursor
  rw [← hoffset, parseCursor_encodeCursor_ok hparse]

/-- A response with the first `n` bytes from the first one on. -/
theorem faithful_of_length (hpage : pageOf id alive s text requested x = .ok resp)
    (hsafe : s.transcriptEarliestOffset + text.length ≤ maxSafeInteger)
    (hparse : parseCursor cursor s = .ok requested) {n : Nat}
    (hn : n ≤ text.length - firstByte s.transcriptEarliestOffset text requested)
    (hcursor : resp.cursor = encodeCursor s
      (s.transcriptEarliestOffset + firstByte s.transcriptEarliestOffset text requested + n : ℕ))
    (houtput : resp.output =
      decodeUtf8 ((text.drop (firstByte s.transcriptEarliestOffset text requested)).take n)) :
    Faithful s text cursor requested resp := by
  obtain ⟨-, -, -, -, -, hgap⟩ := pageOf_ok hpage hsafe
  have hle := firstByte_le s.transcriptEarliestOffset text requested
  set a := firstByte s.transcriptEarliestOffset text requested with ha
  refine ⟨a, a + n, ⟨Nat.le_add_right a n, by omega, ?_, ?_⟩, fun hnone => ?_⟩
  · rw [hcursor, Nat.add_assoc]
  · rw [houtput, Nat.add_sub_cancel_left]
  · obtain ⟨hmismatch, hoffset⟩ := hgap.mp hnone
    exact ⟨hmismatch, hoffset, requested_of_cursor hparse hoffset⟩

/-- A page that ends at a byte. -/
theorem page_faithful (hpage : pageOf id alive s text requested x = .ok resp)
    (hsafe : s.transcriptEarliestOffset + text.length ≤ maxSafeInteger)
    (hparse : parseCursor cursor s = .ok requested)
    (hcut : ¬Cut s.transcriptEarliestOffset text requested x ∨
      cutOffset s.transcriptEarliestOffset text requested x =
        (s.transcriptEarliestOffset + firstByte s.transcriptEarliestOffset text requested : ℕ) +
          ⌊requestedMax x⌋) :
    Faithful s text cursor requested resp := by
  obtain ⟨chunk, hchunk, hcursor, houtput, -, -⟩ := pageOf_ok hpage hsafe
  have hm0 : 0 ≤ requestedMax x := zero_le_one.trans (requestedMax_bounds x).1
  have hle := firstByte_le s.transcriptEarliestOffset text requested
  have hlen : (text.drop (firstByte s.transcriptEarliestOffset text requested)).length =
      text.length - firstByte s.transcriptEarliestOffset text requested := List.length_drop
  rcases hchunk with hchunk | ⟨-, rfl⟩
  · by_cases hc : Cut s.transcriptEarliestOffset text requested x
    · -- the limit is not whole, but the sum is rounded to a byte
      have hoffset := hcut.resolve_left fun hno => hno hc
      obtain ⟨hwhole, hlt⟩ := hc
      rw [← hlen] at hlt
      obtain ⟨hsafeLength, hbuffer⟩ := chunkOf_fractional hchunk hm0 (floor_requestedMax_le x) hwhole
        (by rw [drop_firstByte]; exact hlt)
      have hfloor : ((⌊requestedMax x⌋.toNat : ℕ) : ℚ) = ⌊requestedMax x⌋ := by
        exact_mod_cast Int.toNat_of_nonneg (Int.floor_nonneg.mpr hm0)
      refine faithful_of_length hpage hsafe hparse (n := ⌊requestedMax x⌋.toNat) ?_ ?_ ?_
      · have hn : ((⌊requestedMax x⌋.toNat : ℕ) : ℚ) ≤ (text.drop _).length :=
          hfloor.le.trans ((Int.floor_le _).trans hlt.le)
        rw [hlen] at hn
        exact_mod_cast hn
      · rw [hcursor, hsafeLength]
        rw [cutOffset] at hoffset
        rw [hoffset, Nat.cast_add _ ⌊requestedMax x⌋.toNat, hfloor]
      · rw [houtput, hsafeLength, hbuffer, drop_firstByte]
    · have hwhole : Whole (requestedMax x) ∨
          ((text.drop (firstByte s.transcriptEarliestOffset text requested)).length : ℚ) ≤
            requestedMax x := by
        by_cases hw : Whole (requestedMax x)
        · exact .inl hw
        · refine .inr (not_lt.mp fun hlt => hc ⟨hw, ?_⟩)
          rwa [hlen] at hlt
      rw [← drop_firstByte] at hwhole
      obtain ⟨n, hn, hsafeLength, hbuffer⟩ := chunkOf_whole hchunk hm0 hwhole
      rw [drop_firstByte] at hn hbuffer
      rw [hlen] at hn
      refine faithful_of_length hpage hsafe hparse hn ?_ ?_
      · rw [hcursor, hsafeLength, ← Nat.cast_add, toDouble_natCast (by omega)]
      · rw [houtput, hsafeLength, Int.floor_natCast, Int.toNat_natCast, hbuffer]
  · refine faithful_of_length hpage hsafe hparse (n := 0) (Nat.zero_le _) ?_ ?_
    · rw [hcursor, add_zero, toDouble_natCast (by omega), Nat.add_zero]
    · rw [houtput]
      rfl

/-- A page that is cut between two bytes has a cursor between them. -/
theorem page_cut (hpage : pageOf id alive s text requested x = .ok resp)
    (hsafe : s.transcriptEarliestOffset + text.length ≤ maxSafeInteger)
    (hc : Cut s.transcriptEarliestOffset text requested x) :
    resp.cursor = encodeCursor s (cutOffset s.transcriptEarliestOffset text requested x) := by
  obtain ⟨chunk, hchunk, hcursor, -⟩ := pageOf_ok hpage hsafe
  have hm1 := (requestedMax_bounds x).1
  obtain ⟨hwhole, hlt⟩ := hc
  rcases hchunk with hchunk | ⟨hdone, -⟩
  · obtain ⟨hsafeLength, -⟩ := chunkOf_fractional hchunk (by linarith) (floor_requestedMax_le x) hwhole
      (by rw [drop_firstByte, List.length_drop]; exact hlt)
    rw [hcursor, hsafeLength, cutOffset]
  · -- no page is left to be cut
    have hzero : text.length - firstByte s.transcriptEarliestOffset text requested = 0 := by
      rw [firstByte, hdone]
      omega
    rw [hzero, Nat.cast_zero] at hlt
    linarith

end Pages

section Reads

variable {R : Dir → Dir → Prop} {seg : Nat} {h : Host} {id : String} {s₀ : Session}
  {files : List Bytes}

theorem cutOffset_nonneg {e : Nat} {text : Bytes} {requested : Requested} {x : Number} :
    0 ≤ cutOffset e text requested x := by
  have hm := (requestedMax_bounds x).1
  exact toDouble_nonneg (add_nonneg (Nat.cast_nonneg _) (by linarith))

/-- **No silent skip**: whatever the cursor and the page size are, and while others extend the transcript
and write the session's row, a read that succeeds returns a range of bytes and tells where that is not
the one requested, unless its page size cuts the page between two bytes. Then it does not, but where
the sum of the two is rounded to a whole offset. -/
theorem readOutput_faithful (config : HostConfig) (hR : Growth seg R) (hpos : 1 ≤ seg) (hrow : h.row id = some s₀)
    (hs : Stored seg (h.files id) files)
    (hsafe : ∀ d files', R (h.files id) d → Stored seg d files' →
      s₀.transcriptEarliestOffset + files'.flatten.length ≤ maxSafeInteger)
    (cursor : CursorValue) (maxBytes : Number) :
    wpThrow (among (Around R id)) (readOutput config id cursor maxBytes)
      (fun r h' => ∀ resp, r = .ok resp → ∃ text requested, files.flatten <+: text ∧
        (∃ files', Stored seg (h'.files id) files' ∧ text <+: files'.flatten) ∧
        parseCursor cursor s₀ = .ok requested ∧
        (¬Cut s₀.transcriptEarliestOffset text requested maxBytes ∨
            cutOffset s₀.transcriptEarliestOffset text requested maxBytes =
              (s₀.transcriptEarliestOffset +
                firstByte s₀.transcriptEarliestOffset text requested : ℕ) + ⌊requestedMax maxBytes⌋ →
          Faithful s₀ text cursor requested resp) ∧
        (Faithful s₀ text cursor requested resp →
          ¬Cut s₀.transcriptEarliestOffset text requested maxBytes ∨
            Whole (cutOffset s₀.transcriptEarliestOffset text requested maxBytes))) h := by
  refine wpThrow_mono ?_ (readOutput_near hR hpos hrow hs hsafe)
  rintro r h' ⟨hn, hr⟩ resp rfl
  obtain ⟨s, text, alive, requested, -, hsame, hpre, ⟨files', hs', htext⟩, hparse, hpage⟩ := hr resp rfl
  have hsafe' : s.transcriptEarliestOffset + text.length ≤ maxSafeInteger := by
    have := hsafe _ files' hn.files hs'
    have := htext.length_le
    rw [← hsame.earliest]
    omega
  refine ⟨text, requested, hpre, ⟨files', hs', htext⟩, ?_, fun hcut => ?_, fun hfaithful => ?_⟩
  · rw [parseCursor_congr hsame, hparse]
  · rw [hsame.earliest] at hcut
    exact (page_faithful hpage hsafe' hparse hcut).congr hsame.symm
  · rw [hsame.earliest]
    by_cases hc : Cut s.transcriptEarliestOffset text requested maxBytes
    · -- the cursor is where the page was cut, so that is the end of the range
      refine .inr ?_
      obtain ⟨a, b, hreturns, -⟩ := hfaithful.congr hsame
      have hcursor := (page_cut hpage hsafe' hc).symm.trans hreturns.cursor
      rw [encodeCursor_inj cutOffset_nonneg hcursor]
      exact whole_natCast _
    · exact .inl hc

example : cutOffset 0 [97, 98] ⟨0, false⟩ (.finite 1) = 1 := by decide +kernel

/-- The two bytes `a` and `b`, of which one is asked for. -/
theorem readOutput_faithful_first : ∃ resp text requested,
    ((readOutput sampleConfig "s" .absent (.finite 1)).run.eval hostBackend (sampleHost [97, 98])).1 =
      .ok resp ∧ [97, 98] <+: text ∧ Faithful sampleSession text .absent requested resp := by
  have hread := eval_of_among (Around.refl (growth_eq : Growth 8 Eq)) (readOutput_faithful sampleConfig
    growth_eq (by decide) sampleHost_row (sampleHost_stored [97, 98] (by decide)) (safe_of_earliest rfl)
    .absent (.finite 1))
  obtain ⟨resp, hresp⟩ : ∃ resp, ((readOutput sampleConfig "s" .absent (.finite 1)).run.eval hostBackend
      (sampleHost [97, 98])).1 = .ok resp := by
    refine ⟨⟨"s", false, .CLOSED, "v1:t:1:1", "v1:t:1:0", "a", true, true, none, ⟨.STOPPED, none, none⟩⟩, ?_⟩
    decide +kernel
  obtain ⟨text, requested, hpre, -, -, hfaithful, -⟩ := hread resp hresp
  refine ⟨resp, text, requested, hresp, hpre, hfaithful (.inl fun hc => hc.1 ?_)⟩
  decide +kernel

/-- Of the same two bytes, one and a half are asked for: the cursor stands between them. -/
theorem readOutput_between : ∃ resp,
    ((readOutput sampleConfig "s" .absent (.finite (3 / 2))).run.eval hostBackend
      (sampleHost [97, 98])).1 = .ok resp ∧ resp.output = "a" ∧
    ∀ text requested, ¬Faithful sampleSession text .absent requested resp := by
  refine ⟨⟨"s", false, .CLOSED, "v1:t:1:1.5", "v1:t:1:0", "a", true, true, none, ⟨.STOPPED, none, none⟩⟩,
    ?_, rfl, fun text requested => ?_⟩
  · decide +kernel
  · rintro ⟨a, b, hreturns, -⟩
    have hcursor : encodeCursor sampleSession (3 / 2) = "v1:t:1:1.5" := by decide +kernel
    have hoffset := encodeCursor_inj (by norm_num) (hcursor.trans hreturns.cursor)
    have hwhole : Whole (3 / 2 : ℚ) := hoffset ▸ whole_natCast _
    exact absurd hwhole (by decide +kernel)

end Reads

end BegetBridge.Terminal
