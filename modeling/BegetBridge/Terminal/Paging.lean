import BegetBridge.Terminal.Progress
import BegetBridge.Terminal.Resting

/-!
# Paging through text

A transcript that holds text is read to its end by following the cursors, whatever the sizes of the pages
are: the pages hold whole characters, one at least, and leave none out.

The offsets of the transcript have to be safe integers. Beyond them the cursor of a page is refused by the
next read.

## Main definitions

* `follow`: a client that reads page after page
* `TextPage`: a page that holds the next characters of a text
* `Denotes`: what a cursor is taken for

## Main results

* `pageOf_text`: every page is one of these
* `paging_lossless`: the pages make up the text
-/

namespace BegetBridge.Terminal

open Core Relational Interleaving Transcript

/-- A client reads page after page, of the sizes it wants, until there are no more. -/
def follow (config : HostConfig) (id : String) (sizes : Nat → Nat) :
    Nat → Nat → CursorValue → HostM (List Response)
  | 0, _, _ => pure []
  | fuel + 1, i, cursor => do
    let resp ← readOutput config id cursor (.finite (sizes i))
    if resp.hasMore then
      let rest ← follow config id sizes fuel (i + 1) (.text resp.cursor)
      pure (resp :: rest)
    else pure [resp]

/-- The bytes of a text. -/
def bytesOf (text : List Char) : Bytes := text.flatMap String.utf8EncodeChar

/-- The response holds the next `k` characters of a text, after those that are done. -/
structure TextPage (s : Session) (done todo : List Char) (k : Nat) (resp : Response) : Prop where
  count : k ≤ todo.length
  moves : todo ≠ [] → 0 < k
  output : resp.output = String.ofList (todo.take k)
  cursor : resp.cursor =
    encodeCursor s (s.transcriptEarliestOffset + (bytesOf (done ++ todo.take k)).length : ℕ)
  gap : resp.gap = none
  hasMore : resp.hasMore = decide (k < todo.length)

/-- The cursor is the offset `n` in the stream of a session, and an offset in no other stream. -/
structure Denotes (s : Session) (cursor : String) (n : Nat) : Prop where
  encoded : cursor = encodeCursor s n
  own : ∀ s', s.SameStream s' → parseCursor (.text cursor) s' = .ok ⟨n, false⟩
  foreign : ∀ s' : Session, s.transcriptStreamId ≠ s'.transcriptStreamId ∨
    s.transcriptEpoch ≠ s'.transcriptEpoch → parseCursor (.text cursor) s' = .ok ⟨n, true⟩

/-- A read of any other stream, from the cursor of this one, reports the change of streams, whatever
others do meanwhile. -/
def ReportedElsewhere (s : Session) (cursor : String) : Prop :=
  ∀ (config : HostConfig) (R : Dir → Dir → Prop) (seg : Nat) (id : String) (s' : Session)
    (files : List Bytes) (maxBytes : Number) (h : Host),
    Growth seg R → 1 ≤ seg → h.row id = some s' → Stored seg (h.files id) files →
    (∀ d files', R (h.files id) d → Stored seg d files' →
      s'.transcriptEarliestOffset + files'.flatten.length ≤ maxSafeInteger) →
    s.transcriptStreamId ≠ s'.transcriptStreamId ∨ s.transcriptEpoch ≠ s'.transcriptEpoch →
    wpThrow (among (Around R id)) (readOutput config id (.text cursor) maxBytes)
      (fun r _ => ∀ resp, r = .ok resp → ∃ gap, resp.gap = some gap ∧ gap.reason = .stream_changed) h

section Text

variable {id : String} {alive : Bool} {s : Session} {n : Nat} {done todo text : List Char}

theorem bytesOf_append (done todo : List Char) : bytesOf (done ++ todo) = bytesOf done ++ bytesOf todo := List.flatMap_append

/-- A character has one byte at least. -/
theorem length_le_bytesOf (text : List Char) : text.length ≤ (bytesOf text).length := by
  induction text with
  | nil => exact Nat.zero_le _
  | cons c text ih =>
    have hpos := (isCharacter_encode c).length_pos
    rw [bytesOf, List.flatMap_cons, List.length_append, List.length_cons, ← bytesOf]
    omega

/-- Text begins with a lead byte. -/
theorem skippedOf_bytesOf (text : List Char) : skippedOf (bytesOf text) = 0 := by
  rcases text with _ | ⟨c, text⟩
  · rfl
  · have hc := isCharacter_encode c
    rw [bytesOf, List.flatMap_cons]
    rcases hbytes : String.utf8EncodeChar c with _ | ⟨lead, tail⟩
    · rw [hbytes] at hc
      exact hc.elim
    · rw [hbytes] at hc
      exact (skippedOf_eq_zero_iff (by simp)).mpr hc.2.1

/-- A page of text has whole characters. -/
theorem exists_pageLength (hn : 1 ≤ n) (htodo : todo ≠ []) : ∃ k, 0 < k ∧ k ≤ todo.length ∧
    pageLength (bytesOf todo) n = (bytesOf (todo.take k)).length := by
  have hchars : ∀ e ∈ todo.map String.utf8EncodeChar, IsCharacter e := by
    intro e he
    obtain ⟨c, -, rfl⟩ := List.mem_map.mp he
    exact isCharacter_encode c
  have hflat : ∀ text : List Char, (text.map String.utf8EncodeChar).flatten = bytesOf text := fun text =>
    List.flatMap_def.symm
  obtain ⟨k, hpos, hk, hlength⟩ := utf8SafePrefix_of_characters (m := min n 262144 + 3)
    hchars (by simpa using htodo) (show 1 ≤ min n 262144 by omega) (.inl le_rfl)
  rw [List.length_map] at hk
  rw [hflat, ← List.map_take, hflat] at hlength
  exact ⟨k, hpos, hk, hlength⟩

/-- A page of a whole size is not refused. -/
theorem exists_pageOf (id : String) (alive : Bool) (s : Session) (bytes : Bytes) (requested : Requested)
    (hn : 1 ≤ n) : ∃ resp, pageOf id alive s bytes requested (.finite n) = .ok resp := by
  rw [pageOf]
  split
  · exact ⟨_, rfl⟩
  · rw [requestedMax_natCast hn, chunkOf_natCast (by rw [maxSafeInteger]; omega)]
    exact ⟨_, rfl⟩

/-- **A page of text**, from the end of the characters that are done. -/
theorem pageOf_text (id : String) (alive : Bool) (hn : 1 ≤ n)
    (hsafe : s.transcriptEarliestOffset + (bytesOf (done ++ todo)).length ≤ maxSafeInteger) :
    ∃ resp k, pageOf id alive s (bytesOf (done ++ todo))
      ⟨s.transcriptEarliestOffset + (bytesOf done).length, false⟩ (.finite n) = .ok resp ∧
      TextPage s done todo k resp := by
  obtain ⟨resp, hpage⟩ := exists_pageOf id alive s (bytesOf (done ++ todo))
    ⟨s.transcriptEarliestOffset + (bytesOf done).length, false⟩ hn
  obtain ⟨-, -, -, -, -, hgap⟩ := pageOf_ok hpage hsafe
  obtain ⟨-, hcursor, houtput, hmore⟩ := pageOf_natCast hn hpage hsafe
  have hlength : (bytesOf (done ++ todo)).length = (bytesOf done).length + (bytesOf todo).length := by
    rw [bytesOf_append, List.length_append]
  have hdrop : (bytesOf (done ++ todo)).drop (bytesOf done).length = bytesOf todo := by
    rw [bytesOf_append, List.drop_left]
  -- the page begins where it was asked for
  have hposition : position s.transcriptEarliestOffset (bytesOf (done ++ todo)).length
      ⟨s.transcriptEarliestOffset + (bytesOf done).length, false⟩ = (bytesOf done).length := by
    rw [position, if_neg (by simp), Nat.add_sub_cancel_left]
    exact min_eq_left (by omega)
  have hfirst : firstByte s.transcriptEarliestOffset (bytesOf (done ++ todo))
      ⟨s.transcriptEarliestOffset + (bytesOf done).length, false⟩ = (bytesOf done).length := by
    rw [firstByte, hposition, hdrop, skippedOf_bytesOf, Nat.add_zero]
  rw [hfirst, hdrop] at hcursor houtput hmore
  rw [hfirst] at hgap
  obtain ⟨k, hk, hmoves, hend⟩ : ∃ k, k ≤ todo.length ∧ (todo ≠ [] → 0 < k) ∧
      pageLength (bytesOf todo) n = (bytesOf (todo.take k)).length := by
    by_cases htodo : todo = []
    · subst htodo
      refine ⟨0, le_rfl, fun hne => absurd rfl hne, ?_⟩
      exact Nat.le_zero.mp utf8SafePrefix_le
    · obtain ⟨k, hpos, hk, hend⟩ := exists_pageLength hn htodo
      exact ⟨k, hk, fun _ => hpos, hend⟩
  have hsplit : bytesOf todo = bytesOf (todo.take k) ++ bytesOf (todo.drop k) := by
    rw [← bytesOf_append, List.take_append_drop]
  refine ⟨resp, k, hpage, hk, hmoves, ?_, ?_, ?_, ?_⟩
  · rw [houtput, hend, hsplit, List.take_left]
    exact decodeUtf8_encode _
  · rw [hcursor, hend, bytesOf_append, List.length_append, Nat.add_assoc]
  · exact hgap.mpr ⟨rfl, rfl⟩
  · rw [hmore, hend, hlength, decide_eq_decide, Nat.add_lt_add_iff_left, hsplit, List.length_append]
    -- what is left has a byte exactly where it has a character
    have hbytes := length_le_bytesOf (todo.drop k)
    rw [List.length_drop] at hbytes
    constructor
    · intro hlt
      by_contra hall
      rw [List.drop_eq_nil_of_le (not_lt.mp hall)] at hlt
      exact absurd hlt (lt_irrefl _)
    · intro hlt
      omega

/-- The cursor of a page. -/
theorem denotes_encodeCursor (hstream : within idChar 1 80 s.transcriptStreamId = true)
    (hepoch : s.transcriptEpoch ≤ maxSafeInteger) (hn : n ≤ maxSafeInteger) :
    Denotes s (encodeCursor s n) n where
  encoded := rfl
  own s' hs' := by
    rw [parseCursor_encodeCursor hstream hepoch hn, decide_eq_false]
    rintro (h | h)
    · exact h hs'.stream
    · exact h hs'.epoch
  foreign s' hs' := by
    rw [parseCursor_encodeCursor hstream hepoch hn, decide_eq_true hs']

end Text

section Clients

variable {config : HostConfig} {id : String} {s : Session} {d : Dir} {h : Host} {seg : Nat}
  {files : List Bytes} {sizes : Nat → Nat}

/-- What a client has after its last page: responses with the characters of `todo`, of which the last one
alone announces no more. -/
def Followed (s : Session) (todo : List Char) (r : Except Thrown (List Response)) : Prop :=
  ∃ pages last, r = .ok (pages ++ [last]) ∧ (∀ resp ∈ pages, resp.hasMore = true) ∧
    last.hasMore = false ∧
    String.join ((pages ++ [last]).map Response.output) = String.ofList todo ∧
    ∀ resp ∈ pages ++ [last], resp.gap = none ∧ ∃ n, Denotes s resp.cursor n

theorem Denotes.reported {cursor : String} {n : Nat} (hc : Denotes s cursor n) :
    ReportedElsewhere s cursor := by
  intro config R seg id s' files maxBytes h hR hpos hrow hs hsafe hother
  refine wpThrow_mono ?_ (readOutput_near hR hpos hrow hs hsafe)
  rintro r h' ⟨-, hr⟩ resp rfl
  obtain ⟨s₁, text, alive, requested, -, hsame, -, -, hparse, hpage⟩ := hr resp rfl
  rw [hc.foreign s₁ (hsame.stream ▸ hsame.epoch ▸ hother)] at hparse
  obtain rfl := Except.ok.inj hparse
  exact pageOf_stream_changed hpage rfl

theorem follow_text (hpos : 1 ≤ seg) (hconfig : config.segmentBytes ≤ maxSafeInteger)
    (hs : Stored seg d files)
    (hstream : within idChar 1 80 s.transcriptStreamId = true)
    (hepoch : s.transcriptEpoch ≤ maxSafeInteger) (hsizes : ∀ i, 1 ≤ sizes i)
    {fuel i : Nat} {done todo : List Char} (htext : files.flatten = bytesOf (done ++ todo))
    (hsafe : s.transcriptEarliestOffset + (bytesOf (done ++ todo)).length ≤ maxSafeInteger)
    (hfuel : todo.length < fuel) {cursor : CursorValue}
    (hparse : parseCursor cursor s =
      .ok ⟨s.transcriptEarliestOffset + (bytesOf done).length, false⟩)
    {h : Host} (hr : Resting id s d h) :
    wpThrow (among (Apart id)) (follow config id sizes fuel i cursor)
      (fun r h' => Resting id s d h' ∧ Followed s todo r) h := by
  induction fuel generalizing i done todo cursor h with
  | zero => exact absurd hfuel (Nat.not_lt_zero _)
  | succ fuel ih =>
    rw [follow, wpThrow_bind]
    refine wpThrow_mono ?_ (readOutput_resting hpos hconfig hr hs (htext ▸ hsafe) hparse)
    rintro r h₁ ⟨hr₁, s₁, hsame, rfl⟩
    rw [htext]
    rw [hsame.earliest] at hsafe ⊢
    obtain ⟨resp, k, hpage, hp⟩ := pageOf_text id false (hsizes i) hsafe
    rw [hpage]
    show wpThrow _ (if resp.hasMore = true then _ else _) _ h₁
    have hsplit : done ++ todo = (done ++ todo.take k) ++ todo.drop k := by
      rw [List.append_assoc, List.take_append_drop]
    have hlength : (bytesOf (done ++ todo.take k)).length ≤ (bytesOf (done ++ todo)).length := by
      rw [hsplit, bytesOf_append _ (todo.drop k), List.length_append]
      exact Nat.le_add_right _ _
    have hdenotes : Denotes s resp.cursor
        (s.transcriptEarliestOffset + (bytesOf (done ++ todo.take k)).length) := by
      rw [hp.cursor, encodeCursor_congr hsame.symm, hsame.earliest]
      exact denotes_encodeCursor hstream hepoch (by omega)
    by_cases hmore : k < todo.length
    · -- the next pages hold the characters after this one
      rw [if_pos (by rw [hp.hasMore]; exact decide_eq_true hmore), wpThrow_bind]
      have htodo : 0 < k := hp.moves (List.ne_nil_of_length_pos (by omega))
      refine wpThrow_mono ?_ (ih (htext.trans (congrArg bytesOf hsplit))
        (by rw [← hsplit, hsame.earliest]; exact hsafe) (by rw [List.length_drop]; omega)
        (hdenotes.own s (.refl s)) hr₁)
      rintro r h₂ ⟨hr₂, pages, last, rfl, hpages, hlast, houtput, hall⟩
      rw [onOk_ok, wpThrow_pure]
      refine ⟨hr₂, resp :: pages, last, rfl, ?_, hlast, ?_, ?_⟩
      · intro resp' hmem
        rcases List.mem_cons.mp hmem with rfl | hmem
        · rw [hp.hasMore]
          exact decide_eq_true hmore
        · exact hpages resp' hmem
      · rw [List.cons_append, List.map_cons, String.join_cons, houtput, hp.output, ← String.ofList_append,
          List.take_append_drop]
      · intro resp' hmem
        rcases List.mem_cons.mp hmem with rfl | hmem
        · exact ⟨hp.gap, _, hdenotes⟩
        · exact hall resp' hmem
    · rw [if_neg (by rw [hp.hasMore]; simpa using hmore), wpThrow_pure]
      refine ⟨hr₁, [], resp, rfl, fun _ hmem => absurd hmem List.not_mem_nil, ?_, ?_, ?_⟩
      · rw [hp.hasMore]
        exact decide_eq_false hmore
      · rw [List.nil_append, List.map_singleton, String.join_cons, String.join_nil, String.append_empty,
          hp.output, List.take_of_length_le (not_lt.mp hmore)]
      · intro resp' hmem
        obtain rfl := List.mem_singleton.mp hmem
        exact ⟨hp.gap, _, hdenotes⟩

/-- **Paging leaves nothing out**: the pages of a transcript that holds text make it up, whatever their
sizes are and whatever happens to other sessions meanwhile. None of them reports a gap, and each but the
last one announces more. A cursor is read back as its offset, and as none of another stream. -/
theorem paging_lossless (hpos : 1 ≤ seg) (hconfig : config.segmentBytes ≤ maxSafeInteger)
    (hr : Resting id s (h.files id) h) (hs : Stored seg (h.files id) files)
    (htext : files.flatten.toByteArray.IsValidUTF8)
    (hsafe : s.transcriptEarliestOffset + files.flatten.length ≤ maxSafeInteger)
    (hstream : within idChar 1 80 s.transcriptStreamId = true)
    (hepoch : s.transcriptEpoch ≤ maxSafeInteger) (hsizes : ∀ i, 1 ≤ sizes i)
    {fuel : Nat} (hfuel : files.flatten.length < fuel) :
    wpThrow (among (Apart id)) (follow config id sizes fuel 0 .absent)
      (fun r _ => ∃ pages last, r = .ok (pages ++ [last]) ∧
        (∀ resp ∈ pages, resp.hasMore = true) ∧ last.hasMore = false ∧
        String.join ((pages ++ [last]).map Response.output) = decodeUtf8 files.flatten ∧
        ∀ resp ∈ pages ++ [last], resp.gap = none ∧ (∃ n, Denotes s resp.cursor n) ∧
          ReportedElsewhere s resp.cursor) h := by
  obtain ⟨text, htext⟩ := htext
  have hbytes : files.flatten = bytesOf ([] ++ text) := List.toByteArray_inj.mp htext
  have hlength := length_le_bytesOf text
  rw [hbytes] at hfuel hsafe
  refine wpThrow_mono ?_ (follow_text hpos hconfig hs hstream hepoch hsizes hbytes hsafe
    (lt_of_le_of_lt hlength hfuel) rfl hr)
  rintro r h' ⟨-, pages, last, rfl, hpages, hlast, houtput, hall⟩
  refine ⟨pages, last, rfl, hpages, hlast, ?_, fun resp hmem => ?_⟩
  · rw [houtput, hbytes]
    exact (decodeUtf8_encode text).symm
  · obtain ⟨hgap, n, hdenotes⟩ := hall resp hmem
    exact ⟨hgap, ⟨n, hdenotes⟩, hdenotes.reported⟩

theorem sampleHost_resting (bytes : Bytes) :
    Resting "s" sampleSession ((sampleHost bytes).files "s") (sampleHost bytes) where
  row := ⟨sampleSession, rfl, .refl _⟩
  files := rfl
  dead := by simp [sampleHost]
  marker := by
    intro dir file hdir hfile
    obtain rfl := Option.some.inj hdir
    exact absurd hfile nofun

/-- The text `aéb`, byte by byte. -/
theorem paging_lossless_bytes : ∃ pages last,
    ((follow sampleConfig "s" (fun _ => 1) 5 0 .absent).run.eval hostBackend
      (sampleHost [0x61, 0xc3, 0xa9, 0x62])).1 = .ok (pages ++ [last]) ∧ last.hasMore = false ∧
    String.join ((pages ++ [last]).map Response.output) = "aéb" := by
  obtain ⟨pages, last, hresult, -, hlast, houtput, -⟩ := eval_of_among Apart.refl
    (paging_lossless (show 1 ≤ 8 by decide) (show sampleConfig.segmentBytes ≤ maxSafeInteger by decide)
      (sampleHost_resting [0x61, 0xc3, 0xa9, 0x62]) (sampleHost_stored _ (by decide))
      ⟨"aéb".toList, by decide +kernel⟩ (by decide) (by decide) (by decide) (fun _ => le_refl 1)
      (show 4 < 5 by decide))
  refine ⟨pages, last, hresult, hlast, houtput.trans ?_⟩
  decide +kernel

/-- The last safe offset: the page of the byte that stands there has a cursor beyond it, which no read
takes. -/
theorem paging_beyond : ∃ (s : Session) (resp : Response),
    s.transcriptEarliestOffset = maxSafeInteger ∧
    ((readOutput sampleConfig "s" .absent (.finite 1)).run.eval hostBackend
      { sampleHost [97] with rows := Table.empty.upsert s }).1 = .ok resp ∧
    parseCursor (.text resp.cursor) s = .error unsupportedCursor := by
  refine ⟨{ sampleSession with transcriptEarliestOffset := maxSafeInteger },
    ⟨"s", false, .CLOSED, "v1:t:1:9007199254740992", "v1:t:1:9007199254740991", "a", false, false, none,
      ⟨.STOPPED, none, none⟩⟩, rfl, ?_, ?_⟩
  · decide +kernel
  · decide +kernel

end Clients

end BegetBridge.Terminal
