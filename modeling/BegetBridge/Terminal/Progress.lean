import BegetBridge.Interleaving.Transition
import BegetBridge.Terminal.ReadSpecs
import BegetBridge.Transcript.Growth

/-!
# Following the cursors of a transcript

A client reads a transcript that stands still, page after page, from the cursor of each response. As long
as every response that announces more has moved on, it stops after finitely many reads. One kind of read
does not move on: where the remaining bytes begin a character that they do not end, and no other
character begins within the page.

## Main definitions

* `Stuck`: the remaining bytes of such a read
* `Client`, `Client.Reads`: a client that follows the cursors

## Main results

* `page_progress`: a page moves on exactly where the read is not stuck
* `following_ends`: what one read does, and how many there are where none is stuck
-/

namespace BegetBridge.Terminal

open Core Relational Interleaving Transcript

/-- The remaining bytes begin a character that they do not end, and no other one begins within the
limit. -/
def Stuck (rest : Bytes) (limit : Nat) : Prop :=
  rest ≠ [] ∧ continuation (rest.getD 0 0) = false ∧
    rest.length < utf8SequenceLength (rest.getD 0 0) ∧
    ∀ i, 0 < i → i < min limit rest.length → continuation (rest.getD i 0) = true

section Pages

variable {id : String} {alive : Bool} {s : Session} {text rest : Bytes} {requested : Requested}
  {resp : Response} {n : Nat}

/-- Nothing is skipped where a character begins. -/
theorem skippedOf_eq_zero_iff (hne : rest ≠ []) :
    skippedOf rest = 0 ↔ continuation (rest.getD 0 0) = false := by
  obtain ⟨byte, rest, rfl⟩ := List.exists_cons_of_ne_nil hne
  rw [skippedOf, List.take_succ_cons, List.getD_cons_zero]
  by_cases hbyte : continuation byte = true
  · simp [hbyte]
  · simp [hbyte]

/-- A page with no byte of a read that skips none: exactly where it is stuck. -/
theorem stuck_iff (hn : 1 ≤ n) (hne : rest ≠ []) :
    Stuck rest n ↔ skippedOf rest = 0 ∧ pageLength rest n = 0 := by
  set m := min n 262144 with hm
  have hbuffer : rest.take (m + 3) ≠ [] := by
    rw [Ne, List.take_eq_nil_iff]
    rintro (h | h)
    · omega
    · exact hne h
  have hfirst : (rest.take (m + 3)).getD 0 0 = rest.getD 0 0 := by
    rw [List.getD_eq_getElem?_getD, List.getElem?_take_of_lt (by omega), ← List.getD_eq_getElem?_getD]
  have hzero := utf8SafePrefix_eq_zero_iff (show 1 ≤ m by omega) hbuffer
  rw [hfirst] at hzero
  have hfour := (utf8SequenceLength_bounds (rest.getD 0 0)).2
  rw [pageLength, ← hm, hzero, skippedOf_eq_zero_iff hne, Stuck]
  -- fewer than four bytes remain, so the buffer holds them all, and the limit of a page does not count
  constructor
  · rintro ⟨-, hstart, hshort, hcont⟩
    rw [List.take_of_length_le (by omega)]
    refine ⟨hstart, hshort, fun i hi hlt => hcont i hi (by omega)⟩
  · rintro ⟨hstart, hshort, hcont⟩
    have hall : rest.take (m + 3) = rest := by
      rw [List.length_take] at hshort
      exact List.take_of_length_le (by omega)
    rw [hall] at hshort hcont
    exact ⟨hne, hstart, hshort, fun i hi hlt => hcont i hi (by omega)⟩

/-- The response announces more only with a cursor beyond the position its read started from. -/
def MovesOn (s : Session) (text : Bytes) (requested : Requested) (resp : Response) : Prop :=
  resp.hasMore = true → ∃ last : Nat, resp.cursor = encodeCursor s last ∧
    s.transcriptEarliestOffset + position s.transcriptEarliestOffset text.length requested < last

/-- **A page moves on exactly where the read is not stuck.** -/
theorem page_progress (hn : 1 ≤ n) (h : pageOf id alive s text requested (.finite n) = .ok resp)
    (hsafe : s.transcriptEarliestOffset + text.length ≤ maxSafeInteger) :
    MovesOn s text requested resp ↔
      ¬Stuck (text.drop (position s.transcriptEarliestOffset text.length requested)) n := by
  obtain ⟨-, hcursor, -, hmore⟩ := pageOf_natCast hn h hsafe
  set e := s.transcriptEarliestOffset with he
  set k := position e text.length requested with hk
  have hfirst : firstByte e text requested = k + skippedOf (text.drop k) := rfl
  set a := firstByte e text requested with ha
  constructor
  · intro hmoves hstuck
    have hne := hstuck.1
    obtain ⟨hskip, hlength⟩ := (stuck_iff hn hne).mp hstuck
    have hak : a = k := by omega
    rw [hak, hlength, Nat.add_zero] at hcursor hmore
    have hlt : k < text.length := by
      have := List.length_pos_iff.mpr hne
      rw [List.length_drop] at this
      omega
    obtain ⟨last, hlast, hbeyond⟩ := hmoves (by rw [hmore]; simpa using hlt)
    change e + k < last at hbeyond
    have heq : ((e + k : ℕ) : ℚ) = last :=
      encodeCursor_inj (Nat.cast_nonneg _) (hcursor.symm.trans hlast)
    exact hbeyond.ne (Nat.cast_injective heq)
  · intro hfree hmore'
    rw [hmore', eq_comm, decide_eq_true_iff] at hmore
    refine ⟨_, hcursor, ?_⟩
    show e + k < e + a + pageLength (text.drop a) n
    by_contra hstill
    -- neither a byte was skipped nor one returned
    have hskip : skippedOf (text.drop k) = 0 := by omega
    have hak : a = k := by omega
    rw [hak] at hstill hmore
    refine hfree ((stuck_iff hn ?_).mpr ⟨hskip, by omega⟩)
    rw [Ne, List.drop_eq_nil_iff]
    omega

end Pages

/-! ## Clients -/

/-- A client that follows the cursors of a session, as long as there is more. -/
structure Client where
  host : Host
  cursor : CursorValue
  more : Bool

/-- One read of a client, alone, with the size it asks for and the response. -/
inductive Client.Reads (config : HostConfig) (id : String) : Client → Nat × Response → Client → Prop
  | read {c : Client} {n : Nat} {resp : Response} {tr : List (Entry HostOp FsError)} {h' : Host}
      (hmore : c.more = true) (hn : 1 ≤ n)
      (hrun : Runs hostBackend (fun _ => False) (readOutput config id c.cursor (.finite n)).run c.host tr
        (.ok resp) h') :
      Reads config id c (n, resp) ⟨h', .text resp.cursor, resp.hasMore⟩

/-- The next read of a client is not stuck. -/
def Client.Free (s : Session) (text : Bytes) (c : Client) (l : Nat × Response) : Prop :=
  ∀ requested, parseCursor c.cursor s = .ok requested →
    ¬Stuck (text.drop (position s.transcriptEarliestOffset text.length requested)) l.1

section Clients

variable {config : HostConfig} {id : String} {s₀ : Session} {seg : Nat} {files : List Bytes} {h : Host}

/-- A read of a transcript that stands still. -/
theorem read_still {d : Dir} (hpos : 1 ≤ seg) (hs : Stored seg d files)
    (hsafe : s₀.transcriptEarliestOffset + files.flatten.length ≤ maxSafeInteger)
    (hn : Near Eq id s₀ d h) {cursor : CursorValue} {maxBytes : Number} {resp : Response}
    {tr : List (Entry HostOp FsError)} {h' : Host}
    (hrun : Runs hostBackend (fun _ => False) (readOutput config id cursor maxBytes).run h tr (.ok resp)
      h') :
    Near Eq id s₀ d h' ∧ ∃ s alive requested, s₀.SameStream s ∧
      parseCursor cursor s₀ = .ok requested ∧
      pageOf id alive s files.flatten requested maxBytes = .ok resp := by
  obtain ⟨s₁, hrow, hsame₁⟩ := hn.row
  obtain rfl := hn.files
  have hsafe₁ : ∀ d files', h.files id = d → Stored seg d files' →
      s₁.transcriptEarliestOffset + files'.flatten.length ≤ maxSafeInteger := by
    rintro _ files' rfl hs'
    rw [← hsame₁.earliest, ← hs.holds.unique hs'.holds]
    exact hsafe
  obtain ⟨hn', hread⟩ := wp_sound (among_idle (Around.refl (growth_eq : Growth seg Eq)))
    (readOutput_near growth_eq hpos hrow hs hsafe₁) hrun
  obtain ⟨s, text, alive, requested, -, hsame, hpre, ⟨files', hs', htext⟩, hparse, hpage⟩ :=
    hread resp rfl
  -- what was measured is all there is
  obtain rfl : text = files.flatten := by
    rw [← hn'.files] at hs'
    rw [hs.holds.unique hs'.holds] at hpre ⊢
    exact htext.eq_of_length_le hpre.length_le
  obtain ⟨s₂, hrow₂, hsame₂⟩ := hn'.row
  refine ⟨⟨⟨s₂, hrow₂, hsame₁.trans hsame₂⟩, hn'.files⟩, s, alive, requested, hsame₁.trans hsame, ?_, hpage⟩
  rw [parseCursor_congr (hsame₁.trans hsame), hparse]

theorem movesOn_congr {s s' : Session} {text : Bytes} {requested : Requested} {resp : Response}
    (hs : s.SameStream s') : MovesOn s text requested resp ↔ MovesOn s' text requested resp := by
  simp only [MovesOn, encodeCursor_congr hs, hs.earliest]

/-- What a client knows after its reads: it has moved on by one byte for each of them, or is done. -/
structure Client.At (s : Session) (d : Dir) (id : String) (n reads : Nat) (c : Client) : Prop where
  near : Near Eq id s d c.host
  moved : c.more = true → ∀ requested, parseCursor c.cursor s = .ok requested →
    reads ≤ position s.transcriptEarliestOffset n requested
  bound : reads ≤ n + 1

/-- One read that is not stuck. -/
theorem Client.At.read {d : Dir} (hpos : 1 ≤ seg) (hs : Stored seg d files)
    (hsafe : s₀.transcriptEarliestOffset + files.flatten.length ≤ maxSafeInteger) {reads : Nat}
    {c c' : Client} {l : Nat × Response} (hc : c.At s₀ d id files.flatten.length reads)
    (hstep : Guarded (Client.Free s₀ files.flatten) (Client.Reads config id) c l c') :
    c'.At s₀ d id files.flatten.length (reads + 1) := by
  obtain ⟨hfree, hread⟩ := hstep
  cases hread with
  | @read n resp tr h' hmore hn hrun =>
    obtain ⟨hnear, s, alive, requested, hsame, hparse, hpage⟩ := read_still hpos hs hsafe hc.near hrun
    have hk := hc.moved hmore requested hparse
    have hle := position_le s₀.transcriptEarliestOffset files.flatten.length requested
    refine ⟨hnear, fun hmore' requested' hparse' => ?_, by omega⟩
    have hsafe' : s.transcriptEarliestOffset + files.flatten.length ≤ maxSafeInteger :=
      hsame.earliest ▸ hsafe
    have hmoves : MovesOn s₀ files.flatten requested resp := by
      rw [movesOn_congr hsame, page_progress hn hpage hsafe', ← hsame.earliest]
      exact hfree requested hparse
    obtain ⟨last, hlast, hbeyond⟩ := hmoves hmore'
    -- the next read starts where this one ended, inside the transcript
    obtain ⟨hend, hcursor, -⟩ := pageOf_natCast hn hpage hsafe'
    rw [encodeCursor_congr hsame.symm] at hcursor
    have heq : last = _ := Nat.cast_injective (encodeCursor_inj (Nat.cast_nonneg _) (hlast.symm.trans hcursor))
    rw [hlast] at hparse'
    rw [position_of_cursor hparse']
    rw [← hsame.earliest] at heq hend
    omega

/-- **Following the cursors** of a transcript that stands still: a read moves on exactly where it is not
stuck, and where no read is stuck there are finitely many. -/
theorem following_ends (hpos : 1 ≤ seg) (hrow : h.row id = some s₀)
    (hs : Stored seg (h.files id) files)
    (hsafe : s₀.transcriptEarliestOffset + files.flatten.length ≤ maxSafeInteger) :
    (∀ (cursor : CursorValue) (n : Nat) (resp : Response) (tr : List (Entry HostOp FsError)) (h' : Host),
      1 ≤ n → Runs hostBackend (fun _ => False) (readOutput config id cursor (.finite n)).run h tr
        (.ok resp) h' →
      ∃ requested, parseCursor cursor s₀ = .ok requested ∧
        (MovesOn s₀ files.flatten requested resp ↔ ¬Stuck (files.flatten.drop
          (position s₀.transcriptEarliestOffset files.flatten.length requested)) n)) ∧
    (∀ (cursor : CursorValue) (reads : List ((Nat × Response) × Client)) (c : Client),
      Path (Guarded (Client.Free s₀ files.flatten) (Client.Reads config id)) ⟨h, cursor, true⟩ reads c →
      reads.length ≤ files.flatten.length + 1) := by
  have hnear : Near Eq id s₀ (h.files id) h := ⟨⟨s₀, hrow, .refl s₀⟩, rfl⟩
  refine ⟨fun cursor n resp tr h' hn hrun => ?_, fun cursor reads c hp => ?_⟩
  · obtain ⟨-, s, alive, requested, hsame, hparse, hpage⟩ := read_still hpos hs hsafe hnear hrun
    refine ⟨requested, hparse, ?_⟩
    rw [movesOn_congr hsame, page_progress hn hpage (hsame.earliest ▸ hsafe), hsame.earliest]
  · refine (hp.history (I := fun reads (c : Client) =>
        c.At s₀ (h.files id) id files.flatten.length reads.length)
      ⟨hnear, fun _ _ _ => Nat.zero_le _, Nat.zero_le _⟩ fun _ hc hstep => ?_).bound
    rw [List.length_append, List.length_singleton]
    exact hc.read hpos hs hsafe hstep

/-- The first of the two bytes `a` and `b`. -/
theorem following_ends_first : ∃ resp,
    ((readOutput sampleConfig "s" .absent (.finite (1 : ℕ))).run.eval hostBackend
      (sampleHost [97, 98])).1 = .ok resp ∧ resp.hasMore = true ∧
    MovesOn sampleSession [97, 98] ⟨0, false⟩ resp := by
  have hresp : ((readOutput sampleConfig "s" .absent (.finite (1 : ℕ))).run.eval hostBackend
      (sampleHost [97, 98])).1 = .ok ⟨"s", false, .CLOSED, "v1:t:1:1", "v1:t:1:0", "a", true, true, none,
        ⟨.STOPPED, none, none⟩⟩ := by decide +kernel
  have hrun : Runs hostBackend (fun _ => False) _ _ _ _ _ := eval_runs
    (readOutput sampleConfig "s" .absent (.finite (1 : ℕ))).run (sampleHost [97, 98])
  rw [hresp] at hrun
  obtain ⟨requested, hparse, hiff⟩ := (following_ends (by decide) sampleHost_row
    (sampleHost_stored [97, 98] (by decide)) (by decide)).1 .absent 1 _ _ _ le_rfl hrun
  obtain rfl := Except.ok.inj hparse
  refine ⟨_, hresp, rfl, hiff.mpr fun hstuck => ?_⟩
  -- the byte `a` is a character
  exact absurd hstuck.2.2.1 (by decide)

/-- The byte `f0` begins a character of four bytes, of which it is the only one: the client reads nothing
again and again. -/
theorem following_stuck : ∃ resp,
    ((readOutput sampleConfig "s" .absent (.finite (16 : ℕ))).run.eval hostBackend
      (sampleHost [0xf0])).1 = .ok resp ∧
    ¬MovesOn sampleSession [0xf0] ⟨0, false⟩ resp ∧
    ((readOutput sampleConfig "s" (.text resp.cursor) (.finite (16 : ℕ))).run.eval hostBackend
      (sampleHost [0xf0])).1 = .ok resp := by
  refine ⟨⟨"s", false, .CLOSED, "v1:t:1:0", "v1:t:1:0", "", true, true, none, ⟨.STOPPED, none, none⟩⟩,
    by decide +kernel, fun hmoves => ?_, by decide +kernel⟩
  obtain ⟨last, hlast, hbeyond⟩ := hmoves rfl
  have hcursor : encodeCursor sampleSession (0 : ℕ) = "v1:t:1:0" := by decide +kernel
  have hzero : 0 = last := Nat.cast_injective (encodeCursor_inj (Nat.cast_nonneg _) (hcursor.trans hlast))
  subst hzero
  exact absurd hbeyond (by decide)

end Clients

end BegetBridge.Terminal
