import BegetBridge.Attachment.AttachmentFetcher

/-!
# Slots of fetches

Whatever happens to a fetch, it gives back its slot when it is over, and never again. So the slots that are
taken are those of the fetches that are not over.

## Main definitions

* `Transfer.unfinished`: the fetch has not failed, its body is not over, and it is not disposed of
* `Transfer.Kept`: what holds of a fetch with a slot at all times
* `Fetcher.Balanced`: the account of the slots

## Main results

* `Fetcher.balanced_act`: what happens to one fetch keeps the account
* `Fetcher.balanced_happens`: others keep it
-/

namespace BegetBridge.Attachment

namespace Transfer

variable {maxBytes : Nat} {x : Transfer}

/-- The fetch has not failed, the end of its body is not noticed, and it is not disposed of. -/
def unfinished (x : Transfer) : Bool := x.stage != .gone

/-- The body so far is within the limit, and what is beyond ends it in an error. -/
def Limited (maxBytes : Nat) (l : ByteLimit) : Prop :=
  l.maxBytes = maxBytes ∧ l.passed.length ≤ maxBytes ∧ (l.bytes ≤ maxBytes → l.passed.length = l.bytes) ∧
    (maxBytes < l.bytes → l.ending = some (.destroyed (some tooLarge)))

/-- What holds of a fetch at all times. -/
structure Kept (maxBytes : Nat) (x : Transfer) : Prop where
  released : x.released = !x.unfinished
  once : x.givenBack = if x.unfinished then 0 else 1
  fetching : x.stage = .fetching → x.limited = none
  streaming : x.stage = .streaming → x.limited.isSome = true
  limited : ∀ l, x.limited = some l → Limited maxBytes l

/-- What happens to a fetch keeps all this, leads on, and gives back what the fetch had and has no more. -/
def Sound (maxBytes : Nat) (f : Transfer → Transfer × Nat) (x : Transfer) : Prop :=
  (f x).1.Kept maxBytes ∧ x.stage.rank ≤ (f x).1.stage.rank ∧
    (f x).2 + (if (f x).1.unfinished then 1 else 0) = if x.unfinished then 1 else 0

theorem kept_begun {signal : Option FetchError} : (begun signal).Kept maxBytes where
  released := rfl
  once := rfl
  fetching _ := rfl
  streaming := nofun
  limited := nofun

/-- What changes neither stage nor slot, and what it changes in the body is within the limit. -/
theorem Kept.same {y : Transfer} (hx : x.Kept maxBytes) (hstage : y.stage = x.stage)
    (hreleased : y.released = x.released) (honce : y.givenBack = x.givenBack)
    (hsome : y.limited.isSome = x.limited.isSome) (hlimited : ∀ l, y.limited = some l → Limited maxBytes l) :
    y.Kept maxBytes where
  released := by rw [hreleased, hx.released, unfinished, unfinished, hstage]
  once := by rw [honce, hx.once, unfinished, unfinished, hstage]
  fetching h := by
    have := hx.fetching (hstage ▸ h)
    rw [this] at hsome
    simpa using hsome
  streaming h := hsome ▸ hx.streaming (hstage ▸ h)
  limited := hlimited

/-- The same for a step that gives back nothing. -/
theorem Kept.sound_same {f : Transfer → Transfer} (hx : x.Kept maxBytes) (hstage : (f x).stage = x.stage)
    (hreleased : (f x).released = x.released) (honce : (f x).givenBack = x.givenBack)
    (hsome : (f x).limited.isSome = x.limited.isSome)
    (hlimited : ∀ l, (f x).limited = some l → Limited maxBytes l) : Sound maxBytes (fun x => (f x, 0)) x := by
  refine ⟨hx.same hstage hreleased honce hsome hlimited, hstage ▸ le_rfl, ?_⟩
  simp [unfinished, hstage]

/-- **A fetch that leaves gives back its slot**, unless it did so before. -/
theorem Kept.sound_leave (hx : x.Kept maxBytes) : Sound maxBytes leave x := by
  have hreleased := hx.released
  have honce := hx.once
  by_cases hover : x.unfinished = true
  · -- the slot is given back now
    rw [hover] at hreleased honce
    simp only [Bool.not_true, if_true] at hreleased honce
    refine ⟨⟨?_, ?_, nofun, nofun, ?_⟩, ?_, ?_⟩
    · simp [leave, release, hreleased, unfinished]
    · simp [leave, release, hreleased, unfinished, honce]
    · intro l hl
      exact hx.limited l (by simpa [leave, release, hreleased] using hl)
    · cases hstage : x.stage <;> simp [leave, Stage.rank]
    · have hne : x.stage ≠ .gone := by simpa [unfinished] using hover
      simp [leave, release, hreleased, unfinished, hne]
  · -- it was given back before
    rw [Bool.not_eq_true] at hover
    rw [hover] at hreleased honce
    simp only [Bool.not_false, Bool.false_eq_true, if_false] at hreleased honce
    have hstage : x.stage = .gone := by simpa [unfinished] using hover
    have hleave : x.leave = (x, 0) := by
      rw [leave, release, if_pos hreleased, ← hstage]
    refine ⟨?_, ?_, ?_⟩
    · rw [hleave]
      exact hx
    · rw [hleave]
    · rw [hleave]
      simp

theorem limited_finish {l : ByteLimit} {ending : Ending} (h : Limited maxBytes l) :
    Limited maxBytes (l.finish ending) := by
  obtain ⟨hmax, hpassed, hall, hbeyond⟩ := h
  rw [ByteLimit.finish]
  cases hending : l.ending with
  | some e => exact ⟨hmax, hpassed, hall, hbeyond⟩
  | none =>
    refine ⟨hmax, hpassed, hall, fun hlt => ?_⟩
    -- a stream with too many bytes is over already
    have := hbeyond hlt
    rw [hending] at this
    cases this

/-- The stream of a fetch is over, or was before. -/
theorem Kept.limited_map (hx : x.Kept maxBytes) {ending : Ending} :
    ∀ l, (x.limited.map fun l => l.finish ending) = some l → Limited maxBytes l := by
  intro l hl
  obtain ⟨l', hl', rfl⟩ := Option.map_eq_some_iff.mp hl
  exact limited_finish (hx.limited l' hl')

/-! ## What happens to a fetch -/

theorem Kept.sound_finish (hx : x.Kept maxBytes) {ending : Ending} :
    Sound maxBytes (fun x => (x.finish ending, 0)) x :=
  hx.sound_same rfl rfl rfl (by simp [finish]) hx.limited_map

theorem aborting_same {e : FetchError} : (x.aborting e).stage = x.stage ∧
    (x.aborting e).released = x.released ∧ (x.aborting e).givenBack = x.givenBack ∧
      (x.aborting e).limited.isSome = x.limited.isSome := by
  simp only [aborting, destroy]
  split
  · exact ⟨rfl, rfl, rfl, rfl⟩
  · split
    · exact ⟨rfl, rfl, rfl, by simp⟩
    · exact ⟨rfl, rfl, rfl, rfl⟩

theorem Kept.aborting (hx : x.Kept maxBytes) {e : FetchError} : (x.aborting e).Kept maxBytes := by
  obtain ⟨hstage, hreleased, honce, hsome⟩ := aborting_same (x := x) (e := e)
  refine hx.same hstage hreleased honce hsome ?_
  intro l hl
  simp only [Transfer.aborting, destroy] at hl
  split at hl
  · exact hx.limited l hl
  · split at hl
    · exact hx.limited_map l hl
    · exact hx.limited l hl

theorem Kept.sound_aborting (hx : x.Kept maxBytes) {e : FetchError} :
    Sound maxBytes (fun x => (x.aborting e, 0)) x := by
  obtain ⟨hstage, hreleased, honce, hsome⟩ := aborting_same (x := x) (e := e)
  exact hx.sound_same hstage hreleased honce hsome hx.aborting.limited

theorem Kept.sound_nothing (hx : x.Kept maxBytes) : Sound maxBytes (fun x => (x, 0)) x :=
  hx.sound_same rfl rfl rfl rfl hx.limited

theorem Kept.sound_abort (hx : x.Kept maxBytes) {reason : FetchError} :
    Sound maxBytes (fun x => (x.abort reason, 0)) x := by
  by_cases hclosed : x.scope.closed = true
  · simpa [Sound, abort, hclosed] using hx.sound_nothing
  · simpa [Sound, abort, hclosed] using hx.sound_aborting (e := reason)

theorem Kept.sound_expire (hx : x.Kept maxBytes) : Sound maxBytes (fun x => (x.expire, 0)) x := by
  by_cases hclosed : x.scope.closed = true
  · simpa [Sound, expire, hclosed] using hx.sound_nothing
  · have hx' : Kept maxBytes { x with scope := { x.scope with timeout := true } } :=
      hx.same rfl rfl rfl rfl hx.limited
    simpa [Sound, expire, hclosed, unfinished] using hx'.sound_aborting (e := deadlineExceeded)

/-- **What a stream lets pass is within the limit**, and it fails with the first byte beyond. -/
theorem limited_transform {l : ByteLimit} (chunk : List UInt8) (h : Limited maxBytes l) (hopen : l.ending = none) :
    match l.transform chunk with
    | (l', none) => Limited maxBytes l'
    | (l', some e) => Limited maxBytes (l'.finish (.destroyed (some e))) := by
  obtain ⟨hmax, hpassed, hall, hbeyond⟩ := h
  have hbytes : l.bytes ≤ maxBytes := by
    by_contra hlt
    have := hbeyond (by omega)
    rw [hopen] at this
    cases this
  have hlength := hall hbytes
  rw [ByteLimit.transform]
  by_cases hlt : l.maxBytes < l.bytes + chunk.length
  · -- too much: what passed before stands, and the error is the last
    simp only [if_pos hlt, ByteLimit.finish, hopen]
    exact ⟨hmax, hpassed, fun hle => by simp only at hle; omega, fun _ => rfl⟩
  · simp only [if_neg hlt]
    refine ⟨hmax, ?_, ?_, ?_⟩
    · simp only [List.length_append]
      omega
    · intro _
      simp only [List.length_append]
      omega
    · intro hgt
      simp only at hgt
      omega

theorem Kept.sound_receive (hx : x.Kept maxBytes) {chunk : List UInt8} :
    Sound maxBytes (fun x => (x.receive chunk, 0)) x := by
  rcases hlimited : x.limited with _ | l
  · simpa [Sound, receive, hlimited] using hx.sound_nothing
  by_cases hopen : l.ending = none
  · have hl := limited_transform chunk (hx.limited l hlimited) hopen
    rcases htransform : l.transform chunk with ⟨l', _ | e⟩
    · rw [htransform] at hl
      have hsound := hx.sound_same (f := fun x => { x with limited := some l' }) rfl rfl rfl
        (by rw [hlimited]; rfl) (by rintro l'' hl''; obtain rfl := Option.some.inj hl''; exact hl)
      simpa [Sound, receive, hlimited, hopen, htransform] using hsound
    · -- the stream is over, and the scope is aborted
      rw [htransform] at hl
      have hx' : Kept maxBytes { x with limited := some (l'.finish (.destroyed (some e))) } :=
        hx.same rfl rfl rfl (by rw [hlimited]; rfl)
          (by rintro l'' hl''; obtain rfl := Option.some.inj hl''; exact hl)
      simpa [Sound, receive, hlimited, hopen, htransform, unfinished] using hx'.sound_aborting (e := e)
  · have hsome : l.ending.isSome = true := Option.isSome_iff_ne_none.mpr hopen
    simpa [Sound, receive, hlimited, hsome] using hx.sound_nothing

theorem Kept.sound_settle (hx : x.Kept maxBytes) : Sound maxBytes settle x := by
  by_cases h : (x.limited.any fun l => l.ending.isSome) = true
  · simpa only [Sound, settle, h, if_true] using hx.sound_leave
  · simpa only [Sound, settle, h, Bool.false_eq_true, if_false] using hx.sound_nothing

theorem Kept.sound_dispose (hx : x.Kept maxBytes) : Sound maxBytes dispose x := by
  by_cases h : x.limited.isSome = true
  · have hx' : Kept maxBytes ({ x with listening := false }.destroy none) :=
      hx.same rfl rfl rfl (by simp [destroy]) hx.limited_map
    have hdispose : x.dispose = ({ x with listening := false }.destroy none).leave := if_pos h
    rw [Sound, hdispose]
    exact hx'.sound_leave
  · simpa only [Sound, dispose, h, Bool.false_eq_true, if_false] using hx.sound_nothing

/-- A fetch returns its body. -/
theorem Kept.sound_stream (hx : x.Kept maxBytes) (hstage : x.stage = .fetching) :
    Sound maxBytes (fun x => (x.stream maxBytes, 0)) x := by
  have hreleased := hx.released
  have honce := hx.once
  simp only [unfinished, hstage] at hreleased honce
  refine ⟨⟨?_, ?_, nofun, fun _ => rfl, ?_⟩, ?_, ?_⟩
  · exact hreleased
  · exact honce
  · intro l hl
    obtain rfl := Option.some.inj hl
    exact ⟨rfl, Nat.zero_le _, fun _ => rfl, fun hlt => absurd hlt (Nat.not_lt_zero _)⟩
  · simp [hstage, Stage.rank]
  · simp [stream, unfinished, hstage]

/-- A fetch that looks for its body has none that could be over, or be disposed of. -/
theorem Kept.settle_fetching (hx : x.Kept maxBytes) (hstage : x.stage = .fetching) : x.settle = (x, 0) := by
  simp [settle, hx.fetching hstage]

theorem Kept.dispose_fetching (hx : x.Kept maxBytes) (hstage : x.stage = .fetching) : x.dispose = (x, 0) := by
  simp [dispose, hx.fetching hstage]

end Transfer

theorem Stage.eq_fetching_of_rank {a b : Stage} (h : a.rank ≤ b.rank) (hb : b = .fetching) : a = .fetching := by
  subst hb
  cases a with
  | fetching => rfl
  | streaming => exact absurd h (by decide)
  | gone => exact absurd h (by decide)

/-! ## The account -/

namespace Fetcher

variable {f : AttachmentFetcher} {s : Fetcher} {t t' : Nat} {x : Transfer}

/-- The slots that are taken are those of the fetches that are not over. -/
structure Balanced (f : AttachmentFetcher) (s : Fetcher) : Prop where
  active : s.active = s.transfers.countP Transfer.unfinished
  bound : s.active ≤ f.maxConcurrent
  kept : ∀ x ∈ s.transfers, x.Kept f.maxBytes

/-- Every fetch keeps its ticket, and none goes back. -/
def Onward (s s' : Fetcher) : Prop :=
  ∀ (t : Nat) (x : Transfer), s.transfers[t]? = some x →
    ∃ x', s'.transfers[t]? = some x' ∧ x.stage.rank ≤ x'.stage.rank

theorem onward_refl (s : Fetcher) : Onward s s := fun _ x hx => ⟨x, hx, le_rfl⟩

theorem balanced_idle {outside : Outside} : (idle outside).Balanced f where
  active := rfl
  bound := by simp [idle]
  kept := nofun

theorem act_of_none {g : Transfer → Transfer × Nat} (h : s.transfers[t]? = none) : s.act t g = s := by
  rw [act, h]

theorem act_of_some {g : Transfer → Transfer × Nat} (h : s.transfers[t]? = some x) :
    s.act t g = { s with active := s.active - (g x).2, transfers := s.transfers.set t (g x).1 } := by
  rw [act, h]

theorem act_self {g : Transfer → Transfer × Nat} (h : s.transfers[t]? = some x) :
    (s.act t g).transfers[t]? = some (g x).1 := by
  rw [act_of_some h]
  exact List.getElem?_set_self (List.getElem?_eq_some_iff.mp h).1

theorem act_of_ne {g : Transfer → Transfer × Nat} (h : t' ≠ t) :
    (s.act t g).transfers[t']? = s.transfers[t']? := by
  rcases hx : s.transfers[t]? with _ | x
  · rw [act_of_none hx]
  · rw [act_of_some hx]
    exact List.getElem?_set_ne h.symm

/-- **What happens to one fetch keeps the account.** -/
theorem balanced_act {g : Transfer → Transfer × Nat} (hs : s.Balanced f)
    (hg : ∀ x, s.transfers[t]? = some x → x.Kept f.maxBytes → x.Sound f.maxBytes g) :
    (s.act t g).Balanced f ∧ s.Onward (s.act t g) := by
  rcases hx : s.transfers[t]? with _ | x
  · rw [act_of_none hx]
    exact ⟨hs, onward_refl s⟩
  obtain ⟨hkept, hrank, hslots⟩ := hg x hx (hs.kept x (List.mem_of_getElem? hx))
  obtain ⟨ht, hget⟩ := List.getElem?_eq_some_iff.mp hx
  refine ⟨?_, ?_⟩
  · -- one slot is given back for a fetch that is over now
    have hpos : (if x.unfinished then 1 else 0) ≤ s.transfers.countP Transfer.unfinished := by
      by_cases hun : x.unfinished = true
      · simp only [hun, if_true]
        exact List.countP_pos_iff.mpr ⟨x, List.mem_of_getElem? hx, hun⟩
      · simp [hun]
    have hcount := List.countP_set (p := Transfer.unfinished) (a := (g x).1) ht
    rw [hget] at hcount
    have hactive := hs.active
    have hbound := hs.bound
    rw [act_of_some hx]
    refine ⟨?_, ?_, ?_⟩
    · show s.active - ((g x).2 : Int) = _
      rw [hcount, hactive]
      omega
    · show s.active - ((g x).2 : Int) ≤ _
      omega
    · intro y hy
      rcases List.mem_or_eq_of_mem_set hy with hy | rfl
      · exact hs.kept y hy
      · exact hkept
  · intro t' y hy
    by_cases htt : t' = t
    · subst htt
      obtain rfl := Option.some.inj (hx.symm.trans hy)
      exact ⟨_, act_self hx, hrank⟩
    · exact ⟨y, (act_of_ne htt).trans hy, le_rfl⟩

theorem length_act {g : Transfer → Transfer × Nat} : (s.act t g).transfers.length = s.transfers.length := by
  rcases hx : s.transfers[t]? with _ | x
  · rw [act_of_none hx]
  · rw [act_of_some hx]
    exact List.length_set

theorem length_happens (e : FetchEvent) : (s.happens e).transfers.length = s.transfers.length := by
  cases e with
  | answers outside => rfl
  | _ => exact length_act

/-- A fetch that looks for its body did so before. -/
theorem Onward.fetching {s' : Fetcher} (h : s.Onward s') (hlength : s'.transfers.length = s.transfers.length)
    (hx : s'.transfers[t]? = some x) (hstage : x.stage = .fetching) :
    ∃ x, s.transfers[t]? = some x ∧ x.stage = .fetching := by
  have ht : t < s.transfers.length := hlength ▸ (List.getElem?_eq_some_iff.mp hx).1
  obtain ⟨x', hx', hrank⟩ := h t _ (List.getElem?_eq_getElem ht)
  obtain rfl := Option.some.inj (hx'.symm.trans hx)
  exact ⟨_, List.getElem?_eq_getElem ht, Stage.eq_fetching_of_rank hrank hstage⟩

/-- What happens to one fetch leaves it looking for its body, where it does so to that fetch. -/
theorem act_fetching {g : Transfer → Transfer × Nat} (hx : s.transfers[t']? = some x) (hstage : x.stage = .fetching)
    (hg : (g x).1.stage = x.stage) : ∃ x, (s.act t g).transfers[t']? = some x ∧ x.stage = .fetching := by
  by_cases htt : t' = t
  · subst htt
    exact ⟨_, act_self hx, hg.trans hstage⟩
  · exact ⟨x, (act_of_ne htt).trans hx, hstage⟩

/-- **Others keep the account.** -/
theorem balanced_happens (hs : s.Balanced f) (e : FetchEvent) :
    (s.happens e).Balanced f ∧ s.Onward (s.happens e) := by
  cases e with
  | answers outside => exact ⟨⟨hs.active, hs.bound, hs.kept⟩, onward_refl s⟩
  | aborts t reason => exact balanced_act hs fun _ _ hx => hx.sound_abort
  | expires t => exact balanced_act hs fun _ _ hx => hx.sound_expire
  | receives t chunk => exact balanced_act hs fun _ _ hx => hx.sound_receive
  | finishes t ending => exact balanced_act hs fun _ _ hx => hx.sound_finish
  | settles t => exact balanced_act hs fun _ _ hx => hx.sound_settle
  | disposes t => exact balanced_act hs fun _ _ hx => hx.sound_dispose

/-- Others do not end a fetch that looks for its body. -/
theorem happens_fetching (hs : s.Balanced f) (e : FetchEvent) (hx : s.transfers[t]? = some x)
    (hstage : x.stage = .fetching) : ∃ x, (s.happens e).transfers[t]? = some x ∧ x.stage = .fetching := by
  have hkept := hs.kept x (List.mem_of_getElem? hx)
  cases e with
  | answers outside => exact ⟨x, hx, hstage⟩
  | aborts t' reason =>
    refine act_fetching hx hstage ?_
    simp only [Transfer.abort]
    split
    · rfl
    · exact Transfer.aborting_same.1
  | expires t' =>
    refine act_fetching hx hstage ?_
    simp only [Transfer.expire]
    split
    · rfl
    · exact Transfer.aborting_same.1
  | receives t' chunk => exact act_fetching hx hstage (by simp [Transfer.receive, hkept.fetching hstage])
  | finishes t' ending => exact act_fetching hx hstage rfl
  | settles t' => exact act_fetching hx hstage (by rw [hkept.settle_fetching hstage])
  | disposes t' => exact act_fetching hx hstage (by rw [hkept.dispose_fetching hstage])

/-- A fetch gets a slot: there was one left. -/
theorem balanced_acquire {signal : Option FetchError} (hs : s.Balanced f) (hfree : s.active < f.maxConcurrent) :
    Balanced f { s with active := s.active + 1, transfers := s.transfers ++ [.begun signal] } where
  active := by
    rw [List.countP_append, hs.active]
    rfl
  bound := by
    simp only
    omega
  kept := by
    intro x hx
    rcases List.mem_append.mp hx with hx | hx
    · exact hs.kept x hx
    · obtain rfl := List.mem_singleton.mp hx
      exact Transfer.kept_begun

end Fetcher

end BegetBridge.Attachment
