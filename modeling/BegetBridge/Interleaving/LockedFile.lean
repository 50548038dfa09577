import BegetBridge.Interleaving.Noting

/-!
# A record in a file, under a lock file

Calls replace the record in a file. A call creates a lock file, which must not be there; reads the record; asks
questions; writes the new record to a temporary file; renames that to the file; and removes the lock file. A call may
stop anywhere, and any operation may fail.

## Main definitions

* `FileState`, `FileOp`: the file, the lock file and the temporary files
* `FileNotes`: how far a call is, and what it has read, asked and written
* `obeys`: what a call may do, by its notes
* `Exclusive`: the lock file is there while a call is inside, and nobody else is
* `Recorded`: where the records that were published come from

## Main results

* `exclusive_step`: a step keeps the calls apart, and leaves the record or replaces the one that its call has read
* `recorded_step`, `run_recorded`: each record was made by one call from the one before it
-/

namespace LockedFile

open Interleaving

/-- Why an operation fails: the name is there already, or is not there; the record cannot be read; or another reason. -/
inductive FileError
  | taken
  | missing
  | malformed
  | io
  deriving DecidableEq

/-- The record in the file, if the file has one; whether the lock file is there; the temporary files, with what was
written to them; what questions are answered with; and the records that were published, oldest first. -/
structure FileState (Q V R : Type) where
  record : Option R
  locked : Bool
  temporary : String → Option (Option R)
  answers : Q → V
  published : List R

/-- The operations. To settle is to synchronise or to close, which others do not notice. -/
inductive FileOp (Q V R : Type) : Type → Type
  | lock : FileOp Q V R Unit
  | settle : FileOp Q V R Unit
  | read : FileOp Q V R R
  | ask (q : Q) : FileOp Q V R V
  | create (name : String) : FileOp Q V R Unit
  | write (name : String) (r : R) : FileOp Q V R Unit
  | publish (name : String) : FileOp Q V R Unit
  | discard (name : String) : FileOp Q V R Unit
  | unlock : FileOp Q V R Unit

variable {Q V R : Type}

/-- What an operation does. -/
def FileOp.exec {β : Type} : FileOp Q V R β → FileState Q V R → Except FileError (β × FileState Q V R)
  | .lock, s => if s.locked then .error .taken else .ok ((), { s with locked := true })
  | .settle, s => .ok ((), s)
  | .read, s =>
    match s.record with
    | some r => .ok (r, s)
    | none => .error .malformed
  | .ask q, s => .ok (s.answers q, s)
  | .create name, s =>
    match s.temporary name with
    | some _ => .error .taken
    | none => .ok ((), { s with temporary := Function.update s.temporary name (some none) })
  | .write name r, s => .ok ((), { s with temporary := Function.update s.temporary name (some (some r)) })
  | .publish name, s =>
    match s.temporary name with
    | some content => .ok ((), { s with
        record := content, temporary := Function.update s.temporary name none
        published := s.published ++ content.toList })
    | none => .error .missing
  | .discard name, s =>
    match s.temporary name with
    | some _ => .ok ((), { s with temporary := Function.update s.temporary name none })
    | none => .error .missing
  | .unlock, s => if s.locked then .ok ((), { s with locked := false }) else .error .missing

/-- How far a call is. -/
inductive Phase
  | outside
  | holding
  | published
  | gone
  deriving DecidableEq

/-- How far a call is, what it has read, asked and written, and the place of the record that it published. -/
structure FileNotes (Q V R : Type) where
  phase : Phase
  seen : Option R
  asked : List (Q × V)
  created : Option String
  staged : Option (String × R)
  publishedAt : Option Nat

def FileNotes.nothing : FileNotes Q V R := ⟨.outside, none, [], none, none, none⟩

/-- What a call notes of an operation that took effect, where a record that it publishes gets a place. -/
def FileNotes.noted {β : Type} : FileOp Q V R β → β → Nat → FileNotes Q V R → FileNotes Q V R
  | .lock, _, _, n => { n with phase := .holding }
  | .settle, _, _, n => n
  | .read, r, _, n => { n with seen := some r }
  | .ask q, v, _, n => { n with asked := (q, v) :: n.asked }
  | .create name, _, _, n => { n with created := some name }
  | .write name r, _, _, n => { n with staged := some (name, r) }
  | .publish _, _, place, n => { n with phase := .published, publishedAt := some place }
  | .discard _, _, _, n => { n with staged := none }
  | .unlock, _, _, n => { n with phase := .gone }

/-- The call is between its lock and its unlock. -/
def FileNotes.Inside (n : FileNotes Q V R) : Prop := n.phase = .holding ∨ n.phase = .published

/-- The calls of some kinds on a file. Answers to questions change by themselves. -/
def fileCalls {κ α : Type} (program : κ → Prog (FileOp Q V R) FileError α) (Fault : FileError → Prop) :
    Calls (FileOp Q V R) FileError (FileState Q V R) κ (FileNotes Q V R) (Q → V) α where
  exec op s := op.exec s
  Fault := Fault
  ready _ _ := True
  program := program
  notes _ := .nothing
  note op b s n := n.noted op b (s.published.length - 1)
  elsewhere answers s s' := s' = { s with answers := answers }

/-- What a call of a kind may do, by its notes. It replaces a record that it has read by one that `Change` allows, for
what it was answered. -/
def obeys {κ : Type} (Change : κ → List (Q × V) → R → R → Prop) (kind : κ) {β : Type} :
    FileOp Q V R β → FileNotes Q V R → Prop
  | .lock, n => n.phase = .outside ∧ n.seen = none ∧ n.staged = none
  | .settle, _ => True
  | .read, n => n.phase = .holding ∧ n.staged = none
  | .ask _, n => n.staged = none ∧ n.publishedAt = none
  | .create _, n => n.phase = .holding ∧ n.staged = none
  | .write name r, n => n.phase = .holding ∧ n.staged = none ∧ n.created = some name ∧
      ∃ prev, n.seen = some prev ∧ Change kind n.asked prev r
  | .publish name, n => n.phase = .holding ∧ ∃ r, n.staged = some (name, r)
  | .discard _, n => n.Inside
  | .unlock, n => n.Inside

section Calls

variable {κ α : Type} {program : κ → Prog (FileOp Q V R) FileError α} {Fault : FileError → Prop}
  {Change : κ → List (Q × V) → R → R → Prop}

/-- A pool of calls on a file. -/
abbrev FilePool (Q V R κ α : Type) := Pool (FileOp Q V R) FileError (FileState Q V R) κ (FileNotes Q V R) α

abbrev FileEvent (Q V R κ α : Type) := Event κ (FileNotes Q V R) (Q → V) α

/-- The lock file is there while a call is inside, and nobody else is. The record is the one that the call has read,
and what it has written stands in its temporary file. -/
structure Exclusive (Change : κ → List (Q × V) → R → R → Prop) (p : FilePool Q V R κ α) : Prop where
  alone : ∀ i j c d, p.calls i = some c → p.calls j = some d → c.notes.Inside → d.notes.Inside → i = j
  locked : ∀ i c, p.calls i = some c → c.notes.Inside → p.store.locked = true
  seen : ∀ i c r, p.calls i = some c → c.notes.phase = .holding → c.notes.seen = some r → p.store.record = some r
  staged : ∀ i c name r, p.calls i = some c → c.notes.phase = .holding → c.notes.staged = some (name, r) →
    p.store.temporary name = some (some r) ∧ ∃ prev, c.notes.seen = some prev ∧ Change c.kind c.notes.asked prev r
  publishedAt : ∀ i c k, p.calls i = some c → c.notes.publishedAt = some k →
    k < p.store.published.length ∧ (c.notes.phase = .published ∨ c.notes.phase = .gone)

/-- The record was replaced by a call: by one that `Change` allows for what the call was answered, from the one that
was there. -/
def Replaced (Change : κ → List (Q × V) → R → R → Prop) (s s' : FileState Q V R) (kind : κ) (n n' : FileNotes Q V R) :
    Prop :=
  ∃ prev r, s.record = some prev ∧ s'.record = some r ∧ Change kind n.asked prev r ∧
    s'.published = s.published ++ [r] ∧ n'.publishedAt = some s.published.length

variable {p p' : FilePool Q V R κ α} {l : FileEvent Q V R κ α} {h : List (FileEvent Q V R κ α × FilePool Q V R κ α)}
  {i : Nat} {kind : κ} {n n' : FileNotes Q V R} {s : FileState Q V R} {rest q : Prog (FileOp Q V R) FileError α}

theorem nothing_not_inside : ¬(FileNotes.nothing : FileNotes Q V R).Inside := by
  rintro (h | h)
  · cases h
  · cases h

/-- What is left to show where a call gets other notes and the files change: of the call itself, and of another one
that is inside. -/
theorem exclusive_put (hp : Exclusive Change p) (hi : p.calls i = some ⟨kind, n, rest⟩)
    (hothers : ∀ j d, j ≠ i → p.calls j = some d → d.notes.Inside →
      s.record = p.store.record ∧ s.temporary = p.store.temporary ∧ s.locked = p.store.locked)
    (hinside : n'.Inside → n.Inside ∨ ∀ j d, p.calls j = some d → ¬d.notes.Inside)
    (hlocked : n'.Inside → s.locked = true)
    (hseen : n'.phase = .holding → ∀ r, n'.seen = some r → s.record = some r)
    (hstaged : n'.phase = .holding → ∀ name r, n'.staged = some (name, r) →
      s.temporary name = some (some r) ∧ ∃ prev, n'.seen = some prev ∧ Change kind n'.asked prev r)
    (hlength : p.store.published.length ≤ s.published.length)
    (hpublished : ∀ k, n'.publishedAt = some k →
      k < s.published.length ∧ (n'.phase = .published ∨ n'.phase = .gone)) :
    Exclusive Change { p.put i (some ⟨kind, n', q⟩) with store := s } := by
  constructor
  · intro j k c d hc hd hcin hdin
    rcases Pool.put_cases (q := p) hc with ⟨rfl, heq⟩ | ⟨-, hc'⟩
    · obtain rfl := Option.some.inj heq
      rcases Pool.put_cases (q := p) hd with ⟨rfl, -⟩ | ⟨-, hd'⟩
      · rfl
      · rcases hinside hcin with hn | hnone
        · exact hp.alone _ _ _ _ hi hd' hn hdin
        · exact absurd hdin (hnone k d hd')
    · rcases Pool.put_cases (q := p) hd with ⟨rfl, heq⟩ | ⟨-, hd'⟩
      · obtain rfl := Option.some.inj heq
        rcases hinside hdin with hn | hnone
        · exact hp.alone _ _ _ _ hc' hi hcin hn
        · exact absurd hcin (hnone j c hc')
      · exact hp.alone _ _ _ _ hc' hd' hcin hdin
  · intro j c hc hcin
    rcases Pool.put_cases (q := p) hc with ⟨-, heq⟩ | ⟨hne, hc⟩
    · obtain rfl := Option.some.inj heq
      exact hlocked hcin
    · exact (hothers j c hne hc hcin).2.2.trans (hp.locked j c hc hcin)
  · intro j c r hc hphase hr
    rcases Pool.put_cases (q := p) hc with ⟨-, heq⟩ | ⟨hne, hc⟩
    · obtain rfl := Option.some.inj heq
      exact hseen hphase r hr
    · exact (hothers j c hne hc (.inl hphase)).1.trans (hp.seen j c r hc hphase hr)
  · intro j c name r hc hphase hr
    rcases Pool.put_cases (q := p) hc with ⟨-, heq⟩ | ⟨hne, hc⟩
    · obtain rfl := Option.some.inj heq
      exact hstaged hphase name r hr
    · obtain ⟨htemporary, hchange⟩ := hp.staged j c name r hc hphase hr
      exact ⟨(congrFun (hothers j c hne hc (.inl hphase)).2.1 name).trans htemporary, hchange⟩
  · intro j c k hc hk
    rcases Pool.put_cases (q := p) hc with ⟨-, heq⟩ | ⟨-, hc⟩
    · obtain rfl := Option.some.inj heq
      exact hpublished k hk
    · exact ⟨(hp.publishedAt j c k hc hk).1.trans_le hlength, (hp.publishedAt j c k hc hk).2⟩

/-- An operation that leaves the files, and of the notes what counts. -/
theorem exclusive_idle (hp : Exclusive Change p) (hi : p.calls i = some ⟨kind, n, rest⟩) :
    Exclusive Change { p.put i (some ⟨kind, n, q⟩) with store := p.store } :=
  exclusive_put hp hi (fun _ _ _ _ _ => ⟨rfl, rfl, rfl⟩) .inl (hp.locked i _ hi) (fun hphase r => hp.seen i _ r hi hphase)
    (fun hphase name r => hp.staged i _ name r hi hphase) le_rfl fun k => hp.publishedAt i _ k hi

/-- Nobody else is inside where a call is. -/
theorem Exclusive.others (hp : Exclusive Change p) (hi : p.calls i = some ⟨kind, n, rest⟩) (hn : n.Inside) {P : Prop} :
    ∀ j d, j ≠ i → p.calls j = some d → d.notes.Inside → P :=
  fun _ _ hne hd hdin => absurd (hp.alone _ _ _ _ hd hi hdin hn) hne

/-- A call has published nothing before it is there. -/
theorem Exclusive.unpublished (hp : Exclusive Change p) (hi : p.calls i = some ⟨kind, n, rest⟩)
    (hn : n.phase = .outside ∨ n.phase = .holding) {P : Nat → Prop} : ∀ k, n.publishedAt = some k → P k := by
  intro k hk
  rcases (hp.publishedAt i _ k hi hk).2 with hphase | hphase
  · rw [hphase] at hn
    simp at hn
  · rw [hphase] at hn
    simp at hn

/-- **An operation of a call** keeps the calls apart, and leaves the record or replaces the one that the call has
read. -/
theorem exclusive_exec {β : Type} {op : FileOp Q V R β} {b : β} (hp : Exclusive Change p)
    (hi : p.calls i = some ⟨kind, n, rest⟩) (hop : obeys Change kind op n) (hexec : op.exec p.store = .ok (b, s)) :
    Exclusive Change { p.put i (some ⟨kind, n.noted op b (s.published.length - 1), q⟩) with store := s } ∧
    (s.record = p.store.record ∧ s.published = p.store.published ∨
      Replaced Change p.store s kind n (n.noted op b (s.published.length - 1))) := by
  cases op with
  | lock =>
    by_cases hlocked : p.store.locked = true
    · simp [FileOp.exec, hlocked] at hexec
    · simp only [FileOp.exec, if_neg hlocked, Except.ok.injEq, Prod.mk.injEq] at hexec
      obtain ⟨-, rfl⟩ := hexec
      -- nobody is inside, since the lock file is not there
      have hnone : ∀ j d, p.calls j = some d → ¬d.notes.Inside := fun j d hd hdin => hlocked (hp.locked j d hd hdin)
      obtain ⟨hphase, hseen, hstaged⟩ := hop
      refine ⟨exclusive_put hp hi (fun j d _ hd hdin => absurd hdin (hnone j d hd)) (fun _ => .inr hnone)
        (fun _ => rfl) ?_ ?_ le_rfl (hp.unpublished hi (.inl hphase)), .inl ⟨rfl, rfl⟩⟩
      · rintro - r heq
        cases hseen.symm.trans heq
      · rintro - name r heq
        cases hstaged.symm.trans heq
  | settle =>
    obtain ⟨-, rfl⟩ := Prod.mk.inj (Except.ok.inj hexec)
    exact ⟨exclusive_idle hp hi, .inl ⟨rfl, rfl⟩⟩
  | read =>
    obtain ⟨hphase, hstaged⟩ := hop
    rw [FileOp.exec] at hexec
    split at hexec
    · rename_i r hrecord
      obtain ⟨rfl, rfl⟩ := Prod.mk.inj (Except.ok.inj hexec)
      refine ⟨exclusive_put hp hi (hp.others hi (.inl hphase)) .inl (hp.locked i _ hi) ?_ ?_ le_rfl
        (hp.unpublished hi (.inr hphase)), .inl ⟨rfl, rfl⟩⟩
      · rintro - r' heq
        obtain rfl := Option.some.inj heq
        exact hrecord
      · rintro - name r' heq
        cases hstaged.symm.trans heq
    · cases hexec
  | ask q =>
    obtain ⟨-, rfl⟩ := Prod.mk.inj (Except.ok.inj hexec)
    refine ⟨exclusive_put hp hi (fun _ _ _ _ _ => ⟨rfl, rfl, rfl⟩) .inl (hp.locked i _ hi)
      (fun hphase r => hp.seen i _ r hi hphase) ?_ le_rfl fun k => hp.publishedAt i _ k hi, .inl ⟨rfl, rfl⟩⟩
    rintro - name r heq
    cases hop.1.symm.trans heq
  | create name =>
    obtain ⟨hphase, hstaged⟩ := hop
    rw [FileOp.exec] at hexec
    split at hexec
    · cases hexec
    · obtain ⟨-, rfl⟩ := Prod.mk.inj (Except.ok.inj hexec)
      refine ⟨exclusive_put hp hi (hp.others hi (.inl hphase)) .inl (hp.locked i _ hi)
        (fun hphase r => hp.seen i _ r hi hphase) ?_ le_rfl (hp.unpublished hi (.inr hphase)), .inl ⟨rfl, rfl⟩⟩
      rintro - name r heq
      cases hstaged.symm.trans heq
  | write name r =>
    obtain ⟨hphase, -, -, prev, hprev, hchange⟩ := hop
    obtain ⟨-, rfl⟩ := Prod.mk.inj (Except.ok.inj hexec)
    refine ⟨exclusive_put hp hi (hp.others hi (.inl hphase)) .inl (hp.locked i _ hi)
      (fun hphase r => hp.seen i _ r hi hphase) ?_ le_rfl (hp.unpublished hi (.inr hphase)), .inl ⟨rfl, rfl⟩⟩
    rintro - name' r' heq
    obtain ⟨rfl, rfl⟩ := Prod.mk.inj (Option.some.inj heq)
    exact ⟨Function.update_self .., prev, hprev, hchange⟩
  | publish name =>
    obtain ⟨hphase, r, hr⟩ := hop
    obtain ⟨hcontent, prev, hprev, hchange⟩ := hp.staged i _ name r hi hphase hr
    simp only [FileOp.exec, hcontent, Except.ok.injEq, Prod.mk.injEq] at hexec
    obtain ⟨-, rfl⟩ := hexec
    refine ⟨exclusive_put hp hi (hp.others hi (.inl hphase)) (fun _ => .inl (.inl hphase))
      (fun _ => hp.locked i _ hi (.inl hphase)) (fun h => absurd h nofun) (fun h => absurd h nofun) (by simp) ?_,
      .inr ⟨prev, r, hp.seen i _ prev hi hphase hprev, rfl, hchange, rfl, ?_⟩⟩
    · intro k hk
      obtain rfl := Option.some.inj hk
      exact ⟨by simp, .inl rfl⟩
    · simp [FileNotes.noted]
  | discard name =>
    rw [FileOp.exec] at hexec
    split at hexec
    · obtain ⟨-, rfl⟩ := Prod.mk.inj (Except.ok.inj hexec)
      refine ⟨exclusive_put hp hi (hp.others hi hop) .inl (hp.locked i _ hi) (fun hphase r => hp.seen i _ r hi hphase)
        ?_ le_rfl fun k => hp.publishedAt i _ k hi, .inl ⟨rfl, rfl⟩⟩
      rintro - name' r heq
      cases heq
    · cases hexec
  | unlock =>
    by_cases hlocked : p.store.locked = true
    · simp only [FileOp.exec, if_pos hlocked, Except.ok.injEq, Prod.mk.injEq] at hexec
      obtain ⟨-, rfl⟩ := hexec
      refine ⟨exclusive_put hp hi (hp.others hi hop) ?_ ?_ (fun h => absurd h nofun) (fun h => absurd h nofun) le_rfl
        fun k hk => ⟨(hp.publishedAt i _ k hi hk).1, .inr rfl⟩, .inl ⟨rfl, rfl⟩⟩
      · rintro (h | h)
        · cases h
        · cases h
      · rintro (h | h)
        · cases h
        · cases h
    · simp [FileOp.exec, hlocked] at hexec

/-- A call begins, or ends. -/
theorem exclusive_call {c : Option (InFlight (FileOp Q V R) FileError κ (FileNotes Q V R) α)} (hp : Exclusive Change p)
    (hc : ∀ d, c = some d → d.notes = .nothing) : Exclusive Change (p.put i c) := by
  have hcases : ∀ {j d}, (p.put i c).calls j = some d → d.notes = .nothing ∨ p.calls j = some d := by
    intro j d hd
    rcases Pool.put_cases hd with ⟨-, heq⟩ | ⟨-, hd⟩
    · exact .inl (hc d heq)
    · exact .inr hd
  constructor
  · intro j k c d hc' hd hcin hdin
    rcases hcases hc' with heq | hc'
    · exact absurd (heq ▸ hcin) nothing_not_inside
    · rcases hcases hd with heq | hd
      · exact absurd (heq ▸ hdin) nothing_not_inside
      · exact hp.alone j k c d hc' hd hcin hdin
  · intro j d hd hdin
    rcases hcases hd with heq | hd
    · exact absurd (heq ▸ hdin) nothing_not_inside
    · exact hp.locked j d hd hdin
  · intro j d r hd hphase hr
    rcases hcases hd with heq | hd
    · rw [heq] at hphase
      cases hphase
    · exact hp.seen j d r hd hphase hr
  · intro j d name r hd hphase hr
    rcases hcases hd with heq | hd
    · rw [heq] at hphase
      cases hphase
    · exact hp.staged j d name r hd hphase hr
  · intro j d k hd hk
    rcases hcases hd with heq | hd
    · rw [heq] at hk
      cases hk
    · exact hp.publishedAt j d k hd hk

/-- Every operation of a call is one that it may do. -/
def Obedient (Change : κ → List (Q × V) → R → R → Prop) (p : FilePool Q V R κ α) (l : FileEvent Q V R κ α) : Prop :=
  ∀ i kind n (β : Type) (op : FileOp Q V R β) k, l = .operates i → p.calls i = some ⟨kind, n, .call op k⟩ →
    obeys Change kind op n

/-- **A step** keeps the calls apart, and leaves the record or replaces it. -/
theorem exclusive_step (hp : Exclusive Change p) (hs : Pool.Step (fileCalls program Fault) p l p')
    (hobeys : Obedient Change p l) :
    Exclusive Change p' ∧ (p'.store.record = p.store.record ∧ p'.store.published = p.store.published ∨
      ∃ i c d, l = .operates i ∧ p.calls i = some c ∧ p'.calls i = some d ∧ d.kind = c.kind ∧
        Replaced Change p.store p'.store c.kind c.notes d.notes) := by
  cases hs with
  | begins hi =>
    refine ⟨exclusive_call hp fun d hd => ?_, .inl ⟨rfl, rfl⟩⟩
    obtain rfl := Option.some.inj hd
    rfl
  | returns hi => exact ⟨exclusive_call hp nofun, .inl ⟨rfl, rfl⟩⟩
  | elsewhere he =>
    obtain rfl := he
    exact ⟨⟨hp.alone, hp.locked, hp.seen, hp.staged, hp.publishedAt⟩, .inl ⟨rfl, rfl⟩⟩
  | operates hi hready hans =>
    cases hans with
    | refusal he => exact ⟨exclusive_idle hp hi, .inl ⟨rfl, rfl⟩⟩
    | fault hf => exact ⟨exclusive_idle hp hi, .inl ⟨rfl, rfl⟩⟩
    | effect he =>
      obtain ⟨hafter, hrecord⟩ := exclusive_exec hp hi (hobeys _ _ _ _ _ _ rfl hi) he
      refine ⟨hafter, hrecord.imp_right fun hreplaced => ?_⟩
      exact ⟨_, _, _, rfl, hi, Pool.put_self (p := p), rfl, hreplaced⟩

theorem exclusive_still : Exclusive Change (Pool.still s : FilePool Q V R κ α) := by
  have hstill : ∀ i c, (Pool.still s : FilePool Q V R κ α).calls i ≠ some c := fun i c => by simp [Pool.still]
  constructor
  · exact fun i j c d hc => absurd hc (hstill _ _)
  · exact fun i c hc => absurd hc (hstill _ _)
  · exact fun i c r hc => absurd hc (hstill _ _)
  · exact fun i c name r hc => absurd hc (hstill _ _)
  · exact fun i c k hc => absurd hc (hstill _ _)

/-- The place of a record that is published now is new. -/
theorem publishedAt_noted {β : Type} {op : FileOp Q V R β} {b : β} {t : Nat} (hexec : op.exec p.store = .ok (b, s))
    (ht : (n.noted op b (s.published.length - 1)).publishedAt = some t) (hp : Exclusive Change p)
    (hi : p.calls i = some ⟨kind, n, rest⟩) (hop : obeys Change kind op n) :
    n.publishedAt = some t ∨ t = p.store.published.length := by
  cases op with
  | publish name =>
    obtain ⟨-, hrecord | ⟨prev, r, -, -, -, -, hplace⟩⟩ := exclusive_exec (q := rest) hp hi hop hexec
    · -- something was published
      obtain ⟨hphase, r, hr⟩ := hop
      obtain ⟨hcontent, -⟩ := hp.staged i _ name r hi hphase hr
      simp only [FileOp.exec, hcontent, Except.ok.injEq, Prod.mk.injEq] at hexec
      obtain ⟨-, rfl⟩ := hexec
      simp at hrecord
    · exact .inr (Option.some.inj (ht.symm.trans hplace))
  | _ => exact .inl ht

/-! ## Runs -/

/-- The record at a place was made by a call of the kind, with these notes: from the one before it, as `Change`
allows. -/
def Made (Change : κ → List (Q × V) → R → R → Prop) (r₀ : R) (published : List R) (kind : κ) (n : FileNotes Q V R)
    (k : Nat) : Prop :=
  ∃ prev r, (r₀ :: published)[k]? = some prev ∧ published[k]? = some r ∧ Change kind n.asked prev r

theorem Made.append {r₀ : R} {published more : List R} {k : Nat} (h : Made Change r₀ published kind n k) :
    Made Change r₀ (published ++ more) kind n k := by
  obtain ⟨prev, r, hprev, hr, hchange⟩ := h
  exact ⟨prev, r, getElem?_append_some (h := r₀ :: published) hprev, getElem?_append_some hr, hchange⟩

/-- Before a record at the end of a list stands the last one of the list. -/
theorem before_snoc {r₀ r : R} {l : List R} : (r₀ :: (l ++ [r]))[l.length]? = some (l.getLastD r₀) := by
  cases l using List.reverseRecOn with
  | nil => rfl
  | append_singleton l x => simp [List.getLastD_eq_getLast?]

/-- The calls keep apart, the record is the last one that was published, and each was made by a call. -/
structure Recorded (Change : κ → List (Q × V) → R → R → Prop) (r₀ : R) (h : List (FileEvent Q V R κ α × FilePool Q V R κ α))
    (p : FilePool Q V R κ α) : Prop where
  exclusive : Exclusive Change p
  record : p.store.record = some (p.store.published.getLastD r₀)
  borne : ∀ k < p.store.published.length, ∃ x, Bears FileNotes.publishedAt h p x k
  inFlight : ∀ i c k, p.calls i = some c → c.notes.publishedAt = some k →
    Made Change r₀ p.store.published c.kind c.notes k
  returned : ∀ i kind n a q k, (.returns i kind n a, q) ∈ h → n.publishedAt = some k →
    Made Change r₀ p.store.published kind n k
  apart : Apart FileNotes.publishedAt h p

/-- The call that has published a record has made it. -/
theorem Recorded.made_of_bears {r₀ : R} (hp : Recorded Change r₀ h p) {x : Nat ⊕ Nat} {k : Nat}
    (hx : Bears FileNotes.publishedAt h p x k) : ∃ kind n, Made Change r₀ p.store.published kind n k := by
  cases x with
  | inl i =>
    obtain ⟨c, hc, hk⟩ := hx
    exact ⟨_, _, hp.inFlight i c k hc hk⟩
  | inr j =>
    obtain ⟨i, kind, n, a, q, hj, hk⟩ := hx
    exact ⟨_, _, hp.returned i kind n a q k (List.mem_of_getElem? hj) hk⟩

theorem Recorded.bears_lt {r₀ : R} (hp : Recorded Change r₀ h p) {x : Nat ⊕ Nat} {k : Nat}
    (hx : Bears FileNotes.publishedAt h p x k) : k < p.store.published.length := by
  obtain ⟨kind, n, _, _, -, hr, -⟩ := hp.made_of_bears hx
  exact (List.getElem?_eq_some_iff.mp hr).1

theorem Recorded.made {r₀ : R} (hp : Recorded Change r₀ h p) {k : Nat} (hk : k < p.store.published.length) :
    ∃ kind n, Made Change r₀ p.store.published kind n k := by
  obtain ⟨x, hx⟩ := hp.borne k hk
  exact hp.made_of_bears hx

/-- A call that has published keeps the place. -/
theorem publishedAt_kept {β : Type} {op : FileOp Q V R β} {b : β} {t : Nat} (ht : n.publishedAt = some t)
    (hp : Exclusive Change p) (hi : p.calls i = some ⟨kind, n, rest⟩) (hop : obeys Change kind op n) :
    (n.noted op b (s.published.length - 1)).publishedAt = some t := by
  cases op with
  | publish name => exact absurd ht fun heq => hp.unpublished (P := fun _ => False) hi (.inr hop.1) t heq
  | _ => exact ht

/-- A call that was answered before it published has made the record that it published. -/
theorem made_noted {r₀ : R} {β : Type} {op : FileOp Q V R β} {b : β} {k : Nat} (hp : Recorded Change r₀ h p)
    (hi : p.calls i = some ⟨kind, n, rest⟩) (hop : obeys Change kind op n) (hexec : op.exec p.store = .ok (b, s))
    (hk : (n.noted op b (s.published.length - 1)).publishedAt = some k) :
    Made Change r₀ s.published kind (n.noted op b (s.published.length - 1)) k := by
  rcases (exclusive_exec (q := rest) hp.exclusive hi hop hexec).2 with ⟨-, hsame⟩ | hreplaced
  · -- nothing was published now, so it was before
    rw [hsame]
    cases op with
    | publish name =>
      obtain ⟨hphase, r, hr⟩ := hop
      obtain ⟨hcontent, -⟩ := hp.exclusive.staged i _ name r hi hphase hr
      simp only [FileOp.exec, hcontent, Except.ok.injEq, Prod.mk.injEq] at hexec
      obtain ⟨-, rfl⟩ := hexec
      simp at hsame
    | ask q => cases hop.2.symm.trans hk
    | _ => exact hp.inFlight i _ k hi hk
  · obtain ⟨prev, r, hprev, -, hchange, hpublished, hplace⟩ := hreplaced
    obtain rfl := Option.some.inj (hk.symm.trans hplace)
    refine ⟨prev, r, ?_, ?_, ?_⟩
    · -- the record that was read is the last one before
      rw [hp.record] at hprev
      obtain rfl := Option.some.inj hprev
      rw [hpublished]
      exact before_snoc
    · rw [hpublished, List.getElem?_concat_length]
    · cases op with
      | publish name => exact hchange
      | ask q => cases hop.2.symm.trans hk
      | _ => exact hchange

/-- Each call still has made the record that it published. -/
theorem recorded_step {r₀ : R} (hp : Recorded Change r₀ h p) (hs : Pool.Step (fileCalls program Fault) p l p')
    (hobeys : Obedient Change p l) : Recorded Change r₀ (h ++ [(l, p')]) p' := by
  obtain ⟨hexclusive, hrecord⟩ := exclusive_step hp.exclusive hs hobeys
  -- what is published is kept
  obtain ⟨more, hmore⟩ : ∃ more, p'.store.published = p.store.published ++ more := by
    rcases hrecord with ⟨-, heq⟩ | ⟨i, c, d, -, -, -, -, prev, r, -, -, -, heq, -⟩
    · exact ⟨[], by rw [heq, List.append_nil]⟩
    · exact ⟨[r], heq⟩
  have hapart : Apart FileNotes.publishedAt (h ++ [(l, p')]) p' := by
    refine Pool.apart_step hp.apart hs (fun _ => rfl) ?_
    intro i kind n β op k r s t hl hi hans ht
    cases hans with
    | effect he =>
      rcases publishedAt_noted he ht hp.exclusive hi (hobeys _ _ _ _ _ _ hl hi) with heq | rfl
      · exact .inl heq
      · exact .inr fun x hx => (hp.bears_lt hx).false
    | refusal he => exact .inl ht
    | fault hf => exact .inl ht
  have hinFlight : ∀ i c k, p'.calls i = some c → c.notes.publishedAt = some k →
      Made Change r₀ p'.store.published c.kind c.notes k := by
    intro j c k hc hk
    have hbefore : p.calls j = some c → Made Change r₀ p'.store.published c.kind c.notes k := fun hc =>
      hmore ▸ (hp.inFlight j c k hc hk).append
    cases hs with
    | begins hi =>
      rcases Pool.put_cases hc with ⟨-, heq⟩ | ⟨-, hc⟩
      · obtain rfl := Option.some.inj heq
        cases hk
      · exact hbefore hc
    | returns hi =>
      rcases Pool.put_cases hc with ⟨-, heq⟩ | ⟨-, hc⟩
      · cases heq
      · exact hbefore hc
    | elsewhere he => exact hbefore hc
    | @operates i kind n β op rest r s hi hready hans =>
      rcases Pool.put_cases (q := p) hc with ⟨rfl, heq⟩ | ⟨-, hc⟩
      · obtain rfl := Option.some.inj heq
        cases hans with
        | effect he => exact made_noted hp hi (hobeys _ _ _ _ _ _ rfl hi) he hk
        | refusal he => exact hp.inFlight j ⟨kind, n, .call op rest⟩ k hi hk
        | fault hf => exact hp.inFlight j ⟨kind, n, .call op rest⟩ k hi hk
      · exact hbefore hc
  refine ⟨hexclusive, ?_, ?_, hinFlight, ?_, hapart⟩
  · rcases hrecord with ⟨hsame, heq⟩ | ⟨i, c, d, -, -, -, -, prev, r, -, hr, -, heq, -⟩
    · rw [hsame, heq, hp.record]
    · rw [hr, heq]
      simp [List.getLastD_eq_getLast?]
  · intro k hk
    have hbefore : k < p.store.published.length → ∃ x, Bears FileNotes.publishedAt (h ++ [(l, p')]) p' x k := by
      intro hk
      obtain ⟨x, hx⟩ := hp.borne k hk
      refine Pool.bears_step hx hs ?_
      intro i kind n β op rest r s hl hi hans ht
      cases hans with
      | effect he => exact publishedAt_kept ht hp.exclusive hi (hobeys _ _ _ _ _ _ hl hi)
      | refusal he => exact ht
      | fault hf => exact ht
    rcases hrecord with ⟨-, heq⟩ | ⟨i, c, d, -, -, hd, -, prev, r, -, -, -, heq, hplace⟩
    · exact hbefore (heq ▸ hk)
    · rw [heq, List.length_append, List.length_singleton] at hk
      rcases Nat.lt_succ_iff_lt_or_eq.mp hk with hk | rfl
      · exact hbefore hk
      · exact ⟨.inl i, d, hd, hplace⟩
  · intro i kind n a q k hmem hk
    rcases List.mem_append.mp hmem with hmem | hmem
    · exact hmore ▸ (hp.returned i kind n a q k hmem hk).append
    · -- a call that returns now was in flight
      obtain ⟨rfl, rfl⟩ := Prod.mk.inj (List.mem_singleton.mp hmem)
      cases hs with
      | returns hi => exact hp.inFlight i _ k hi hk

/-- **Runs**: the record is the last one that was published, each was made by one call from the one before it, and no
other call has made it. -/
theorem run_recorded {r₀ : R} {ok : FilePool Q V R κ α → FileEvent Q V R κ α → Prop} (hrecord : s.record = some r₀)
    (hpublished : s.published = [])
    (hpath : Path (Guarded ok (Pool.Step (fileCalls program Fault))) (Pool.still s) h p)
    (hobeys : ∀ {h p l}, Path (Guarded ok (Pool.Step (fileCalls program Fault))) (Pool.still s) h p →
      Exclusive Change p → ok p l → Obedient Change p l) : Recorded Change r₀ h p := by
  refine hpath.history ?_ fun hpath hp hs => recorded_step hp hs.2 (hobeys hpath hp.exclusive hs.1)
  refine ⟨exclusive_still, ?_, ?_, ?_, ?_, apart_still⟩
  · show s.record = some (s.published.getLastD r₀)
    rw [hrecord, hpublished]
    rfl
  · intro k hk
    change k < s.published.length at hk
    rw [hpublished] at hk
    cases hk
  · exact fun i c k hc => absurd hc (by simp [Pool.still])
  · exact fun i kind n a q k hmem => absurd hmem List.not_mem_nil

/-! ## One call -/

/-- What is known of a call from the replies that it had: its notes up to the place of the record, and whether it had a
reply that no operation gives. -/
structure Known (Q V R : Type) where
  notes : FileNotes Q V R
  broken : Bool

def Known.nothing : Known Q V R := ⟨.nothing, false⟩

/-- Operations that only fail for other reasons. -/
def FileOp.plain {β : Type} : FileOp Q V R β → Bool
  | .settle => true
  | .ask _ => true
  | .write _ _ => true
  | _ => false

/-- What is known after a reply. -/
def Known.after {β : Type} (op : FileOp Q V R β) (r : Except FileError β) (known : Known Q V R) : Known Q V R :=
  match r with
  | .ok b => { known with notes := known.notes.noted op b 0 }
  | .error e => { known with broken := known.broken || op.plain && e != .io }

/-- A call may do what it does, unless it had a reply that no operation gives. -/
def allowed (Change : κ → List (Q × V) → R → R → Prop) (kind : κ) {β : Type} (op : FileOp Q V R β)
    (known : Known Q V R) : Prop :=
  known.broken = true ∨ obeys Change kind op known.notes

/-- What is known holds of the notes. -/
structure Known.Of (known : Known Q V R) (n : FileNotes Q V R) : Prop where
  sound : known.broken = false
  phase : known.notes.phase = n.phase
  seen : known.notes.seen = n.seen
  asked : known.notes.asked = n.asked
  created : known.notes.created = n.created
  staged : known.notes.staged = n.staged
  published : known.notes.publishedAt.isSome = n.publishedAt.isSome

theorem Known.Of.nothing : (Known.nothing : Known Q V R).Of .nothing := ⟨rfl, rfl, rfl, rfl, rfl, rfl, rfl⟩

theorem Known.Of.obeys {known : Known Q V R} {β : Type} {op : FileOp Q V R β} (h : known.Of n)
    (hop : allowed Change kind op known) : obeys Change kind op n := by
  replace hop := hop.resolve_left fun hbroken => Bool.false_ne_true (h.sound.symm.trans hbroken)
  cases op with
  | lock => exact ⟨h.phase ▸ hop.1, h.seen ▸ hop.2.1, h.staged ▸ hop.2.2⟩
  | settle => trivial
  | read => exact ⟨h.phase ▸ hop.1, h.staged ▸ hop.2⟩
  | ask q =>
    refine ⟨h.staged ▸ hop.1, ?_⟩
    rw [← Option.isNone_iff_eq_none, ← Option.not_isSome, ← h.published, hop.2]
    rfl
  | create name => exact ⟨h.phase ▸ hop.1, h.staged ▸ hop.2⟩
  | write name r =>
    obtain ⟨hphase, hstaged, hcreated, hchange⟩ := hop
    exact ⟨h.phase ▸ hphase, h.staged ▸ hstaged, h.created ▸ hcreated, h.seen ▸ h.asked ▸ hchange⟩
  | publish name => exact ⟨h.phase ▸ hop.1, h.staged ▸ hop.2⟩
  | discard name => exact Or.imp h.phase.symm.trans h.phase.symm.trans hop
  | unlock => exact Or.imp h.phase.symm.trans h.phase.symm.trans hop

/-- A reply tells of the notes. -/
theorem Known.Of.after {known : Known Q V R} {β : Type} {op : FileOp Q V R β} {r : Except FileError β}
    {s s' : FileState Q V R} (h : known.Of n)
    (hans : Answer (fileCalls program (· = .io)).toBackend (fileCalls program (· = .io)).Fault op s r s') :
    (known.after op r).Of ((fileCalls program (· = .io)).noted op r s' n) := by
  cases hans with
  | effect he =>
    obtain ⟨hsound, hphase, hseen, hasked, hcreated, hstaged, hpublished⟩ := h
    cases op with
    | ask q => exact ⟨hsound, hphase, hseen, congrArg (List.cons _) hasked, hcreated, hstaged, hpublished⟩
    | lock => exact ⟨hsound, rfl, hseen, hasked, hcreated, hstaged, hpublished⟩
    | settle => exact ⟨hsound, hphase, hseen, hasked, hcreated, hstaged, hpublished⟩
    | read => exact ⟨hsound, hphase, rfl, hasked, hcreated, hstaged, hpublished⟩
    | create name => exact ⟨hsound, hphase, hseen, hasked, rfl, hstaged, hpublished⟩
    | write name r => exact ⟨hsound, hphase, hseen, hasked, hcreated, rfl, hpublished⟩
    | publish name => exact ⟨hsound, rfl, hseen, hasked, hcreated, hstaged, rfl⟩
    | discard name => exact ⟨hsound, hphase, hseen, hasked, hcreated, rfl, hpublished⟩
    | unlock => exact ⟨hsound, rfl, hseen, hasked, hcreated, hstaged, hpublished⟩
  | @refusal e he =>
    refine ⟨?_, h.phase, h.seen, h.asked, h.created, h.staged, h.published⟩
    -- a plain operation is not refused
    have hplain : op.plain = false := by
      cases op with
      | settle => cases he
      | ask q => cases he
      | write name r => cases he
      | _ => rfl
    simp [Known.after, h.sound, hplain]
  | fault hf =>
    obtain rfl : _ = FileError.io := hf
    exact ⟨by simp [Known.after, h.sound], h.phase, h.seen, h.asked, h.created, h.staged, h.published⟩

/-- **Each call may do what it still does, and ends as it should**, in every run. -/
theorem run_allowed {P : κ → α → Known Q V R → Prop}
    (hprogram : ∀ kind, (program kind).Along (allowed Change kind) (fun op r => Known.after op r) (P kind) .nothing)
    (hpath : Path (Pool.Step (fileCalls program (· = .io))) (Pool.still s) h p) :
    ∀ i c, p.calls i = some c → ∃ known, c.rest.Along (allowed Change c.kind) (fun op r => Known.after op r) (P c.kind)
      known ∧ known.Of c.notes :=
  Pool.call_due (fun kind {_} op => allowed Change kind op) (fun _ {_} op r => Known.after op r) P
    (fun _ => Known.Of) (fun _ => .nothing) hprogram (fun _ => .nothing)
    (fun _ _ _ _ _ _ _ _ hof _ hans => hof.after hans) (fun _ _ hc => absurd hc (by simp [Pool.still])) hpath

/-- A call that has returned has ended as it should. -/
theorem run_ended {P : κ → α → Known Q V R → Prop} {a : α} {q : FilePool Q V R κ α}
    (hprogram : ∀ kind, (program kind).Along (allowed Change kind) (fun op r => Known.after op r) (P kind) .nothing)
    (hpath : Path (Pool.Step (fileCalls program (· = .io))) (Pool.still s) h p)
    (hmem : (.returns i kind n a, q) ∈ h) : ∃ known, P kind a known ∧ known.Of n := by
  obtain ⟨j, hj⟩ := List.mem_iff_getElem?.mp hmem
  obtain ⟨q₁, hbefore, hs, -⟩ := hpath.step_at hj
  cases hs with
  | returns hi =>
    obtain ⟨known, hdone, hof⟩ := run_allowed hprogram hbefore i _ hi
    exact ⟨known, hdone, hof⟩

end Calls

end LockedFile
