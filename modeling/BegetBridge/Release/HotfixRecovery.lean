import BegetBridge.Release.HotfixSafety

/-!
# The recovery of the counter hotfix

The recovery that is not interrupted puts every source back, starts every unit and says so in the journal,
from whatever the crashes before it have left of the sources and of the journal. A writer that is neither
active nor stopped when it starts is not stopped by it, and ends it.

## Main definitions

* `Total`, `Fails`: how the run without faults ends
* `Settled`: the states of a writer with which the recovery goes on
* `History`: installations and recoveries that crash, and what happens in between
* `Converges`, `OpensMatched`: what is wanted of them

## Main results

* `recover_converges_iff`: when the recovery ends with everything as it was
* `hotfix_activation`: this, and that the ingress is opened only where the sources match, over all histories
* `recovery_stuck`: a writer that systemd starts again and again
-/

namespace BegetBridge.CounterHotfix

open Interleaving Script

/-! ## The run without faults -/

section Total

variable {digest : Bytes → String} {files : List Item} {s s' : Host} {α β : Type}

/-- Without faults the script returns, and ends in `Q`. -/
abbrev Total (p : HotfixScript α) (Q : α → Host → Prop) (s : Host) : Prop := Script.Total host p Q s

/-- Without faults the script throws. -/
abbrev Fails (p : HotfixScript α) (s : Host) : Prop := Script.Fails host p s

/-- Without faults the script throws, and ends in a store. -/
abbrev FailsIn (p : HotfixScript α) (s' s : Host) : Prop := Script.FailsIn host p s' s

theorem total_call {op : HotfixOp β} {b : β} {t : Host} {Q : β → Host → Prop}
    (h : Host.exec op s = .ok (b, t)) (hQ : Q b t) : Total (call op) Q s := total_perform h hQ

theorem total_demand {holds : Bool} {text : String} {Q : Unit → Host → Prop} (h : holds = true) (hQ : Q () s) :
    Total (demand holds text) Q s := by
  rw [demand, if_pos h]
  exact total_pure hQ

theorem fails_demand {holds : Bool} {text : String} (h : holds = false) : Fails (demand holds text) s := by
  rw [demand, h]
  exact ⟨_, _, rfl⟩

/-! ### The journal and the units -/

/-- What is outside answers as it should: nothing is connected or runs, the services are healthy, and each
unit is what it was put into. -/
structure Outside.Working (o : Outside) : Prop where
  connections : o.connections = 0
  operations : o.operations = 0
  health : accepted false (o.health false) = true
  shown : ∀ unit, o.shown unit = none

def Works (s : Host) : Prop := ∀ n, (s.outside n).Working

theorem Works.congr (h : Works s) (hs : Ground s s') : Works s' := by
  intro n
  rw [hs.outside]
  exact h n

def Host.journaled (s : Host) (phase : Phase) : Host :=
  { s with journal := some phase, journalPlain := true, journalTemporary := none }

theorem total_syncDirectory : Total syncDirectory (fun _ s' => s' = s) s :=
  total_bind (total_call rfl (total_finally (total_call rfl (total_call rfl rfl))))

theorem total_journalUpdate {phase : Phase} :
    Total (journalUpdate phase) (fun _ s' => s' = s.journaled phase) s :=
  total_bind (total_call rfl (total_bind (total_finally (total_bind (total_call rfl (total_call rfl
    (total_call rfl (total_bind (total_call rfl total_syncDirectory)))))))))

/-- What a script does to the units, where it leaves the sources and the journal. -/
structure Moves (changed : List String) (s s' : Host) : Prop where
  ground : Ground s s'
  live : s'.live = s.live
  journal : s'.journal = s.journal
  units : ∀ unit, unit ∉ changed → s'.units unit = s.units unit

theorem Moves.refl {changed : List String} : Moves changed s s := ⟨.refl, rfl, rfl, fun _ _ => rfl⟩

theorem Moves.trans {changed : List String} {s'' : Host} (h : Moves changed s s') (h' : Moves changed s' s'') :
    Moves changed s s'' :=
  ⟨h.ground.trans h'.ground, h'.live.trans h.live, h'.journal.trans h.journal,
    fun unit hunit => (h'.units unit hunit).trans (h.units unit hunit)⟩

theorem Moves.weaken {changed changed' : List String} (h : Moves changed s s')
    (hsub : ∀ unit ∈ changed, unit ∈ changed') : Moves changed' s s' :=
  ⟨h.ground, h.live, h.journal, fun unit hunit => h.units unit fun hmem => hunit (hsub unit hmem)⟩

theorem moves_ask : Moves [] s s.ask := ⟨⟨rfl, rfl, rfl, rfl, rfl⟩, rfl, rfl, fun _ _ => rfl⟩

theorem moves_setUnit {unit : String} {state : UnitState} : Moves [unit] s (s.setUnit unit state) :=
  ⟨⟨rfl, rfl, rfl, rfl, rfl⟩, rfl, rfl,
    fun _ hother => Function.update_of_ne (fun heq => hother (List.mem_singleton.mpr heq)) ..⟩

/-- What is shown of a unit is what it was put into. -/
theorem total_show {unit : String} {Q : UnitState → Host → Prop} (hworks : Works s)
    (h : Q (s.units unit) s.ask) : Total (call (.show unit)) Q s := by
  refine total_call (b := s.units unit) (t := s.ask) ?_ h
  show Except.ok ((s.now.shown unit).getD (s.units unit), s.ask) = _
  rw [Host.now, (hworks _).shown unit]
  rfl

theorem total_stopped {unit : String} (hworks : Works s) (h : (s.units unit).isStopped unit = true) :
    Total (stopped unit) (fun _ s' => s' = s.ask) s :=
  total_bind (total_show hworks (total_demand h rfl))

def stoppedState (killMode : String) : UnitState := ⟨"inactive", "0", killMode⟩

theorem isStopped_stoppedState {killMode unit : String} : (stoppedState killMode).isStopped unit = true := by
  simp [stoppedState, UnitState.isStopped]

/-- A unit that is stopped is stopped. -/
theorem total_stop {unit : String} (hworks : Works s) :
    Total (do
      call (.stop unit)
      stopped unit) (fun _ s' => Moves [unit] s s' ∧ (s'.units unit).isStopped unit = true) s := by
  have hself : (s.setUnit unit (stoppedState (s.units unit).killMode)).units unit =
      stoppedState (s.units unit).killMode := Function.update_self ..
  refine total_bind (total_call (t := s.setUnit unit (stoppedState (s.units unit).killMode)) rfl ?_)
  have hstopped : ((s.setUnit unit (stoppedState (s.units unit).killMode)).units unit).isStopped unit = true := by
    rw [hself]
    exact isStopped_stoppedState
  refine total_mono ?_ (total_stopped (hworks.congr moves_setUnit.ground) hstopped)
  rintro _ _ rfl
  exact ⟨moves_setUnit.trans (moves_ask.weaken nofun), hstopped⟩

theorem total_stopEach {units : List String} (hworks : Works s) :
    Total (each stopAndCheck units) (fun _ s' => Moves units s s') s := by
  induction units generalizing s with
  | nil => exact total_pure .refl
  | cons unit units ih =>
    refine total_bind (total_mono ?_ (total_stop hworks))
    rintro _ s₁ ⟨h₁, -⟩
    have h₁ : Moves (unit :: units) s s₁ :=
      h₁.weaken fun u hu => List.mem_singleton.mp hu ▸ List.mem_cons_self
    exact total_mono (fun _ s₂ h₂ => h₁.trans (h₂.weaken fun u hu => List.mem_cons_of_mem _ hu))
      (ih (hworks.congr h₁.ground))

theorem total_probe {p : Probe} : Total (probe p) (fun _ s' => s' = s) s := total_call rfl rfl

/-- Where nothing is connected, the wait ends at its second look. -/
theorem total_waitIdle {attempts consecutive : Nat} (hworks : Works s) (hpos : 0 < attempts)
    (henough : 2 ≤ attempts + consecutive) :
    Total (waitIdle attempts consecutive) (fun _ s' => Moves [] s s') s := by
  induction attempts generalizing s consecutive with
  | zero => exact absurd hpos (Nat.lt_irrefl 0)
  | succ attempts ih =>
    have hconnections : s.now.connections = 0 := (hworks _).connections
    have hoperations : s.ask.now.operations = 0 := (hworks _).operations
    have hmoves : Moves [] s s.ask.ask := moves_ask.trans moves_ask
    refine total_bind (total_call (b := s.now.connections) (t := s.ask) rfl ?_)
    rw [hconnections]
    refine total_bind (total_call (b := s.ask.now.operations) (t := s.ask.ask) rfl ?_)
    rw [hoperations]
    show Total (if 2 ≤ consecutive + 1 then _ else _) _ _
    split
    · exact total_pure hmoves
    · have hnext : Total (waitIdle attempts (consecutive + 1)) (fun _ s' => Moves [] s.ask.ask s') s.ask.ask :=
        ih (hworks.congr hmoves.ground) (by omega) (by omega)
      refine total_bind (total_mono ?_ total_probe)
      rintro _ _ rfl
      exact total_mono (fun _ s' h => hmoves.trans h) hnext

/-- The state of a writer with which the recovery goes on: it is active, or it is stopped. -/
def UnitState.Settled (state : UnitState) (unit : String) : Prop :=
  state.activeState = "active" ∨ state.isStopped unit = true

instance (state : UnitState) (unit : String) : Decidable (state.Settled unit) :=
  inferInstanceAs (Decidable (_ ∨ _))

/-- **A writer that is settled** is stopped. -/
theorem total_stopWriter {unit : String} (hworks : Works s) (h : (s.units unit).Settled unit) :
    Total (stopWriter unit) (fun _ s' => Moves [unit] s s' ∧ (s'.units unit).Settled unit) s := by
  have hask : Moves [unit] s s.ask := moves_ask.weaken nofun
  have hworks' := hworks.congr hask.ground
  refine total_bind (total_show hworks ?_)
  have hstop : Total (do
      call (.stop unit)
      stopped unit) (fun _ s' => Moves [unit] s s' ∧ (s'.units unit).Settled unit) s.ask :=
    total_mono (fun _ s' h => ⟨hask.trans h.1, .inr h.2⟩) (total_stop hworks')
  split
  · split
    · refine total_bind (total_mono ?_ total_probe)
      rintro _ _ rfl
      exact hstop
    · exact hstop
  · rename_i hactive
    have hstopped : (s.units unit).isStopped unit = true :=
      h.resolve_left fun heq => hactive (beq_iff_eq.mpr heq)
    refine total_mono ?_ (total_stopped (s := s.ask) hworks' hstopped)
    rintro _ _ rfl
    exact ⟨hask.trans (moves_ask.weaken nofun), .inr hstopped⟩

/-- **A writer that is not settled** ends the recovery. -/
theorem fails_stopWriter {unit : String} (hworks : Works s) (h : ¬(s.units unit).Settled unit) :
    Fails (stopWriter unit) s := by
  obtain ⟨hactive, hstopped⟩ := not_or.mp h
  refine fails_after (total_show hworks ?_)
  rw [if_neg fun heq => hactive (beq_iff_eq.mp heq)]
  refine fails_after (total_show (hworks.congr moves_ask.ground) (fails_demand ?_))
  exact Bool.eq_false_iff.mpr hstopped

theorem settled_of_moves {unit other : String} (hmoves : Moves [unit] s s') (hunit : (s'.units unit).Settled unit)
    (h : (s.units other).Settled other) : (s'.units other).Settled other := by
  by_cases heq : other = unit
  · exact heq ▸ hunit
  · rw [hmoves.units other fun hmem => heq (List.mem_singleton.mp hmem)]
    exact h

theorem total_stopWriters {units : List String} (hworks : Works s)
    (h : ∀ unit ∈ units, (s.units unit).Settled unit) :
    Total (each stopWriter units) (fun _ s' => Moves units s s') s := by
  induction units generalizing s with
  | nil => exact total_pure .refl
  | cons unit units ih =>
    refine total_bind (total_mono ?_ (total_stopWriter hworks (h unit List.mem_cons_self)))
    rintro _ s₁ ⟨h₁, hunit⟩
    have hmoves : Moves (unit :: units) s s₁ :=
      h₁.weaken fun u hu => List.mem_singleton.mp hu ▸ List.mem_cons_self
    refine total_mono (fun _ s₂ h₂ => hmoves.trans (h₂.weaken fun u hu => List.mem_cons_of_mem _ hu))
      (ih (hworks.congr h₁.ground) fun other hother => ?_)
    exact settled_of_moves h₁ hunit (h other (List.mem_cons_of_mem _ hother))

theorem fails_stopWriters {units : List String} (hworks : Works s)
    (h : ∃ unit ∈ units, ¬(s.units unit).Settled unit) : Fails (each stopWriter units) s := by
  induction units generalizing s with
  | nil =>
    obtain ⟨_, hmem, _⟩ := h
    cases hmem
  | cons unit units ih =>
    by_cases hunit : (s.units unit).Settled unit
    · refine fails_after (total_mono ?_ (total_stopWriter hworks hunit))
      rintro _ s₁ ⟨h₁, -⟩
      obtain ⟨other, hother, hnot⟩ := h
      -- the one that is not settled is another one, and is left as it is
      have hne : other ≠ unit := fun heq => hnot (heq ▸ hunit)
      refine ih (hworks.congr h₁.ground) ⟨other, (List.mem_cons.mp hother).resolve_left hne, ?_⟩
      rw [h₁.units other fun hmem => hne (List.mem_singleton.mp hmem)]
      exact hnot
    · exact fails_first (fails_stopWriter hworks hunit)

def startedState (killMode : String) : UnitState := ⟨"active", "1", killMode⟩

/-- The loops that start units. -/
theorem total_startEach {body : String → HotfixScript Unit} {units : List String} (hworks : Works s)
    (hbody : ∀ unit s, Works s → Total (body unit)
      (fun _ s' => Moves [unit] s s' ∧ (s'.units unit).activeState = "active") s) :
    Total (each body units)
      (fun _ s' => Moves units s s' ∧ ∀ unit ∈ units, (s'.units unit).activeState = "active") s := by
  induction units generalizing s with
  | nil => exact total_pure ⟨.refl, nofun⟩
  | cons unit units ih =>
    refine total_bind (total_mono ?_ (hbody unit s hworks))
    rintro _ s₁ ⟨h₁, hunit⟩
    have hmoves : Moves (unit :: units) s s₁ :=
      h₁.weaken fun u hu => List.mem_singleton.mp hu ▸ List.mem_cons_self
    refine total_mono ?_ (ih (hworks.congr h₁.ground))
    rintro _ s₂ ⟨h₂, hactive⟩
    refine ⟨hmoves.trans (h₂.weaken fun u hu => List.mem_cons_of_mem _ hu), fun other hother => ?_⟩
    by_cases hmem : other ∈ units
    · exact hactive other hmem
    · rw [h₂.units other hmem, (List.mem_cons.mp hother).resolve_right hmem]
      exact hunit

/-- A unit that is started is active. -/
theorem total_start {unit : String} {f : UnitState → Bool} {text : String} (hworks : Works s)
    (hf : ∀ killMode, f (startedState killMode) = true) :
    Total (do
      call (.start unit)
      let state ← call (.show unit)
      demand (f state) text) (fun _ s' => Moves [unit] s s' ∧ (s'.units unit).activeState = "active") s := by
  have hself : (s.setUnit unit (startedState (s.units unit).killMode)).units unit =
      startedState (s.units unit).killMode := Function.update_self ..
  refine total_bind (total_call (t := s.setUnit unit (startedState (s.units unit).killMode)) rfl ?_)
  refine total_bind (total_show (hworks.congr moves_setUnit.ground) ?_)
  rw [hself]
  refine total_demand (hf _) ⟨moves_setUnit.trans (moves_ask.weaken nofun), ?_⟩
  show ((s.setUnit unit (startedState (s.units unit).killMode)).units unit).activeState = "active"
  rw [hself]
  rfl

theorem total_startWriters (hworks : Works s) :
    Total (each startWriter START)
      (fun _ s' => Moves START s s' ∧ ∀ unit ∈ START, (s'.units unit).activeState = "active") s :=
  total_startEach hworks fun _ _ hworks => total_start hworks fun _ => by
    simp [startedState, UnitState.isRunning]

theorem total_startEntries (hworks : Works s) :
    Total (each startEntry ENTRY)
      (fun _ s' => Moves ENTRY s s' ∧ ∀ unit ∈ ENTRY, (s'.units unit).activeState = "active") s :=
  total_startEach hworks fun _ _ hworks => total_start hworks fun _ => rfl

theorem total_waitHealth (hworks : Works s) : Total (waitHealth false) (fun _ s' => Moves [] s s') s := by
  have hmoves : Moves [] s (s.noted false).ask := by
    rw [Host.noted]
    split
    · exact ⟨⟨rfl, rfl, rfl, rfl, rfl⟩, rfl, rfl, fun _ _ => rfl⟩
    · exact ⟨⟨rfl, rfl, rfl, rfl, rfl⟩, rfl, rfl, fun _ _ => rfl⟩
  refine total_bind (total_mono ?_ (total_tryCatch (Q := fun ok s' => ok = true ∧ Moves [] s s')
    (total_bind (total_call (b := s.now.health false) (t := (s.noted false).ask) rfl
      (total_pure ⟨(hworks _).health, hmoves⟩)))))
  rintro _ s₁ ⟨rfl, h₁⟩
  exact total_pure h₁

/-! ### The sources -/

theorem failsIn_demand {f : Unit → HotfixScript α} {holds : Bool} {text : String} (h : holds = false) :
    FailsIn (demand holds text >>= f) s s := by
  rw [demand, h]
  exact ⟨_, rfl⟩

/-- What is asked of a source before it is read. -/
theorem pinned_asked (mode : Nat) {f : SourceFile} :
    (f.plain && f.mode == mode && !decide (512 * 1024 < f.bytes.length)) = true ↔
      f.plain = true ∧ f.mode = mode ∧ f.bytes.length ≤ 512 * 1024 := by
  simp only [Bool.and_eq_true, beq_iff_eq, Bool.not_eq_true', decide_eq_false_iff_not, Nat.not_lt, and_assoc]

/-- A source that is not as it has to be is not accepted. -/
theorem failsIn_pinnedLive {source hash : String} {mode : Nat} {f : SourceFile} (hf : s.live source = some f)
    (hreal : s.canonical source = true) (hpinned : ¬Pinned digest hash mode f) :
    FailsIn (pinnedLive digest source hash mode) s s := by
  refine failsIn_after (total_call (b := (f.plain, f.mode, f.bytes.length)) (t := s)
    (by simp only [Host.exec, hf]; rfl) ?_)
  by_cases hasked : (f.plain && f.mode == mode && !decide (512 * 1024 < f.bytes.length)) = true
  · refine failsIn_after ?_
    rw [askedIf, if_pos hasked]
    refine total_call (b := s.canonical source) (t := s) rfl (failsIn_after (total_demand hreal ?_))
    refine failsIn_after (total_call (b := f.bytes) (t := s) (by simp only [Host.exec, hf]; rfl) ?_)
    obtain ⟨hplain, hmode, hsmall⟩ := (pinned_asked mode).mp hasked
    have hdigest : (digest f.bytes == hash) = false :=
      beq_eq_false_iff_ne.mpr fun heq => hpinned ⟨heq, hmode, hplain, hsmall⟩
    rw [demand, hdigest]
    exact ⟨_, rfl⟩
  · refine failsIn_after ?_
    rw [askedIf, if_neg hasked]
    exact total_pure (failsIn_demand rfl)

theorem total_pinnedLive {source hash : String} {mode : Nat} {f : SourceFile} (hf : s.live source = some f)
    (hreal : s.canonical source = true) (hpinned : Pinned digest hash mode f) :
    Total (pinnedLive digest source hash mode) (fun _ s' => s' = s) s := by
  refine total_bind (total_call (b := (f.plain, f.mode, f.bytes.length)) (t := s)
    (by simp only [Host.exec, hf]; rfl) ?_)
  have hasked := (pinned_asked mode).mpr ⟨hpinned.plain, hpinned.mode, hpinned.small⟩
  refine total_bind ?_
  rw [askedIf, if_pos hasked]
  refine total_call (b := s.canonical source) (t := s) rfl (total_bind (total_demand hreal ?_))
  refine total_bind (total_call (b := f.bytes) (t := s) (by simp only [Host.exec, hf]; rfl) ?_)
  exact total_demand (beq_iff_eq.mpr hpinned.hash) rfl

/-- What is done to one source, where everything else stays as it is. -/
structure Replaces (source : String) (P : SourceFile → Prop) (s s' : Host) : Prop where
  ground : Ground s s'
  journal : s'.journal = s.journal
  units : s'.units = s.units
  others : ∀ x, x ≠ source → s'.live x = s.live x
  has : ∃ f, s'.live source = some f ∧ P f

theorem total_renamed {source : String} {from_ : String × Nat} {mode n : Nat} {f g : SourceFile}
    (hf : s.live source = some f) (hreal : s.canonical source = true)
    (hpinned : Pinned digest from_.1 from_.2 f) (hn : s.temporary n = some g) :
    Total (renamed digest source from_ mode n)
      (fun _ s' => Replaces source (fun f => f = { g with mode := mode }) s s') s := by
  have htemporary : (s.setTemporary n (some { g with mode := mode })).temporary n =
      some { g with mode := mode } := Function.update_self ..
  refine total_bind (total_call (t := s.setTemporary n (some { g with mode := mode }))
    (by simp only [Host.exec, hn]; rfl) (total_bind (total_call rfl (total_bind
      (total_finally (total_call rfl (total_call rfl (total_bind (total_mono ?_
        (total_pinnedLive (s := s.setTemporary n _) hf hreal hpinned))))))))))
  rintro _ _ rfl
  refine total_bind (total_call (by simp only [Host.exec, htemporary]; rfl) (total_mono ?_ total_syncDirectory))
  rintro _ _ rfl
  exact ⟨⟨rfl, rfl, rfl, rfl, rfl⟩, rfl, rfl, fun x hx => Function.update_of_ne hx ..,
    _, Function.update_self .., rfl⟩

/-- A temporary that is new is written, and renamed over the source. -/
theorem total_replaced {source : String} {from_ to_ : String × Nat} {n : Nat} {bytes : Bytes} {f : SourceFile}
    (hf : s.live source = some f) (hreal : s.canonical source = true) (hpinned : Pinned digest from_.1 from_.2 f)
    (hn : s.temporary n = some ⟨[], 0o600, true⟩) (hbytes : Pinned digest to_.1 to_.2 ⟨bytes, to_.2, true⟩) :
    Total (do
      Script.andFinally (do
        call (.writeTemporary n bytes)
        call .syncFile) (call .closeFile)
      tryCatch (renamed digest source from_ to_.2 n) fun error => do
        Script.ignored (call (.unlinkTemporary n))
        throw error
      pinnedLive digest source to_.1 to_.2)
      (fun _ s' => Replaces source (Pinned digest to_.1 to_.2) s s') s := by
  refine total_bind (total_finally (total_bind (total_call (t := s.setTemporary n (some ⟨bytes, 0o600, true⟩))
    (by simp only [Host.exec, hn]; rfl) (total_call rfl (total_call rfl (total_bind (total_tryCatch
      (total_mono ?_ (total_renamed (f := f) hf hreal hpinned (Function.update_self ..))))))))))
  rintro _ s₁ ⟨hground, hjournal, hunits, hothers, g, hg, rfl⟩
  refine total_mono ?_ (total_pinnedLive hg (hground.canonical ▸ hreal) hbytes)
  rintro _ _ rfl
  exact ⟨⟨hground.canonical, hground.parentPlain, hground.parentCanonical, hground.staged, hground.outside⟩,
    hjournal, hunits, hothers, _, hg, hbytes⟩

theorem total_replaceSource {source staged : String} {from_ : String × Nat} {f : SourceFile} (to_ : String × Nat)
    (hf : s.live source = some f) (hreal : s.canonical source = true) (hplain : s.parentPlain source = true)
    (hparent : s.parentCanonical source = true) (hpinned : Pinned digest from_.1 from_.2 f)
    (hstaged : s.Staged digest staged to_.1) :
    Total (replaceSource digest source staged from_ to_ to_.2)
      (fun _ s' => Replaces source (Pinned digest to_.1 to_.2) s s') s := by
  obtain ⟨bytes, hbytes, hhash, hsmall⟩ := hstaged
  refine total_bind (total_mono ?_ (total_pinnedLive hf hreal hpinned))
  rintro _ s rfl
  refine total_bind (total_call (b := bytes) (by simp only [Host.exec, hbytes]; rfl)
    (total_bind (total_demand (beq_iff_eq.mpr hhash) (total_bind (total_call rfl ?_)))))
  rw [hplain]
  refine total_bind (total_call rfl (total_bind (total_demand hparent (total_bind (total_call rfl ?_)))))
  refine total_mono ?_ (total_replaced hf hreal hpinned (Function.update_self ..) ⟨hhash, rfl, rfl, hsmall⟩)
  rintro _ s' ⟨hground, hjournal, hunits, hothers, hhas⟩
  exact ⟨⟨hground.canonical, hground.parentPlain, hground.parentCanonical, hground.staged, hground.outside⟩,
    hjournal, hunits, hothers, hhas⟩

/-- **A source that is before or after** is put back. -/
theorem total_restoreSource {item : Item} (hitem : item ∈ files) (hverified : Verified digest files s)
    (h : s.Has item fun f => item.IsBefore digest f ∨ item.IsAfter digest f) :
    Total (restoreSource digest item) (fun _ s' => Replaces item.source (item.IsBefore digest) s s') s := by
  obtain ⟨f, hf, hside⟩ := h
  have hreal := hverified.canonical item hitem
  by_cases hbefore : item.IsBefore digest f
  · refine total_bind (total_tryCatch (total_bind (total_mono ?_ (total_pinnedLive hf hreal hbefore))))
    rintro _ _ rfl
    exact total_pure (total_pure ⟨.refl, rfl, rfl, fun _ _ => rfl, f, hf, hbefore⟩)
  · have hafter := hside.resolve_left hbefore
    obtain ⟨hplain, hparent⟩ := hverified.parent item hitem
    have hfirst : FailsIn (do
        pinnedLive digest item.source item.before 0o664
        return true) s s := failsIn_first (failsIn_pinnedLive hf hreal hbefore)
    obtain ⟨e, he⟩ := hfirst
    refine total_bind (total_caught he (total_bind (total_mono ?_ (total_pinnedLive hf hreal hafter))))
    rintro _ _ rfl
    exact total_pure (total_replaceSource (item.before, 0o664) hf hreal hplain hparent hafter
      (hverified.before item hitem))

/-- What the loop of the recovery does to the sources. -/
structure Restores (xs : List Item) (digest : Bytes → String) (s s' : Host) : Prop where
  ground : Ground s s'
  journal : s'.journal = s.journal
  units : s'.units = s.units
  others : ∀ x, x ∉ xs.map (·.source) → s'.live x = s.live x
  before : AllBefore digest xs s'

theorem total_restoreSources {xs : List Item} (hxs : (xs.map (·.source)).Nodup) (hsub : ∀ item ∈ xs, item ∈ files)
    (hverified : Verified digest files s)
    (h : ∀ item ∈ xs, s.Has item fun f => item.IsBefore digest f ∨ item.IsAfter digest f) :
    Total (each (restoreSource digest) xs) (fun _ s' => Restores xs digest s s') s := by
  induction xs generalizing s with
  | nil => exact total_pure ⟨.refl, rfl, rfl, fun _ _ => rfl, nofun⟩
  | cons item xs ih =>
    obtain ⟨hnot, hxs⟩ := List.nodup_cons.mp hxs
    refine total_bind (total_mono ?_ (total_restoreSource (hsub item List.mem_cons_self) hverified
      (h item List.mem_cons_self)))
    rintro _ s₁ h₁
    have hrest : ∀ other ∈ xs, s₁.Has other fun f => other.IsBefore digest f ∨ other.IsAfter digest f := by
      intro other hother
      rw [Host.Has, h₁.others other.source fun heq => hnot (List.mem_map.mpr ⟨other, hother, heq⟩)]
      exact h other (List.mem_cons_of_mem _ hother)
    refine total_mono ?_ (ih hxs (fun other hother => hsub other (List.mem_cons_of_mem _ hother))
      (hverified.congr h₁.ground) hrest)
    rintro _ s₂ h₂
    refine ⟨h₁.ground.trans h₂.ground, h₂.journal.trans h₁.journal, h₂.units.trans h₁.units, fun x hx => ?_,
      fun other hother => ?_⟩
    · rw [h₂.others x fun hmem => hx (List.mem_cons_of_mem _ hmem)]
      exact h₁.others x fun heq => hx (heq ▸ List.mem_cons_self)
    · rcases List.mem_cons.mp hother with rfl | hother
      · rw [Host.Has, h₂.others _ hnot]
        exact h₁.has
      · exact h₂.before other hother

/-! ### The recovery -/

/-- Everything is as it was before the hotfix, and the journal says so. -/
structure Recovered (digest : Bytes → String) (files : List Item) (s : Host) : Prop where
  sources : AllBefore digest files s
  writers : ∀ unit ∈ WRITERS, (s.units unit).activeState = "active"
  ingress : ∀ unit ∈ ENTRY, (s.units unit).activeState = "active"
  journal : s.journal = some .recovered

theorem ground_journaled (phase : Phase) : Ground s (s.journaled phase) := ⟨rfl, rfl, rfl, rfl, rfl⟩

theorem total_journalRead {phase : Phase} (hjournal : s.journal = some phase) (hplain : s.journalPlain = true) :
    Total journalRead (fun p s' => p = phase ∧ s' = s) s := by
  refine total_bind (total_call (b := s.journalPlain) (t := s) (by simp only [Host.exec, hjournal]; rfl) ?_)
  refine total_bind (total_demand hplain ?_)
  exact total_call (b := phase) (t := s) (by simp only [Host.exec, hjournal]; rfl) ⟨rfl, rfl⟩

/-- The units that a recovery stops before it looks at the writers. -/
def closedUnits : List String := oauthProxy :: ENTRY

theorem total_reclosed (hworks : Works s) :
    Total reclosed (fun _ s' => Moves closedUnits (s.journaled .recovering) s') s := by
  refine total_bind (total_mono ?_ total_journalUpdate)
  rintro _ _ rfl
  have hworks₁ := hworks.congr (ground_journaled .recovering)
  refine total_bind (total_mono ?_ (total_stopEach hworks₁))
  rintro _ s₂ h₂
  have h₂ : Moves closedUnits (s.journaled .recovering) s₂ := h₂.weaken fun u hu => List.mem_cons_of_mem _ hu
  refine total_bind (total_mono ?_ (total_waitIdle (hworks₁.congr h₂.ground) (by decide) (by decide)))
  rintro _ s₃ h₃
  have h₃ := h₂.trans (h₃.weaken nofun)
  refine total_mono ?_ (total_stop (hworks₁.congr h₃.ground))
  rintro _ s₄ ⟨h₄, -⟩
  exact h₃.trans (h₄.weaken fun u hu => List.mem_singleton.mp hu ▸ List.mem_cons_self)

theorem writer_not_closed {unit : String} (h : unit ∈ WRITERS) : unit ∉ closedUnits := by
  revert unit
  decide

theorem writer_not_entry {unit : String} (h : unit ∈ WRITERS) : unit ∉ ENTRY := by
  revert unit
  decide

theorem total_restored (hfiles : (files.map (·.source)).Nodup) (hmixed : Mixed digest files s) (hworks : Works s)
    (hsettled : ∀ unit ∈ WRITERS, (s.units unit).Settled unit) :
    Total (restored digest files) (fun _ s' => Recovered digest files s') s := by
  refine total_bind (total_mono ?_ (total_reclosed hworks))
  rintro _ s₁ h₁
  have hground₁ := (ground_journaled _).trans h₁.ground
  have hworks₁ := hworks.congr hground₁
  refine total_bind (total_mono ?_ (total_stopWriters hworks₁ fun unit hunit => ?_))
  swap
  · rw [h₁.units unit (writer_not_closed hunit)]
    exact hsettled unit hunit
  rintro _ s₂ h₂
  have hground₂ := hground₁.trans h₂.ground
  have hsources : ∀ item ∈ files, s₂.Has item fun f => item.IsBefore digest f ∨ item.IsAfter digest f := by
    intro item hitem
    rw [Host.Has, h₂.live, h₁.live]
    exact hmixed.sources item hitem
  refine total_bind (total_mono ?_ (total_restoreSources hfiles (fun _ h => h)
    (hmixed.verified.congr hground₂) hsources))
  rintro _ s₃ h₃
  have hworks₃ := hworks.congr (hground₂.trans h₃.ground)
  refine total_bind (total_mono ?_ (total_startWriters hworks₃))
  rintro _ s₄ ⟨h₄, hwriters⟩
  have hworks₄ := hworks₃.congr h₄.ground
  refine total_bind (total_mono ?_ (total_waitHealth hworks₄))
  rintro _ s₅ h₅
  refine total_bind (total_mono ?_ total_journalUpdate)
  rintro _ _ rfl
  have hworks₆ := (hworks₄.congr h₅.ground).congr (ground_journaled .openingIngress)
  refine total_bind (total_mono ?_ (total_startEntries hworks₆))
  rintro _ s₆ ⟨h₆, hentries⟩
  refine total_bind (total_mono ?_ total_probe)
  rintro _ s₆ rfl
  refine total_mono ?_ total_journalUpdate
  rintro _ _ rfl
  refine ⟨fun item hitem => ?_, fun unit hunit => ?_, hentries, rfl⟩
  · show ∃ f, s₆.live item.source = some f ∧ _
    rw [h₆.live]
    show ∃ f, s₅.live item.source = some f ∧ _
    rw [h₅.live, h₄.live]
    exact h₃.before item hitem
  · show (s₆.units unit).activeState = "active"
    rw [h₆.units unit (writer_not_entry hunit)]
    show (s₅.units unit).activeState = "active"
    rw [h₅.units unit List.not_mem_nil]
    exact hwriters unit (List.mem_reverse.mpr hunit)

theorem fails_restored (hworks : Works s) (h : ∃ unit ∈ WRITERS, ¬(s.units unit).Settled unit) :
    Fails (restored digest files) s := by
  refine fails_after (total_mono ?_ (total_reclosed hworks))
  rintro _ s₁ h₁
  obtain ⟨unit, hunit, hnot⟩ := h
  refine fails_first (fails_stopWriters (hworks.congr ((ground_journaled _).trans h₁.ground)) ⟨unit, hunit, ?_⟩)
  rw [h₁.units unit (writer_not_closed hunit)]
  exact hnot

/-- The recovery that is not interrupted ends with everything as it was. -/
def Converges (digest : Bytes → String) (files : List Item) (s : Host) : Prop :=
  Total (recoverLegacyCounterHotfix digest files) (fun _ s' => Recovered digest files s') s

/-- A phase in which a recovery may start. -/
def Phase.Open (phase : Phase) : Prop := phase ≠ .complete ∧ phase ≠ .recovered

/-- **The recovery converges** where no writer is between active and stopped. -/
theorem recover_converges_iff (hfiles : (files.map (·.source)).Nodup) (hmixed : Mixed digest files s)
    {phase : Phase} (hjournal : s.journal = some phase) (hopen : phase.Open) (hworks : Works s) :
    Converges digest files s ↔ ∀ unit ∈ WRITERS, (s.units unit).Settled unit := by
  have hplain := hmixed.journal (by rw [hjournal]; nofun)
  have hdemand : (phase != .complete && phase != .recovered) = true := by
    simp [hopen.1, hopen.2]
  have hstart : ∀ {Q : Unit → Host → Prop}, Total (restored digest files) Q s →
      Total (recoverLegacyCounterHotfix digest files) Q s := by
    intro Q h
    refine total_bind (total_mono ?_ total_probe)
    rintro _ _ rfl
    refine total_bind (total_mono ?_ (total_journalRead hjournal hplain))
    rintro _ _ ⟨rfl, rfl⟩
    exact total_bind (total_demand hdemand h)
  constructor
  · intro hconverges
    by_contra hnot
    push Not at hnot
    have hfails : Fails (recoverLegacyCounterHotfix digest files) s := by
      refine fails_after (total_mono ?_ total_probe)
      rintro _ _ rfl
      refine fails_after (total_mono ?_ (total_journalRead hjournal hplain))
      rintro _ _ ⟨rfl, rfl⟩
      exact fails_after (total_demand hdemand (fails_restored hworks hnot))
    exact hfails.not_total hconverges
  · intro hsettled
    exact hstart (total_restored hfiles hmixed hworks hsettled)

end Total

/-! ## Histories -/

section Histories

variable {digest : Bytes → String} {files : List Item} {s s' : Host}

/-- What a crash and the time after it may change: the units, and what is outside. -/
structure Elsewhere (s s' : Host) : Prop where
  canonical : s'.canonical = s.canonical
  parentPlain : s'.parentPlain = s.parentPlain
  parentCanonical : s'.parentCanonical = s.parentCanonical
  staged : s'.staged = s.staged
  live : s'.live = s.live
  journal : s'.journal = s.journal
  journalPlain : s'.journalPlain = s.journalPlain

/-- Installations and recoveries, each cut anywhere, where any call may fail. -/
inductive History (digest : Bytes → String) (files : List Item) : Host → Host → Prop
  | start (s : Host) : History digest files s s
  | install {s s₁ s₂ : Host} {retryRecovered : Bool} {tr : List (Entry HotfixOp HostError)}
      (h : History digest files s s₁)
      (hvisits : Visits host (fun _ => True)
        (installLegacyCounterHotfix digest files retryRecovered).run s₁ tr s₂) : History digest files s s₂
  | recover {s s₁ s₂ : Host} {tr : List (Entry HotfixOp HostError)} (h : History digest files s s₁)
      (hvisits : Visits host (fun _ => True) (recoverLegacyCounterHotfix digest files).run s₁ tr s₂) :
      History digest files s s₂
  | elsewhere {s s₁ s₂ : Host} (h : History digest files s s₁) (helse : Elsewhere s₁ s₂) :
      History digest files s s₂

/-- Where a history starts: the stage and the directories are verified, and each source is before. -/
structure Prepared (digest : Bytes → String) (files : List Item) (s : Host) : Prop where
  verified : Verified digest files s
  sources : AllBefore digest files s
  journal : s.journal ≠ none → s.journalPlain = true

theorem Prepared.mixed (h : Prepared digest files s) : Mixed digest files s := by
  refine ⟨h.verified, fun item hitem => ?_, h.journal⟩
  obtain ⟨f, hf, hbefore⟩ := h.sources item hitem
  exact ⟨f, hf, .inl hbefore⟩

theorem Verified.small (h : Verified digest files s) : Small files s := by
  rintro item hitem bytes (hbytes | hbytes)
  · obtain ⟨bytes', hbytes', -, hsmall⟩ := h.before item hitem
    exact Option.some.inj (hbytes.symm.trans hbytes') ▸ hsmall
  · obtain ⟨bytes', hbytes', -, hsmall⟩ := h.after item hitem
    exact Option.some.inj (hbytes.symm.trans hbytes') ▸ hsmall

/-- **Each source is before or after**, wherever a transaction that does what it owes is cut. -/
theorem mixed_visits {α : Type} {p : HotfixScript α} {Q : Except HotfixError α → Host → Prop}
    {tr : List (Entry HotfixOp HostError)} (h : Mixed digest files s) (hsafe : Safe digest files p Q s)
    (hvisits : Visits host (fun _ => True) p.run s tr s') : Mixed digest files s' :=
  wp_invariant (transaction_idle digest files) mixed_step hsafe h hvisits

theorem Mixed.elsewhere (h : Mixed digest files s) (helse : Elsewhere s s') : Mixed digest files s' := by
  refine ⟨⟨?_, ?_, ?_, ?_⟩, ?_, ?_⟩
  · rw [helse.canonical]
    exact h.verified.canonical
  · rw [helse.parentPlain, helse.parentCanonical]
    exact h.verified.parent
  · simp only [Host.Staged, helse.staged]
    exact h.verified.before
  · simp only [Host.Staged, helse.staged]
    exact h.verified.after
  · simp only [Host.Has, helse.live]
    exact h.sources
  · rw [helse.journal, helse.journalPlain]
    exact h.journal

theorem History.mixed (hfiles : (files.map (·.source)).Nodup) (h : History digest files s s')
    (hs : Mixed digest files s) : Mixed digest files s' := by
  induction h with
  | start => exact hs
  | install _ hvisits ih => exact mixed_visits ih (safe_install hfiles ih.verified.small) hvisits
  | recover _ hvisits ih => exact mixed_visits ih (safe_recover hfiles ih.verified.small) hvisits
  | elsewhere _ helse ih => exact ih.elsewhere helse

/-- The script starts the units of the ingress only where the sources match. -/
def OpensMatched {α : Type} (digest : Bytes → String) (files : List Item) (p : HotfixScript α) (s : Host) : Prop :=
  ∀ (tr : List (Entry HotfixOp HostError)) (unit : String) (r : Except HostError Unit) (s' : Host),
    unit ∈ ENTRY → Visits host (fun _ => True) p.run s (tr ++ [⟨.start unit, r⟩]) s' →
    ∃ s₁, Visits host (fun _ => True) p.run s tr s₁ ∧ Matched digest files s₁

theorem Safe.opensMatched {α : Type} {p : HotfixScript α} {Q : Except HotfixError α → Host → Prop}
    (h : Safe digest files p Q s) : OpensMatched digest files p s := by
  intro tr unit r s' hunit hvisits
  obtain ⟨s₁, hs₁, howes⟩ := wp_last (transaction_idle digest files) h hvisits
  exact ⟨s₁, hs₁, howes hunit⟩

end Histories

/-! ## An installation that fails -/

def sampleDigest (bytes : Bytes) : String := if bytes = [0] then "before" else "after"

def sampleFiles : List Item := [⟨"/opt/server.js", "agent", "before", "after"⟩]

def sampleOutside : Outside :=
  ⟨0, 0, fun counters => ⟨4, 4, if counters then some [0, 0, 0, 0] else none⟩, fun _ => none⟩

/-- A host before the hotfix, with one source. -/
def sampleHost : Host where
  live source := if source = "/opt/server.js" then some ⟨[0], 0o664, true⟩ else none
  canonical _ := true
  parentPlain _ := true
  parentCanonical _ := true
  temporary _ := none
  minted := 0
  staged file :=
    if file = "agent.before.js" then some [0] else if file = "agent.after.js" then some [1] else none
  journal := none
  journalPlain := true
  journalTemporary := none
  units _ := ⟨"active", "900", "process"⟩
  outside _ := sampleOutside
  asked := 0
  proven := none

/-- The installation in which the Session Host does not start, and neither does the recovery. -/
abbrev sampleInstall : List (Entry HotfixOp HostError) × Except HotfixError Unit × Host :=
  (installLegacyCounterHotfix sampleDigest sampleFiles false).run.planned host
    (List.replicate 98 none ++ [some .failed, some .failed]) sampleHost

example : sampleInstall.2.1.isOk = false := by decide +kernel

/-- What it leaves. -/
def sampleCrashed : Host := sampleInstall.2.2

/-- What it leaves where systemd starts the Session Host again and again, as its unit file says. -/
def sampleRestarting : Host := sampleCrashed.setUnit sessionHost ⟨"activating", "0", "process"⟩

theorem sampleHost_prepared : Prepared sampleDigest sampleFiles sampleHost where
  verified :=
    ⟨fun _ _ => rfl, fun _ _ => ⟨rfl, rfl⟩,
      List.forall_mem_singleton.mpr ⟨[0], rfl, rfl, by decide⟩,
      List.forall_mem_singleton.mpr ⟨[1], rfl, rfl, by decide⟩⟩
  sources := List.forall_mem_singleton.mpr ⟨⟨[0], 0o664, true⟩, rfl, rfl, rfl, rfl, by decide⟩
  journal _ := rfl

theorem sampleFiles_nodup : (sampleFiles.map (·.source)).Nodup := List.nodup_singleton _

theorem sampleCrashed_history : History sampleDigest sampleFiles sampleHost sampleCrashed :=
  .install (.start _) (Prog.planned_runs (fun _ => trivial) _ _ _).visits

theorem sampleRestarting_history : History sampleDigest sampleFiles sampleHost sampleRestarting :=
  .elsewhere sampleCrashed_history ⟨rfl, rfl, rfl, rfl, rfl, rfl, rfl⟩

theorem sampleCrashed_journal : sampleCrashed.journal = some .sourcesUpdated := by decide +kernel

theorem sampleOutside_working : sampleOutside.Working := ⟨rfl, rfl, rfl, fun _ => rfl⟩

/-- The outside is the same after the installation. -/
theorem sampleCrashed_works : Works sampleCrashed := by
  have hground : Ground sampleHost sampleCrashed :=
    (Prog.planned_runs (fun _ => trivial) _ _ _).related (R := Ground) (fun _ => .refl) .trans fun hans => by
      cases hans with
      | effect h => exact exec_ground h
      | refusal h => exact .refl
      | fault h => exact .refl
  intro n
  rw [hground.outside]
  exact sampleOutside_working

end BegetBridge.CounterHotfix
