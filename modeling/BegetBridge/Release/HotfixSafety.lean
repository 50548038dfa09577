import BegetBridge.Release.CounterHotfix

/-!
# What the transactions of the counter hotfix owe

Whatever crashes and whichever calls fail, each source has its bytes from before or from after the hotfix,
and the ingress is started only when all sources have the same, and the health check that belongs to it has
passed since one of them was changed last.

## Main definitions

* `Pinned`, `Mixed`, `AllBefore`, `AllAfter`, `Matched`: what is known of the sources
* `Owes`, `Safe`: what is owed when a source is renamed, and when the ingress is started
* `Quiet`: the scripts that owe nothing and change no source

## Main results

* `mixed_step`: a call keeps each source before or after
* `safe_recover`, `safe_install`: both transactions do what they owe
-/

namespace BegetBridge.CounterHotfix

open Interleaving

/-! ## The sources -/

/-- What `pinnedLive` accepts. -/
structure Pinned (digest : Bytes → String) (hash : String) (mode : Nat) (f : SourceFile) : Prop where
  hash : digest f.bytes = hash
  mode : f.mode = mode
  plain : f.plain = true
  small : f.bytes.length ≤ 512 * 1024

section Sources

variable (digest : Bytes → String) (files : List Item)

def Item.IsBefore (item : Item) (f : SourceFile) : Prop := Pinned digest item.before 0o664 f

def Item.IsAfter (item : Item) (f : SourceFile) : Prop := Pinned digest item.after 0o644 f

/-- The source of an item is there, and is as it is said. -/
def Host.Has (s : Host) (item : Item) (P : SourceFile → Prop) : Prop := ∃ f, s.live item.source = some f ∧ P f

def AllBefore (s : Host) : Prop := ∀ item ∈ files, s.Has item (item.IsBefore digest)

def AllAfter (s : Host) : Prop := ∀ item ∈ files, s.Has item (item.IsAfter digest)

/-- The bytes of a stage that belong to a digest. -/
def Host.Staged (s : Host) (file hash : String) : Prop :=
  ∃ bytes, s.staged file = some bytes ∧ digest bytes = hash ∧ bytes.length ≤ 512 * 1024

/-- What the preflight has verified, and no transaction changes: the stage and the directories. -/
structure Verified (s : Host) : Prop where
  canonical : ∀ item ∈ files, s.canonical item.source = true
  parent : ∀ item ∈ files, s.parentPlain item.source = true ∧ s.parentCanonical item.source = true
  before : ∀ item ∈ files, s.Staged digest item.stagedBefore item.before
  after : ∀ item ∈ files, s.Staged digest item.stagedAfter item.after

/-- Each source has its bytes and its mode of before, or those of after. -/
structure Mixed (s : Host) : Prop where
  verified : Verified digest files s
  sources : ∀ item ∈ files, s.Has item fun f => item.IsBefore digest f ∨ item.IsAfter digest f
  journal : s.journal ≠ none → s.journalPlain = true

/-- The sources are all before or all after, and the health check that belongs to it has passed since. -/
def Matched (s : Host) : Prop :=
  AllBefore digest files s ∧ s.proven = some false ∨ AllAfter digest files s ∧ s.proven = some true

/-- What is owed at a call: what is renamed over a source is what it was before or what it is after, and the
ingress is started when the sources match. -/
def Owes {β : Type} : HotfixOp β → Host → Prop
  | .renameTemporary n source, s => ∀ f, s.temporary n = some f → ∀ item ∈ files, item.source = source →
      item.IsBefore digest f ∨ item.IsAfter digest f
  | .start unit, s => unit ∈ ENTRY → Matched digest files s
  | _, _ => True

/-- A transaction alone, with what it owes, where any call may fail. -/
def transaction : Setting HotfixOp HostError Host where
  toBackend := host
  Fault _ := True
  rely _ s s' := s' = s
  oblige op s := Owes digest files op s

theorem transaction_idle : (transaction digest files).Idle := fun _ _ => rfl

end Sources

section Step

variable {digest : Bytes → String} {files : List Item} {s s' : Host} {β : Type}

theorem orMissing_ok {α γ : Type} {o : Option α} {f : α → γ} {x : γ}
    (h : (Host.orMissing o).map f = .ok x) : ∃ a, o = some a ∧ f a = x := by
  cases o with
  | none => cases h
  | some a => exact ⟨a, rfl, Except.ok.inj h⟩

/-- The calls that leave the sources, the temporaries and the health that is proven as they are. -/
def HotfixOp.isQuiet : HotfixOp β → Bool
  | .openTemporary => false
  | .writeTemporary _ _ => false
  | .chmodTemporary _ _ => false
  | .renameTemporary _ _ => false
  | .unlinkTemporary _ => false
  | .readHealth _ => false
  | .start unit => !ENTRY.contains unit
  | _ => true

/-- The stores between which a quiet call leads. -/
structure Same (s s' : Host) : Prop where
  live : s'.live = s.live
  proven : s'.proven = s.proven
  staged : s'.staged = s.staged
  temporary : s'.temporary = s.temporary

theorem Same.refl : Same s s := ⟨rfl, rfl, rfl, rfl⟩

theorem Same.trans {s'' : Host} (h : Same s s') (h' : Same s' s'') : Same s s'' :=
  ⟨h'.live.trans h.live, h'.proven.trans h.proven, h'.staged.trans h.staged, h'.temporary.trans h.temporary⟩

/-- What every call leaves as it is. -/
structure Ground (s s' : Host) : Prop where
  canonical : s'.canonical = s.canonical
  parentPlain : s'.parentPlain = s.parentPlain
  parentCanonical : s'.parentCanonical = s.parentCanonical
  staged : s'.staged = s.staged
  outside : s'.outside = s.outside

theorem Ground.refl : Ground s s := ⟨rfl, rfl, rfl, rfl, rfl⟩

theorem Ground.trans {s'' : Host} (h : Ground s s') (h' : Ground s' s'') : Ground s s'' :=
  ⟨h'.canonical.trans h.canonical, h'.parentPlain.trans h.parentPlain,
    h'.parentCanonical.trans h.parentCanonical, h'.staged.trans h.staged, h'.outside.trans h.outside⟩

/-- What one call changes: one case for each of them. -/
theorem exec_ground {op : HotfixOp β} {b : β} (h : Host.exec op s = .ok (b, s')) : Ground s s' := by
  cases op <;> simp only [Host.exec] at h
  case lstatLive | readLive | readStaged | writeTemporary | chmodTemporary | renameTemporary | unlinkTemporary
      | lstatJournal | readJournal | renameJournal | unlinkJournal =>
    obtain ⟨_, _, h⟩ := orMissing_ok h
    obtain ⟨_, rfl⟩ := Prod.mk.inj h
    exact ⟨rfl, rfl, rfl, rfl, rfl⟩
  case createJournal =>
    split at h
    · cases h
    · obtain ⟨_, rfl⟩ := Prod.mk.inj (Except.ok.inj h)
      exact ⟨rfl, rfl, rfl, rfl, rfl⟩
  case readHealth counters =>
    obtain ⟨_, rfl⟩ := Prod.mk.inj (Except.ok.inj h)
    rw [Host.noted]
    split
    · exact ⟨rfl, rfl, rfl, rfl, rfl⟩
    · exact ⟨rfl, rfl, rfl, rfl, rfl⟩
  all_goals
    obtain ⟨_, rfl⟩ := Prod.mk.inj (Except.ok.inj h)
    exact ⟨rfl, rfl, rfl, rfl, rfl⟩

theorem exec_same {op : HotfixOp β} {b : β} (hquiet : op.isQuiet = true) (h : Host.exec op s = .ok (b, s')) :
    Same s s' := by
  cases op <;> simp only [HotfixOp.isQuiet, Bool.false_eq_true] at hquiet <;> simp only [Host.exec] at h
  case lstatLive | readLive | readStaged | lstatJournal | readJournal | renameJournal | unlinkJournal =>
    obtain ⟨_, _, h⟩ := orMissing_ok h
    obtain ⟨_, rfl⟩ := Prod.mk.inj h
    exact ⟨rfl, rfl, rfl, rfl⟩
  case createJournal =>
    split at h
    · cases h
    · obtain ⟨_, rfl⟩ := Prod.mk.inj (Except.ok.inj h)
      exact ⟨rfl, rfl, rfl, rfl⟩
  all_goals
    obtain ⟨_, rfl⟩ := Prod.mk.inj (Except.ok.inj h)
    exact ⟨rfl, rfl, rfl, rfl⟩

theorem owes_of_quiet {op : HotfixOp β} (hquiet : op.isQuiet = true) : Owes digest files op s := by
  cases op <;> simp only [HotfixOp.isQuiet, Bool.false_eq_true] at hquiet
  case start unit =>
    intro hentry
    rw [List.contains_iff_mem.mpr hentry] at hquiet
    cases hquiet
  all_goals exact trivial

/-- The journal that a call leaves is one that it has written, or the one that was there. -/
theorem exec_journal {op : HotfixOp β} {b : β} (h : Host.exec op s = .ok (b, s')) :
    s'.journalPlain = true ∨ s'.journalPlain = s.journalPlain ∧ (s'.journal = s.journal ∨ s'.journal = none) := by
  cases op <;> simp only [Host.exec] at h
  case createJournal =>
    split at h
    · cases h
    · obtain ⟨_, rfl⟩ := Prod.mk.inj (Except.ok.inj h)
      exact .inl rfl
  case renameJournal =>
    obtain ⟨_, _, h⟩ := orMissing_ok h
    obtain ⟨_, rfl⟩ := Prod.mk.inj h
    exact .inl rfl
  case unlinkJournal =>
    obtain ⟨_, _, h⟩ := orMissing_ok h
    obtain ⟨_, rfl⟩ := Prod.mk.inj h
    exact .inr ⟨rfl, .inr rfl⟩
  case lstatLive | readLive | readStaged | writeTemporary | chmodTemporary | renameTemporary | unlinkTemporary
      | lstatJournal | readJournal =>
    obtain ⟨_, _, h⟩ := orMissing_ok h
    obtain ⟨_, rfl⟩ := Prod.mk.inj h
    exact .inr ⟨rfl, .inl rfl⟩
  case readHealth counters =>
    obtain ⟨_, rfl⟩ := Prod.mk.inj (Except.ok.inj h)
    rw [Host.noted]
    split
    · exact .inr ⟨rfl, .inl rfl⟩
    · exact .inr ⟨rfl, .inl rfl⟩
  all_goals
    obtain ⟨_, rfl⟩ := Prod.mk.inj (Except.ok.inj h)
    exact .inr ⟨rfl, .inl rfl⟩

/-- A call leaves the sources as they are, or renames a temporary over one of them. -/
theorem exec_live {op : HotfixOp β} {b : β} (h : Host.exec op s = .ok (b, s'))
    (howes : Owes digest files op s) :
    s'.live = s.live ∨ ∃ source f, s'.live = Function.update s.live source (some f) ∧
      ∀ item ∈ files, item.source = source → item.IsBefore digest f ∨ item.IsAfter digest f := by
  cases op <;> simp only [Host.exec] at h
  case renameTemporary n source =>
    obtain ⟨f, hf, h⟩ := orMissing_ok h
    obtain ⟨_, rfl⟩ := Prod.mk.inj h
    exact .inr ⟨source, f, rfl, howes f hf⟩
  case createJournal =>
    split at h
    · cases h
    · obtain ⟨_, rfl⟩ := Prod.mk.inj (Except.ok.inj h)
      exact .inl rfl
  case lstatLive | readLive | readStaged | writeTemporary | chmodTemporary | unlinkTemporary
      | lstatJournal | readJournal | renameJournal | unlinkJournal =>
    obtain ⟨_, _, h⟩ := orMissing_ok h
    obtain ⟨_, rfl⟩ := Prod.mk.inj h
    exact .inl rfl
  case readHealth counters =>
    obtain ⟨_, rfl⟩ := Prod.mk.inj (Except.ok.inj h)
    rw [Host.noted]
    split
    · exact .inl rfl
    · exact .inl rfl
  all_goals
    obtain ⟨_, rfl⟩ := Prod.mk.inj (Except.ok.inj h)
    exact .inl rfl

theorem Verified.congr (h : Verified digest files s) (hground : Ground s s') : Verified digest files s' where
  canonical item hitem := hground.canonical ▸ h.canonical item hitem
  parent item hitem := hground.parentPlain ▸ hground.parentCanonical ▸ h.parent item hitem
  before item hitem := by
    rw [Host.Staged, hground.staged]
    exact h.before item hitem
  after item hitem := by
    rw [Host.Staged, hground.staged]
    exact h.after item hitem

/-- **A call keeps each source before or after**, where it does what is owed. -/
theorem mixed_step {op : HotfixOp β} {r : Except HostError β} (h : Mixed digest files s)
    (howes : Owes digest files op s) (hans : Answer host (fun _ => True) op s r s') : Mixed digest files s' := by
  cases hans with
  | refusal _ => exact h
  | fault _ => exact h
  | effect hexec =>
    refine ⟨h.verified.congr (exec_ground hexec), fun item hitem => ?_, fun hsome => ?_⟩
    · rcases exec_live hexec howes with hlive | ⟨source, f, hlive, hf⟩
      · rw [Host.Has, hlive]
        exact h.sources item hitem
      · rw [Host.Has, hlive]
        by_cases heq : item.source = source
        · exact ⟨f, by rw [heq, Function.update_self], hf item hitem heq⟩
        · rw [Function.update_of_ne heq]
          exact h.sources item hitem
    · rcases exec_journal hexec with hplain | ⟨hplain, hjournal | hjournal⟩
      · exact hplain
      · rw [hplain]
        exact h.journal (hjournal ▸ hsome)
      · exact absurd hjournal hsome

end Step

/-! ## What the transactions owe -/

section Safe

variable {digest : Bytes → String} {files : List Item} {s : Host} {α β : Type}

/-- The script does what is owed, and ends in `Q`. -/
abbrev Safe (digest : Bytes → String) (files : List Item) (p : HotfixScript α)
    (Q : Except HotfixError α → Host → Prop) (s : Host) : Prop :=
  wpThrow (transaction digest files) p Q s

theorem safe_call {op : HotfixOp β} {Q : Except HotfixError β → Host → Prop} (howes : Owes digest files op s)
    (hok : ∀ b s', Host.exec op s = .ok (b, s') → Q (.ok b) s') (herror : ∀ e, Q (.error e) s) :
    Safe digest files (call op) Q s := by
  rintro s₁ rfl
  refine ⟨howes, fun r s₂ hans => ?_⟩
  cases hans with
  | effect h => exact hok _ _ h
  | refusal h => exact herror _
  | fault h => exact herror _

theorem safe_bind {p : HotfixScript β} {f : β → HotfixScript α} {Q : Except HotfixError α → Host → Prop}
    (h : Safe digest files p (onOk Q fun b s' => Safe digest files (f b) Q s') s) :
    Safe digest files (p >>= f) Q s := wpThrow_bind.mpr h

theorem safe_demand {holds : Bool} {text : String} {Q : Except HotfixError Unit → Host → Prop}
    (hok : holds = true → Q (.ok ()) s) (herror : ∀ e, Q (.error e) s) :
    Safe digest files (demand holds text) Q s := by
  rw [demand]
  split
  · exact hok ‹_›
  · exact herror _

theorem safe_finally {p : HotfixScript α} {last : HotfixScript Unit} {Q : Except HotfixError α → Host → Prop}
    (h : Safe digest files p (fun r s' => Safe digest files last (fun r' s'' =>
      Q (Script.lastly r r') s'') s') s) :
    Safe digest files (p.andFinally last) Q s := Script.wpThrow_finally h

theorem safe_tryCatch {p : HotfixScript α} {f : HotfixError → HotfixScript α}
    {Q : Except HotfixError α → Host → Prop}
    (h : Safe digest files p (fun r s' => match r with
      | .ok a => Q (.ok a) s'
      | .error e => Safe digest files (f e) Q s') s) : Safe digest files (tryCatch p f) Q s := by
  refine wpThrow_tryCatch.mpr (wpThrow_mono ?_ h)
  rintro (e | a) s' h
  · exact h
  · exact h

theorem safe_mono {p : HotfixScript α} {Q Q' : Except HotfixError α → Host → Prop}
    (hQ : ∀ r s', Q r s' → Q' r s') (h : Safe digest files p Q s) : Safe digest files p Q' s := wpThrow_mono hQ h

/-! ### Quiet scripts -/

/-- The script owes nothing, and leaves the sources and the temporaries as they are. -/
def Quiet (digest : Bytes → String) (files : List Item) (p : HotfixScript α) : Prop :=
  ∀ s (Q : Except HotfixError α → Host → Prop), (∀ r s', Same s s' → Q r s') → Safe digest files p Q s

theorem quiet_call {op : HotfixOp β} (hquiet : op.isQuiet = true) : Quiet digest files (call op) :=
  fun _ _ hQ => safe_call (owes_of_quiet hquiet) (fun _ _ h => hQ _ _ (exec_same hquiet h)) fun _ => hQ _ _ .refl

theorem quiet_pure {a : α} : Quiet digest files (pure a) := fun _ _ hQ => hQ _ _ .refl

theorem quiet_throw {e : HotfixError} : Quiet digest files (throw e : HotfixScript α) := fun _ _ hQ => hQ _ _ .refl

theorem quiet_bind {p : HotfixScript β} {f : β → HotfixScript α} (hp : Quiet digest files p)
    (hf : ∀ b, Quiet digest files (f b)) : Quiet digest files (p >>= f) := by
  intro s Q hQ
  refine safe_bind (hp s _ ?_)
  rintro (e | b) s' hs
  · exact hQ _ _ hs
  · exact hf b s' _ fun r s'' hs' => hQ _ _ (hs.trans hs')

theorem quiet_finally {p : HotfixScript α} {last : HotfixScript Unit} (hp : Quiet digest files p)
    (hlast : Quiet digest files last) : Quiet digest files (p.andFinally last) :=
  fun s _ hQ => safe_finally (hp s _ fun _ s' hs => hlast s' _ fun _ _ hs' => hQ _ _ (hs.trans hs'))

theorem quiet_tryCatch {p : HotfixScript α} {f : HotfixError → HotfixScript α} (hp : Quiet digest files p)
    (hf : ∀ e, Quiet digest files (f e)) : Quiet digest files (tryCatch p f) := by
  intro s Q hQ
  refine safe_tryCatch (hp s _ ?_)
  rintro (e | a) s' hs
  · exact hf e s' _ fun r s'' hs' => hQ _ _ (hs.trans hs')
  · exact hQ _ _ hs

theorem quiet_demand {holds : Bool} {text : String} : Quiet digest files (demand holds text) :=
  fun _ _ hQ => safe_demand (fun _ => hQ _ _ .refl) fun _ => hQ _ _ .refl

theorem quiet_askedIf {holds : Bool} {op : HotfixOp β} {b : β} (hquiet : op.isQuiet = true) :
    Quiet digest files (askedIf holds op b) := by
  rw [askedIf]
  split
  · exact quiet_call hquiet
  · exact quiet_pure

theorem quiet_each {body : α → HotfixScript Unit} {xs : List α} (h : ∀ x ∈ xs, Quiet digest files (body x)) :
    Quiet digest files (each body xs) := by
  induction xs with
  | nil => exact quiet_pure
  | cons x xs ih =>
    exact quiet_bind (h x List.mem_cons_self) fun _ => ih fun y hy => h y (List.mem_cons_of_mem _ hy)

/-- A quiet script, and what comes after it. -/
theorem safe_quiet {p : HotfixScript β} {f : β → HotfixScript α} {Q : Except HotfixError α → Host → Prop}
    (hp : Quiet digest files p) (hf : ∀ b s', Same s s' → Safe digest files (f b) Q s')
    (herror : ∀ e s', Same s s' → Q (.error e) s') : Safe digest files (p >>= f) Q s := by
  refine safe_bind (hp s _ ?_)
  rintro (e | b) s' hs
  · exact herror e s' hs
  · exact hf b s' hs

theorem syncDirectory_quiet : Quiet digest files syncDirectory :=
  quiet_bind (quiet_call rfl) fun _ => quiet_finally (quiet_call rfl) (quiet_call rfl)

theorem journalUpdate_quiet {phase : Phase} : Quiet digest files (journalUpdate phase) :=
  quiet_bind (quiet_call rfl) fun _ =>
    quiet_bind (quiet_finally (quiet_bind (quiet_call rfl) fun _ => quiet_call rfl) (quiet_call rfl)) fun _ =>
      quiet_bind (quiet_call rfl) fun _ => syncDirectory_quiet

theorem journalCreate_quiet : Quiet digest files journalCreate :=
  quiet_bind (quiet_call rfl) fun _ => syncDirectory_quiet

theorem journalRead_quiet : Quiet digest files journalRead :=
  quiet_bind (quiet_call rfl) fun _ => quiet_bind quiet_demand fun _ => quiet_call rfl

theorem archiveRecoveredJournal_quiet : Quiet digest files archiveRecoveredJournal :=
  quiet_bind journalRead_quiet fun _ => quiet_bind quiet_demand fun _ => quiet_bind (quiet_call rfl) fun _ =>
    quiet_bind (quiet_call rfl) fun _ =>
    quiet_bind (quiet_finally (quiet_bind (quiet_call rfl) fun _ => quiet_call rfl) (quiet_call rfl)) fun _ =>
    quiet_bind syncDirectory_quiet fun _ => quiet_bind (quiet_call rfl) fun _ =>
    quiet_bind quiet_demand fun _ => quiet_bind (quiet_call rfl) fun _ => syncDirectory_quiet

theorem stopped_quiet {unit : String} : Quiet digest files (stopped unit) :=
  quiet_bind (quiet_call rfl) fun _ => quiet_demand

theorem stopAndCheck_quiet {unit : String} : Quiet digest files (stopAndCheck unit) :=
  quiet_bind (quiet_call rfl) fun _ => stopped_quiet

theorem probe_quiet {p : Probe} : Quiet digest files (probe p) := quiet_call rfl

theorem stopWriter_quiet {unit : String} : Quiet digest files (stopWriter unit) := by
  refine quiet_bind (quiet_call rfl) fun state => ?_
  split
  · split
    · exact quiet_bind probe_quiet fun _ => quiet_bind (quiet_call rfl) fun _ => stopped_quiet
    · exact quiet_bind (quiet_call rfl) fun _ => stopped_quiet
  · exact stopped_quiet

theorem stopWriterAlways_quiet {unit : String} : Quiet digest files (stopWriterAlways unit) := by
  rw [stopWriterAlways]
  split
  · exact quiet_bind probe_quiet fun _ => quiet_bind (quiet_call rfl) fun _ => stopped_quiet
  · exact quiet_bind (quiet_call rfl) fun _ => stopped_quiet

/-- No writer is one of the units of the ingress. -/
theorem startWriter_quiet {unit : String} (hunit : unit ∈ START) : Quiet digest files (startWriter unit) := by
  have hnot : (!ENTRY.contains unit) = true := by
    revert unit
    decide
  exact quiet_bind (quiet_call hnot) fun _ => quiet_bind (quiet_call rfl) fun _ => quiet_demand

theorem waitIdle_quiet {attempts consecutive : Nat} : Quiet digest files (waitIdle attempts consecutive) := by
  induction attempts generalizing consecutive with
  | zero => exact quiet_throw
  | succ attempts ih =>
    have hrest : ∀ c, Quiet digest files (if 2 ≤ c then pure () else do
        probe .sleep
        waitIdle attempts c) := by
      intro c
      split
      · exact quiet_pure
      · exact quiet_bind probe_quiet fun _ => ih
    exact quiet_bind (quiet_call rfl) fun _ => quiet_bind (quiet_askedIf rfl) fun _ => hrest _

theorem pinnedLive_quiet {source hash : String} {mode : Nat} :
    Quiet digest files (pinnedLive digest source hash mode) :=
  quiet_bind (quiet_call rfl) fun _ => quiet_bind (quiet_askedIf rfl) fun _ =>
    quiet_bind quiet_demand fun _ => quiet_bind (quiet_call rfl) fun _ => quiet_demand

/-! ### The sources -/

/-- A source that is accepted is as it has to be. -/
theorem safe_pinnedLive {source hash : String} {mode : Nat} {Q : Except HotfixError Unit → Host → Prop}
    (hok : ∀ f, s.live source = some f → Pinned digest hash mode f → Q (.ok ()) s)
    (herror : ∀ e, Q (.error e) s) : Safe digest files (pinnedLive digest source hash mode) Q s := by
  refine safe_bind (safe_call trivial (fun info s₁ h₁ => ?_) herror)
  obtain ⟨f, hf, h₁⟩ := orMissing_ok h₁
  obtain ⟨rfl, rfl⟩ := Prod.mk.inj h₁
  have hread : ∀ real : Bool, (real = true → f.plain = true ∧ f.mode = mode ∧ f.bytes.length ≤ 512 * 1024) →
      Safe digest files (do
        demand real "Live hotfix source changed"
        let bytes ← call (.readLive source)
        demand (digest bytes == hash) "Live hotfix source changed") Q s := by
    intro real hreal
    refine safe_bind (safe_demand (fun h => ?_) herror)
    obtain ⟨hplain, hmode, hsmall⟩ := hreal h
    refine safe_bind (safe_call trivial (fun bytes s₂ h₂ => ?_) herror)
    obtain ⟨f', hf', h₂⟩ := orMissing_ok h₂
    obtain rfl := Option.some.inj (hf.symm.trans hf')
    obtain ⟨rfl, rfl⟩ := Prod.mk.inj h₂
    exact safe_demand (fun hhash => hok f hf ⟨eq_of_beq hhash, hmode, hplain, hsmall⟩) herror
  refine safe_bind ?_
  rw [askedIf]
  split
  · rename_i hif
    simp only [Bool.and_eq_true, beq_iff_eq, Bool.not_eq_true', decide_eq_false_iff_not, Nat.not_lt] at hif
    refine safe_call trivial (fun real s₂ h₂ => ?_) herror
    obtain ⟨rfl, rfl⟩ := Prod.mk.inj (Except.ok.inj h₂)
    exact hread _ fun _ => ⟨hif.1.1, hif.1.2, hif.2⟩
  · exact hread false nofun

/-- What a script leaves of the sources but for one of them. -/
structure ButFor (source : String) (s s' : Host) : Prop where
  others : ∀ x, x ≠ source → s'.live x = s.live x
  staged : s'.staged = s.staged

theorem ButFor.trans {source : String} {s' s'' : Host} (h : ButFor source s s') (h' : ButFor source s' s'') :
    ButFor source s s'' :=
  ⟨fun x hx => (h'.others x hx).trans (h.others x hx), h'.staged.trans h.staged⟩

theorem Same.butFor {source : String} {s' : Host} (h : Same s s') : ButFor source s s' :=
  ⟨fun x _ => congrFun h.live x, h.staged⟩

theorem safe_ignored {p : HotfixScript Unit} {Q : Except HotfixError Unit → Host → Prop}
    (h : Safe digest files p (fun _ s' => Q (.ok ()) s') s) : Safe digest files (Script.ignored p) Q s :=
  Script.wpThrow_ignored h

/-- A temporary that is written has its bytes. -/
theorem safe_written {n : Nat} {bytes : Bytes} {f : SourceFile} (source : String)
    (hn : s.temporary n = some f) :
    Safe digest files (Script.andFinally (do
      call (.writeTemporary n bytes)
      call .syncFile) (call .closeFile))
      (fun r s' => ButFor source s s' ∧
        (r = .ok () → s'.temporary n = some { f with bytes := f.bytes ++ bytes })) s := by
  refine safe_finally (safe_bind (safe_call trivial (fun _ s₁ h₁ => ?_) fun e => ?_))
  · obtain ⟨f', hf', h₁⟩ := orMissing_ok h₁
    obtain rfl := Option.some.inj (hn.symm.trans hf')
    obtain ⟨_, rfl⟩ := Prod.mk.inj h₁
    refine quiet_call rfl _ _ fun r s₂ h₂ => quiet_call rfl _ _ fun r' s₃ h₃ => ?_
    have hs := h₂.trans h₃
    refine ⟨⟨fun x _ => congrFun hs.live x, hs.staged⟩, fun _ => ?_⟩
    rw [hs.temporary]
    exact Function.update_self ..
  · refine quiet_call rfl _ _ fun r s₁ h₁ => ⟨h₁.butFor, fun hr => ?_⟩
    cases r <;> cases hr

/-- What is renamed over a source is what has been staged. -/
theorem safe_renamed {source : String} {from_ : String × Nat} {mode n : Nat} {f : SourceFile}
    (hn : s.temporary n = some f)
    (hto : ∀ item ∈ files, item.source = source →
      item.IsBefore digest { f with mode := mode } ∨ item.IsAfter digest { f with mode := mode }) :
    Safe digest files (renamed digest source from_ mode n) (fun _ s' => ButFor source s s') s := by
  refine safe_bind (safe_call trivial (fun _ s₁ h₁ => ?_) fun e => Same.refl.butFor)
  obtain ⟨f', hf', h₁⟩ := orMissing_ok h₁
  obtain rfl := Option.some.inj (hn.symm.trans hf')
  obtain ⟨_, rfl⟩ := Prod.mk.inj h₁
  have hchmod : ButFor source s (s.setTemporary n (some { f with mode := mode })) := ⟨fun _ _ => rfl, rfl⟩
  refine safe_quiet (quiet_call rfl) (fun _ s₂ h₂ => ?_) fun e s' hs => hchmod.trans hs.butFor
  refine safe_quiet (quiet_finally (quiet_call rfl) (quiet_call rfl)) (fun _ s₃ h₃ => ?_)
    fun e s' hs => hchmod.trans (h₂.trans hs).butFor
  refine safe_quiet pinnedLive_quiet (fun _ s₄ h₄ => ?_)
    fun e s' hs => hchmod.trans (h₂.trans (h₃.trans hs)).butFor
  have hs := h₂.trans (h₃.trans h₄)
  have htemporary : s₄.temporary n = some { f with mode := mode } := by
    rw [hs.temporary]
    exact Function.update_self ..
  refine safe_bind (safe_call (fun f' hf' => ?_) (fun _ s₅ h₅ => ?_) fun e => hchmod.trans hs.butFor)
  · obtain rfl := Option.some.inj (htemporary.symm.trans hf')
    exact hto
  · obtain ⟨f', _, h₅⟩ := orMissing_ok h₅
    obtain ⟨_, rfl⟩ := Prod.mk.inj h₅
    have hrename : ButFor source s₄ (((s₄.setLive source (some f')).setTemporary n none).unproven) :=
      ⟨fun x hx => Function.update_of_ne hx .., rfl⟩
    exact syncDirectory_quiet _ _ fun r s₆ h₆ => hchmod.trans (hs.butFor.trans (hrename.trans h₆.butFor))

/-- **A replacement** puts the staged bytes in place, and changes no other source. -/
theorem safe_replaceSource {source staged : String} {from_ : String × Nat} (to_ : String × Nat)
    (hsmall : ∀ bytes, s.staged staged = some bytes → bytes.length ≤ 512 * 1024)
    (hto : ∀ item ∈ files, item.source = source → ∀ f, Pinned digest to_.1 to_.2 f →
      item.IsBefore digest f ∨ item.IsAfter digest f) :
    Safe digest files (replaceSource digest source staged from_ to_ to_.2) (fun r s' => ButFor source s s' ∧
      (r = .ok () → ∃ f, s'.live source = some f ∧ Pinned digest to_.1 to_.2 f)) s := by
  have hnone : ∀ (e : HotfixError) (s' : Host), ButFor source s s' → ButFor source s s' ∧
      ((.error e : Except HotfixError Unit) = .ok () →
        ∃ f, s'.live source = some f ∧ Pinned digest to_.1 to_.2 f) := fun e s' hs => ⟨hs, nofun⟩
  refine safe_quiet pinnedLive_quiet (fun _ s₁ hs₁ => ?_) fun e s' hs => hnone e s' hs.butFor
  refine safe_bind (safe_call trivial (fun bytes s₂ h₂ => ?_) fun e => hnone _ _ hs₁.butFor)
  obtain ⟨bytes', hbytes, h₂⟩ := orMissing_ok h₂
  obtain ⟨rfl, rfl⟩ := Prod.mk.inj h₂
  have hlength := hsmall _ (hs₁.staged ▸ hbytes)
  refine safe_bind (safe_demand (fun hhash => ?_) fun e => hnone _ _ hs₁.butFor)
  have hhash := eq_of_beq hhash
  refine safe_quiet (quiet_call rfl) (fun _ s₃ hs₃ => ?_) fun e s' hs => hnone _ _ (hs₁.trans hs).butFor
  refine safe_quiet (quiet_askedIf rfl) (fun _ s₄ hs₄ => ?_)
    fun e s' hs => hnone _ _ (hs₁.trans (hs₃.trans hs)).butFor
  refine safe_quiet quiet_demand (fun _ s₅ hs₅ => ?_)
    fun e s' hs => hnone _ _ (hs₁.trans (hs₃.trans (hs₄.trans hs))).butFor
  have hs : ButFor source s s₅ := (hs₁.trans (hs₃.trans (hs₄.trans hs₅))).butFor
  refine safe_bind (safe_call trivial (fun n s₆ h₆ => ?_) fun e => hnone _ _ hs)
  obtain ⟨rfl, rfl⟩ := Prod.mk.inj (Except.ok.inj h₆)
  have hopen : (s₅.setTemporary s₅.minted (some ⟨[], 0o600, true⟩)).temporary s₅.minted =
      some ⟨[], 0o600, true⟩ := Function.update_self ..
  refine safe_bind (safe_mono ?_ (safe_written source hopen))
  rintro (e | u) s₇ ⟨h₇, hwritten⟩
  · exact hnone _ _ (hs.trans ⟨h₇.others, h₇.staged⟩)
  have hs₇ : ButFor source s s₇ := hs.trans ⟨h₇.others, h₇.staged⟩
  -- what is written is what will be renamed, with its new mode
  have htarget : ∀ item ∈ files, item.source = source →
      item.IsBefore digest ⟨[] ++ bytes', to_.2, true⟩ ∨ item.IsAfter digest ⟨[] ++ bytes', to_.2, true⟩ :=
    fun item hitem heq => hto item hitem heq _ ⟨hhash, rfl, rfl, hlength⟩
  refine safe_bind (safe_tryCatch (safe_mono ?_ (safe_renamed (hwritten rfl) htarget)))
  rintro (e | u) s₈ h₈
  · refine safe_bind (safe_ignored (safe_call trivial (fun _ s₉ h₉ => ?_) fun e' => hnone _ _ (hs₇.trans h₈)))
    obtain ⟨_, _, h₉⟩ := orMissing_ok h₉
    obtain ⟨_, rfl⟩ := Prod.mk.inj h₉
    exact hnone _ _ (hs₇.trans ⟨h₈.others, h₈.staged⟩)
  · exact safe_pinnedLive (fun f hf hpinned => ⟨hs₇.trans h₈, fun _ => ⟨f, hf, hpinned⟩⟩)
      fun e => hnone _ _ (hs₇.trans h₈)

end Safe

section Loops

variable {digest : Bytes → String} {files : List Item} {s : Host}

/-- What is staged is small enough for a source. -/
def Small (files : List Item) (s : Host) : Prop :=
  ∀ item ∈ files, ∀ bytes, s.staged item.stagedBefore = some bytes ∨ s.staged item.stagedAfter = some bytes →
    bytes.length ≤ 512 * 1024

theorem Small.congr {s' : Host} (h : Small files s) (hs : s'.staged = s.staged) : Small files s' :=
  fun item hitem bytes hbytes => h item hitem bytes (hs ▸ hbytes)

/-- A source belongs to one item. -/
theorem item_of_source (hfiles : (files.map (·.source)).Nodup) {item item' : Item} (h : item ∈ files)
    (h' : item' ∈ files) (heq : item'.source = item.source) : item' = item :=
  List.inj_on_of_nodup_map hfiles h' h heq

/-- What the loops do with one source: it is as `P` says, or something has been thrown. -/
def Settles (digest : Bytes → String) (files : List Item) (body : Item → HotfixScript Unit)
    (P : Item → SourceFile → Prop) (item : Item) : Prop :=
  ∀ s, Small files s → Safe digest files (body item)
    (fun r s' => ButFor item.source s s' ∧ (r = .ok () → s'.Has item (P item))) s

theorem installSource_settles (hfiles : (files.map (·.source)).Nodup) {item : Item} (hitem : item ∈ files) :
    Settles digest files (installSource digest) (fun item => item.IsAfter digest) item := by
  intro s hsmall
  refine safe_replaceSource _ (fun bytes hbytes => hsmall item hitem bytes (.inr hbytes)) ?_
  intro item' hitem' heq f hf
  obtain rfl := item_of_source hfiles hitem hitem' heq
  exact .inr hf

theorem restoreSource_settles (hfiles : (files.map (·.source)).Nodup) {item : Item} (hitem : item ∈ files) :
    Settles digest files (restoreSource digest) (fun item => item.IsBefore digest) item := by
  intro s hsmall
  refine safe_bind (safe_tryCatch (safe_bind (safe_pinnedLive (fun f hf hpinned => ?_) fun e => ?_)))
  · exact ⟨Same.refl.butFor, fun _ => ⟨f, hf, hpinned⟩⟩
  · refine safe_bind (pinnedLive_quiet _ _ fun r s₁ h₁ => ?_)
    rcases r with e' | u
    · exact ⟨h₁.butFor, nofun⟩
    · show Safe digest files (replaceSource digest item.source item.stagedBefore (item.after, 0o644)
        (item.before, 0o664) 0o664) _ s₁
      refine safe_mono ?_ (safe_replaceSource (item.before, 0o664)
        (fun bytes hbytes => hsmall item hitem bytes (.inl (h₁.staged ▸ hbytes))) ?_)
      · rintro r s₂ ⟨h₂, hr⟩
        exact ⟨h₁.butFor.trans h₂, hr⟩
      · intro item' hitem' heq f hf
        obtain rfl := item_of_source hfiles hitem hitem' heq
        exact .inl hf

/-- **A loop over the sources** leaves each of them as its body does. -/
theorem safe_each {body : Item → HotfixScript Unit} {P : Item → SourceFile → Prop} {xs : List Item}
    (hxs : (xs.map (·.source)).Nodup) (hbody : ∀ item ∈ xs, Settles digest files body P item)
    (hsmall : Small files s) :
    Safe digest files (each body xs) (fun r s' => s'.staged = s.staged ∧
      (∀ x, x ∉ xs.map (·.source) → s'.live x = s.live x) ∧
      (r = .ok () → ∀ item ∈ xs, s'.Has item (P item))) s := by
  induction xs generalizing s with
  | nil => exact ⟨rfl, fun _ _ => rfl, fun _ => nofun⟩
  | cons item xs ih =>
    obtain ⟨hnot, hxs⟩ := List.nodup_cons.mp hxs
    refine safe_bind (safe_mono ?_ (hbody item List.mem_cons_self s hsmall))
    rintro (e | u) s₁ ⟨h₁, hitem⟩
    · exact ⟨h₁.staged, fun x hx => h₁.others x fun heq => hx (heq ▸ List.mem_cons_self), nofun⟩
    · refine safe_mono ?_ (ih hxs (fun y hy => hbody y (List.mem_cons_of_mem _ hy)) (hsmall.congr h₁.staged))
      rintro r s₂ ⟨hstaged, hothers, hr⟩
      refine ⟨hstaged.trans h₁.staged, fun x hx => ?_, fun hok y hy => ?_⟩
      · rw [hothers x fun hmem => hx (List.mem_cons_of_mem _ hmem)]
        exact h₁.others x fun heq => hx (heq ▸ List.mem_cons_self)
      · rcases List.mem_cons.mp hy with rfl | hy
        · -- the rest of the loop is about other sources
          rw [Host.Has, hothers _ hnot]
          exact hitem rfl
        · exact hr hok y hy

end Loops

/-! ### The health and the ingress -/

section Transactions

variable {digest : Bytes → String} {files : List Item} {s : Host}

/-- What the health check leaves as it is. -/
structure Steady (s s' : Host) : Prop where
  live : s'.live = s.live
  staged : s'.staged = s.staged

/-- A health check that passes is noted. -/
theorem safe_waitHealthy {counters : Bool} {attempts : Nat} :
    Safe digest files (waitHealthy counters attempts)
      (fun r s' => Steady s s' ∧ (r = .ok () → s'.proven = some counters)) s := by
  induction attempts generalizing s with
  | zero => exact ⟨⟨rfl, rfl⟩, nofun⟩
  | succ attempts ih =>
    refine safe_bind (safe_tryCatch (safe_bind (safe_call trivial (fun result s₁ h₁ => ?_) fun e => ?_)))
    · obtain ⟨rfl, rfl⟩ := Prod.mk.inj (Except.ok.inj h₁)
      have hsteady : Steady s (s.noted counters).ask := by
        rw [Host.noted]
        split
        · exact ⟨rfl, rfl⟩
        · exact ⟨rfl, rfl⟩
      show Safe digest files (if accepted counters (s.now.health counters) then _ else _) _ _
      split
      · rename_i haccepted
        refine ⟨hsteady, fun _ => ?_⟩
        rw [Host.noted, if_pos haccepted]
        rfl
      · refine safe_quiet probe_quiet (fun _ s₂ h₂ => safe_mono ?_ ih) fun e s₂ h₂ => ?_
        · rintro r s₃ ⟨h₃, hr⟩
          exact ⟨⟨h₃.live.trans (h₂.live.trans hsteady.live), h₃.staged.trans (h₂.staged.trans hsteady.staged)⟩, hr⟩
        · exact ⟨⟨h₂.live.trans hsteady.live, h₂.staged.trans hsteady.staged⟩, nofun⟩
    · refine safe_quiet probe_quiet (fun _ s₂ h₂ => safe_mono ?_ ih) fun e s₂ h₂ => ?_
      · rintro r s₃ ⟨h₃, hr⟩
        exact ⟨⟨h₃.live.trans h₂.live, h₃.staged.trans h₂.staged⟩, hr⟩
      · exact ⟨⟨h₂.live, h₂.staged⟩, nofun⟩

theorem Matched.congr {s' : Host} (h : Matched digest files s) (hs : Same s s') : Matched digest files s' := by
  rcases h with ⟨hall, hproven⟩ | ⟨hall, hproven⟩
  · refine .inl ⟨fun item hitem => ?_, hs.proven.trans hproven⟩
    rw [Host.Has, hs.live]
    exact hall item hitem
  · refine .inr ⟨fun item hitem => ?_, hs.proven.trans hproven⟩
    rw [Host.Has, hs.live]
    exact hall item hitem

theorem start_same {unit : String} {u : Unit} {s' : Host} (h : Host.exec (.start unit) s = .ok (u, s')) :
    Same s s' := by
  obtain ⟨_, rfl⟩ := Prod.mk.inj (Except.ok.inj h)
  exact ⟨rfl, rfl, rfl, rfl⟩

/-- The ingress is started where the sources match. -/
theorem safe_startEntries {units : List String} (h : Matched digest files s) :
    Safe digest files (each startEntry units) (fun _ s' => Same s s') s := by
  induction units generalizing s with
  | nil => exact Same.refl
  | cons unit units ih =>
    refine safe_bind (safe_bind (safe_call (fun _ => h) (fun u s₁ h₁ => ?_) fun e => Same.refl))
    have hs₁ := start_same h₁
    refine quiet_bind (quiet_call rfl) (fun _ => quiet_demand) _ _ fun r s₂ h₂ => ?_
    rcases r with e | u
    · exact hs₁.trans h₂
    · exact safe_mono (fun r s₃ h₃ => (hs₁.trans h₂).trans h₃) (ih (h.congr (hs₁.trans h₂)))

/-- The end of both transactions: two phases of the journal with the ingress between them. -/
theorem safe_opening {before after : Phase} {p : HotfixScript Unit} (hp : Quiet digest files p)
    (h : Matched digest files s) :
    Safe digest files (do
      journalUpdate before
      p
      each startEntry ENTRY
      probe .publicOriginal
      journalUpdate after) (fun _ s' => s'.staged = s.staged) s := by
  refine safe_quiet journalUpdate_quiet (fun _ s₁ h₁ => ?_) fun e s' hs => hs.staged
  refine safe_quiet hp (fun _ s₂ h₂ => ?_) fun e s' hs => (h₁.trans hs).staged
  have hs := h₁.trans h₂
  refine safe_bind (safe_mono ?_ (safe_startEntries (h.congr hs)))
  rintro (e | u) s₃ h₃
  · exact (hs.trans h₃).staged
  · exact quiet_bind probe_quiet (fun _ => journalUpdate_quiet) _ _ fun r s₄ h₄ =>
      ((hs.trans h₃).trans h₄).staged

theorem safe_reopened (h : Matched digest files s) :
    Safe digest files reopened (fun _ s' => s'.staged = s.staged) s := by
  refine safe_quiet journalUpdate_quiet (fun _ s₁ h₁ => ?_) fun e s' hs => hs.staged
  refine safe_bind (safe_mono ?_ (safe_startEntries (h.congr h₁)))
  rintro (e | u) s₃ h₃
  · exact (h₁.trans h₃).staged
  · exact quiet_bind probe_quiet (fun _ => journalUpdate_quiet) _ _ fun r s₄ h₄ =>
      ((h₁.trans h₃).trans h₄).staged

theorem startWriters_quiet : Quiet digest files (each startWriter START) :=
  quiet_each fun _ hunit => startWriter_quiet hunit

/-- From the sources to the end: the writers, the health, the ingress. -/
theorem safe_started {counters : Bool} {last : HotfixScript Unit}
    (hmatch : ∀ s', Steady s s' → s'.proven = some counters → Matched digest files s')
    (hlast : ∀ s', Matched digest files s' → Safe digest files last (fun _ s'' => s''.staged = s'.staged) s') :
    Safe digest files (do
      each startWriter START
      waitHealth counters
      last) (fun _ s' => s'.staged = s.staged) s := by
  refine safe_quiet startWriters_quiet (fun _ s₁ h₁ => ?_) fun e s' hs => hs.staged
  refine safe_bind (safe_mono ?_ safe_waitHealthy)
  rintro (e | u) s₂ ⟨h₂, hproven⟩
  · exact h₂.staged.trans h₁.staged
  · have hsteady : Steady s s₂ := ⟨h₂.live.trans h₁.live, h₂.staged.trans h₁.staged⟩
    exact safe_mono (fun _ _ h => h.trans hsteady.staged) (hlast s₂ (hmatch s₂ hsteady (hproven rfl)))

theorem steady_has {s' : Host} (hs : Steady s s') {item : Item} {P : SourceFile → Prop} (h : s.Has item P) :
    s'.Has item P := by
  rw [Host.Has, hs.live]
  exact h

theorem reclosed_quiet : Quiet digest files reclosed :=
  quiet_bind journalUpdate_quiet fun _ => quiet_bind (quiet_each fun _ _ => stopAndCheck_quiet) fun _ =>
    quiet_bind waitIdle_quiet fun _ => stopAndCheck_quiet

theorem safe_restored (hfiles : (files.map (·.source)).Nodup) (hsmall : Small files s) :
    Safe digest files (restored digest files) (fun _ s' => s'.staged = s.staged) s := by
  refine safe_quiet reclosed_quiet (fun _ s₁ h₁ => ?_) fun e s' hs => hs.staged
  refine safe_quiet (quiet_each fun _ _ => stopWriter_quiet) (fun _ s₂ h₂ => ?_)
    fun e s' hs => (h₁.trans hs).staged
  have hs := (h₁.trans h₂).staged
  refine safe_bind (safe_mono ?_ (safe_each hfiles (fun _ hitem => restoreSource_settles hfiles hitem)
    (hsmall.congr hs)))
  rintro (e | u) s₆ ⟨h₆, -, hbefore⟩
  · exact h₆.trans hs
  · refine safe_mono (fun _ _ h => h.trans (h₆.trans hs)) (safe_started (fun s' hsteady hproven => ?_)
      fun s' hmatched => safe_reopened hmatched)
    exact .inl ⟨fun item hitem => steady_has hsteady (hbefore rfl item hitem), hproven⟩

theorem safe_recover (hfiles : (files.map (·.source)).Nodup) (hsmall : Small files s) :
    Safe digest files (recoverLegacyCounterHotfix digest files) (fun _ s' => s'.staged = s.staged) s := by
  refine safe_quiet probe_quiet (fun _ s₁ h₁ => ?_) fun e s' hs => hs.staged
  refine safe_quiet journalRead_quiet (fun _ s₂ h₂ => ?_) fun e s' hs => (h₁.trans hs).staged
  refine safe_quiet quiet_demand (fun _ s₃ h₃ => ?_) fun e s' hs => (h₁.trans (h₂.trans hs)).staged
  have hs := (h₁.trans (h₂.trans h₃)).staged
  exact safe_mono (fun _ _ h => h.trans hs) (safe_restored hfiles (hsmall.congr hs))

theorem closed_quiet : Quiet digest files closed :=
  quiet_bind journalUpdate_quiet fun _ => quiet_bind (quiet_each fun _ _ => quiet_call rfl) fun _ =>
    quiet_bind (quiet_each fun _ _ => stopped_quiet) fun _ => quiet_bind probe_quiet fun _ =>
    quiet_bind journalUpdate_quiet fun _ => quiet_bind waitIdle_quiet fun _ =>
    quiet_bind stopAndCheck_quiet fun _ => quiet_bind journalUpdate_quiet fun _ =>
    quiet_bind (quiet_each fun _ _ => stopWriterAlways_quiet) fun _ => journalUpdate_quiet

theorem safe_installed (hfiles : (files.map (·.source)).Nodup) (hsmall : Small files s) :
    Safe digest files (installed digest files) (fun _ s' => s'.staged = s.staged) s := by
  refine safe_quiet closed_quiet (fun _ s₁ h₁ => ?_) fun e s' hs => hs.staged
  refine safe_bind (safe_mono ?_ (safe_each hfiles (fun _ hitem => installSource_settles hfiles hitem)
    (hsmall.congr h₁.staged)))
  rintro (e | u) s₂ ⟨h₂, -, hafter⟩
  · exact h₂.trans h₁.staged
  refine safe_quiet journalUpdate_quiet (fun _ s₃ h₃ => ?_) fun e s' hs => hs.staged.trans (h₂.trans h₁.staged)
  refine safe_mono (fun _ _ h => h.trans (h₃.staged.trans (h₂.trans h₁.staged)))
    (safe_started (fun s' hsteady hproven => ?_) fun s' hmatched => safe_opening probe_quiet hmatched)
  refine .inr ⟨fun item hitem => steady_has hsteady ?_, hproven⟩
  rw [Host.Has, h₃.live]
  exact hafter rfl item hitem

theorem safe_install {retryRecovered : Bool} (hfiles : (files.map (·.source)).Nodup) (hsmall : Small files s) :
    Safe digest files (installLegacyCounterHotfix digest files retryRecovered)
      (fun _ s' => s'.staged = s.staged) s := by
  have hlast : ∀ s₁, s₁.staged = s.staged → Safe digest files (do
      journalCreate
      tryCatch (installed digest files) fun failure => do
        tryCatch (recoverLegacyCounterHotfix digest files) fun recovery =>
          throw (.aggregate failure recovery
            "Hotfix installation and recovery failed; inspect the activation journal")
        throw (.recovered failure)) (fun _ s' => s'.staged = s.staged) s₁ := by
    intro s₁ h₁
    refine safe_quiet journalCreate_quiet (fun _ s₂ h₂ => ?_) fun e s' hs => hs.staged.trans h₁
    have hs₂ := h₂.staged.trans h₁
    refine safe_tryCatch (safe_mono ?_ (safe_installed hfiles (hsmall.congr hs₂)))
    rintro (failure | u) s₃ h₃
    · have hs₃ := h₃.trans hs₂
      refine safe_bind (safe_tryCatch (safe_mono ?_ (safe_recover hfiles (hsmall.congr hs₃))))
      rintro (recovery | u) s₄ h₄
      · exact h₄.trans hs₃
      · exact h₄.trans hs₃
    · exact h₃.trans hs₂
  refine safe_quiet probe_quiet (fun _ s₁ h₁ => ?_) fun e s' hs => hs.staged
  refine safe_quiet probe_quiet (fun _ s₂ h₂ => ?_) fun e s' hs => (h₁.trans hs).staged
  refine safe_quiet probe_quiet (fun _ s₃ h₃ => ?_) fun e s' hs => (h₁.trans (h₂.trans hs)).staged
  have h₃ := h₁.trans (h₂.trans h₃)
  refine safe_quiet (quiet_call rfl) (fun _ s₄ h₄ => ?_) fun e s' hs => (h₃.trans hs).staged
  refine safe_quiet quiet_demand (fun _ s₅ h₅ => ?_) fun e s' hs => (h₃.trans (h₄.trans hs)).staged
  have h₅ := h₃.trans (h₄.trans h₅)
  refine safe_quiet waitIdle_quiet (fun _ s₆ h₆ => ?_) fun e s' hs => (h₅.trans hs).staged
  have h₆ := h₅.trans h₆
  cases retryRecovered with
  | false => exact hlast s₆ h₆.staged
  | true =>
    refine safe_quiet archiveRecoveredJournal_quiet (fun _ s₇ h₇ => ?_) fun e s' hs => (h₆.trans hs).staged
    exact hlast s₇ (h₆.trans h₇).staged

end Transactions

end BegetBridge.CounterHotfix
