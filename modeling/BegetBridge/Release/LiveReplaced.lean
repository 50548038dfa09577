import BegetBridge.Release.LiveReplacement

/-!
# The replacement is resumed

Whatever calls are cut, each target is in one of three positions, in the order of the ledger, and a call that meets no
failure ends with all of them replaced.

## Main definitions

* `placed`: what is at the names of a target in a position
* `Good`: how far the replacement is, and that the ledger agrees
* `Reach`: what is reached by calls and crashes

## Main results

* `keeps_replaceLiveStateFromLedger`: what a call keeps, and how it ends
* `live_replacement_safe`: no state is lost, and none is overwritten
* `live_replacement_resumable`: a call that meets no failure completes the replacement
-/

namespace BegetBridge.LiveReplacement

open Posix Interleaving

section Positions

variable {item : Target} {old new : Inode} {position : Position}

/-- What is at the names of a target in a position. -/
def placed (old new : Inode) : Position → Places
  | .pending => ⟨some old, some new, none⟩
  | .parked => ⟨none, some new, some old⟩
  | .installed => ⟨some new, none, some old⟩

/-- The inodes are those of the ledger. -/
structure Recorded (item : Target) (old new : Inode) : Prop where
  oldFits : item.kind.fits old = true
  newFits : item.kind.fits new = true
  oldKnown : item.old (some old) = true
  newKnown : item.next (some new) = true
  owned : item.owned (some new) = true
  digest : new.digest = item.newDigest

/-- **A position is recognized.** -/
theorem classify_placed (hrecorded : Recorded item old new) : item.classify (placed old new position) = some position := by
  cases position <;> simp [Target.classify, placed, hrecorded.oldKnown, hrecorded.newKnown]

theorem placed_newName : (placed old new position).get position.newName = some new := by
  cases position <;> rfl

theorem fits_placed (hrecorded : Recorded item old new) {name : Name} {info : Inode}
    (hinfo : (placed old new position).get name = some info) : item.kind.fits info = true := by
  have hor : info = old ∨ info = new := by
    cases position <;> cases name <;> simp_all [placed, Places.get]
  rcases hor with rfl | rfl
  · exact hrecorded.oldFits
  · exact hrecorded.newFits

end Positions

section Replacement

variable (c : Inputs) (r₀ : LedgerRecord) (old new : Target → Inode)

/-- Whatever a crash leaves of a target, its position is allowed. -/
def Each (s : Site) (allowed : Nat → Position → Prop) : Prop :=
  ∀ j item, r₀.targets[j]? = some item → (s.places item.live).All fun p =>
    ∃ position, p = placed (old item) (new item) position ∧ allowed j position

/-- So many targets are installed, the next one is under way, and the others are pending. -/
def Upto (k j : Nat) (position : Position) : Prop := (j < k → position = .installed) ∧ (k < j → position = .pending)

/-- How far the replacement is, and that the ledger agrees. -/
structure Good (s : Site) : Prop where
  upto : ∃ k, Each r₀ old new s (Upto k)
  now : s.ledger.now = r₀.withPhase s.ledger.now.phase
  phase : s.ledger.now.phase ∈ ["prepared", "replacing", "replaced"]
  allowed : Each r₀ old new s fun _ position => allows s.ledger.now.phase position = true
  stale : ∀ r ∈ s.ledger.stale, r = r₀.withPhase r.phase ∧ r.phase ∈ ["prepared", "replacing"]

/-- What a replacement needs of its inputs, and of what is around it. -/
structure Ready (a : Around) : Prop where
  rooted : c.rooted = true
  ledgerPath : absolute c.ledgerPath = true
  stateDatabase : absolute c.stateDatabase = true
  valid : r₀.valid = true
  ledgerTrusted : a.ledgerTrusted = true
  parentsTrusted : a.parentsTrusted = true
  prepared : a.copies.phase = "prepared"
  copiesSha256 : a.copiesSha256 = r₀.copyRecordSha256
  migration : a.copies.migrationTransactionId = r₀.migrationTransactionId
  transaction : a.transactionId = r₀.migrationTransactionId
  config : r₀.targets.head?.any (·.live == c.stateDatabase) = false
  database : (r₀.targets.any fun item => item.kind == .database && item.live == c.stateDatabase) = true
  sidecar : ∀ item ∈ r₀.targets, ∀ suffix ∈ ["-wal", "-shm", "-journal"], a.sidecar (item.live ++ suffix) = false
  directory : ∀ item ∈ r₀.targets, dirname item.live = dirname item.copy ∧ dirname item.live = dirname item.parked

/-- A call may fail, but what is there is never said to be missing. -/
def Fault (e : Errno) : Prop := e ≠ .ENOENT

def Thrown (e : LedgerError) : Prop := e ≠ .call .ENOENT

/-- What is kept, with what is around as it was. -/
def Kept (a : Around) (s : Site) : Prop := Good r₀ old new s ∧ s.around = a

/-- What is owed: a target is renamed once the ledger says so, in its turn, and to a name that is free. -/
structure Renames (item : Target) (source target : Name) (s : Site) : Prop where
  replacing : s.ledger.now = r₀.withPhase "replacing"
  turn : ∃ k, r₀.targets[k]? = some item ∧ Each r₀ old new s (Upto k)
  here : s.entry item source ≠ none
  free : s.entry item target = none

def owes (a : Around) : {β : Type} → LedgerOp β → Site → Prop
  | _, .rename item source target, s => Kept r₀ old new a s ∧ Renames r₀ old new item source target s
  | _, _, s => Kept r₀ old new a s

variable {c r₀ old new}
variable {a : Around} {s s' : Site} {h : List (Entry LedgerOp Errno)} {α β : Type} {P : α → Site → Prop}

/-- Every run pays what it owes, and throws only after a fault where all is ready. -/
abbrev Keeps (c : Inputs) (r₀ : LedgerRecord) (old new : Target → Inode) (a : Around) (p : LedgerScript α)
    (P : α → Site → Prop) (h : List (Entry LedgerOp Errno)) (s : Site) : Prop :=
  Script.Keeps site Fault (fun op s => owes r₀ old new a op s) (Kept r₀ old new a) Thrown (Ready c r₀ a) p P h s

theorem thrown_call {e : Errno} (hfault : Fault e) : Thrown (.call e) := fun he => hfault (LedgerError.call.inj he)

theorem keeps_demand {holds : Bool} {text : String} (hs : Kept r₀ old new a s) (hholds : Ready c r₀ a → holds = true) :
    Keeps c r₀ old new a (demand holds text) (fun _ s' => s' = s ∧ holds = true) h s := by
  cases holds with
  | true => exact Script.keeps_pure hs ⟨rfl, rfl⟩
  | false => exact Script.keeps_throw hs nofun fun hready => Bool.false_ne_true (hholds hready)

/-- The calls that rename a target. -/
def LedgerOp.renames : {β : Type} → LedgerOp β → Bool
  | _, .rename _ _ _ => true
  | _, _ => false

theorem owes_kept {op : LedgerOp β} (hop : op.renames = false) (hs : Kept r₀ old new a s) : owes r₀ old new a op s := by
  cases op with
  | rename => cases hop
  | _ => exact hs

/-- A call that only looks. -/
theorem keeps_look {op : LedgerOp α} {b : α} (hs : Kept r₀ old new a s) (hop : op.renames = false)
    (hexec : s.exec op = .ok (b, s)) : Keeps c r₀ old new a (call op) (fun b' s' => s' = s ∧ b' = b) h s :=
  Script.keeps_effect hs (owes_kept hop hs) (fun _ => thrown_call) hexec hs ⟨rfl, rfl⟩

theorem keeps_settle (hs : Kept r₀ old new a s) :
    Keeps c r₀ old new a (call .settle) (fun u s' => s' = s ∧ u = ()) h s := keeps_look hs rfl rfl

/-- A handle is closed. -/
theorem keeps_closing {p : LedgerScript α} (hp : Keeps c r₀ old new a p P h s) :
    Keeps c r₀ old new a (Script.andFinally p (call .settle)) P h s := by
  apply Script.keeps_finally hp
  intro h' s' hs'
  apply Script.keeps_mono (keeps_settle hs')
  rintro _ s'' - ⟨rfl, -⟩ b hb
  exact hb

/-! ## What an inspection sees -/

/-- The position of a target, as it is seen. -/
def Site.position (s : Site) (item : Target) : Position := (item.classify (s.places item.live).now).getD .pending

/-- The inodes of all targets are those of the ledger. -/
def Known (r₀ : LedgerRecord) (old new : Target → Inode) : Prop := ∀ item ∈ r₀.targets, Recorded item (old item) (new item)

theorem Each.now {allowed : Nat → Position → Prop} (heach : Each r₀ old new s allowed) (hknown : Known r₀ old new) {j : Nat}
    {item : Target} (hj : r₀.targets[j]? = some item) :
    (s.places item.live).now = placed (old item) (new item) (s.position item) ∧ allowed j (s.position item) := by
  obtain ⟨position, hnow, hallowed⟩ := (heach j item hj).1
  have hposition : s.position item = position := by
    rw [Site.position, hnow, classify_placed (hknown item (List.mem_of_getElem? hj)), Option.getD_some]
  rw [hposition]
  exact ⟨hnow, hallowed⟩

theorem Good.placed (hs : Good r₀ old new s) (hknown : Known r₀ old new) {item : Target} (hitem : item ∈ r₀.targets) :
    (s.places item.live).now = placed (old item) (new item) (s.position item) ∧
      allows s.ledger.now.phase (s.position item) = true := by
  obtain ⟨j, hj⟩ := List.mem_iff_getElem?.mp hitem
  exact hs.allowed.now hknown hj

theorem withPhase_valid {r : LedgerRecord} {phase : String} (hvalid : r.valid = true)
    (hphase : phase ∈ ["prepared", "replacing", "replaced"]) : (r.withPhase phase).valid = true := by
  rw [LedgerRecord.valid, Bool.and_eq_true, Bool.and_eq_true, Bool.and_eq_true, Bool.and_eq_true, Bool.and_eq_true,
    Bool.and_eq_true, Bool.and_eq_true, Bool.and_eq_true, Bool.and_eq_true] at hvalid ⊢
  obtain ⟨⟨⟨⟨⟨⟨⟨⟨⟨hformat, -⟩, htransaction⟩, hpath⟩, hsha⟩, hlength⟩, hconfig⟩, hdatabases⟩, htargets⟩, hnames⟩ := hvalid
  exact ⟨⟨⟨⟨⟨⟨⟨⟨⟨hformat, decide_eq_true hphase⟩, htransaction⟩, hpath⟩, hsha⟩, hlength⟩, hconfig⟩, hdatabases⟩, htargets⟩,
    hnames⟩

theorem keeps_readLedger (hs : Kept r₀ old new a s) :
    Keeps c r₀ old new a readLiveReplacementLedger (fun r s' => s' = s ∧ r = s.ledger.now) h s := by
  apply Script.keeps_after (keeps_look hs rfl rfl)
  rintro trusted h₁ rfl
  apply Script.keeps_after (keeps_demand hs fun hready => by rw [hs.2]; exact hready.ledgerTrusted)
  rintro _ h₂ -
  apply Script.keeps_after (keeps_look hs rfl rfl)
  rintro r h₃ rfl
  apply Script.keeps_after (keeps_demand hs fun hready => ?_)
  · rintro _ h₄ -
    exact Script.keeps_pure hs ⟨rfl, rfl⟩
  · rw [hs.1.now]
    exact withPhase_valid hready.valid hs.1.phase

/-- What is at a name is seen, and nothing where there is nothing. -/
theorem keeps_identity {item : Target} {name : Name} (hs : Kept r₀ old new a s)
    (hfits : ∀ info, s.entry item name = some info → item.kind.fits info = true) :
    Keeps c r₀ old new a (identity item name) (fun info s' => s' = s ∧ info = s.entry item name) h s := by
  cases hentry : s.entry item name with
  | none =>
    refine Script.keeps_refused hs hs (fun _ => thrown_call) (e := .ENOENT) ?_ ?_ fun e he => ?_
    · change (s.entry item name).elim _ _ = _
      rw [hentry]
      rfl
    · exact fun h' => Script.keeps_pure hs ⟨rfl, rfl⟩
    · split
      · exact absurd rfl he
      · rfl
  | some info =>
    refine Script.keeps_caught ?_ fun e he => ?_
    case refine_2 =>
      split
      · exact absurd rfl he
      · rfl
    have hlstat : s.exec (.lstat item name) = .ok (info, s) := by simp [Site.exec, hentry]
    have hreal : s.exec (.realpath item name) = .ok (true, s) := by simp [Site.exec, hentry]
    apply Script.keeps_after (keeps_look hs rfl hlstat)
    rintro _ h₁ rfl
    apply Script.keeps_after (keeps_demand hs fun _ => hfits _ hentry)
    rintro _ h₂ -
    apply Script.keeps_after (keeps_look hs rfl hreal)
    rintro _ h₃ rfl
    apply Script.keeps_after (keeps_demand hs fun _ => rfl)
    rintro _ h₄ -
    exact Script.keeps_pure hs ⟨rfl, rfl⟩

theorem keeps_missing {filename : String} (hs : Kept r₀ old new a s) :
    Keeps c r₀ old new a (missing filename) (fun gone s' => s' = s ∧ gone = !s.around.sidecar filename) h s := by
  cases hsidecar : s.around.sidecar filename with
  | false =>
    refine Script.keeps_refused hs hs (fun _ => thrown_call) (e := .ENOENT) ?_ ?_ fun e he => ?_
    · change (if s.around.sidecar filename then _ else _) = _
      rw [hsidecar]
      rfl
    · exact fun h' => Script.keeps_pure hs ⟨rfl, rfl⟩
    · split
      · exact absurd rfl he
      · rfl
  | true =>
    refine Script.keeps_caught ?_ fun e he => ?_
    case refine_2 =>
      split
      · exact absurd rfl he
      · rfl
    have hlstat : s.exec (.lstatSidecar filename) = .ok ((), s) := by simp [Site.exec, hsidecar]
    apply Script.keeps_after (keeps_look hs rfl hlstat)
    rintro _ h₁ -
    exact Script.keeps_pure hs ⟨rfl, rfl⟩

theorem keeps_withoutSidecars {item : Target} {suffixes : List String} (hs : Kept r₀ old new a s)
    (hnone : Ready c r₀ a → ∀ suffix ∈ suffixes, a.sidecar (item.live ++ suffix) = false) :
    Keeps c r₀ old new a (withoutSidecars item suffixes) (fun _ s' => s' = s) h s := by
  induction suffixes generalizing h with
  | nil => exact Script.keeps_pure hs rfl
  | cons suffix rest ih =>
    apply Script.keeps_after (keeps_missing hs)
    rintro _ h₁ rfl
    apply Script.keeps_after (keeps_demand hs fun hready => ?_)
    · rintro _ h₂ -
      exact ih fun hready suffix' hsuffix' => hnone hready suffix' (List.mem_cons_of_mem _ hsuffix')
    · rw [hs.2, hnone hready suffix List.mem_cons_self]
      rfl

theorem keeps_checkSidecars {item : Target} (hs : Kept r₀ old new a s) (hitem : item ∈ r₀.targets) :
    Keeps c r₀ old new a (checkSidecars item) (fun _ s' => s' = s) h s := by
  rw [checkSidecars]
  split
  · exact keeps_withoutSidecars hs fun hready => hready.sidecar item hitem
  · exact Script.keeps_pure hs rfl

/-- The position of a target is seen as it is. -/
theorem keeps_targetPosition {item : Target} (hs : Kept r₀ old new a s) (hknown : Known r₀ old new)
    (hitem : item ∈ r₀.targets) :
    Keeps c r₀ old new a (targetPosition item) (fun position s' => s' = s ∧ position = s.position item) h s := by
  have hrecorded := hknown item hitem
  obtain ⟨hnow, -⟩ := hs.1.placed hknown hitem
  have hfits : ∀ name info, s.entry item name = some info → item.kind.fits info = true := by
    intro name info hinfo
    rw [Site.entry, hnow] at hinfo
    exact fits_placed hrecorded hinfo
  have hclassify : item.classify ⟨s.entry item .live, s.entry item .copy, s.entry item .parked⟩ =
      some (s.position item) := by
    change item.classify (s.places item.live).now = _
    rw [hnow, classify_placed hrecorded]
  have hnew : s.entry item (s.position item).newName = some (new item) := by
    rw [Site.entry, hnow, placed_newName]
  apply Script.keeps_after (keeps_look hs rfl rfl)
  rintro trusted h₁ rfl
  apply Script.keeps_after (keeps_demand hs fun hready => by rw [hs.2]; exact hready.parentsTrusted)
  rintro _ h₂ -
  apply Script.keeps_after (keeps_demand hs fun hready => ?_)
  · rintro _ h₃ -
    apply Script.keeps_after (keeps_identity hs (hfits .live))
    rintro _ h₄ rfl
    apply Script.keeps_after (keeps_identity hs (hfits .copy))
    rintro _ h₅ rfl
    apply Script.keeps_after (keeps_identity hs (hfits .parked))
    rintro _ h₆ rfl
    rw [hclassify]
    have howned : item.owned ((Places.mk (s.entry item .live) (s.entry item .copy) (s.entry item .parked)).get
        (s.position item).newName) = true := by
      change item.owned (s.entry item (s.position item).newName) = true
      rw [hnew]
      exact hrecorded.owned
    apply Script.keeps_after (keeps_demand hs fun _ => howned)
    rintro _ h₇ -
    have hdigest : s.exec (.digest item (s.position item).newName) = .ok ((new item).digest, s) := by
      simp [Site.exec, hnew]
    apply Script.keeps_after (keeps_look hs rfl hdigest)
    rintro _ h₈ rfl
    apply Script.keeps_after (keeps_demand hs fun _ => by rw [hrecorded.digest]; exact beq_self_eq_true _)
    rintro _ h₉ -
    apply Script.keeps_bind (keeps_checkSidecars hs hitem)
    rintro _ h₁₀ _ - rfl
    exact Script.keeps_pure hs ⟨rfl, rfl⟩
  · obtain ⟨hcopy, hparked⟩ := hready.directory item hitem
    rw [← hcopy, ← hparked, beq_self_eq_true]
    rfl

theorem keeps_targetPositions {items : List Target} (hs : Kept r₀ old new a s) (hknown : Known r₀ old new)
    (hitems : ∀ item ∈ items, item ∈ r₀.targets) :
    Keeps c r₀ old new a (targetPositions items) (fun ps s' => s' = s ∧ ps = items.map s.position) h s := by
  induction items generalizing h with
  | nil => exact Script.keeps_pure hs ⟨rfl, rfl⟩
  | cons item rest ih =>
    apply Script.keeps_after (keeps_targetPosition hs hknown (hitems item List.mem_cons_self))
    rintro _ h₁ rfl
    apply Script.keeps_after (ih fun item' hitem' => hitems item' (List.mem_cons_of_mem _ hitem'))
    rintro _ h₂ rfl
    exact Script.keeps_pure hs ⟨rfl, rfl⟩

theorem keeps_recheck {items : List Target} (hs : Kept r₀ old new a s) (hknown : Known r₀ old new)
    (hitems : ∀ item ∈ items, item ∈ r₀.targets) :
    Keeps c r₀ old new a (recheck items (items.map s.position)) (fun _ s' => s' = s) h s := by
  induction items generalizing h with
  | nil => exact Script.keeps_pure hs rfl
  | cons item rest ih =>
    apply Script.keeps_after (keeps_targetPosition hs hknown (hitems item List.mem_cons_self))
    rintro _ h₁ rfl
    apply Script.keeps_after (keeps_demand hs fun _ => beq_self_eq_true _)
    rintro _ h₂ -
    exact ih fun item' hitem' => hitems item' (List.mem_cons_of_mem _ hitem')

/-- **An inspection** sees the ledger and the positions as they are. -/
theorem keeps_inspect (hs : Kept r₀ old new a s) (hknown : Known r₀ old new) :
    Keeps c r₀ old new a (inspectLiveReplacementLedger c)
      (fun x s' => s' = s ∧ x = (s.ledger.now, r₀.targets.map s.position)) h s := by
  have htargets : s.ledger.now.targets = r₀.targets := by rw [hs.1.now]; rfl
  have hsame : s.ledger.now.copyRecordSha256 = r₀.copyRecordSha256 ∧
      s.ledger.now.migrationTransactionId = r₀.migrationTransactionId := by
    rw [hs.1.now]
    exact ⟨rfl, rfl⟩
  apply Script.keeps_after (keeps_demand hs fun hready => by rw [hready.rooted, hready.stateDatabase]; rfl)
  rintro _ h₁ -
  apply Script.keeps_after (keeps_readLedger hs)
  rintro _ h₂ rfl
  apply Script.keeps_after (keeps_look hs rfl rfl)
  rintro _ h₃ rfl
  apply Script.keeps_after (keeps_demand hs fun hready => by rw [hs.2, hready.prepared]; rfl)
  rintro _ h₄ -
  apply Script.keeps_after (keeps_look hs rfl rfl)
  rintro _ h₅ rfl
  apply Script.keeps_after (keeps_demand hs fun hready => ?_)
  · rintro _ h₆ -
    rw [htargets]
    apply Script.keeps_after (keeps_targetPositions hs hknown fun _ hitem => hitem)
    rintro _ h₇ rfl
    apply Script.keeps_after (keeps_demand hs fun _ => ?_)
    · rintro _ h₈ -
      apply Script.keeps_after (keeps_look hs rfl rfl)
      rintro _ h₉ rfl
      apply Script.keeps_after (keeps_demand hs fun hready => ?_)
      · rintro _ h₁₀ -
        apply Script.keeps_bind (keeps_recheck hs hknown fun _ hitem => hitem)
        rintro _ h₁₁ _ - rfl
        exact Script.keeps_pure hs ⟨rfl, rfl⟩
      · rw [hs.2, hsame.2, hready.transaction]
        exact beq_self_eq_true _
    · rw [List.all_map, List.all_eq_true]
      exact fun item hitem => (hs.1.placed hknown hitem).2
  · rw [htargets, hsame.1, hsame.2, hs.2, hready.copiesSha256, hready.migration, hready.config, hready.database]
    simp

theorem keeps_positionsNow (hs : Kept r₀ old new a s) (hknown : Known r₀ old new) :
    Keeps c r₀ old new a (positionsNow c) (fun ps s' => s' = s ∧ ps = r₀.targets.map s.position) h s := by
  apply Script.keeps_after (keeps_inspect hs hknown)
  rintro _ h₁ rfl
  exact Script.keeps_pure hs ⟨rfl, rfl⟩

/-! ## What a call keeps -/

theorem Each.mono {allowed allowed' : Nat → Position → Prop} (heach : Each r₀ old new s allowed)
    (himp : ∀ j item position, r₀.targets[j]? = some item → allowed j position → allowed' j position) :
    Each r₀ old new s allowed' := by
  intro j item hj
  apply Cell.All.mono _ (heach j item hj)
  rintro p ⟨position, hp, hallowed⟩
  exact ⟨position, hp, himp j item position hj hallowed⟩

theorem Each.withLedger {allowed : Nat → Position → Prop} {ledger : Cell LedgerRecord} (heach : Each r₀ old new s allowed) :
    Each r₀ old new (s.withLedger ledger) allowed := heach

theorem Each.synced {allowed : Nat → Position → Prop} {directory : String} (heach : Each r₀ old new s allowed) :
    Each r₀ old new (s.synced directory) allowed := by
  intro j item hj
  have hall := heach j item hj
  simp only [Site.synced]
  split
  · exact Cell.all_sync hall
  · exact hall

/-- A target is moved to another position. -/
theorem Each.moved {allowed : Nat → Position → Prop} {k : Nat} {item : Target} {position : Position}
    (heach : Each r₀ old new s allowed) (hlive : (r₀.targets.map Target.live).Nodup) (hk : r₀.targets[k]? = some item)
    (hposition : allowed k position) :
    Each r₀ old new (s.withPlaces item.live ((s.places item.live).write (placed (old item) (new item) position))) allowed := by
  intro j item' hj
  simp only [Site.withPlaces]
  split
  · next hsame =>
    have hat : (r₀.targets.map Target.live)[j]? = (r₀.targets.map Target.live)[k]? := by
      rw [List.getElem?_map, List.getElem?_map, hj, hk, Option.map_some, Option.map_some, hsame]
    obtain rfl : j = k := by
      refine (List.getElem?_inj ?_ hlive).mp hat
      rw [List.length_map]
      exact (List.getElem?_eq_some_iff.mp hj).1
    obtain rfl := Option.some.inj (hj.symm.trans hk)
    exact Cell.all_write ⟨position, rfl, hposition⟩ (heach j _ hj)
  · exact heach j item' hj

theorem Good.synced {directory : String} (hs : Good r₀ old new s) : Good r₀ old new (s.synced directory) :=
  ⟨hs.upto.imp fun _ hk => hk.synced, hs.now, hs.phase, hs.allowed.synced, hs.stale⟩

theorem keeps_syncDirectory {directory : String} (hs : Kept r₀ old new a s) :
    Keeps c r₀ old new a (syncDirectory (.syncDirectory directory)) (fun _ s' => s' = s.synced directory) h s := by
  apply Script.keeps_after (keeps_settle hs)
  rintro _ h₁ -
  apply keeps_closing
  exact Script.keeps_effect hs hs (fun _ => thrown_call) rfl ⟨hs.1.synced, hs.2⟩ rfl

/-- The ledger gets another phase, which the positions allow. -/
theorem keeps_changePhase {phase : String} (hs : Kept r₀ old new a s)
    (hbefore : s.ledger.now.phase ∈ ["prepared", "replacing"]) (hphase : phase ∈ ["prepared", "replacing", "replaced"])
    (hallowed : Each r₀ old new s fun _ position => allows phase position = true) :
    Keeps c r₀ old new a (changePhase s.ledger.now phase)
      (fun r s' => r = r₀.withPhase phase ∧ s' = s.withLedger ⟨r₀.withPhase phase, []⟩) h s := by
  have hnext : s.ledger.now.withPhase phase = r₀.withPhase phase := by rw [hs.1.now]; rfl
  apply Script.keeps_after (keeps_readLedger hs)
  rintro _ h₁ rfl
  apply Script.keeps_after (keeps_demand hs fun _ => beq_self_eq_true _)
  rintro _ h₂ -
  simp only [hnext]
  apply Script.keeps_after (keeps_demand hs fun hready => withPhase_valid hready.valid hphase)
  rintro _ h₃ -
  apply Script.keeps_after (keeps_settle hs)
  rintro _ h₄ -
  have hsettled : Keeps c r₀ old new a (Script.andFinally (do
      call .settle
      call .settle) (call .settle)) (fun u s' => s' = s ∧ u = ()) h₄ s := by
    apply keeps_closing
    apply Script.keeps_after (keeps_settle hs)
    rintro _ h₅ -
    exact keeps_settle hs
  apply Script.keeps_after hsettled
  rintro _ h₆ -
  have hwritten : Kept r₀ old new a (s.withLedger (s.ledger.write (r₀.withPhase phase))) := by
    refine ⟨⟨hs.1.upto, rfl, hphase, hallowed, ?_⟩, hs.2⟩
    intro r hr
    rcases List.mem_cons.mp hr with rfl | hr
    · exact ⟨hs.1.now, hbefore⟩
    · exact hs.1.stale r hr
  apply Script.keeps_bind (R := fun _ s' => s' = s.withLedger (s.ledger.write (r₀.withPhase phase)))
  · exact Script.keeps_effect hs hs (fun _ => thrown_call) rfl hwritten rfl
  · rintro _ h₇ _ - rfl
    have hlasts : Kept r₀ old new a (s.withLedger ⟨r₀.withPhase phase, []⟩) :=
      ⟨⟨hs.1.upto, rfl, hphase, hallowed, nofun⟩, hs.2⟩
    apply Script.keeps_bind (R := fun _ s' => s' = s.withLedger ⟨r₀.withPhase phase, []⟩)
    · apply Script.keeps_after (keeps_settle hwritten)
      rintro _ h₈ -
      apply keeps_closing
      exact Script.keeps_effect hwritten hwritten (fun _ => thrown_call) rfl hlasts rfl
    · rintro _ h₈ _ - rfl
      exact Script.keeps_pure hlasts ⟨rfl, rfl⟩

/-- The ledger says that the targets are being replaced, so many are installed, and the positions are those seen. -/
structure Under (r₀ : LedgerRecord) (old new : Target → Inode) (k : Nat) (s : Site) (positions : List Position) : Prop where
  replacing : s.ledger.now = r₀.withPhase "replacing"
  upto : Each r₀ old new s (Upto k)
  seen : positions = r₀.targets.map s.position

variable {k : Nat} {item : Target} {positions : List Position}

theorem Under.at_eq (hunder : Under r₀ old new k s positions) {j : Nat} (hj : r₀.targets[j]? = some item) :
    positions[j]? = some (s.position item) := by
  rw [hunder.seen, List.getElem?_map, hj, Option.map_some]

theorem allows_replacing {position : Position} : allows "replacing" position = true := rfl

/-- The inspection after something was done. -/
theorem keeps_positionsUnder (hs : Kept r₀ old new a s) (hknown : Known r₀ old new)
    (hreplacing : s.ledger.now = r₀.withPhase "replacing") (hupto : Each r₀ old new s (Upto k)) :
    Keeps c r₀ old new a (positionsNow c) (fun ps s' => s' = s ∧ Under r₀ old new k s ps) h s := by
  apply Script.keeps_mono (keeps_positionsNow hs hknown)
  rintro ps s' - ⟨rfl, hps⟩
  exact ⟨rfl, hreplacing, hupto, hps⟩

/-- A target that is not installed is the next one. -/
theorem Under.turn (hunder : Under r₀ old new k s positions) (hknown : Known r₀ old new) {j : Nat}
    (hj : r₀.targets[j]? = some item) (hle : j ≤ k) (hnot : s.position item ≠ .installed) : j = k := by
  by_contra hne
  exact hnot ((hunder.upto.now hknown hj).2.1 (by omega))

/-- A position that is not pending lasts. -/
theorem keeps_settlePosition {j : Nat} (hs : Kept r₀ old new a s) (hknown : Known r₀ old new)
    (hunder : Under r₀ old new k s positions) (hj : r₀.targets[j]? = some item) :
    Keeps c r₀ old new a (settlePosition c item j positions) (fun ps s' => Under r₀ old new k s' ps ∧
      ((s'.places item.live).stale = [] ∨ s'.position item = .pending)) h s := by
  rw [settlePosition]
  split
  · apply Script.keeps_bind (keeps_syncDirectory hs)
    rintro _ h₁ _ hs₁ rfl
    apply Script.keeps_mono (keeps_positionsUnder hs₁ hknown hunder.replacing hunder.upto.synced)
    rintro ps _ - ⟨rfl, hunder'⟩
    refine ⟨hunder', .inl ?_⟩
    simp only [Site.synced, if_true]
    rfl
  · next hpending =>
    rw [hunder.at_eq hj, bne_iff_ne, ne_eq, not_not] at hpending
    exact Script.keeps_pure hs ⟨hunder, .inr (Option.some.inj hpending)⟩

/-- A target is renamed in its turn, its directory is synchronised, and the positions are seen again. -/
theorem keeps_renamed {source target : Name} {position position' : Position} {text : String}
    (hs : Kept r₀ old new a s) (hknown : Known r₀ old new) (hlive : (r₀.targets.map Target.live).Nodup)
    (hunder : Under r₀ old new k s positions) (hk : r₀.targets[k]? = some item) (hat : s.position item = position)
    (hmoves : ∀ old new, (placed old new position).rename source target = placed old new position')
    (hhere : ∀ old new, (placed old new position).get source ≠ none)
    (hfree : ∀ old new, (placed old new position).get target = none) :
    Keeps c r₀ old new a (do
      call (.rename item source target)
      syncDirectory (.syncDirectory (dirname item.live))
      let positions ← positionsNow c
      demand (positions[k]? == some position') text
      pure positions)
      (fun ps s' => Under r₀ old new k s' ps ∧ (s'.places item.live).stale = [] ∧ s'.position item = position') h s := by
  have hnow : (s.places item.live).now = placed (old item) (new item) position := by
    rw [← hat]
    exact (hunder.upto.now hknown hk).1
  have hmoved : Each r₀ old new
      (s.withPlaces item.live ((s.places item.live).write (placed (old item) (new item) position'))) (Upto k) :=
    hunder.upto.moved hlive hk ⟨fun hlt => absurd hlt (Nat.lt_irrefl k), fun hlt => absurd hlt (Nat.lt_irrefl k)⟩
  have hkept : Kept r₀ old new a
      (s.withPlaces item.live ((s.places item.live).write (placed (old item) (new item) position'))) := by
    refine ⟨⟨⟨k, hmoved⟩, hs.1.now, hs.1.phase, ?_, hs.1.stale⟩, hs.2⟩
    apply hmoved.mono
    intro j item' position'' _ _
    change allows s.ledger.now.phase position'' = true
    rw [hunder.replacing]
    exact allows_replacing
  have hentry : s.entry item source ≠ none := by
    rw [Site.entry, hnow]
    exact hhere _ _
  have hrenames : Renames r₀ old new item source target s := by
    refine ⟨hunder.replacing, ⟨k, hk, hunder.upto⟩, hentry, ?_⟩
    rw [Site.entry, hnow]
    exact hfree _ _
  have hexec : s.exec (.rename item source target) = .ok ((),
      s.withPlaces item.live ((s.places item.live).write (placed (old item) (new item) position'))) := by
    obtain ⟨info, hinfo⟩ := Option.ne_none_iff_exists'.mp hentry
    change (s.entry item source).elim _ _ = _
    rw [hinfo, Option.elim_some, hnow, hmoves]
  apply Script.keeps_bind (R := fun _ s' => s' =
    s.withPlaces item.live ((s.places item.live).write (placed (old item) (new item) position')))
  · exact Script.keeps_effect hs ⟨hs, hrenames⟩ (fun _ => thrown_call) hexec hkept rfl
  · rintro _ h₁ _ - rfl
    apply Script.keeps_bind (keeps_syncDirectory hkept)
    rintro _ h₂ _ hs₂ rfl
    apply Script.keeps_bind (keeps_positionsUnder hs₂ hknown hunder.replacing hmoved.synced)
    rintro ps h₃ _ hs₃ ⟨rfl, hunder'⟩
    apply Script.keeps_after (keeps_demand hs₃ fun _ => ?_)
    · intro _ h₄ hseen
      rw [hunder'.at_eq hk, beq_iff_eq] at hseen
      refine Script.keeps_pure hs₃ ⟨hunder', ?_, Option.some.inj hseen⟩
      simp only [Site.synced, if_true]
      rfl
    · rw [hunder'.at_eq hk, Site.position]
      simp [Site.synced, Site.withPlaces, Cell.sync, Cell.write,
        classify_placed (hknown item (List.mem_of_getElem? hk))]

theorem keeps_park {j : Nat} (hs : Kept r₀ old new a s) (hknown : Known r₀ old new)
    (hlive : (r₀.targets.map Target.live).Nodup) (hunder : Under r₀ old new k s positions)
    (hj : r₀.targets[j]? = some item) (hle : j ≤ k)
    (hlasts : (s.places item.live).stale = [] ∨ s.position item = .pending) :
    Keeps c r₀ old new a (park c item j positions) (fun ps s' => Under r₀ old new k s' ps ∧
      (s'.places item.live).stale = [] ∧ s'.position item ≠ .pending) h s := by
  rw [park]
  split
  · next hpending =>
    rw [hunder.at_eq hj, beq_iff_eq] at hpending
    have hat : s.position item = .pending := Option.some.inj hpending
    obtain rfl := hunder.turn hknown hj hle (by rw [hat]; decide)
    have hnow : (s.places item.live).now = placed (old item) (new item) .pending := by
      rw [← hat]
      exact (hunder.upto.now hknown hj).1
    have hpreserved : s.exec (.syncPreserved item) = .ok ((), s) := by
      simp [Site.exec, Site.entry, hnow, placed, Places.get]
    apply Script.keeps_after (keeps_look hs rfl hpreserved)
    rintro _ h₁ -
    apply Script.keeps_bind (keeps_positionsUnder hs hknown hunder.replacing hunder.upto)
    rintro ps h₂ _ - ⟨rfl, hunder'⟩
    apply Script.keeps_after (keeps_demand hs fun _ => by rw [hunder'.at_eq hj, hat]; rfl)
    rintro _ h₃ -
    apply Script.keeps_mono (keeps_renamed hs hknown hlive hunder' hj hat (fun _ _ => rfl) (fun _ _ => by exact Option.some_ne_none _)
      fun _ _ => rfl)
    rintro ps' s' - ⟨hunder', hlasts', hparked⟩
    exact ⟨hunder', hlasts', by rw [hparked]; decide⟩
  · next hpending =>
    rw [hunder.at_eq hj, beq_iff_eq] at hpending
    have hmoved : s.position item ≠ .pending := fun hat => hpending (congrArg some hat)
    exact Script.keeps_pure hs ⟨hunder, hlasts.resolve_right hmoved, hmoved⟩

theorem keeps_install {j : Nat} (hs : Kept r₀ old new a s) (hknown : Known r₀ old new)
    (hlive : (r₀.targets.map Target.live).Nodup) (hunder : Under r₀ old new k s positions)
    (hj : r₀.targets[j]? = some item) (hle : j ≤ k) (hlasts : (s.places item.live).stale = [])
    (hmoved : s.position item ≠ .pending) :
    Keeps c r₀ old new a (install c item j positions) (fun ps s' => Under r₀ old new k s' ps ∧
      (s'.places item.live).stale = [] ∧ s'.position item = .installed) h s := by
  rw [install]
  split
  · next hparked =>
    rw [hunder.at_eq hj, beq_iff_eq] at hparked
    have hat : s.position item = .parked := Option.some.inj hparked
    obtain rfl := hunder.turn hknown hj hle (by rw [hat]; decide)
    exact keeps_renamed hs hknown hlive hunder hj hat (fun _ _ => rfl) (fun _ _ => by exact Option.some_ne_none _) fun _ _ => rfl
  · next hparked =>
    rw [hunder.at_eq hj, beq_iff_eq] at hparked
    refine Script.keeps_pure hs ⟨hunder, hlasts, ?_⟩
    cases hat : s.position item with
    | pending => exact absurd hat hmoved
    | parked => exact absurd (congrArg some hat) hparked
    | installed => rfl

/-- A target that lasts where it is installed is done. -/
theorem Under.done (hunder : Under r₀ old new k s positions) (hknown : Known r₀ old new) (hk : r₀.targets[k]? = some item)
    (hlasts : (s.places item.live).stale = []) (hinstalled : s.position item = .installed) :
    Under r₀ old new (k + 1) s positions := by
  refine ⟨hunder.replacing, fun j item' hj => ?_, hunder.seen⟩
  rcases Nat.lt_trichotomy j k with hlt | rfl | hlt
  · apply Cell.All.mono _ (hunder.upto j item' hj)
    rintro p ⟨position, hp, hdone, -⟩
    exact ⟨position, hp, fun _ => hdone hlt, fun hmore => absurd hmore (by omega)⟩
  · obtain rfl := Option.some.inj (hk.symm.trans hj)
    refine Cell.all_settled hlasts ⟨.installed, ?_, fun _ => rfl, fun hmore => absurd hmore (by omega)⟩
    rw [← hinstalled]
    exact (hunder.upto.now hknown hk).1
  · apply Cell.All.mono _ (hunder.upto j item' hj)
    rintro p ⟨position, hp, -, hrest⟩
    exact ⟨position, hp, fun hmore => absurd hmore (by omega), fun _ => hrest hlt⟩

/-- **The targets are replaced one after the other**, by induction on those that are left. What an earlier call has done
is passed over. -/
theorem keeps_replaceTargets {j : Nat} {items : List Target} (hs : Kept r₀ old new a s) (hknown : Known r₀ old new)
    (hlive : (r₀.targets.map Target.live).Nodup) (hunder : Under r₀ old new k s positions) (hle : j ≤ k)
    (hitems : r₀.targets.drop j = items) :
    Keeps c r₀ old new a (replaceTargets c j items positions)
      (fun ps s' => Under r₀ old new r₀.targets.length s' ps) h s := by
  induction items generalizing j k s positions h with
  | nil =>
    apply Script.keeps_pure hs
    refine ⟨hunder.replacing, hunder.upto.mono fun i item position hi hposition => ?_, hunder.seen⟩
    have hlength := List.drop_eq_nil_iff.mp hitems
    have hi' := (List.getElem?_eq_some_iff.mp hi).1
    exact ⟨fun _ => hposition.1 (by omega), fun hmore => absurd hmore (by omega)⟩
  | cons item rest ih =>
    have hj : r₀.targets[j]? = some item := by rw [← List.head?_drop, hitems, List.head?_cons]
    have hrest : r₀.targets.drop (j + 1) = rest := by rw [← List.tail_drop, hitems, List.tail_cons]
    apply Script.keeps_bind (keeps_settlePosition hs hknown hunder hj)
    rintro ps₁ h₁ s₁ hs₁ ⟨hunder₁, hlasts₁⟩
    apply Script.keeps_bind (keeps_park hs₁ hknown hlive hunder₁ hj hle hlasts₁)
    rintro ps₂ h₂ s₂ hs₂ ⟨hunder₂, hlasts₂, hmoved₂⟩
    apply Script.keeps_bind (keeps_install hs₂ hknown hlive hunder₂ hj hle hlasts₂ hmoved₂)
    rintro ps₃ h₃ s₃ hs₃ ⟨hunder₃, hlasts₃, hinstalled⟩
    apply Script.keeps_after (keeps_demand hs₃ fun _ => by rw [hunder₃.at_eq hj, hinstalled]; rfl)
    rintro _ h₄ -
    rcases Nat.eq_or_lt_of_le hle with rfl | hlt
    · exact ih hs₃ (hunder₃.done hknown hj hlasts₃ hinstalled) (Nat.le_refl _) hrest
    · exact ih hs₃ hunder₃ hlt hrest

/-- Every target is installed at the end. -/
theorem Under.installed (hunder : Under r₀ old new r₀.targets.length s positions) :
    Each r₀ old new s fun _ position => position = .installed :=
  hunder.upto.mono fun _ _ _ hj hposition => hposition.1 (List.getElem?_eq_some_iff.mp hj).1

/-- The replacement is announced. -/
theorem keeps_announced (hs : Kept r₀ old new a s) (hknown : Known r₀ old new) (hphase : s.ledger.now.phase ≠ "replaced") :
    Keeps c r₀ old new a (announced c s.ledger.now (r₀.targets.map s.position))
      (fun x s' => x.1 = r₀.withPhase "replacing" ∧ ∃ k, Under r₀ old new k s' x.2) h s := by
  obtain ⟨k, hupto⟩ := hs.1.upto
  have hreplacing : ∀ {s : Site}, Each r₀ old new s (Upto k) → Each r₀ old new s fun _ position =>
      allows "replacing" position = true := fun heach => heach.mono fun _ _ _ _ _ => allows_replacing
  rw [announced]
  split
  · next hprepared =>
    apply Script.keeps_after (keeps_look hs rfl rfl)
    rintro _ h₁ rfl
    apply Script.keeps_after (keeps_look hs rfl rfl)
    rintro _ h₂ -
    have hbefore : s.ledger.now.phase ∈ ["prepared", "replacing"] := by
      rw [eq_of_beq hprepared]
      decide
    apply Script.keeps_bind (keeps_changePhase hs hbefore (by decide) (hreplacing hupto))
    rintro _ h₃ _ hs₃ ⟨rfl, rfl⟩
    apply Script.keeps_bind (keeps_positionsUnder hs₃ hknown rfl hupto.withLedger)
    rintro ps h₄ _ hs₄ ⟨rfl, hunder⟩
    exact Script.keeps_pure hs₄ ⟨rfl, k, hunder⟩
  · next hprepared =>
    have hnow : s.ledger.now = r₀.withPhase "replacing" := by
      have hphases := hs.1.phase
      rw [hs.1.now]
      simp_all
    exact Script.keeps_pure hs ⟨hnow, k, hnow, hupto, rfl⟩

/-- Every target is replaced, whatever a crash leaves, and the ledger says so. -/
def Replaced (r₀ : LedgerRecord) (old new : Target → Inode) (s : Site) : Prop :=
  s.ledger.now = r₀.withPhase "replaced" ∧ ∀ item ∈ r₀.targets, (s.places item.live).All fun p =>
    p = placed (old item) (new item) .installed

theorem replaced_of_allowed (hnow : s.ledger.now = r₀.withPhase "replaced")
    (hallowed : Each r₀ old new s fun _ position => allows "replaced" position = true) : Replaced r₀ old new s := by
  refine ⟨hnow, fun item hitem => ?_⟩
  obtain ⟨j, hj⟩ := List.mem_iff_getElem?.mp hitem
  apply Cell.All.mono _ (hallowed j item hj)
  rintro p ⟨position, hp, hposition⟩
  rw [hp]
  cases position with
  | installed => rfl
  | pending => exact absurd hposition (by decide)
  | parked => exact absurd hposition (by decide)

/-- **What a call keeps, and how it ends.** -/
theorem keeps_replaceLiveStateFromLedger (hs : Kept r₀ old new a s) (hknown : Known r₀ old new)
    (hlive : (r₀.targets.map Target.live).Nodup) :
    Keeps c r₀ old new a (replaceLiveStateFromLedger c) (fun x s' => Replaced r₀ old new s' ∧
      x = (r₀.withPhase "replaced", r₀.targets.map s'.position)) h s := by
  apply Script.keeps_after (keeps_demand hs fun hready => by
    rw [hready.rooted, hready.ledgerPath, hready.stateDatabase]
    rfl)
  rintro _ h₁ -
  apply Script.keeps_after (keeps_inspect hs hknown)
  rintro _ h₂ rfl
  split
  · next hreplaced =>
    have hnow : s.ledger.now = r₀.withPhase "replaced" := by
      rw [← eq_of_beq hreplaced]
      exact hs.1.now
    have hallowed := hs.1.allowed
    rw [hnow] at hallowed
    exact Script.keeps_pure hs ⟨replaced_of_allowed hnow hallowed, by rw [hnow]⟩
  · next hreplaced =>
    apply Script.keeps_bind (keeps_announced hs hknown fun hphase => hreplaced (beq_iff_eq.mpr hphase))
    rintro ⟨_, ps⟩ h₃ s₃ hs₃ ⟨rfl, k, hunder⟩
    apply Script.keeps_bind (keeps_replaceTargets hs₃ hknown hlive hunder (Nat.zero_le k) List.drop_zero)
    rintro ps₄ h₄ s₄ hs₄ hunder₄
    have hinstalled := hunder₄.installed
    apply Script.keeps_after (keeps_demand hs₄ fun _ => ?_)
    · rintro _ h₅ -
      have hallowed : Each r₀ old new s₄ fun _ position => allows "replaced" position = true := by
        apply hinstalled.mono
        rintro _ _ _ - rfl
        rfl
      have hbefore : s₄.ledger.now.phase ∈ ["prepared", "replacing"] := by
        rw [hunder₄.replacing]
        exact List.mem_cons_of_mem _ List.mem_cons_self
      rw [← hunder₄.replacing]
      apply Script.keeps_bind (keeps_changePhase hs₄ hbefore (by decide) hallowed)
      rintro _ h₆ _ hs₆ ⟨rfl, rfl⟩
      apply Script.keeps_mono (keeps_inspect hs₆ hknown)
      rintro x _ - ⟨rfl, rfl⟩
      exact ⟨replaced_of_allowed rfl hallowed.withLedger, rfl⟩
    · rw [hunder₄.seen, List.all_map, List.all_eq_true]
      intro item hitem
      obtain ⟨j, hj⟩ := List.mem_iff_getElem?.mp hitem
      exact beq_iff_eq.mpr (hinstalled.now hknown hj).2

/-! ## Calls and crashes -/

/-- A record that says prepared is not brought back once a target was moved. -/
def Lasting (r₀ : LedgerRecord) (old new : Target → Inode) (s : Site) : Prop :=
  ∀ r ∈ s.ledger.stale, r.phase = "prepared" → Each r₀ old new s fun _ position => position = .pending

/-- What is reached: at first all targets are pending under a ledger that is prepared. Then calls are made and cut
anywhere, and there are crashes. A call that has read that the targets are being replaced does not synchronise the ledger,
so a crash might bring back that it was prepared: that is left out. -/
inductive Reach (c : Inputs) (r₀ : LedgerRecord) (old new : Target → Inode) : Site → Prop
  | first {s : Site} (hledger : s.ledger = ⟨r₀, []⟩) (hphase : r₀.phase = "prepared")
    (hplaces : ∀ item ∈ r₀.targets, s.places item.live = ⟨placed (old item) (new item) .pending, []⟩) :
    Reach c r₀ old new s
  | call {s s' : Site} {tr : List (Entry LedgerOp Errno)} (hs : Reach c r₀ old new s)
    (hvisits : Visits site Fault (replaceLiveStateFromLedger c).run s tr s') : Reach c r₀ old new s'
  | crash {s : Site} {ledger : Cell LedgerRecord} {places : String → Cell Places} (hs : Reach c r₀ old new s)
    (hlasting : Lasting r₀ old new s) (hledger : Cell.Crashed s.ledger ledger)
    (hplaces : ∀ live, Cell.Crashed (s.places live) (places live)) :
    Reach c r₀ old new { s with ledger := ledger, places := places }

theorem owes_invariant {op : LedgerOp β} {s : Site} (howes : owes r₀ old new a op s) : Kept r₀ old new a s := by
  cases op with
  | rename => exact howes.1
  | _ => exact howes

theorem good_first (hledger : s.ledger = ⟨r₀, []⟩) (hphase : r₀.phase = "prepared")
    (hplaces : ∀ item ∈ r₀.targets, s.places item.live = ⟨placed (old item) (new item) .pending, []⟩) :
    Good r₀ old new s := by
  have hpending : Each r₀ old new s fun _ position => position = .pending := by
    intro j item hj
    rw [hplaces item (List.mem_of_getElem? hj)]
    exact Cell.all_settled rfl ⟨.pending, rfl, rfl⟩
  refine ⟨⟨0, hpending.mono ?_⟩, ?_, ?_, hpending.mono ?_, ?_⟩
  · exact fun j _ position _ hposition => ⟨fun hlt => absurd hlt (Nat.not_lt_zero j), fun _ => hposition⟩
  · rw [hledger]
    rfl
  · rw [hledger, hphase]
    exact List.mem_cons_self
  · rintro _ _ _ - rfl
    rw [hledger, hphase]
    rfl
  · rw [hledger]
    exact nofun

theorem Each.crashed {allowed : Nat → Position → Prop} {ledger : Cell LedgerRecord} {places : String → Cell Places}
    (heach : Each r₀ old new s allowed) (hplaces : ∀ live, Cell.Crashed (s.places live) (places live)) :
    Each r₀ old new { s with ledger := ledger, places := places } allowed :=
  fun j item hj => (hplaces item.live).all (heach j item hj)

/-- What a crash brings back of the ledger agrees with the positions. -/
theorem Good.allows_stale (hs : Good r₀ old new s) (hlasting : Lasting r₀ old new s) {r : LedgerRecord}
    (hr : r ∈ s.ledger.stale) : Each r₀ old new s fun _ position => allows r.phase position = true := by
  by_cases hphase : r.phase = "prepared"
  · apply (hlasting r hr hphase).mono
    rintro _ _ _ - rfl
    rw [hphase]
    rfl
  · have hreplacing : r.phase = "replacing" := by
      have hphases := (hs.stale r hr).2
      simp_all
    rw [hreplacing]
    exact hs.allowed.mono fun _ _ _ _ _ => allows_replacing

theorem good_crash {ledger : Cell LedgerRecord} {places : String → Cell Places} (hs : Good r₀ old new s)
    (hlasting : Lasting r₀ old new s) (hledger : Cell.Crashed s.ledger ledger)
    (hplaces : ∀ live, Cell.Crashed (s.places live) (places live)) :
    Good r₀ old new { s with ledger := ledger, places := places } := by
  obtain ⟨k, hupto⟩ := hs.upto
  refine ⟨⟨k, hupto.crashed hplaces⟩, ?_, ?_, ?_, ?_⟩
  · rcases hledger.1 with hnow | hstale
    · simp only [hnow]
      exact hs.now
    · exact (hs.stale _ hstale).1
  · rcases hledger.1 with hnow | hstale
    · simp only [hnow]
      exact hs.phase
    · exact List.mem_append_left ["replaced"] (hs.stale _ hstale).2
  · rcases hledger.1 with hnow | hstale
    · simp only [hnow]
      exact hs.allowed.crashed hplaces
    · exact (hs.allows_stale hlasting hstale).crashed hplaces
  · simp only [hledger.2]
    exact nofun

/-- **How far the replacement is** whatever calls are cut, and whatever crashes there are. -/
theorem Reach.good (hs : Reach c r₀ old new s) (hknown : Known r₀ old new) (hlive : (r₀.targets.map Target.live).Nodup) :
    Good r₀ old new s := by
  induction hs with
  | first hledger hphase hplaces => exact good_first hledger hphase hplaces
  | call hs hvisits ih =>
    exact (Script.Keeps.invariant (keeps_replaceLiveStateFromLedger (h := []) ⟨ih, rfl⟩ hknown hlive)
      (fun _ _ => owes_invariant) hvisits).1
  | crash hs hlasting hledger hplaces ih => exact good_crash ih hlasting hledger hplaces

/-- The live names are all different. -/
theorem nodup_live (hvalid : r₀.valid = true) : (r₀.targets.map Target.live).Nodup := by
  rw [LedgerRecord.valid, Bool.and_eq_true] at hvalid
  have hnames : (r₀.targets.flatMap Target.names).Nodup := of_decide_eq_true hvalid.2
  rw [List.nodup_flatMap] at hnames
  rw [List.Nodup, List.pairwise_map]
  apply hnames.2.imp
  intro item item' hdisjoint hsame
  exact hdisjoint List.mem_cons_self (hsame ▸ List.mem_cons_self)

end Replacement

/-! ## A replacement that is begun -/

def sampleHex (n : Nat) : String := String.ofList (List.replicate n '0')

/-- A target with the inode 1 as its old state, and the inode 2 as its new one. -/
def sampleTarget (name : String) (kind : Kind) : Target where
  name := name
  kind := kind
  live := "/d/" ++ name
  copy := "/d/" ++ name ++ ".restore"
  parked := "/d/" ++ name ++ ".parked"
  oldDev := 1
  oldIno := 1
  newDev := 1
  newIno := 2
  newUid := 0
  newGid := 0
  newMode := 0o600
  newDigest := sampleHex 64

def sampleRecord : LedgerRecord where
  format := FORMAT
  phase := "prepared"
  migrationTransactionId := sampleHex 36
  copyRecordPath := "/r"
  copyRecordSha256 := sampleHex 64
  targets := [sampleTarget "config" .config, sampleTarget "state" .database]

def sampleInode (ino : Int) (item : Target) : Inode :=
  ⟨item.kind == .config, item.kind == .database, 1, 1, ino, 0, 0, 0o600, item.newDigest⟩

def sampleSite : Site where
  around := ⟨true, true, ⟨"prepared", sampleHex 36⟩, sampleHex 64, sampleHex 36, fun _ => false⟩
  ledger := ⟨sampleRecord, []⟩
  places live :=
    ⟨placed (sampleInode 1 (sampleTarget "config" (if live = "/d/config" then .config else .database)))
      (sampleInode 2 (sampleTarget "config" (if live = "/d/config" then .config else .database))) .pending, []⟩

example : (sampleTarget "config" .config).classify (sampleSite.places "/d/config").now = some .pending := by
  decide +kernel

def sampleInputs : Inputs := ⟨true, "/l", "/d/state"⟩

theorem sample_known : Known sampleRecord (sampleInode 1) (sampleInode 2) := by
  intro item hitem
  simp only [sampleRecord, List.mem_cons, List.not_mem_nil, or_false] at hitem
  rcases hitem with rfl | rfl <;> exact ⟨rfl, rfl, rfl, rfl, rfl, rfl⟩

theorem sample_reach : Reach sampleInputs sampleRecord (sampleInode 1) (sampleInode 2) sampleSite := by
  refine .first rfl rfl fun item hitem => ?_
  simp only [sampleRecord, List.mem_cons, List.not_mem_nil, or_false] at hitem
  rcases hitem with rfl | rfl <;> rfl

theorem sample_ready : Ready sampleInputs sampleRecord sampleSite.around where
  rooted := rfl
  ledgerPath := by decide +kernel
  stateDatabase := by decide +kernel
  valid := by decide +kernel
  ledgerTrusted := rfl
  parentsTrusted := rfl
  prepared := rfl
  copiesSha256 := rfl
  migration := rfl
  transaction := rfl
  config := by decide +kernel
  database := by decide +kernel
  sidecar _ _ _ _ := rfl
  directory := by decide +kernel

/-- What a call is refused is missing. -/
theorem refused {op : LedgerOp β} {s : Site} {e : Errno} (hexec : s.exec op = .error e) : e = .ENOENT := by
  cases op with
  | lstat item name | realpath item name | digest item name | rename item name =>
    cases hentry : s.entry item name <;> simp_all [Site.exec]
  | syncPreserved item => cases hentry : s.entry item .live <;> simp_all [Site.exec]
  | lstatSidecar filename => cases hsidecar : s.around.sidecar filename <;> simp_all [Site.exec]
  | _ => cases hexec

end BegetBridge.LiveReplacement
