import BegetBridge.Auth.AuthStore
import BegetBridge.Auth.Evolution
import BegetBridge.Interleaving.Noting

/-!
# The bootstrap of the owner

Several processes create the owner, reset the access of the owner and consume the bootstrap, their statements in any
order. What they commit is logged, and the log says which bootstrap is pending.

## Main definitions

* `OwnerCommit`, `replay`: what is committed on the owner, and the bootstrap that a log leaves
* `OneShot`: logs in which a bootstrap is consumed once
* `ownerCalls`: the calls, in a pool
* `unraced`: no reset comes between the two statements of a call that consumes
* `Hit`: a call consumed the bootstrap whose secret it presented

## Main results

* `OneShot.reset_between`: between two commits that consume there is one that resets
* `bootstrap_one_shot`: what holds in every run whose steps are `unraced`
* `bootstrap_consumed_after_reset`: a run in which a reset comes between
-/

namespace BegetBridge.Auth

open Relational Interleaving Core

/-- What is committed on the owner. -/
inductive OwnerCommit
  | created (digest : String) (expiresAt : Instant)
  | consumed (at_ : Instant)
  | reset (digest : String) (expiresAt : Instant)
  deriving DecidableEq

/-- A bootstrap: the digest of its secret, when it expires, and whether it was consumed. -/
structure Bootstrap where
  digest : String
  expiresAt : Instant
  spent : Bool
  deriving DecidableEq

def OwnerCommit.apply : OwnerCommit → Option Bootstrap → Option Bootstrap
  | .created digest expiresAt, _ => some ⟨digest, expiresAt, false⟩
  | .consumed _, b => b.map fun b => { b with spent := true }
  | .reset digest expiresAt, _ => some ⟨digest, expiresAt, false⟩

/-- The bootstrap that a log leaves. -/
def replay (log : List OwnerCommit) : Option Bootstrap := log.foldl (fun b c => c.apply b) none

def OwnerCommit.isReset : OwnerCommit → Bool
  | .reset _ _ => true
  | _ => false

/-- An owner is created once, and only a pending bootstrap is consumed. -/
def OwnerCommit.Licit : OwnerCommit → Option Bootstrap → Prop
  | .created _ _, b => b = none
  | .consumed _, b => ∃ x, b = some x ∧ x.spent = false
  | .reset _ _, b => b.isSome

/-- Logs in which every commit is licit. -/
inductive OneShot : List OwnerCommit → Prop
  | nil : OneShot []
  | snoc {log : List OwnerCommit} {c : OwnerCommit} (h : OneShot log) (hc : c.Licit (replay log)) :
      OneShot (log ++ [c])

section Logs

variable {log l : List OwnerCommit} {c : OwnerCommit}

@[simp] theorem replay_snoc : replay (log ++ [c]) = c.apply (replay log) := by simp [replay]

/-- A commit of a log is licit where it stands. -/
theorem OneShot.at (h : OneShot log) {k : Nat} (hk : log[k]? = some c) :
    OneShot (log.take k) ∧ c.Licit (replay (log.take k)) := by
  induction h with
  | nil => simp at hk
  | @snoc log d h hd ih =>
    rcases getElem?_snoc_eq_some.mp hk with hk | ⟨rfl, rfl⟩
    · have hlt : k ≤ log.length := (List.getElem?_eq_some_iff.mp hk).1.le
      rw [List.take_append_of_le_length hlt]
      exact ih hk
    · simpa using ⟨h, hd⟩

/-- Without a reset the bootstrap stays, and stays consumed. -/
theorem OneShot.replay_append (h : OneShot (log ++ l)) {b : Bootstrap} (hb : replay log = some b)
    (hl : ∀ c ∈ l, c.isReset = false) :
    ∃ b', replay (log ++ l) = some b' ∧ b'.digest = b.digest ∧ b'.expiresAt = b.expiresAt ∧
      (b.spent = true → b'.spent = true) := by
  induction l using List.reverseRecOn with
  | nil => exact ⟨b, by simpa using hb, rfl, rfl, id⟩
  | append_singleton l c ih =>
    rw [← List.append_assoc] at h ⊢
    have hc : (log ++ l ++ [c])[(log ++ l).length]? = some c := by simp
    obtain ⟨hbefore, hlicit⟩ := h.at hc
    rw [List.take_left] at hbefore hlicit
    obtain ⟨b', hb', hdigest, hexpires, hspent⟩ := ih hbefore fun c hc => hl c (List.mem_append_left _ hc)
    have hreset := hl c (List.mem_append_right _ (List.mem_singleton.mpr rfl))
    rw [replay_snoc, hb']
    rw [hb'] at hlicit
    cases c with
    | created => simp [OwnerCommit.Licit] at hlicit
    | consumed t => exact ⟨_, rfl, hdigest, hexpires, fun _ => rfl⟩
    | reset => simp [OwnerCommit.isReset] at hreset

/-- **Between two commits that consume there is one that resets.** -/
theorem OneShot.reset_between (h : OneShot log) {i j : Nat} {s t : Instant} (hij : i < j)
    (hi : log[i]? = some (.consumed s)) (hj : log[j]? = some (.consumed t)) :
    ∃ k digest expiresAt, i < k ∧ k < j ∧ log[k]? = some (.reset digest expiresAt) := by
  by_contra hnone
  obtain ⟨-, b, hb, -⟩ := h.at hi
  obtain ⟨hbefore, b₂, hb₂, hpending⟩ := h.at hj
  -- the log before the second one: up to the first one, and without a reset from there
  have htake : (log.take j).take (i + 1) = log.take (i + 1) := by rw [List.take_take, min_eq_left hij]
  have hsplit : log.take j = log.take (i + 1) ++ (log.take j).drop (i + 1) := by
    rw [← htake, List.take_append_drop]
  have hfirst : replay (log.take (i + 1)) = some { b with spent := true } := by
    rw [List.take_add_one, hi, Option.toList_some, replay_snoc, hb]
    rfl
  rw [hsplit] at hbefore
  obtain ⟨b', hb', -, -, hspent⟩ := hbefore.replay_append hfirst fun c hc => by
    obtain ⟨m, hm⟩ := List.mem_iff_getElem?.mp hc
    rw [List.getElem?_drop, List.getElem?_take] at hm
    split at hm
    · cases c with
      | reset digest expiresAt => exact absurd ⟨_, _, _, by omega, ‹_›, hm⟩ hnone
      | created => rfl
      | consumed => rfl
    · cases hm
  rw [← hsplit, hb₂] at hb'
  obtain rfl := Option.some.inj hb'
  rw [hspent rfl] at hpending
  cases hpending

end Logs

/-! ## The database and its log -/

/-- The database, with what was committed on the owner. -/
structure LoggedDb where
  db : AuthDb
  log : List OwnerCommit

/-- What a statement commits on the owner. -/
def Sql.commits {β : Type} : Sql β → β → List OwnerCommit
  | .insertOwner row, _ => [.created row.bootstrapDigest row.bootstrapExpiresAt]
  | .consumeOwner _ at_, changes => if changes = 1 then [.consumed at_] else []
  | .resetOwner _ digest _ expiresAt, _ => [.reset digest expiresAt]
  | _, _ => []

def Sql.execLogged {β : Type} (op : Sql β) (s : LoggedDb) : Except SqlError (β × LoggedDb) :=
  (op.exec s.db).map fun r => (r.1, ⟨r.2, s.log ++ op.commits r.1⟩)

def OwnerRow.bootstrap (row : OwnerRow) : Bootstrap :=
  ⟨row.bootstrapDigest, row.bootstrapExpiresAt, row.bootstrapConsumedAt.isSome⟩

/-- The table of owners holds what the log leaves. -/
structure LoggedDb.Sound (s : LoggedDb) : Prop where
  rows : s.db.owners.rows.map OwnerRow.bootstrap = (replay s.log).toList
  oneShot : OneShot s.log

/-! ## The calls -/

/-- An operation on the bootstrap, with its arguments. -/
inductive OwnerCall
  | create (ownerId secret : String) (createdAt expiresAt : Option Instant)
  | consume (secret : String) (now : Option Instant)
  | reset (ownerId secret : String) (resetAt expiresAt : Option Instant)
  deriving DecidableEq

def OwnerCall.program (S : AuthStore) : OwnerCall → AuthM (Option Owner)
  | .create ownerId secret createdAt expiresAt => S.createOwnerBootstrap ownerId secret createdAt expiresAt
  | .consume secret now => S.consumeOwnerBootstrap secret now
  | .reset ownerId secret resetAt expiresAt => S.resetOwnerAccess ownerId secret resetAt expiresAt

/-- What a call did: the row that it read, how long the log was then, and the place of its own commit. -/
structure OwnerNotes where
  row : Option OwnerRow
  readAt : Nat
  consumedAt : Option Nat
  deriving DecidableEq

def OwnerNotes.note {β : Type} : Sql β → β → LoggedDb → OwnerNotes → OwnerNotes
  | .selectPendingOwner, row, s, n => { n with row := row, readAt := s.log.length }
  | .consumeOwner _ _, changes, s, n => if changes = 1 then { n with consumedAt := some (s.log.length - 1) } else n
  | _, _, _, n => n

/-- Calls of any number of processes, beside statements that leave the owner alone. -/
def ownerCalls (S : AuthStore) :
    Calls Sql SqlError LoggedDb OwnerCall OwnerNotes Unit (Except Failure (Option Owner)) where
  exec := Sql.execLogged
  Fault := StorageFault
  ready _ _ := True
  program call := (call.program S).run
  notes _ := ⟨none, 0, none⟩
  note := OwnerNotes.note
  elsewhere _ s s' := s'.db.owners = s.db.owners ∧ s'.log = s.log

/-- Where the update of a call finds a pending bootstrap, no reset was committed since the call read its row. -/
def unraced : Condition Sql LoggedDb OwnerCall OwnerNotes Unit where
  operation _ n {_} op s :=
    match op with
    | .consumeOwner id _ =>
      s.db.owners.changes (fun o => o.id == id && o.bootstrapConsumedAt.isNone && o.status == .active) = 1 →
        ∀ c ∈ s.log.drop n.readAt, c.isReset = false
    | _ => True
  beside _ _ _ _ := True
  elsewhere _ _ := True
  aside _ _ _ _ := True

/-- The commit at a place of the log is the call's, which presented the secret of the bootstrap in time. -/
def Hit (S : AuthStore) (log : List OwnerCommit) (call : OwnerCall) (k : Nat) : Prop :=
  ∃ secret now b, call = .consume secret (some now) ∧ log[k]? = some (.consumed now) ∧
    replay (log.take k) = some b ∧ b.digest = hashSecret S.platform secret ∧ now < b.expiresAt

section Statements

variable {S : AuthStore} {s s' : LoggedDb}

theorem LoggedDb.Sound.rows_length_le (h : s.Sound) : s.db.owners.rows.length ≤ 1 := by
  have hlength := congrArg List.length h.rows
  rw [List.length_map] at hlength
  rw [hlength]
  cases replay s.log with
  | none => exact Nat.zero_le _
  | some b => exact le_rfl

/-- Every row of the table has the bootstrap that the log leaves. -/
theorem LoggedDb.Sound.replay_eq (h : s.Sound) {row : OwnerRow} (hrow : row ∈ s.db.owners.rows) :
    replay s.log = some row.bootstrap := by
  have hmem : row.bootstrap ∈ (replay s.log).toList := h.rows ▸ List.mem_map_of_mem hrow
  simpa [eq_comm] using hmem

theorem execLogged_eq_ok {β : Type} {op : Sql β} {b : β} (h : op.execLogged s = .ok (b, s')) :
    op.exec s.db = .ok (b, s'.db) ∧ s'.log = s.log ++ op.commits b := by
  rw [Sql.execLogged] at h
  rcases hexec : op.exec s.db with e | ⟨b', db⟩
  · rw [hexec] at h
    cases h
  · rw [hexec] at h
    obtain ⟨rfl, rfl⟩ := Prod.mk.inj (Except.ok.inj h)
    exact ⟨rfl, rfl⟩

/-- An owner is created where there is none. -/
theorem sound_insertOwner {row : OwnerRow} {u : Unit} (hs : s.Sound) (hrow : row.bootstrapConsumedAt = none)
    (h : (Sql.insertOwner row).execLogged s = .ok (u, s')) : s'.Sound := by
  obtain ⟨hexec, hlog⟩ := execLogged_eq_ok h
  obtain ⟨owners, howners, hdb⟩ := insertOwner_eq_ok hexec
  obtain ⟨hrows, hclash⟩ := Table.insert_eq_some howners
  have hempty : s.db.owners.rows = [] := by
    rw [List.eq_nil_iff_forall_not_mem]
    intro x hx
    -- any two rows of this table clash
    exact Bool.noConfusion (hclash x hx)
  have hnone : replay s.log = none := by
    have hrows := hs.rows
    rw [hempty, List.map_nil] at hrows
    cases hreplay : replay s.log with
    | none => rfl
    | some b => simp [hreplay] at hrows
  have hrows' : s'.db.owners.rows = [row] := by rw [hdb, hrows, hempty, List.nil_append]
  refine ⟨?_, ?_⟩
  · rw [hrows', hlog]
    simp [Sql.commits, OwnerCommit.apply, OwnerRow.bootstrap, hrow]
  · rw [hlog]
    exact hs.oneShot.snoc hnone

/-- The one row of the table, where an update finds one. -/
theorem LoggedDb.Sound.rows_of_changes (h : s.Sound) {sel : OwnerRow → Bool} (hsel : s.db.owners.changes sel = 1) :
    ∃ row, s.db.owners.rows = [row] ∧ sel row = true := by
  have hle := h.rows_length_le
  rw [Table.changes] at hsel
  rcases hrows : s.db.owners.rows with _ | ⟨row, _ | ⟨row', rows⟩⟩
  · simp [hrows] at hsel
  · refine ⟨row, rfl, ?_⟩
    by_contra hno
    simp [hrows, hno] at hsel
  · simp [hrows] at hle

/-- An update of the one row. -/
theorem rewrite_rows {t : Table OwnerRow} {sel : OwnerRow → Bool} {f : OwnerRow → OwnerRow} {hf : KeepsKeys f}
    {row : OwnerRow} (hrows : t.rows = [row]) (hsel : sel row = true) : (t.rewrite sel hf).rows = [f row] := by
  show t.rows.map _ = _
  rw [hrows, List.map_singleton, if_pos hsel]

/-- An update that reaches no row. -/
theorem rewrite_rows_of_ne (h : s.Sound) {sel : OwnerRow → Bool} {f : OwnerRow → OwnerRow} {hf : KeepsKeys f}
    (hsel : s.db.owners.changes sel ≠ 1) : (s.db.owners.rewrite sel hf).rows = s.db.owners.rows := by
  have hle := h.rows_length_le
  rw [Table.changes] at hsel
  show s.db.owners.rows.map _ = _
  rcases hrows : s.db.owners.rows with _ | ⟨row, _ | ⟨row', rows⟩⟩
  · rfl
  · cases hrow : sel row with
    | false => simp [hrow]
    | true =>
      rw [hrows, List.filter_cons_of_pos hrow] at hsel
      exact absurd rfl hsel
  · simp [hrows] at hle

/-- A bootstrap is consumed where it is pending. -/
theorem sound_consumeOwner {id : String} {at_ : Instant} {changes : Nat} (hs : s.Sound)
    (h : (Sql.consumeOwner id at_).execLogged s = .ok (changes, s')) : s'.Sound := by
  obtain ⟨hexec, hlog⟩ := execLogged_eq_ok h
  obtain ⟨rfl, hdb⟩ := Prod.mk.inj (Except.ok.inj hexec)
  by_cases hone : s.db.owners.changes (fun o => o.id == id && o.bootstrapConsumedAt.isNone && o.status == .active) = 1
  · obtain ⟨row, hrows, hsel⟩ := hs.rows_of_changes hone
    have hreplay : replay s.log = some row.bootstrap := hs.replay_eq (by simp [hrows])
    have hpending : row.bootstrapConsumedAt = none := by
      simp only [Bool.and_eq_true, Option.isNone_iff_eq_none] at hsel
      exact hsel.1.2
    have hlog' : s'.log = s.log ++ [.consumed at_] := by rw [hlog, Sql.commits, if_pos hone]
    refine ⟨?_, ?_⟩
    · rw [hlog', replay_snoc, hreplay, ← hdb, rewrite_rows hrows hsel]
      rfl
    · rw [hlog']
      exact hs.oneShot.snoc ⟨_, hreplay, by simp [OwnerRow.bootstrap, hpending]⟩
  · -- no row is reached
    have hlog' : s'.log = s.log := by rw [hlog, Sql.commits, if_neg hone, List.append_nil]
    refine ⟨?_, ?_⟩
    · rw [hlog', ← hdb, rewrite_rows_of_ne hs hone]
      exact hs.rows
    · rw [hlog']
      exact hs.oneShot

/-- A reset makes the bootstrap of the one owner pending. -/
theorem sound_resetOwner {ownerId digest : String} {resetAt expiresAt : Instant} {u : Unit} (hs : s.Sound)
    (h : (Sql.resetOwner ownerId digest resetAt expiresAt).execLogged s = .ok (u, s')) : s'.Sound := by
  obtain ⟨hexec, hlog⟩ := execLogged_eq_ok h
  have hone : s.db.owners.changes (fun o => o.id == ownerId) = 1 := by
    by_contra hno
    simp only [Sql.exec, AuthDb.resetOwner, if_neg hno] at hexec
    cases hexec
  obtain ⟨row, hrows, hsel⟩ := hs.rows_of_changes hone
  have hreplay : replay s.log = some row.bootstrap := hs.replay_eq (by simp [hrows])
  refine ⟨?_, ?_⟩
  · rw [hlog, resetOwner_eq_ok hexec, rewrite_rows hrows hsel, Sql.commits, replay_snoc]
    rfl
  · rw [hlog]
    exact hs.oneShot.snoc (by simp [OwnerCommit.Licit, hreplay])

end Statements

/-! ## One call -/

/-- What a call has learnt: the row that it read, and whether its update reached a row. -/
structure Learnt where
  row : Option OwnerRow
  hit : Bool

def learn {β : Type} : Sql β → Except SqlError β → Learnt → Learnt
  | .selectPendingOwner, .ok row, n => { n with row := row }
  | .consumeOwner _ _, .ok changes, n => if changes = 1 then { n with hit := true } else n
  | _, _, n => n

/-- The row was accepted: it has the secret that the call presented, in time. -/
def AcceptedRow (S : AuthStore) (call : OwnerCall) (row : OwnerRow) (at_ : Instant) : Prop :=
  ∃ secret, call = .consume secret (some at_) ∧ row.bootstrapDigest = hashSecret S.platform secret ∧
    at_ < row.bootstrapExpiresAt

/-- What a call may do, by what it has learnt. -/
def mayCommit (S : AuthStore) (call : OwnerCall) {β : Type} : Sql β → Learnt → Prop
  | .insertOwner row, _ => row.bootstrapConsumedAt = none
  | .selectPendingOwner, n => n.hit = false
  | .selectOwner _, _ => True
  | .consumeOwner _ at_, n => n.hit = false ∧ ∃ row, n.row = some row ∧ AcceptedRow S call row at_
  | .resetOwner _ _ _ _, _ => True
  | _, _ => False

/-- How a call ends: one that consumes succeeds where its update reached a row. -/
def Succeeds (call : OwnerCall) (r : Except Failure (Option Owner)) (n : Learnt) : Prop :=
  ∀ owner secret now, r = .ok owner → call = .consume secret now → n.hit = true

section Programs

variable {S : AuthStore} {call : OwnerCall} {α : Type} {n : Learnt}

theorem permit_ensure {c : Prop} [Decidable c] {e : AuthStoreError} {Q : Except Failure Unit → Learnt → Prop}
    (hok : c → Q (.ok ()) n) (herror : Q (.error (.auth e)) n) :
    Script.Along (mayCommit S call) learn (ensure c e) Q n := by
  unfold ensure
  split
  · exact Script.along_pure (hok ‹_›)
  · exact Script.along_throw herror

theorem permit_checked {x : Except AuthStoreError α} {Q : Except Failure α → Learnt → Prop}
    (hok : ∀ a, x = .ok a → Q (.ok a) n) (herror : ∀ e, Q (.error e) n) :
    Script.Along (mayCommit S call) learn (checked x) Q n := by
  cases x with
  | ok a => exact Script.along_pure (hok a rfl)
  | error e => exact Script.along_throw (herror _)

theorem permit_query {op : Sql α} {Q : Except Failure α → Learnt → Prop} (hop : mayCommit S call op n)
    (hok : ∀ a, Q (.ok a) (learn op (.ok a) n)) (herror : ∀ e, Q (.error (.sql e)) (learn op (.error e) n)) :
    Script.Along (mayCommit S call) learn (query op) Q n := by
  refine ⟨hop, ?_⟩
  rintro (e | a)
  · exact herror e
  · exact hok a

theorem permit_attempt {op : Sql α} {Q : Except Failure (Except SqlError α) → Learnt → Prop}
    (hop : mayCommit S call op n) (h : ∀ r, Q (.ok r) (learn op r n)) :
    Script.Along (mayCommit S call) learn (attempt op) Q n := ⟨hop, h⟩

theorem permit_transaction {op : Sql α} {message : String} {Q : Except Failure α → Learnt → Prop}
    (hop : mayCommit S call op n) (hok : ∀ a, Q (.ok a) (learn op (.ok a) n))
    (herror : ∀ e e', Q (.error e) (learn op (.error e') n)) :
    Script.Along (mayCommit S call) learn (transaction op message) Q n := by
  refine ⟨hop, ?_⟩
  rintro (e | a)
  · exact herror _ e
  · exact hok a

theorem permit_getOwner {ownerId : String} {Q : Except Failure (Option Owner) → Learnt → Prop}
    (hok : ∀ owner, Q (.ok owner) n) (herror : ∀ e, Q (.error e) n) :
    Script.Along (mayCommit S call) learn (AuthStore.getOwner ownerId) Q n :=
  Script.along_bind (permit_query trivial (fun _ => Script.along_pure (hok _)) fun _ => herror _)

theorem succeeds_error (e : Failure) : Succeeds call (.error e) n := fun _ _ _ h => nomatch h

theorem succeeds_create {ownerId secret : String} {createdAt expiresAt : Option Instant}
    {r : Except Failure (Option Owner)} : Succeeds (.create ownerId secret createdAt expiresAt) r n :=
  fun _ _ _ _ h => nomatch h

theorem succeeds_reset {ownerId secret : String} {resetAt expiresAt : Option Instant}
    {r : Except Failure (Option Owner)} : Succeeds (.reset ownerId secret resetAt expiresAt) r n :=
  fun _ _ _ _ h => nomatch h

theorem permit_create {ownerId secret : String} {createdAt expiresAt : Option Instant} :
    Script.Along (mayCommit S (.create ownerId secret createdAt expiresAt)) learn
      (S.createOwnerBootstrap ownerId secret createdAt expiresAt)
      (Succeeds (.create ownerId secret createdAt expiresAt)) n := by
  refine Script.along_bind (permit_ensure (fun _ => ?_) (succeeds_error _))
  refine Script.along_bind (permit_ensure (fun _ => ?_) (succeeds_error _))
  refine Script.along_bind (permit_checked (fun created _ => ?_) succeeds_error)
  refine Script.along_bind (permit_checked (fun expires _ => ?_) succeeds_error)
  refine Script.along_bind (permit_ensure (fun _ => ?_) (succeeds_error _))
  refine Script.along_bind (permit_attempt rfl ?_)
  rintro (e | u)
  · cases e with
    | unique => exact Script.along_throw (succeeds_error _)
    | foreignKey => exact Script.along_throw (succeeds_error _)
    | storage => exact Script.along_throw (succeeds_error _)
  · exact permit_getOwner (fun _ => succeeds_create) succeeds_error

theorem permit_consume {secret : String} {now : Option Instant} (hn : n.hit = false) :
    Script.Along (mayCommit S (.consume secret now)) learn (S.consumeOwnerBootstrap secret now)
      (Succeeds (.consume secret now)) n := by
  refine Script.along_bind (permit_checked (fun current hnow => ?_) succeeds_error)
  obtain rfl := isoTime_eq_ok.mp hnow
  refine Script.along_bind (permit_query hn ?_ fun _ => succeeds_error _)
  rintro (_ | row)
  · exact Script.along_throw (succeeds_error _)
  · refine Script.along_bind (permit_ensure (fun htime => ?_) (succeeds_error _))
    refine Script.along_bind (permit_ensure (fun hsecret => ?_) (succeeds_error _))
    refine Script.along_bind (permit_query ⟨hn, row, rfl, secret, rfl, hsecret.symm, htime⟩ (fun changes => ?_) fun _ => succeeds_error _)
    refine Script.along_bind (permit_ensure (fun hone => ?_) (succeeds_error _))
    -- the update reached the row
    have hhit : ∀ m : Learnt, (learn (.consumeOwner row.id current) (.ok changes) m).hit = true := by
      intro m
      simp [learn, hone]
    exact permit_getOwner (fun _ _ _ _ _ _ => hhit _) succeeds_error

theorem permit_reset {ownerId secret : String} {resetAt expiresAt : Option Instant} :
    Script.Along (mayCommit S (.reset ownerId secret resetAt expiresAt)) learn
      (S.resetOwnerAccess ownerId secret resetAt expiresAt)
      (Succeeds (.reset ownerId secret resetAt expiresAt)) n := by
  refine Script.along_bind (permit_ensure (fun _ => ?_) (succeeds_error _))
  refine Script.along_bind (permit_checked (fun reset _ => ?_) succeeds_error)
  refine Script.along_bind (permit_checked (fun expires _ => ?_) succeeds_error)
  refine Script.along_bind (permit_ensure (fun _ => ?_) (succeeds_error _))
  refine Script.along_bind (permit_getOwner (fun owner => ?_) succeeds_error)
  refine Script.along_bind (permit_ensure (fun _ => ?_) (succeeds_error _))
  refine Script.along_bind (permit_transaction trivial (fun _ => ?_) fun e _ => succeeds_error e)
  exact permit_getOwner (fun _ => succeeds_reset) succeeds_error

/-- **A call may do what it does**, whatever is answered. -/
theorem permit_program : Script.Along (mayCommit S call) learn (call.program S) (Succeeds call) ⟨none, false⟩ := by
  cases call with
  | create ownerId secret createdAt expiresAt => exact permit_create
  | consume secret now => exact permit_consume rfl
  | reset ownerId secret resetAt expiresAt => exact permit_reset

end Programs

/-! ## The calls together -/

/-- The row of a call had the bootstrap that the log left when the call read it. -/
def OwnerNotes.ReadFrom (n : OwnerNotes) (log : List OwnerCommit) : Prop :=
  n.readAt ≤ log.length ∧ ∀ row, n.row = some row →
    ∃ b, replay (log.take n.readAt) = some b ∧ b.digest = row.bootstrapDigest ∧ b.expiresAt = row.bootstrapExpiresAt

section Growth

variable {S : AuthStore} {log l : List OwnerCommit} {n : OwnerNotes} {call : OwnerCall} {k : Nat}

theorem OwnerNotes.ReadFrom.append (h : n.ReadFrom log) : n.ReadFrom (log ++ l) := by
  obtain ⟨hle, hrow⟩ := h
  refine ⟨by rw [List.length_append]; omega, ?_⟩
  rw [List.take_append_of_le_length hle]
  exact hrow

theorem Hit.lt (h : Hit S log call k) : k < log.length := by
  obtain ⟨_, _, _, -, hk, -⟩ := h
  exact (List.getElem?_eq_some_iff.mp hk).1

theorem Hit.append (h : Hit S log call k) : Hit S (log ++ l) call k := by
  have hlt := h.lt
  obtain ⟨secret, now, b, rfl, hk, hb, hrest⟩ := h
  refine ⟨secret, now, b, rfl, getElem?_append_some hk, ?_, hrest⟩
  rw [List.take_append_of_le_length hlt.le]
  exact hb

/-- A call that was not raced consumes the bootstrap whose row it accepted. -/
theorem hit_of_accepted {row : OwnerRow} {at_ : Instant} (hlog : OneShot (log ++ [.consumed at_]))
    (hread : n.ReadFrom log) (hrow : n.row = some row) (haccepted : AcceptedRow S call row at_)
    (hcalm : ∀ c ∈ log.drop n.readAt, c.isReset = false) : Hit S (log ++ [.consumed at_]) call log.length := by
  obtain ⟨secret, rfl, hdigest, htime⟩ := haccepted
  obtain ⟨b, hb, hbdigest, hbexpires⟩ := hread.2 row hrow
  have hbefore : OneShot log := by
    have hat := (hlog.at (List.getElem?_concat_length ..)).1
    rwa [List.take_left] at hat
  have hsplit := List.take_append_drop n.readAt log
  obtain ⟨b', hb', hdigest', hexpires', -⟩ := OneShot.replay_append (hsplit.symm ▸ hbefore) hb hcalm
  rw [hsplit] at hb'
  refine ⟨secret, at_, b', rfl, List.getElem?_concat_length .., ?_, ?_, ?_⟩
  · rwa [List.take_left]
  · rw [hdigest', hbdigest, hdigest]
  · rw [hexpires', hbexpires]
    exact htime

end Growth

/-- The calls in flight, and those that returned. -/
abbrev OwnerPool := Pool Sql SqlError LoggedDb OwnerCall OwnerNotes (Except Failure (Option Owner))

abbrev OwnerEvent := Event OwnerCall OwnerNotes Unit (Except Failure (Option Owner))

/-- The call in flight with an index, or the one that returned at a place of the history, made a commit. -/
abbrev Commits (h : List (OwnerEvent × OwnerPool)) (p : OwnerPool) : Nat ⊕ Nat → Nat → Prop :=
  Bears OwnerNotes.consumedAt h p

/-- The database holds what its log says, and what the calls have noted is true. -/
structure OwnerSound (S : AuthStore) (h : List (OwnerEvent × OwnerPool)) (p : OwnerPool) : Prop where
  store : p.store.Sound
  read : ∀ i c, p.calls i = some c → c.notes.ReadFrom p.store.log
  hit : ∀ i c k, p.calls i = some c → c.notes.consumedAt = some k → Hit S p.store.log c.kind k
  returned : ∀ i call n r q k, (.returns i call n r, q) ∈ h → n.consumedAt = some k → Hit S p.store.log call k

section Run

variable {S : AuthStore} {db : AuthDb} {p p' : OwnerPool} {l : OwnerEvent} {h : List (OwnerEvent × OwnerPool)}

/-- A call in flight may do what it still does. -/
theorem run_due (hpath : Path (Pool.Step (ownerCalls S)) (Pool.still ⟨db, []⟩) h p) :
    ∀ i c, p.calls i = some c → Due (fun call {_} => mayCommit S call) (fun _ {_} => learn) Succeeds
      (fun _ known n => known.row = n.row ∧ known.hit = n.consumedAt.isSome) c := by
  refine Pool.call_due (C := ownerCalls S) (fun call {_} => mayCommit S call) (fun _ {_} => learn) Succeeds
    (fun _ known n => known.row = n.row ∧ known.hit = n.consumedAt.isSome) (fun _ => ⟨none, false⟩)
    (fun _ => permit_program) (fun _ => ⟨rfl, rfl⟩) (fun _ known n {γ} op r s s' hknown _ _ => ?_)
    (fun _ _ hcall => absurd hcall (by simp [Pool.still])) hpath
  rcases r with e | b
  · have hlearn : learn op (.error e) known = known := by cases op <;> rfl
    exact hlearn.symm ▸ hknown
  · cases op with
    | selectPendingOwner => exact ⟨rfl, hknown.2⟩
    | consumeOwner id at_ =>
      by_cases hone : b = 1
      · simpa [learn, ownerCalls, Calls.noted, OwnerNotes.note, hone] using hknown.1
      · simpa [learn, ownerCalls, Calls.noted, OwnerNotes.note, hone] using hknown
    | _ => exact hknown

end Run

/-- What a statement of a call does to the database and to the notes of the call. -/
structure Noting (S : AuthStore) (log : List OwnerCommit) (call : OwnerCall) (n : OwnerNotes) (s : LoggedDb)
    (n' : OwnerNotes) : Prop where
  store : s.Sound
  grown : ∃ l, s.log = log ++ l
  read : n'.ReadFrom s.log
  hit : ∀ k, n'.consumedAt = some k → n.consumedAt = some k ∨ k = log.length ∧ Hit S s.log call k

theorem exec_noting {S : AuthStore} {s s' : LoggedDb} {call : OwnerCall} {n : OwnerNotes} {known : Learnt} {β : Type}
    {op : Sql β} {b : β} (hs : s.Sound) (hread : n.ReadFrom s.log) (hknown : known.row = n.row)
    (hop : mayCommit S call op known) (hcalm : unraced.operation call n op s) (h : op.execLogged s = .ok (b, s')) :
    Noting S s.log call n s' (OwnerNotes.note op b s' n) := by
  obtain ⟨hexec, hlog⟩ := execLogged_eq_ok h
  have hgrown : n.ReadFrom s'.log := hlog ▸ hread.append
  cases op with
  | insertOwner row => exact ⟨sound_insertOwner hs hop h, ⟨_, hlog⟩, hgrown, fun _ => .inl⟩
  | resetOwner ownerId digest resetAt expiresAt =>
    exact ⟨sound_resetOwner hs h, ⟨_, hlog⟩, hgrown, fun _ => .inl⟩
  | selectOwner id =>
    obtain ⟨-, hdb⟩ := Prod.mk.inj (Except.ok.inj hexec)
    replace hlog : s'.log = s.log := hlog.trans (List.append_nil _)
    exact ⟨⟨by rw [← hdb, hlog]; exact hs.rows, hlog ▸ hs.oneShot⟩, ⟨[], by simp [hlog]⟩, hgrown, fun _ => .inl⟩
  | selectPendingOwner =>
    obtain ⟨hrow, hdb⟩ := Prod.mk.inj (Except.ok.inj hexec)
    replace hlog : s'.log = s.log := hlog.trans (List.append_nil _)
    refine ⟨⟨by rw [← hdb, hlog]; exact hs.rows, hlog ▸ hs.oneShot⟩, ⟨[], by simp [hlog]⟩, ⟨le_rfl, ?_⟩, fun _ => .inl⟩
    -- the row that was read is the one of the table
    rintro row rfl
    refine ⟨row.bootstrap, ?_, rfl, rfl⟩
    show replay (s'.log.take s'.log.length) = _
    rw [List.take_length, hlog]
    exact hs.replay_eq (Table.mem_of_select hrow).1
  | consumeOwner id at_ =>
    obtain ⟨-, row, hrow, haccepted⟩ := hop
    obtain ⟨hchanges, -⟩ := Prod.mk.inj (Except.ok.inj hexec)
    have hstore := sound_consumeOwner hs h
    by_cases hone : b = 1
    · rw [Sql.commits, if_pos hone] at hlog
      have hnote : OwnerNotes.note (.consumeOwner id at_) b s' n = { n with consumedAt := some s.log.length } := by
        simp [OwnerNotes.note, hone, hlog]
      rw [hnote]
      refine ⟨hstore, ⟨_, hlog⟩, hgrown, fun k hk => .inr ?_⟩
      obtain rfl := Option.some.inj hk
      refine ⟨rfl, ?_⟩
      rw [hlog]
      exact hit_of_accepted (hlog ▸ hstore.oneShot) hread (hknown ▸ hrow) haccepted (hcalm (hchanges.trans hone))
    · have hnote : OwnerNotes.note (.consumeOwner id at_) b s' n = n := by simp [OwnerNotes.note, hone]
      rw [hnote]
      exact ⟨hstore, ⟨_, hlog⟩, hgrown, fun _ => .inl⟩
  | _ => exact hop.elim

section Run

variable {S : AuthStore} {db : AuthDb} {p p' : OwnerPool} {l : OwnerEvent} {h : List (OwnerEvent × OwnerPool)}

theorem OwnerSound.commits_lt (hp : OwnerSound S h p) {x : Nat ⊕ Nat} {k : Nat} (hx : Commits h p x k) :
    k < p.store.log.length := by
  cases x with
  | inl i =>
    obtain ⟨c, hc, hk⟩ := hx
    exact (hp.hit i c k hc hk).lt
  | inr j =>
    obtain ⟨i, call, n, r, q, hj, hk⟩ := hx
    exact (hp.returned i call n r q k (List.mem_of_getElem? hj) hk).lt

theorem ownerSound_begins {i : Nat} {call : OwnerCall} (hp : OwnerSound S h p) {q : OwnerPool} :
    OwnerSound S (h ++ [(.begins i call, q)])
      (p.put i (some ⟨call, (ownerCalls S).notes call, (ownerCalls S).program call⟩)) where
  store := hp.store
  read j d hd := by
    rcases Pool.put_cases hd with ⟨-, heq⟩ | ⟨-, hd⟩
    · obtain rfl := Option.some.inj heq
      exact ⟨Nat.zero_le _, nofun⟩
    · exact hp.read j d hd
  hit j d k hd hk := by
    rcases Pool.put_cases hd with ⟨-, heq⟩ | ⟨-, hd⟩
    · obtain rfl := Option.some.inj heq
      cases hk
    · exact hp.hit j d k hd hk
  returned j call' n r q' k hr hk := by
    rcases List.mem_append.mp hr with hr | hr
    · exact hp.returned j call' n r q' k hr hk
    · cases List.mem_singleton.mp hr

/-- A statement of a call: its notes say what it did. -/
theorem ownerSound_operates {i : Nat} {call : OwnerCall} {n n' : OwnerNotes} {s : LoggedDb}
    {rest rest' : Prog Sql SqlError (Except Failure (Option Owner))} (hp : OwnerSound S h p)
    (hi : p.calls i = some ⟨call, n, rest⟩) (hnoting : Noting S p.store.log call n s n') {q : OwnerPool} :
    OwnerSound S (h ++ [(.operates i, q)]) { p.put i (some ⟨call, n', rest'⟩) with store := s } := by
  obtain ⟨hstore, ⟨l, hlog⟩, hread, hhit⟩ := hnoting
  have hgrown : ∀ {call k}, Hit S p.store.log call k → Hit S s.log call k := fun hk => hlog ▸ hk.append
  constructor
  · exact hstore
  · intro j d hd
    rcases Pool.put_cases (q := p) hd with ⟨-, heq⟩ | ⟨-, hd⟩
    · obtain rfl := Option.some.inj heq
      exact hread
    · exact hlog ▸ (hp.read j d hd).append
  · intro j d k hd hk
    rcases Pool.put_cases (q := p) hd with ⟨-, heq⟩ | ⟨-, hd⟩
    · obtain rfl := Option.some.inj heq
      rcases hhit k hk with hk | ⟨-, hk⟩
      · exact hgrown (hp.hit i ⟨call, n, rest⟩ k hi hk)
      · exact hk
    · exact hgrown (hp.hit j d k hd hk)
  · intro j call' m r q' k hr hk
    rcases List.mem_append.mp hr with hr | hr
    · exact hgrown (hp.returned j call' m r q' k hr hk)
    · cases List.mem_singleton.mp hr

theorem ownerSound_returns {i : Nat} {call : OwnerCall} {n : OwnerNotes} {r : Except Failure (Option Owner)}
    (hp : OwnerSound S h p) (hi : p.calls i = some ⟨call, n, .done r⟩) {q : OwnerPool} :
    OwnerSound S (h ++ [(.returns i call n r, q)]) (p.put i none) := by
  constructor
  · exact hp.store
  · intro j d hd
    rcases Pool.put_cases hd with ⟨-, heq⟩ | ⟨-, hd⟩
    · cases heq
    · exact hp.read j d hd
  · intro j d k hd hk
    rcases Pool.put_cases hd with ⟨-, heq⟩ | ⟨-, hd⟩
    · cases heq
    · exact hp.hit j d k hd hk
  · intro j call' m r' q' k hr hk
    rcases List.mem_append.mp hr with hr | hr
    · exact hp.returned j call' m r' q' k hr hk
    · obtain ⟨heq, -⟩ := Prod.mk.inj (List.mem_singleton.mp hr)
      obtain ⟨rfl, rfl, rfl, rfl⟩ := Event.returns.inj heq
      exact hp.hit _ _ k hi hk

/-- **A step that is not raced** keeps the log true, and what the calls have noted. -/
theorem ownerSound_step (hp : OwnerSound S h p)
    (hdue : ∀ i c, p.calls i = some c → Due (fun call {_} => mayCommit S call) (fun _ {_} => learn) Succeeds
      (fun _ known n => known.row = n.row ∧ known.hit = n.consumedAt.isSome) c)
    (hs : Pool.Steps (ownerCalls S) unraced p l p') : OwnerSound S (h ++ [(l, p')]) p' := by
  obtain ⟨hok, hs⟩ := hs
  cases hs with
  | begins hi => exact ownerSound_begins hp
  | returns hi => exact ownerSound_returns hp hi
  | @operates i call n β op k r s hi hready hans =>
    -- a statement that fails leaves everything
    have hidle : Noting S p.store.log call n p.store n :=
      ⟨hp.store, ⟨[], (List.append_nil _).symm⟩, hp.read i _ hi, fun _ => .inl⟩
    cases hans with
    | effect hexec =>
      obtain ⟨known, ⟨hop, -⟩, hknown, -⟩ := hdue i _ hi
      exact ownerSound_operates hp hi
        (exec_noting hp.store (hp.read i _ hi) hknown hop (hok _ _ _ _ _ hi).1 hexec)
    | refusal hexec => exact ownerSound_operates hp hi hidle
    | fault hf => exact ownerSound_operates hp hi hidle
  | elsewhere he =>
    obtain ⟨howners, hlog⟩ := he
    constructor
    · exact ⟨by rw [howners, hlog]; exact hp.store.rows, hlog ▸ hp.store.oneShot⟩
    · exact hlog ▸ hp.read
    · exact hlog ▸ hp.hit
    · intro j call n r q k hr hk
      rcases List.mem_append.mp hr with hr | hr
      · exact hlog ▸ hp.returned j call n r q k hr hk
      · cases List.mem_singleton.mp hr

theorem run_ownerSound (hdb : db.owners = .empty)
    (hpath : Path (Pool.Steps (ownerCalls S) unraced) (Pool.still ⟨db, []⟩) h p) : OwnerSound S h p := by
  refine hpath.history (I := fun h p => OwnerSound S h p) ?_ fun hpath hp hs =>
    ownerSound_step hp (run_due (Pool.step_of_steps hpath)) hs
  have hstill : ∀ i c, (Pool.still ⟨db, []⟩ : OwnerPool).calls i ≠ some c := fun i c => by simp [Pool.still]
  refine ⟨⟨?_, .nil⟩, fun _ _ hc => absurd hc (hstill _ _), fun _ _ _ hc => absurd hc (hstill _ _), ?_⟩
  · show db.owners.rows.map _ = []
    rw [hdb]
    rfl
  · intro i call n r q k hr
    cases hr

/-- **No two calls make one commit**: one that is made now is the last of the log. -/
theorem run_apart (hdb : db.owners = .empty)
    (hpath : Path (Pool.Steps (ownerCalls S) unraced) (Pool.still ⟨db, []⟩) h p) :
    Apart OwnerNotes.consumedAt h p := by
  refine hpath.history (I := fun h p => Apart OwnerNotes.consumedAt h p) apart_still fun {h p l p'} hpath hp hs => ?_
  refine Pool.apart_step hp hs.2 (fun _ => rfl) fun {i call n β op k r s t} hl hi hans ht => ?_
  have hsound := run_ownerSound hdb hpath
  cases hans with
  | refusal he => exact .inl ht
  | fault hf => exact .inl ht
  | effect hexec =>
    obtain ⟨known, ⟨hop, -⟩, hknown, -⟩ := run_due (Pool.step_of_steps hpath) i _ hi
    have hcalm := ((hl ▸ hs.1 : p.Meets unraced (.operates i : OwnerEvent)) _ _ _ _ _ hi).1
    have hnoting := exec_noting hsound.store (hsound.read i _ hi) hknown hop hcalm hexec
    rcases hnoting.hit t ht with ht | ⟨rfl, -⟩
    · exact .inl ht
    · exact .inr fun x hx => absurd (hsound.commits_lt hx) (lt_irrefl _)

/-- **The bootstrap is consumed once**, in every run in which no reset comes between the two statements of a call that
consumes: there is one owner at most; between two updates that consume there is a reset; an update consumes the
bootstrap whose secret its call presented, in time; a call that succeeds has made such an update, and no other call
has made it. -/
theorem bootstrap_one_shot (hdb : db.owners = .empty)
    (hpath : Path (Pool.Steps (ownerCalls S) unraced) (Pool.still ⟨db, []⟩) h p) :
    p.store.db.owners.rows.length ≤ 1 ∧
    (∀ (i j : Nat) (s t : Instant), i < j → p.store.log[i]? = some (.consumed s) → p.store.log[j]? = some (.consumed t) →
      ∃ (k : Nat) (digest : String) (expiresAt : Instant),
        i < k ∧ k < j ∧ p.store.log[k]? = some (.reset digest expiresAt)) ∧
    (∀ i c k, p.calls i = some c → c.notes.consumedAt = some k → Hit S p.store.log c.kind k) ∧
    (∀ i call n r q k, (.returns i call n r, q) ∈ h → n.consumedAt = some k → Hit S p.store.log call k) ∧
    (∀ i secret now n owner q, (.returns i (.consume secret now) n (.ok owner), q) ∈ h → n.consumedAt.isSome) ∧
    ∀ x y k, Commits h p x k → Commits h p y k → x = y := by
  have hp := run_ownerSound hdb hpath
  refine ⟨hp.store.rows_length_le, fun i j s t => hp.store.oneShot.reset_between, hp.hit, hp.returned, ?_,
    run_apart hdb hpath⟩
  intro i secret now n owner q hr
  obtain ⟨j, hj⟩ := List.mem_iff_getElem?.mp hr
  obtain ⟨q₁, hbefore, ⟨-, hs⟩, -⟩ := hpath.step_at hj
  have hdue := run_due (Pool.step_of_steps hbefore) i
  cases hs with
  | returns hi =>
    obtain ⟨known, hends, -, hhit⟩ := hdue _ hi
    have hsucceeds : known.hit = true := hends owner secret now rfl rfl
    exact hhit.symm.trans hsucceeds

end Run

/-! ## Calls that are computed -/

instance {S : AuthStore} : Decides (ownerCalls S) unraced where
  ready _ _ := isTrue trivial
  operation _ n _ op s :=
    match op with
    | .consumeOwner id _ => inferInstanceAs (Decidable (s.db.owners.changes (fun o =>
        o.id == id && o.bootstrapConsumedAt.isNone && o.status == .active) = 1 →
          ∀ c ∈ s.log.drop n.readAt, c.isReset = false))
    | .insertOwner _ | .selectPendingOwner | .selectOwner _ | .insertClient _ | .selectClient _ _
    | .reactivateClient _ _ _ _ | .selectActiveClients _ _ | .insertGrant _ | .selectGrant _ | .expireGrant _
    | .insertFamily _ | .selectFamily _ _ | .expireFamily _ _ _ | .rotate _ | .selectTokenFamily _
    | .revokeFamily _ _ _ _ | .revokeGrant _ _ _ _ | .revokeOwner _ _ _ | .resetOwner _ _ _ _ | .countActive _ _ =>
      isTrue trivial
  beside _ _ _ _ := trivial

instance {S : AuthStore} : Decides (ownerCalls S) (Condition.any : Condition Sql LoggedDb OwnerCall OwnerNotes Unit) where
  ready _ _ := isTrue trivial
  operation _ _ _ _ _ := isTrue trivial
  beside _ _ _ _ := trivial

def bootstrapStore : AuthStore := { platform := samplePlatform }

/-- The owner is created with one secret, which a call presents. -/
def sampleCreate : OwnerCall := .create "owner" (sampleToken 's') (some 0) (some 100)

def sampleConsume : OwnerCall := .consume (sampleToken 's') (some 10)

/-- The access of the owner is reset, with another secret. -/
def sampleReset : OwnerCall := .reset "owner" (sampleToken 't') (some 5) (some 200)

/-- What a run has committed, and the commit of the last call that returned with an owner. -/
def committing (r : List (OwnerEvent × OwnerPool) × OwnerPool) : Option (List OwnerCommit × OwnerCall × Option Nat) :=
  match r.1.getLast? with
  | some (.returns _ call n (.ok _), _) => some (r.2.store.log, call, n.consumedAt)
  | _ => none

theorem committing_eq_some {h : List (OwnerEvent × OwnerPool)} {p : OwnerPool} {log : List OwnerCommit} {call : OwnerCall}
    {k : Option Nat} (hr : committing (h, p) = some (log, call, k)) :
    p.store.log = log ∧ ∃ i n owner q, (.returns i call n (.ok owner), q) ∈ h ∧ n.consumedAt = k := by
  rw [committing] at hr
  split at hr
  · rename_i i call' n owner q hlast
    simp only [Option.some.injEq, Prod.mk.injEq] at hr
    obtain ⟨rfl, rfl, rfl⟩ := hr
    exact ⟨rfl, i, n, owner, q, List.mem_of_getLast? hlast, rfl⟩
  · cases hr

/-- The digest of a secret of the samples. -/
def sampleDigest (c : Char) : String := hashSecret samplePlatform (sampleToken c)

/-- Without a reset, the call that presents the secret consumes the bootstrap. -/
theorem bootstrap_one_shot_sample : ∃ h p, Path (Pool.Steps (ownerCalls bootstrapStore) unraced) (Pool.still ⟨.empty, []⟩) h p ∧
    ∃ i n owner q, (.returns i sampleConsume n (.ok owner), q) ∈ h ∧ Hit bootstrapStore p.store.log sampleConsume 1 := by
  have hplay : ((Pool.play (ownerCalls bootstrapStore) unraced
      ([.start 0 sampleCreate] ++ List.replicate 3 (.go 0) ++ [.start 1 sampleConsume] ++ List.replicate 4 (.go 1))
      (Pool.still ⟨.empty, []⟩)).bind committing) =
      some ([.created (sampleDigest 's') 100, .consumed 10], sampleConsume, some 1) := by decide +kernel
  obtain ⟨⟨h, p⟩, hr, hcommitting⟩ := Option.bind_eq_some_iff.mp hplay
  obtain ⟨-, i, n, owner, q, hreturns, hconsumed⟩ := committing_eq_some hcommitting
  have hpath := Pool.play_path hr
  exact ⟨h, p, hpath, i, n, owner, q, hreturns,
    (bootstrap_one_shot rfl hpath).2.2.2.1 i sampleConsume n (.ok owner) q 1 hreturns hconsumed⟩

/-- A reset comes after a call has read the row and before its update: the call succeeds, and consumes the bootstrap
whose secret it did not present. -/
theorem bootstrap_consumed_after_reset : ∃ h p, Path (Pool.Step (ownerCalls bootstrapStore)) (Pool.still ⟨.empty, []⟩) h p ∧
    (∃ i n owner q, (.returns i sampleConsume n (.ok owner), q) ∈ h ∧ n.consumedAt = some 2) ∧
    ¬Hit bootstrapStore p.store.log sampleConsume 2 := by
  have hplay : ((Pool.play (ownerCalls bootstrapStore) .any
      ([.start 0 sampleCreate] ++ List.replicate 3 (.go 0) ++ [.start 1 sampleConsume, .go 1, .start 2 sampleReset] ++
        List.replicate 4 (.go 2) ++ List.replicate 3 (.go 1)) (Pool.still ⟨.empty, []⟩)).bind committing) =
      some ([.created (sampleDigest 's') 100, .reset (sampleDigest 't') 200, .consumed 10], sampleConsume, some 2) := by
    decide +kernel
  obtain ⟨⟨h, p⟩, hr, hcommitting⟩ := Option.bind_eq_some_iff.mp hplay
  obtain ⟨hlog, hreturned⟩ := committing_eq_some hcommitting
  refine ⟨h, p, Pool.step_of_steps (Pool.play_path hr), hreturned, ?_⟩
  rintro ⟨secret, now, b, hcall, -, hb, hdigest, -⟩
  -- the bootstrap before the update is that of the reset
  obtain ⟨rfl, -⟩ := OwnerCall.consume.inj hcall
  rw [hlog] at hb
  obtain rfl := Option.some.inj hb
  exact absurd hdigest (by decide +kernel)

end BegetBridge.Auth
