import BegetBridge.Interleaving.Ending
import BegetBridge.Relational.KeyedMap
import BegetBridge.Telemetry.Schema

/-!
# The aggregates of the telemetry

The events of a day are counted in one file. An event reads the file, counts, and replaces it; the events of a store
are taken one after another, by one chain of promises.

## Main definitions

* `Value`, `Counts`, `increment`: objects that count, with what every object inherits
* `Aggregate`, `counted`: the counts of a day, and an event that is counted
* `Folder`, `recordNow`: the files, and one event
* `Failures`, `records`: the chain, and which operations fail
* `Survives`: what is lost by a failure is its own event

## Main results

* `recordNow_planned`: one event, with its failures
* `queue_survives_iff`: when the chain survives
-/

namespace BegetBridge.Telemetry

open Core Interleaving Relational

/-! ## Objects that count -/

/-- What a counter is: a number, or what an addition to a text has made. -/
inductive Value
  | number (n : Nat)
  | text (s : String)
  deriving DecidableEq

/-- The own properties of an object. Their order is not that of the host, and nothing depends on it. -/
abbrev Counts := KeyedMap String Value

/-- The functions that every object inherits, but for the constructor. -/
def METHODS : List String :=
  ["__defineGetter__", "__defineSetter__", "hasOwnProperty", "__lookupGetter__", "__lookupSetter__", "isPrototypeOf",
    "propertyIsEnumerable", "toString", "valueOf", "toLocaleString"]

/-- The text of what every object inherits under a name. -/
def inherited (key : String) : Option String :=
  if key = "constructor" then some "function Object() { [native code] }"
  else if key = "__proto__" then some "[object Object]"
  else if key ∈ METHODS then some ("function " ++ key ++ "() { [native code] }")
  else none

/-- From here on, one more is not another number. -/
def LIMIT : Nat := 2 ^ 53

/-- `(object[key] || 0) + 1`, by the own property. -/
def plusOne (key : String) : Option Value → Value
  | some (.number n) => .number (if n < LIMIT then n + 1 else n)
  | some (.text s) => if s = "" then .number 1 else .text (s ++ "1")
  | none => (inherited key).elim (.number 1) fun s => .text (s ++ "1")

/-- `object[key] = value`, for a value that is no object: the prototype is not set to it. -/
def assign (object : Counts) (key : String) (value : Value) : Counts :=
  if key = "__proto__" ∧ object.lookup key = none then object else object.insert key value

/-- `increment(object, key)` -/
def increment (object : Counts) (key : String) : Counts := assign object key (plusOne key (object.lookup key))

/-- The members of the text of an object. -/
def members (object : Counts) : List (String × Value) := object.entries.map fun e => (e.1, e.2)

/-- The object of these members. They are defined, and not assigned. -/
def defined (l : List (String × Value)) : Counts := l.foldl (fun object m => object.insert m.1 m.2) ∅

/-! ## Aggregates -/

structure Aggregate where
  schemaVersion : Nat
  day : String
  events : Counts
  uniqueInstallations : List String
  durationBuckets : Counts
  transferBuckets : Counts
  versions : Counts

/-- The text of an aggregate, by its members. -/
structure Document where
  schemaVersion : Nat
  day : String
  events : List (String × Value)
  uniqueInstallations : List String
  durationBuckets : List (String × Value)
  transferBuckets : List (String × Value)
  versions : List (String × Value)
  deriving DecidableEq

/-- `JSON.stringify(aggregate, null, 2)` -/
def Aggregate.stringify (a : Aggregate) : Document :=
  ⟨a.schemaVersion, a.day, members a.events, a.uniqueInstallations, members a.durationBuckets,
    members a.transferBuckets, members a.versions⟩

/-- `JSON.parse(text)` -/
def Document.parse (d : Document) : Aggregate :=
  ⟨d.schemaVersion, d.day, defined d.events, d.uniqueInstallations, defined d.durationBuckets,
    defined d.transferBuckets, defined d.versions⟩

/-- The aggregate of a day without events. -/
def newAggregate (day : String) : Aggregate := ⟨1, day, ∅, [], ∅, ∅, ∅⟩

/-- Why an event is not recorded: its identifier is no text, or a call fails. -/
inductive StoreError
  | typeError
  | call (noEntry : Bool)
  deriving DecidableEq

/-- `this.installationHash(id)`, by the keyed hash. It takes texts only. -/
def installationHash (hash : String → String) : Json → Except StoreError String
  | .string id => .ok (hash id)
  | _ => .error .typeError

/-- `if (value) increment(object, value)` -/
def incrementIf (object : Counts) (value : Option String) : Counts :=
  match value with
  | some s => if s = "" then object else increment object s
  | none => object

/-- The key of a transfer, if the event is one. -/
def Event.transfer (e : Event) : Option String :=
  match e.sizeBucket with
  | some size => if size = "" then none else some (e.direction.getD "undefined" ++ ":" ++ size)
  | none => none

/-- An event is counted. -/
def counted (hash : String → String) (aggregate : Aggregate) (e : Event) : Except StoreError Aggregate := do
  let installation ← installationHash hash e.installationId
  pure { aggregate with
    events := increment aggregate.events e.event
    uniqueInstallations :=
      if installation ∈ aggregate.uniqueInstallations then aggregate.uniqueInstallations
      else aggregate.uniqueInstallations ++ [installation]
    durationBuckets := incrementIf aggregate.durationBuckets e.durationBucket
    transferBuckets := incrementIf aggregate.transferBuckets e.transfer
    versions := incrementIf aggregate.versions e.version }

/-! ## Files -/

/-- The file of each day, and the temporary one next to it. -/
structure Folder where
  files : String → Option Document
  temporary : String → Option Document

inductive FolderOp : Type → Type
  | readFile (day : String) : FolderOp Document
  | writeFile (day : String) (d : Document) : FolderOp Unit
  | rename (day : String) : FolderOp Unit

/-- A call fails with `ENOENT`, or with another code. -/
inductive FolderFailure
  | ENOENT
  | other
  deriving DecidableEq

def Folder.exec : {β : Type} → FolderOp β → Folder → Except FolderFailure (β × Folder)
  | _, .readFile day, f => (f.files day).elim (.error .ENOENT) fun d => .ok (d, f)
  | _, .writeFile day d, f => .ok ((), { f with temporary := Function.update f.temporary day (some d) })
  | _, .rename day, f => (f.temporary day).elim (.error .ENOENT) fun d =>
    .ok ((), ⟨Function.update f.files day (some d), Function.update f.temporary day none⟩)

def folder : Backend FolderOp FolderFailure Folder := ⟨Folder.exec⟩

abbrev StoreScript := Script FolderOp FolderFailure StoreError

def call {β : Type} (op : FolderOp β) : StoreScript β := .perform (fun e => .call (e == .ENOENT)) op

/-- `event.occurredAt.slice(0, 10)` -/
def Event.day (e : Event) : String := String.ofList (e.occurredAt.toList.take 10)

/-- The aggregate of a day. -/
def readAggregate (day : String) : StoreScript Aggregate :=
  tryCatch (do
    let d ← call (.readFile day)
    pure d.parse) fun
  | .call true => pure (newAggregate day)
  | error => throw error

/-- `recordNow(event)` -/
def recordNow (hash : String → String) (e : Event) : StoreScript Aggregate := do
  let aggregate ← readAggregate e.day
  let aggregate ← ExceptT.mk (pure (counted hash aggregate e))
  call (.writeFile e.day aggregate.stringify)
  call (.rename e.day)
  pure aggregate

/-! ## The chain -/

/-- Which operations of an event would fail. -/
structure Failures where
  read : Bool
  write : Bool
  rename : Bool
  deriving DecidableEq

/-- None of them. -/
def Failures.clean (f : Failures) : Bool := !f.read && !f.write && !f.rename

/-- An operation that fails does so with another code than `ENOENT`, which says that the file is not there. -/
def Failures.plan (f : Failures) : List (Option FolderFailure) :=
  [f.read, f.write, f.rename].map fun fails => if fails then some .other else none

/-- `this.queue`, settled: what it was rejected with, if it was, and the files. -/
structure Queue where
  rejected : Option StoreError
  folder : Folder

/-- What a promise is rejected with. -/
def rejection {α : Type} : Except StoreError α → Option StoreError
  | .ok _ => none
  | .error e => some e

/-- `record(event)`: what its promise comes to. A chain that was rejected stays so, and the event is not looked at. -/
def record (hash : String → String) (q : Queue) (e : Event) (f : Failures) : Except StoreError Aggregate × Queue :=
  match q.rejected with
  | some error => (.error error, q)
  | none =>
    let out := (recordNow hash e).run.planned folder f.plan q.folder
    (out.2.1, ⟨rejection out.2.1, out.2.2⟩)

/-- The promises of the events, and the chain after them. -/
def records (hash : String → String) (q : Queue) : List (Event × Failures) → List (Except StoreError Aggregate) × Queue
  | [] => ([], q)
  | (e, f) :: calls =>
    let out := record hash q e f
    let rest := records hash out.2 calls
    (out.1 :: rest.1, rest.2)

/-! ## What an event does -/

section Event

variable {hash : String → String} {e : Event} {f : Failures} {s : Folder}

/-- The aggregate that an event finds. -/
def found (s : Folder) (day : String) : Aggregate := (s.files day).elim (newAggregate day) Document.parse

/-- The files with one more event. -/
def added (hash : String → String) (files : String → Option Document) (e : Event) : String → Option Document :=
  match counted hash ((files e.day).elim (newAggregate e.day) Document.parse) e with
  | .ok a => Function.update files e.day (some a.stringify)
  | .error _ => files

/-- The event, after its aggregate is read. -/
def counting (hash : String → String) (e : Event) (a : Aggregate) : StoreScript Aggregate := do
  let aggregate ← ExceptT.mk (pure (counted hash a e))
  call (.writeFile e.day aggregate.stringify)
  call (.rename e.day)
  pure aggregate

/-- The event by what its file answers. -/
theorem run_recordNow : (recordNow hash e).run = .call (.readFile e.day) fun
    | .ok d => (counting hash e d.parse).run
    | .error .ENOENT => (counting hash e (newAggregate e.day)).run
    | .error .other => .done (.error (.call false)) := by
  change Prog.call _ _ = _
  congr 1
  funext r
  rcases r with (_ | _) | d
  · rfl
  · rfl
  · rfl

/-- An event that is not counted ends there. -/
theorem planned_counting_error {a : Aggregate} {error : StoreError} {plan : List (Option FolderFailure)}
    (hcounted : counted hash a e = .error error) :
    (counting hash e a).run.planned folder plan s = ([], .error error, s) := by
  have hrun : (counting hash e a).run = .done (.error error) := by
    unfold counting
    rw [hcounted]
    rfl
  rw [hrun]
  rfl

/-- An event that is counted replaces the file, unless one of the two operations fails. -/
theorem planned_counting_ok {a a' : Aggregate} {write rename : Bool} (hcounted : counted hash a e = .ok a') :
    ((counting hash e a).run.planned folder
      [if write then some .other else none, if rename then some .other else none] s).2 =
      if write then (.error (.call false), s)
      else if rename then (.error (.call false), ⟨s.files, Function.update s.temporary e.day (some a'.stringify)⟩)
      else (.ok a', ⟨Function.update s.files e.day (some a'.stringify),
        Function.update (Function.update s.temporary e.day (some a'.stringify)) e.day none⟩) := by
  have hrun : (counting hash e a).run = .call (.writeFile e.day a'.stringify) fun
      | .ok _ => .call (.rename e.day) fun
        | .ok _ => .done (.ok a')
        | .error x => .done (.error (.call (x == .ENOENT)))
      | .error x => .done (.error (.call (x == .ENOENT))) := by
    unfold counting
    rw [hcounted]
    change Prog.call _ _ = _
    congr 1
    funext r
    rcases r with x | u
    · rfl
    · change Prog.call _ _ = _
      congr 1
      funext r
      rcases r with x | u
      · rfl
      · rfl
  rw [hrun]
  cases write with
  | true => rfl
  | false =>
    cases rename with
    | true => rfl
    | false => simp [Prog.planned, folder, Folder.exec]

/-- An event whose file can be read goes on with its aggregate. -/
theorem planned_recordNow (hread : f.read = false) :
    ((recordNow hash e).run.planned folder f.plan s).2 =
      ((counting hash e (found s e.day)).run.planned folder
        [if f.write then some .other else none, if f.rename then some .other else none] s).2 := by
  rw [run_recordNow]
  unfold found
  cases hfile : s.files e.day with
  | none => simp [Prog.planned, Failures.plan, hread, folder, Folder.exec, hfile]
  | some d => simp [Prog.planned, Failures.plan, hread, folder, Folder.exec, hfile]

/-- Whether an event can be counted does not depend on its aggregate. -/
theorem counted_string {a : Aggregate} {id : String} (hid : e.installationId = .string id) :
    ∃ a', counted hash a e = .ok a' := by
  unfold counted
  rw [hid]
  exact ⟨_, rfl⟩

theorem string_of_counted {a a' : Aggregate} (hcounted : counted hash a e = .ok a') :
    ∃ id, e.installationId = .string id := by
  obtain ⟨installation, hinstallation, -⟩ := bind_ok hcounted
  unfold installationHash at hinstallation
  split at hinstallation
  · next id hid => exact ⟨id, hid⟩
  · cases hinstallation

/-- **An event of which an operation fails** is rejected, and leaves the files. -/
theorem record_failing {q : Queue} (hq : q.rejected = none) (hf : f.clean = false) :
    ∃ error s', record hash q e f = (.error error, ⟨some error, s'⟩) ∧ s'.files = q.folder.files := by
  suffices h : ∃ error, ((recordNow hash e).run.planned folder f.plan q.folder).2.1 = .error error ∧
      ((recordNow hash e).run.planned folder f.plan q.folder).2.2.files = q.folder.files by
    obtain ⟨error, herror, hfiles⟩ := h
    refine ⟨error, _, ?_, hfiles⟩
    unfold record
    rw [hq]
    dsimp only
    rw [herror]
    rfl
  cases hread : f.read with
  | true =>
    refine ⟨.call false, ?_⟩
    rw [run_recordNow]
    simp [Prog.planned, Failures.plan, hread]
  | false =>
    rw [planned_recordNow hread]
    cases hcounted : counted hash (found q.folder e.day) e with
    | error error =>
      rw [planned_counting_error hcounted]
      exact ⟨error, rfl, rfl⟩
    | ok a =>
      rw [planned_counting_ok hcounted]
      cases hwrite : f.write with
      | true => exact ⟨.call false, rfl, rfl⟩
      | false =>
        cases hrename : f.rename with
        | true => exact ⟨.call false, rfl, rfl⟩
        | false => simp [Failures.clean, hread, hwrite, hrename] at hf

/-- **An event of which no operation fails** is added to the file of its day, or is rejected as one that cannot be
counted. -/
theorem record_clean {q : Queue} (hq : q.rejected = none) (hf : f.clean = true) :
    (∃ a s', counted hash (found q.folder e.day) e = .ok a ∧ record hash q e f = (.ok a, ⟨none, s'⟩) ∧
        s'.files = added hash q.folder.files e) ∨
      ∃ error, counted hash (found q.folder e.day) e = .error error ∧
        record hash q e f = (.error error, ⟨some error, q.folder⟩) := by
  obtain ⟨⟨hread, hwrite⟩, hrename⟩ : (f.read = false ∧ f.write = false) ∧ f.rename = false := by
    simpa [Failures.clean] using hf
  unfold record
  rw [hq]
  dsimp only
  rw [planned_recordNow hread]
  cases hcounted : counted hash (found q.folder e.day) e with
  | error error =>
    rw [planned_counting_error hcounted]
    exact .inr ⟨error, rfl, rfl⟩
  | ok a =>
    rw [planned_counting_ok hcounted, hwrite, hrename]
    refine .inl ⟨a, _, rfl, rfl, ?_⟩
    unfold added
    rw [show (q.folder.files e.day).elim (newAggregate e.day) Document.parse = found q.folder e.day from rfl, hcounted]
    rfl

end Event

/-! ## What a chain survives -/

/-- The promise of an event is kept. -/
def kept (r : Except StoreError Aggregate) : Bool := (rejection r).isNone

/-- The promises are kept of those events whose operations succeed, and the files have these events, each of them
once. -/
structure Survives (hash : String → String) (q : Queue) (calls : List (Event × Failures)) : Prop where
  promises : (records hash q calls).1.map kept = calls.map fun c => c.2.clean
  files : (records hash q calls).2.folder.files =
    ((calls.filter fun c => c.2.clean).map Prod.fst).foldl (added hash) q.folder.files

/-- No event that fails comes before one that would not, and those that would not have a text as their identifier. -/
def Recordable (calls : List (Event × Failures)) : Prop :=
  (∀ c ∈ calls, c.2.clean = true → ∃ id, c.1.installationId = .string id) ∧
    calls.Pairwise fun c c' => c.2.clean = false → c'.2.clean = false

section Chain

variable {hash : String → String} {q : Queue} {calls : List (Event × Failures)}

/-- A chain that was rejected rejects everything. -/
theorem records_rejected {error : StoreError} (hq : q.rejected = some error) :
    records hash q calls = (calls.map fun _ => .error error, q) := by
  induction calls with
  | nil => rfl
  | cons c calls ih =>
    have hrecord : record hash q c.1 c.2 = (.error error, q) := by
      unfold record
      rw [hq]
    simp only [records, hrecord, ih, List.map_cons]

/-- After a failure, a chain survives the events that fail as well. -/
theorem survives_rejected_iff {error : StoreError} (hq : q.rejected = some error) :
    Survives hash q calls ↔ ∀ c ∈ calls, c.2.clean = false := by
  constructor
  · intro h c hc
    have hpromises := h.promises
    rw [records_rejected hq, List.map_map] at hpromises
    exact (List.map_inj_left.mp hpromises c hc).symm
  · intro hall
    have hnone : calls.filter (fun c => c.2.clean) = [] := by
      rw [List.filter_eq_nil_iff]
      intro c hc
      rw [hall c hc]
      exact Bool.false_ne_true
    refine ⟨?_, ?_⟩
    · rw [records_rejected hq, List.map_map]
      exact List.map_congr_left fun c hc => (hall c hc).symm
    · rw [records_rejected hq, hnone]
      rfl

/-- An event that fails is left out. -/
theorem survives_failing {e : Event} {f : Failures} {error : StoreError} {q' : Queue} (hf : f.clean = false)
    (hrecord : record hash q e f = (.error error, q')) (hfiles : q'.folder.files = q.folder.files) :
    Survives hash q ((e, f) :: calls) ↔ Survives hash q' calls := by
  have hrecords : records hash q ((e, f) :: calls) = (.error error :: (records hash q' calls).1, (records hash q' calls).2) := by
    simp only [records, hrecord]
  constructor
  · rintro ⟨hpromises, hall⟩
    rw [hrecords] at hpromises hall
    refine ⟨(List.cons.inj hpromises).2, ?_⟩
    rw [hfiles, hall, List.filter_cons_of_neg (by simp [hf])]
  · rintro ⟨hpromises, hall⟩
    refine ⟨?_, ?_⟩
    · rw [hrecords, List.map_cons, List.map_cons, hpromises, hf]
      rfl
    · rw [hrecords, hall, List.filter_cons_of_neg (by simp [hf]), hfiles]

/-- An event that does not fail is added. -/
theorem survives_clean {e : Event} {f : Failures} {a : Aggregate} {q' : Queue} (hf : f.clean = true)
    (hrecord : record hash q e f = (.ok a, q')) (hfiles : q'.folder.files = added hash q.folder.files e) :
    Survives hash q ((e, f) :: calls) ↔ Survives hash q' calls := by
  have hrecords : records hash q ((e, f) :: calls) = (.ok a :: (records hash q' calls).1, (records hash q' calls).2) := by
    simp only [records, hrecord]
  constructor
  · rintro ⟨hpromises, hall⟩
    rw [hrecords] at hpromises hall
    refine ⟨(List.cons.inj hpromises).2, ?_⟩
    rw [hfiles, hall, List.filter_cons_of_pos (by simp [hf])]
    rfl
  · rintro ⟨hpromises, hall⟩
    refine ⟨?_, ?_⟩
    · rw [hrecords, List.map_cons, List.map_cons, hpromises, hf]
      rfl
    · rw [hrecords, hall, List.filter_cons_of_pos (by simp [hf]), hfiles]
      rfl

/-- **What a chain survives**, by induction on the events. -/
theorem survives_iff (hq : q.rejected = none) : Survives hash q calls ↔ Recordable calls := by
  induction calls generalizing q with
  | nil => exact ⟨fun _ => ⟨nofun, .nil⟩, fun _ => ⟨rfl, rfl⟩⟩
  | cons c calls ih =>
    obtain ⟨e, f⟩ := c
    cases hf : f.clean with
    | false =>
      obtain ⟨error, s', hrecord, hfiles⟩ : ∃ error s', record hash q e f = (.error error, ⟨some error, s'⟩) ∧
        s'.files = q.folder.files := record_failing hq hf
      rw [survives_failing hf hrecord hfiles, survives_rejected_iff rfl]
      constructor
      · intro hall
        refine ⟨?_, List.pairwise_cons.mpr ⟨fun c hc _ => hall c hc, ?_⟩⟩
        · intro c hc hclean
          rcases List.mem_cons.mp hc with rfl | hc
          · exact absurd (hf.symm.trans hclean) Bool.false_ne_true
          · exact absurd ((hall c hc).symm.trans hclean) Bool.false_ne_true
        · exact List.pairwise_of_forall_mem_list fun c hc c' hc' _ => hall c' hc'
      · rintro ⟨-, hpairs⟩ c hc
        exact (List.pairwise_cons.mp hpairs).1 c hc hf
    | true =>
      rcases record_clean (e := e) hq hf with ⟨a, s', hcounted, hrecord, hfiles⟩ | ⟨error, hcounted, hrecord⟩
      · rw [survives_clean hf hrecord hfiles, ih rfl]
        constructor
        · rintro ⟨hids, hpairs⟩
          refine ⟨?_, List.pairwise_cons.mpr ⟨fun c _ h => ?_, hpairs⟩⟩
          · intro c hc hclean
            rcases List.mem_cons.mp hc with rfl | hc
            · exact string_of_counted hcounted
            · exact hids c hc hclean
          · exact absurd (h.symm.trans hf) Bool.false_ne_true
        · rintro ⟨hids, hpairs⟩
          exact ⟨fun c hc => hids c (List.mem_cons_of_mem _ hc), (List.pairwise_cons.mp hpairs).2⟩
      · constructor
        · intro h
          have hpromises := h.promises
          simp only [records, hrecord, List.map_cons, hf] at hpromises
          exact absurd (List.cons.inj hpromises).1 Bool.false_ne_true
        · rintro ⟨hids, -⟩
          obtain ⟨id, hid⟩ := hids (e, f) List.mem_cons_self hf
          obtain ⟨a, ha⟩ : ∃ a, counted hash (found q.folder e.day) e = .ok a := counted_string hid
          rw [ha] at hcounted
          cases hcounted

theorem Recordable.take (h : Recordable calls) (n : Nat) : Recordable (calls.take n) :=
  ⟨fun c hc => h.1 c (List.mem_of_mem_take hc), h.2.sublist (List.take_sublist n calls)⟩

end Chain

/-- **When the chain survives.** After any number of the events the promises of those whose operations succeed are kept,
and the files have them once each, if and only if no event that fails comes before one that would not, and those that
would not can be counted. -/
theorem queue_survives_iff {hash : String → String} {s : Folder} {calls : List (Event × Failures)} :
    (∀ n, Survives hash ⟨none, s⟩ (calls.take n)) ↔ Recordable calls := by
  constructor
  · intro hall
    have h := hall calls.length
    rw [List.take_length] at h
    exact (survives_iff rfl).mp h
  · exact fun h n => (survives_iff rfl).mpr (h.take n)

/-! ## A chain that does not survive -/

/-- A time is the text of its milliseconds, but for one day. -/
def sampleDates : Dates where
  getTime
    | some (.string "2026-11-19T00:00:00.000Z") => some 1795046400000
    | _ => none
  toISOString t := if t = 1795046400000 then "2026-11-19T00:00:00.000Z" else toString t

def sampleInput : Json :=
  .object [("schemaVersion", .number (.finite 1)), ("installationId", .string "123e4567-e89b-12d3-a456-426614174000"),
    ("event", .string "active_day"), ("occurredAt", .string "2026-11-19T00:00:00.000Z")]

def sampleEvent : Event :=
  ⟨.string "123e4567-e89b-12d3-a456-426614174000", "active_day", "2026-11-19T00:00:00.000Z", none, none, none, none, none,
    none⟩

theorem sampleEvent_accepted : Accepted sampleDates sampleEvent := ⟨1795046400000, sampleInput, rfl⟩

def emptyFolder : Folder := ⟨fun _ => none, fun _ => none⟩

/-- The second event would be recorded, and the first one cannot be renamed. -/
def sampleCalls : List (Event × Failures) := [(sampleEvent, ⟨false, false, true⟩), (sampleEvent, ⟨false, false, false⟩)]

/-- **A chain that does not survive a failure**: the event after it is rejected, and is not in the file of its day. -/
theorem failure_stops_queue : (∀ c ∈ sampleCalls, Accepted sampleDates c.1) ∧
    ((records id ⟨none, emptyFolder⟩ sampleCalls).1.map kept = [false, false]) ∧
    ((records id ⟨none, emptyFolder⟩ sampleCalls).2.folder.files "2026-11-19" = none) ∧
    ¬∀ n, Survives id ⟨none, emptyFolder⟩ (sampleCalls.take n) := by
  refine ⟨?_, by decide, by decide, ?_⟩
  · intro c hc
    rw [sampleCalls, List.mem_cons, List.mem_singleton] at hc
    rcases hc with rfl | rfl
    · exact sampleEvent_accepted
    · exact sampleEvent_accepted
  · intro hall
    have hpairs := (survives_iff rfl).mp (hall 2)
    exact absurd ((List.pairwise_cons.mp hpairs.2).1 _ List.mem_cons_self rfl) (by decide)

end BegetBridge.Telemetry
