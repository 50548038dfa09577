import BegetBridge.Telemetry.AggregateStore

/-!
# What the aggregates count

Without failures, the file of a day has its events: every counter is the number of the events with its value. What every
object inherits, the empty version and the limit of the numbers stand against it, and so does an identifier that is no
text.

## Main definitions

* `tallied`: the counters of some keys
* `Exact`: a folder has the events, and each value as often as it occurs
* `Countable`: the events that can be counted

## Main results

* `tallied_iff`: when counters are exact
* `counts_exact_iff`: when the aggregates of a sequence of events are, whatever their order
-/

namespace BegetBridge.Telemetry

open Core Interleaving Relational

/-! ## Counters -/

section Counters

variable {object : Counts} {key k : String} {keys : List String}

/-- What an increment makes of a property. -/
def bumped (key : String) (v : Option Value) : Option Value :=
  if key = "__proto__" ∧ v = none then none else some (plusOne key v)

/-- The properties that are defined one after another, each once. -/
theorem lookup_foldl_insert {l : List (Sigma fun _ : String => Value)} (hl : l.NodupKeys) :
    (l.foldl (fun o e => AList.insert e.1 e.2 o) object).lookup k = (l.dlookup k).or (object.lookup k) := by
  induction l generalizing object with
  | nil => rfl
  | cons e l ih =>
    obtain ⟨hnot, hl⟩ := List.nodupKeys_cons.mp hl
    rw [List.foldl_cons, ih hl]
    by_cases hk : k = e.1
    · subst hk
      rw [List.dlookup_eq_none.mpr hnot, AList.lookup_insert, List.dlookup_cons_eq]
      rfl
    · rw [AList.lookup_insert_ne hk, List.dlookup_cons_ne _ _ hk]

/-- **What is read back is the same.** -/
theorem lookup_defined : (defined (members object)).lookup k = object.lookup k := by
  unfold defined members
  rw [List.foldl_map, lookup_foldl_insert object.nodupKeys, AList.lookup_empty, Option.or_none]
  rfl

theorem lookup_increment :
    (increment object key).lookup k = if k = key then bumped key (object.lookup key) else object.lookup k := by
  unfold increment assign bumped
  split
  · next h =>
    split
    · next hk => rw [hk, h.2]
    · rfl
  · split
    · next hk => rw [hk, AList.lookup_insert]
    · next hk => rw [AList.lookup_insert_ne hk]

/-- The properties of an object that has counted some keys. -/
def tallied (keys : List String) (k : String) : Option Value := (bumped k)^[keys.count k] none

theorem tallied_snoc : tallied (keys ++ [key]) k = if k = key then bumped key (tallied keys key) else tallied keys k := by
  unfold tallied
  rw [List.count_append, List.count_singleton]
  by_cases hk : k = key
  · subst hk
    rw [beq_self_eq_true, if_pos rfl, if_pos rfl, Function.iterate_succ_apply']
  · rw [beq_false_of_ne (Ne.symm hk), if_neg Bool.false_ne_true, if_neg hk, Nat.add_zero]

/-- A name that is not inherited is counted, up to the limit. -/
theorem iterate_bumped {n : Nat} (hk : inherited k = none) :
    (bumped k)^[n + 1] none = some (.number (min (n + 1) LIMIT)) := by
  have hproto : k ≠ "__proto__" := by
    rintro rfl
    cases hk
  induction n with
  | zero => simp [bumped, hproto, plusOne, hk, LIMIT]
  | succ n ih =>
    rw [Function.iterate_succ_apply', ih]
    simp only [bumped, hproto, false_and, if_false, plusOne]
    split <;> congr 2 <;> omega

/-- A text that one more is added to is no number. -/
theorem iterate_bumped_text (hk : inherited k ≠ none) (n : Nat) :
    (bumped k)^[n + 1] none = none ∨ ∃ s, s ≠ "" ∧ (bumped k)^[n + 1] none = some (.text s) := by
  have happend : ∀ s : String, s ++ "1" ≠ "" := by
    intro s hs
    have hlists := congrArg String.toList hs
    simp at hlists
  obtain ⟨s, hs⟩ := Option.ne_none_iff_exists'.mp hk
  have hnone : bumped k none = none ∨ ∃ s, s ≠ "" ∧ bumped k none = some (.text s) := by
    by_cases hproto : k = "__proto__"
    · exact .inl (by simp [bumped, hproto])
    · exact .inr ⟨s ++ "1", happend s, by simp [bumped, hproto, plusOne, hs]⟩
  induction n with
  | zero => exact hnone
  | succ n ih =>
    rw [Function.iterate_succ_apply']
    rcases ih with h | ⟨t, ht, h⟩
    · rw [h]
      exact hnone
    · rw [h]
      exact .inr ⟨t ++ "1", happend t, by simp [bumped, plusOne, ht]⟩

/-- **A counter is exact** if and only if its key is not inherited by every object, and does not occur too often. -/
theorem tallied_iff : tallied keys k = (if keys.count k = 0 then none else some (.number (keys.count k))) ↔
    (k ∈ keys → inherited k = none ∧ keys.count k ≤ LIMIT) := by
  by_cases hk : k ∈ keys
  · obtain ⟨n, hn⟩ := Nat.exists_eq_succ_of_ne_zero (List.count_pos_iff.mpr hk).ne'
    rw [tallied, hn, if_neg (Nat.succ_ne_zero n)]
    constructor
    · intro hcount _
      by_cases hinherited : inherited k = none
      · rw [iterate_bumped hinherited] at hcount
        exact ⟨hinherited, min_eq_left_iff.mp (Value.number.inj (Option.some.inj hcount))⟩
      · rcases iterate_bumped_text hinherited n with hnone | ⟨s, -, hs⟩
        · rw [hnone] at hcount
          cases hcount
        · rw [hs] at hcount
          cases hcount
    · intro h
      rw [iterate_bumped (h hk).1, min_eq_left (h hk).2]
  · rw [tallied, List.count_eq_zero.mpr hk]
    exact ⟨fun _ h => absurd h hk, fun _ => rfl⟩

end Counters

/-! ## The files of a sequence of events -/

def noFailures : Failures := ⟨false, false, false⟩

/-- The files after the events, from an empty folder, without failures. -/
def written (hash : String → String) (es : List Event) : String → Option Document :=
  (records hash ⟨none, emptyFolder⟩ (es.map fun e => (e, noFailures))).2.folder.files

/-- The aggregate of a day. -/
def aggregateOf (files : String → Option Document) (day : String) : Aggregate :=
  (files day).elim (newAggregate day) Document.parse

/-- The events of a day. -/
def onDay (day : String) (es : List Event) : List Event := es.filter fun e => e.day == day

def hashOf (hash : String → String) (e : Event) : Option String := (installationHash hash e.installationId).toOption

/-- The identifier is a text. -/
def textual (e : Event) : Bool :=
  match e.installationId with
  | .string _ => true
  | _ => false

/-- The keys that are counted: the empty text is not. -/
def keysOf (f : Event → Option String) (l : List Event) : List String := (l.filterMap f).filter fun s => decide (s ≠ "")

/-- An aggregate has counted these events. -/
structure Holds (hash : String → String) (day : String) (a : Aggregate) (l : List Event) : Prop where
  schemaVersion : a.schemaVersion = 1
  day : a.day = day
  events : ∀ k, a.events.lookup k = tallied (l.map Event.event) k
  durations : ∀ k, a.durationBuckets.lookup k = tallied (keysOf Event.durationBucket l) k
  transfers : ∀ k, a.transferBuckets.lookup k = tallied (keysOf Event.transfer l) k
  versions : ∀ k, a.versions.lookup k = tallied (keysOf Event.version l) k
  nodup : a.uniqueInstallations.Nodup
  mem : ∀ h, h ∈ a.uniqueInstallations ↔ h ∈ l.filterMap (hashOf hash)

section Files

variable {hash : String → String} {day : String} {e : Event} {es l : List Event} {a : Aggregate}
  {files : String → Option Document}

theorem holds_newAggregate : Holds hash day (newAggregate day) [] :=
  ⟨rfl, rfl, fun _ => rfl, fun _ => rfl, fun _ => rfl, fun _ => rfl, List.nodup_nil, fun _ => by simp [newAggregate]⟩

/-- What is read back has counted the same events. -/
theorem Holds.reread (h : Holds hash day a l) : Holds hash day a.stringify.parse l where
  schemaVersion := h.schemaVersion
  day := h.day
  events k := lookup_defined.trans (h.events k)
  durations k := lookup_defined.trans (h.durations k)
  transfers k := lookup_defined.trans (h.transfers k)
  versions k := lookup_defined.trans (h.versions k)
  nodup := h.nodup
  mem := h.mem

/-- One more key. -/
theorem lookup_increment_tallied {object : Counts} {keys : List String} {key : String}
    (h : ∀ k, object.lookup k = tallied keys k) (k : String) :
    (increment object key).lookup k = tallied (keys ++ [key]) k := by
  rw [lookup_increment, tallied_snoc, h, h]

/-- One more event that has a key, or none. -/
theorem lookup_incrementIf {object : Counts} {f : Event → Option String}
    (h : ∀ k, object.lookup k = tallied (keysOf f l) k) (k : String) :
    (incrementIf object (f e)).lookup k = tallied (keysOf f (l ++ [e])) k := by
  have hkeys : keysOf f (l ++ [e]) = keysOf f l ++ keysOf f [e] := by simp [keysOf]
  rw [hkeys]
  unfold incrementIf
  split
  · next s hs =>
    split
    · next hempty => simpa [keysOf, hs, hempty] using h k
    · next hne =>
      have hone : keysOf f [e] = [s] := by simp [keysOf, hs, hne]
      rw [hone]
      exact lookup_increment_tallied h k
  · next hnone => simpa [keysOf, hnone] using h k

/-- An event that is counted. -/
theorem Holds.snoc {a' : Aggregate} (h : Holds hash day a l) (hcounted : counted hash a e = .ok a') :
    Holds hash day a' (l ++ [e]) := by
  obtain ⟨installation, hinstallation, hcounted⟩ := bind_ok hcounted
  obtain rfl := Except.ok.inj hcounted
  have hhash : hashOf hash e = some installation := by
    unfold hashOf
    rw [hinstallation]
    rfl
  have hmem : ∀ x, x ∈ (l ++ [e]).filterMap (hashOf hash) ↔ x ∈ a.uniqueInstallations ∨ x = installation := by
    intro x
    rw [List.filterMap_append, List.mem_append, ← h.mem]
    simp [hhash]
  refine ⟨h.schemaVersion, h.day, ?_, lookup_incrementIf h.durations, lookup_incrementIf h.transfers,
    lookup_incrementIf h.versions, ?_, ?_⟩
  · intro k
    rw [List.map_append]
    exact lookup_increment_tallied h.events k
  · dsimp only
    split
    · exact h.nodup
    · next hnew => exact List.nodup_append.mpr ⟨h.nodup, List.nodup_singleton _, by
        intro x hx y hy hxy
        rw [List.mem_singleton] at hy
        exact hnew (hy ▸ hxy ▸ hx)⟩
  · intro x
    rw [hmem]
    dsimp only
    split
    · next hold =>
      refine ⟨.inl, fun hx => hx.elim id ?_⟩
      rintro rfl
      exact hold
    · rw [List.mem_append, List.mem_singleton]

theorem textual_iff : textual e = true ↔ ∃ id, e.installationId = .string id := by
  unfold textual
  split
  · next id hid => exact ⟨fun _ => ⟨id, hid⟩, fun _ => rfl⟩
  · next hne => exact ⟨nofun, fun ⟨id, hid⟩ => absurd hid (hne id)⟩

theorem onDay_snoc : onDay day (l ++ [e]) = if e.day = day then onDay day l ++ [e] else onDay day l := by
  unfold onDay
  rw [List.filter_append]
  split
  · next h => simp [h]
  · next h => simp [h]

/-- The file of a day is there if and only if the day has events, and it has counted them. -/
structure Filed (hash : String → String) (files : String → Option Document) (l : List Event) : Prop where
  holds : ∀ day, Holds hash day (aggregateOf files day) (onDay day l)
  isSome : ∀ day, (files day).isSome ↔ onDay day l ≠ []

theorem filed_nil : Filed hash (fun _ => none) [] := ⟨fun _ => holds_newAggregate, fun _ => by simp [onDay]⟩

/-- One more event in its file. -/
theorem Filed.snoc (h : Filed hash files l) (htext : textual e = true) : Filed hash (added hash files e) (l ++ [e]) := by
  obtain ⟨id, hid⟩ := textual_iff.mp htext
  obtain ⟨a, ha⟩ : ∃ a, counted hash (aggregateOf files e.day) e = .ok a := counted_string hid
  have hadded : added hash files e = Function.update files e.day (some a.stringify) := by
    unfold added
    unfold aggregateOf at ha
    rw [ha]
  have hholds := ((h.holds e.day).snoc ha).reread
  rw [hadded]
  constructor
  · intro day
    rw [onDay_snoc]
    split
    · next hday =>
      subst hday
      rw [aggregateOf, Function.update_self]
      exact hholds
    · next hday =>
      rw [aggregateOf, Function.update_of_ne (Ne.symm hday)]
      exact h.holds day
  · intro day
    rw [onDay_snoc]
    split
    · next hday =>
      subst hday
      simp
    · next hday =>
      rw [Function.update_of_ne (Ne.symm hday)]
      exact h.isSome day

/-- **The files have the events**, by induction on them, the last one apart. -/
theorem filed_foldl (hl : ∀ e ∈ l, textual e = true) : Filed hash (l.foldl (added hash) fun _ => none) l := by
  induction l using List.reverseRecOn with
  | nil => exact filed_nil
  | append_singleton l e ih =>
    rw [List.foldl_append]
    apply Filed.snoc (ih fun e' he' => hl e' (List.mem_append_left _ he'))
    exact hl e (List.mem_append_right _ List.mem_cons_self)

/-- The events up to the first one that cannot be counted are in the files. -/
theorem written_eq : written hash es = (es.takeWhile textual).foldl (added hash) fun _ => none := by
  suffices h : ∀ q : Queue, q.rejected = none → (records hash q (es.map fun e => (e, noFailures))).2.folder.files =
      (es.takeWhile textual).foldl (added hash) q.folder.files from h ⟨none, emptyFolder⟩ rfl
  induction es with
  | nil => exact fun _ _ => rfl
  | cons e es ih =>
    intro q hq
    rcases @record_clean hash e noFailures q hq rfl with ⟨a, s', hcounted, hrecord, hfiles⟩ | ⟨error, hcounted, hrecord⟩
    · simp only [List.map_cons, records, hrecord]
      rw [ih ⟨none, s'⟩ rfl, hfiles, List.takeWhile_cons_of_pos (textual_iff.mpr (string_of_counted hcounted))]
      rfl
    · simp only [List.map_cons, records, hrecord]
      rw [records_rejected rfl, List.takeWhile_cons_of_neg]
      · rfl
      · intro htext
        obtain ⟨id, hid⟩ := textual_iff.mp htext
        obtain ⟨a, ha⟩ : ∃ a, counted hash (found q.folder e.day) e = .ok a := counted_string hid
        rw [ha] at hcounted
        cases hcounted

theorem filed_written : Filed hash (written hash es) (es.takeWhile textual) := by
  rw [written_eq]
  exact filed_foldl fun e he => List.mem_takeWhile_imp he

end Files

/-! ## Exact counts -/

/-- The bucket of a transfer, with its direction. -/
def transferBucket (e : Event) : Option String := e.sizeBucket.map fun size => e.direction.getD "" ++ ":" ++ size

/-- The counters have each key as often as it occurs. -/
def CountsOf (object : Counts) (keys : List String) : Prop :=
  ∀ k, object.lookup k = if keys.count k = 0 then none else some (.number (keys.count k))

/-- An aggregate has exactly these events. -/
structure ExactDay (hash : String → String) (a : Aggregate) (l : List Event) : Prop where
  events : CountsOf a.events (l.map Event.event)
  durations : CountsOf a.durationBuckets (l.filterMap Event.durationBucket)
  transfers : CountsOf a.transferBuckets (l.filterMap transferBucket)
  versions : CountsOf a.versions (l.filterMap Event.version)
  nodup : a.uniqueInstallations.Nodup
  mem : ∀ h, h ∈ a.uniqueInstallations ↔ h ∈ l.filterMap (hashOf hash)

/-- **Every day's aggregate is exact.** -/
def Exact (hash : String → String) (es : List Event) : Prop :=
  ∀ day, ((written hash es day).isSome ↔ onDay day es ≠ []) ∧
    ExactDay hash (aggregateOf (written hash es) day) (onDay day es)

/-- Two aggregates are the same, but for the order of keys and entries. -/
structure Same (a b : Aggregate) : Prop where
  schemaVersion : a.schemaVersion = b.schemaVersion
  day : a.day = b.day
  events : ∀ k, a.events.lookup k = b.events.lookup k
  durations : ∀ k, a.durationBuckets.lookup k = b.durationBuckets.lookup k
  transfers : ∀ k, a.transferBuckets.lookup k = b.transferBuckets.lookup k
  versions : ∀ k, a.versions.lookup k = b.versions.lookup k
  installations : a.uniqueInstallations.Perm b.uniqueInstallations

/-- **Events that can be counted**: their identifiers are texts, their versions neither empty nor inherited by every
object, and no day has one event more often than a number can say. -/
structure Countable (es : List Event) : Prop where
  text : ∀ e ∈ es, ∃ id, e.installationId = .string id
  versions : ∀ e ∈ es, ∀ v, e.version = some v → v ≠ "" ∧ inherited v = none
  limit : ∀ day name, ((onDay day es).map Event.event).count name ≤ LIMIT

section Exactness

variable {hash : String → String} {es es' l : List Event} {e : Event} {day : String} {dates : Dates}

/-- What belongs to one kind of event occurs as often as that at most. -/
theorem count_filterMap_le {f : Event → Option String} {name : String} {k : String}
    (hf : ∀ e ∈ l, ∀ s, f e = some s → e.event = name) : (l.filterMap f).count k ≤ (l.map Event.event).count name := by
  induction l with
  | nil => exact le_rfl
  | cons e l ih =>
    have htail := ih fun e' he' => hf e' (List.mem_cons_of_mem _ he')
    rw [List.map_cons, List.count_cons]
    cases hs : f e with
    | none =>
      rw [List.filterMap_cons_none hs]
      exact htail.trans (Nat.le_add_right _ _)
    | some s =>
      rw [List.filterMap_cons_some hs, List.count_cons, hf e List.mem_cons_self s hs, beq_self_eq_true, if_pos rfl]
      split
      · exact Nat.add_le_add_right htail 1
      · exact htail.trans (Nat.le_add_right _ _)

/-- Keys that are neither empty nor inherited, and do not occur too often, are counted exactly. -/
theorem countsOf_keysOf {object : Counts} {f g : Event → Option String} (hfg : ∀ e ∈ l, f e = g e)
    (hobject : ∀ k, object.lookup k = tallied (keysOf f l) k)
    (hkeys : ∀ e ∈ l, ∀ s, g e = some s → s ≠ "" ∧ inherited s = none)
    (hlimit : ∀ k, (l.filterMap g).count k ≤ LIMIT) : CountsOf object (l.filterMap g) := by
  have hsame : keysOf f l = l.filterMap g := by
    unfold keysOf
    rw [List.filterMap_congr hfg, List.filter_eq_self]
    intro s hs
    obtain ⟨e, he, hse⟩ := List.mem_filterMap.mp hs
    exact decide_eq_true (hkeys e he s hse).1
  intro k
  rw [hobject k, hsame]
  apply tallied_iff.mpr
  intro hk
  obtain ⟨e, he, hke⟩ := List.mem_filterMap.mp hk
  exact ⟨(hkeys e he k hke).2, hlimit k⟩

theorem inherited_event : ∀ k ∈ EVENTS, inherited k = none := by decide

theorem inherited_duration : ∀ k ∈ DURATIONS, k ≠ "" ∧ inherited k = none := by decide

theorem inherited_transfer : ∀ d ∈ DIRECTIONS, ∀ z ∈ SIZES, z ≠ "" ∧ d ++ ":" ++ z ≠ "" ∧
    inherited (d ++ ":" ++ z) = none := by decide

/-- The bucket that is counted is that of the event. -/
theorem WellFormed.transfer_eq (h : WellFormed e) : e.transfer = transferBucket e := by
  unfold Event.transfer transferBucket
  cases hz : e.sizeBucket with
  | none => rfl
  | some z =>
    obtain ⟨-, hz, d, hd, hdirection⟩ := h.transfer z hz
    rw [hdirection]
    simp [(inherited_transfer d hd z hz).1]

theorem WellFormed.bucket {s : String} (h : WellFormed e) (hs : transferBucket e = some s) :
    e.event = "file_transferred" ∧ s ≠ "" ∧ inherited s = none := by
  unfold transferBucket at hs
  obtain ⟨z, hz, rfl⟩ := Option.map_eq_some_iff.mp hs
  obtain ⟨hevent, hz, d, hd, hdirection⟩ := h.transfer z hz
  rw [hdirection]
  exact ⟨hevent, (inherited_transfer d hd z hz).2⟩

/-- **Events that can be counted are counted exactly.** -/
theorem Countable.exact (h : Countable es) (haccepted : ∀ e ∈ es, Accepted dates e) : Exact hash es := by
  have htext : es.takeWhile textual = es := List.takeWhile_eq_self_iff.mpr fun e he => textual_iff.mpr (h.text e he)
  have hfiled : Filed hash (written hash es) (es.takeWhile textual) := filed_written
  rw [htext] at hfiled
  intro day
  have hholds := hfiled.holds day
  have hday : ∀ e ∈ onDay day es, e ∈ es := fun e he => List.mem_of_mem_filter he
  have hformed : ∀ e ∈ onDay day es, WellFormed e := fun e he => (haccepted e (hday e he)).wellFormed
  refine ⟨hfiled.isSome day, ?_, ?_, ?_, ?_, hholds.nodup, hholds.mem⟩
  · intro k
    rw [hholds.events]
    apply tallied_iff.mpr
    intro hk
    obtain ⟨e, he, rfl⟩ := List.mem_map.mp hk
    exact ⟨inherited_event _ (hformed e he).event, h.limit day _⟩
  · apply countsOf_keysOf (fun _ _ => rfl) hholds.durations
    · exact fun e he s hs => inherited_duration s ((hformed e he).duration s hs).2
    · exact fun k => (count_filterMap_le fun e he s hs => ((hformed e he).duration s hs).1).trans (h.limit day _)
  · apply countsOf_keysOf (fun e he => (hformed e he).transfer_eq) hholds.transfers
    · exact fun e he s hs => ((hformed e he).bucket hs).2
    · exact fun k => (count_filterMap_le fun e he s hs => ((hformed e he).bucket hs).1).trans (h.limit day _)
  · apply countsOf_keysOf (fun _ _ => rfl) hholds.versions
    · exact fun e he s hs => h.versions e (hday e he) s hs
    · exact fun k => (count_filterMap_le fun e he s hs => ((hformed e he).version s hs).1).trans (h.limit day _)

/-- An event that cannot be counted is missed. -/
theorem Exact.takeWhile (h : Exact hash es) (haccepted : ∀ e ∈ es, Accepted dates e) : es.takeWhile textual = es := by
  rcases hrest : es.dropWhile textual with _ | ⟨e, rest⟩
  · have hsplit := List.takeWhile_append_dropWhile (p := textual) (l := es)
    rwa [hrest, List.append_nil] at hsplit
  · exfalso
    have hsplit := List.takeWhile_append_dropWhile (p := textual) (l := es)
    rw [hrest] at hsplit
    have he : e ∈ es := hsplit ▸ List.mem_append_right _ List.mem_cons_self
    have hfiled : Filed hash (written hash es) (es.takeWhile textual) := filed_written
    have hholds := hfiled.holds e.day
    have hexact := (h e.day).2.events e.event
    rw [hholds.events] at hexact
    -- The file has one event of this name less than the day.
    have hless : ((onDay e.day (es.takeWhile textual)).map Event.event).count e.event <
        ((onDay e.day es).map Event.event).count e.event := by
      conv_rhs => rw [← hsplit]
      simp [onDay]
    rw [if_neg (Nat.ne_of_gt (Nat.zero_lt_of_lt hless)), tallied] at hexact
    have hinherited : inherited e.event = none := inherited_event _ (haccepted e he).wellFormed.event
    rcases hcount : ((onDay e.day (es.takeWhile textual)).map Event.event).count e.event with _ | n
    · rw [hcount] at hexact
      cases hexact
    · rw [hcount, iterate_bumped hinherited] at hexact
      have hsame := Value.number.inj (Option.some.inj hexact)
      omega

/-- **Exact counts are those of events that can be counted.** -/
theorem Exact.countable (h : Exact hash es) (haccepted : ∀ e ∈ es, Accepted dates e) : Countable es := by
  have htextual := h.takeWhile haccepted
  have hfiled : Filed hash (written hash es) (es.takeWhile textual) := filed_written
  rw [htextual] at hfiled
  refine ⟨?_, ?_, ?_⟩
  · intro e he
    exact textual_iff.mp (List.takeWhile_eq_self_iff.mp htextual e he)
  · intro e he v hv
    have hmem : v ∈ (onDay e.day es).filterMap Event.version :=
      List.mem_filterMap.mpr ⟨e, List.mem_filter.mpr ⟨he, beq_self_eq_true _⟩, hv⟩
    have hexact := (h e.day).2.versions v
    rw [(hfiled.holds e.day).versions, if_neg (List.count_pos_iff.mpr hmem).ne'] at hexact
    have hnonempty : v ≠ "" := by
      rintro rfl
      have hcount : (keysOf Event.version (onDay e.day es)).count "" = 0 := by simp [keysOf, List.count_eq_zero]
      rw [tallied, hcount] at hexact
      cases hexact
    have hcount : (keysOf Event.version (onDay e.day es)).count v = ((onDay e.day es).filterMap Event.version).count v :=
      List.count_filter (decide_eq_true hnonempty)
    rw [← hcount] at hexact
    have hpositive : (keysOf Event.version (onDay e.day es)).count v ≠ 0 := hcount ▸ (List.count_pos_iff.mpr hmem).ne'
    have hkey := tallied_iff.mp (hexact.trans (if_neg hpositive).symm)
    exact ⟨hnonempty, (hkey (List.mem_filter.mpr ⟨hmem, decide_eq_true hnonempty⟩)).1⟩
  · intro day name
    by_cases hmem : name ∈ (onDay day es).map Event.event
    · have hexact := (h day).2.events name
      rw [(hfiled.holds day).events] at hexact
      exact (tallied_iff.mp hexact hmem).2
    · rw [List.count_eq_zero.mpr hmem]
      exact Nat.zero_le _

theorem Countable.perm (h : Countable es) (hperm : es'.Perm es) : Countable es' where
  text e he := h.text e (hperm.mem_iff.mp he)
  versions e he := h.versions e (hperm.mem_iff.mp he)
  limit day name := by
    have hday : (onDay day es').Perm (onDay day es) := hperm.filter _
    rw [(hday.map Event.event).count_eq]
    exact h.limit day name

/-- Exact aggregates of the same events, in any order, are the same. -/
theorem same_of_filed {files files' : String → Option Document} (h : Filed hash files es) (h' : Filed hash files' es')
    (hperm : es'.Perm es) : Same (aggregateOf files' day) (aggregateOf files day) := by
  have hday : (onDay day es').Perm (onDay day es) := hperm.filter _
  have hkeys : ∀ (f : Event → Option String) k,
      tallied (keysOf f (onDay day es')) k = tallied (keysOf f (onDay day es)) k := by
    intro f k
    have hkeys : (keysOf f (onDay day es')).Perm (keysOf f (onDay day es)) := (hday.filterMap f).filter _
    rw [tallied, tallied, hkeys.count_eq]
  have hholds := h.holds day
  have hholds' := h'.holds day
  refine ⟨hholds'.schemaVersion.trans hholds.schemaVersion.symm, hholds'.day.trans hholds.day.symm, ?_, ?_, ?_, ?_, ?_⟩
  · intro k
    rw [hholds'.events, hholds.events, tallied, tallied, (hday.map Event.event).count_eq]
  · intro k
    rw [hholds'.durations, hholds.durations, hkeys]
  · intro k
    rw [hholds'.transfers, hholds.transfers, hkeys]
  · intro k
    rw [hholds'.versions, hholds.versions, hkeys]
  · rw [List.perm_ext_iff_of_nodup hholds'.nodup hholds.nodup]
    intro x
    rw [hholds'.mem, hholds.mem, (hday.filterMap _).mem_iff]

end Exactness

/-- **When the aggregates are exact.** Of events that were accepted, and that are recorded without failures, the
aggregates have every value as often as it occurs and every installation once, and are the same in every order, if and
only if the events can be counted. -/
theorem counts_exact_iff {dates : Dates} {hash : String → String} {es : List Event}
    (haccepted : ∀ e ∈ es, Accepted dates e) :
    (Exact hash es ∧ ∀ es', es'.Perm es → ∀ day, Same (aggregateOf (written hash es') day)
      (aggregateOf (written hash es) day)) ↔ Countable es := by
  constructor
  · exact fun h => h.1.countable haccepted
  · intro h
    refine ⟨h.exact haccepted, fun es' hperm day => ?_⟩
    have hfiled : ∀ l, Countable l → Filed hash (written hash l) l := by
      intro l hl
      have htextual : l.takeWhile textual = l :=
        List.takeWhile_eq_self_iff.mpr fun e he => textual_iff.mpr (hl.text e he)
      have hfiled : Filed hash (written hash l) (l.takeWhile textual) := filed_written
      rwa [htextual] at hfiled
    exact same_of_filed (hfiled es h) (hfiled es' (h.perm hperm)) hperm

/-- Two events of one installation. -/
theorem counts_exact_iff_sample : Exact id [sampleEvent, sampleEvent] ∧
    ∀ es', es'.Perm [sampleEvent, sampleEvent] → ∀ day, Same (aggregateOf (written id es') day)
      (aggregateOf (written id [sampleEvent, sampleEvent]) day) := by
  have hsample : ∀ e ∈ [sampleEvent, sampleEvent], e = sampleEvent := by simp
  have haccepted : ∀ e ∈ [sampleEvent, sampleEvent], Accepted sampleDates e :=
    fun e he => hsample e he ▸ sampleEvent_accepted
  apply (counts_exact_iff haccepted).mpr
  refine ⟨fun e he => ?_, fun e he v hv => ?_, fun day name => ?_⟩
  · rw [hsample e he]
    exact ⟨_, rfl⟩
  · rw [hsample e he] at hv
    cases hv
  · have hlength : (onDay day [sampleEvent, sampleEvent]).length ≤ 2 := List.length_filter_le _ _
    have hcount : ((onDay day [sampleEvent, sampleEvent]).map Event.event).count name ≤ _ := List.count_le_length
    rw [List.length_map] at hcount
    exact hcount.trans (hlength.trans (by decide))

/-! ## A version that every object inherits -/

def constructorInput : Json :=
  .object [("schemaVersion", .number (.finite 1)), ("installationId", .string "123e4567-e89b-12d3-a456-426614174000"),
    ("event", .string "service_started"), ("occurredAt", .string "2026-11-19T00:00:00.000Z"),
    ("version", .string "constructor"), ("platform", .string "linux"), ("arch", .string "x64")]

def constructorEvent : Event :=
  ⟨.string "123e4567-e89b-12d3-a456-426614174000", "service_started", "2026-11-19T00:00:00.000Z", some "constructor",
    some "linux", some "x64", none, none, none⟩

theorem constructorEvent_accepted : Accepted sampleDates constructorEvent := ⟨1795046400000, constructorInput, rfl⟩

/-- **A counter that is no number.** The event is accepted, and the aggregate of its day has the text of a function for
its version. -/
theorem constructor_miscounted : Accepted sampleDates constructorEvent ∧
    (aggregateOf (written id [constructorEvent]) "2026-11-19").versions.lookup "constructor" =
      some (.text "function Object() { [native code] }1") ∧
    ¬Exact id [constructorEvent] := by
  refine ⟨constructorEvent_accepted, by decide, fun hexact => ?_⟩
  have haccepted : ∀ e ∈ [constructorEvent], Accepted sampleDates e := by
    intro e he
    rw [List.mem_singleton.mp he]
    exact constructorEvent_accepted
  have hversion := (hexact.countable haccepted).versions constructorEvent List.mem_cons_self "constructor" rfl
  exact absurd hversion.2 (by decide)

end BegetBridge.Telemetry
