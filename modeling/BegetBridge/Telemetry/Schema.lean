import BegetBridge.Core.Json
import BegetBridge.Core.Text

/-!
# The events of the telemetry

A client sends an event as JSON. What is accepted of it is one of five events, with the fields that belong to it.

## Main definitions

* `Event`, `validateEvent`: what is accepted

## Main results

* `Accepted.wellFormed`: the fields that an accepted event has
-/

namespace BegetBridge.Telemetry

open Core

/-! ## Events -/

def EVENTS : List String := ["service_started", "active_day", "terminal_opened", "terminal_closed", "file_transferred"]

def DURATIONS : List String := ["under_1m", "1_5m", "5_30m", "30_120m", "over_2h"]

def SIZES : List String := ["under_1mb", "1_10mb", "10_100mb", "100mb_1gb", "over_1gb"]

def DIRECTIONS : List String := ["upload", "download"]

/-- `[0-9a-f]`, whatever the case. -/
def hexadecimal (c : Char) : Bool := c.isDigit || ('a' ≤ c && c ≤ 'f') || ('A' ≤ c && c ≤ 'F')

/-- The characters of `UUID`. -/
def uuidChars : List (Char → Bool) :=
  List.replicate 8 hexadecimal ++ [(· == '-')] ++ List.replicate 4 hexadecimal ++ [(· == '-')] ++
    [fun c => '1' ≤ c && c ≤ '8'] ++ List.replicate 3 hexadecimal ++ [(· == '-')] ++
    [fun c => decide (c ∈ ['8', '9', 'a', 'b', 'A', 'B'])] ++ List.replicate 3 hexadecimal ++ [(· == '-')] ++
    List.replicate 12 hexadecimal

/-- `UUID.test(text)` -/
def isUuid (text : String) : Bool :=
  text.toList.length == uuidChars.length && (text.toList.zip uuidChars).all fun x => x.2 x.1

/-- An event that is accepted. The identifier is what the client has sent, which the pattern takes as a text. -/
structure Event where
  installationId : Json
  event : String
  occurredAt : String
  version : Option String
  platform : Option String
  arch : Option String
  durationBucket : Option String
  direction : Option String
  sizeBucket : Option String

def demand (holds : Bool) (message : String) : Except String Unit := if holds then .ok () else .error message

/-- `input[key]` is one of the texts. -/
def chosen (members : List (String × Json)) (key : String) (texts : List String) (message : String) :
    Except String String :=
  match field members key with
  | some (.string s) => if s ∈ texts then .ok s else .error message
  | _ => .error message

/-- `input[key]` is a text of at most forty units. -/
def described (members : List (String × Json)) (key : String) : Except String String :=
  match field members key with
  | some (.string s) => if utf16Length s ≤ 40 then .ok s else .error ("Invalid " ++ key)
  | _ => .error ("Invalid " ++ key)

/-- Dates of the host: the time of a value, in milliseconds, if it is a date, and the text of a time. -/
structure Dates where
  getTime : Option Json → Option Int
  toISOString : Int → String

section Validation

variable (dates : Dates) (now : Int)

/-- The fields of an event, by its name. -/
def fieldsOf (members : List (String × Json)) (e : Event) : Except String Event :=
  if e.event = "service_started" then do
    let version ← described members "version"
    let platform ← described members "platform"
    let arch ← described members "arch"
    pure { e with version := some version, platform := some platform, arch := some arch }
  else if e.event = "terminal_closed" then do
    let durationBucket ← chosen members "durationBucket" DURATIONS "Invalid duration bucket"
    pure { e with durationBucket := some durationBucket }
  else if e.event = "file_transferred" then do
    let direction ← chosen members "direction" DIRECTIONS "Invalid transfer direction"
    let sizeBucket ← chosen members "sizeBucket" SIZES "Invalid size bucket"
    pure { e with direction := some direction, sizeBucket := some sizeBucket }
  else pure e

/-- `UUID.test(input.installationId || "")` -/
def identified : Option Json → Bool
  | some id => id.truthy && isUuid id.text
  | none => false

/-- `input.schemaVersion === 1` -/
def supported : Option Json → Bool
  | some (.number x) => x == .finite 1
  | _ => false

/-- `validateEvent(input)` -/
def validateEvent (input : Json) : Except String Event :=
  match input with
  | .object members => do
    demand (supported (field members "schemaVersion")) "Unsupported schema version"
    demand (identified (field members "installationId")) "Invalid installation ID"
    let event ← chosen members "event" EVENTS "Unknown event"
    let occurredAt ← (dates.getTime (field members "occurredAt")).elim (.error "Invalid event time") .ok
    demand (decide (|now - occurredAt| ≤ 7 * 86400000)) "Event time is outside the accepted window"
    fieldsOf members
      ⟨(field members "installationId").getD .null, event, dates.toISOString occurredAt, none, none, none, none, none, none⟩
  | _ => .error "Event must be an object"

end Validation

/-- The event was accepted, at some time. -/
def Accepted (dates : Dates) (e : Event) : Prop := ∃ now input, validateEvent dates now input = .ok e

/-- The fields of an event are those that belong to it. -/
structure WellFormed (e : Event) : Prop where
  event : e.event ∈ EVENTS
  version : ∀ v, e.version = some v → e.event = "service_started" ∧ utf16Length v ≤ 40
  duration : ∀ d, e.durationBucket = some d → e.event = "terminal_closed" ∧ d ∈ DURATIONS
  transfer : ∀ z, e.sizeBucket = some z → e.event = "file_transferred" ∧ z ∈ SIZES ∧
    ∃ d ∈ DIRECTIONS, e.direction = some d

section Accepted

variable {members : List (String × Json)} {key message s : String} {texts : List String} {α β ε : Type}

theorem bind_ok {x : Except ε α} {f : α → Except ε β} {b : β} (h : x >>= f = .ok b) : ∃ a, x = .ok a ∧ f a = .ok b := by
  cases x with
  | error e => cases h
  | ok a => exact ⟨a, rfl, h⟩

theorem chosen_mem (h : chosen members key texts message = .ok s) : s ∈ texts := by
  unfold chosen at h
  split at h
  · split at h
    · next hs => exact Except.ok.inj h ▸ hs
    · cases h
  · cases h

theorem described_length (h : described members key = .ok s) : utf16Length s ≤ 40 := by
  unfold described at h
  split at h
  · split at h
    · next hs => exact Except.ok.inj h ▸ hs
    · cases h
  · cases h

/-- An event has no fields but those that belong to it. -/
theorem fieldsOf_wellFormed {e e' : Event} (hevent : e.event ∈ EVENTS) (hversion : e.version = none)
    (hduration : e.durationBucket = none) (hsize : e.sizeBucket = none) (h : fieldsOf members e = .ok e') :
    WellFormed e' := by
  unfold fieldsOf at h
  split at h
  · next hname =>
    obtain ⟨version, hv, h⟩ := bind_ok h
    obtain ⟨platform, -, h⟩ := bind_ok h
    obtain ⟨arch, -, h⟩ := bind_ok h
    obtain rfl := Except.ok.inj h
    refine ⟨hevent, ?_, by simp [hduration], by simp [hsize]⟩
    intro v hv'
    exact ⟨hname, Option.some.inj hv' ▸ described_length hv⟩
  split at h
  · next hname =>
    obtain ⟨bucket, hb, h⟩ := bind_ok h
    obtain rfl := Except.ok.inj h
    refine ⟨hevent, by simp [hversion], ?_, by simp [hsize]⟩
    intro d hd
    exact ⟨hname, Option.some.inj hd ▸ chosen_mem hb⟩
  split at h
  · next hname =>
    obtain ⟨direction, hd, h⟩ := bind_ok h
    obtain ⟨size, hz, h⟩ := bind_ok h
    obtain rfl := Except.ok.inj h
    refine ⟨hevent, by simp [hversion], by simp [hduration], ?_⟩
    intro z hz'
    exact ⟨hname, Option.some.inj hz' ▸ chosen_mem hz, direction, chosen_mem hd, rfl⟩
  · obtain rfl := Except.ok.inj h
    exact ⟨hevent, by simp [hversion], by simp [hduration], by simp [hsize]⟩

/-- **An accepted event has the fields that belong to it.** -/
theorem Accepted.wellFormed {dates : Dates} {e : Event} (h : Accepted dates e) : WellFormed e := by
  obtain ⟨now, input, h⟩ := h
  cases input with
  | object members =>
    simp only [validateEvent] at h
    obtain ⟨-, -, h⟩ := bind_ok h
    obtain ⟨-, -, h⟩ := bind_ok h
    obtain ⟨event, hevent, h⟩ := bind_ok h
    obtain ⟨occurredAt, -, h⟩ := bind_ok h
    obtain ⟨-, -, h⟩ := bind_ok h
    exact fieldsOf_wellFormed (chosen_mem hevent) rfl rfl rfl h
  | null | bool | number | string | array => cases h

end Accepted

end BegetBridge.Telemetry
