import BegetBridge.Core.Number
import BegetBridge.Core.Text
import BegetBridge.Interleaving.Program
import BegetBridge.Relational.KeyedMap

/-!
# Transcript segments

A transcript is one file or a row of numbered files. `inspectTranscriptSegments` lists the
directory and measures each file, and `readTranscriptBytes` opens the files that a range touches.
Both are programs over single file operations, so that a writer may act between any two of them.

`Holds` says which files a directory holds, and `Shape` that their lengths fit one segment size.
An inspection of a directory that stands still succeeds exactly on such files.

## Main definitions

* `Dir`, `Fs`: a session directory and the operations on it
* `inspectTranscriptSegments`, `readTranscriptBytes`: the programs
* `Holds`, `Shape`, `Extends`: the files, their lengths, and how they grow
* `Inventory.Covers`: what an inventory says of the files
-/

namespace BegetBridge.Transcript

open Core Relational Interleaving

/-- `MAX_TRANSCRIPT_SEGMENTS` -/
def maxTranscriptSegments : Nat := 1024

abbrev Bytes := List UInt8

/-! ## The directory -/

/-- A file: what `lstat` says of it and its bytes. -/
structure File where
  isFile : Bool
  nlink : Nat
  bytes : Bytes
  deriving DecidableEq, Repr

/-- A name in the session directory: the transcript itself, a name with the prefix of its numbered
siblings, split there, or another one. -/
inductive FileName
  | first
  | part (suffix : String)
  | other (name : String)
  deriving DecidableEq, Repr

abbrev Dir := KeyedMap FileName File

/-- What `lstat` and `stat` report. -/
structure Stat where
  isFile : Bool
  nlink : Nat
  size : Nat
  deriving DecidableEq, Repr

def File.stat (f : File) : Stat := ⟨f.isFile, f.nlink, f.bytes.length⟩

/-- Why a file operation fails. -/
inductive FsError
  | enoent
  | eexist
  | fault
  deriving DecidableEq, Repr

/-- The file operations, by the type of their result. Opening a file that is there changes
nothing; a file is created empty. -/
inductive Fs : Type → Type
  | readdir : Fs (List FileName)
  | lstat (name : FileName) : Fs Stat
  | openRead (name : FileName) : Fs Unit
  | stat (name : FileName) : Fs Stat
  | read (name : FileName) (start count : Nat) : Fs Bytes
  | openWrite (name : FileName) : Fs Unit
  | create (name : FileName) : Fs Unit
  | append (name : FileName) (bytes : Bytes) : Fs Unit
  | rename (old new : FileName) : Fs Unit
  | rm (name : FileName) : Fs Unit

/-- The effect of a file operation. -/
def Fs.exec {β : Type} : Fs β → Dir → Except FsError (β × Dir)
  | .readdir, d => .ok (d.keys, d)
  | .lstat name, d =>
    match d.lookup name with
    | some f => .ok (f.stat, d)
    | none => .error .enoent
  | .openRead name, d => if (d.lookup name).isSome then .ok ((), d) else .error .enoent
  | .stat name, d =>
    match d.lookup name with
    | some f => .ok (f.stat, d)
    | none => .error .enoent
  | .read name start count, d =>
    match d.lookup name with
    | some f => .ok ((f.bytes.drop start).take count, d)
    | none => .error .enoent
  | .openWrite name, d => if (d.lookup name).isSome then .ok ((), d) else .error .enoent
  | .create name, d =>
    if (d.lookup name).isSome then .error .eexist else .ok ((), d.insert name ⟨true, 1, []⟩)
  | .append name bytes, d =>
    match d.lookup name with
    | some f => .ok ((), d.insert name { f with bytes := f.bytes ++ bytes })
    | none => .error .enoent
  | .rename old new, d =>
    match d.lookup old with
    | some f => .ok ((), (d.erase old).insert new f)
    | none => .error .enoent
  | .rm name, d => .ok ((), d.erase name)

/-- The operations that change nothing. -/
def Fs.reads {β : Type} : Fs β → Bool
  | .readdir | .lstat _ | .openRead _ | .stat _ | .read _ _ _ | .openWrite _ => true
  | .create _ | .append _ _ | .rename _ _ | .rm _ => false

theorem Fs.exec_reads {β : Type} {op : Fs β} (h : op.reads = true) {d d' : Dir} {b : β}
    (he : op.exec d = .ok (b, d')) : d' = d := by
  cases op with
  | readdir => exact (Prod.mk.inj (Except.ok.inj he)).2.symm
  | lstat name | stat name | openRead name | openWrite name | read name start count =>
    rw [Fs.exec] at he
    split at he
    · exact (Prod.mk.inj (Except.ok.inj he)).2.symm
    · exact absurd he nofun
  | create name | append name bytes | rename old new | rm name => exact absurd h nofun

def fsBackend : Backend Fs FsError Dir := ⟨Fs.exec⟩

/-- What a program over files throws: the error of an operation, or its own. A loop that would not
end counts as one, too. -/
inductive Failure
  | fs (e : FsError)
  | message (text : String)
  | diverges
  deriving DecidableEq, Repr

/-- Programs over files that may throw. -/
abbrev FsM (α : Type) := ExceptT Failure (Prog Fs FsError) α

/-- An operation whose error propagates. -/
def perform {β : Type} (op : Fs β) : FsM β :=
  ExceptT.mk (.call op fun r => .done (r.mapError .fs))

/-- `if (!c) throw new Error(text)` -/
def ensure (c : Prop) [Decidable c] (text : String) : FsM Unit :=
  if c then pure () else throw (.message text)

/-! ## Inspection -/

/-- `String(index).padStart(6, "0")` for an index of at most six digits. -/
def sixDigits (index : Nat) : String :=
  String.ofList ([100000, 10000, 1000, 100, 10, 1].map fun unit =>
    Char.ofNat (48 + index / unit % 10))

/-- `segmentPath(outputPath, index)` -/
def segmentPath (index : Nat) : Except Failure FileName :=
  if 1 ≤ index ∧ index ≤ maxTranscriptSegments then .ok (.part (sixDigits index))
  else .error (.message "Transcript segment index exceeds its limit")

/-- `regularSize(filename)` -/
def regularSize (name : FileName) : FsM Nat := do
  let info ← perform (.lstat name)
  ensure (info.isFile = true ∧ info.nlink = 1 ∧ info.size ≤ maxSafeInteger)
    "Unsafe transcript segment"
  return info.size

structure Segment where
  filename : FileName
  start : Nat
  size : Nat
  deriving DecidableEq, Repr

structure Inventory where
  segments : List Segment
  size : Nat
  missing : Bool
  segmentBytes : Nat
  deriving DecidableEq, Repr

/-- The suffix of a numbered sibling. -/
def FileName.suffix? : FileName → Option String
  | .part suffix => some suffix
  | _ => none

/-- `/^\d{6}$/` -/
def sixDigitPattern : String → Bool := within Char.isDigit 6 6

/-- The loop over the numbered siblings, from `index` on, with `count` of them left and `size` bytes
before. -/
def inspectFrom (numbered : List String) (actual : Nat) :
    (count index size : Nat) → FsM (List Segment × Nat)
  | 0, _, size => return ([], size)
  | count + 1, index, size => do
    let filename ← ExceptT.mk (.done (segmentPath index))
    ensure (∃ suffix ∈ numbered, filename = .part suffix) "Transcript segment is missing"
    let length ← regularSize filename
    ensure (length ≤ actual ∧ (count ≠ 0 → length = actual)) "Transcript segment length is invalid"
    ensure (size + length ≤ maxSafeInteger) "Transcript byte count exceeds safe limit"
    let (segments, total) ← inspectFrom numbered actual count (index + 1) (size + length)
    return (⟨filename, size, length⟩ :: segments, total)

/-- `regularSize(outputPath)`, with `none` for the missing file that the caller accepts. -/
def firstSize (numbered : List String) : FsM (Option Nat) :=
  ExceptT.mk do
    match ← (regularSize .first).run with
    | .ok first => return .ok (some first)
    | .error e => if e = .fs .enoent ∧ numbered = [] then return .ok none else return .error e

/-- `entries.filter(name => name.startsWith(prefix))`, without the prefix. -/
def numberedIn (entries : List FileName) : List String := entries.filterMap FileName.suffix?

/-- The inventory of a first file of `first` bytes and its numbered siblings. -/
def inventoryFrom (segmentBytes : Nat) (numbered : List String) (first : Nat) : FsM Inventory := do
  let actual := if numbered = [] then segmentBytes else first
  ensure (numbered = [] ∨ 1 ≤ actual) "Transcript segments have an empty first file"
  let (segments, size) ← inspectFrom numbered actual numbered.length 1 first
  return ⟨⟨.first, 0, first⟩ :: segments, size, false, actual⟩

/-- `inspectTranscriptSegments(outputPath, segmentBytes)` -/
def inspectTranscriptSegments (segmentBytes : Nat) : FsM Inventory := do
  ensure (1 ≤ segmentBytes ∧ segmentBytes ≤ maxSafeInteger) "Invalid transcript segment size"
  let numbered := numberedIn (← perform .readdir)
  ensure (numbered.length ≤ maxTranscriptSegments ∧ ∀ suffix ∈ numbered, sixDigitPattern suffix = true)
    "Invalid transcript segment inventory"
  match ← firstSize numbered with
  | none => return ⟨[], 0, true, segmentBytes⟩
  | some first => inventoryFrom segmentBytes numbered first

/-! ## Reading -/

/-- The largest read, `256 * 1024 + 3`. -/
def readLimit : Nat := 262147

/-- The loop of `readTranscriptBytes` over the remaining segments, with `copied` bytes behind. -/
def readFrom (offset length : Nat) : List Segment → (copied : Nat) → FsM Bytes
  | [], copied => do
    ensure (copied = length) "Transcript read is incomplete"
    return []
  | entry :: segments, copied => do
    if copied = length then return []
    else if entry.start + entry.size ≤ offset + copied then readFrom offset length segments copied
    else
      ensure (entry.start ≤ offset + copied) "Transcript segment has a gap"
      let start := offset + copied - entry.start
      let count := min (length - copied) (entry.size - start)
      perform (.openRead entry.filename)
      let info ← perform (.stat entry.filename)
      ensure (info.isFile = true ∧ info.nlink = 1 ∧ entry.size ≤ info.size)
        "Transcript changed during reading"
      let bytes ← perform (.read entry.filename start count)
      ensure (bytes.length = count) "Transcript changed during reading"
      return bytes ++ (← readFrom offset length segments (copied + count))

/-- `readTranscriptBytes(segments, offset, length)` -/
def readTranscriptBytes (segments : List Segment) (offset length : Nat) : FsM Bytes := do
  ensure (offset ≤ maxSafeInteger ∧ length ≤ readLimit) "Invalid transcript read bounds"
  readFrom offset length segments 0

/-! ## The files of a transcript -/

/-- The name of segment `index`, the first one included. -/
def segmentName (index : Nat) : FileName := if index = 0 then .first else .part (sixDigits index)

/-- The directory has these files from segment `index` on. -/
def HoldsFrom (d : Dir) : (index : Nat) → List Bytes → Prop
  | _, [] => True
  | index, b :: files => d.lookup (segmentName index) = some ⟨true, 1, b⟩ ∧
      HoldsFrom d (index + 1) files

/-- The directory holds the transcript in these files, and no other numbered one. -/
structure Holds (d : Dir) (files : List Bytes) : Prop where
  from_first : HoldsFrom d 0 files
  missing : files = [] → d.lookup .first = none
  parts : ∀ suffix, .part suffix ∈ d.keys ↔ ∃ i, 1 ≤ i ∧ i < files.length ∧ suffix = sixDigits i
  bounded : files.length ≤ maxTranscriptSegments + 1

/-- Every file but the last has the segment length, and the last no more. -/
def Shape (seg : Nat) : List Bytes → Prop
  | [] => True
  | [b] => b.length ≤ seg
  | b :: b' :: files => b.length = seg ∧ Shape seg (b' :: files)

/-- Files are appended to and added; none is cut or removed. -/
def Extends : List Bytes → List Bytes → Prop
  | [], _ => True
  | _ :: _, [] => False
  | b :: files, b' :: files' => b <+: b' ∧ Extends files files'

/-- The segments are those of the files from `index` on, `start` bytes before them; each is measured
at its length or, the last, at no more. -/
def CoversFrom : (index start : Nat) → List Segment → List Bytes → Prop
  | _, _, [], _ => True
  | _, _, _ :: _, [] => False
  | index, start, s :: segments, b :: files =>
    s.filename = segmentName index ∧ s.start = start ∧ s.size ≤ b.length ∧
      (segments ≠ [] → s.size = b.length) ∧ CoversFrom (index + 1) (start + s.size) segments files

/-- The inventory covers the files up to its size. -/
structure Inventory.Covers (inv : Inventory) (files : List Bytes) : Prop where
  segments : CoversFrom 0 0 inv.segments files
  size : inv.size = (inv.segments.map (·.size)).sum
  missing : inv.missing = true ↔ inv.segments = []

section Files

variable {seg : Nat} {files files' files'' : List Bytes} {b b' : Bytes} {d : Dir}

/-- A transcript of one file. -/
theorem holds_singleton (b : Bytes) : Holds (AList.singleton .first ⟨true, 1, b⟩) [b] where
  from_first := ⟨rfl, trivial⟩
  missing := nofun
  parts suffix := by
    rw [AList.keys_singleton]
    constructor
    · intro h
      exact absurd (List.mem_singleton.mp h) nofun
    · rintro ⟨i, h1, hlt, -⟩
      rw [List.length_singleton] at hlt
      omega
  bounded := by simp [maxTranscriptSegments]

theorem Shape.head_le (h : Shape seg (b :: files)) : b.length ≤ seg := by
  cases files with
  | nil => exact h
  | cons b' files => exact h.1.le

theorem Shape.tail (h : Shape seg (b :: files)) : Shape seg files := by
  cases files with
  | nil => trivial
  | cons b' files => exact h.2

theorem Shape.head_eq (h : Shape seg (b :: files)) (hne : files ≠ []) : b.length = seg := by
  cases files with
  | nil => exact absurd rfl hne
  | cons b' files => exact h.1

theorem Extends.refl (files : List Bytes) : Extends files files := by
  induction files with
  | nil => trivial
  | cons b files ih => exact ⟨List.prefix_refl b, ih⟩

theorem Extends.trans (h : Extends files files') (h' : Extends files' files'') :
    Extends files files'' := by
  induction files generalizing files' files'' with
  | nil => trivial
  | cons b files ih =>
    -- neither of the later lists is shorter, so all three have a head
    rcases files' with _ | ⟨b', files'⟩
    · exact h.elim
    · rcases files'' with _ | ⟨b'', files''⟩
      · exact h'.elim
      · exact ⟨h.1.trans h'.1, ih h.2 h'.2⟩

/-- A full file does not grow. -/
theorem Extends.head_eq (h : Extends (b :: files) (b' :: files')) (hs : Shape seg (b :: files))
    (hs' : Shape seg (b' :: files')) (hne : files ≠ []) : b' = b := by
  apply h.1.eq_of_length_le _ |>.symm
  rw [hs.head_eq hne]
  exact hs'.head_le

/-- The text of the transcript only grows. -/
theorem Extends.flatten_prefix (h : Extends files files') (hs : Shape seg files)
    (hs' : Shape seg files') : files.flatten <+: files'.flatten := by
  induction files generalizing files' with
  | nil => exact List.nil_prefix
  | cons b files ih =>
    rcases files' with _ | ⟨b', files'⟩
    · exact h.elim
    · by_cases hne : files = []
      · subst hne
        simpa using h.1.trans (List.prefix_append b' files'.flatten)
      · rw [h.head_eq hs hs' hne, List.flatten_cons, List.flatten_cons]
        exact (List.prefix_append_right_inj b).mpr (ih h.2 hs.tail hs'.tail)

/-- What an inventory covers stays covered while the transcript grows. -/
theorem CoversFrom.extends {index start : Nat} {segments : List Segment}
    (hc : CoversFrom index start segments files) (h : Extends files files') (hs : Shape seg files)
    (hs' : Shape seg files') : CoversFrom index start segments files' := by
  induction segments generalizing index start files files' with
  | nil => trivial
  | cons s segments ih =>
    rcases files with _ | ⟨b, files⟩
    · exact hc.elim
    · rcases files' with _ | ⟨b', files'⟩
      · exact h.elim
      · obtain ⟨hname, hstart, hle, hfull, hrest⟩ := hc
        refine ⟨hname, hstart, hle.trans h.1.length_le, fun hne => ?_, ih hrest h.2 hs.tail hs'.tail⟩
        -- another segment follows, so another file does, and this one is full
        have hfiles : files ≠ [] := by
          rintro rfl
          rcases segments with _ | ⟨s', segments⟩
          · exact hne rfl
          · exact hrest
        rw [h.head_eq hs hs' hfiles]
        exact hfull hne

theorem CoversFrom.size_le {index start : Nat} {segments : List Segment}
    (hc : CoversFrom index start segments files) :
    (segments.map (·.size)).sum ≤ files.flatten.length := by
  induction segments generalizing index start files with
  | nil => exact Nat.zero_le _
  | cons s segments ih =>
    rcases files with _ | ⟨b, files⟩
    · exact hc.elim
    · obtain ⟨-, -, hle, -, hrest⟩ := hc
      have := ih hrest
      simp only [List.map_cons, List.sum_cons, List.flatten_cons, List.length_append]
      omega

end Files

end BegetBridge.Transcript
