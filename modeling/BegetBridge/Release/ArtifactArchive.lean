import BegetBridge.Core.Number
import BegetBridge.Core.Text
import BegetBridge.Posix.Path

/-!
# The archive of a release

A release is a tar archive: blocks of 512 bytes, a global header that names the commit, and a header for
every directory and file, before the blocks with its content. Only a safe tree below the directory of the
release is accepted.

## Main definitions

* `octal`, `nameField`, `assertHeader`: the fields of a header
* `inspectHeader`: what one header adds
* `inspectTar`: the entries of an archive

## Main results

* `inspectHeader_added`: what an accepted header says
* `inspectHeader_offset`: the inspection goes on behind it
-/

namespace BegetBridge.Release

open Core Posix

abbrev Block := List UInt8

def maxExpanded : Nat := 256 * 1024 * 1024

def maxEntries : Nat := 5000

/-- `bytes.subarray(start, stop)` -/
def subarray (bytes : Block) (start stop : Nat) : Block := (bytes.drop start).take (stop - start)

/-- `bytes.toString("ascii")`: the highest bit of a byte does not count. -/
def asciiText (bytes : Block) : List Char := bytes.map fun b => Char.ofNat (b.toNat % 128)

/-- `text.trim()` -/
def trimText (text : List Char) : List Char :=
  ((text.dropWhile isSpace).reverse.dropWhile isSpace).reverse

def octalDigit (c : Char) : Bool := '0' ≤ c && c ≤ '7'

/-- `octal(field)` -/
def octal (field : Block) : Except String Nat :=
  let text := trimText ((asciiText field).takeWhile (· != Char.ofNat 0))
  if text.isEmpty || !text.all octalDigit then .error "Unsupported archive number encoding"
  else
    let value := text.foldl (fun n c => n * 8 + (c.toNat - '0'.toNat)) 0
    if value > maxSafeInteger then .error "Archive number exceeds a safe limit" else .ok value

/-- `nameField(bytes)` -/
def nameField (bytes : Block) : Except String (List Char) :=
  let value := bytes.takeWhile (· != 0)
  if value.any fun byte => byte < 32 || byte > 126 then .error "Unsupported archive path encoding"
  else .ok (asciiText value)

/-- The sum of the bytes of a header, with blanks for the sum that it records. -/
def headerSum (header : Block) : Nat :=
  (header.zipIdx.map fun x => if 148 ≤ x.2 && x.2 < 156 then 32 else x.1.toNat).sum

/-- `assertHeader(header)` -/
def assertHeader (header : Block) : Except String Unit :=
  if asciiText (subarray header 257 262) ≠ "ustar".toList then .error "Unsupported archive header"
  else
    match octal (subarray header 148 156) with
    | .error e => .error e
    | .ok recorded => if headerSum header ≠ recorded then .error "Archive header checksum mismatch" else .ok ()

/-- A directory or a file of the release. -/
structure ArchiveEntry where
  relative : List Char
  directory : Bool
  content : Block
  deriving DecidableEq

/-- How far the inspection has come. -/
structure Inspection where
  offset : Nat
  globalHeader : Bool
  names : List (List Char)
  directories : List (List Char)
  entries : List ArchiveEntry

/-- `/^[a-zA-Z0-9._-]+$/`, and neither `.` nor `..`. -/
def safeSegment (segment : Name) : Bool :=
  !segment.isEmpty && segment.all (fun c => c.isAlphanum || c == '.' || c == '_' || c == '-') &&
    segment != dot && segment != dotdot

/-- `segments.join("/")` -/
def joined (names : List Name) : List Char := ['/'].intercalate names

/-- What is recorded of a directory or a file. -/
def inspectEntry (root : List Char) (s : Inspection) (type : UInt8) (fullName : List Char) (size : Nat)
    (content : Block) : Except String Inspection :=
  let folder := fullName.getLast? == some '/'
  if type ≠ 48 && type ≠ 53 then .error "Archive links or special entries are prohibited"
  else if type == 53 && size ≠ 0 then .error "Archive directory contains data"
  else if type == 53 && !folder then .error "Invalid archive directory path"
  else if type == 48 && folder then .error "Invalid archive file path"
  else
    let relative := if folder then fullName.dropLast else fullName
    if relative ≠ root && !(root ++ ['/']).isPrefixOf relative then .error "Archive path escapes release root"
    else if (segments relative).any fun segment => !safeSegment segment then .error "Unsafe archive path"
    else if s.names.contains relative then .error "Duplicate archive path"
    else
      let parent := joined (segments relative).dropLast
      if !parent.isEmpty && !s.directories.contains parent then .error "Archive parent is not a directory"
      else
        let entries := s.entries ++ [⟨relative, type == 53, content⟩]
        if entries.length > maxEntries then .error "Archive has too many entries"
        else .ok { s with
          names := s.names ++ [relative]
          directories := if type == 53 then s.directories ++ [relative] else s.directories
          entries := entries }

/-- What the header at the offset adds. -/
def inspectHeader (bytes : Block) (root commit : List Char) (s : Inspection) : Except String Inspection := do
  let header := subarray bytes s.offset (s.offset + 512)
  assertHeader header
  let type := header.getD 156 0
  let name ← nameField (subarray header 0 100)
  let front ← nameField (subarray header 345 500)
  let fullName := if front.isEmpty then name else front ++ '/' :: name
  let size ← octal (subarray header 124 136)
  let start := s.offset + 512
  let padded := (size + 511) / 512 * 512
  if size > maxExpanded || start + padded > bytes.length then throw "Archive entry exceeds bounds"
  let content := subarray bytes start (start + size)
  if !s.globalHeader then
    if type ≠ 103 || fullName ≠ "pax_global_header".toList ||
        asciiText content ≠ "52 comment=".toList ++ commit ++ ['\n'] then
      throw "Archive identity header does not match the signed commit"
    return { s with offset := start + padded, globalHeader := true }
  inspectEntry root { s with offset := start + padded } type fullName size content

/-- The path of the directory that a path is in. -/
def parentOf (relative : List Char) : List Char := joined (segments relative).dropLast

section Inspect

theorem except_bind_ok {α β : Type} {x : Except String α} {f : α → Except String β} {b : β}
    (h : x >>= f = .ok b) : ∃ a, x = .ok a ∧ f a = .ok b := by
  cases x with
  | error e => exact absurd h nofun
  | ok a => exact ⟨a, rfl, h⟩

variable {bytes content : Block} {root commit fullName : List Char} {s s' : Inspection} {type : UInt8} {size : Nat}

/-- **What is recorded has passed every check.** -/
theorem inspectEntry_added (h : inspectEntry root s type fullName size content = .ok s') :
    ∃ relative, (type = 53 → size = 0) ∧ (relative = root ∨ root ++ ['/'] <+: relative) ∧
      (∀ segment ∈ segments relative, safeSegment segment = true) ∧ relative ∉ s.names ∧
      (parentOf relative = [] ∨ parentOf relative ∈ s.directories) ∧ s.entries.length < maxEntries ∧
      s' = { s with
        names := s.names ++ [relative]
        directories := if type == 53 then s.directories ++ [relative] else s.directories
        entries := s.entries ++ [⟨relative, type == 53, content⟩] } := by
  rw [inspectEntry] at h
  extract_lets relative parent entries at h
  split_ifs at h with htype hsize hslash hfile hescape hunsafe hduplicate hparent hcount hdirectory
  all_goals
    refine ⟨relative, fun h53 => ?_, ?_, ?_, ?_, ?_, ?_, by simp [← Except.ok.inj h, hdirectory, entries]⟩
    · simpa [h53] using hsize
    · simp only [Bool.and_eq_true, decide_eq_true_eq, Bool.not_eq_true', not_and, Bool.not_eq_false,
        List.isPrefixOf_iff_prefix] at hescape
      exact or_iff_not_imp_left.mpr hescape
    · simpa using hunsafe
    · simpa using hduplicate
    · simp only [Bool.and_eq_true, Bool.not_eq_true', not_and, Bool.not_eq_false, List.contains_iff_mem,
        List.isEmpty_eq_false_iff] at hparent
      exact or_iff_not_imp_left.mpr hparent
    · exact Nat.lt_of_succ_le (by simpa [entries] using hcount)

/-- The global header is passed over, and every other header is recorded. -/
theorem inspectHeader_added (h : inspectHeader bytes root commit s = .ok s') : ∃ size,
    octal (subarray (subarray bytes s.offset (s.offset + 512)) 124 136) = .ok size ∧
    s.offset + 512 + (size + 511) / 512 * 512 ≤ bytes.length ∧
    (s' = { s with offset := s.offset + 512 + (size + 511) / 512 * 512, globalHeader := true } ∨
      ∃ type fullName, inspectEntry root { s with offset := s.offset + 512 + (size + 511) / 512 * 512 } type
        fullName size (subarray bytes (s.offset + 512) (s.offset + 512 + size)) = .ok s') := by
  rw [inspectHeader] at h
  obtain ⟨_, -, h⟩ := except_bind_ok h
  obtain ⟨name, -, h⟩ := except_bind_ok h
  obtain ⟨front, -, h⟩ := except_bind_ok h
  obtain ⟨size, hsize, h⟩ := except_bind_ok h
  refine ⟨size, hsize, ?_⟩
  dsimp only at h
  generalize (if front.isEmpty = true then name else front ++ '/' :: name) = fullName at h
  split at h
  · exact absurd h nofun
  rename_i hbound
  simp only [Bool.or_eq_true, decide_eq_true_eq, not_or, Nat.not_lt] at hbound
  refine ⟨hbound.2, ?_⟩
  split at h
  · split at h
    · exact absurd h nofun
    · exact .inl (Except.ok.inj h).symm
  · exact .inr ⟨_, _, h⟩

theorem inspectHeader_offset (h : inspectHeader bytes root commit s = .ok s') :
    s.offset + 512 ≤ s'.offset ∧ s'.offset ≤ bytes.length := by
  obtain ⟨size, -, hbound, rfl | ⟨type, fullName, h⟩⟩ := inspectHeader_added h
  · exact ⟨Nat.le_add_right _ _, hbound⟩
  · obtain ⟨relative, -, -, -, -, -, -, rfl⟩ := inspectEntry_added h
    exact ⟨Nat.le_add_right _ _, hbound⟩

end Inspect

/-- The headers from the offset on, up to a block of zeros if there is one. -/
def inspectFrom (bytes : Block) (root commit : List Char) (s : Inspection) : Except String (Inspection × Bool) :=
  if s.offset + 512 ≤ bytes.length then
    if (subarray bytes s.offset (s.offset + 512)).all (· == 0) then .ok (s, true)
    else
      match _h : inspectHeader bytes root commit s with
      | .error e => .error e
      | .ok s' => inspectFrom bytes root commit s'
  else .ok (s, false)
termination_by bytes.length - s.offset
decreasing_by
  have := inspectHeader_offset _h
  omega

/-- The directory of a release. -/
def releaseRoot (version : List Char) : List Char := "dp-beget-bridge-".toList ++ version

/-- `inspectTar(bytes, version, commit)` -/
def inspectTar (bytes : Block) (version commit : List Char) : Except String (List ArchiveEntry) := do
  let root := releaseRoot version
  let (s, ended) ← inspectFrom bytes root commit ⟨0, false, [], [], []⟩
  if !ended || !s.globalHeader || !s.directories.contains root || bytes.length - s.offset < 1024 ||
      !(bytes.drop s.offset).all (· == 0) then
    throw "Archive is incomplete or has trailing data"
  return s.entries

/-! ## Safe archives -/

/-- The content of the entry is the slice of the archive that its header declares. -/
structure Slice (bytes : Block) (start : Nat) (entry : ArchiveEntry) : Prop where
  header : 512 ≤ start
  declared : octal (subarray (subarray bytes (start - 512) start) 124 136) = .ok entry.content.length
  content : entry.content = subarray bytes start (start + entry.content.length)
  inside : start + entry.content.length ≤ bytes.length

/-- The slices of the entries, one after the other up to an offset. -/
structure Slices (bytes : Block) (entries : List ArchiveEntry) (stop : Nat) (places : List (Nat × ArchiveEntry)) :
    Prop where
  entries : places.map Prod.snd = entries
  slices : ∀ p ∈ places, Slice bytes p.1 p.2
  apart : places.Pairwise fun p q => p.1 + p.2.content.length ≤ q.1
  before : ∀ p ∈ places, p.1 + p.2.content.length ≤ stop

/-- What is known of the entries at any time. -/
structure Recorded (bytes : Block) (root : List Char) (s : Inspection) : Prop where
  names : s.names = s.entries.map (·.relative)
  directories : s.directories = (s.entries.filter (·.directory)).map (·.relative)
  distinct : (s.entries.map (·.relative)).Nodup
  below : ∀ e ∈ s.entries, e.relative = root ∨ root ++ ['/'] <+: e.relative
  safe : ∀ e ∈ s.entries, ∀ segment ∈ segments e.relative, safeSegment segment = true
  parents : ∀ l e r, s.entries = l ++ e :: r → parentOf e.relative = [] ∨
    ∃ d ∈ l, d.directory = true ∧ d.relative = parentOf e.relative
  empty : ∀ e ∈ s.entries, e.directory = true → e.content = []
  slices : ∃ places, Slices bytes s.entries s.offset places
  count : s.entries.length ≤ maxEntries

section Recorded

variable {bytes content : Block} {root commit fullName : List Char} {s s' : Inspection} {type : UInt8} {size : Nat}

theorem length_subarray {start stop : Nat} (hle : stop ≤ bytes.length) :
    (subarray bytes start stop).length = stop - start := by
  rw [subarray, List.length_take, List.length_drop]
  omega

/-- **One header keeps what is known.** -/
theorem inspectHeader_recorded (hr : Recorded bytes root s) (h : inspectHeader bytes root commit s = .ok s') :
    Recorded bytes root s' := by
  obtain ⟨size, hsize, hbound, rfl | ⟨type, fullName, h⟩⟩ := inspectHeader_added h
  · obtain ⟨places, hp⟩ := hr.slices
    exact { hr with slices := ⟨places, { hp with before := fun p hm => (hp.before p hm).trans (by
      show s.offset ≤ s.offset + 512 + (size + 511) / 512 * 512
      omega) }⟩ }
  obtain ⟨relative, hempty, hbelow, hsafe, hfresh, hparent, hcount, rfl⟩ := inspectEntry_added h
  have hstart : s.offset + 512 + size ≤ bytes.length := by omega
  have hlength : (subarray bytes (s.offset + 512) (s.offset + 512 + size)).length = size := by
    rw [length_subarray hstart]
    omega
  have hdirectory : ∀ name, name ∈ s.directories → ∃ d ∈ s.entries, d.directory = true ∧ d.relative = name := by
    intro name hname
    rw [hr.directories] at hname
    obtain ⟨d, hd, rfl⟩ := List.mem_map.mp hname
    exact ⟨d, (List.mem_filter.mp hd).1, (List.mem_filter.mp hd).2, rfl⟩
  have hsnoc : ∀ {P : ArchiveEntry → Prop}, (∀ e ∈ s.entries, P e) →
      P ⟨relative, type == 53, subarray bytes (s.offset + 512) (s.offset + 512 + size)⟩ →
      ∀ e ∈ s.entries ++ [⟨relative, type == 53, subarray bytes (s.offset + 512) (s.offset + 512 + size)⟩],
        P e := by
    intro P hall hlast e he
    rcases List.mem_append.mp he with he | he
    · exact hall e he
    · rw [List.mem_singleton.mp he]
      exact hlast
  constructor
  case names => simp [hr.names]
  case directories =>
    by_cases htype : type == 53
    · simp [htype, hr.directories]
    · simp [htype, hr.directories]
  case distinct =>
    rw [List.map_append, List.map_singleton, List.nodup_append]
    refine ⟨hr.distinct, List.nodup_singleton _, fun a ha b hb => ?_⟩
    rw [List.mem_singleton.mp hb]
    rintro rfl
    exact hfresh (hr.names ▸ ha)
  case below => exact hsnoc hr.below hbelow
  case safe => exact hsnoc hr.safe hsafe
  case parents =>
    intro l e r hsplit
    rcases List.eq_nil_or_concat r with rfl | ⟨r, last, rfl⟩
    · -- the entry is the new one
      obtain ⟨rfl, he⟩ := List.append_inj' hsplit rfl
      obtain rfl := List.head_eq_of_cons_eq he
      exact hparent.imp_right fun hp => hdirectory _ hp
    · rw [List.concat_eq_append, ← List.cons_append, ← List.append_assoc] at hsplit
      exact hr.parents l e r (List.append_inj' hsplit rfl).1
  case empty =>
    refine hsnoc hr.empty fun htype => List.eq_nil_of_length_eq_zero ?_
    rw [hlength]
    exact hempty (beq_iff_eq.mp htype)
  case slices =>
    obtain ⟨places, hp⟩ := hr.slices
    refine ⟨places ++ [(s.offset + 512, _)], by rw [List.map_append, hp.entries]; rfl, ?_, ?_, ?_⟩
    · intro p hmem
      rcases List.mem_append.mp hmem with hmem | hmem
      · exact hp.slices p hmem
      · rw [List.mem_singleton.mp hmem]
        refine ⟨Nat.le_add_left _ _, ?_, ?_, ?_⟩
        · rw [hlength, Nat.add_sub_cancel]
          exact hsize
        · rw [hlength]
        · rw [hlength]
          exact hstart
    · rw [List.pairwise_append]
      refine ⟨hp.apart, List.pairwise_singleton _ _, fun p hmem q hq => ?_⟩
      have hbefore := hp.before p hmem
      rw [List.mem_singleton.mp hq]
      show p.1 + p.2.content.length ≤ s.offset + 512
      omega
    · intro p hmem
      rcases List.mem_append.mp hmem with hmem | hmem
      · have hbefore := hp.before p hmem
        show p.1 + p.2.content.length ≤ s.offset + 512 + (size + 511) / 512 * 512
        omega
      · rw [List.mem_singleton.mp hmem]
        dsimp only
        rw [hlength]
        omega
  case count =>
    rw [List.length_append, List.length_singleton]
    exact Nat.succ_le_of_lt hcount

theorem inspectFrom_recorded {ended : Bool} (hr : Recorded bytes root s)
    (h : inspectFrom bytes root commit s = .ok (s', ended)) : Recorded bytes root s' := by
  fun_induction inspectFrom bytes root commit s with
  | case1 =>
    cases h
    exact hr
  | case2 => exact absurd h nofun
  | case3 s _ _ s₁ hs₁ ih => exact ih (inspectHeader_recorded hr hs₁) h
  | case4 =>
    cases h
    exact hr

theorem recorded_initial : Recorded bytes root ⟨0, false, [], [], []⟩ where
  names := rfl
  directories := rfl
  distinct := List.nodup_nil
  below _ h := absurd h List.not_mem_nil
  safe _ h := absurd h List.not_mem_nil
  parents l e r h := absurd h (by simp)
  empty _ h := absurd h List.not_mem_nil
  slices := ⟨[], rfl, fun _ h => absurd h List.not_mem_nil, .nil, fun _ h => absurd h List.not_mem_nil⟩
  count := Nat.zero_le _

end Recorded

/-- A safe tree below the directory of the release, with the slices of the archive that the files are. -/
structure SafeArchive (bytes : Block) (root : List Char) (entries : List ArchiveEntry) : Prop where
  distinct : (entries.map (·.relative)).Nodup
  below : ∀ e ∈ entries, ∃ names, segments e.relative = root :: names ∧
    ∀ segment ∈ root :: names, safeSegment segment = true
  parents : ∀ l e r, entries = l ++ e :: r → segments e.relative = [root] ∨
    ∃ d ∈ l, d.directory = true ∧ segments d.relative = (segments e.relative).dropLast
  empty : ∀ e ∈ entries, e.directory = true → e.content = []
  ends : ∃ stop places, Slices bytes entries stop places ∧ stop + 1024 ≤ bytes.length ∧
    ∀ b ∈ bytes.drop stop, b = 0
  count : entries.length ≤ maxEntries

section Safe

variable {bytes : Block} {root relative : List Char} {s : Inspection}

theorem joined_segments (relative : List Char) : joined (segments relative) = relative :=
  List.intercalate_splitOn '/'

theorem segments_ne_nil (relative : List Char) : segments relative ≠ [] := List.splitOn_ne_nil _ _

theorem joined_snoc {names : List Name} (hne : names ≠ []) (n : Name) :
    joined (names ++ [n]) = joined names ++ '/' :: n := by
  induction names with
  | nil => exact absurd rfl hne
  | cons m names ih =>
    rcases names with _ | ⟨m', names⟩
    · simp [joined, List.intercalate]
    · have hrest := ih (List.cons_ne_nil _ _)
      simp only [joined, List.intercalate, List.cons_append, List.intersperse_cons_cons, List.flatten_cons,
        List.append_assoc] at hrest ⊢
      rw [hrest]

/-- The path of the directory that a path is in is shorter, unless it is in none. -/
theorem parentOf_length (h : parentOf relative ≠ []) : (parentOf relative).length < relative.length := by
  have hne : (segments relative).dropLast ≠ [] := by
    intro hnil
    rw [parentOf, hnil] at h
    exact h rfl
  have hjoin := joined_segments relative
  rw [← List.dropLast_append_getLast (segments_ne_nil relative), joined_snoc hne] at hjoin
  conv_rhs => rw [← hjoin]
  rw [parentOf, List.length_append, List.length_cons]
  omega

/-- A path of safe names that is in no directory is one name. -/
theorem segments_of_parentOf (hsafe : ∀ segment ∈ segments relative, safeSegment segment = true)
    (h : parentOf relative = []) : segments relative = [relative] := by
  have hjoin := joined_segments relative
  have hlast := List.dropLast_append_getLast (segments_ne_nil relative)
  rcases hdrop : (segments relative).dropLast with _ | ⟨n, names⟩
  · rw [hdrop, List.nil_append] at hlast
    rw [← hlast] at hjoin ⊢
    simpa [joined, List.intercalate] using hjoin
  · -- the first name would be empty
    have hn : n ∈ segments relative := List.mem_of_mem_dropLast (hdrop ▸ List.mem_cons_self)
    have hempty : n = [] := by
      rw [parentOf, hdrop] at h
      rcases names with _ | ⟨m, names⟩
      · simpa [joined, List.intercalate] using h
      · simp [joined, List.intercalate] at h
    rw [hempty] at hn
    exact absurd (hsafe [] hn) (by decide)

/-- **The directory of the release is one name**, where it is recorded. -/
theorem Recorded.segments_root (hr : Recorded bytes root s) (hroot : root ∈ s.directories) :
    segments root = [root] := by
  rw [hr.directories] at hroot
  obtain ⟨e, he, heq⟩ := List.mem_map.mp hroot
  have hmem := (List.mem_filter.mp he).1
  have hsafe : ∀ segment ∈ segments root, safeSegment segment = true := heq ▸ hr.safe e hmem
  by_cases hparent : parentOf root = []
  · exact segments_of_parentOf hsafe hparent
  · -- what is recorded is no shorter than the directory of the release
    obtain ⟨l, r, hsplit⟩ := List.append_of_mem hmem
    have hlt := parentOf_length hparent
    rcases hr.parents l e r hsplit with hnone | ⟨d, hd, -, hparentOf⟩
    · exact absurd (heq ▸ hnone) hparent
    · rw [heq] at hparentOf
      rcases hr.below d (hsplit ▸ List.mem_append_left _ hd) with hd | hd
      · rw [← hparentOf, hd] at hlt
        exact absurd hlt (lt_irrefl _)
      · have hle := hd.length_le
        rw [hparentOf, List.length_append] at hle
        omega

theorem Recorded.safe_archive (hr : Recorded bytes root s) (hroot : root ∈ s.directories) (hne : root ≠ [])
    (hlength : s.offset + 1024 ≤ bytes.length) (hzero : ∀ b ∈ bytes.drop s.offset, b = 0) :
    SafeArchive bytes root s.entries := by
  have hone := hr.segments_root hroot
  have hslash : '/' ∉ root := by
    intro hmem
    obtain ⟨a, b, rfl⟩ := List.append_of_mem hmem
    have hsplit : segments (a ++ '/' :: b) = segments a ++ segments b := List.splitOn_append_cons_self a b
    have hlength := congrArg List.length (hsplit.symm.trans hone)
    have ha := List.length_pos_iff.mpr (segments_ne_nil a)
    have hb := List.length_pos_iff.mpr (segments_ne_nil b)
    rw [List.length_append, List.length_singleton] at hlength
    omega
  have hbelow : ∀ e ∈ s.entries, ∃ names, segments e.relative = root :: names := by
    intro e he
    rcases hr.below e he with hroot | ⟨rest, hrest⟩
    · exact ⟨[], hroot ▸ hone⟩
    · refine ⟨segments rest, ?_⟩
      rw [← hrest, List.append_assoc]
      exact List.splitOn_append_cons_self_of_not_mem hslash rest
  refine ⟨hr.distinct, fun e he => ?_, fun l e r hsplit => ?_, hr.empty, ?_, hr.count⟩
  · obtain ⟨names, hnames⟩ := hbelow e he
    exact ⟨names, hnames, hnames ▸ hr.safe e he⟩
  · have he : e ∈ s.entries := hsplit ▸ List.mem_append_right _ List.mem_cons_self
    rcases hr.parents l e r hsplit with hparent | ⟨d, hd, hdirectory, hparent⟩
    · -- an entry below the directory of the release is in one
      obtain ⟨names, hnames⟩ := hbelow e he
      have hsingle := segments_of_parentOf (hr.safe e he) hparent
      refine .inl (hsingle.trans ?_)
      rw [List.head_eq_of_cons_eq (hsingle.symm.trans hnames)]
    · refine .inr ⟨d, hd, hdirectory, ?_⟩
      have hdropped : (segments e.relative).dropLast ≠ [] := by
        intro hnil
        obtain ⟨names, hnames⟩ := hbelow d (hsplit ▸ List.mem_append_left _ hd)
        rw [hparent, parentOf, hnil] at hnames
        exact hne (List.head_eq_of_cons_eq (show [[]] = root :: names from hnames)).symm
      rw [hparent, parentOf]
      exact List.splitOn_intercalate '/' (fun n hn => slash_not_mem_segments (List.mem_of_mem_dropLast hn)) hdropped
  · obtain ⟨places, hp⟩ := hr.slices
    exact ⟨s.offset, places, hp, hlength, hzero⟩

end Safe

/-- **An accepted archive is a safe tree.** -/
theorem inspectTar_safe {bytes : Block} {version commit : List Char} {entries : List ArchiveEntry}
    (h : inspectTar bytes version commit = .ok entries) : SafeArchive bytes (releaseRoot version) entries := by
  rw [inspectTar] at h
  obtain ⟨⟨s, ended⟩, hs, h⟩ := except_bind_ok h
  dsimp only at h
  split at h
  · exact absurd h nofun
  · rename_i hchecks
    obtain rfl := Except.ok.inj h
    simp only [Bool.or_eq_true, Bool.not_eq_true', decide_eq_true_eq, not_or, Bool.not_eq_false,
      List.contains_iff_mem, List.all_eq_true, beq_iff_eq, Nat.not_lt] at hchecks
    obtain ⟨⟨⟨-, hroot⟩, hlength⟩, hzero⟩ := hchecks
    refine (inspectFrom_recorded recorded_initial hs).safe_archive hroot ?_ (by omega) hzero
    exact List.append_ne_nil_of_left_ne_nil (by decide) version

/-! ## A sample -/

/-- Bytes up to a length. -/
def padded (length : Nat) (bytes : Block) : Block := bytes ++ List.replicate (length - bytes.length) 0

def octalField (length n : Nat) : Block :=
  let digits := (Nat.toDigits 8 n).map fun c => UInt8.ofNat c.toNat
  List.replicate (length - 1 - digits.length) 48 ++ digits ++ [0]

/-- A header with its sum. -/
def sampleHeader (name : String) (size : Nat) (type : UInt8) : Block :=
  let front := padded 124 name.toUTF8.data.toList ++ octalField 12 size ++ List.replicate 12 48
  let back := type :: List.replicate 100 0 ++ padded 255 "ustar".toUTF8.data.toList
  front ++ octalField 8 (headerSum (front ++ List.replicate 8 32 ++ back)) ++ back

def sampleCommit : List Char := List.replicate 40 'c'

/-- A release with one file. -/
def sampleArchive : Block :=
  sampleHeader "pax_global_header" 52 103 ++
    padded 512 ("52 comment=".toUTF8.data.toList ++ List.replicate 40 99 ++ [10]) ++
    sampleHeader "dp-beget-bridge-1/" 0 53 ++ sampleHeader "dp-beget-bridge-1/a" 2 48 ++ padded 512 [104, 105] ++
    List.replicate 1024 0

def sampleEntries : List ArchiveEntry :=
  [⟨"dp-beget-bridge-1".toList, true, []⟩, ⟨"dp-beget-bridge-1/a".toList, false, [104, 105]⟩]

theorem sampleArchive_accepted : inspectTar sampleArchive ['1'] sampleCommit = .ok sampleEntries := by
  decide +kernel

end BegetBridge.Release
