import BegetBridge.Posix.Path
import BegetBridge.Relational.KeyedMap

/-!
# File systems

Directories, files and symbolic links are nodes with numbers, and a directory maps names to numbers. A
place is reached from the root directory through directories only; a path is resolved by following the
symbolic links on its way, as many as the system allows.

## Main definitions

* `Disk`, `Node`: the state
* `Disk.entry`, `Disk.follow`: what a directory has under a name, and what is at a place
* `Disk.walk`: the place that a path leads to
* `Disk.locate`: the place of a directory that is held

## Main results

* `walk_place`: a path leads to a place that is reached without links
* `walk_real`, `walk_through`: a path without links leads to itself
* `walk_mono`, `walk_append`: more links, and one path after the other
* `locate_follow`: a directory is where it is located
-/

namespace Posix

open Relational

/-- The number of a node. -/
abbrev Ino := Nat

/-- What a system call fails with. `other` stands for every code that says nothing about the names. -/
inductive Errno
  | ENOENT
  | EEXIST
  | ENOTDIR
  | EISDIR
  | ELOOP
  | ENOTEMPTY
  | EPERM
  | EXDEV
  | other
  deriving DecidableEq, Repr

/-- A node. A directory knows the directory that it is in and its name there. -/
inductive Kind
  | file (bytes : List UInt8)
  | dir (parent : Ino) (name : Name) (entries : KeyedMap Name Ino)
  | link (text : List Char)
  | other

/-- A node with its metadata: its size where it is no file, the time of its last change, and whether its
permissions are those of an isolated workspace. -/
structure Node where
  kind : Kind
  size : Nat
  mtime : Nat
  isolated : Bool

/-- A file system. The system follows at most `links` symbolic links on the way of a path, and the
function that computes real paths no fewer. -/
structure Disk where
  nodes : KeyedMap Ino Node
  root : Ino
  free : Nat
  links : Nat
  realpathLinks : Nat
  links_le : links ≤ realpathLinks

namespace Disk

variable (fs : Disk)

def node (i : Ino) : Option Node := fs.nodes.lookup i

def kind (i : Ino) : Option Kind := (fs.node i).map Node.kind

/-- The names of a directory. -/
def entries (d : Ino) : Option (KeyedMap Name Ino) :=
  match fs.kind d with
  | some (.dir _ _ entries) => some entries
  | _ => none

def isDir (d : Ino) : Bool := (fs.entries d).isSome

/-- The bytes of a file. -/
def bytes (i : Ino) : Option (List UInt8) :=
  match fs.kind i with
  | some (.file bytes) => some bytes
  | _ => none

/-- The text of a symbolic link. -/
def linkText (i : Ino) : Option (List Char) :=
  match fs.kind i with
  | some (.link text) => some text
  | _ => none

/-- What a directory has under a name. -/
def entry (d : Ino) (n : Name) : Option Ino := (fs.entries d).bind fun entries => entries.lookup n

/-- What is at a place. -/
def follow (place : Location) : Option Ino := place.foldlM fs.entry fs.root

/-- What a name is looked up as: nothing, the next place, or a symbolic link with the names of its text. -/
inductive Next
  | fails (e : Errno)
  | goes (place : Location)
  | jumps (place : Location) (names : List Name)

/-- A name that is neither empty nor a dot, in a directory at a place. -/
def named (place : Location) (entries : KeyedMap Name Ino) (n : Name) : Next :=
  match entries.lookup n with
  | none => .fails .ENOENT
  | some i =>
    match fs.linkText i with
    | some text => .jumps (if isAbsolute text then [] else place) (segments text)
    | none => if (fs.node i).isSome then .goes (place ++ [n]) else .fails .ENOENT

/-- One name is looked up at a place. -/
def next (place : Location) (n : Name) : Next :=
  match (fs.follow place).bind fs.entries with
  | none => .fails .ENOTDIR
  | some entries =>
    if n = [] ∨ n = dot then .goes place
    else if n = dotdot then .goes place.dropLast
    else fs.named place entries n

/-- The names of a path are looked up one after the other, from a place on. Where one is a symbolic link,
`jump` goes on with its text. -/
def steps (jump : Location → List Name → Except Errno Location) : Location → List Name → Except Errno Location
  | place, [] => .ok place
  | place, n :: rest =>
    match fs.next place n with
    | .fails e => .error e
    | .goes place' => steps jump place' rest
    | .jumps place' names => jump place' (names ++ rest)

/-- The place that the names lead to from a place on, through at most so many links. -/
def walk : Nat → Location → List Name → Except Errno Location
  | 0 => fs.steps fun _ _ => .error .ELOOP
  | links + 1 => fs.steps (walk links)

/-- The place that a path leads to. -/
def resolve (path : Location) : Except Errno Location := fs.walk fs.links [] path

/-- The place that a path leads to, as it is computed. -/
def realpath (path : Location) : Except Errno Location := fs.walk fs.realpathLinks [] path

/-- Something is where the path leads to. -/
def existsAt (path : Location) : Bool := (fs.resolve path).isOk

/-- The place of a directory, through the directories that it is in, up to a depth. -/
def locate : Nat → Ino → Option Location
  | 0, _ => none
  | depth + 1, d =>
    if d = fs.root then some []
    else
      match fs.kind d with
      | some (.dir parent name _) =>
        if fs.entry parent name = some d then (locate depth parent).map fun place => place ++ [name]
        else none
      | _ => none

/-- Every directory is where it says, and the root directory is nowhere else. -/
def Tree : Prop :=
  ∀ d n i, fs.entry d n = some i → fs.isDir i = true →
    i ≠ fs.root ∧ ∃ entries, fs.kind i = some (.dir d n entries)

end Disk

section Walk

variable {fs : Disk} {place path : Location} {n : Name} {names rest : List Name} {i d : Ino}
  {jump : Location → List Name → Except Errno Location}

@[simp] theorem follow_nil : fs.follow [] = some fs.root := rfl

theorem follow_append : fs.follow (place ++ path) = (fs.follow place).bind fun d => path.foldlM fs.entry d :=
  List.foldlM_append

theorem follow_snoc : fs.follow (place ++ [n]) = (fs.follow place).bind fun d => fs.entry d n := by
  rw [follow_append]
  congr 1
  funext d
  show (fs.entry d n).bind some = _
  exact Option.bind_fun_some _

theorem entry_of_entries {entries : KeyedMap Name Ino} (h : fs.entries d = some entries) :
    fs.entry d n = entries.lookup n := by
  rw [Disk.entry, h]
  rfl

theorem entries_of_entry (h : fs.entry d n = some i) : ∃ entries, fs.entries d = some entries :=
  (Option.bind_eq_some_iff.mp h).imp fun _ h => h.1

/-- What is above a place that is reached is a directory. -/
theorem follow_above (h : fs.follow (place ++ n :: rest) = some i) :
    ∃ d entries, fs.follow place = some d ∧ fs.entries d = some entries := by
  rw [follow_append] at h
  obtain ⟨d, hd, hrest⟩ := Option.bind_eq_some_iff.mp h
  rw [List.foldlM_cons] at hrest
  obtain ⟨j, hj, -⟩ := Option.bind_eq_some_iff.mp hrest
  obtain ⟨entries, he⟩ := entries_of_entry hj
  exact ⟨d, entries, hd, he⟩

/-- A node that is there and is no link. -/
def Disk.Real (fs : Disk) (i : Ino) : Prop := (fs.node i).isSome = true ∧ fs.linkText i = none

theorem real_of_entries {entries : KeyedMap Name Ino} (h : fs.entries d = some entries) : fs.Real d := by
  rw [Disk.entries] at h
  split at h
  · rename_i hkind
    obtain ⟨node, hnode, -⟩ := Option.map_eq_some_iff.mp hkind
    refine ⟨by rw [hnode]; rfl, ?_⟩
    rw [Disk.linkText, hkind]
  · exact absurd h nofun

/-- Where a place is reached. -/
def Disk.Place (fs : Disk) (place : Location) : Prop := ∃ i, fs.follow place = some i ∧ fs.Real i

theorem next_of_entries {entries : KeyedMap Name Ino} (hd : fs.follow place = some d)
    (he : fs.entries d = some entries) : fs.next place n =
      if n = [] ∨ n = dot then .goes place
      else if n = dotdot then .goes place.dropLast
      else fs.named place entries n := by
  rw [Disk.next, hd, Option.bind_some, he]

theorem place_dropLast {entries : KeyedMap Name Ino} (hd : fs.follow place = some d)
    (he : fs.entries d = some entries) : fs.Place place.dropLast := by
  rcases List.eq_nil_or_concat place with rfl | ⟨above, n, rfl⟩
  · exact ⟨d, hd, real_of_entries he⟩
  · rw [List.concat_eq_append] at hd ⊢
    rw [List.dropLast_concat]
    obtain ⟨d', entries', hd', he'⟩ := follow_above hd
    exact ⟨d', hd', real_of_entries he'⟩

theorem place_nil (hd : fs.follow place = some d) (hreal : fs.Real d) : fs.Place [] := by
  cases place with
  | nil => exact ⟨d, hd, hreal⟩
  | cons n place =>
    obtain ⟨d', entries', hd', he'⟩ := follow_above (List.nil_append (n :: place) ▸ hd)
    exact ⟨d', hd', real_of_entries he'⟩

/-- One name that is no link leads one place further. -/
theorem next_of_entry {entries : KeyedMap Name Ino} (hn : n.Valid) (hd : fs.follow place = some d)
    (he : fs.entries d = some entries) (hi : entries.lookup n = some i) (hreal : fs.Real i) :
    fs.next place n = .goes (place ++ [n]) := by
  obtain ⟨hempty, hdot, hup, -⟩ := hn
  rw [next_of_entries hd he, if_neg (by simp [hempty, hdot]), if_neg hup, Disk.named, hi]
  simp only [hreal.2, hreal.1, if_true]

/-- What one name leads to. -/
theorem next_place (hplace : fs.Place place) :
    (∀ p, fs.next place n = .goes p → fs.Place p) ∧ ∀ p names, fs.next place n = .jumps p names → fs.Place p := by
  obtain ⟨d, hd, hreal⟩ := hplace
  rcases he : fs.entries d with _ | entries
  · have hfails : fs.next place n = .fails .ENOTDIR := by rw [Disk.next, hd, Option.bind_some, he]
    rw [hfails]
    exact ⟨nofun, nofun⟩
  rw [next_of_entries hd he]
  split
  · refine ⟨fun p hp => ?_, nofun⟩
    obtain rfl := Disk.Next.goes.inj hp
    exact ⟨d, hd, hreal⟩
  split
  · refine ⟨fun p hp => ?_, nofun⟩
    obtain rfl := Disk.Next.goes.inj hp
    exact place_dropLast hd he
  rw [Disk.named]
  rcases hi : entries.lookup n with _ | i
  · exact ⟨nofun, nofun⟩
  rcases htext : fs.linkText i with _ | text
  · simp only [htext]
    split
    · rename_i hnode
      refine ⟨fun p hp => ?_, nofun⟩
      obtain rfl := Disk.Next.goes.inj hp
      refine ⟨i, ?_, hnode, htext⟩
      rw [follow_snoc, hd, Option.bind_some, entry_of_entries he, hi]
    · exact ⟨nofun, nofun⟩
  · simp only [htext]
    refine ⟨nofun, fun p names hp => ?_⟩
    obtain ⟨rfl, -⟩ := Disk.Next.jumps.inj hp
    split
    · exact place_nil hd hreal
    · exact ⟨d, hd, hreal⟩

theorem steps_cons (n : Name) (rest : List Name) : fs.steps jump place (n :: rest) =
    match fs.next place n with
    | .fails e => .error e
    | .goes place' => fs.steps jump place' rest
    | .jumps place' names => jump place' (names ++ rest) := rfl

/-- **A path without links** is walked through. -/
theorem steps_through (hnames : ∀ n ∈ names, n.Valid) (hplace : fs.Place (place ++ names)) :
    fs.steps jump place (names ++ rest) = fs.steps jump (place ++ names) rest := by
  induction names generalizing place with
  | nil => rw [List.nil_append, List.append_nil]
  | cons n names ih =>
    obtain ⟨i, hi, hreal⟩ := hplace
    obtain ⟨d, entries, hd, he⟩ := follow_above hi
    -- the next name is there, as a directory or as the end
    have hnext : ∃ j, entries.lookup n = some j ∧ fs.Real j := by
      rw [follow_append, hd, Option.bind_some, List.foldlM_cons] at hi
      obtain ⟨j, hj, hrest⟩ := Option.bind_eq_some_iff.mp hi
      refine ⟨j, (entry_of_entries he).symm.trans hj, ?_⟩
      cases names with
      | nil =>
        obtain rfl := Option.some.inj hrest
        exact hreal
      | cons m names =>
        rw [List.foldlM_cons] at hrest
        obtain ⟨l, hl, -⟩ := Option.bind_eq_some_iff.mp hrest
        obtain ⟨entries', he'⟩ := entries_of_entry hl
        exact real_of_entries he'
    obtain ⟨j, hj, hjreal⟩ := hnext
    rw [List.cons_append, steps_cons, next_of_entry (hnames n List.mem_cons_self) hd he hj hjreal]
    simp only
    have hassoc : place ++ n :: names = place ++ [n] ++ names := by rw [List.append_assoc]; rfl
    rw [hassoc] at hi ⊢
    exact ih (fun m hm => hnames m (List.mem_cons_of_mem _ hm)) ⟨i, hi, hreal⟩

theorem walk_eq_steps (fs : Disk) (links : Nat) : ∃ jump, fs.walk links = fs.steps jump := by
  cases links with
  | zero => exact ⟨_, rfl⟩
  | succ links => exact ⟨_, rfl⟩

theorem walk_through {links : Nat} (hnames : ∀ n ∈ names, n.Valid) (hplace : fs.Place (place ++ names)) :
    fs.walk links place (names ++ rest) = fs.walk links (place ++ names) rest := by
  obtain ⟨jump, hjump⟩ := walk_eq_steps fs links
  rw [hjump]
  exact steps_through hnames hplace

/-- **A path without links leads to itself.** -/
theorem walk_real {links : Nat} (hpath : ∀ n ∈ path, n.Valid) (hplace : fs.Place path) :
    fs.walk links [] path = .ok path := by
  have hthrough : fs.walk links [] (path ++ []) = fs.walk links ([] ++ path) [] := walk_through hpath hplace
  rw [List.append_nil, List.nil_append] at hthrough
  rw [hthrough]
  cases links <;> rfl

theorem steps_place {place' : Location} (hjump : ∀ p names p', fs.Place p → jump p names = .ok p' → fs.Place p')
    (hplace : fs.Place place) (h : fs.steps jump place names = .ok place') : fs.Place place' := by
  induction names generalizing place with
  | nil =>
    obtain rfl := Except.ok.inj h
    exact hplace
  | cons n names ih =>
    obtain ⟨hgoes, hjumps⟩ := next_place (n := n) hplace
    rw [steps_cons] at h
    rcases hnext : fs.next place n with e | p | ⟨p, text⟩ <;> rw [hnext] at h
    · exact absurd h nofun
    · exact ih (hgoes p hnext) h
    · exact hjump _ _ _ (hjumps p text hnext) h

/-- **A path leads to a place that is reached without links.** -/
theorem walk_place {links : Nat} {place' : Location} (hplace : fs.Place place)
    (h : fs.walk links place names = .ok place') : fs.Place place' := by
  induction links generalizing place names place' with
  | zero =>
    refine steps_place ?_ hplace h
    intro _ _ _ _ hno
    cases hno
  | succ links ih => exact steps_place (fun _ _ _ hp h => ih hp h) hplace h

theorem steps_mono {jump' : Location → List Name → Except Errno Location} {place' : Location}
    (hjump : ∀ p names, jump p names = .ok place' → jump' p names = .ok place')
    (h : fs.steps jump place names = .ok place') : fs.steps jump' place names = .ok place' := by
  induction names generalizing place with
  | nil => exact h
  | cons n names ih =>
    rw [steps_cons] at h ⊢
    rcases hnext : fs.next place n with e | p | ⟨p, text⟩ <;> rw [hnext] at h
    · cases h
    · exact ih h
    · exact hjump _ _ h

/-- Where more links are followed, a path leads where it did. -/
theorem walk_succ {links : Nat} {place' : Location} (h : fs.walk links place names = .ok place') :
    fs.walk (links + 1) place names = .ok place' := by
  induction links generalizing place names place' with
  | zero =>
    refine steps_mono ?_ h
    intro _ _ hno
    cases hno
  | succ links ih => exact steps_mono (fun _ _ h => ih h) h

theorem walk_mono {links links' : Nat} {place' : Location} (hle : links ≤ links')
    (h : fs.walk links place names = .ok place') : fs.walk links' place names = .ok place' := by
  induction hle with
  | refl => exact h
  | step _ ih => exact walk_succ ih

theorem realpath_of_resolve {place' : Location} (h : fs.resolve path = .ok place') :
    fs.realpath path = .ok place' := walk_mono fs.links_le h

theorem steps_append {jump' : Location → List Name → Except Errno Location} {middle place' : Location}
    (hjump : ∀ p names, jump p names = .ok middle → jump' p (names ++ rest) = .ok place')
    (h : fs.steps jump place names = .ok middle) (h' : fs.steps jump' middle rest = .ok place') :
    fs.steps jump' place (names ++ rest) = .ok place' := by
  induction names generalizing place with
  | nil =>
    obtain rfl := Except.ok.inj h
    exact h'
  | cons n names ih =>
    rw [List.cons_append, steps_cons]
    rw [steps_cons] at h
    rcases hnext : fs.next place n with e | p | ⟨p, text⟩ <;> rw [hnext] at h
    · cases h
    · exact ih h
    · show jump' p (text ++ (names ++ rest)) = _
      rw [← List.append_assoc]
      exact hjump _ _ h

/-- **One path after the other**: the links on both ways are followed. -/
theorem walk_append {links links' : Nat} {middle place' : Location}
    (h : fs.walk links place names = .ok middle) (h' : fs.walk links' middle rest = .ok place') :
    fs.walk (links + links') place (names ++ rest) = .ok place' := by
  induction links generalizing place names with
  | zero =>
    rw [Nat.zero_add]
    obtain ⟨jump, hjump⟩ := walk_eq_steps fs links'
    rw [hjump] at h' ⊢
    refine steps_append ?_ h h'
    intro _ _ hno
    cases hno
  | succ links ih =>
    have hlast : fs.walk (links + links' + 1) middle rest = .ok place' := walk_mono (by omega) h'
    rw [Nat.add_right_comm]
    exact steps_append (fun _ _ hp => ih hp) h hlast

theorem next_valid (fs : Disk) (hplace : ∀ m ∈ place, m.Valid) (hn : '/' ∉ n) :
    (∀ p, fs.next place n = .goes p → ∀ m ∈ p, m.Valid) ∧
      ∀ p names, fs.next place n = .jumps p names → (∀ m ∈ p, m.Valid) ∧ ∀ m ∈ names, '/' ∉ m := by
  rw [Disk.next]
  rcases (fs.follow place).bind fs.entries with _ | entries
  · exact ⟨nofun, nofun⟩
  simp only
  split
  · refine ⟨fun p hp => ?_, nofun⟩
    obtain rfl := Disk.Next.goes.inj hp
    exact hplace
  rename_i hempty
  split
  · refine ⟨fun p hp => ?_, nofun⟩
    obtain rfl := Disk.Next.goes.inj hp
    exact fun m hm => hplace m (List.mem_of_mem_dropLast hm)
  rename_i hup
  rw [not_or] at hempty
  rw [Disk.named]
  rcases entries.lookup n with _ | i
  · exact ⟨nofun, nofun⟩
  simp only
  rcases fs.linkText i with _ | text
  · simp only
    split
    · refine ⟨fun p hp => ?_, nofun⟩
      obtain rfl := Disk.Next.goes.inj hp
      intro m hm
      rcases List.mem_append.mp hm with hm | hm
      · exact hplace m hm
      · obtain rfl := List.mem_singleton.mp hm
        exact ⟨hempty.1, hempty.2, hup, hn⟩
    · exact ⟨nofun, nofun⟩
  · refine ⟨nofun, fun p names hp => ?_⟩
    obtain ⟨rfl, rfl⟩ := Disk.Next.jumps.inj hp
    refine ⟨?_, fun m hm => slash_not_mem_segments hm⟩
    split
    · exact nofun
    · exact hplace

theorem steps_valid {place' : Location}
    (hjump : ∀ p names, (∀ m ∈ p, m.Valid) → (∀ m ∈ names, '/' ∉ m) → jump p names = .ok place' →
      ∀ m ∈ place', m.Valid)
    (hplace : ∀ m ∈ place, m.Valid) (hnames : ∀ m ∈ names, '/' ∉ m)
    (h : fs.steps jump place names = .ok place') : ∀ m ∈ place', m.Valid := by
  induction names generalizing place with
  | nil =>
    obtain rfl := Except.ok.inj h
    exact hplace
  | cons n names ih =>
    obtain ⟨hgoes, hjumps⟩ := next_valid fs hplace (hnames n List.mem_cons_self)
    have hrest : ∀ m ∈ names, '/' ∉ m := fun m hm => hnames m (List.mem_cons_of_mem _ hm)
    rw [steps_cons] at h
    rcases hnext : fs.next place n with e | p | ⟨p, text⟩ <;> rw [hnext] at h
    · cases h
    · exact ih (hgoes p hnext) hrest h
    · obtain ⟨hp, htext⟩ := hjumps p text hnext
      refine hjump _ _ hp (fun m hm => ?_) h
      rcases List.mem_append.mp hm with hm | hm
      · exact htext m hm
      · exact hrest m hm

/-- The names of the place that a walk leads to are plain. -/
theorem walk_valid {links : Nat} {place' : Location} (hplace : ∀ m ∈ place, m.Valid)
    (hnames : ∀ m ∈ names, '/' ∉ m) (h : fs.walk links place names = .ok place') :
    ∀ m ∈ place', m.Valid := by
  induction links generalizing place names place' with
  | zero =>
    refine steps_valid ?_ hplace hnames h
    intro _ _ _ _ hno
    cases hno
  | succ links ih => exact steps_valid (fun _ _ hp hnames h => ih hp hnames h) hplace hnames h

/-- **A directory is where it is located.** -/
theorem locate_follow {depth : Nat} (h : fs.locate depth d = some place) : fs.follow place = some d := by
  induction depth generalizing d place with
  | zero => exact absurd h nofun
  | succ depth ih =>
    rw [Disk.locate] at h
    split at h
    · rename_i hroot
      obtain rfl := Option.some.inj h
      rw [hroot]
      rfl
    · split at h
      · split at h
        · rename_i hentry
          obtain ⟨above, habove, rfl⟩ := Option.map_eq_some_iff.mp h
          rw [follow_snoc, ih habove, Option.bind_some, hentry]
        · exact absurd h nofun
      · exact absurd h nofun

/-- In a tree, every directory has one place. -/
theorem follow_injective (htree : fs.Tree) {place' : Location} (hdir : fs.isDir d = true)
    (h : fs.follow place = some d) (h' : fs.follow place' = some d) : place = place' := by
  induction place using List.reverseRecOn generalizing place' d with
  | nil =>
    obtain rfl := Option.some.inj h
    rcases List.eq_nil_or_concat place' with rfl | ⟨above', n', rfl⟩
    · rfl
    · rw [List.concat_eq_append, follow_snoc] at h'
      obtain ⟨d', -, hentry'⟩ := Option.bind_eq_some_iff.mp h'
      exact absurd rfl (htree _ _ _ hentry' hdir).1
  | append_singleton above n ih =>
    rw [follow_snoc] at h
    obtain ⟨e, he, hentry⟩ := Option.bind_eq_some_iff.mp h
    obtain ⟨hne, entries, hkind⟩ := htree _ _ _ hentry hdir
    rcases List.eq_nil_or_concat place' with rfl | ⟨above', n', rfl⟩
    · exact absurd (Option.some.inj h').symm hne
    · rw [List.concat_eq_append, follow_snoc] at h'
      obtain ⟨e', he', hentry'⟩ := Option.bind_eq_some_iff.mp h'
      obtain ⟨-, entries', hkind'⟩ := htree _ _ _ hentry' hdir
      obtain ⟨rfl, rfl, -⟩ := Kind.dir.inj (Option.some.inj (hkind.symm.trans hkind'))
      obtain ⟨entries'', he''⟩ := entries_of_entry hentry
      have hdir' : fs.isDir e = true := by rw [Disk.isDir, he'']; rfl
      rw [List.concat_eq_append, ih hdir' he he']

end Walk

end Posix
