import BegetBridge.Posix.Disk
import BegetBridge.Interleaving.Ending

/-!
# System calls

The calls by which a program works on a file system through directories that it holds open. A call names
what it works on by a held directory and one name in it, so that nothing above that directory matters to it.

## Main definitions

* `Disk.attach`, `Disk.detach`: an entry is made, or removed
* `Syscall`, `perform`: the calls, and what each of them does

## Main results

* `entry_attach`, `entry_detach`: the entries afterwards
* `follow_of_entries`: a directory stays where it is while the directories above it keep their entries
-/

namespace Posix

open Relational Interleaving

/-- An open file or directory. -/
structure Handle where
  ino : Ino
  deriving DecidableEq, Repr

/-- What is told of a node. -/
structure Stat where
  isFile : Bool
  isDirectory : Bool
  size : Nat
  mtime : Nat
  isolated : Bool
  deriving DecidableEq, Repr

namespace Node

def isFile (node : Node) : Bool :=
  match node.kind with
  | .file _ => true
  | _ => false

def isDirectory (node : Node) : Bool :=
  match node.kind with
  | .dir _ _ _ => true
  | _ => false

def isLink (node : Node) : Bool :=
  match node.kind with
  | .link _ => true
  | _ => false

def stat (node : Node) : Stat where
  isFile := node.isFile
  isDirectory := node.isDirectory
  size := match node.kind with
    | .file bytes => bytes.length
    | _ => node.size
  mtime := node.mtime
  isolated := node.isolated

/-- The node as a directory with other entries. -/
def withEntries (node : Node) (f : KeyedMap Name Ino → KeyedMap Name Ino) : Node :=
  match node.kind with
  | .dir parent name entries => { node with kind := .dir parent name (f entries) }
  | _ => node

end Node

namespace Disk

variable (fs : Disk)

/-- A number that no node has. -/
def fresh : Ino := fs.nodes.keys.foldr max 0 + 1

def setNode (i : Ino) (node : Node) : Disk := { fs with nodes := fs.nodes.insert i node }

/-- The entries of a directory become others. -/
def setEntries (d : Ino) (f : KeyedMap Name Ino → KeyedMap Name Ino) : Disk :=
  match fs.node d with
  | some node => fs.setNode d (node.withEntries f)
  | none => fs

/-- The name leads to the node. -/
def attach (d : Ino) (n : Name) (i : Ino) : Disk := fs.setEntries d fun entries => entries.insert n i

/-- The name is removed. -/
def detach (d : Ino) (n : Name) : Disk := fs.setEntries d fun entries => entries.erase n

/-- A directory that is still in the directory that it says. -/
def alive (d : Ino) : Bool :=
  d == fs.root || match fs.kind d with
    | some (.dir parent name _) => fs.entry parent name == some d
    | _ => false

/-- The node is on the way from the root directory to a directory, or that directory. -/
def above (i d : Ino) : Bool :=
  match fs.locate (fs.nodes.keys.length + 1) d with
  | some place => place.inits.any fun prior => fs.follow prior == some i
  | none => false

end Disk

/-- The calls. The names that they create and remove are those of `dir`. -/
inductive Syscall : Type → Type
  | openDirectory (path : Location) : Syscall Handle
  | openDirectoryAt (dir : Handle) (name : Name) : Syscall Handle
  | openFileAt (dir : Handle) (name : Name) : Syscall Handle
  | fstat (file : Handle) : Syscall Stat
  | realpath (dir : Handle) : Syscall Location
  | getfacl (dir : Handle) : Syscall Bool
  | lstat (dir : Handle) (name : Name) : Syscall Stat
  | statfs (dir : Handle) : Syscall Nat
  | mkdir (dir : Handle) (name : Name) (isolated : Bool) : Syscall Unit
  | create (dir : Handle) (name : Name) : Syscall Handle
  | write (file : Handle) (bytes : List UInt8) : Syscall Unit
  | copyData (source file : Handle) : Syscall Unit
  | link (dir : Handle) (name : Name) (dir' : Handle) (name' : Name) : Syscall Unit
  | rename (dir : Handle) (name : Name) (dir' : Handle) (name' : Name) : Syscall Unit
  | unlink (dir : Handle) (name : Name) : Syscall Unit
  | rmdir (dir : Handle) (name : Name) : Syscall Unit
  | rm (dir : Handle) (name : Name) : Syscall Unit
  | close (file : Handle) : Syscall Unit

namespace Disk

variable (fs : Disk)

/-- A directory by a path, whose last name is no link. -/
def openDirectory (path : Location) : Except Errno (Handle × Disk) :=
  match fs.resolve path.dropLast with
  | .error e => .error e
  | .ok place =>
    match fs.next place (path.getLastD []) with
    | .fails e => .error e
    | .jumps _ _ => .error .ENOTDIR
    | .goes place' =>
      match fs.follow place' with
      | some i => if fs.isDir i then .ok (⟨i⟩, fs) else .error .ENOTDIR
      | none => .error .ENOENT

/-- What a directory that is held has under a name, with its node. -/
def child (dir : Handle) (n : Name) : Except Errno (Ino × Node) :=
  match fs.entries dir.ino with
  | none => .error .ENOTDIR
  | some entries =>
    match entries.lookup n with
    | none => .error .ENOENT
    | some i =>
      match fs.node i with
      | some node => .ok (i, node)
      | none => .error .ENOENT

/-- A directory that is held gets a name that it does not have. -/
def vacant (dir : Handle) (n : Name) : Except Errno Unit :=
  match fs.entries dir.ino with
  | none => .error .ENOTDIR
  | some entries =>
    if (entries.lookup n).isSome then .error .EEXIST
    else if fs.alive dir.ino then .ok () else .error .ENOENT

/-- A new node under a name. -/
def addNode (dir : Handle) (n : Name) (node : Node) : Disk := (fs.setNode fs.fresh node).attach dir.ino n fs.fresh

/-- The bytes of a file become others. -/
def setBytes (i : Ino) (f : List UInt8 → List UInt8) : Except Errno (Unit × Disk) :=
  match fs.node i with
  | some node =>
    match node.kind with
    | .file bytes => .ok ((), fs.setNode i { node with kind := .file (f bytes) })
    | _ => .error .other
  | none => .error .other

/-- A directory goes to another place. -/
def renameDirectory (source : Ino) (dir : Handle) (n : Name) (dir' : Handle) (n' : Name) (target : Option Node) :
    Except Errno (Unit × Disk) :=
  if fs.above source dir'.ino then .error .other
  else
    match target.map Node.kind with
    | some (.dir _ _ entries) => if entries.keys.isEmpty then .ok ((), moved) else .error .ENOTEMPTY
    | some _ => .error .ENOTDIR
    | none => .ok ((), moved)
where
  moved : Disk :=
    match (fs.detach dir.ino n).node source with
    | some node =>
      match node.kind with
      | .dir _ _ entries =>
        ((fs.detach dir.ino n).setNode source { node with kind := .dir dir'.ino n' entries }).attach dir'.ino n' source
      | _ => fs
    | none => fs

/-- Where both names lead to one node, nothing happens. -/
def rename (dir : Handle) (n : Name) (dir' : Handle) (n' : Name) : Except Errno (Unit × Disk) :=
  match fs.child dir n with
  | .error e => .error e
  | .ok (i, node) =>
    match fs.entries dir'.ino with
    | none => .error .ENOTDIR
    | some entries =>
      if entries.lookup n' = some i then .ok ((), fs)
      else if !fs.alive dir'.ino then .error .ENOENT
      else
        let target := (entries.lookup n').bind fs.node
        if node.isDirectory then fs.renameDirectory i dir n dir' n' target
        else if target.any Node.isDirectory then .error .EISDIR
        else .ok ((), (fs.detach dir.ino n).attach dir'.ino n' i)

def link (dir : Handle) (n : Name) (dir' : Handle) (n' : Name) : Except Errno (Unit × Disk) :=
  match fs.child dir n, fs.vacant dir' n' with
  | .error e, _ => .error e
  | .ok _, .error e => .error e
  | .ok (i, node), .ok () => if node.isDirectory then .error .EPERM else .ok ((), fs.attach dir'.ino n' i)

/-- A name that leads to no directory is removed. -/
def unlink (dir : Handle) (n : Name) : Except Errno (Unit × Disk) :=
  match fs.child dir n with
  | .error e => .error e
  | .ok (_, node) => if node.isDirectory then .error .EISDIR else .ok ((), fs.detach dir.ino n)

/-- A name that leads to an empty directory is removed. -/
def rmdir (dir : Handle) (n : Name) : Except Errno (Unit × Disk) :=
  match fs.child dir n with
  | .error e => .error e
  | .ok (_, node) =>
    match node.kind with
    | .dir _ _ entries => if entries.keys.isEmpty then .ok ((), fs.detach dir.ino n) else .error .ENOTEMPTY
    | _ => .error .ENOTDIR

/-- A name that is not there counts as removed. -/
def rm (dir : Handle) (n : Name) : Except Errno (Unit × Disk) :=
  match fs.unlink dir n with
  | .error .ENOENT => .ok ((), fs)
  | r => r

/-- What a call does. -/
def exec : {β : Type} → Syscall β → Disk → Except Errno (β × Disk)
  | _, .openDirectory path, fs => fs.openDirectory path
  | _, .openDirectoryAt dir n, fs =>
    (fs.child dir n).bind fun c => if c.2.isDirectory then .ok (⟨c.1⟩, fs) else .error .ENOTDIR
  | _, .openFileAt dir n, fs =>
    (fs.child dir n).bind fun c => if c.2.isLink then .error .ELOOP else .ok (⟨c.1⟩, fs)
  | _, .fstat file, fs => ((fs.node file.ino).elim (.error .other) fun node => .ok (node.stat, fs))
  | _, .realpath dir, fs =>
    ((fs.locate (fs.nodes.keys.length + 1) dir.ino).elim (.error .ENOENT) fun place => .ok (place, fs))
  | _, .getfacl dir, fs => ((fs.node dir.ino).elim (.error .other) fun node => .ok (node.isolated, fs))
  | _, .lstat dir n, fs => (fs.child dir n).bind fun c => .ok (c.2.stat, fs)
  | _, .statfs _, fs => .ok (fs.free, fs)
  | _, .mkdir dir n isolated, fs =>
    (fs.vacant dir n).bind fun _ =>
      .ok ((), fs.addNode dir n ⟨.dir dir.ino n ∅, 0, 0, isolated && (fs.node dir.ino).any Node.isolated⟩)
  | _, .create dir n, fs =>
    (fs.vacant dir n).bind fun _ => .ok (⟨fs.fresh⟩, fs.addNode dir n ⟨.file [], 0, 0, false⟩)
  | _, .write file bytes, fs => fs.setBytes file.ino fun before => before ++ bytes
  | _, .copyData source file, fs =>
    match fs.bytes source.ino with
    | some bytes => fs.setBytes file.ino fun _ => bytes
    | none => .error .other
  | _, .link dir n dir' n', fs => fs.link dir n dir' n'
  | _, .rename dir n dir' n', fs => fs.rename dir n dir' n'
  | _, .unlink dir n, fs => fs.unlink dir n
  | _, .rmdir dir n, fs => fs.rmdir dir n
  | _, .rm dir n, fs => fs.rm dir n
  | _, .close _, fs => .ok ((), fs)

end Disk

/-- The calls on a file system. -/
def posix : Backend Syscall Errno Disk := ⟨Disk.exec⟩

/-! ## What a node holds -/

/-- A node without the entries of a directory. -/
def Node.shape (node : Node) : Kind :=
  match node.kind with
  | .dir _ _ _ => .dir 0 [] ∅
  | kind => kind

def Disk.shape (fs : Disk) (i : Ino) : Option Kind := (fs.node i).map Node.shape

section Shape

variable {fs fs' : Disk} {node : Node} {i d j : Ino} {n : Name}

theorem Node.shape_withEntries (f : KeyedMap Name Ino → KeyedMap Name Ino) :
    (node.withEntries f).shape = node.shape := by
  rcases hkind : node.kind with _ | _ | _ | _ <;> simp [Node.shape, Node.withEntries, hkind]

theorem isDir_of_shape (h : fs'.shape i = fs.shape i) : fs'.isDir i = fs.isDir i := by
  have key : ∀ fs : Disk, fs.isDir i = (fs.shape i).any fun kind => kind matches .dir _ _ _ := by
    intro fs
    rw [Disk.isDir, Disk.entries, Disk.kind, Disk.shape]
    rcases fs.node i with _ | node
    · rfl
    · rcases hkind : node.kind with _ | _ | _ | _ <;> simp [Node.shape, hkind]
  rw [key, key, h]

theorem bytes_of_shape (h : fs'.shape i = fs.shape i) : fs'.bytes i = fs.bytes i := by
  have key : ∀ fs : Disk, fs.bytes i = (fs.shape i).bind fun kind =>
      match kind with
      | .file bytes => some bytes
      | _ => none := by
    intro fs
    rw [Disk.bytes, Disk.kind, Disk.shape]
    rcases fs.node i with _ | node
    · rfl
    · rcases hkind : node.kind with _ | _ | _ | _ <;> simp [Node.shape, hkind]
  rw [key, key, h]

theorem isDir_of_node (h : fs.node i = some node) : fs.isDir i = node.isDirectory := by
  rw [Disk.isDir, Disk.entries, Disk.kind, h, Node.isDirectory]
  rcases hkind : node.kind with _ | _ | _ | _ <;> simp [hkind]

theorem bytes_of_isFile (h : fs.node i = some node) (hfile : node.isFile = true) :
    ∃ bytes, fs.bytes i = some bytes ∧ fs.shape i = some (.file bytes) := by
  rw [Disk.bytes, Disk.kind, Disk.shape, h]
  rw [Node.isFile] at hfile
  rcases hkind : node.kind with bytes | _ | _ | _ <;> rw [hkind] at hfile
  · exact ⟨bytes, by simp [hkind], by simp [Node.shape, hkind]⟩
  all_goals exact absurd hfile nofun

end Shape

/-! ## Entries afterwards -/

section Entries

variable {fs fs' : Disk} {node node' : Node} {i d d' j : Ino} {n n' : Name}
  {f : KeyedMap Name Ino → KeyedMap Name Ino}

theorem node_setNode : (fs.setNode i node).node j = if j = i then some node else fs.node j := by
  rw [Disk.node, Disk.setNode]
  split
  · rename_i h
    rw [h]
    exact AList.lookup_insert _
  · rename_i h
    exact AList.lookup_insert_ne h

/-- The entries that a node has. -/
def Node.entries (node : Node) : Option (KeyedMap Name Ino) :=
  match node.kind with
  | .dir _ _ entries => some entries
  | _ => none

theorem entries_eq : fs.entries d = (fs.node d).bind Node.entries := by
  rw [Disk.entries, Disk.kind]
  rcases fs.node d with _ | node
  · rfl
  · rcases hkind : node.kind with _ | _ | _ | _ <;> simp [Node.entries, hkind]

theorem entries_setNode : (fs.setNode i node).entries d = if d = i then node.entries else fs.entries d := by
  rw [entries_eq, entries_eq, node_setNode]
  split
  · rfl
  · rfl

theorem shape_setNode : (fs.setNode i node).shape j = if j = i then some node.shape else fs.shape j := by
  rw [Disk.shape, Disk.shape, node_setNode]
  split
  · rfl
  · rfl

theorem entries_withEntries : (node.withEntries f).entries = node.entries.map f := by
  rcases hkind : node.kind with _ | _ | _ | _ <;> simp [Node.entries, Node.withEntries, hkind]

@[simp] theorem shape_setEntries : (fs.setEntries d f).shape j = fs.shape j := by
  rw [Disk.setEntries]
  split
  · rename_i node h
    rw [shape_setNode]
    split
    · rename_i hj
      rw [hj, Node.shape_withEntries, Disk.shape, h]
      rfl
    · rfl
  · rfl

theorem entries_setEntries :
    (fs.setEntries d f).entries d' = if d' = d then (fs.entries d).map f else fs.entries d' := by
  rw [Disk.setEntries]
  rcases h : fs.node d with _ | node
  · simp only
    split
    · rename_i hd
      rw [hd, entries_eq, h]
      rfl
    · rfl
  · have he : fs.entries d = node.entries := by
      rw [entries_eq, h]
      rfl
    simp only
    rw [entries_setNode, entries_withEntries, he]

@[simp] theorem root_setEntries : (fs.setEntries d f).root = fs.root := by
  rw [Disk.setEntries]
  split
  · rfl
  · rfl

@[simp] theorem shape_attach : (fs.attach d n i).shape j = fs.shape j := shape_setEntries

@[simp] theorem shape_detach : (fs.detach d n).shape j = fs.shape j := shape_setEntries

@[simp] theorem root_attach : (fs.attach d n i).root = fs.root := root_setEntries

@[simp] theorem root_detach : (fs.detach d n).root = fs.root := root_setEntries

/-- **An entry is made.** -/
theorem entry_attach (hdir : fs.isDir d = true) :
    (fs.attach d n i).entry d' n' = if d' = d ∧ n' = n then some i else fs.entry d' n' := by
  rw [Disk.entry, Disk.entry, Disk.attach, entries_setEntries]
  obtain ⟨entries, he⟩ := Option.isSome_iff_exists.mp hdir
  by_cases hd : d' = d
  · rw [if_pos hd, hd, he]
    simp only [Option.map_some, Option.bind_some, true_and]
    split
    · rename_i hn
      rw [hn, AList.lookup_insert]
    · rename_i hn
      exact AList.lookup_insert_ne hn
  · rw [if_neg hd, if_neg fun h => hd h.1]

/-- **An entry is removed.** -/
theorem entry_detach :
    (fs.detach d n).entry d' n' = if d' = d ∧ n' = n then none else fs.entry d' n' := by
  rw [Disk.entry, Disk.entry, Disk.detach, entries_setEntries]
  by_cases hd : d' = d
  · rw [if_pos hd, hd]
    rcases fs.entries d with _ | entries
    · simp
    · simp only [Option.map_some, Option.bind_some, true_and]
      split
      · rename_i hn
        rw [hn]
        exact AList.lookup_erase _ _
      · rename_i hn
        exact AList.lookup_erase_ne hn
  · rw [if_neg hd, if_neg fun h => hd h.1]

theorem fresh_not_mem : fs.fresh ∉ fs.nodes := by
  intro hmem
  have hle : ∀ keys : List Nat, fs.fresh ∈ keys → fs.fresh ≤ keys.foldr max 0 := by
    intro keys hkeys
    induction keys with
    | nil => exact absurd hkeys List.not_mem_nil
    | cons k keys ih =>
      rw [List.foldr_cons]
      rcases List.mem_cons.mp hkeys with rfl | hkeys
      · exact le_max_left _ _
      · exact (ih hkeys).trans (le_max_right _ _)
  have hmax : fs.fresh ≤ fs.nodes.keys.foldr max 0 := hle _ hmem
  exact absurd hmax (Nat.not_le.mpr (Nat.lt_succ_self _))

theorem node_fresh : fs.node fs.fresh = none := AList.lookup_eq_none.mpr fresh_not_mem

theorem shape_fresh : fs.shape fs.fresh = none := by
  rw [Disk.shape, node_fresh]
  rfl

theorem isDir_of_entry (h : fs.entry d n = some i) : fs.isDir d = true := by
  obtain ⟨entries, he⟩ := entries_of_entry h
  rw [Disk.isDir, he]
  rfl

/-- What a name leads to, where the directory has it. -/
theorem child_eq_ok {dir : Handle} {c : Ino × Node} :
    fs.child dir n = .ok c ↔ fs.entry dir.ino n = some c.1 ∧ fs.node c.1 = some c.2 := by
  obtain ⟨i, node⟩ := c
  rw [Disk.child, Disk.entry]
  rcases fs.entries dir.ino with _ | entries
  · simp
  rcases hi : entries.lookup n with _ | j
  · simp [hi]
  rcases hj : fs.node j with _ | node'
  · simp only [hi, hj, Option.bind_some]
    constructor
    · rintro ⟨⟩
    · rintro ⟨h, h'⟩
      obtain rfl := Option.some.inj h
      cases hj.symm.trans h'
  · simp only [hi, hj, Option.bind_some]
    constructor
    · intro h
      obtain ⟨rfl, rfl⟩ := Prod.mk.inj (Except.ok.inj h)
      exact ⟨rfl, hj⟩
    · rintro ⟨h, h'⟩
      obtain rfl := Option.some.inj h
      obtain rfl := Option.some.inj (hj.symm.trans h')
      rfl

/-- A name that a directory does not have. -/
theorem vacant_eq_ok {dir : Handle} (h : fs.vacant dir n = .ok ()) :
    fs.isDir dir.ino = true ∧ fs.entry dir.ino n = none := by
  rw [Disk.vacant] at h
  rw [Disk.isDir, Disk.entry]
  rcases hentries : fs.entries dir.ino with _ | entries <;> rw [hentries] at h
  · cases h
  simp only at h
  split at h
  · cases h
  · rename_i hnone
    exact ⟨rfl, by simpa using hnone⟩

section AddNode

variable {dir : Handle}

theorem shape_addNode : (fs.addNode dir n node).shape j = if j = fs.fresh then some node.shape else fs.shape j := by
  rw [Disk.addNode, shape_attach, shape_setNode]

@[simp] theorem root_addNode : (fs.addNode dir n node).root = fs.root := by
  rw [Disk.addNode, root_attach]
  rfl

/-- A new node that has no entries gets a name. -/
theorem entry_addNode (hdir : fs.isDir dir.ino = true) (hempty : ∀ entries, node.entries = some entries → entries = ∅) :
    (fs.addNode dir n node).entry d' n' = if d' = dir.ino ∧ n' = n then some fs.fresh else fs.entry d' n' := by
  have hne : dir.ino ≠ fs.fresh := by
    intro heq
    rw [heq, Disk.isDir, entries_eq, node_fresh] at hdir
    cases hdir
  have hentries : ∀ d, (fs.setNode fs.fresh node).entries d = if d = fs.fresh then node.entries else fs.entries d :=
    fun d => entries_setNode
  rw [Disk.addNode, entry_attach (by rw [Disk.isDir, hentries, if_neg hne]; exact hdir)]
  congr 1
  rw [Disk.entry, Disk.entry, hentries]
  split
  · rename_i hd
    -- neither the new node nor what had its number before has entries
    rw [hd, entries_eq, node_fresh]
    rcases hnode : node.entries with _ | entries
    · rfl
    · rw [hempty entries hnode]
      rfl
  · rfl

end AddNode

/-- The bytes of a file become others, and nothing else. -/
theorem setBytes_eq_ok {g : List UInt8 → List UInt8} (h : fs.setBytes i g = .ok ((), fs')) :
    ∃ bytes, fs.bytes i = some bytes ∧ fs'.root = fs.root ∧ (∀ d n, fs'.entry d n = fs.entry d n) ∧
      ∀ j, fs'.shape j = if j = i then some (.file (g bytes)) else fs.shape j := by
  rw [Disk.setBytes] at h
  split at h
  · rename_i node hnode
    split at h
    · rename_i bytes hkind
      obtain ⟨-, rfl⟩ := Prod.mk.inj (Except.ok.inj h)
      refine ⟨bytes, ?_, rfl, fun d n => ?_, fun j => shape_setNode⟩
      · rw [Disk.bytes, Disk.kind, hnode, Option.map_some, hkind]
      · rw [Disk.entry, Disk.entry, entries_setNode]
        split
        · rename_i hd
          rw [hd, entries_eq, hnode, Option.bind_some, Node.entries, Node.entries, hkind]
        · rfl
    · cases h
  · cases h

/-- **A directory stays where it is** while all directories keep the entries that lead to directories. -/
theorem follow_of_entries {place : Location} (hroot : fs'.root = fs.root)
    (hentries : ∀ d n i, fs.entry d n = some i → fs.isDir i = true → fs'.entry d n = some i)
    (h : fs.follow place = some d) (hdir : fs.isDir d = true) : fs'.follow place = some d := by
  induction place using List.reverseRecOn generalizing d with
  | nil =>
    obtain rfl := Option.some.inj h
    rw [follow_nil, hroot]
  | append_singleton above n ih =>
    rw [follow_snoc] at h ⊢
    obtain ⟨e, he, hentry⟩ := Option.bind_eq_some_iff.mp h
    rw [ih he (isDir_of_entry hentry), Option.bind_some]
    exact hentries e n d hentry hdir

/-- All nodes hold what they held, and every name that led to a directory leads there. -/
structure Disk.Keeps (fs fs' : Disk) : Prop where
  root : fs'.root = fs.root
  shape : ∀ j, fs'.shape j = fs.shape j
  entry : ∀ d n i, fs.entry d n = some i → fs.isDir i = true → fs'.entry d n = some i

theorem Disk.Keeps.refl (fs : Disk) : fs.Keeps fs := ⟨rfl, fun _ => rfl, fun _ _ _ h _ => h⟩

theorem Disk.Keeps.trans {fs'' : Disk} (h : fs.Keeps fs') (h' : fs'.Keeps fs'') : fs.Keeps fs'' where
  root := h'.root.trans h.root
  shape j := (h'.shape j).trans (h.shape j)
  entry d n i hi hdir := h'.entry d n i (h.entry d n i hi hdir) (by rw [isDir_of_shape (h.shape i), hdir])

/-- What is in a directory afterwards. -/
theorem Disk.Keeps.follow_snoc {place : Location} (h : fs.Keeps fs') (hplace : fs.follow place = some d)
    (hdir : fs.isDir d = true) : fs'.follow (place ++ [n]) = fs'.entry d n := by
  rw [Posix.follow_snoc, follow_of_entries h.root h.entry hplace hdir, Option.bind_some]

theorem keeps_attach (hdir : fs.isDir d = true) (hold : ∀ j, fs.entry d n = some j → fs.isDir j = false) :
    fs.Keeps (fs.attach d n i) where
  root := root_attach
  shape _ := shape_attach
  entry d' n' j hj hj' := by
    rw [entry_attach hdir, if_neg, hj]
    rintro ⟨rfl, rfl⟩
    exact absurd hj' (by rw [hold j hj]; exact Bool.false_ne_true)

theorem keeps_detach (hold : ∀ j, fs.entry d n = some j → fs.isDir j = false) : fs.Keeps (fs.detach d n) where
  root := root_detach
  shape _ := shape_detach
  entry d' n' j hj hj' := by
    rw [entry_detach, if_neg, hj]
    rintro ⟨rfl, rfl⟩
    exact absurd hj' (by rw [hold j hj]; exact Bool.false_ne_true)

end Entries

/-! ## What is known when a call takes effect -/

section Calls

variable {fs fs' : Disk} {dir dir' file source : Handle} {n n' : Name} {i : Ino}

/-- A directory that is opened by a path without links is the one there. -/
theorem openDirectory_eq_ok {path : Location} (hpath : ∀ n ∈ path, n.Valid)
    (h : Disk.exec (.openDirectory path) fs = .ok (dir, fs')) :
    fs' = fs ∧ fs.isDir dir.ino = true ∧ (fs.Place path → fs.follow path = some dir.ino) := by
  change fs.openDirectory path = _ at h
  rw [Disk.openDirectory] at h
  rcases hresolve : fs.resolve path.dropLast with e | place <;> rw [hresolve] at h
  · cases h
  simp only at h
  rcases hnext : fs.next place (path.getLastD []) with e | place' | _ <;> rw [hnext] at h
  · cases h
  · simp only at h
    rcases hfollow : fs.follow place' with _ | i <;> rw [hfollow] at h
    · cases h
    simp only at h
    split at h
    · rename_i hdir
      obtain ⟨rfl, rfl⟩ := Prod.mk.inj (Except.ok.inj h)
      refine ⟨rfl, hdir, fun hplace => ?_⟩
      rcases List.eq_nil_or_concat path with rfl | ⟨above, n, rfl⟩
      · have hnil : place = [] := by
          cases hlinks : fs.links <;> rw [Disk.resolve, hlinks] at hresolve <;>
            exact (Except.ok.inj hresolve).symm
        rw [hnil, Disk.next] at hnext
        split at hnext
        · cases hnext
        · obtain rfl := Disk.Next.goes.inj hnext
          exact hfollow
      · rw [List.concat_eq_append] at hpath hplace hresolve hnext ⊢
        rw [List.dropLast_concat] at hresolve
        rw [List.getLastD_concat] at hnext
        obtain ⟨j, hj, hreal⟩ := hplace
        obtain ⟨e, entries, he, hentries⟩ := follow_above hj
        have habove : ∀ n ∈ above, n.Valid := fun m hm => hpath m (List.mem_append_left _ hm)
        obtain rfl : place = above := by
          rw [Disk.resolve, walk_real habove ⟨e, he, real_of_entries hentries⟩] at hresolve
          exact (Except.ok.inj hresolve).symm
        rw [follow_snoc, he, Option.bind_some, entry_of_entries hentries] at hj
        rw [next_of_entry (hpath n (by simp)) he hentries hj hreal] at hnext
        obtain rfl := Disk.Next.goes.inj hnext
        exact hfollow
    · cases h
  · cases h

theorem openDirectoryAt_eq_ok (h : Disk.exec (.openDirectoryAt dir n) fs = .ok (file, fs')) :
    fs' = fs ∧ fs.entry dir.ino n = some file.ino ∧ fs.isDir file.ino = true := by
  change (fs.child dir n).bind _ = _ at h
  rcases hchild : fs.child dir n with e | ⟨i, node⟩ <;> rw [hchild] at h
  · cases h
  obtain ⟨hentry, hnode⟩ := child_eq_ok.mp hchild
  change (if node.isDirectory = true then _ else _) = _ at h
  split at h
  · rename_i hdir
    obtain ⟨rfl, rfl⟩ := Prod.mk.inj (Except.ok.inj h)
    exact ⟨rfl, hentry, (isDir_of_node hnode).trans hdir⟩
  · cases h

theorem openFileAt_eq_ok (h : Disk.exec (.openFileAt dir n) fs = .ok (file, fs')) :
    fs' = fs ∧ fs.entry dir.ino n = some file.ino := by
  change (fs.child dir n).bind _ = _ at h
  rcases hchild : fs.child dir n with e | ⟨i, node⟩ <;> rw [hchild] at h
  · cases h
  obtain ⟨hentry, -⟩ := child_eq_ok.mp hchild
  change (if node.isLink = true then _ else _) = _ at h
  split at h
  · cases h
  · obtain ⟨rfl, rfl⟩ := Prod.mk.inj (Except.ok.inj h)
    exact ⟨rfl, hentry⟩

theorem fstat_eq_ok {stat : Stat} (h : Disk.exec (.fstat file) fs = .ok (stat, fs')) :
    fs' = fs ∧ ∃ node, fs.node file.ino = some node ∧ stat = node.stat := by
  change (fs.node file.ino).elim _ _ = _ at h
  rcases hnode : fs.node file.ino with _ | node <;> rw [hnode] at h
  · cases h
  · obtain ⟨rfl, rfl⟩ := Prod.mk.inj (Except.ok.inj h)
    exact ⟨rfl, node, rfl, rfl⟩

/-- A directory is where its path says. -/
theorem realpath_eq_ok {place : Location} (h : Disk.exec (.realpath dir) fs = .ok (place, fs')) :
    fs' = fs ∧ fs.follow place = some dir.ino := by
  change (fs.locate _ _).elim _ _ = _ at h
  rcases hplace : fs.locate (fs.nodes.keys.length + 1) dir.ino with _ | place' <;> rw [hplace] at h
  · cases h
  · obtain ⟨rfl, rfl⟩ := Prod.mk.inj (Except.ok.inj h)
    exact ⟨rfl, locate_follow hplace⟩

theorem getfacl_eq_ok {acl : Bool} (h : Disk.exec (.getfacl dir) fs = .ok (acl, fs')) : fs' = fs := by
  change (fs.node dir.ino).elim _ _ = _ at h
  rcases hnode : fs.node dir.ino with _ | node <;> rw [hnode] at h
  · cases h
  · exact (Prod.mk.inj (Except.ok.inj h)).2.symm

theorem lstat_eq_ok {stat : Stat} (h : Disk.exec (.lstat dir n) fs = .ok (stat, fs')) :
    fs' = fs ∧ ∃ i node, fs.entry dir.ino n = some i ∧ fs.node i = some node ∧ stat = node.stat := by
  change (fs.child dir n).bind _ = _ at h
  rcases hchild : fs.child dir n with e | ⟨i, node⟩ <;> rw [hchild] at h
  · cases h
  obtain ⟨hentry, hnode⟩ := child_eq_ok.mp hchild
  obtain ⟨rfl, rfl⟩ := Prod.mk.inj (Except.ok.inj h)
  exact ⟨rfl, i, node, hentry, hnode, rfl⟩

theorem statfs_eq_ok {free : Nat} (h : Disk.exec (.statfs dir) fs = .ok (free, fs')) : fs' = fs :=
  (Prod.mk.inj (Except.ok.inj h)).2.symm

theorem close_eq_ok {u : Unit} (h : Disk.exec (.close file) fs = .ok (u, fs')) : fs' = fs :=
  (Prod.mk.inj (Except.ok.inj h)).2.symm

/-- What a call adds that makes a node: the name was free, and leads to the new node. -/
structure Disk.Made (fs fs' : Disk) (dir : Handle) (n : Name) (kind : Kind) : Prop where
  isDir : fs.isDir dir.ino = true
  vacant : fs.entry dir.ino n = none
  root : fs'.root = fs.root
  entry : ∀ d' n', fs'.entry d' n' = if d' = dir.ino ∧ n' = n then some fs.fresh else fs.entry d' n'
  shape : ∀ j, fs'.shape j = if j = fs.fresh then some kind else fs.shape j

theorem mkdir_eq_ok {isolated : Bool} {u : Unit} (h : Disk.exec (.mkdir dir n isolated) fs = .ok (u, fs')) :
    Disk.Made fs fs' dir n (.dir 0 [] ∅) := by
  change (fs.vacant dir n).bind _ = _ at h
  rcases hvacant : fs.vacant dir n with e | ⟨⟩ <;> rw [hvacant] at h
  · cases h
  obtain ⟨hdir, hnone⟩ := vacant_eq_ok hvacant
  obtain ⟨-, rfl⟩ := Prod.mk.inj (Except.ok.inj h)
  refine ⟨hdir, hnone, root_addNode, fun d' n' => entry_addNode hdir ?_, fun j => shape_addNode⟩
  intro entries he
  exact (Option.some.inj he).symm

theorem create_eq_ok (h : Disk.exec (.create dir n) fs = .ok (file, fs')) :
    file = ⟨fs.fresh⟩ ∧ Disk.Made fs fs' dir n (.file []) := by
  change (fs.vacant dir n).bind _ = _ at h
  rcases hvacant : fs.vacant dir n with e | ⟨⟩ <;> rw [hvacant] at h
  · cases h
  obtain ⟨hdir, hnone⟩ := vacant_eq_ok hvacant
  obtain ⟨rfl, rfl⟩ := Prod.mk.inj (Except.ok.inj h)
  refine ⟨rfl, hdir, hnone, root_addNode, fun d' n' => entry_addNode hdir ?_, fun j => shape_addNode⟩
  exact nofun

theorem write_eq_ok {bytes : List UInt8} {u : Unit} (h : Disk.exec (.write file bytes) fs = .ok (u, fs')) :
    ∃ before, fs.bytes file.ino = some before ∧ fs'.root = fs.root ∧
      (∀ d n, fs'.entry d n = fs.entry d n) ∧
      ∀ j, fs'.shape j = if j = file.ino then some (.file (before ++ bytes)) else fs.shape j :=
  setBytes_eq_ok h

theorem copyData_eq_ok {u : Unit} (h : Disk.exec (.copyData source file) fs = .ok (u, fs')) :
    ∃ bytes, fs.bytes source.ino = some bytes ∧ fs'.root = fs.root ∧
      (∀ d n, fs'.entry d n = fs.entry d n) ∧
      ∀ j, fs'.shape j = if j = file.ino then some (.file bytes) else fs.shape j := by
  change (match fs.bytes source.ino with
    | some bytes => fs.setBytes file.ino fun _ => bytes
    | none => .error .other) = _ at h
  rcases hbytes : fs.bytes source.ino with _ | bytes <;> rw [hbytes] at h
  · cases h
  · obtain ⟨-, -, hall⟩ := setBytes_eq_ok h
    exact ⟨bytes, rfl, hall⟩

theorem link_eq_ok {u : Unit} (h : Disk.exec (.link dir n dir' n') fs = .ok (u, fs')) :
    ∃ i, fs.entry dir.ino n = some i ∧ fs.isDir i = false ∧ fs.isDir dir'.ino = true ∧
      fs.entry dir'.ino n' = none ∧ fs' = fs.attach dir'.ino n' i := by
  change fs.link dir n dir' n' = _ at h
  rw [Disk.link] at h
  rcases hchild : fs.child dir n with e | ⟨i, node⟩ <;> rw [hchild] at h
  · cases h
  rcases hvacant : fs.vacant dir' n' with e | ⟨⟩ <;> rw [hvacant] at h
  · cases h
  obtain ⟨hentry, hnode⟩ := child_eq_ok.mp hchild
  obtain ⟨hdir, hnone⟩ := vacant_eq_ok hvacant
  simp only at h
  split at h
  · cases h
  · rename_i hno
    obtain ⟨-, rfl⟩ := Prod.mk.inj (Except.ok.inj h)
    refine ⟨i, hentry, ?_, hdir, hnone, rfl⟩
    rw [isDir_of_node hnode]
    exact Bool.eq_false_iff.mpr hno

/-- A file that gets another name: nothing happens where that leads to it already. -/
theorem rename_eq_ok {u : Unit} (h : Disk.exec (.rename dir n dir' n') fs = .ok (u, fs'))
    (hentry : fs.entry dir.ino n = some i) (hfile : fs.isDir i = false) :
    fs.entry dir'.ino n' = some i ∧ fs' = fs ∨
      fs.entry dir'.ino n' ≠ some i ∧ fs.isDir dir'.ino = true ∧
        (∀ j, fs.entry dir'.ino n' = some j → fs.isDir j = false) ∧
        fs' = (fs.detach dir.ino n).attach dir'.ino n' i := by
  change fs.rename dir n dir' n' = _ at h
  rw [Disk.rename] at h
  rcases hchild : fs.child dir n with e | ⟨i', node⟩ <;> rw [hchild] at h
  · cases h
  obtain ⟨hentry', hnode⟩ := child_eq_ok.mp hchild
  obtain rfl := Option.some.inj (hentry.symm.trans hentry')
  simp only at h
  rcases hentries : fs.entries dir'.ino with _ | entries <;> rw [hentries] at h
  · cases h
  have hlookup : fs.entry dir'.ino n' = entries.lookup n' := entry_of_entries hentries
  rw [hlookup]
  simp only at h
  split at h
  · rename_i hsame
    exact .inl ⟨hsame, ((Prod.mk.inj (Except.ok.inj h)).2).symm⟩
  rename_i hother
  split at h
  · cases h
  rw [if_neg (by rw [← isDir_of_node hnode, hfile]; exact Bool.false_ne_true)] at h
  split at h
  · cases h
  · rename_i hno
    refine .inr ⟨hother, by rw [Disk.isDir, hentries]; rfl, fun j hj => ?_,
      ((Prod.mk.inj (Except.ok.inj h)).2).symm⟩
    rw [hj, Option.bind_some] at hno
    rcases hnode' : fs.node j with _ | node'
    · rw [Disk.isDir, entries_eq, hnode']
      rfl
    · rw [hnode'] at hno
      rw [isDir_of_node hnode']
      simpa using hno

theorem unlink_eq_ok {u : Unit} (h : Disk.exec (.unlink dir n) fs = .ok (u, fs')) :
    ∃ i, fs.entry dir.ino n = some i ∧ fs.isDir i = false ∧ fs' = fs.detach dir.ino n := by
  change fs.unlink dir n = _ at h
  rw [Disk.unlink] at h
  rcases hchild : fs.child dir n with e | ⟨i, node⟩ <;> rw [hchild] at h
  · cases h
  obtain ⟨hentry, hnode⟩ := child_eq_ok.mp hchild
  simp only at h
  split at h
  · cases h
  · rename_i hno
    refine ⟨i, hentry, ?_, ((Prod.mk.inj (Except.ok.inj h)).2).symm⟩
    rw [isDir_of_node hnode]
    exact Bool.eq_false_iff.mpr hno

/-- A name is removed, or it was not there. -/
theorem rm_eq_ok {u : Unit} (h : Disk.exec (.rm dir n) fs = .ok (u, fs')) :
    (∃ i, fs.entry dir.ino n = some i ∧ fs.isDir i = false ∧ fs' = fs.detach dir.ino n) ∨
      fs' = fs ∧ ∀ i, fs.entry dir.ino n = some i → fs.shape i = none := by
  change fs.rm dir n = _ at h
  rw [Disk.rm] at h
  rcases hunlink : fs.unlink dir n with e | ⟨u', fs''⟩
  · rw [hunlink] at h
    cases e
    case ENOENT =>
      refine .inr ⟨((Prod.mk.inj (Except.ok.inj h)).2).symm, fun i hi => ?_⟩
      -- a node that is there would have been removed, or is a directory
      by_contra hsome
      obtain ⟨node, hnode⟩ : ∃ node, fs.node i = some node := by
        rcases hn : fs.node i with _ | node
        · exact absurd (by rw [Disk.shape, hn]; rfl) hsome
        · exact ⟨node, rfl⟩
      rw [Disk.unlink, (child_eq_ok (c := (i, node))).mpr ⟨hi, hnode⟩] at hunlink
      simp only at hunlink
      split at hunlink <;> cases hunlink
    all_goals cases h
  · rw [hunlink] at h
    obtain ⟨-, rfl⟩ := Prod.mk.inj (Except.ok.inj h)
    exact .inl (unlink_eq_ok (u := u') hunlink)

end Calls

end Posix
