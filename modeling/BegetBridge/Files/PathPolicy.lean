import BegetBridge.Posix.Disk
import BegetBridge.Terminal.Session

/-!
# The path policy

The roots that are configured, and what the policy makes of a path: the canonical path to read at, or the
reference to a name below a root for a mutation.

A path of the code is text. Here a normal absolute path is the list of its names, and the comparisons of
texts are those of the names.

## Main definitions

* `PathPolicy.resolve`: the path to read at
* `PathPolicy.mutation`: the reference for a mutation
* `assertNoDangerousOverlap`: two references of which one is above the other

## Main results

* `resolve_eq_ok`: what is known of a path that is accepted
* `mutation_eq_ok`: what is known of a reference
-/

namespace BegetBridge.Files

open Posix
open Terminal (BridgeError)

/-- A normal absolute path. -/
abbrev NormalPath := { path : Location // ∀ n ∈ path, n.Valid }

/-- A root: the path that is configured, and where it leads to. -/
structure Root where
  path : Location
  canonical : Location
  path_valid : ∀ n ∈ path, n.Valid
  canonical_valid : ∀ n ∈ canonical, n.Valid
  deriving DecidableEq

/-- `PathPolicy`. The first root is there. -/
structure PathPolicy where
  first : Root
  others : List Root
  /-- `workspaceSharing === "ipc-group"` -/
  shared : Bool

namespace PathPolicy

def roots (policy : PathPolicy) : List Root := policy.first :: policy.others

end PathPolicy

def invalidConfig (message : String) : BridgeError := ⟨"invalid_config", message, 500⟩

def invalidPath (message : String) : BridgeError := ⟨"invalid_path", message, 400⟩

def pathNotAllowed (message : String) : BridgeError := ⟨"path_not_allowed", message, 403⟩

def protectedWorkspaceRoot : BridgeError :=
  ⟨"protected_workspace_root", "Configured workspace root cannot be mutated", 403⟩

/-! ## The constructor -/

/-- `path.resolve(root)` in the working directory. -/
def resolvePath (cwd : NormalPath) (text : List Char) : NormalPath :=
  ⟨normalize (if isAbsolute text then [] else cwd.1) (segments text), by
    refine normalize_valid ?_ fun n hn => slash_not_mem_segments hn
    split
    · exact fun _ hn => absurd hn List.not_mem_nil
    · exact cwd.2⟩

/-- A root with what `realpathSync` makes of it. -/
def configureRoot (fs : Disk) (cwd : NormalPath) (root : List Char) : Except BridgeError Root :=
  let path := resolvePath cwd root
  match h : fs.realpath path.1 with
  | .ok canonical => .ok ⟨path.1, canonical, path.2,
      walk_valid (fun _ hn => absurd hn List.not_mem_nil) (fun n hn => (path.2 n hn).2.2.2) h⟩
  | .error _ => .error (invalidConfig ("Allowed root does not exist: " ++ String.ofList root))

/-- A shared workspace is an isolated directory, and configured where it is. -/
def sharedRoot (fs : Disk) (root : Root) : Bool :=
  root.path == root.canonical &&
    match fs.follow root.canonical with
    | some i => fs.isDir i && (fs.node i).any Node.isolated
    | none => false

/-- `new PathPolicy(roots, { workspaceSharing })` -/
def PathPolicy.configure (fs : Disk) (cwd : NormalPath) (roots : List (List Char)) (shared : Bool) :
    Except BridgeError PathPolicy := do
  match ← roots.mapM (configureRoot fs cwd) with
  | [] => throw (invalidConfig "At least one allowed root is required")
  | first :: others =>
    if shared && !(first :: others).all (sharedRoot fs) then
      throw (invalidConfig "Shared workspace requires an isolated group and private setgid root")
    else return ⟨first, others, shared⟩

/-! ## Paths to read at -/

/-- The candidate as a normal absolute path. -/
def PathPolicy.absolute (policy : PathPolicy) (candidate : List Char) : Location :=
  (resolvePath ⟨policy.first.path, policy.first.path_valid⟩ candidate).1

/-- The way up from a path, its last name first, to what exists: that, and the names that are missing. -/
def nearest (fs : Disk) : List Name → List Name → Location × List Name
  | [], missing => ([], missing)
  | name :: above, missing =>
    if fs.existsAt (name :: above).reverse then ((name :: above).reverse, missing)
    else nearest fs above (name :: missing)

/-- What exists of a path, and what is missing. -/
def existing (fs : Disk) (path : Location) : Location × List Name := nearest fs path.reverse []

/-- The path with what exists of it replaced by where that is. -/
def canonicalize (fs : Disk) (path : Location) : Location :=
  let parts := existing fs path
  match fs.realpath parts.1 with
  | .ok canonical => (if fs.existsAt parts.1 then canonical else parts.1) ++ parts.2
  | .error _ => parts.1 ++ parts.2

/-- `resolve(candidate)` -/
def PathPolicy.resolve (policy : PathPolicy) (fs : Disk) (candidate : List Char) :
    Except BridgeError Location :=
  if candidate = [] then .error (invalidPath "Path must be a non-empty string")
  else
    let resolved := policy.absolute candidate
    let canonical := canonicalize fs resolved
    if !policy.roots.any fun root => isWithin resolved root.path then
      .error (pathNotAllowed "Path is outside configured roots")
    else if !policy.roots.any fun root => isWithin canonical root.canonical then
      .error (pathNotAllowed "Path resolves outside configured roots")
    else .ok canonical

/-! ## References for mutations -/

/-- A name below a root, by the names that lead there. -/
structure Reference where
  root : Location
  segments : List Name
  deriving DecidableEq

/-- `path.join(root, ...segments)` -/
def Reference.displayPath (r : Reference) : Location := r.root ++ r.segments

/-- The directory that the last name is in, by the names that lead there. -/
def Reference.parents (r : Reference) : List Name := r.segments.dropLast

/-- `segments.at(-1)` -/
def Reference.last (r : Reference) : Name := r.segments.getLastD []

/-- A root that the path is within, as it is configured or where it leads to. -/
structure RootMatch where
  root : Root
  base : Location

/-- The roots that a path is within, each by its two paths. -/
def PathPolicy.matchesOf (policy : PathPolicy) (resolved : Location) : List RootMatch :=
  policy.roots.flatMap fun root =>
    ([root.path, root.canonical].dedup.filter fun base => isWithin resolved base).map fun base => ⟨root, base⟩

/-- `matches.sort((left, right) => right.base.length - left.base.length)[0]` -/
def PathPolicy.bestMatch (policy : PathPolicy) (resolved : Location) : Option RootMatch :=
  ((policy.matchesOf resolved).insertionSort fun left right =>
    (render right.base).length ≤ (render left.base).length).head?

/-- `mutation(candidate)` -/
def PathPolicy.mutation (policy : PathPolicy) (candidate : List Char) : Except BridgeError Reference :=
  if candidate = [] then .error (invalidPath "Path must be a non-empty string")
  else
    let resolved := policy.absolute candidate
    match policy.bestMatch resolved with
    | none => .error (pathNotAllowed "Path is outside configured roots")
    | some found =>
      let relative := resolved.drop found.base.length
      if relative = [] then .error protectedWorkspaceRoot
      else if relative.any fun segment => segment.isEmpty || segment == dot || segment == dotdot then
        .error (invalidPath "Mutation path is invalid")
      else .ok ⟨found.root.canonical, relative⟩

def dangerousPathOverlap : BridgeError :=
  ⟨"dangerous_path_overlap", "Ancestor and descendant mutation paths cannot overlap", 409⟩

/-- `assertNoDangerousOverlap(source, destination)` -/
def assertNoDangerousOverlap (source destination : Reference) : Except BridgeError Unit :=
  if source.root ≠ destination.root then .ok ()
  else if source.segments = destination.segments then .ok ()
  else if source.segments.isPrefixOf destination.segments || destination.segments.isPrefixOf source.segments then
    .error dangerousPathOverlap
  else .ok ()

section Lemmas

variable {policy : PathPolicy} {fs : Disk} {candidate : List Char} {path resolved : Location}
  {reference : Reference}

/-- What the way up finds: it exists unless it is the root directory, and the next name does not. -/
theorem nearest_spec (fs : Disk) (above missing : List Name) :
    ∃ names, (nearest fs above missing).1 ++ names = above.reverse ∧
      (nearest fs above missing).2 = names ++ missing ∧
      ((nearest fs above missing).1 = [] ∨ fs.existsAt (nearest fs above missing).1 = true) ∧
      ∀ n ∈ names.head?, fs.existsAt ((nearest fs above missing).1 ++ [n]) = false := by
  -- the names that have been passed over are those that the last one passed begins
  induction above generalizing missing with
  | nil => exact ⟨[], rfl, rfl, .inl rfl, nofun⟩
  | cons name above ih =>
    rw [nearest]
    split
    · rename_i hexists
      exact ⟨[], List.append_nil _, rfl, .inr hexists, nofun⟩
    · rename_i hmissing
      obtain ⟨names, hpath, hrest, hexists, hnext⟩ := ih (name :: missing)
      refine ⟨names ++ [name], ?_, ?_, hexists, ?_⟩
      · rw [← List.append_assoc, hpath, List.reverse_cons]
      · rw [hrest, List.append_assoc]
        rfl
      · intro n hn
        cases names with
        | nil =>
          obtain rfl := Option.some.inj hn
          rw [List.append_nil] at hpath
          rw [hpath, ← List.reverse_cons, Bool.eq_false_iff]
          exact hmissing
        | cons m names =>
          obtain rfl := Option.some.inj hn
          exact hnext _ rfl

/-- **What exists of a path.** -/
theorem existing_spec (fs : Disk) (path : Location) :
    (existing fs path).1 ++ (existing fs path).2 = path ∧
    ((existing fs path).1 = [] ∨ fs.existsAt (existing fs path).1 = true) ∧
    ∀ n ∈ (existing fs path).2.head?, fs.existsAt ((existing fs path).1 ++ [n]) = false := by
  obtain ⟨names, hpath, hmissing, hexists, hnext⟩ := nearest_spec fs path.reverse []
  rw [List.reverse_reverse] at hpath
  rw [List.append_nil] at hmissing
  refine ⟨?_, hexists, ?_⟩
  · rw [existing, hmissing, hpath]
  · rw [existing, hmissing]
    exact hnext

/-- **A path that is accepted** is the canonical one, and within a root as it was given and as it is. -/
theorem resolve_eq_ok (h : policy.resolve fs candidate = .ok path) :
    path = canonicalize fs (policy.absolute candidate) ∧
      (∃ root ∈ policy.roots, isWithin (policy.absolute candidate) root.path = true) ∧
      ∃ root ∈ policy.roots, isWithin path root.canonical = true := by
  rw [PathPolicy.resolve] at h
  split at h
  · cases h
  simp only at h
  split at h
  · cases h
  rename_i hlexical
  split at h
  · cases h
  rename_i hcanonical
  obtain rfl := Except.ok.inj h
  refine ⟨rfl, ?_, ?_⟩
  · simpa using hlexical
  · simpa using hcanonical

/-- **A reference** is a path without dots below a root. -/
theorem mutation_eq_ok (h : policy.mutation candidate = .ok reference) :
    ∃ root ∈ policy.roots, ∃ base, (base = root.path ∨ base = root.canonical) ∧
      isWithin (policy.absolute candidate) base = true ∧ reference.root = root.canonical ∧
      policy.absolute candidate = base ++ reference.segments ∧ reference.segments ≠ [] := by
  rw [PathPolicy.mutation] at h
  split at h
  · cases h
  simp only at h
  rcases hbest : policy.bestMatch (policy.absolute candidate) with _ | found
  · rw [hbest] at h
    cases h
  rw [hbest] at h
  simp only at h
  have hmem : found ∈ policy.matchesOf (policy.absolute candidate) := by
    have := List.mem_of_mem_head? hbest
    exact (List.mem_insertionSort _).mp this
  obtain ⟨root, hroot, hfound⟩ := List.mem_flatMap.mp hmem
  obtain ⟨base, hbase, rfl⟩ := List.mem_map.mp hfound
  obtain ⟨hbase, hwithin⟩ := List.mem_filter.mp hbase
  split at h
  · cases h
  rename_i hne
  split at h
  · cases h
  obtain rfl := Except.ok.inj h
  refine ⟨root, hroot, base, ?_, hwithin, rfl, ?_, hne⟩
  · simpa using List.mem_dedup.mp hbase
  · obtain ⟨rest, hrest⟩ := prefix_of_isWithin hwithin
    show _ = base ++ List.drop base.length _
    rw [← hrest, List.drop_left]

theorem absolute_valid : ∀ n ∈ policy.absolute candidate, n.Valid := (resolvePath _ candidate).2

theorem mutation_reference (h : policy.mutation candidate = .ok reference) :
    (∀ n ∈ reference.root, n.Valid) ∧ reference.segments ≠ [] := by
  obtain ⟨root, -, base, -, -, hroot, -, hne⟩ := mutation_eq_ok h
  rw [hroot]
  exact ⟨root.canonical_valid, hne⟩

theorem segments_valid (h : policy.mutation candidate = .ok reference) : ∀ s ∈ reference.segments, s.Valid := by
  obtain ⟨root, -, base, -, -, -, hpath, -⟩ := mutation_eq_ok h
  intro s hs
  exact absolute_valid s (hpath ▸ List.mem_append_right _ hs)

theorem last_valid (h : policy.mutation candidate = .ok reference) : reference.last.Valid := by
  have hne := (mutation_reference h).2
  rw [Reference.last, List.getLastD_eq_getLast?, List.getLast?_eq_some_getLast hne, Option.getD_some]
  exact segments_valid h _ (List.getLast_mem hne)

end Lemmas

/-- The root of the sample policies can be one. -/
theorem sampleRoot_valid : ∀ n ∈ ([['r']] : Location), n.Valid := by decide

/-- The system of the samples follows 40 links. -/
theorem sampleLinks_le : (40 : Nat) ≤ 40 := Nat.le_refl 40

end BegetBridge.Files
