import Mathlib

/-!
# Path names

A path is text. The segments between its slashes are names, and an absolute path without empty segments
and without dots is the same as the list of its names.

## Main definitions

* `segments`: the pieces between slashes
* `normalize`: the names that are left of the segments when `.` and `..` are carried out
* `render`: the text of a normal absolute path
* `isWithin`: a path is another one or below it

## Main results

* `normalize_valid`: normal paths have no empty name and no dots
* `startsWith_render`: on normal paths, comparing texts is comparing names
-/

namespace Posix

/-- A name in a directory. -/
abbrev Name := List Char

/-- An absolute path, as its names. -/
abbrev Location := List Name

def dot : Name := ['.']

def dotdot : Name := ['.', '.']

/-- What no normal path has among its names. -/
def Name.Valid (n : Name) : Prop := n ≠ [] ∧ n ≠ dot ∧ n ≠ dotdot ∧ '/' ∉ n

instance (n : Name) : Decidable n.Valid := inferInstanceAs (Decidable (_ ∧ _ ∧ _ ∧ _))

/-- The pieces between slashes. -/
def segments (text : List Char) : List Name := text.splitOn '/'

def isAbsolute (text : List Char) : Bool := text.head? == some '/'

/-- One segment is carried out. -/
def climb (path : Location) (n : Name) : Location :=
  if n = [] ∨ n = dot then path else if n = dotdot then path.dropLast else path ++ [n]

/-- The segments carried out one after the other. -/
def normalize (start : Location) (names : List Name) : Location := names.foldl climb start

/-- The text of a path. -/
def render : Location → List Char
  | [] => ['/']
  | path => path.flatMap fun n => '/' :: n

/-- `candidate === root || candidate.startsWith(root + "/")`, on normal paths. The root directory followed
by a slash begins no normal path. -/
def isWithin (candidate root : Location) : Bool :=
  candidate == root || (!root.isEmpty && root.isPrefixOf candidate)

section Lemmas

variable {path root : Location} {n : Name} {names : List Name}

/-- No piece of a split text meets the test it is split by. -/
theorem not_mem_splitOnPPrepend {α : Type} {p : α → Bool} {xs acc piece : List α} {x : α}
    (hacc : ∀ y ∈ acc, p y = false) (hpiece : piece ∈ List.splitOnPPrepend p xs acc) (hx : x ∈ piece) :
    p x = false := by
  -- `acc` is the piece in progress, in reverse
  induction xs generalizing acc with
  | nil =>
    rw [List.splitOnPPrepend_nil, List.mem_singleton] at hpiece
    subst hpiece
    exact hacc x (List.mem_reverse.mp hx)
  | cons y xs ih =>
    by_cases hy : p y = true
    · rw [List.splitOnPPrepend_cons_pos hy] at hpiece
      rcases List.mem_cons.mp hpiece with rfl | hpiece
      · exact hacc x (List.mem_reverse.mp hx)
      · exact ih (fun _ hy => absurd hy List.not_mem_nil) hpiece
    · rw [Bool.not_eq_true] at hy
      rw [List.splitOnPPrepend_cons_neg hy] at hpiece
      refine ih (fun z hz => ?_) hpiece
      rcases List.mem_cons.mp hz with rfl | hz
      · exact hy
      · exact hacc z hz

theorem slash_not_mem_segments {text : List Char} (h : n ∈ segments text) : '/' ∉ n := by
  intro hslash
  rw [segments, List.splitOn_eq_splitOnP, List.splitOnP_eq_splitOnPPrepend] at h
  have hno := not_mem_splitOnPPrepend (fun _ hy => absurd hy List.not_mem_nil) h hslash
  exact absurd hno (by decide)

theorem climb_valid (hpath : ∀ n ∈ path, n.Valid) (hn : '/' ∉ n) : ∀ m ∈ climb path n, m.Valid := by
  unfold climb
  split
  · exact hpath
  · rename_i hne
    rw [not_or] at hne
    split
    · intro m hm
      exact hpath m (List.mem_of_mem_dropLast hm)
    · rename_i hup
      intro m hm
      rcases List.mem_append.mp hm with hm | hm
      · exact hpath m hm
      · obtain rfl := List.mem_singleton.mp hm
        exact ⟨hne.1, hne.2, hup, hn⟩

/-- **Normal paths** have no empty name and no dots. -/
theorem normalize_valid (hpath : ∀ n ∈ path, n.Valid) (hnames : ∀ n ∈ names, '/' ∉ n) :
    ∀ m ∈ normalize path names, m.Valid := by
  induction names generalizing path with
  | nil => exact hpath
  | cons n names ih =>
    exact ih (climb_valid hpath (hnames n List.mem_cons_self))
      fun m hm => hnames m (List.mem_cons_of_mem _ hm)

theorem isWithin_iff : isWithin path root = true ↔ path = root ∨ root ≠ [] ∧ root <+: path := by
  simp [isWithin, List.isPrefixOf_iff_prefix]

/-- What is within a path has it as a prefix. -/
theorem prefix_of_isWithin (h : isWithin path root = true) : root <+: path := by
  rcases isWithin_iff.mp h with rfl | ⟨-, h⟩
  · exact List.prefix_rfl
  · exact h

/-- The text of a path below the root directory. -/
theorem render_ne (h : path ≠ []) : render path = path.flatMap fun n => '/' :: n := by
  cases path with
  | nil => exact absurd rfl h
  | cons => rfl

/-- A name without a slash ends where the next slash is. -/
theorem name_prefix {n n' : Name} {rest rest' : List Char} (hn : '/' ∉ n) (hn' : '/' ∉ n')
    (h : n ++ '/' :: rest <+: n' ++ rest') (hrest : rest' = [] ∨ rest'.head? = some '/') :
    n = n' ∧ '/' :: rest <+: rest' := by
  induction n generalizing n' with
  | nil =>
    cases n' with
    | nil => exact ⟨rfl, h⟩
    | cons c n' =>
      obtain ⟨rfl, -⟩ := List.cons_prefix_cons.mp h
      exact absurd List.mem_cons_self hn'
  | cons c n ih =>
    cases n' with
    | nil =>
      rcases hrest with rfl | hrest
      · exact absurd (List.prefix_nil.mp h) nofun
      · obtain ⟨rest'', rfl⟩ : ∃ rest'', rest' = '/' :: rest'' := by
          cases rest' with
          | nil => exact absurd hrest nofun
          | cons d rest' => exact ⟨rest', by rw [Option.some.inj hrest]⟩
        obtain ⟨rfl, -⟩ := List.cons_prefix_cons.mp h
        exact absurd List.mem_cons_self hn
    | cons d n' =>
      obtain ⟨rfl, htail⟩ := List.cons_prefix_cons.mp h
      obtain ⟨rfl, hpre⟩ := ih (fun hm => hn (List.mem_cons_of_mem _ hm))
        (fun hm => hn' (List.mem_cons_of_mem _ hm)) htail
      exact ⟨rfl, hpre⟩

theorem flatMap_head (path : Location) :
    (path.flatMap fun n => '/' :: n) = [] ∨ (path.flatMap fun n => '/' :: n).head? = some '/' := by
  cases path with
  | nil => exact .inl rfl
  | cons => exact .inr rfl

theorem flatMap_slash (path : Location) :
    ∃ rest, (path.flatMap fun n => '/' :: n) ++ ['/'] = '/' :: rest := by
  cases path with
  | nil => exact ⟨[], rfl⟩
  | cons => exact ⟨_, rfl⟩

theorem prefix_flatMap (hroot : ∀ n ∈ root, '/' ∉ n) (hpath : ∀ n ∈ path, '/' ∉ n) :
    (root.flatMap fun n => '/' :: n) ++ ['/'] <+: (path.flatMap fun n => '/' :: n) ↔
      root <+: path ∧ root ≠ path := by
  induction root generalizing path with
  | nil =>
    cases path with
    | nil => simp
    | cons n path => simp
  | cons n root ih =>
    cases path with
    | nil => simp
    | cons m path =>
      have hroot' : ∀ x ∈ root, '/' ∉ x := fun x hx => hroot x (List.mem_cons_of_mem _ hx)
      have hpath' : ∀ x ∈ path, '/' ∉ x := fun x hx => hpath x (List.mem_cons_of_mem _ hx)
      have hn := hroot n List.mem_cons_self
      have hm := hpath m List.mem_cons_self
      rw [List.flatMap_cons, List.flatMap_cons, List.cons_append, List.cons_append, List.cons_append,
        List.cons_prefix_cons, List.append_assoc, List.cons_prefix_cons]
      obtain ⟨rest, hrest⟩ := flatMap_slash root
      constructor
      · rintro ⟨-, h⟩
        rw [hrest] at h
        obtain ⟨rfl, hpre⟩ := name_prefix hn hm h (flatMap_head path)
        rw [← hrest, ih hroot' hpath'] at hpre
        exact ⟨⟨rfl, hpre.1⟩, fun heq => hpre.2 (List.cons.inj heq).2⟩
      · rintro ⟨⟨rfl, h⟩, hne⟩
        refine ⟨rfl, (List.prefix_append_right_inj _).mpr ((ih hroot' hpath').mpr ⟨h, ?_⟩)⟩
        rintro rfl
        exact hne rfl

theorem flatMap_injective (hroot : ∀ n ∈ root, '/' ∉ n) (hpath : ∀ n ∈ path, '/' ∉ n)
    (h : (root.flatMap fun n => '/' :: n) = path.flatMap fun n => '/' :: n) : root = path := by
  -- with one more name, the one text goes on where the other one does
  have hsnoc : ∀ p : Location, ((p ++ [['x']]).flatMap fun n => '/' :: n) =
      (p.flatMap fun n => '/' :: n) ++ ['/'] ++ ['x'] := by
    intro p
    rw [List.flatMap_append, List.append_assoc]
    rfl
  have hsnoc_valid : ∀ p : Location, (∀ n ∈ p, '/' ∉ n) → ∀ n ∈ p ++ [['x']], '/' ∉ n := by
    intro p hp n hn
    rcases List.mem_append.mp hn with hn | hn
    · exact hp n hn
    · rw [List.mem_singleton.mp hn]
      decide
  have hle : ∀ p q : Location, (∀ n ∈ p, '/' ∉ n) → (∀ n ∈ q, '/' ∉ n) →
      ((p.flatMap fun n => '/' :: n) = q.flatMap fun n => '/' :: n) → p.length ≤ q.length := by
    intro p q hp hq heq
    have hpre : (p.flatMap fun n => '/' :: n) ++ ['/'] <+: (q ++ [['x']]).flatMap fun n => '/' :: n := by
      rw [hsnoc, heq]
      exact List.prefix_append _ _
    obtain ⟨hpre, hne⟩ := (prefix_flatMap hp (hsnoc_valid q hq)).mp hpre
    have hlen := hpre.length_le
    rw [List.length_append, List.length_singleton] at hlen
    rcases Nat.lt_or_ge q.length p.length with hlt | hge
    · exact absurd (hpre.eq_of_length (by rw [List.length_append, List.length_singleton]; omega)) hne
    · exact hge
  have hpre : (root.flatMap fun n => '/' :: n) ++ ['/'] <+:
      (path ++ [['x']]).flatMap fun n => '/' :: n := by
    rw [hsnoc, h]
    exact List.prefix_append _ _
  have hsub := ((prefix_flatMap hroot (hsnoc_valid path hpath)).mp hpre).1
  have hlen : root.length = path.length :=
    Nat.le_antisymm (hle root path hroot hpath h) (hle path root hpath hroot h.symm)
  have hroot_pre : root <+: path :=
    List.prefix_of_prefix_length_le hsub (List.prefix_append path _) hlen.le
  exact hroot_pre.eq_of_length hlen

/-- **Comparing texts is comparing names**: the test of the code on the texts of normal paths. -/
theorem startsWith_render (hroot : ∀ n ∈ root, n.Valid) (hpath : ∀ n ∈ path, n.Valid) :
    (render path = render root ∨ render root ++ ['/'] <+: render path) ↔ isWithin path root = true := by
  have hslash : ∀ {p : Location}, (∀ n ∈ p, n.Valid) → ∀ n ∈ p, '/' ∉ n := fun hp n hn => (hp n hn).2.2.2
  have hlong : ∀ {p : Location}, (∀ n ∈ p, n.Valid) → p ≠ [] → ¬render p <+: ['/'] := by
    intro p hp hne hpre
    cases p with
    | nil => exact hne rfl
    | cons n p =>
      have hn := (hp n List.mem_cons_self).1
      cases n with
      | nil => exact hn rfl
      | cons c n =>
        have := hpre.length_le
        simp [render] at this
  rw [isWithin_iff]
  by_cases hr : root = []
  · subst hr
    by_cases hp : path = []
    · subst hp
      exact iff_of_true (.inl rfl) (.inl rfl)
    · have hnever : ¬(path = [] ∨ ([] : Location) ≠ [] ∧ [] <+: path) := by simp [hp]
      refine iff_of_false ?_ hnever
      rintro (heq | hpre)
      · exact hlong hpath hp (by rw [heq]; exact List.prefix_rfl)
      · -- no name is empty
        cases path with
        | nil => exact hp rfl
        | cons n path =>
          have hvalid := hpath n List.mem_cons_self
          cases n with
          | nil => exact hvalid.1 rfl
          | cons c n =>
            have htail := (List.cons_prefix_cons.mp hpre).2
            obtain ⟨rfl, -⟩ := List.cons_prefix_cons.mp htail
            exact hvalid.2.2.2 List.mem_cons_self
  · by_cases hp : path = []
    · subst hp
      refine iff_of_false ?_ ?_
      · rintro (heq | hpre)
        · exact hlong hroot hr (by rw [← heq]; exact List.prefix_rfl)
        · exact hlong hroot hr ((List.prefix_append _ _).trans hpre)
      · rintro (heq | ⟨-, hpre⟩)
        · exact hr heq.symm
        · exact hr (List.prefix_nil.mp hpre)
    · rw [render_ne hr, render_ne hp, prefix_flatMap (hslash hroot) (hslash hpath)]
      constructor
      · rintro (heq | ⟨hpre, -⟩)
        · exact .inl (flatMap_injective (hslash hpath) (hslash hroot) heq)
        · exact .inr ⟨hr, hpre⟩
      · rintro (rfl | ⟨-, hpre⟩)
        · exact .inl rfl
        · by_cases heq : root = path
          · exact .inl (by rw [heq])
          · exact .inr ⟨hpre, heq⟩

end Lemmas

end Posix
