import Mathlib

/-!
# Files of settings

A file of settings has lines, each `key=value` or without `=`. A program may make it from a text with patterns that
stand for values, and read it by looking for the lines of a key.

## Main definitions

* `Line`, `fileText`: a line of a file, and the text of its lines
* `valuesOf`: the values of a key
* `replaceEach`: every pattern replaced by its value, from left to right
* `replaceFirst`: the first occurrence of a pattern replaced

## Main results

* `lines_append`: the lines of a text of lines
* `filter_startsWith`: the lines that begin with a key and `=`
* `replaceEach_unlines`: patterns are replaced in each line on its own
-/

namespace Posix

/-! ## Lines -/

/-- The text of some lines. -/
def unlines (ls : List (List Char)) : List Char := ls.flatMap (· ++ ['\n'])

/-- `content.split("\n")` -/
def lines (content : List Char) : List (List Char) := content.splitOn '\n'

@[simp] theorem unlines_nil : unlines [] = [] := rfl

theorem unlines_cons {l : List Char} {ls : List (List Char)} : unlines (l :: ls) = l ++ '\n' :: unlines ls := by
  simp [unlines]

theorem unlines_append {ls ls' : List (List Char)} : unlines (ls ++ ls') = unlines ls ++ unlines ls' :=
  List.flatMap_append

/-- **The lines of a text of lines** are these, and the last one, which is not ended. -/
theorem lines_append {ls : List (List Char)} {l : List Char} (h : ∀ l ∈ ls, '\n' ∉ l) (hl : '\n' ∉ l) :
    lines (unlines ls ++ l) = ls ++ [l] := by
  induction ls with
  | nil => exact List.splitOn_eq_singleton hl
  | cons first ls ih =>
    have hfirst : '\n' ∉ first := h first List.mem_cons_self
    rw [unlines_cons, List.append_assoc, List.cons_append, lines,
      List.splitOn_append_cons_of_beq _ _ (beq_self_eq_true _), List.splitOn_eq_singleton hfirst, List.singleton_append,
      List.cons_append]
    exact congrArg (first :: ·) (ih fun l' hl' => h l' (List.mem_cons_of_mem _ hl'))

theorem lines_unlines {ls : List (List Char)} (h : ∀ l ∈ ls, '\n' ∉ l) : lines (unlines ls) = ls ++ [[]] := by
  have happend := lines_append (l := []) h List.not_mem_nil
  rwa [List.append_nil] at happend

/-! ## Settings -/

/-- A line of a file of settings. -/
inductive Line
  | bare (text : String)
  | setting (key : String) (value : List Char)
  deriving DecidableEq

namespace Line

def text : Line → List Char
  | bare text => text.toList
  | setting key value => key.toList ++ '=' :: value

/-- The line is read as what it is. -/
def Proper : Line → Prop
  | bare text => '=' ∉ text.toList ∧ '\n' ∉ text.toList
  | setting key value => '=' ∉ key.toList ∧ '\n' ∉ key.toList ∧ '\n' ∉ value

instance : DecidablePred Proper
  | bare _ => inferInstanceAs (Decidable (_ ∧ _))
  | setting _ _ => inferInstanceAs (Decidable (_ ∧ _ ∧ _))

/-- The value, if this is a line of the key. -/
def valueOf (key : String) : Line → Option (List Char)
  | bare _ => none
  | setting key' value => if key' = key then some value else none

end Line

/-- The text of a file of settings. -/
def fileText (ls : List Line) : List Char := unlines (ls.map Line.text)

/-- The values of a key. -/
def valuesOf (key : String) (ls : List Line) : List (List Char) := ls.filterMap (Line.valueOf key)

section Settings

variable {key : String} {l : Line} {ls : List Line}

theorem newline_not_mem_text (h : l.Proper) : '\n' ∉ l.text := by
  cases l with
  | bare text => exact h.2
  | setting key value =>
    obtain ⟨-, hkey, hvalue⟩ := h
    simp [Line.text, hkey, hvalue]

/-- The part before the first `=`. -/
theorem prefix_equals {a b v w : List Char} (ha : '=' ∉ a) (hb : '=' ∉ b) (h : a ++ '=' :: v = b ++ '=' :: w) :
    a = b ∧ v = w := by
  induction a generalizing b with
  | nil =>
    cases b with
    | nil => exact ⟨rfl, (List.cons.inj h).2⟩
    | cons c b => exact absurd (List.mem_cons.mpr (.inl (List.cons.inj h).1)) hb
  | cons c a ih =>
    cases b with
    | nil => exact absurd (List.mem_cons.mpr (.inl (List.cons.inj h).1.symm)) ha
    | cons d b =>
      obtain ⟨rfl, hrest⟩ := List.cons.inj h
      obtain ⟨rfl, hv⟩ := ih (fun hmem => ha (List.mem_cons_of_mem _ hmem)) (fun hmem => hb (List.mem_cons_of_mem _ hmem))
        hrest
      exact ⟨rfl, hv⟩

/-- A line begins with a key and `=` if it is a line of the key. -/
theorem startsWith_text (hl : l.Proper) (hkey : '=' ∉ key.toList) :
    (key.toList ++ ['=']).isPrefixOf l.text = (l.valueOf key).isSome := by
  rw [Bool.eq_iff_iff, List.isPrefixOf_iff_prefix]
  cases l with
  | bare text =>
    simp only [Line.text, Line.valueOf, Option.isSome_none, Bool.false_eq_true, iff_false]
    exact fun h => hl.1 (h.subset (List.mem_append_right _ List.mem_cons_self))
  | setting key' value =>
    simp only [Line.text, Line.valueOf]
    constructor
    · rintro ⟨rest, hrest⟩
      rw [List.append_assoc, List.singleton_append] at hrest
      rw [if_pos (String.toList_inj.mp (prefix_equals hkey hl.1 hrest).1).symm]
      rfl
    · intro h
      split at h
      · rename_i heq
        exact ⟨value, by rw [heq]; simp⟩
      · exact absurd h Bool.false_ne_true

/-- **The lines that begin with a key and `=`** have the values of the key. -/
theorem filter_startsWith (h : ∀ l ∈ ls, l.Proper) (hkey : '=' ∉ key.toList) :
    (lines (fileText ls)).filter (key.toList ++ ['=']).isPrefixOf =
      (valuesOf key ls).map (key.toList ++ '=' :: ·) := by
  have hlines : ∀ l ∈ ls.map Line.text, '\n' ∉ l := by
    intro text htext
    obtain ⟨l, hl, rfl⟩ := List.mem_map.mp htext
    exact newline_not_mem_text (h l hl)
  have hend : (key.toList ++ ['=']).isPrefixOf [] = false := by
    cases key.toList <;> rfl
  rw [fileText, lines_unlines hlines, List.filter_append, List.filter_cons, hend, if_neg Bool.false_ne_true,
    List.filter_nil, List.append_nil]
  clear hlines
  induction ls with
  | nil => rfl
  | cons l ls ih =>
    have hrest := ih fun l' hl' => h l' (List.mem_cons_of_mem _ hl')
    have hl := startsWith_text (h l List.mem_cons_self) hkey
    rw [List.map_cons, List.filter_cons, hl, hrest]
    cases l with
    | bare text => rfl
    | setting key' value =>
      by_cases heq : key' = key
      · subst heq
        simp [valuesOf, Line.valueOf, Line.text]
      · simp [valuesOf, Line.valueOf, heq]

/-- A text with one `=` is not in a line with one, unless what is before it ends the key. -/
theorem not_in_setting {a key value rest : List Char} (hkey : '=' ∉ key) (hvalue : '=' ∉ value)
    (ha : ¬ a <:+ key) : ¬ a ++ '=' :: rest <:+: key ++ '=' :: value := by
  rintro ⟨before, after, h⟩
  have hsplit : before ++ a ++ '=' :: (rest ++ after) = key ++ '=' :: value := by
    rw [← h]
    simp
  rcases List.append_eq_append_iff.mp hsplit with ⟨more, hmore, hrest⟩ | ⟨more, hmore, hrest⟩
  · cases more with
    | nil => exact ha ⟨before, by rw [hmore, List.append_nil]⟩
    | cons c more =>
      rw [List.cons_append, List.cons.injEq] at hrest
      exact hkey (hmore ▸ List.mem_append_right _ (List.mem_cons.mpr (.inl hrest.1)))
  · cases more with
    | nil => exact ha ⟨before, by rw [hmore, List.append_nil]⟩
    | cons c more =>
      rw [List.cons_append, List.cons.injEq] at hrest
      exact hvalue (hrest.2 ▸ List.mem_append_right _ List.mem_cons_self)

end Settings

/-! ## Replacement -/

/-- A pattern, and what is put in its place. -/
abbrev Rule := List Char × List Char

/-- Each occurrence of a pattern is replaced, from left to right and by the first rule that applies; `skip` is what is
left of the occurrence at hand. -/
def replaceFrom (rules : List Rule) : Nat → List Char → List Char
  | _, [] => []
  | skip + 1, _ :: rest => replaceFrom rules skip rest
  | 0, c :: rest =>
    match rules.find? fun r => r.1.isPrefixOf (c :: rest) with
    | some r => r.2 ++ replaceFrom rules (r.1.length - 1) rest
    | none => c :: replaceFrom rules 0 rest

/-- All patterns are replaced at once. -/
def replaceEach (rules : List Rule) (text : List Char) : List Char := replaceFrom rules 0 text

/-- `text.replaceAll(pattern, value)`, for a pattern that is not empty and a value without `$`. -/
def replaceAll (pattern value text : List Char) : List Char := replaceEach [(pattern, value)] text

/-- `text.replace(pattern, value)`, for a pattern that is not empty and a value without `$`. -/
def replaceFirst (pattern value : List Char) : List Char → List Char
  | [] => []
  | c :: rest =>
    if pattern.isPrefixOf (c :: rest) then value ++ (c :: rest).drop pattern.length
    else c :: replaceFirst pattern value rest

/-- How often a pattern occurs, from left to right. -/
def occurrences (pattern : List Char) : Nat → List Char → Nat
  | _, [] => 0
  | skip + 1, _ :: rest => occurrences pattern skip rest
  | 0, c :: rest =>
    if pattern.isPrefixOf (c :: rest) then 1 + occurrences pattern (pattern.length - 1) rest
    else occurrences pattern 0 rest

/-- A pattern is not empty, and does not go on after the end of a line. -/
def InLine (pattern : List Char) : Prop := pattern ≠ [] ∧ '\n' ∉ pattern.dropLast

instance : DecidablePred InLine := fun _ => inferInstanceAs (Decidable (_ ∧ _))

section Replacement

variable {rules : List Rule} {p v l rest : List Char} {skip : Nat}

/-- Where a pattern occurs in a line, it ends in it. -/
theorem prefix_line (hp : InLine p) : p <+: l ++ '\n' :: rest ↔ p <+: l ++ ['\n'] := by
  constructor
  · intro h
    rcases Nat.le_total p.length (l ++ ['\n']).length with hle | hle
    · have hwhole : l ++ ['\n'] <+: l ++ '\n' :: rest := ⟨rest, by simp⟩
      exact List.prefix_of_prefix_length_le h hwhole hle
    · -- a longer pattern has the end of the line before its last character
      have hwhole : l ++ ['\n'] <+: l ++ '\n' :: rest := ⟨rest, by simp⟩
      obtain ⟨more, hmore⟩ := List.prefix_of_prefix_length_le hwhole h hle
      rcases List.eq_nil_or_concat more with rfl | ⟨init, c, rfl⟩
      · exact ⟨[], by rw [List.append_nil, ← hmore, List.append_nil]⟩
      · refine absurd ?_ hp.2
        have hsplit : l ++ ['\n'] ++ init.concat c = l ++ '\n' :: init ++ [c] := by simp
        rw [← hmore, hsplit, List.dropLast_concat]
        simp
  · rintro ⟨more, hmore⟩
    exact ⟨more ++ rest, by rw [← List.append_assoc, hmore]; simp⟩

theorem find_line (hrules : ∀ r ∈ rules, InLine r.1) (l rest : List Char) :
    (rules.find? fun r => r.1.isPrefixOf (l ++ '\n' :: rest)) = rules.find? fun r => r.1.isPrefixOf (l ++ ['\n']) := by
  induction rules with
  | nil => rfl
  | cons r rules ih =>
    have hr : r.1.isPrefixOf (l ++ '\n' :: rest) = r.1.isPrefixOf (l ++ ['\n']) := by
      rw [Bool.eq_iff_iff, List.isPrefixOf_iff_prefix, List.isPrefixOf_iff_prefix]
      exact prefix_line (hrules r List.mem_cons_self)
    rw [List.find?_cons, List.find?_cons, hr, ih fun r' hr' => hrules r' (List.mem_cons_of_mem _ hr')]

/-- A line is replaced on its own. -/
theorem replaceFrom_line (hrules : ∀ r ∈ rules, InLine r.1) (hl : '\n' ∉ l) (hskip : skip ≤ l.length + 1) :
    replaceFrom rules skip (l ++ '\n' :: rest) = replaceFrom rules skip (l ++ ['\n']) ++ replaceFrom rules 0 rest := by
  induction l generalizing skip with
  | nil =>
    cases skip with
    | zero =>
      have hfind := find_line hrules [] rest
      simp only [List.nil_append] at hfind ⊢
      simp only [replaceFrom, hfind]
      cases h : rules.find? fun r => r.1.isPrefixOf ['\n'] with
      | none => rfl
      | some r =>
        have hstart : r.1.isPrefixOf ['\n'] = true := by simpa only using List.find?_some h
        have hlength : r.1.length - 1 = 0 := by
          have := (List.isPrefixOf_iff_prefix.mp hstart).length_le
          simp only [List.length_singleton] at this
          omega
        simp [hlength]
    | succ skip =>
      obtain rfl : skip = 0 := by
        simp only [List.length_nil] at hskip
        omega
      rfl
  | cons c l ih =>
    have htail : '\n' ∉ l := fun h => hl (List.mem_cons_of_mem _ h)
    cases skip with
    | zero =>
      have hfind := find_line hrules (c :: l) rest
      simp only [List.cons_append] at hfind ⊢
      simp only [replaceFrom, hfind]
      cases h : rules.find? fun r => r.1.isPrefixOf (c :: (l ++ ['\n'])) with
      | none => simp [ih htail (Nat.zero_le _)]
      | some r =>
        have hstart : r.1.isPrefixOf (c :: (l ++ ['\n'])) = true := by simpa only using List.find?_some h
        have hlength := (List.isPrefixOf_iff_prefix.mp hstart).length_le
        simp only [List.length_cons, List.length_append, List.length_nil] at hlength
        simp only [List.append_assoc]
        rw [ih htail (by omega)]
    | succ skip =>
      simp only [List.length_cons] at hskip
      simpa [replaceFrom] using ih htail (by omega)

/-- **Patterns are replaced in each line on its own.** -/
theorem replaceEach_unlines {ls : List (List Char)} (hrules : ∀ r ∈ rules, InLine r.1) (hls : ∀ l ∈ ls, '\n' ∉ l) :
    replaceEach rules (unlines ls) = ls.flatMap fun l => replaceEach rules (l ++ ['\n']) := by
  induction ls with
  | nil => rfl
  | cons l ls ih =>
    rw [unlines_cons, replaceEach, replaceFrom_line hrules (hls l List.mem_cons_self) (Nat.zero_le _), List.flatMap_cons]
    exact congrArg (_ ++ ·) (ih fun l' hl' => hls l' (List.mem_cons_of_mem _ hl'))

/-- A text without the patterns stays. -/
theorem replaceEach_of_absent {text : List Char} (h : ∀ r ∈ rules, ¬ r.1 <:+: text) :
    replaceEach rules text = text := by
  induction text with
  | nil => rfl
  | cons c text ih =>
    have hnone : (rules.find? fun r => r.1.isPrefixOf (c :: text)) = none := by
      rw [List.find?_eq_none]
      intro r hr hstart
      exact h r hr (List.isPrefixOf_iff_prefix.mp hstart).isInfix
    rw [replaceEach, replaceFrom, hnone]
    exact congrArg (c :: ·) (ih fun r hr hin => h r hr (hin.trans (List.suffix_cons c text).isInfix))

/-- A text in which no pattern begins stays. -/
theorem replaceEach_append {text : List Char}
    (h : ∀ r ∈ rules, (∃ c ∈ r.1.head?, c ∉ text) ∨ ¬ r.1 <:+: text ++ rest) :
    replaceEach rules (text ++ rest) = text ++ replaceEach rules rest := by
  induction text with
  | nil => rfl
  | cons c text ih =>
    have hnone : (rules.find? fun r => r.1.isPrefixOf (c :: (text ++ rest))) = none := by
      rw [List.find?_eq_none]
      intro r hr hstart
      rw [List.isPrefixOf_iff_prefix] at hstart
      rcases h r hr with ⟨d, hd, hmem⟩ | hin
      · obtain ⟨p, hp⟩ := List.head?_eq_some_iff.mp hd
        rw [hp] at hstart
        exact hmem (List.mem_cons.mpr (.inl (List.cons_prefix_cons.mp hstart).1))
      · exact hin hstart.isInfix
    rw [List.cons_append, replaceEach, replaceFrom, hnone, List.cons_append]
    refine congrArg (c :: ·) (ih fun r hr => ?_)
    rcases h r hr with ⟨d, hd, hmem⟩ | hin
    · exact .inl ⟨d, hd, fun hin => hmem (List.mem_cons_of_mem _ hin)⟩
    · exact .inr fun hwithin => hin (hwithin.trans (List.suffix_cons c _).isInfix)

theorem replaceFrom_skip : replaceFrom rules p.length (p ++ rest) = replaceFrom rules 0 rest := by
  induction p with
  | nil => rfl
  | cons c p ih => exact ih

/-- An occurrence is replaced by the rule that applies. -/
theorem replaceEach_self (hp : p ≠ []) (h : (rules.find? fun r => r.1.isPrefixOf (p ++ rest)) = some (p, v)) :
    replaceEach rules (p ++ rest) = v ++ replaceEach rules rest := by
  obtain ⟨c, p, rfl⟩ := List.exists_cons_of_ne_nil hp
  rw [List.cons_append] at h
  rw [replaceEach, List.cons_append, replaceFrom, h]
  simp only [List.length_cons, Nat.add_one_sub_one]
  rw [replaceFrom_skip]
  rfl

theorem replaceAll_self (hp : p ≠ []) : replaceAll p v (p ++ rest) = v ++ replaceAll p v rest := by
  refine replaceEach_self hp ?_
  rw [List.find?_cons_of_pos]
  exact List.isPrefixOf_iff_prefix.mpr (List.prefix_append p rest)

/-- The first occurrence is not in a line without the pattern. -/
theorem replaceFirst_line (hp : InLine p) (hl : '\n' ∉ l) (h : ¬ p <:+: l ++ ['\n']) :
    replaceFirst p v (l ++ '\n' :: rest) = l ++ '\n' :: replaceFirst p v rest := by
  have hhere : ¬ p.isPrefixOf (l ++ '\n' :: rest) = true := by
    rw [List.isPrefixOf_iff_prefix, prefix_line hp]
    exact fun hstart => h hstart.isInfix
  induction l with
  | nil =>
    rw [List.nil_append] at hhere ⊢
    rw [replaceFirst, if_neg hhere, List.nil_append]
  | cons c l ih =>
    have htail : '\n' ∉ l := fun hmem => hl (List.mem_cons_of_mem _ hmem)
    have hin : ¬ p <:+: l ++ ['\n'] := fun hin => h (hin.trans (List.suffix_cons c _).isInfix)
    rw [List.cons_append] at hhere
    rw [List.cons_append, replaceFirst, if_neg hhere, List.cons_append]
    refine congrArg (c :: ·) (ih htail hin ?_)
    rw [List.isPrefixOf_iff_prefix, prefix_line hp]
    exact fun hstart => hin hstart.isInfix

theorem replaceFirst_unlines {ls : List (List Char)} (hp : InLine p) (hls : ∀ l ∈ ls, '\n' ∉ l)
    (h : ∀ l ∈ ls, ¬ p <:+: l ++ ['\n']) : replaceFirst p v (unlines ls ++ rest) = unlines ls ++ replaceFirst p v rest := by
  induction ls with
  | nil => rfl
  | cons l ls ih =>
    rw [unlines_cons, List.append_assoc, List.cons_append, replaceFirst_line hp (hls l List.mem_cons_self)
      (h l List.mem_cons_self), ih (fun l' hl' => hls l' (List.mem_cons_of_mem _ hl'))
      (fun l' hl' => h l' (List.mem_cons_of_mem _ hl')), List.append_assoc, List.cons_append]

theorem replaceFirst_self (hp : p ≠ []) : replaceFirst p v (p ++ rest) = v ++ rest := by
  obtain ⟨c, p, rfl⟩ := List.exists_cons_of_ne_nil hp
  have hstart : (c :: p).isPrefixOf (c :: (p ++ rest)) = true :=
    List.isPrefixOf_iff_prefix.mpr ⟨rest, rfl⟩
  rw [List.cons_append, replaceFirst, if_pos hstart]
  simp

/-- A pattern without the end of a line occurs in one of the lines. -/
theorem in_line_of_unlines {ls : List (List Char)} (hp : p ≠ []) (hline : '\n' ∉ p) (h : p <:+: unlines ls) :
    ∃ l ∈ ls, p <:+: l := by
  induction ls with
  | nil => exact absurd (List.eq_nil_of_infix_nil h) hp
  | cons l ls ih =>
    obtain ⟨before, after, hsplit⟩ := h
    rw [unlines_cons, List.append_assoc, List.append_eq_append_iff] at hsplit
    rcases hsplit with ⟨more, rfl, hmore⟩ | ⟨more, rfl, hmore⟩
    · -- the pattern begins in the line, and cannot go on after its end
      rcases List.append_eq_append_iff.mp hmore with ⟨more', rfl, hmore'⟩ | ⟨more', rfl, hmore'⟩
      · exact ⟨_, List.mem_cons_self, before, more', by simp⟩
      · cases more' with
        | nil => exact ⟨_, List.mem_cons_self, before, [], by simp⟩
        | cons c more' =>
          rw [List.cons_append, List.cons.injEq] at hmore'
          exact absurd (List.mem_append_right _ (List.mem_cons.mpr (.inl hmore'.1))) hline
    · cases more with
      | nil =>
        rw [List.nil_append] at hmore
        obtain ⟨c, p, rfl⟩ := List.exists_cons_of_ne_nil hp
        rw [List.cons_append, List.cons.injEq] at hmore
        exact absurd (List.mem_cons.mpr (.inl hmore.1)) hline
      | cons c more =>
        rw [List.cons_append, List.cons.injEq] at hmore
        obtain ⟨l', hl', hin⟩ := ih ⟨more, after, by rw [List.append_assoc]; exact hmore.2.symm⟩
        exact ⟨l', List.mem_cons_of_mem _ hl', hin⟩

/-- A pattern that begins in the second part is in it. -/
theorem in_of_head {a b : List Char} {c : Char} (hp : p.head? = some c) (hc : c ∉ a) (h : p <:+: a ++ b) : p <:+: b := by
  obtain ⟨p, rfl⟩ := List.head?_eq_some_iff.mp hp
  obtain ⟨before, after, hsplit⟩ := h
  rw [List.append_assoc] at hsplit
  rcases List.append_eq_append_iff.mp hsplit with ⟨more, rfl, hmore⟩ | ⟨more, rfl, hmore⟩
  · cases more with
    | nil => exact ⟨[], after, by simpa using hmore⟩
    | cons d more =>
      rw [List.cons_append, List.cons_append, List.cons.injEq] at hmore
      exact absurd (List.mem_append_right _ (List.mem_cons.mpr (.inl hmore.1))) hc
  · exact ⟨more, after, by rw [hmore, List.append_assoc]⟩

/-- A pattern that ends in the first part is in it. -/
theorem in_of_getLast {a b : List Char} {c : Char} (hp : p.getLast? = some c) (hc : c ∉ b) (h : p <:+: a ++ b) :
    p <:+: a := by
  have hreverse : p.reverse <:+: b.reverse ++ a.reverse := by
    rw [← List.reverse_append]
    exact List.reverse_infix.mpr h
  have hhead : p.reverse.head? = some c := by rw [List.head?_reverse, hp]
  exact List.reverse_infix.mp (in_of_head hhead (by simpa using hc) hreverse)

theorem getLast_unlines {ls : List (List Char)} (h : ls ≠ []) : (unlines ls).getLast? = some '\n' := by
  rcases List.eq_nil_or_concat ls with rfl | ⟨init, l, rfl⟩
  · exact absurd rfl h
  · have hsplit : unlines (init.concat l) = (unlines init ++ l) ++ ['\n'] := by
      rw [List.concat_eq_append, unlines_append, unlines_cons, unlines_nil, List.append_assoc]
    rw [hsplit, List.getLast?_concat]

theorem in_of_mem_line {ls : List (List Char)} (hl : l ∈ ls) (h : p <:+: l) : p <:+: unlines ls := by
  refine h.trans ?_
  obtain ⟨before, after, rfl⟩ := List.append_of_mem hl
  rw [unlines_append, unlines_cons]
  exact ⟨unlines before, '\n' :: unlines after, by simp⟩

end Replacement

end Posix
