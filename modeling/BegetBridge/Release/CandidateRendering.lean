import BegetBridge.Release.InstallCandidate

/-!
# Rendering a candidate

The units are the lines of their templates with the values in the places of the placeholders, whether these are replaced
one after the other or all at once.

## Main results

* `simultaneous`: all replaced at once
* `renderUnit_eq`: replaced one after the other
* `renderUnits_spec`, `renderConfig_spec`: what is rendered, and when
-/

namespace BegetBridge.InstallCandidate

open Core Posix

/-! ## Lines with values -/

section Filling

variable {values values' : Placeholder → Text} {d p w rest : Text} {t : TemplateLine} {T : List TemplateLine}

theorem proper_fill (ht : t.Fine) (hvalues : ∀ k, '\n' ∉ values k) (hd : '\n' ∉ d) : (t.fill values d).Proper := by
  cases t with
  | bare text => exact ⟨ht.1, ht.2.1⟩
  | fixed key value => exact ⟨ht.1.1, ht.1.2.1, ht.2.1.2.1⟩
  | hole key before k =>
    refine ⟨ht.1.1, ht.1.2.1, ?_⟩
    rw [List.mem_append, not_or]
    exact ⟨ht.2.1.2.1, hvalues k⟩
  | workdir =>
    have hkey : '=' ∉ "WorkingDirectory".toList ∧ '\n' ∉ "WorkingDirectory".toList := by
      rw [String.toList_ofList]
      decide
    exact ⟨hkey.1, hkey.2, hd⟩

theorem lines_fill (hT : ∀ t ∈ T, t.Fine) (hvalues : ∀ k, '\n' ∉ values k) (hd : '\n' ∉ d) :
    ∀ l ∈ (T.map (TemplateLine.fill values d)).map Line.text, '\n' ∉ l := by
  intro text htext
  obtain ⟨l, hl, rfl⟩ := List.mem_map.mp htext
  obtain ⟨t, ht, rfl⟩ := List.mem_map.mp hl
  exact newline_not_mem_text (proper_fill (hT t ht) hvalues hd)

/-- What has no underscore is passed over. -/
theorem replaceAll_append {text : Text} (hp : p.head? = some '_') (htext : '_' ∉ text) :
    replaceAll p w (text ++ rest) = text ++ replaceAll p w rest := by
  refine replaceEach_append fun r hr => .inl ?_
  obtain rfl := List.mem_singleton.mp hr
  exact ⟨'_', hp, htext⟩

theorem replaceAll_plain {text : Text} (hp : p.head? = some '_') (htext : '_' ∉ text) : replaceAll p w text = text := by
  have h : replaceAll p w (text ++ []) = text ++ replaceAll p w [] := replaceAll_append hp htext
  have hnil : replaceAll p w [] = [] := rfl
  rwa [List.append_nil, hnil, List.append_nil] at h

/-- In a line only the value is replaced. -/
theorem replaceAll_line (ht : t.Fine) (hd : '_' ∉ d) (hp : p.head? = some '_')
    (hvalues : ∀ k, replaceAll p w (values k ++ ['\n']) = values' k ++ ['\n']) :
    replaceAll p w ((t.fill values d).text ++ ['\n']) = (t.fill values' d).text ++ ['\n'] := by
  cases t with
  | bare text =>
    refine replaceAll_plain hp ?_
    simpa [TemplateLine.fill, Line.text] using ht.2.2
  | fixed key value =>
    refine replaceAll_plain hp ?_
    simpa [TemplateLine.fill, Line.text] using ⟨ht.1.2.2, ht.2.1.2.2⟩
  | hole key before k =>
    have hsplit : ∀ v : Text, key.toList ++ '=' :: (before.toList ++ v) ++ ['\n'] =
        (key.toList ++ '=' :: before.toList) ++ (v ++ ['\n']) := fun v => by simp
    have hplain : '_' ∉ key.toList ++ '=' :: before.toList := by
      simpa using ⟨ht.1.2.2, ht.2.1.2.2⟩
    rw [TemplateLine.fill, TemplateLine.fill, Line.text, Line.text, hsplit, hsplit, replaceAll_append hp hplain, hvalues]
  | workdir =>
    refine replaceAll_plain hp ?_
    simpa [TemplateLine.fill, Line.text] using hd

/-- In a file only the values are replaced. -/
theorem replaceAll_file (hT : ∀ t ∈ T, t.Fine) (hlines : ∀ k, '\n' ∉ values k) (hdline : '\n' ∉ d) (hd : '_' ∉ d)
    (hline : InLine p) (hp : p.head? = some '_')
    (hvalues : ∀ k, replaceAll p w (values k ++ ['\n']) = values' k ++ ['\n']) :
    replaceAll p w (fileText (T.map (TemplateLine.fill values d))) = fileText (T.map (TemplateLine.fill values' d)) := by
  have hrules : ∀ r ∈ [(p, w)], InLine r.1 := by
    intro r hr
    obtain rfl := List.mem_singleton.mp hr
    exact hline
  rw [replaceAll, fileText, replaceEach_unlines hrules (lines_fill hT hlines hdline), fileText, unlines, List.map_map,
    List.map_map, List.flatMap_map, List.flatMap_map]
  refine List.flatMap_congr fun t ht => ?_
  exact replaceAll_line (hT t ht) hd hp hvalues

end Filling

/-! ## One placeholder after the other -/

/-- What stands in the place of a placeholder when some are replaced. -/
def partly (values : Placeholder → Text) (done : List Placeholder) (k : Placeholder) : Text :=
  if k ∈ done then values k else k.mark.toList

section Sequential

variable {values : Placeholder → Text} {d : Text} {done ks : List Placeholder} {k : Placeholder} {T : List TemplateLine}

theorem head_mark : k.mark.toList.head? = some '_' := by
  rw [Placeholder.mark_toList]
  rfl

/-- A mark is replaced where it stands, and nowhere else. -/
theorem replaceAll_partly (hk : k ∉ done) (hdone : ∀ j ∈ done, 'D' ∉ values j) (j : Placeholder) :
    replaceAll k.mark.toList (values k) (partly values done j ++ ['\n']) = partly values (done ++ [k]) j ++ ['\n'] := by
  have hself : replaceAll k.mark.toList (values k) ['\n'] = ['\n'] := replaceAll_plain head_mark (by decide)
  have hstays : ∀ text : Text, ¬ k.mark.toList <:+: text → replaceAll k.mark.toList (values k) text = text := by
    intro text h
    refine replaceEach_of_absent fun r hr => ?_
    obtain rfl := List.mem_singleton.mp hr
    exact h
  rcases eq_or_ne j k with rfl | hne
  · rw [partly, if_neg hk, partly, if_pos (by simp), replaceAll_self (Placeholder.inLine_mark j).1, hself]
  · by_cases hj : j ∈ done
    · rw [partly, if_pos hj, partly, if_pos (List.mem_append_left _ hj)]
      refine hstays _ fun hin => ?_
      have hD : 'D' ∈ k.mark.toList := by
        rw [Placeholder.mark_toList]
        simp
      have := hin.subset hD
      simp only [List.mem_append, List.mem_singleton, (by decide : 'D' ≠ '\n'), or_false] at this
      exact hdone j hj this
    · rw [partly, if_neg hj, partly, if_neg (by simp [hj, hne])]
      exact hstays _ (Placeholder.mark_not_in hne.symm)

/-- **Replacing one after the other** puts each value in its place. Only the last value may hold a `D`. -/
theorem foldl_replaceAll (hT : ∀ t ∈ T, t.Fine) (hlines : ∀ k, '\n' ∉ values k) (hdline : '\n' ∉ d) (hd : '_' ∉ d)
    (hnodup : (done ++ ks).Nodup) (hclean : ∀ j ∈ done ++ ks.dropLast, 'D' ∉ values j) :
    ks.foldl (fun text k => replaceAll k.mark.toList (values k) text)
        (fileText (T.map (TemplateLine.fill (partly values done) d))) =
      fileText (T.map (TemplateLine.fill (partly values (done ++ ks)) d)) := by
  induction ks generalizing done with
  | nil => rw [List.foldl_nil, List.append_nil]
  | cons k ks ih =>
    have hk : k ∉ done := fun h => (List.nodup_append.mp hnodup).2.2 k h k List.mem_cons_self rfl
    have hpartly : ∀ j, '\n' ∉ partly values done j := by
      intro j
      unfold partly
      split
      · exact hlines j
      · exact j.newline_not_mem_mark
    have hdone : ∀ j ∈ done, 'D' ∉ values j := fun j hj => hclean j (List.mem_append_left _ hj)
    rw [List.foldl_cons, replaceAll_file hT hpartly hdline hd k.inLine_mark head_mark (replaceAll_partly hk hdone)]
    have hassoc : done ++ k :: ks = done ++ [k] ++ ks := by simp
    rw [hassoc] at hnodup ⊢
    cases ks with
    | nil => rw [List.foldl_nil, List.append_nil]
    | cons k' ks =>
      refine ih hnodup fun j hj => hclean j ?_
      rw [List.dropLast_cons_cons, List.append_cons]
      exact hj

end Sequential

/-! ## The working directory -/

theorem DIRECTORY_eq : DIRECTORY = "WorkingDirectory".toList ++ '=' :: ("/opt/dp-beget-bridge".toList ++ ['\n']) := by
  unfold DIRECTORY
  repeat rw [String.toList_ofList]
  rfl

theorem inLine_DIRECTORY : InLine DIRECTORY := by
  rw [DIRECTORY_eq]
  repeat rw [String.toList_ofList]
  decide

section Directory

variable {values : Placeholder → Text} {d : Text} {t : TemplateLine} {k : Placeholder}

/-- The line of the working directory is in no other line. -/
theorem DIRECTORY_not_in (ht : t.Fine) (hvalues : ∀ k, '=' ∉ values k) (hne : t ≠ .workdir) :
    ¬ DIRECTORY <:+: (t.fill values d).text ++ ['\n'] := by
  have hassoc : ∀ key value : Text, key ++ '=' :: value ++ ['\n'] = key ++ '=' :: (value ++ ['\n']) := fun _ _ => by simp
  cases t with
  | bare text =>
    intro hin
    have heq : '=' ∈ DIRECTORY := by
      rw [DIRECTORY_eq]
      simp
    have hmem := hin.subset heq
    simp only [TemplateLine.fill, Line.text, List.mem_append, List.mem_singleton, (by decide : '=' ≠ '\n'),
      or_false] at hmem
    exact ht.1 hmem
  | fixed key value =>
    rw [TemplateLine.fill, Line.text, hassoc, DIRECTORY_eq]
    exact not_in_setting ht.1.1 (by simpa using ht.2.1.1) ht.2.2
  | hole key before k =>
    rw [TemplateLine.fill, Line.text, hassoc, DIRECTORY_eq]
    exact not_in_setting ht.1.1 (by simpa using ⟨ht.2.1.1, hvalues k⟩) ht.2.2
  | workdir => exact absurd rfl hne

end Directory

/-! ## Units -/

/-- The lines that are not that of the working directory. -/
theorem ne_workdir (unit : UnitFile) : (∀ t ∈ unit.above, t ≠ .workdir) ∧ ∀ t ∈ unit.below, t ≠ .workdir := by
  cases unit <;> simp [UnitFile.above, UnitFile.below]

/-- The placeholders of a unit are replaced. -/
theorem hole_mem {unit : UnitFile} {key before : String} {k : Placeholder}
    (h : .hole key before k ∈ unit.template) : k ∈ unit.replacements := by
  cases unit <;> simp [UnitFile.template, UnitFile.above, UnitFile.below, UnitFile.replacements] at h ⊢ <;> grind

theorem mem_template {unit : UnitFile} {t : TemplateLine} :
    t ∈ unit.template ↔ t ∈ unit.above ∨ t = .workdir ∨ t ∈ unit.below := by
  simp [UnitFile.template]

/-- The values that a selection may have for its units to be read as they are. -/
structure Selection.Clean (s : Selection) : Prop where
  names : ∀ k, k ≠ .allowedRoot → ∀ c ∈ s.values k, nameChar c ∨ c = '$'
  allowedRoot : ∀ c ∈ s.allowedRoot, pathChar c
  releaseRoot : ∀ c ∈ s.releaseRoot, pathChar c

namespace Selection.Clean

variable {s : Selection} {k : Placeholder}

theorem not_mem_name (h : s.Clean) (hk : k ≠ .allowedRoot) {c : Char} (hname : nameChar c = false) (hc : c ≠ '$') :
    c ∉ s.values k := by
  intro hmem
  rcases h.names k hk c hmem with h | h
  · rw [hname] at h
    exact Bool.false_ne_true h
  · exact hc h

theorem not_mem_values (h : s.Clean) {c : Char} (hpath : pathChar c = false) (hname : nameChar c = false) (hc : c ≠ '$') :
    c ∉ s.values k := by
  by_cases hk : k = .allowedRoot
  · subst hk
    intro hmem
    rw [h.allowedRoot c hmem] at hpath
    exact Bool.false_ne_true hpath.symm
  · exact h.not_mem_name hk hname hc

theorem not_mem_releaseRoot (h : s.Clean) {c : Char} (hpath : pathChar c = false) : c ∉ s.releaseRoot := by
  intro hmem
  rw [h.releaseRoot c hmem] at hpath
  exact Bool.false_ne_true hpath.symm

end Selection.Clean

section Units

variable {s : Selection} {unit : UnitFile}

/-- **The placeholders are replaced one after the other.** -/
theorem replaced_eq (h : s.Clean) :
    unit.replacements.foldl (fun text k => replaceAll k.mark.toList (s.values k) text) (signedTemplates unit) =
      fileText (unit.template.map (TemplateLine.fill s.values "/opt/dp-beget-bridge".toList)) := by
  have hnone : partly s.values [] = fun k => k.mark.toList := by
    funext k
    simp [partly]
  have hd : '\n' ∉ "/opt/dp-beget-bridge".toList ∧ '_' ∉ "/opt/dp-beget-bridge".toList := by
    rw [String.toList_ofList]
    decide
  have hnodup : ([] ++ unit.replacements).Nodup := by cases unit <;> decide
  have hlast : ∀ j ∈ [] ++ unit.replacements.dropLast, j ≠ .allowedRoot := by cases unit <;> decide
  have hfold := @foldl_replaceAll s.values _ [] _ _ (fine unit)
    (fun k => h.not_mem_values (by decide) (by decide) (by decide)) hd.1 hd.2 hnodup
    (fun j hj => h.not_mem_name (hlast j hj) (by decide) (by decide))
  rw [hnone, List.nil_append, ← signedTemplates_eq] at hfold
  rw [hfold]
  refine congrArg fileText (List.map_congr_left fun t ht => ?_)
  cases t with
  | bare | fixed | workdir => rfl
  | hole key before k => rw [TemplateLine.fill, TemplateLine.fill, partly, if_pos (hole_mem ht)]

theorem text_workdir (values : Placeholder → Text) (d : Text) :
    unlines (((TemplateLine.workdir).fill values d :: []).map Line.text) = "WorkingDirectory=".toList ++ d ++ ['\n'] := by
  have heq : "WorkingDirectory=".toList = "WorkingDirectory".toList ++ ['='] := by
    repeat rw [String.toList_ofList]
    rfl
  rw [heq]
  simp [TemplateLine.fill, Line.text, unlines]

/-- The working directory is replaced. -/
theorem directory_eq (h : s.Clean) :
    replaceFirst DIRECTORY s.directory
        (fileText (unit.template.map (TemplateLine.fill s.values "/opt/dp-beget-bridge".toList))) =
      fileText (unitLines s unit) := by
  have hsplit : ∀ d, fileText (unit.template.map (TemplateLine.fill s.values d)) =
      unlines ((unit.above.map (TemplateLine.fill s.values d)).map Line.text) ++ ("WorkingDirectory=".toList ++ d ++ ['\n'] ++
        unlines ((unit.below.map (TemplateLine.fill s.values d)).map Line.text)) := by
    intro d
    rw [← text_workdir s.values d, ← unlines_append, ← unlines_append, fileText, UnitFile.template]
    simp
  have hhole : ∀ ts : List TemplateLine, (∀ t ∈ ts, t ≠ .workdir) → ∀ d d',
      ts.map (TemplateLine.fill s.values d) = ts.map (TemplateLine.fill s.values d') := by
    intro ts hts d d'
    refine List.map_congr_left fun t ht => ?_
    cases t with
    | bare | fixed | hole => rfl
    | workdir => exact absurd rfl (hts _ ht)
  have hDIRECTORY : "WorkingDirectory=".toList ++ "/opt/dp-beget-bridge".toList ++ ['\n'] = DIRECTORY := by
    unfold DIRECTORY
    repeat rw [String.toList_ofList]
    rfl
  have habove : ∀ l ∈ (unit.above.map (TemplateLine.fill s.values "/opt/dp-beget-bridge".toList)).map Line.text,
      '\n' ∉ l ∧ ¬ DIRECTORY <:+: l ++ ['\n'] := by
    intro text htext
    obtain ⟨l, hl, rfl⟩ := List.mem_map.mp htext
    obtain ⟨t, ht, rfl⟩ := List.mem_map.mp hl
    have hfine := fine unit t (mem_template.mpr (.inl ht))
    have hd : '\n' ∉ "/opt/dp-beget-bridge".toList := by
      rw [String.toList_ofList]
      decide
    exact ⟨newline_not_mem_text (proper_fill hfine (fun k => h.not_mem_values (by decide) (by decide) (by decide)) hd),
      DIRECTORY_not_in hfine (fun k => h.not_mem_values (by decide) (by decide) (by decide)) ((ne_workdir unit).1 t ht)⟩
  rw [hsplit, hDIRECTORY, replaceFirst_unlines inLine_DIRECTORY (fun l hl => (habove l hl).1)
    (fun l hl => (habove l hl).2), replaceFirst_self inLine_DIRECTORY.1, unitLines, hsplit,
    hhole _ (ne_workdir unit).1 _ (s.releaseRoot ++ "/current".toList),
    hhole _ (ne_workdir unit).2 _ (s.releaseRoot ++ "/current".toList)]
  rfl

/-! ### All at once -/

theorem inLine_rules : ∀ r ∈ rules s unit, InLine r.1 := by
  intro r hr
  rcases List.mem_append.mp hr with hr | hr
  · obtain ⟨k, -, rfl⟩ := List.mem_map.mp hr
    exact k.inLine_mark
  · obtain rfl := List.mem_singleton.mp hr
    exact inLine_DIRECTORY

/-- The mark of a placeholder is found by its rule. -/
theorem find_mark {k : Placeholder} (hk : k ∈ unit.replacements) :
    ((rules s unit).find? fun r => r.1.isPrefixOf (k.mark.toList ++ ['\n'])) = some (k.mark.toList, s.values k) := by
  have hself : ∀ ks : List Placeholder, k ∈ ks →
      ((ks.map fun k => (k.mark.toList, s.values k)).find? fun r => r.1.isPrefixOf (k.mark.toList ++ ['\n'])) =
        some (k.mark.toList, s.values k) := by
    intro ks hks
    induction ks with
    | nil => exact absurd hks List.not_mem_nil
    | cons j ks ih =>
      rw [List.map_cons]
      by_cases hj : j = k
      · subst hj
        rw [List.find?_cons_of_pos]
        exact List.isPrefixOf_iff_prefix.mpr (List.prefix_append _ _)
      · have hks := (List.mem_cons.mp hks).resolve_left fun h => hj h.symm
        rw [List.find?_cons_of_neg, ih hks]
        rw [List.isPrefixOf_iff_prefix]
        exact fun h => Placeholder.mark_not_in hj h.isInfix
  rw [rules, List.find?_append, hself _ hk, Option.some_or]

/-- In one line, a rule replaces what it is for. -/
theorem replaceEach_line {t : TemplateLine} (ht : t ∈ unit.template) :
    replaceEach (rules s unit)
        ((t.fill (fun k => k.mark.toList) "/opt/dp-beget-bridge".toList).text ++ ['\n']) =
      (t.fill s.values (s.releaseRoot ++ "/current".toList)).text ++ ['\n'] := by
  have hfine := fine unit t ht
  have hmark : ∀ k : Placeholder, '=' ∉ k.mark.toList := by
    intro k
    rw [Placeholder.mark_toList]
    cases k
    all_goals
      unfold Placeholder.key
      rw [String.toList_ofList]
      decide
  have hplain : ∀ text : Text, '_' ∉ text → ¬ DIRECTORY <:+: text → replaceEach (rules s unit) text = text := by
    intro text hunderscore hdirectory
    refine replaceEach_of_absent fun r hr hin => ?_
    rcases List.mem_append.mp hr with hr | hr
    · obtain ⟨k, -, rfl⟩ := List.mem_map.mp hr
      exact hunderscore (hin.subset (List.mem_of_mem_head? head_mark))
    · obtain rfl := List.mem_singleton.mp hr
      exact hdirectory hin
  have hend : replaceEach (rules s unit) ['\n'] = ['\n'] := by
    refine hplain _ (by decide) fun hin => ?_
    have heq : '=' ∈ DIRECTORY := by
      rw [DIRECTORY_eq]
      simp
    exact absurd (hin.subset heq) (by decide)
  by_cases hw : t = .workdir
  · subst hw
    have htext : ((TemplateLine.workdir).fill (fun k => k.mark.toList) "/opt/dp-beget-bridge".toList).text ++ ['\n'] =
        DIRECTORY ++ [] := by
      rw [DIRECTORY_eq]
      simp [TemplateLine.fill, Line.text]
    have hfind : ((rules s unit).find? fun r => r.1.isPrefixOf (DIRECTORY ++ [])) = some (DIRECTORY, s.directory) := by
      have hnone : ((unit.replacements.map fun k => (k.mark.toList, s.values k)).find? fun r =>
          r.1.isPrefixOf (DIRECTORY ++ [])) = none := by
        rw [List.find?_eq_none]
        intro r hr hstart
        obtain ⟨k, -, rfl⟩ := List.mem_map.mp hr
        have hDIRECTORY : DIRECTORY.head? = some 'W' := by
          unfold DIRECTORY
          rw [String.toList_ofList]
          rfl
        obtain ⟨rest, hrest⟩ := List.head?_eq_some_iff.mp hDIRECTORY
        rw [List.isPrefixOf_iff_prefix, Placeholder.mark_toList, List.append_nil, hrest] at hstart
        exact absurd (List.cons_prefix_cons.mp hstart).1 (by decide)
      rw [rules, List.find?_append, hnone, Option.none_or, List.find?_cons_of_pos]
      exact List.isPrefixOf_iff_prefix.mpr (List.prefix_append _ _)
    rw [htext, replaceEach_self inLine_DIRECTORY.1 hfind]
    have hvalue := text_workdir s.values (s.releaseRoot ++ "/current".toList)
    simp only [List.map_cons, List.map_nil, unlines, List.flatMap_cons, List.flatMap_nil, List.append_nil] at hvalue
    rw [hvalue]
    exact List.append_nil _
  · have hdirectory := DIRECTORY_not_in (d := "/opt/dp-beget-bridge".toList) hfine hmark hw
    cases t with
    | bare text =>
      refine hplain _ ?_ hdirectory
      simpa [TemplateLine.fill, Line.text] using hfine.2.2
    | fixed key value =>
      refine hplain _ ?_ hdirectory
      simpa [TemplateLine.fill, Line.text] using ⟨hfine.1.2.2, hfine.2.1.2.2⟩
    | hole key before k =>
      have hsplit : ∀ v : Text, key.toList ++ '=' :: (before.toList ++ v) ++ ['\n'] =
          (key.toList ++ '=' :: before.toList) ++ (v ++ ['\n']) := fun v => by simp
      rw [TemplateLine.fill, Line.text, hsplit] at hdirectory
      rw [TemplateLine.fill, TemplateLine.fill, Line.text, Line.text, hsplit, hsplit, replaceEach_append ?_,
        replaceEach_self k.inLine_mark.1 (find_mark (hole_mem ht)), hend]
      intro r hr
      rcases List.mem_append.mp hr with hr | hr
      · obtain ⟨j, -, rfl⟩ := List.mem_map.mp hr
        exact .inl ⟨'_', head_mark, by simpa using ⟨hfine.1.2.2, hfine.2.1.2.2⟩⟩
      · obtain rfl := List.mem_singleton.mp hr
        exact .inr hdirectory
    | workdir => exact absurd rfl hw

/-- **All at once**: the unit is the template with every placeholder and the working directory replaced by the rules. -/
theorem simultaneous : replaceEach (rules s unit) (signedTemplates unit) = fileText (unitLines s unit) := by
  have hd : '\n' ∉ "/opt/dp-beget-bridge".toList := by
    rw [String.toList_ofList]
    decide
  rw [signedTemplates_eq, fileText, replaceEach_unlines inLine_rules
    (lines_fill (fine unit) (fun k => k.newline_not_mem_mark) hd), fileText, unlines, unitLines, List.map_map,
    List.map_map, List.flatMap_map, List.flatMap_map]
  exact List.flatMap_congr fun t ht => replaceEach_line ht

/-! ### What is rendered, and when -/

theorem length16_eq (text : Text) : length16 text = (text.map fun c => if c.toNat < 0x10000 then 1 else 2).sum := by
  rw [length16, utf16Length, String.toList_ofList]

/-- What is checked of a template. -/
theorem template_checks (unit : UnitFile) :
    length16 (signedTemplates unit) ≤ 16 * 1024 ∧ DIRECTORY <:+: signedTemplates unit ∧
      occurrences DIRECTORY 0 (signedTemplates unit) = 1 ∧
      (placeholders 0 (signedTemplates unit)).Perm unit.required := by
  rw [length16_eq]
  unfold signedTemplates DIRECTORY
  cases unit
  all_goals
    unfold UnitFile.signed UnitFile.required
    simp only [List.map_cons, List.map_nil]
    repeat rw [String.toList_ofList]
  all_goals decide +kernel

/-- The beginning of a mark. -/
def opening : Text := "__DP_".toList

theorem head_opening : opening.head? = some '_' := by
  unfold opening
  rw [String.toList_ofList]
  rfl

theorem opening_not_in_name (h : s.Clean) {k : Placeholder} (hk : k ≠ .allowedRoot) : ¬ opening <:+: s.values k := by
  intro hin
  have hD : 'D' ∈ opening := by
    unfold opening
    rw [String.toList_ofList]
    decide
  exact h.not_mem_name hk (by decide) (by decide) (hin.subset hD)

/-- Only the paths may hold what looks like a mark. -/
theorem opening_not_in (h : s.Clean) (hallowed : ¬ opening <:+: s.allowedRoot) (hrelease : ¬ opening <:+: s.releaseRoot) :
    ¬ opening <:+: fileText (unitLines s unit) := by
  intro hin
  have hline : '\n' ∉ opening ∧ opening ≠ [] := by
    unfold opening
    rw [String.toList_ofList]
    decide
  obtain ⟨text, htext, hin⟩ := in_line_of_unlines hline.2 hline.1 hin
  obtain ⟨l, hl, rfl⟩ := List.mem_map.mp htext
  obtain ⟨t, ht, rfl⟩ := List.mem_map.mp hl
  have hfine := fine unit t ht
  have hstart : ∀ {a b : Text}, '_' ∉ a → opening <:+: a ++ b → opening <:+: b := in_of_head head_opening
  cases t with
  | bare text => exact hfine.2.2 (hin.subset (List.mem_of_mem_head? head_opening))
  | fixed key value =>
    have hmem := hin.subset (List.mem_of_mem_head? head_opening)
    simp only [TemplateLine.fill, Line.text, List.mem_append, List.mem_cons, (by decide : '_' ≠ '='), false_or] at hmem
    exact hmem.elim hfine.1.2.2 hfine.2.1.2.2
  | hole key before k =>
    have hsplit : key.toList ++ '=' :: (before.toList ++ s.values k) = (key.toList ++ '=' :: before.toList) ++ s.values k := by
      simp
    rw [TemplateLine.fill, Line.text, hsplit] at hin
    have hvalue := hstart (by simpa using ⟨hfine.1.2.2, hfine.2.1.2.2⟩) hin
    by_cases hk : k = .allowedRoot
    · subst hk
      exact hallowed hvalue
    · exact opening_not_in_name h hk hvalue
  | workdir =>
    have hkey : '_' ∉ "WorkingDirectory".toList ++ ['='] ∧ '_' ∉ "/current".toList := by
      repeat rw [String.toList_ofList]
      decide
    rw [TemplateLine.fill, Line.text, List.append_cons] at hin
    have hlast : opening.getLast? = some '_' := by
      unfold opening
      rw [String.toList_ofList]
      rfl
    exact hrelease (in_of_getLast hlast hkey.2 (hstart hkey.1 hin))

theorem opening_in_of_root (hrelease : opening <:+: s.releaseRoot) : opening <:+: fileText (unitLines s unit) := by
  refine in_of_mem_line (l := ((TemplateLine.workdir).fill s.values (s.releaseRoot ++ "/current".toList)).text)
    (List.mem_map_of_mem (List.mem_map_of_mem (mem_template.mpr (.inr (.inl rfl))))) (hrelease.trans ?_)
  exact ⟨"WorkingDirectory".toList ++ ['='], "/current".toList, by simp [TemplateLine.fill, Line.text]⟩

theorem opening_in_of_allowedRoot (hallowed : opening <:+: s.allowedRoot) :
    opening <:+: fileText (unitLines s .sessionHost) := by
  have hmem : .hole "ReadWritePaths" "/var/lib/dp-beget-bridge " .allowedRoot ∈ UnitFile.sessionHost.template := by
    simp [UnitFile.template, UnitFile.below]
  refine in_of_mem_line (List.mem_map_of_mem (List.mem_map_of_mem hmem)) (hallowed.trans ?_)
  exact ⟨"ReadWritePaths".toList ++ '=' :: "/var/lib/dp-beget-bridge ".toList, [], by
    simp [TemplateLine.fill, Line.text, Selection.values]⟩

/-- **One unit is rendered** to its lines, unless they hold what looks like a mark. -/
theorem renderUnit_spec (h : s.Clean) {text : Text} :
    renderUnit s unit (signedTemplates unit) = .ok text ↔
      ¬ opening <:+: fileText (unitLines s unit) ∧ fileText (unitLines s unit) = text := by
  obtain ⟨hlength, hin, honce, hfound⟩ := template_checks unit
  have hlast : (fileText (unitLines s unit)).getLast? = some '\n' := by
    refine getLast_unlines ?_
    simp [unitLines, UnitFile.template]
  have hshape : (decide (length16 (signedTemplates unit) ≤ 16 * 1024) && decide (DIRECTORY <:+: signedTemplates unit) &&
      occurrences DIRECTORY 0 (signedTemplates unit) + 1 == 2) = true := by
    simp [hlength, hin, honce]
  rw [renderUnit]
  dsimp only
  rw [replaced_eq h, directory_eq h, hshape, sameStrings_iff.mpr hfound, hlast]
  simp only [bind_ok, check_ok, pure_ok, exists_const, Bool.and_eq_true, Bool.not_eq_true', decide_eq_false_iff_not,
    beq_self_eq_true, and_true, true_and, opening]

end Units

/-! ## The three units -/

/-- A selection whose units are rendered. -/
structure Selection.Allowed (s : Selection) : Prop where
  releaseRoot : pathText s.releaseRoot = true
  allowedRoot : pathText s.allowedRoot = true
  workUser : safeText s.workUser = true
  workGroup : safeText s.workGroup = true
  agentUser : safeText s.agentUser = true
  mcpUser : safeText s.mcpUser = true
  ipcGroup : safeText s.ipcGroup = true
  separate : s.separate = true
  unmarkedAllowed : ¬ opening <:+: s.allowedRoot
  unmarkedRelease : ¬ opening <:+: s.releaseRoot

theorem safeText_chars {name : Text} (h : safeText name = true) : ∀ c ∈ name, nameChar c ∨ c = '$' := by
  unfold safeText at h
  simp only [Bool.and_eq_true] at h
  obtain ⟨⟨hhead, hrest⟩, -⟩ := h
  cases name with
  | nil => exact fun c hc => absurd hc List.not_mem_nil
  | cons first rest =>
    have hfirst : nameChar first = true := by
      simp only [List.head?_cons, Option.any_some, nameStart, Bool.or_eq_true] at hhead
      rcases hhead with h | h <;> simp [nameChar, h]
    intro c hc
    rcases List.mem_cons.mp hc with rfl | hc
    · exact .inl hfirst
    · rw [List.tail_cons] at hrest
      split at hrest
      · rename_i hdollar
        obtain ⟨init, hinit⟩ := List.getLast?_eq_some_iff.mp (by simpa using hdollar)
        rw [hinit, List.dropLast_concat] at hrest
        rw [hinit] at hc
        rcases List.mem_append.mp hc with hc | hc
        · exact .inl (List.all_eq_true.mp hrest c hc)
        · exact .inr (List.mem_singleton.mp hc)
      · exact .inl (List.all_eq_true.mp hrest c hc)

theorem pathText_chars {value : Text} (h : pathText value = true) : ∀ c ∈ value, pathChar c := by
  unfold pathText at h
  simp only [Bool.and_eq_true, beq_iff_eq] at h
  obtain ⟨⟨⟨⟨-, hhead⟩, -⟩, htail⟩, -⟩ := h
  obtain ⟨rest, rfl⟩ := List.head?_eq_some_iff.mp hhead
  intro c hc
  rcases List.mem_cons.mp hc with rfl | hc
  · decide
  · exact List.all_eq_true.mp htail c hc

theorem clean {s : Selection} (hrelease : pathText s.releaseRoot = true) (hallowed : pathText s.allowedRoot = true)
    (hwork : safeText s.workUser = true) (hgroup : safeText s.workGroup = true) (hagent : safeText s.agentUser = true)
    (hmcp : safeText s.mcpUser = true) (hipc : safeText s.ipcGroup = true) : s.Clean where
  names k hk := by
    cases k with
    | workUser => exact safeText_chars hwork
    | workGroup => exact safeText_chars hgroup
    | agentUser | agentGroup => exact safeText_chars hagent
    | mcpUser | mcpGroup => exact safeText_chars hmcp
    | ipcGroup => exact safeText_chars hipc
    | allowedRoot => exact absurd rfl hk
  allowedRoot := pathText_chars hallowed
  releaseRoot := pathText_chars hrelease

theorem Selection.Allowed.clean {s : Selection} (h : s.Allowed) : s.Clean :=
  InstallCandidate.clean h.releaseRoot h.allowedRoot h.workUser h.workGroup h.agentUser h.mcpUser h.ipcGroup

/-- **The units are rendered** exactly for the selections that are allowed, each to the lines of its template with the
values. -/
theorem renderUnits_spec {s : Selection} {units : UnitFile → Text} :
    renderCleanInstallUnits signedTemplates s = .ok units ↔
      s.Allowed ∧ units = fun unit => fileText (unitLines s unit) := by
  simp only [renderCleanInstallUnits, safePath, checkedPath, safeName, bind_ok, check_ok, pure_ok, exists_const,
    exists_eq_right', exists_and_right]
  constructor
  · rintro ⟨hrelease, hallowed, hwork, hgroup, hagent, -, hmcp, -, hipc, hseparate, sessionHost, hsession, agent, hunit,
      mcp, hlast, rfl⟩
    have hclean := clean hrelease hallowed hwork hgroup hagent hmcp hipc
    obtain ⟨hopening, rfl⟩ := (renderUnit_spec hclean).mp hsession
    obtain ⟨-, rfl⟩ := (renderUnit_spec hclean).mp hunit
    obtain ⟨-, rfl⟩ := (renderUnit_spec hclean).mp hlast
    refine ⟨⟨hrelease, hallowed, hwork, hgroup, hagent, hmcp, hipc, hseparate, ?_, ?_⟩, ?_⟩
    · exact fun h => hopening (opening_in_of_allowedRoot h)
    · exact fun h => hopening (opening_in_of_root h)
    · funext unit
      cases unit <;> rfl
  · rintro ⟨h, rfl⟩
    have hunit : ∀ unit, renderUnit s unit (signedTemplates unit) = .ok (fileText (unitLines s unit)) := fun unit =>
      (renderUnit_spec h.clean).mpr ⟨opening_not_in h.clean h.unmarkedAllowed h.unmarkedRelease, rfl⟩
    refine ⟨h.releaseRoot, h.allowedRoot, h.workUser, h.workGroup, h.agentUser, h.agentUser, h.mcpUser, h.mcpUser,
      h.ipcGroup, h.separate, _, hunit _, _, hunit _, _, hunit _, ?_⟩
    funext unit
    cases unit <;> rfl

/-! ## The environment files -/

/-- Settings whose files are rendered. -/
structure Settings.Allowed (c : Settings) : Prop where
  hostname : hostname c.domain = true
  allowedRoot : pathText c.allowedRoot = true
  selection : validSelection c.mode c.owner c.profile = true
  exclusive : c.exclusive = true
  secrets : c.separateSecrets = true

/-- **The environment files are rendered** exactly for the settings that are allowed. -/
theorem renderConfig_spec {c : Settings} {config : ConfigFile → Text} :
    renderCleanInstallConfig c = .ok config ↔
      c.Allowed ∧ config = fun file => fileText (settingLines (configEntries c (c.domain.map Char.toLower) file)) := by
  simp only [renderCleanInstallConfig, validateHostname, safeRoot, checkedPath, validateCleanInstallAuthSelection, bind_ok,
    check_ok, pure_ok, exists_const, exists_eq_right', exists_and_right]
  constructor
  · rintro ⟨domain, ⟨hhostname, rfl⟩, hroot, hselection, hexclusive, hsecrets, rfl⟩
    exact ⟨⟨hhostname, hroot, hselection, hexclusive, hsecrets⟩, rfl⟩
  · rintro ⟨h, rfl⟩
    exact ⟨_, ⟨h.hostname, rfl⟩, h.allowedRoot, h.selection, h.exclusive, h.secrets, rfl⟩

end BegetBridge.InstallCandidate
