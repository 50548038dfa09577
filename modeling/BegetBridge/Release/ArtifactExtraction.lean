import BegetBridge.Interleaving.Ending
import BegetBridge.Posix.Disk
import BegetBridge.Release.ArtifactArchive

/-!
# The extraction of a release

The entries of an accepted archive become directories and files of a new directory. Any call may fail, and
then the new directory is removed, which may fail too.

## Main definitions

* `Volume`: directories and files by their paths
* `extractArchive`: the extraction

## Main results

* `extractArchive_ends`: what is on the volume at any time of an extraction, and when it ends
* `archive_extracted`: accepted archives are safe trees, and safely extracted
* `extraction_left`: a failed extraction that leaves its directory
-/

namespace BegetBridge.Release

open Posix Interleaving

/-- What is at a path. `other` stands for links and special files. -/
inductive Item
  | directory
  | file (bytes : Block)
  | other
  deriving DecidableEq

/-- What is at the paths, and every path leads through directories. -/
structure Volume where
  items : Location → Option Item
  tree : ∀ path name, items (path ++ [name]) ≠ none → path ≠ [] → items path = some .directory

namespace Volume

variable (v : Volume)

/-- Something can be made at the path. -/
def Vacant (path : Location) : Prop :=
  v.items path = none ∧ path ≠ [] ∧ (path.dropLast ≠ [] → v.items path.dropLast = some .directory)

instance (path : Location) : Decidable (v.Vacant path) := inferInstanceAs (Decidable (_ ∧ _ ∧ (_ → _)))

theorem below_none {v : Volume} {path names : Location} (h : v.items path = none) (hne : path ≠ []) :
    v.items (path ++ names) = none := by
  induction names using List.reverseRecOn with
  | nil => rwa [List.append_nil]
  | append_singleton names name ih =>
    rw [← List.append_assoc]
    by_contra hsome
    have hdirectory := v.tree _ _ hsome (by simp [hne])
    rw [ih] at hdirectory
    exact absurd hdirectory nofun

/-- Something is put where there was nothing, or no directory. -/
def put (path : Location) (item : Item) (h : v.Vacant path ∨ ∃ bytes, v.items path = some (.file bytes)) :
    Volume where
  items q := if q = path then some item else v.items q
  tree q name hsome hne := by
    have hparent : v.items (q ++ [name]) ≠ none → q ≠ path := by
      rintro hitem rfl
      have hdirectory := v.tree _ _ hitem hne
      rcases h with ⟨hnone, -⟩ | ⟨bytes, hfile⟩
      · exact absurd (hnone.symm.trans hdirectory) nofun
      · exact absurd (hfile.symm.trans hdirectory) nofun
    by_cases hq : q ++ [name] = path
    · have hq' : q ≠ path := fun heq => by simp [← hq] at heq
      rw [if_neg hq']
      subst hq
      rcases h with ⟨-, -, hdirectory⟩ | ⟨bytes, hfile⟩
      · rw [List.dropLast_concat] at hdirectory
        exact hdirectory hne
      · exact v.tree _ name (by rw [hfile]; exact nofun) hne
    · rw [if_neg hq] at hsome
      rw [if_neg (hparent hsome)]
      exact v.tree _ _ hsome hne

/-- A path is removed with everything below it. -/
def removed (path : Location) : Volume where
  items q := if path <+: q then none else v.items q
  tree q name hsome hne := by
    have hout : ¬path <+: q ++ [name] := fun h => hsome (if_pos h)
    rw [if_neg hout] at hsome
    rw [if_neg fun h => hout (h.trans (List.prefix_append _ _))]
    exact v.tree _ _ hsome hne

end Volume

/-- The calls of an extraction. -/
inductive ExtractCall : Type → Type
  | mkdir (path : Location) : ExtractCall Unit
  | openNew (path : Location) : ExtractCall Unit
  | writeFile (path : Location) (bytes : Block) : ExtractCall Unit
  | close (path : Location) : ExtractCall Unit
  | rm (path : Location) : ExtractCall Unit

/-- What a call does: nothing that is there is opened as new, and a removal of nothing is done. -/
def Volume.exec : {β : Type} → ExtractCall β → Volume → Except Errno (β × Volume)
  | _, .mkdir path, v => if h : v.Vacant path then .ok ((), v.put path .directory (.inl h)) else .error .EEXIST
  | _, .openNew path, v => if h : v.Vacant path then .ok ((), v.put path (.file []) (.inl h)) else .error .EEXIST
  | _, .writeFile path bytes, v =>
    match h : v.items path with
    | some (.file before) => .ok ((), v.put path (.file (before ++ bytes)) (.inr ⟨before, h⟩))
    | _ => .error .other
  | _, .close _, v => .ok ((), v)
  | _, .rm path, v => .ok ((), v.removed path)

def volume : Backend ExtractCall Errno Volume := ⟨Volume.exec⟩

/-- What an extraction throws. -/
inductive ExtractFailure
  | archive (message : String)
  | system (e : Errno)
  deriving DecidableEq

abbrev ExtractScript := Script ExtractCall Errno ExtractFailure

def extractCall {β : Type} (call : ExtractCall β) : ExtractScript β := .perform .system call

/-- `path.join(target, relative)` -/
def destinationOf (target : Location) (relative : List Char) : Location :=
  Posix.normalize target (segments relative)

/-- One round of the loop of `extractVerifiedArtifact`. -/
def extractEntry (target : Location) (entry : ArchiveEntry) : ExtractScript Unit :=
  if entry.directory then extractCall (.mkdir (destinationOf target entry.relative))
  else do
    extractCall (.openNew (destinationOf target entry.relative))
    (extractCall (.writeFile (destinationOf target entry.relative) entry.content)).andFinally
      (extractCall (.close (destinationOf target entry.relative)))

def extractAll (target : Location) : List ArchiveEntry → ExtractScript Unit
  | [] => pure ()
  | entry :: entries => do
    extractEntry target entry
    extractAll target entries

/-- The new directory is made, and the entries in it. Its result is the directory of the release. -/
def extractEntries (target : Location) (version : List Char) (entries : List ArchiveEntry) :
    ExtractScript Location := do
  extractCall (.mkdir target)
  tryCatch (do
    extractAll target entries
    return destinationOf target (releaseRoot version)) fun error => do
      extractCall (.rm target)
      throw error

/-- The end of `extractVerifiedArtifact`: the archive has been verified and unpacked. -/
def extractArchive (target : Location) (unpacked : Block) (version commit : List Char) : ExtractScript Location :=
  match inspectTar unpacked version commit with
  | .error e => throw (.archive e)
  | .ok entries => extractEntries target version entries

/-! ## What is extracted -/

/-- What an entry becomes. -/
def ArchiveEntry.item (entry : ArchiveEntry) : Item := if entry.directory then .directory else .file entry.content

/-- What is at the paths with the new directory, and in it what the entries become. -/
def extracted (v : Volume) (target : Location) (entries : List ArchiveEntry) (q : Location) : Option Item :=
  if target <+: q then
    if q = target then some .directory
    else (entries.find? fun e => destinationOf target e.relative == q).map (·.item)
  else v.items q

/-- Some of the entries, in their order, the last of them perhaps still empty. -/
inductive Stage (entries : List ArchiveEntry) : List ArchiveEntry → Prop
  | done {l r : List ArchiveEntry} (h : entries = l ++ r) : Stage entries l
  | opened {l r : List ArchiveEntry} {e : ArchiveEntry} (h : entries = l ++ e :: r) :
    Stage entries (l ++ [{ e with content := [] }])

/-- The volume as it was, or with the new directory at some stage. -/
def Within (v : Volume) (target : Location) (entries : List ArchiveEntry) (w : Volume) : Prop :=
  w.items = v.items ∨ ∃ stage, Stage entries stage ∧ w.items = extracted v target stage

/-- The destinations of the entries are different ones below the target, and each is in the target or in
the directory of an entry before it. -/
structure Placeable (target : Location) (entries : List ArchiveEntry) : Prop where
  below : ∀ e ∈ entries, target <+: destinationOf target e.relative ∧ destinationOf target e.relative ≠ target
  distinct : (entries.map fun e => destinationOf target e.relative).Nodup
  parents : ∀ l e r, entries = l ++ e :: r → (destinationOf target e.relative).dropLast = target ∨
    ∃ d ∈ l, d.directory = true ∧ destinationOf target d.relative = (destinationOf target e.relative).dropLast

section Placeable

variable {target : Location} {bytes : Block} {root : List Char} {entries l r : List ArchiveEntry}
  {e e' : ArchiveEntry} {v w : Volume}

theorem normalize_safe {names : List Name} (hsafe : ∀ n ∈ names, safeSegment n = true) :
    Posix.normalize target names = target ++ names := by
  induction names generalizing target with
  | nil => rw [List.append_nil]; rfl
  | cons n names ih =>
    have hn := hsafe n List.mem_cons_self
    simp only [safeSegment, Bool.and_eq_true, Bool.not_eq_true', List.isEmpty_eq_false_iff,
      bne_iff_ne] at hn
    have hclimb : climb target n = target ++ [n] := by
      rw [climb, if_neg (by simp [hn.1.1.1, hn.1.2]), if_neg hn.2]
    have hrest := @ih (target ++ [n]) fun m hm => hsafe m (List.mem_cons_of_mem _ hm)
    rw [List.append_assoc, List.singleton_append] at hrest
    rw [← hrest, Posix.normalize, List.foldl_cons, hclimb]
    rfl

/-- **The entries of a safe archive can be placed** one after the other. -/
theorem SafeArchive.placeable (hs : SafeArchive bytes root entries) : Placeable target entries := by
  have hdestination : ∀ e ∈ entries, destinationOf target e.relative = target ++ segments e.relative := by
    intro e he
    obtain ⟨names, hnames, hsafe⟩ := hs.below e he
    exact normalize_safe (hnames ▸ hsafe)
  refine ⟨fun e he => ?_, ?_, fun l e r hsplit => ?_⟩
  · rw [hdestination e he]
    refine ⟨List.prefix_append _ _, fun heq => segments_ne_nil e.relative ?_⟩
    simpa using heq
  · refine List.Nodup.of_map (fun path => joined (path.drop target.length)) ?_
    rw [List.map_map]
    have hback : entries.map ((fun path => joined (path.drop target.length)) ∘ fun e =>
        destinationOf target e.relative) = entries.map (·.relative) := by
      refine List.map_congr_left fun e he => ?_
      rw [Function.comp_apply, hdestination e he, List.drop_left, joined_segments]
    rw [hback]
    exact hs.distinct
  · have he : e ∈ entries := hsplit ▸ List.mem_append_right _ List.mem_cons_self
    have hdrop : (destinationOf target e.relative).dropLast = target ++ (segments e.relative).dropLast := by
      rw [hdestination e he, List.dropLast_append_of_ne_nil (segments_ne_nil _)]
    rcases hs.parents l e r hsplit with hroot | ⟨d, hd, hdirectory, hparent⟩
    · rw [hroot] at hdrop
      exact .inl (hdrop.trans (List.append_nil target))
    · refine .inr ⟨d, hd, hdirectory, ?_⟩
      rw [hdestination d (hsplit ▸ List.mem_append_left _ hd), hparent, hdrop]

/-- A path below the target that no entry has before is a new one. -/
theorem extracted_snoc (hp : Placeable target entries) (hsplit : entries = l ++ e :: r)
    (he : e'.relative = e.relative) (q : Location) : extracted v target (l ++ [e']) q =
      if q = destinationOf target e.relative then some e'.item else extracted v target l q := by
  obtain ⟨hbelow, hne⟩ := hp.below e (hsplit ▸ List.mem_append_right _ List.mem_cons_self)
  have hnew : ∀ d ∈ l, destinationOf target d.relative ≠ destinationOf target e.relative := by
    have hdistinct := hp.distinct
    rw [hsplit, List.map_append, List.nodup_append] at hdistinct
    exact fun d hd => hdistinct.2.2 _ (List.mem_map_of_mem hd) _ (List.mem_map_of_mem List.mem_cons_self)
  by_cases hq : q = destinationOf target e.relative
  · subst hq
    have hnone : (l.find? fun d => destinationOf target d.relative == destinationOf target e.relative) = none :=
      List.find?_eq_none.mpr fun d hd => by simpa using hnew d hd
    rw [if_pos rfl, extracted, if_pos hbelow, if_neg hne, List.find?_append, hnone]
    simp [he]
  · rw [if_neg hq, extracted, extracted, List.find?_append]
    have hother : ([e'].find? fun d => destinationOf target d.relative == q) = none := by
      simp [he, Ne.symm hq]
    rw [hother, Option.or_none]

theorem extracted_vacant (hp : Placeable target entries) (hsplit : entries = l ++ e :: r)
    (hw : w.items = extracted v target l) : w.Vacant (destinationOf target e.relative) := by
  obtain ⟨hbelow, hne⟩ := hp.below e (hsplit ▸ List.mem_append_right _ List.mem_cons_self)
  have hdistinct := hp.distinct
  rw [hsplit, List.map_append, List.nodup_append] at hdistinct
  refine ⟨?_, ?_, fun _ => ?_⟩
  · have hnone : (l.find? fun d => destinationOf target d.relative == destinationOf target e.relative) = none :=
      List.find?_eq_none.mpr fun d hd => by
        simpa using hdistinct.2.2 _ (List.mem_map_of_mem hd) _ (List.mem_map_of_mem List.mem_cons_self)
    rw [hw, extracted, if_pos hbelow, if_neg hne, hnone]
    rfl
  · intro hnil
    rw [hnil] at hbelow hne
    exact hne (List.prefix_nil.mp hbelow).symm
  · rcases hp.parents l e r hsplit with hparent | ⟨d, hd, hdirectory, hparent⟩
    · rw [hw, hparent, extracted, if_pos (List.prefix_refl _), if_pos rfl]
    · obtain ⟨hdbelow, hdne⟩ := hp.below d (hsplit ▸ List.mem_append_left _ hd)
      have hfind : (l.find? fun d' => destinationOf target d'.relative == destinationOf target d.relative) =
          some d := by
        have hsome : (l.find? fun d' =>
            destinationOf target d'.relative == destinationOf target d.relative).isSome = true :=
          List.find?_isSome.mpr ⟨d, hd, beq_self_eq_true _⟩
        obtain ⟨d', hd'⟩ := Option.isSome_iff_exists.mp hsome
        have hsame : destinationOf target d'.relative = destinationOf target d.relative := by
          simpa using List.find?_some hd'
        rw [hd', List.inj_on_of_nodup_map hdistinct.1 (List.mem_of_find?_eq_some hd') hd hsame]
      rw [hw, ← hparent, extracted, if_pos hdbelow, if_neg hdne, hfind, Option.map_some, ArchiveEntry.item,
        if_pos hdirectory]

end Placeable

section Runs

variable {Fault : Errno → Prop} {target : Location} {entries l r : List ArchiveEntry} {e : ArchiveEntry}
  {v w : Volume} {version : List Char}

/-- A call has failed, and not because of what is on the volume. -/
def Failed (Fault : Errno → Prop) (tr : List (Entry ExtractCall Errno)) : Prop :=
  ∃ (β : Type) (call : ExtractCall β) (e : Errno), ⟨call, .error e⟩ ∈ tr ∧ Fault e

theorem Failed.left {tr : List (Entry ExtractCall Errno)} (h : Failed Fault tr) (tr' : List (Entry ExtractCall Errno)) :
    Failed Fault (tr ++ tr') := by
  obtain ⟨β, call, e, hmem, hf⟩ := h
  exact ⟨β, call, e, List.mem_append_left _ hmem, hf⟩

theorem Failed.right {tr' : List (Entry ExtractCall Errno)} (tr : List (Entry ExtractCall Errno))
    (h : Failed Fault tr') : Failed Fault (tr ++ tr') := by
  obtain ⟨β, call, e, hmem, hf⟩ := h
  exact ⟨β, call, e, List.mem_append_right _ hmem, hf⟩

theorem exec_writeFile {path : Location} {before bytes : Block} (h : w.items path = some (.file before)) :
    volume.exec (.writeFile path bytes) w = .ok ((), w.put path (.file (before ++ bytes)) (.inr ⟨before, h⟩)) := by
  simp only [volume, Volume.exec]
  split
  · rename_i before' heq
    obtain rfl : before = before' := by simpa using h.symm.trans heq
    rfl
  · rename_i hno
    exact absurd h (hno before)

theorem close_ends {I : Volume → Prop} {path : Location} (hI : I w) : Script.Ends volume Fault I
    (extractCall (.close path)) (fun tr x w' => w' = w ∧ ∀ e, x = .error e → Failed Fault tr) w := by
  refine Script.ends_answer hI (fun _ w' hexec => ?_) (fun e' hexec => ?_) fun e' hf => ?_
  · obtain ⟨-, rfl⟩ := Prod.mk.inj (Except.ok.inj hexec)
    exact ⟨hI, rfl, fun _ h => absurd h nofun⟩
  · exact absurd hexec nofun
  · exact ⟨rfl, fun _ _ => ⟨_, _, e', List.mem_cons_self, hf⟩⟩

theorem extractEntry_ends (hp : Placeable target entries) (hsplit : entries = l ++ e :: r)
    (hw : w.items = extracted v target l) : Script.Ends volume Fault (Within v target entries)
      (extractEntry target e) (fun tr x w' =>
        match x with
        | .ok _ => w'.items = extracted v target (l ++ [e])
        | .error _ => Failed Fault tr) w := by
  have hwithin : Within v target entries w := .inr ⟨l, .done hsplit, hw⟩
  have hvacant := extracted_vacant hp hsplit hw
  have hdone : ∀ w' : Volume, w'.items = extracted v target (l ++ [e]) → Within v target entries w' :=
    fun w' hw' => .inr ⟨_, .done (by rw [hsplit, List.append_assoc]; rfl), hw'⟩
  rw [extractEntry]
  split
  · rename_i hdirectory
    refine Script.ends_answer hwithin (fun _ w' hexec => ?_) (fun e' hexec => ?_) fun e' hf =>
      ⟨_, _, e', List.mem_cons_self, hf⟩
    · simp only [volume, Volume.exec, dif_pos hvacant, Except.ok.injEq, Prod.mk.injEq, true_and] at hexec
      have hitems : w'.items = extracted v target (l ++ [e]) := by
        rw [← hexec]
        funext q
        rw [extracted_snoc hp hsplit rfl, ArchiveEntry.item, if_pos hdirectory, ← hw]
        rfl
      exact ⟨hdone w' hitems, hitems⟩
    · simp only [volume, Volume.exec, dif_pos hvacant] at hexec
      exact absurd hexec nofun
  · rename_i hfile
    have hsame : ({ e with content := [] } : ArchiveEntry).relative = e.relative := rfl
    refine Script.ends_bind (Script.ends_answer hwithin (fun _ w₁ hexec => ?_) (fun e' hexec => ?_)
      fun e' hf => ⟨_, _, e', List.mem_cons_self, hf⟩)
    · simp only [volume, Volume.exec, dif_pos hvacant, Except.ok.injEq, Prod.mk.injEq, true_and] at hexec
      have hopened : w₁.items = extracted v target (l ++ [{ e with content := [] }]) := by
        rw [← hexec]
        funext q
        rw [extracted_snoc hp hsplit hsame, ArchiveEntry.item, if_neg hfile, ← hw]
        rfl
      have hwithin₁ : Within v target entries w₁ := .inr ⟨_, .opened hsplit, hopened⟩
      have hempty : w₁.items (destinationOf target e.relative) = some (.file []) := by
        rw [hopened, extracted_snoc hp hsplit hsame, if_pos rfl, ArchiveEntry.item, if_neg hfile]
      refine ⟨hwithin₁, Script.ends_finally (Script.ends_answer hwithin₁ (fun _ w₂ hexec => ?_)
        (fun e' hexec => ?_) fun e' hf => ?_)⟩
      · rw [exec_writeFile hempty] at hexec
        obtain ⟨-, rfl⟩ := Prod.mk.inj (Except.ok.inj hexec)
        have hitems : (w₁.put (destinationOf target e.relative) (.file ([] ++ e.content)) (.inr ⟨[], hempty⟩)).items =
            extracted v target (l ++ [e]) := by
          funext q
          rw [extracted_snoc hp hsplit rfl, ArchiveEntry.item, if_neg hfile]
          show (if q = _ then _ else w₁.items q) = _
          rw [hopened, extracted_snoc hp hsplit hsame]
          split <;> rfl
        refine ⟨hdone _ hitems, Script.ends_mono ?_ (close_ends (hdone _ hitems))⟩
        rintro tr (e' | _) w₃ - ⟨rfl, hfailed⟩
        · exact ((hfailed e' rfl).right _).right _
        · exact hitems
      · rw [exec_writeFile hempty] at hexec
        exact absurd hexec nofun
      · -- the file is closed all the same
        have hfailed : Failed Fault [⟨.writeFile (destinationOf target e.relative) e.content, .error e'⟩] :=
          ⟨_, _, e', List.mem_cons_self, hf⟩
        refine Script.ends_mono ?_ (close_ends hwithin₁)
        rintro tr (e₁ | _) w₃ - -
        · exact (hfailed.left _).right _
        · exact (hfailed.left _).right _
    · simp only [volume, Volume.exec, dif_pos hvacant] at hexec
      exact absurd hexec nofun

theorem extractAll_ends (hp : Placeable target entries) (hsplit : entries = l ++ r)
    (hw : w.items = extracted v target l) : Script.Ends volume Fault (Within v target entries)
      (extractAll target r) (fun tr x w' =>
        match x with
        | .ok _ => w'.items = extracted v target entries
        | .error _ => Failed Fault tr) w := by
  induction r generalizing l w with
  | nil =>
    rw [List.append_nil] at hsplit
    subst hsplit
    exact Script.ends_pure (.inr ⟨entries, .done (List.append_nil _).symm, hw⟩) hw
  | cons e r ih =>
    refine Script.ends_bind (Script.ends_mono ?_ (extractEntry_ends hp hsplit hw))
    rintro tr (e' | _) w₁ - hx
    · exact hx
    · refine Script.ends_mono ?_ (ih (by rw [hsplit, List.append_assoc]; rfl) hx)
      rintro tr' (e' | _) w₂ - hx
      · exact hx.right tr
      · exact hx

/-- How an extraction ends: with every entry, or with the volume as it was unless the removal failed. -/
def ExtractionEnds (Fault : Errno → Prop) (v : Volume) (target : Location) (version : List Char)
    (entries : List ArchiveEntry) (tr : List (Entry ExtractCall Errno)) (x : Except ExtractFailure Location)
    (w : Volume) : Prop :=
  match x with
  | .ok directory => directory = destinationOf target (releaseRoot version) ∧ w.items = extracted v target entries
  | .error _ => (w.items = v.items ∨ ∃ e, ⟨.rm target, .error e⟩ ∈ tr) ∧ (v.Vacant target → Failed Fault tr)

theorem extractEntries_ends (hp : Placeable target entries) : Script.Ends volume Fault (Within v target entries)
    (extractEntries target version entries) (ExtractionEnds Fault v target version entries) v := by
  have hstart : Within v target entries v := .inl rfl
  refine Script.ends_bind (Script.ends_answer hstart (fun _ w hexec => ?_) (fun e hexec => ?_) fun e hf => ?_)
  · by_cases hvacant : v.Vacant target
    · simp only [volume, Volume.exec, dif_pos hvacant, Except.ok.injEq, Prod.mk.injEq, true_and] at hexec
      have hbelow : ∀ q, target <+: q → v.items q = none := by
        rintro q ⟨names, rfl⟩
        exact Volume.below_none hvacant.1 hvacant.2.1
      have hmade : w.items = extracted v target [] := by
        rw [← hexec]
        funext q
        show (if q = target then _ else v.items q) = _
        rw [extracted]
        by_cases hq : q = target
        · rw [if_pos hq, if_pos (hq ▸ List.prefix_refl _), if_pos hq]
        · rw [if_neg hq, if_neg hq]
          split
          · exact hbelow q ‹_›
          · rfl
      refine ⟨.inr ⟨[], .done rfl, hmade⟩, Script.ends_tryCatch (Script.ends_bind (Script.ends_mono ?_
        (extractAll_ends hp rfl hmade)))⟩
      rintro tr (e | _) w₁ hwithin hx
      · -- the new directory is removed
        refine Script.ends_bind (Script.ends_answer hwithin (fun _ w₂ hexec => ?_) (fun e' hexec => ?_)
          fun e' hf => ?_)
        · obtain ⟨-, rfl⟩ := Prod.mk.inj (Except.ok.inj hexec)
          have hitems : (w₁.removed target).items = v.items := by
            funext q
            show (if target <+: q then none else w₁.items q) = _
            split
            · exact (hbelow q ‹_›).symm
            · rename_i hout
              rcases hwithin with heq | ⟨stage, -, heq⟩
              · rw [heq]
              · rw [heq, extracted, if_neg hout]
          refine ⟨.inl hitems, Script.ends_throw (.inl hitems) ⟨.inl hitems, fun _ => ?_⟩⟩
          exact (hx.left _).right _
        · exact absurd hexec nofun
        · refine ⟨.inr ⟨e', ?_⟩, fun _ => (hx.left _).right _⟩
          simp
      · exact Script.ends_pure hwithin ⟨rfl, hx⟩
    · simp only [volume, Volume.exec, dif_neg hvacant] at hexec
      exact absurd hexec nofun
  · refine ⟨.inl rfl, fun hvacant => ?_⟩
    simp only [volume, Volume.exec, dif_pos hvacant] at hexec
    exact absurd hexec nofun
  · exact ⟨.inl rfl, fun _ => ⟨_, _, e, List.mem_cons_self, hf⟩⟩

end Runs

/-- **An accepted archive is a safe tree, and its extraction keeps to the new directory**: at any time the
volume is as it was, or it has the new directory with the first of the entries. An extraction that fails
leaves no directory, unless the removal of the directory fails. -/
theorem archive_extracted {unpacked : Block} {version commit : List Char} {entries : List ArchiveEntry}
    (h : inspectTar unpacked version commit = .ok entries) (target : Location) :
    SafeArchive unpacked (releaseRoot version) entries ∧ ∀ (Fault : Errno → Prop) (v : Volume),
      (∀ tr w, Visits volume Fault (extractArchive target unpacked version commit).run v tr w →
        Within v target entries w) ∧
      ∀ tr x w, Runs volume Fault (extractArchive target unpacked version commit).run v tr x w →
        ExtractionEnds Fault v target version entries tr x w := by
  have hsafe := inspectTar_safe h
  refine ⟨hsafe, fun Fault v => ?_⟩
  have hends : Script.Ends volume Fault (Within v target entries) (extractEntries target version entries)
      (ExtractionEnds Fault v target version entries) v := extractEntries_ends hsafe.placeable
  rw [extractArchive, h]
  exact ⟨fun tr w hv => Prog.Ends.visits hends hv, fun tr x w hr => Prog.Ends.runs hends hr⟩

def emptyVolume : Volume := ⟨fun _ => none, fun _ _ h => absurd rfl h⟩

/-- The sample is extracted to an empty volume, without failures. -/
theorem archive_extracted_sample : SafeArchive sampleArchive (releaseRoot ['1']) sampleEntries ∧ ∃ tr directory w,
    Runs volume (fun _ => False) (extractArchive [['t']] sampleArchive ['1'] sampleCommit).run emptyVolume tr
      (.ok directory) w ∧ w.items = extracted emptyVolume [['t']] sampleEntries := by
  obtain ⟨hsafe, hextraction⟩ := archive_extracted sampleArchive_accepted [['t']]
  obtain ⟨-, hruns⟩ := hextraction (fun _ => False) emptyVolume
  obtain ⟨tr, x, w, hrun⟩ : ∃ tr x w, Runs volume (fun _ => False)
      (extractArchive [['t']] sampleArchive ['1'] sampleCommit).run emptyVolume tr x w := ⟨_, _, _, eval_runs _ _⟩
  have hvacant : emptyVolume.Vacant [['t']] := by decide
  rcases x with e | directory
  · -- nothing fails
    obtain ⟨_, _, _, -, hf⟩ := (hruns _ _ _ hrun).2 hvacant
    exact hf.elim
  · exact ⟨hsafe, tr, directory, w, hrun, (hruns _ _ _ hrun).2⟩

/-- The file cannot be written, and then the directory cannot be removed. -/
theorem extraction_left : ∃ tr w,
    Runs volume (fun _ => True) (extractArchive [['t']] sampleArchive ['1'] sampleCommit).run emptyVolume tr
      (.error (.system .other)) w ∧
    emptyVolume.items [['t']] = none ∧ w.items [['t']] = some .directory := by
  have hplanned : Runs volume (fun _ => True) (extractEntries [['t']] ['1'] sampleEntries).run emptyVolume _ _ _ :=
    Prog.planned_runs (fun _ => trivial) _ [none, none, none, some .other, none, some .other] _
  rw [extractArchive, sampleArchive_accepted]
  exact ⟨_, _, hplanned, rfl, by decide +kernel⟩

end BegetBridge.Release
