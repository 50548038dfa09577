import BegetBridge.Interleaving.Handler
import BegetBridge.Release.VersionPointer

/-!
# When a version switch is all or nothing

Any calls of a switch may fail, also those of the rollback and of the cleanup. The links are replaced or left as they
were, except where the removal of the lock fails, where the last call fails after a success, where a call fails after
`previous` was replaced, and where the health callback throws an `AggregateError`.

## Main definitions

* `Accepts`: the release roots that a switch accepts
* `failed`: the places of the calls that have failed
* `AllOrNothing`, `Spared`: what a switch should do, and when it does

## Main results

* `ends_atomicLink`: how one replacement ends
* `version_switch_all_or_nothing`: the condition is exact
* `once_switchVersion`: the health of the candidate is asked for once at most
-/

namespace BegetBridge.VersionPointer

open Core Interleaving Journal

/-! ## Calls that fail -/

def SwitchOp.place {β : Type} : SwitchOp β → Place
  | .realRoot place => place
  | .realReleases place => place
  | .isDirectory place _ => place
  | .isReal place _ => place
  | .isPackageFile place _ => place
  | .readPackage place _ => place
  | .readSchemas place _ => place
  | .isLink place _ => place
  | .readlink place _ => place
  | .mkdir place _ => place
  | .rmdir place _ => place
  | .sync place => place
  | .symlink place _ _ => place
  | .rename place _ _ => place
  | .unlink place _ => place
  | .checkHealthy place => place

/-- The place of a call that has failed. That a name is missing, and what the callback throws, are no failures. -/
def failing (x : Entry SwitchOp FsError) : Option Place :=
  match x.reply with
  | .ok _ => none
  | .error .noEntry => none
  | .error (.callback _) => none
  | .error _ => some x.op.place

def failed (tr : List (Entry SwitchOp FsError)) : List Place := tr.filterMap failing

@[simp] theorem failed_nil : failed [] = [] := rfl

@[simp] theorem failed_append (tr tr' : List (Entry SwitchOp FsError)) : failed (tr ++ tr') = failed tr ++ failed tr' :=
  List.filterMap_append

@[simp] theorem failed_cons_ok {β : Type} (op : SwitchOp β) (b : β) (tr : List (Entry SwitchOp FsError)) :
    failed (⟨op, .ok b⟩ :: tr) = failed tr := rfl

@[simp] theorem failed_cons_io {β : Type} (op : SwitchOp β) (tr : List (Entry SwitchOp FsError)) :
    failed (⟨op, .error .io⟩ :: tr) = op.place :: failed tr := rfl

@[simp] theorem failed_ok {β : Type} (op : SwitchOp β) (b : β) : failed [⟨op, .ok b⟩] = [] := rfl

@[simp] theorem failed_io {β : Type} (op : SwitchOp β) : failed [⟨op, .error .io⟩] = [op.place] := rfl

@[simp] theorem failed_noEntry {β : Type} (op : SwitchOp β) : failed [⟨op, .error .noEntry⟩] = [] := rfl

@[simp] theorem failed_taken {β : Type} (op : SwitchOp β) : failed [⟨op, .error .taken⟩] = [op.place] := rfl

@[simp] theorem failed_callback {β : Type} (op : SwitchOp β) (b : Bool) : failed [⟨op, .error (.callback b)⟩] = [] := rfl

/-! ## What is only looked at -/

section Looks

variable {I : ReleaseRoot → Prop} {place : Place} {α β : Type} {s : ReleaseRoot}

/-- The program leaves the root, and ends with the value, unless a call fails. -/
def Looks (I : ReleaseRoot → Prop) (place : Place) (p : SwitchScript α) (a : α) (s : ReleaseRoot) : Prop :=
  Script.Ends switchBackend Fault I p (fun tr r s' => s' = s ∧
    (r = .ok a ∧ failed tr = [] ∨ r = .error (.call .io) ∧ failed tr = [place])) s

theorem looks_pure {a : α} (hI : I s) : Looks I place (pure a) a s :=
  Script.ends_pure hI ⟨rfl, .inl ⟨rfl, rfl⟩⟩

theorem looks_bind {p : SwitchScript β} {f : β → SwitchScript α} {b : β} {a : α} (hp : Looks I place p b s)
    (hf : Looks I place (f b) a s) : Looks I place (p >>= f) a s := by
  refine Script.ends_bind (Script.ends_mono ?_ hp)
  rintro tr r s' - ⟨rfl, ⟨rfl, htr⟩ | ⟨rfl, htr⟩⟩
  · refine Script.ends_mono ?_ hf
    rintro tr' r' s'' - ⟨rfl, hend⟩
    refine ⟨rfl, ?_⟩
    rwa [failed_append, htr, List.nil_append]
  · exact ⟨rfl, .inr ⟨rfl, htr⟩⟩

theorem looks_op {op : SwitchOp α} {a : α} (hI : I s) (hexec : op.exec s = .ok (a, s)) :
    Looks I op.place (perform op) a s := by
  refine Script.ends_answer hI ?_ ?_ ?_
  · intro b s' h
    obtain ⟨rfl, rfl⟩ := Prod.mk.inj (Except.ok.inj (hexec.symm.trans h))
    exact ⟨hI, rfl, .inl ⟨rfl, rfl⟩⟩
  · intro e h
    cases hexec.symm.trans h
  · rintro e rfl
    exact ⟨rfl, .inr ⟨rfl, rfl⟩⟩

theorem looks_demand {holds : Bool} {text : String} (hI : I s) (h : holds = true) :
    Looks I place (demand holds text) () s := by
  subst h
  exact looks_pure hI

end Looks

/-- The release can be activated. -/
structure ReleaseOk (s : ReleaseRoot) (name : String) : Prop where
  directory : s.releases.directory name = some true
  real : s.releases.real name = true
  packageFile : s.releases.packageFile name = some true
  package : ∃ version, versionOf name = some version ∧ s.releases.package name = some ("dp-beget-bridge", version)

/-- The target of a link. -/
def ReleaseRoot.target (s : ReleaseRoot) (name : Name) : Option String :=
  match s.entries name with
  | some (.link target) => some target
  | _ => none

/-- The link is missing, or names a release that can be activated. -/
def LinkOk (s : ReleaseRoot) (name : Name) : Prop :=
  s.entries name = none ∨ ∃ release, s.entries name = some (.link ("releases/" ++ release)) ∧ ReleaseOk s release

section Looks

variable {I : ReleaseRoot → Prop} {place : Place} {s s' : ReleaseRoot} {name : Name} {release : String}

theorem ReleaseOk.congr (h : ReleaseOk s release) (hsame : s'.releases = s.releases) : ReleaseOk s' release := by
  obtain ⟨hdirectory, hreal, hfile, hpackage⟩ := h
  rw [← hsame] at hdirectory hreal hfile hpackage
  exact ⟨hdirectory, hreal, hfile, hpackage⟩

theorem LinkOk.congr (h : LinkOk s name) (hsame : s'.releases = s.releases) (hentry : s'.entries name = s.entries name) :
    LinkOk s' name := by
  rcases h with h | ⟨release, h, hok⟩
  · exact .inl (hentry.trans h)
  · exact .inr ⟨release, hentry.trans h, hok.congr hsame⟩

theorem looks_releaseDirectory (hI : I s) (h : ReleaseOk s release) :
    Looks I place (releaseDirectory place release) ("releases/" ++ release) s := by
  obtain ⟨version, hversion, hpackage⟩ := h.package
  unfold releaseDirectory
  rw [hversion]
  have hdirectory : (SwitchOp.isDirectory place release).exec s = .ok (true, s) := by
    simp [SwitchOp.exec, h.directory, orMissing, Except.map]
  have hfile : (SwitchOp.isPackageFile place release).exec s = .ok (true, s) := by
    simp [SwitchOp.exec, h.packageFile, orMissing, Except.map]
  have hread : (SwitchOp.readPackage place release).exec s = .ok (("dp-beget-bridge", version), s) := by
    simp [SwitchOp.exec, hpackage]
  refine looks_bind (looks_op hI hdirectory) (looks_bind (looks_op hI ?_) (looks_bind (looks_demand hI rfl) ?_))
  · simp [SwitchOp.exec, h.real]
  · refine looks_bind (looks_op hI hfile) (looks_bind (looks_demand hI rfl) ?_)
    exact looks_bind (looks_op hI hread) (looks_bind (looks_demand hI (by simp)) (looks_pure hI))

/-- `target.slice("releases/".length)` -/
theorem name_of_target : String.ofList (("releases/" ++ release).toList.drop 9) = release := by
  rw [String.toList_append, List.drop_left' (by decide), String.ofList_toList]

theorem looks_managedLink (hI : I s) (h : LinkOk s name) : Looks I place (managedLink place name) (s.target name) s := by
  unfold managedLink
  rcases h with h | ⟨release, h, hrelease⟩
  · -- the link is missing, and that is caught
    have hmissing : (SwitchOp.isLink place name).exec s = .error .noEntry := by simp [SwitchOp.exec, h, orMissing, Except.map]
    have htarget : s.target name = none := by simp [ReleaseRoot.target, h]
    rw [htarget]
    refine looks_bind (b := none) (Script.ends_tryCatch (Script.ends_bind (Script.ends_answer hI ?_ ?_ ?_))) (looks_pure hI)
    · intro b s' hexec
      cases hmissing.symm.trans hexec
    · intro e hexec
      obtain rfl := Except.error.inj (hmissing.symm.trans hexec)
      exact Script.ends_pure hI ⟨rfl, .inl ⟨rfl, rfl⟩⟩
    · rintro e rfl
      exact Script.ends_throw hI ⟨rfl, .inr ⟨rfl, rfl⟩⟩
  · have hisLink : (SwitchOp.isLink place name).exec s = .ok (true, s) := by
      simp [SwitchOp.exec, h, orMissing, Except.map, Node.isLink]
    have hread : (SwitchOp.readlink place name).exec s = .ok ("releases/" ++ release, s) := by simp [SwitchOp.exec, h]
    have htarget : s.target name = some ("releases/" ++ release) := by simp [ReleaseRoot.target, h]
    rw [htarget]
    refine looks_bind (b := some true) (Script.ends_tryCatch (Script.ends_bind (Script.ends_answer hI ?_ ?_ ?_))) ?_
    · intro b s' hexec
      obtain ⟨rfl, rfl⟩ := Prod.mk.inj (Except.ok.inj (hisLink.symm.trans hexec))
      exact ⟨hI, Script.ends_pure hI ⟨rfl, .inl ⟨rfl, rfl⟩⟩⟩
    · intro e hexec
      cases hisLink.symm.trans hexec
    · rintro e rfl
      exact Script.ends_throw hI ⟨rfl, .inr ⟨rfl, rfl⟩⟩
    · refine looks_bind (looks_demand hI rfl) (looks_bind (looks_op hI hread) (looks_bind (looks_demand hI ?_) ?_))
      · simp
      · rw [name_of_target]
        exact looks_bind (looks_releaseDirectory hI hrelease) (looks_bind (looks_demand hI (by simp)) (looks_pure hI))

end Looks

/-- The release that is active after a switch. -/
def SwitchCall.next (call : SwitchCall) : String := "releases/" ++ call.versionDir

/-- The schemas of the release that a link names. -/
def ReleaseRoot.schemasOf (s : ReleaseRoot) (target : String) : Except String Schemas :=
  s.releases.schemas (String.ofList (target.toList.drop 9))

/-- Where no call fails, the checks under the lock pass. -/
structure Ready (s : ReleaseRoot) (call : SwitchCall) : Prop where
  release : ReleaseOk s call.versionDir
  current : LinkOk s .current
  previous : LinkOk s .previous
  inactive : s.target .current ≠ some call.next
  schemas : ∃ schemas, s.releases.schemas call.versionDir = .ok schemas ∧
    ∀ target, s.target .current = some target → s.schemasOf target = .ok schemas

/-- The root is one that a switch accepts. -/
structure Accepts (s : ReleaseRoot) (call : SwitchCall) : Prop extends Ready s call where
  realRoot : s.releases.realRoot = true
  realReleases : s.releases.realReleases = true
  unlocked : s.entries .lock = none

section Switch

variable {I : ReleaseRoot → Prop} {s : ReleaseRoot} {call : SwitchCall}

theorem looks_readStateCompatibility {name : String} {schemas : Schemas} (hI : I s)
    (h : s.releases.schemas name = .ok schemas) :
    Looks I .prepare (readStateCompatibility name) schemas s := by
  have hread : (SwitchOp.readSchemas .prepare name).exec s = .ok (.ok schemas, s) := by simp [SwitchOp.exec, h]
  exact looks_bind (looks_op hI hread) (looks_pure hI)

theorem looks_prepared (hI : I s) (h : Ready s call) :
    Looks I .prepare (prepared call) (s.target .current, call.next) s := by
  obtain ⟨schemas, hschemas, hsame⟩ := h.schemas
  have hsync : (SwitchOp.sync .prepare).exec s = .ok ((), s) := rfl
  unfold prepared
  refine looks_bind (looks_op hI hsync) ?_
  refine looks_bind (looks_releaseDirectory hI h.release) ?_
  refine looks_bind (looks_managedLink hI h.current) ?_
  refine looks_bind (looks_managedLink hI h.previous) ?_
  refine looks_bind (looks_demand hI (by simpa [SwitchCall.next] using h.inactive)) ?_
  refine looks_bind (looks_readStateCompatibility hI hschemas) ?_
  refine looks_bind (b := ()) ?_ (looks_pure hI)
  cases htarget : s.target .current with
  | none => exact looks_pure hI
  | some target =>
    exact looks_bind (looks_readStateCompatibility hI (hsame target htarget)) (looks_demand hI (by simp))

end Switch

/-! ## One replacement -/

/-- A call has failed before the link was replaced. -/
def Early (use : Use) (places : List Place) : Prop :=
  (∀ p ∈ places, ∃ step, p = .link use step) ∧
    (.link use .symlink ∈ places ∨ .link use .synced ∈ places ∨ .link use .rename ∈ places)

/-- A call has failed after the link was replaced, and none before. -/
def Late (use : Use) (places : List Place) : Prop :=
  places ≠ [] ∧ ∀ p ∈ places, p = .link use .resynced ∨ p = .link use .unlink

/-- A failure that is no callback's. -/
def Plain (e : SwitchError) : Prop := e = .call .io ∨ e = .call .taken

/-- The roots are the same but for the names that are temporary, and one more. -/
structure SameBut (name : Name) (s s' : ReleaseRoot) : Prop where
  entries : ∀ n, n ≠ name → (∀ uuid, n ≠ .temporary uuid) → s'.entries n = s.entries n
  releases : s'.releases = s.releases
  health : s'.health = s.health

/-- How a replacement ends: it is done; or a call has failed before it, or after it. -/
def Replaced (use : Use) (name : Name) (target : String) (s : ReleaseRoot) (places : List Place)
    (r : Except SwitchError Unit) (s' : ReleaseRoot) : Prop :=
  SameBut name s s' ∧
    (r = .ok () ∧ s'.entries name = some (.link target) ∧ places = [] ∨
      (∃ e, r = .error e ∧ Plain e) ∧ s'.entries name = s.entries name ∧ Early use places ∨
      (∃ e, r = .error e ∧ Plain e) ∧ s'.entries name = some (.link target) ∧ Late use places)

section Switch

variable {I : ReleaseRoot → Prop} {s : ReleaseRoot} {use : Use} {name : Name} {target uuid : String}

/-- An operation that is performed, or fails for another reason. -/
theorem ends_op {α β : Type} {op : SwitchOp β} {f : β → SwitchScript α} {b : β} {s' : ReleaseRoot}
    {Q : List (Entry SwitchOp FsError) → Except SwitchError α → ReleaseRoot → Prop} (hI : I s) (hI' : I s')
    (hexec : op.exec s = .ok (b, s'))
    (hok : Script.Ends switchBackend Fault I (f b) (fun tr r s'' => Q (⟨op, .ok b⟩ :: tr) r s'') s')
    (herror : Q [⟨op, .error .io⟩] (.error (.call .io)) s) :
    Script.Ends switchBackend Fault I (perform op >>= f) Q s := by
  refine Script.ends_bind (Script.ends_answer hI ?_ ?_ ?_)
  · intro b' s'' h
    obtain ⟨rfl, rfl⟩ := Prod.mk.inj (Except.ok.inj (hexec.symm.trans h))
    exact ⟨hI', hok⟩
  · intro e h
    cases hexec.symm.trans h
  · rintro e rfl
    exact herror

theorem SameBut.refl : SameBut name s s := ⟨fun _ _ _ => rfl, rfl, rfl⟩

theorem SameBut.trans {s' s'' : ReleaseRoot} (h : SameBut name s s') (h' : SameBut name s' s'') : SameBut name s s'' :=
  ⟨fun n hn hu => (h'.entries n hn hu).trans (h.entries n hn hu), h'.releases.trans h.releases,
    h'.health.trans h.health⟩

theorem SameBut.weaken {s' : ReleaseRoot} (h : SameBut (.temporary uuid) s s') : SameBut name s s' :=
  ⟨fun n _ hu => h.entries n (hu uuid) hu, h.releases, h.health⟩

theorem sameBut_set {node : Option Node} : SameBut name s (s.set name node) :=
  ⟨fun _ hn _ => Function.update_of_ne hn .., rfl, rfl⟩

@[simp] theorem set_entries_self {node : Option Node} : (s.set name node).entries name = node := Function.update_self ..

theorem set_entries_of_ne {node : Option Node} {n : Name} (h : n ≠ name) : (s.set name node).entries n = s.entries n :=
  Function.update_of_ne h ..

/-- What is done at the end of a replacement: the temporary link is removed, if it is there. -/
theorem ends_cleared (hI : ∀ s', s'.entries .current = s.entries .current → I s') :
    Script.Ends switchBackend Fault I
      (tryCatch (do perform (.unlink (.link use .unlink) (.temporary uuid)); perform (.sync (.link use .cleared)))
        (unlessMissing ()))
      (fun tr r s' => SameBut (.temporary uuid) s s' ∧
        (r = .ok () ∧ failed tr = [] ∨
          r = .error (.call .io) ∧ (failed tr = [.link use .unlink] ∨
            s.entries (.temporary uuid) ≠ none ∧ failed tr = [.link use .cleared]))) s := by
  have hremoved : I (s.set (.temporary uuid) none) := hI _ (set_entries_of_ne nofun)
  refine Script.ends_tryCatch (Script.ends_bind (Script.ends_answer (hI s rfl) ?_ ?_ ?_))
  · intro b s' hexec
    by_cases hthere : s.entries (.temporary uuid) = none
    · simp [switchBackend, SwitchOp.exec, hthere] at hexec
    · simp only [switchBackend, SwitchOp.exec, if_neg hthere, Except.ok.injEq, Prod.mk.injEq] at hexec
      obtain ⟨-, rfl⟩ := hexec
      refine ⟨hremoved, Script.ends_answer hremoved ?_ nofun ?_⟩
      · intro b s' hexec
        obtain ⟨-, rfl⟩ := Prod.mk.inj (Except.ok.inj hexec)
        exact ⟨hremoved, sameBut_set, .inl ⟨rfl, rfl⟩⟩
      · rintro e rfl
        exact Script.ends_throw hremoved ⟨sameBut_set, .inr ⟨rfl, .inr ⟨hthere, rfl⟩⟩⟩
  · intro e hexec
    by_cases hthere : s.entries (.temporary uuid) = none
    · simp only [switchBackend, SwitchOp.exec, if_pos hthere, Except.error.injEq] at hexec
      subst hexec
      exact Script.ends_pure (hI s rfl) ⟨.refl, .inl ⟨rfl, rfl⟩⟩
    · simp [switchBackend, SwitchOp.exec, hthere] at hexec
  · rintro e rfl
    exact Script.ends_throw (hI s rfl) ⟨.refl, .inr ⟨rfl, .inl rfl⟩⟩

/-- The calls between the temporary link and its removal: the link is replaced by the second one of them. -/
theorem ends_renamed (hname : ∀ uuid, name ≠ .temporary uuid)
    (hI : ∀ s', s'.entries .current = s.entries .current ∨ name = .current ∧ s'.entries .current = some (.link target) →
      I s')
    (hlink : s.entries (.temporary uuid) = some (.link target)) :
    Script.Ends switchBackend Fault I
      (do perform (.sync (.link use .synced))
          perform (.rename (.link use .rename) (.temporary uuid) name)
          perform (.sync (.link use .resynced)))
      (fun tr r s' =>
        (r = .ok () ∧ failed tr = [] ∨ r = .error (.call .io) ∧ failed tr = [.link use .resynced]) ∧
          s' = (s.set name (some (.link target))).set (.temporary uuid) none ∨
        r = .error (.call .io) ∧ (failed tr = [.link use .synced] ∨ failed tr = [.link use .rename]) ∧ s' = s) s := by
  have hafter : I ((s.set name (some (.link target))).set (.temporary uuid) none) := by
    have hset : ((s.set name (some (.link target))).set (.temporary uuid) none).entries .current =
        (s.set name (some (.link target))).entries .current := set_entries_of_ne (by simp)
    refine hI _ ?_
    rw [hset]
    by_cases hcurrent : name = .current
    · subst hcurrent
      exact .inr ⟨rfl, set_entries_self⟩
    · exact .inl (set_entries_of_ne (Ne.symm hcurrent))
  have hrename : (SwitchOp.rename (.link use .rename) (.temporary uuid) name).exec s =
      .ok ((), (s.set name (some (.link target))).set (.temporary uuid) none) := by simp [SwitchOp.exec, hlink]
  refine ends_op (hI s (.inl rfl)) (hI s (.inl rfl)) rfl ?_ (.inr ⟨rfl, .inl rfl, rfl⟩)
  refine ends_op (hI s (.inl rfl)) hafter hrename ?_ (.inr ⟨rfl, .inr rfl, rfl⟩)
  refine Script.ends_answer hafter ?_ nofun ?_
  · intro b s' hexec
    obtain ⟨-, rfl⟩ := Prod.mk.inj (Except.ok.inj hexec)
    exact ⟨hafter, .inl ⟨.inl ⟨rfl, rfl⟩, rfl⟩⟩
  · rintro e rfl
    exact .inl ⟨.inr ⟨rfl, rfl⟩, rfl⟩

/-- **A replacement** is done, or it fails before or after the link is replaced. -/
theorem ends_atomicLink (hname : ∀ uuid, name ≠ .temporary uuid)
    (hI : ∀ s', s'.entries .current = s.entries .current ∨ name = .current ∧ s'.entries .current = some (.link target) →
      I s') :
    Script.Ends switchBackend Fault I (atomicLink use name target uuid)
      (fun tr r s' => Replaced use name target s (failed tr) r s') s := by
  have hstay : ∀ {s'}, SameBut (.temporary uuid) s s' → s'.entries name = s.entries name := fun h =>
    h.entries name (hname uuid) hname
  have hfirst : ∀ {e}, Plain e → Replaced use name target s [.link use .symlink] (.error e) s := fun he =>
    ⟨.refl, .inr (.inl ⟨⟨_, rfl, he⟩, rfl, by simp, .inl (by simp)⟩)⟩
  refine Script.ends_bind (Script.ends_answer (hI s (.inl rfl)) ?_ ?_ ?_)
  · intro b s₁ hexec
    by_cases hthere : s.entries (.temporary uuid) = none
    · simp only [switchBackend, SwitchOp.exec, if_pos hthere, Except.ok.injEq, Prod.mk.injEq] at hexec
      obtain ⟨-, rfl⟩ := hexec
      have hcurrent : (s.set (.temporary uuid) (some (.link target))).entries .current = s.entries .current :=
        set_entries_of_ne nofun
      have hI₁ : ∀ s', s'.entries .current = (s.set (.temporary uuid) (some (.link target))).entries .current ∨
          name = .current ∧ s'.entries .current = some (.link target) → I s' := fun s' h => hI s' (hcurrent ▸ h)
      refine ⟨hI₁ _ (.inl rfl), Script.ends_finally (Script.ends_mono ?_ (ends_renamed hname hI₁ set_entries_self))⟩
      rintro tr r s₂ hI₂ (⟨hr, rfl⟩ | ⟨rfl, htr, rfl⟩)
      · -- the link is replaced, and the temporary link is gone
        let s₂ := ((s.set (.temporary uuid) (some (.link target))).set name (some (.link target))).set (.temporary uuid) none
        have hgone : s₂.entries (.temporary uuid) = none := set_entries_self
        have hname₂ : s₂.entries name = some (.link target) :=
          (set_entries_of_ne (hname uuid)).trans set_entries_self
        have hsame₂ : SameBut name s s₂ :=
          (SameBut.weaken sameBut_set).trans (sameBut_set.trans (SameBut.weaken sameBut_set))
        have hI₃ : ∀ s', s'.entries .current = s₂.entries .current → I s' := by
          intro s' h
          by_cases hname' : name = .current
          · exact hI s' (.inr ⟨hname', by rw [h, ← hname', hname₂]⟩)
          · exact hI s' (.inl (h.trans (hsame₂.entries .current (Ne.symm hname') nofun)))
        refine Script.ends_mono ?_ (ends_cleared hI₃)
        rintro tr' r' s₃ - ⟨hsame, hr'⟩
        refine ⟨hsame₂.trans hsame.weaken, ?_⟩
        rw [hsame.entries name (hname uuid) hname, hname₂, failed_append, failed_append, failed_ok, List.nil_append]
        rcases hr' with ⟨rfl, htr'⟩ | ⟨rfl, htr' | ⟨hthere, -⟩⟩
        · rcases hr with ⟨rfl, htr⟩ | ⟨rfl, htr⟩
          · exact .inl ⟨rfl, rfl, by rw [htr, htr', List.append_nil]⟩
          · exact .inr (.inr ⟨⟨_, rfl, .inl rfl⟩, rfl, by simp [htr, htr'], by simp [htr, htr']⟩)
        · refine .inr (.inr ⟨⟨_, rfl, .inl rfl⟩, rfl, by simp [htr'], ?_⟩)
          rcases hr with ⟨-, htr⟩ | ⟨-, htr⟩
          · simp [htr, htr']
          · simp [htr, htr']
        · exact absurd hgone hthere
      · -- the link is not replaced, and the temporary link is there
        refine Script.ends_mono ?_ (ends_cleared fun s' h => hI₁ s' (.inl h))
        rintro tr' r' s₃ - ⟨hsame, hr'⟩
        refine ⟨(SameBut.weaken sameBut_set).trans hsame.weaken, .inr (.inl ⟨?_, hstay (sameBut_set.trans hsame), ?_⟩)⟩
        · rcases hr' with ⟨rfl, -⟩ | ⟨rfl, -⟩
          · exact ⟨_, rfl, .inl rfl⟩
          · exact ⟨_, rfl, .inl rfl⟩
        · rw [failed_append, failed_append, failed_ok, List.nil_append]
          refine ⟨?_, .inr (htr.imp (fun h => by simp [h]) fun h => by simp [h])⟩
          intro p hp
          rcases List.mem_append.mp hp with hp | hp
          · rcases htr with htr | htr
            · exact ⟨_, List.mem_singleton.mp (htr ▸ hp)⟩
            · exact ⟨_, List.mem_singleton.mp (htr ▸ hp)⟩
          · rcases hr' with ⟨-, htr'⟩ | ⟨-, htr' | ⟨-, htr'⟩⟩
            · rw [htr'] at hp
              cases hp
            · exact ⟨_, List.mem_singleton.mp (htr' ▸ hp)⟩
            · exact ⟨_, List.mem_singleton.mp (htr' ▸ hp)⟩
    · simp [switchBackend, SwitchOp.exec, hthere] at hexec
  · intro e hexec
    by_cases hthere : s.entries (.temporary uuid) = none
    · simp [switchBackend, SwitchOp.exec, hthere] at hexec
    · simp only [switchBackend, SwitchOp.exec, if_neg hthere, Except.error.injEq] at hexec
      subst hexec
      exact hfirst (.inr rfl)
  · rintro e rfl
    exact hfirst (.inl rfl)

end Switch

/-! ## The switch and its rollback -/

/-- The place is one of the replacements, or the health check. -/
def Working (p : Place) : Prop := p = .health ∨ ∃ step, p = .link .current step ∨ p = .link .previous step

/-- The place is one of the rollback. -/
def Restoring (p : Place) : Prop := p = .inspect ∨ p = .remove ∨ ∃ step, p = .link .rollback step

/-- Something has failed before `previous` was replaced: a call, or the health of the candidate. -/
def Spoiled (places : List Place) (e : SwitchError) (health : Option Bool) : Prop :=
  (∀ p ∈ places, Working p) ∧ ¬Late .previous places ∧
    (Plain e ∧ places ≠ [] ∨ ∃ b, e = .call (.callback b) ∧ health = some b ∧ places = [])

/-- The roots are the same but for the links. -/
structure SameSite (s s' : ReleaseRoot) : Prop where
  lock : s'.entries .lock = s.entries .lock
  releases : s'.releases = s.releases
  health : s'.health = s.health

/-- The link `current` is as before the switch, or names the candidate. -/
def Resolves (former : Option Node) (call : SwitchCall) (s : ReleaseRoot) : Prop :=
  s.entries .current = former ∨ s.entries .current = some (.link call.next)

section Switch

variable {s s' : ReleaseRoot} {call : SwitchCall} {former : Option Node}

theorem SameBut.site {name : Name} (h : SameBut name s s') (hname : name ≠ .lock) : SameSite s s' :=
  ⟨h.entries .lock hname.symm nofun, h.releases, h.health⟩

theorem SameSite.trans {s'' : ReleaseRoot} (h : SameSite s s') (h' : SameSite s' s'') : SameSite s s'' :=
  ⟨h'.lock.trans h.lock, h'.releases.trans h.releases, h'.health.trans h.health⟩

theorem spoiled_of_early {use : Use} {places : List Place} {e : SwitchError} {health : Option Bool}
    (hearly : Early use places) (huse : use = .current ∨ use = .previous) (he : Plain e) : Spoiled places e health := by
  obtain ⟨hall, hsome⟩ := hearly
  refine ⟨fun p hp => ?_, fun hlate => ?_, .inl ⟨he, ?_⟩⟩
  · obtain ⟨step, rfl⟩ := hall p hp
    rcases huse with rfl | rfl
    · exact .inr ⟨step, .inl rfl⟩
    · exact .inr ⟨step, .inr rfl⟩
  · -- a call that has failed late is none of the early ones
    rcases hsome with h | h | h
    · rcases hlate.2 _ h with heq | heq <;> simp at heq
    · rcases hlate.2 _ h with heq | heq <;> simp at heq
    · rcases hlate.2 _ h with heq | heq <;> simp at heq
  · rintro rfl
    simp at hsome

theorem spoiled_of_late {places : List Place} {e : SwitchError} {health : Option Bool} (hlate : Late .current places)
    (he : Plain e) : Spoiled places e health := by
  obtain ⟨hne, hall⟩ := hlate
  refine ⟨fun p hp => ?_, fun hlate => ?_, .inl ⟨he, hne⟩⟩
  · rcases hall p hp with rfl | rfl
    · exact .inr ⟨_, .inl rfl⟩
    · exact .inr ⟨_, .inl rfl⟩
  · obtain ⟨p, hp⟩ := List.exists_mem_of_ne_nil _ hne
    rcases hall p hp with rfl | rfl
    · rcases hlate.2 _ hp with heq | heq <;> simp at heq
    · rcases hlate.2 _ hp with heq | heq <;> simp at heq

/-- How the replacements end, with the health check between them. -/
def Worked (s : ReleaseRoot) (call : SwitchCall) (places : List Place) (r : Except SwitchError Unit) (s' : ReleaseRoot) :
    Prop :=
  SameSite s s' ∧
    ((r = .ok () ∧ places = [] ∧ s.health = none ∧ s'.entries .current = some (.link call.next) ∧
        s'.entries .previous = if s.entries .current = none then s.entries .previous else s.entries .current) ∨
      ∃ e, r = .error e ∧ Resolves (s.entries .current) call s' ∧
        (s'.entries .previous = s.entries .previous ∧ Spoiled places e s.health ∨
          s'.entries .previous = s.entries .current ∧ Plain e ∧ Late .previous places))

theorem checkHealthy_ok {place : Place} {b : Unit}
    (h : switchBackend.exec (.checkHealthy place) s = .ok (b, s')) : s.health = none ∧ s' = s := by
  cases hhealth : s.health with
  | none =>
    simp only [switchBackend, SwitchOp.exec, hhealth, Except.ok.injEq, Prod.mk.injEq] at h
    exact ⟨rfl, h.2.symm⟩
  | some aggregate => simp [switchBackend, SwitchOp.exec, hhealth] at h

theorem checkHealthy_error {place : Place} {e : FsError} (h : switchBackend.exec (.checkHealthy place) s = .error e) :
    ∃ b, e = .callback b ∧ s.health = some b := by
  cases hhealth : s.health with
  | none => simp [switchBackend, SwitchOp.exec, hhealth] at h
  | some aggregate =>
    simp only [switchBackend, SwitchOp.exec, hhealth, Except.error.injEq] at h
    exact ⟨aggregate, h.symm, rfl⟩

theorem ends_replaceLinks (hcurrent : LinkOk s .current) :
    Script.Ends switchBackend Fault (Resolves (s.entries .current) call)
      (replaceLinks call (s.target .current) call.next)
      (fun tr r s' => Worked s call (failed tr) r s') s := by
  refine Script.ends_bind (Script.ends_mono ?_ (ends_atomicLink nofun ?_))
  · rintro tr r s₁ hI₁ ⟨hsame₁, ⟨rfl, hlink, htr⟩ | ⟨⟨e, rfl, he⟩, hlink, hearly⟩ | ⟨⟨e, rfl, he⟩, hlink, hlate⟩⟩
    · -- the candidate is current
      have hprevious₁ : s₁.entries .previous = s.entries .previous := hsame₁.entries .previous nofun nofun
      refine Script.ends_bind (Script.ends_answer hI₁ ?_ ?_ ?_)
      · intro b s₂ hexec
        obtain ⟨hhealth, rfl⟩ := checkHealthy_ok hexec
        refine ⟨hI₁, ?_⟩
        rw [hsame₁.health] at hhealth
        rcases hcurrent with hnone | ⟨release, hformer, -⟩
        · -- there is no former release
          have htarget : s.target .current = none := by simp [ReleaseRoot.target, hnone]
          rw [htarget]
          refine Script.ends_pure hI₁ ⟨hsame₁.site nofun, .inl ⟨rfl, ?_, hhealth, hlink, ?_⟩⟩
          · simpa using htr
          · rw [if_pos hnone, hprevious₁]
        · have htarget : s.target .current = some ("releases/" ++ release) := by simp [ReleaseRoot.target, hformer]
          rw [htarget]
          refine Script.ends_mono ?_ (ends_atomicLink nofun fun s' h => ?_)
          · rintro tr' r s₂ hI₂ ⟨hsame₂, hr⟩
            have hsite : SameSite s s₂ := (hsame₁.site nofun).trans (hsame₂.site nofun)
            rw [failed_append, failed_append, htr, failed_ok, List.nil_append, List.nil_append]
            rcases hr with ⟨rfl, hprevious, htr'⟩ | ⟨⟨e, rfl, he⟩, hprevious, hearly⟩ | ⟨⟨e, rfl, he⟩, hprevious, hlate⟩
            · refine ⟨hsite, .inl ⟨rfl, htr', hhealth, ?_, ?_⟩⟩
              · exact (hsame₂.entries .current nofun nofun).trans hlink
              · rw [hprevious, hformer]
                rfl
            · exact ⟨hsite, .inr ⟨e, rfl, hI₂, .inl ⟨hprevious.trans hprevious₁, spoiled_of_early hearly (.inr rfl) he⟩⟩⟩
            · exact ⟨hsite, .inr ⟨e, rfl, hI₂, .inr ⟨hprevious.trans hformer.symm, he, hlate⟩⟩⟩
          · rcases h with h | ⟨h, -⟩
            · exact .inr (h.trans hlink)
            · cases h
      · intro e hexec
        obtain ⟨b, rfl, hhealth⟩ := checkHealthy_error hexec
        refine ⟨hsame₁.site nofun, .inr ⟨_, rfl, hI₁, .inl ⟨hprevious₁, ?_, ?_, .inr ⟨b, rfl, ?_, ?_⟩⟩⟩⟩
        · simp [htr]
        · simp [htr, Late]
        · rw [← hsame₁.health, hhealth]
        · simp [htr]
      · rintro e rfl
        refine ⟨hsame₁.site nofun, .inr ⟨_, rfl, hI₁, .inl ⟨hprevious₁, ?_, ?_, .inl ⟨.inl rfl, ?_⟩⟩⟩⟩
        · simp [htr, SwitchOp.place, Working]
        · simp [htr, SwitchOp.place, Late]
        · simp [htr]
    · exact ⟨hsame₁.site nofun, .inr ⟨e, rfl, .inl hlink, .inl ⟨hsame₁.entries .previous nofun nofun,
        spoiled_of_early hearly (.inl rfl) he⟩⟩⟩
    · exact ⟨hsame₁.site nofun, .inr ⟨e, rfl, .inr hlink, .inl ⟨hsame₁.entries .previous nofun nofun,
        spoiled_of_late hlate he⟩⟩⟩
  · rintro s' (h | ⟨-, h⟩)
    · exact .inl h
    · exact .inr h

/-- How the rollback ends: the link is as it was, or a call of the rollback has failed. -/
theorem ends_rollback {s₀ : ReleaseRoot} (hready : Ready s₀ call) (hsite : SameSite s₀ s)
    (hI : Resolves (s₀.entries .current) call s) :
    Script.Ends switchBackend Fault (Resolves (s₀.entries .current) call)
      (rollback call (s₀.target .current) call.next)
      (fun tr r s' => SameBut .current s s' ∧
        (r = .ok () ∧ failed tr = [] ∧ s'.entries .current = s₀.entries .current ∨
          (∃ e, r = .error e) ∧ failed tr ≠ [] ∧ ∀ p ∈ failed tr, Restoring p)) s := by
  have hlink : LinkOk s .current := by
    rcases hI with h | h
    · exact hready.current.congr hsite.releases h
    · exact .inr ⟨call.versionDir, h, hready.release.congr hsite.releases⟩
  refine Script.ends_bind (Script.ends_mono ?_ (looks_managedLink hI hlink))
  rintro tr r s₁ hI₁ ⟨hsame, ⟨rfl, htr⟩ | ⟨rfl, htr⟩⟩
  · subst hsame
    show Script.Ends _ _ _ (if _ then _ else _) _ _
    split
    · -- the candidate is current
      rename_i hactive
      cases hformer : s₀.entries .current with
      | none =>
        have htarget : s₀.target .current = none := by simp [ReleaseRoot.target, hformer]
        have hthere : s₁.entries .current ≠ none := by
          intro hnone
          simp [ReleaseRoot.target, hnone] at hactive
        have hunlink : (SwitchOp.unlink .remove .current).exec s₁ = .ok ((), s₁.set .current none) := by
          simp [SwitchOp.exec, hthere]
        have hremoved : Resolves (s₀.entries .current) call (s₁.set .current none) := .inl (by simp [hformer])
        rw [htarget, ← hformer]
        refine ends_op hI₁ hremoved hunlink (Script.ends_answer hremoved ?_ nofun ?_) ?_
        · intro b s' hexec
          obtain ⟨-, rfl⟩ := Prod.mk.inj (Except.ok.inj hexec)
          exact ⟨hremoved, sameBut_set, .inl ⟨rfl, by simp [htr], by simp [hformer]⟩⟩
        · rintro e rfl
          exact ⟨sameBut_set, .inr ⟨⟨_, rfl⟩, by simp [htr], by simp [htr, SwitchOp.place, Restoring]⟩⟩
        · exact ⟨.refl, .inr ⟨⟨_, rfl⟩, by simp [htr], by simp [htr, SwitchOp.place, Restoring]⟩⟩
      | some node =>
        obtain ⟨release, hlink₀⟩ : ∃ release, some node = some (.link ("releases/" ++ release)) := by
          rcases hready.current with hnone | ⟨release, h, -⟩
          · cases hformer.symm.trans hnone
          · exact ⟨release, hformer.symm.trans h⟩
        have htarget : s₀.target .current = some ("releases/" ++ release) := by
          simp [ReleaseRoot.target, hformer, Option.some.inj hlink₀]
        rw [htarget, ← hformer]
        refine Script.ends_mono ?_ (ends_atomicLink nofun ?_)
        · rintro tr' r s₂ - ⟨hsame, hr⟩
          have hplaces : ∀ p, (∃ step, p = Place.link .rollback step) → Restoring p := fun p h => .inr (.inr h)
          rw [failed_append, htr, List.nil_append]
          rcases hr with ⟨rfl, hcurrent, htr'⟩ | ⟨⟨e, rfl, -⟩, -, hall, hsome⟩ | ⟨⟨e, rfl, -⟩, -, hne, hall⟩
          · exact ⟨hsame, .inl ⟨rfl, htr', by rw [hcurrent, hformer, hlink₀]⟩⟩
          · refine ⟨hsame, .inr ⟨⟨e, rfl⟩, ?_, fun p hp => hplaces p (hall p hp)⟩⟩
            intro hnil
            simp [hnil] at hsome
          · refine ⟨hsame, .inr ⟨⟨e, rfl⟩, hne, fun p hp => hplaces p ?_⟩⟩
            rcases hall p hp with rfl | rfl
            · exact ⟨_, rfl⟩
            · exact ⟨_, rfl⟩
        · rintro s' (h | ⟨-, h⟩)
          · exact hI₁.imp h.trans h.trans
          · exact .inl (by rw [h, hformer, hlink₀])
    · -- the link was not replaced
      rename_i hactive
      have hcurrent : s₁.entries .current = s₀.entries .current := by
        rcases hI₁ with h | h
        · exact h
        · exact absurd (by simp [ReleaseRoot.target, h]) hactive
      have hholds : (decide (s₁.target .current = s₀.target .current)) = true := by simp [ReleaseRoot.target, hcurrent]
      rw [hholds]
      exact Script.ends_pure hI₁ ⟨.refl, .inl ⟨rfl, by simp [htr], hcurrent⟩⟩
  · subst hsame
    exact ⟨.refl, .inr ⟨⟨_, rfl⟩, by simp [htr], by simp [htr, Restoring]⟩⟩

/-- How the switch ends under the lock. -/
inductive Switched (s : ReleaseRoot) (call : SwitchCall) (places : List Place) :
    Except SwitchError (String × Option String) → ReleaseRoot → Prop
  | done {r : String × Option String} {s' : ReleaseRoot} (hplaces : places = []) (hhealth : s.health = none)
      (hcurrent : s'.entries .current = some (.link call.next))
      (hprevious : s'.entries .previous =
        if s.entries .current = none then s.entries .previous else s.entries .current) : Switched s call places (.ok r) s'
  | undone {e : SwitchError} {s' : ReleaseRoot} (hcurrent : s'.entries .current = s.entries .current)
      (hprevious : s'.entries .previous = s.entries .previous) (hearly : ¬Late .previous places)
      (hwhy : Plain e ∧ places ≠ [] ∨ ∃ b, e = .call (.callback b) ∧ s.health = some b ∧ places = []) :
      Switched s call places (.error e) s'
  | half {e : SwitchError} {s' : ReleaseRoot} (hcurrent : s'.entries .current = s.entries .current)
      (hprevious : s'.entries .previous = s.entries .current) (hlate : Late .previous places) (he : Plain e) :
      Switched s call places (.error e) s'
  | stuck {e e' : SwitchError} {s' : ReleaseRoot} (hplaces : ∃ p ∈ places, Restoring p) :
      Switched s call places (.error (.aggregate e e')) s'

theorem Switched.congr {s₁ : ReleaseRoot} {places : List Place} {r : Except SwitchError (String × Option String)}
    (h : Switched s₁ call places r s') (hcurrent : s₁.entries .current = s.entries .current)
    (hprevious : s₁.entries .previous = s.entries .previous) (hhealth : s₁.health = s.health) :
    Switched s call places r s' := by
  cases h with
  | done hplaces hwell hcurrent' hprevious' =>
    rw [hcurrent, hprevious] at hprevious'
    exact .done hplaces (hhealth.symm.trans hwell) hcurrent' hprevious'
  | undone hcurrent' hprevious' hearly hwhy =>
    rw [hhealth] at hwhy
    exact .undone (hcurrent'.trans hcurrent) (hprevious'.trans hprevious) hearly hwhy
  | half hcurrent' hprevious' hlate he => exact .half (hcurrent'.trans hcurrent) (hprevious'.trans hcurrent) hlate he
  | stuck hplaces => exact .stuck hplaces

/-- **What is done under the lock** is done, or undone, or half undone, or stuck. -/
theorem ends_switched (hready : Ready s call) :
    Script.Ends switchBackend Fault (Resolves (s.entries .current) call) (switched call)
      (fun tr r s' => SameSite s s' ∧ (∀ p ∈ failed tr, p ≠ .rmdir ∧ p ≠ .last) ∧ Switched s call (failed tr) r s') s := by
  have hworking : ∀ {p}, Working p → p ≠ .rmdir ∧ p ≠ .last := by
    rintro p (rfl | ⟨step, rfl | rfl⟩)
    · simp
    · simp
    · simp
  have hrestoring : ∀ {p}, Restoring p → p ≠ .rmdir ∧ p ≠ .last := by
    rintro p (rfl | rfl | ⟨step, rfl⟩)
    · simp
    · simp
    · simp
  refine Script.ends_bind (Script.ends_mono ?_ (looks_prepared (.inl rfl) hready))
  rintro tr r s₁ hI₁ ⟨hsame, ⟨rfl, htr⟩ | ⟨rfl, htr⟩⟩
  · subst hsame
    refine Script.ends_tryCatch (Script.ends_bind (Script.ends_mono ?_ (ends_replaceLinks hready.current)))
    rintro tr₁ r s₂ hI₂ ⟨hsite, ⟨rfl, htr₁, hhealth, hcurrent, hprevious⟩ | ⟨e, rfl, -, hspoiled⟩⟩
    · refine Script.ends_pure hI₂ ⟨hsite, ?_, ?_⟩
      · simp [htr, htr₁]
      · exact .done (by simp [htr, htr₁]) hhealth hcurrent hprevious
    · have hworked : ∀ p ∈ failed tr₁, p ≠ .rmdir ∧ p ≠ .last := by
        intro p hp
        rcases hspoiled with ⟨-, hall, -⟩ | ⟨-, -, -, hall⟩
        · exact hworking (hall p hp)
        · refine hworking (.inr ?_)
          rcases hall p hp with rfl | rfl
          · exact ⟨_, .inr rfl⟩
          · exact ⟨_, .inr rfl⟩
      -- the links are restored, or the rollback fails
      refine Script.ends_bind (Script.ends_tryCatch (Script.ends_mono ?_ (ends_rollback hready hsite hI₂)))
      rintro tr₂ r s₃ hI₃ ⟨hsame, ⟨rfl, htr₂, hcurrent⟩ | ⟨⟨e', rfl⟩, hne, hall⟩⟩
      · have hprevious₃ : s₃.entries .previous = s₂.entries .previous := hsame.entries .previous nofun nofun
        refine Script.ends_throw hI₃ ⟨hsite.trans (hsame.site nofun), ?_, ?_⟩
        · simpa [htr, htr₂] using hworked
        · simp only [failed_append, htr, htr₂, List.nil_append, List.append_nil]
          rcases hspoiled with ⟨hprevious, -, hearly, hwhy⟩ | ⟨hprevious, he, hlate⟩
          · exact .undone hcurrent (hprevious₃.trans hprevious) hearly hwhy
          · exact .half hcurrent (hprevious₃.trans hprevious) hlate he
      · obtain ⟨p, hp⟩ := List.exists_mem_of_ne_nil _ hne
        refine Script.ends_throw hI₃ ⟨hsite.trans (hsame.site nofun), ?_, ?_⟩
        · intro p hp
          simp only [failed_append, htr, List.nil_append, List.append_nil, List.mem_append] at hp
          rcases hp with hp | hp
          · exact hworked p hp
          · exact hrestoring (hall p hp)
        · exact .stuck ⟨p, by simp [hp], hall p hp⟩
  · subst hsame
    refine ⟨⟨rfl, rfl, rfl⟩, by simp [htr], .undone rfl rfl (by simp [htr, Late]) (.inl ⟨.inl rfl, by simp [htr]⟩)⟩

end Switch

/-! ## All or nothing -/

/-- The error is an `AggregateError`, of the switch or of the callback. -/
def SwitchError.isAggregate : SwitchError → Bool
  | .aggregate _ _ => true
  | .call (.callback true) => true
  | _ => false

/-- What a switch should do: replace both links; or leave them, and remove the lock; or throw an `AggregateError`, and
keep the lock. Without a former release there is nothing that `previous` should name. -/
def AllOrNothing (s : ReleaseRoot) (call : SwitchCall) (r : Except SwitchError (String × Option String))
    (s' : ReleaseRoot) : Prop :=
  match r with
  | .ok _ => s'.entries .current = some (.link call.next) ∧
      s'.entries .previous = if s.entries .current = none then s.entries .previous else s.entries .current
  | .error e =>
    if e.isAggregate then s'.entries .lock ≠ none
    else s'.entries .current = s.entries .current ∧ s'.entries .previous = s.entries .previous ∧ s'.entries .lock = none

/-- A call of the switch itself has failed: of its checks, of the replacements or of the rollback. -/
def Disturbed (places : List Place) : Prop := ∃ p ∈ places, p ≠ .rmdir ∧ p ≠ .last

/-- The calls that have failed spare the switch. The removal of the lock is not among them. The last call is, only where
another one is too, or the callback throws. Where they are, but for the last one, calls after the replacement of
`previous`, that named the current release already. The callback throws an `AggregateError` only where another call has
failed. -/
structure Spared (s : ReleaseRoot) (places : List Place) : Prop where
  removed : .rmdir ∉ places
  last : .last ∈ places → s.health ≠ none ∨ Disturbed places
  previous : Late .previous (places.filter (· ≠ .last)) → s.entries .previous = s.entries .current
  callback : s.health = some true → Disturbed places ∨ .last ∈ places

section Switch

variable {s s' : ReleaseRoot} {call : SwitchCall}

/-- How the removal of the lock ends. -/
theorem ends_released (retain : Bool) {I : ReleaseRoot → Prop} (hlock : s.entries .lock ≠ none) (hI : I s)
    (hI' : I (s.set .lock none)) :
    Script.Ends switchBackend Fault I (released retain) (fun tr r s' =>
      retain = true ∧ r = .ok () ∧ failed tr = [] ∧ s' = s ∨
      retain = false ∧ (r = .ok () ∧ failed tr = [] ∧ s' = s.set .lock none ∨
        r = .error (.call .io) ∧ (failed tr = [.rmdir] ∧ s' = s ∨ failed tr = [.last] ∧ s' = s.set .lock none))) s := by
  cases retain with
  | true => exact Script.ends_pure hI (.inl ⟨rfl, rfl, rfl, rfl⟩)
  | false =>
    have hrmdir : (SwitchOp.rmdir .rmdir .lock).exec s = .ok ((), s.set .lock none) := by simp [SwitchOp.exec, hlock]
    refine ends_op hI hI' hrmdir (Script.ends_answer hI' ?_ nofun ?_) (.inr ⟨rfl, .inr ⟨rfl, .inl ⟨rfl, rfl⟩⟩⟩)
    · intro b s' hexec
      obtain ⟨-, rfl⟩ := Prod.mk.inj (Except.ok.inj hexec)
      exact ⟨hI', .inr ⟨rfl, .inl ⟨rfl, rfl, rfl⟩⟩⟩
    · rintro e rfl
      exact .inr ⟨rfl, .inr ⟨rfl, .inr ⟨rfl, rfl⟩⟩⟩

theorem disturbed_of_ne_nil {places : List Place} (hall : ∀ p ∈ places, p ≠ .rmdir ∧ p ≠ .last) (h : places ≠ []) :
    Disturbed places := by
  obtain ⟨p, hp⟩ := List.exists_mem_of_ne_nil _ h
  exact ⟨p, hp, hall p hp⟩

theorem Disturbed.append {places more : List Place} (h : Disturbed places) : Disturbed (places ++ more) := by
  obtain ⟨p, hp, hne⟩ := h
  exact ⟨p, List.mem_append_left _ hp, hne⟩

/-- Without failures of the removal, what is `Late` does not depend on the last call. -/
theorem filter_last {places more : List Place} (hall : ∀ p ∈ places, p ≠ .rmdir ∧ p ≠ .last)
    (hmore : more = [] ∨ more = [.last]) : (places ++ more).filter (· ≠ .last) = places := by
  have hplaces : places.filter (· ≠ .last) = places :=
    List.filter_eq_self.mpr fun p hp => decide_eq_true (hall p hp).2
  rcases hmore with rfl | rfl
  · rw [List.append_nil, hplaces]
  · rw [List.filter_append, hplaces]
    simp

theorem not_late_of_restoring {places : List Place} (h : ∃ p ∈ places, Restoring p) : ¬Late .previous places := by
  rintro ⟨-, hall⟩
  obtain ⟨p, hp, hrestoring⟩ := h
  rcases hall p hp with rfl | rfl
  · rcases hrestoring with h | h | ⟨step, h⟩ <;> simp at h
  · rcases hrestoring with h | h | ⟨step, h⟩ <;> simp at h

/-- The removal of the lock has failed: the lock is there, and no `AggregateError` is thrown. -/
theorem iff_of_rmdir {p : List Place} (hlock : s'.entries .lock ≠ none) :
    AllOrNothing s call (.error (.call .io)) s' ↔ Spared s (p ++ [.rmdir]) := by
  refine iff_of_false ?_ fun h => h.removed (by simp)
  rintro ⟨-, -, h⟩
  exact hlock h

variable {places : List Place} {r : Except SwitchError (String × Option String)}

/-- The switch has kept the lock. -/
theorem iff_of_retained (hall : ∀ p ∈ places, p ≠ .rmdir ∧ p ≠ .last) (hend : Switched s call places r s')
    (hretained : retained r = true) (hlock : s'.entries .lock ≠ none) : AllOrNothing s call r s' ↔ Spared s places := by
  cases hend with
  | done hplaces hhealth hcurrent hprevious => cases hretained
  | undone hcurrent hprevious hearly hwhy =>
    rcases hwhy with ⟨rfl | rfl, -⟩ | ⟨b, rfl, -⟩
    · cases hretained
    · cases hretained
    · cases hretained
  | half hcurrent hprevious hlate he =>
    rcases he with rfl | rfl
    · cases hretained
    · cases hretained
  | stuck hplaces =>
    obtain ⟨p, hp, hrestoring⟩ := hplaces
    have hdisturbed : Disturbed places := ⟨p, hp, hall p hp⟩
    refine iff_of_true hlock ⟨fun h => (hall _ h).1 rfl, fun _ => .inr hdisturbed, ?_, fun _ => .inl hdisturbed⟩
    intro hlate
    rw [← List.append_nil places, filter_last hall (.inl rfl)] at hlate
    exact absurd hlate (not_late_of_restoring ⟨p, hp, hrestoring⟩)

/-- The lock is removed, and the last call succeeds or fails. -/
theorem iff_of_removed {more : List Place} {last : Except SwitchError (String × Option String)} {s'' : ReleaseRoot}
    (hinactive : s.target .current ≠ some call.next)
    (hall : ∀ p ∈ places, p ≠ .rmdir ∧ p ≠ .last) (hend : Switched s call places r s') (hretained : retained r = false)
    (hsame : SameBut .lock s' s'') (hlock : s''.entries .lock = none)
    (hmore : more = [] ∧ last = r ∨ more = [.last] ∧ last = .error (.call .io)) :
    AllOrNothing s call last s'' ↔ Spared s (places ++ more) := by
  have hmore' : more = [] ∨ more = [.last] := hmore.imp And.left And.left
  have hremoved : Place.rmdir ∉ places ++ more := by
    intro h
    rcases List.mem_append.mp h with h | h
    · exact (hall _ h).1 rfl
    · rcases hmore' with rfl | rfl
      · cases h
      · simp at h
  have hnolast : Place.last ∈ places ++ more → more = [.last] := by
    intro h
    rcases List.mem_append.mp h with h | h
    · exact absurd rfl (hall _ h).2
    · rcases hmore' with rfl | rfl
      · cases h
      · rfl
  have hcurrent'' : s''.entries .current = s'.entries .current := hsame.entries .current nofun nofun
  have hprevious'' : s''.entries .previous = s'.entries .previous := hsame.entries .previous nofun nofun
  have hplain : ∀ {e}, e.isAggregate = false → (AllOrNothing s call (.error e) s'' ↔
      s''.entries .current = s.entries .current ∧ s''.entries .previous = s.entries .previous ∧
        s''.entries .lock = none) := by
    intro e he
    simp [AllOrNothing, he]
  have hnone : ∀ {p : Place}, p ∈ ([] : List Place) → False := fun h => List.not_mem_nil h
  have hcalm : ¬Disturbed ([] ++ more) := by
    rintro ⟨p, hp, hrmdir, hlast⟩
    rcases hmore' with rfl | rfl
    · exact hnone hp
    · exact hlast (List.mem_singleton.mp hp)
  cases hend with
  | done hplaces hhealth hcurrent hprevious =>
    subst hplaces
    rcases hmore with ⟨rfl, rfl⟩ | ⟨rfl, rfl⟩
    · refine iff_of_true ⟨hcurrent''.trans hcurrent, hprevious''.trans hprevious⟩ ⟨hremoved, fun h => ?_, fun h => ?_, ?_⟩
      · exact absurd (hnolast h) nofun
      · exact absurd rfl h.1
      · rw [hhealth]
        nofun
    · refine iff_of_false (fun h => ?_) fun h => ?_
      · -- the candidate is current
        rw [hplain rfl, hcurrent'', hcurrent] at h
        exact hinactive (by simp [ReleaseRoot.target, ← h.1])
      · exact (h.last (by simp)).elim (absurd hhealth) hcalm
  | @undone e s' hcurrent hprevious hearly hwhy =>
    have hleft : s''.entries .current = s.entries .current ∧ s''.entries .previous = s.entries .previous ∧
        s''.entries .lock = none := ⟨hcurrent''.trans hcurrent, hprevious''.trans hprevious, hlock⟩
    have hlast : s.health ≠ none ∨ Disturbed (places ++ more) := by
      rcases hwhy with ⟨-, hne⟩ | ⟨b, -, hhealth, -⟩
      · exact .inr (disturbed_of_ne_nil hall hne).append
      · exact .inl (by simp [hhealth])
    have hkept : Late .previous ((places ++ more).filter (· ≠ .last)) → s.entries .previous = s.entries .current := by
      rw [filter_last hall hmore']
      exact fun h => absurd h hearly
    rcases hmore with ⟨rfl, rfl⟩ | ⟨rfl, rfl⟩
    · rcases hwhy with ⟨he, hne⟩ | ⟨b, rfl, hhealth, rfl⟩
      · have he : e.isAggregate = false := by rcases he with rfl | rfl <;> rfl
        exact iff_of_true ((hplain he).mpr hleft)
          ⟨hremoved, fun _ => hlast, hkept, fun _ => .inl (disturbed_of_ne_nil hall hne).append⟩
      · cases b with
        | false => exact iff_of_true ((hplain rfl).mpr hleft) ⟨hremoved, fun _ => hlast, hkept, by simp [hhealth]⟩
        | true =>
          -- the callback's error is thrown, and the lock is removed
          refine iff_of_false (fun h => h hlock) fun h => ?_
          exact (h.callback hhealth).elim hcalm hnone
    · exact iff_of_true ((hplain rfl).mpr hleft) ⟨hremoved, fun _ => hlast, hkept, fun _ => .inr (by simp)⟩
  | @half e s' hcurrent hprevious hlate he =>
    have hdisturbed : Disturbed (places ++ more) := (disturbed_of_ne_nil hall hlate.1).append
    have hlast : last = .error e ∨ last = .error (.call .io) := hmore.imp And.right And.right
    have heither : AllOrNothing s call last s'' ↔ s''.entries .current = s.entries .current ∧
        s''.entries .previous = s.entries .previous ∧ s''.entries .lock = none := by
      rcases hlast with rfl | rfl
      · exact hplain (by rcases he with rfl | rfl <;> rfl)
      · exact hplain rfl
    rw [heither, hcurrent'', hprevious'', hcurrent, hprevious]
    constructor
    · rintro ⟨-, heq, -⟩
      exact ⟨hremoved, fun _ => .inr hdisturbed, fun _ => heq.symm, fun _ => .inl hdisturbed⟩
    · intro h
      exact ⟨rfl, (h.previous (by rwa [filter_last hall hmore'])).symm, hlock⟩
  | stuck hplaces => cases hretained

/-- A call that fails before the lock is taken changes nothing. -/
theorem iff_of_prepare (hlock : s.entries .lock = none) :
    AllOrNothing s call (.error (.call .io)) s ↔ Spared s [.prepare] := by
  have hdisturbed : Disturbed [.prepare] := ⟨.prepare, by simp, by simp⟩
  refine iff_of_true ⟨rfl, rfl, hlock⟩ ⟨by simp, by simp, ?_, fun _ => .inl hdisturbed⟩
  intro hlate
  rcases hlate.2 .prepare (by simp) with h | h <;> simp at h

/-- **How a switch ends**: a check fails, or it keeps the lock, or it removes it, and that may fail too. -/
theorem ends_switchVersion_of {Q : List Place → Except SwitchError (String × Option String) → ReleaseRoot → Prop}
    (haccepts : Accepts s call) (hprepare : Q [.prepare] (.error (.call .io)) s)
    (hkept : ∀ (places : List Place) (r : Except SwitchError (String × Option String)) (s' : ReleaseRoot),
      (∀ p ∈ places, p ≠ .rmdir ∧ p ≠ .last) → Switched s call places r s' → s'.entries .lock ≠ none →
      retained r = true → Q places r s')
    (hremoved : ∀ (places : List Place) (r : Except SwitchError (String × Option String)) (s' : ReleaseRoot),
      (∀ p ∈ places, p ≠ .rmdir ∧ p ≠ .last) → Switched s call places r s' → s'.entries .lock ≠ none →
      retained r = false → Q places r (s'.set .lock none) ∧ Q (places ++ [.rmdir]) (.error (.call .io)) s' ∧
        Q (places ++ [.last]) (.error (.call .io)) (s'.set .lock none)) :
    Script.Ends switchBackend Fault (Resolves (s.entries .current) call) (switchVersion call)
      (fun tr r s' => Q (failed tr) r s') s := by
  have hI : Resolves (s.entries .current) call s := .inl rfl
  have hreal : Looks (Resolves (s.entries .current) call) .prepare realPaths () s := by
    refine looks_bind (b := true) (looks_op hI (by simp [SwitchOp.exec, haccepts.realRoot])) ?_
    refine looks_bind (b := true) (looks_op hI (by simp [SwitchOp.exec, haccepts.realReleases])) ?_
    exact looks_demand hI rfl
  refine Script.ends_bind (Script.ends_mono ?_ hreal)
  rintro tr r s₁ - ⟨hsame, ⟨rfl, htr⟩ | ⟨rfl, htr⟩⟩
  · subst hsame
    have hmkdir : (SwitchOp.mkdir .prepare .lock).exec s₁ = .ok ((), s₁.set .lock (some .directory)) := by
      simp [SwitchOp.exec, haccepts.unlocked]
    have hI₂ : Resolves (s₁.entries .current) call (s₁.set .lock (some .directory)) := .inl rfl
    refine ends_op hI hI₂ hmkdir ?_ ?_
    · -- the switch, under the lock
      have hready : Ready (s₁.set .lock (some .directory)) call :=
        ⟨haccepts.release.congr rfl, haccepts.current.congr rfl rfl, haccepts.previous.congr rfl rfl, haccepts.inactive,
          haccepts.schemas⟩
      refine Script.ends_bind (Script.ends_attempt (Script.ends_mono ?_ (ends_switched hready)))
      rintro tr₁ r s₂ hI₃ ⟨hsite, hall, hend⟩
      have hlock : s₂.entries .lock ≠ none := by simp [hsite.lock]
      replace hend : Switched s₁ call (failed tr₁) r s₂ := hend.congr rfl rfl rfl
      refine Script.ends_bind (Script.ends_mono ?_ (ends_released (retained r) hlock hI₃ hI₃))
      rintro tr₂ r' s₃ hI₄ (⟨hretained, rfl, htr₂, rfl⟩ | ⟨hretained, ⟨rfl, htr₂, rfl⟩ | ⟨rfl, ⟨htr₂, rfl⟩ | ⟨htr₂, rfl⟩⟩⟩)
      · have hQ := hkept _ _ _ hall hend hlock hretained
        cases r with
        | ok links => cases hretained
        | error e =>
          refine Script.ends_throw hI₄ ?_
          simpa [htr, htr₂] using hQ
      · have hQ := (hremoved _ _ _ hall hend hlock hretained).1
        cases r with
        | ok links =>
          refine Script.ends_pure hI₄ ?_
          simpa [htr, htr₂] using hQ
        | error e =>
          refine Script.ends_throw hI₄ ?_
          simpa [htr, htr₂] using hQ
      · simpa [htr, htr₂] using (hremoved _ _ _ hall hend hlock hretained).2.1
      · simpa [htr, htr₂] using (hremoved _ _ _ hall hend hlock hretained).2.2
    · simpa [htr, SwitchOp.place] using hprepare
  · subst hsame
    simpa [htr] using hprepare

theorem ends_switchVersion (haccepts : Accepts s call) :
    Script.Ends switchBackend Fault (Resolves (s.entries .current) call) (switchVersion call)
      (fun tr r s' => AllOrNothing s call r s' ↔ Spared s (failed tr)) s := by
  refine ends_switchVersion_of (Q := fun places r s' => AllOrNothing s call r s' ↔ Spared s places) haccepts
    (iff_of_prepare haccepts.unlocked) ?_ ?_
  · exact fun places r s' hall hend hlock hretained => iff_of_retained hall hend hretained hlock
  · intro places r s' hall hend hlock hretained
    have hdone : AllOrNothing s call r (s'.set .lock none) ↔ Spared s (places ++ []) :=
      iff_of_removed haccepts.inactive hall hend hretained sameBut_set set_entries_self (.inl ⟨rfl, rfl⟩)
    rw [List.append_nil] at hdone
    exact ⟨hdone, iff_of_rmdir hlock,
      iff_of_removed haccepts.inactive hall hend hretained sameBut_set set_entries_self (.inr ⟨rfl, rfl⟩)⟩

/-- **A version switch is all or nothing exactly where it is spared**, wherever calls fail; and `current` is the former
link or names the candidate at every moment. -/
theorem version_switch_all_or_nothing (haccepts : Accepts s call) :
    (∀ tr s', Visits switchBackend Fault (switchVersion call).run s tr s' → Resolves (s.entries .current) call s') ∧
    ∀ tr r s', Runs switchBackend Fault (switchVersion call).run s tr r s' →
      (AllOrNothing s call r s' ↔ Spared s (failed tr)) :=
  ⟨fun _ _ hvisits => (ends_switchVersion haccepts).visits hvisits,
    fun _ _ _ hruns => (ends_switchVersion haccepts).runs hruns⟩

end Switch

/-! ## The switch asks for the health once -/

def asks {β : Type} : SwitchOp β → Prop
  | .checkHealthy _ => True
  | _ => False

section Once

variable {α β : Type} {place : Place} {call : SwitchCall}

/-- The health is not asked for. -/
abbrev Quiet (p : SwitchScript α) : Prop := Script.Every (fun op => ¬asks op) p

theorem quiet_demand {holds : Bool} {text : String} : Quiet (demand holds text) := by
  cases holds with
  | true => exact Script.every_pure
  | false => exact Script.every_throw

theorem quiet_unlessMissing {a : α} {error : SwitchError} : Quiet (unlessMissing a error) := by
  unfold unlessMissing
  split
  · exact Script.every_pure
  · exact Script.every_throw

theorem quiet_releaseDirectory {name : String} : Quiet (releaseDirectory place name) := by
  unfold releaseDirectory
  split
  · exact Script.every_throw
  · rename_i version _
    have hrest : ∀ real, Quiet (do
        demand real "Prepared release is not a real directory"
        let file ← perform (.isPackageFile place name)
        demand file "Prepared release has no regular package metadata"
        let package ← perform (.readPackage place name)
        demand (package.1 == "dp-beget-bridge" && package.2 == version)
          "Prepared release version does not match its package"
        pure ("releases/" ++ name)) := by
      intro real
      apply Script.every_bind quiet_demand
      intro _
      apply Script.every_bind (Script.every_perform id)
      intro file
      apply Script.every_bind quiet_demand
      intro _
      apply Script.every_bind (Script.every_perform id)
      intro package
      exact Script.every_bind quiet_demand fun _ => Script.every_pure
    apply Script.every_bind (Script.every_perform id)
    rintro (_ | _)
    · exact Script.every_bind Script.every_pure hrest
    · exact Script.every_bind (Script.every_perform id) hrest

theorem quiet_managedLink {name : Name} : Quiet (managedLink place name) := by
  apply Script.every_bind
  · apply Script.every_tryCatch
    · exact Script.every_bind (Script.every_perform id) fun _ => Script.every_pure
    · exact fun _ => quiet_unlessMissing
  · rintro (_ | isLink)
    · exact Script.every_pure
    · apply Script.every_bind quiet_demand
      intro _
      apply Script.every_bind (Script.every_perform id)
      intro target
      apply Script.every_bind quiet_demand
      intro _
      apply Script.every_bind quiet_releaseDirectory
      intro directory
      exact Script.every_bind quiet_demand fun _ => Script.every_pure

theorem quiet_atomicLink {use : Use} {name : Name} {target uuid : String} : Quiet (atomicLink use name target uuid) := by
  apply Script.every_bind (Script.every_perform id)
  intro _
  apply Script.every_finally
  · apply Script.every_bind (Script.every_perform id)
    intro _
    apply Script.every_bind (Script.every_perform id)
    exact fun _ => Script.every_perform id
  · apply Script.every_tryCatch
    · exact Script.every_bind (Script.every_perform id) fun _ => Script.every_perform id
    · exact fun _ => quiet_unlessMissing

theorem quiet_readStateCompatibility {name : String} : Quiet (readStateCompatibility name) := by
  apply Script.every_bind (Script.every_perform id)
  rintro (text | schemas)
  · exact Script.every_throw
  · exact Script.every_pure

theorem quiet_prepared : Quiet (prepared call) := by
  apply Script.every_bind (Script.every_perform id)
  intro _
  apply Script.every_bind quiet_releaseDirectory
  intro next
  apply Script.every_bind quiet_managedLink
  intro current
  apply Script.every_bind quiet_managedLink
  intro _
  apply Script.every_bind quiet_demand
  intro _
  apply Script.every_bind quiet_readStateCompatibility
  intro newSchemas
  apply Script.every_bind
  · cases current with
    | none => exact Script.every_pure
    | some current => exact Script.every_bind quiet_readStateCompatibility fun _ => quiet_demand
  · exact fun _ => Script.every_pure

theorem quiet_rollback {current : Option String} {next : String} : Quiet (rollback call current next) := by
  apply Script.every_bind quiet_managedLink
  intro active
  split
  · cases current with
    | some current => exact quiet_atomicLink
    | none => exact Script.every_bind (Script.every_perform id) fun _ => Script.every_perform id
  · exact quiet_demand

theorem quiet_released {retain : Bool} : Quiet (released retain) := by
  cases retain with
  | true => exact Script.every_pure
  | false => exact Script.every_bind (Script.every_perform id) fun _ => Script.every_perform id

theorem quiet_realPaths : Quiet realPaths := by
  apply Script.every_bind (Script.every_perform id)
  rintro (_ | _)
  · exact Script.every_bind Script.every_pure fun _ => quiet_demand
  · exact Script.every_bind (Script.every_perform id) fun _ => quiet_demand

/-- What comes after the health check does not ask for it again. -/
theorem once_replaceLinks {current : Option String} {next : String} :
    (replaceLinks call current next).run.Once asks := by
  apply Prog.once_bind_right (p := (atomicLink .current .current next (call.uuids .current)).run) quiet_atomicLink
  rintro (e | u)
  · exact trivial
  · refine .inl ⟨trivial, ?_⟩
    rintro (e | u)
    · exact trivial
    · cases current with
      | some current => exact quiet_atomicLink
      | none => exact trivial

theorem once_switched : (switched call).run.Once asks := by
  apply Prog.once_bind_right (p := (prepared call).run) quiet_prepared
  rintro (e | links)
  · exact trivial
  · apply Prog.once_bind_left
    · apply Prog.once_bind_left once_replaceLinks
      rintro (e | u) <;> trivial
    · rintro (e | r)
      · exact Script.every_bind (Script.every_tryCatch quiet_rollback fun _ => Script.every_throw) fun _ => Script.every_throw
      · trivial

/-- **A switch asks for the health once at most.** -/
theorem once_switchVersion : (switchVersion call).run.Once asks := by
  apply Prog.once_bind_right (p := realPaths.run) quiet_realPaths
  rintro (e | u)
  · exact trivial
  · apply Prog.once_bind_right (p := (perform (.mkdir .prepare .lock)).run) (Script.every_perform id)
    rintro (e | u)
    · exact trivial
    · apply Prog.once_bind_left
      · exact Prog.once_bind_left once_switched fun _ => trivial
      · rintro (e | r)
        · trivial
        · apply Script.every_bind quiet_released
          intro _
          cases r <;> trivial

end Once

/-! ## Runs that are computed -/

section Samples

def sampleName (version : String) : String := version ++ "-" ++ String.ofList (List.replicate 40 'a')

/-- One release is current, and another one can be activated. -/
def sampleRoot : ReleaseRoot where
  entries
    | .current => some (.link ("releases/" ++ sampleName "1.0.0"))
    | _ => none
  releases :=
    { realRoot := true, realReleases := true, directory := fun _ => some true, real := fun _ => true
      packageFile := fun _ => some true, package := fun name => (versionOf name).map fun version => ("dp-beget-bridge", version)
      schemas := fun _ => .ok ⟨1, 1, 1⟩ }
  health := none

def sampleCall : SwitchCall := ⟨sampleName "1.1.0", fun _ => "next"⟩

theorem sample_accepts : Accepts sampleRoot sampleCall where
  release := ⟨rfl, rfl, rfl, "1.1.0", by decide +kernel, by decide +kernel⟩
  current := .inr ⟨sampleName "1.0.0", rfl, rfl, rfl, rfl, "1.0.0", by decide +kernel, by decide +kernel⟩
  previous := .inl rfl
  inactive := by decide +kernel
  schemas := ⟨⟨1, 1, 1⟩, rfl, fun _ _ => rfl⟩
  realRoot := rfl
  realReleases := rfl
  unlocked := rfl

/-- The run with some failures. -/
def samplePlanned (plan : List (Option FsError)) :
    List (Entry SwitchOp FsError) × Except SwitchError (String × Option String) × ReleaseRoot :=
  (switchVersion sampleCall).run.planned switchBackend plan sampleRoot

theorem samplePlanned_runs (plan : List (Option FsError)) (hfault : ∀ e, some e ∈ plan → Fault e) :
    Runs switchBackend Fault (switchVersion sampleCall).run sampleRoot (samplePlanned plan).1 (samplePlanned plan).2.1
      (samplePlanned plan).2.2 :=
  Prog.planned_runs_of _ plan sampleRoot hfault

example : (samplePlanned [some .io]).2.2.entries .current = sampleRoot.entries .current := by decide +kernel

/-- The switch without failures. -/
theorem version_switch_all_or_nothing_sample : ∃ tr links s',
    Runs switchBackend Fault (switchVersion sampleCall).run sampleRoot tr (.ok links) s' ∧
    (AllOrNothing sampleRoot sampleCall (.ok links) s' ↔ Spared sampleRoot (failed tr)) := by
  have hruns := samplePlanned_runs [] nofun
  have hok : (samplePlanned []).2.1 = .ok (sampleCall.next, some ("releases/" ++ sampleName "1.0.0")) := by decide +kernel
  rw [hok] at hruns
  exact ⟨_, _, _, hruns, (version_switch_all_or_nothing sample_accepts).2 _ _ _ hruns⟩

/-- The synchronisation after `previous` was replaced fails: the switch is taken back, but `previous` is not. -/
theorem version_switch_previous_not_restored : Accepts sampleRoot sampleCall ∧ ∃ tr e s',
    Runs switchBackend Fault (switchVersion sampleCall).run sampleRoot tr (.error e) s' ∧ e.isAggregate = false ∧
    s'.entries .previous ≠ sampleRoot.entries .previous ∧ ¬AllOrNothing sampleRoot sampleCall (.error e) s' := by
  have hruns := samplePlanned_runs (List.replicate 26 none ++ [some .io]) (by simp [Fault])
  have herror : (samplePlanned (List.replicate 26 none ++ [some .io])).2.1 = .error (.call .io) := by decide +kernel
  have hprevious : (samplePlanned (List.replicate 26 none ++ [some .io])).2.2.entries .previous =
      some (.link ("releases/" ++ sampleName "1.0.0")) := by decide +kernel
  have hchanged : (samplePlanned (List.replicate 26 none ++ [some .io])).2.2.entries .previous ≠
      sampleRoot.entries .previous := by
    rw [hprevious]
    exact nofun
  rw [herror] at hruns
  exact ⟨sample_accepts, _, _, _, hruns, rfl, hchanged, fun h => hchanged h.2.1⟩

end Samples

end BegetBridge.VersionPointer
