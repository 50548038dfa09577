import BegetBridge.Files.Pinning

/-!
# A move keeps the file

Without overwriting, the file gets its new name before it loses the old one, and where that fails the new
name is taken back. With overwriting one call does both; it does nothing where the two names lead to one
file already.

## Main definitions

* `Apart`: the two names are not names of one file, when overwriting
* `Safe`: the file is reached by one of its names, with what it held
* `Moved`, `Restored`: what is promised when a move returns, and when it throws

## Main results

* `run_moveInto`: the calls that move the file
* `move_keeps`: what holds in all runs of a move where the names are apart, and what happens where they are not
-/

namespace BegetBridge.Files

open Posix Interleaving Script

/-- When overwriting, the two names do not lead to one file. -/
def Apart (fs : Disk) (from' to' : Reference) (overwrite : Bool) : Prop :=
  overwrite = true → ∀ i, fs.follow from'.displayPath = some i → fs.follow to'.displayPath ≠ some i

/-- The file of the source is reached by one of the two names, with the bytes that it had. -/
def Safe (fs : Disk) (from' to' : Reference) (fs' : Disk) : Prop :=
  ∀ i bytes, fs.follow from'.displayPath = some i → fs.bytes i = some bytes →
    (fs'.follow from'.displayPath = some i ∨ fs'.follow to'.displayPath = some i) ∧ fs'.bytes i = some bytes

/-- The name of the source is gone, and that of the destination has its file. -/
def Moved (fs : Disk) (from' to' : Reference) (fs' : Disk) : Prop :=
  fs'.follow from'.displayPath = none ∧ ∃ i bytes, fs.follow from'.displayPath = some i ∧
    fs.bytes i = some bytes ∧ fs'.follow to'.displayPath = some i ∧ fs'.bytes i = some bytes

/-- Both names lead where they led. -/
def Restored (fs : Disk) (from' to' : Reference) (fs' : Disk) : Prop :=
  fs'.follow from'.displayPath = fs.follow from'.displayPath ∧
    fs'.follow to'.displayPath = fs.follow to'.displayPath ∧ ∀ i, fs'.bytes i = fs.bytes i

/-- The call that takes the new name back has failed. -/
def CompensationFailed (fs : Disk) (to' : Reference) (tr : List (Entry Syscall Errno)) : Prop :=
  ∃ d e, fs.follow (to'.root ++ to'.parents) = some d ∧ ⟨.unlink ⟨d⟩ to'.last, .error e⟩ ∈ tr

section Move

variable {m : FileManager} {fs fs' : Disk} {source destination : Pinned} {from' to' : Reference}
  {overwrite : Bool} {i : Ino}

/-- What is replaced is looked at, and nothing changes. -/
theorem run_assertReplaceable {I : Disk → Prop} (hI : I fs) :
    Run I (FileManager.assertReplaceable destination) (fun _ _ fs' => fs' = fs) fs := by
  refine ends_tryCatch (ends_bind (run_sys hI (fun stat fs' hexec => ?_) fun e => ?_))
  · obtain ⟨rfl, -⟩ := lstat_eq_ok hexec
    refine ⟨hI, run_ensure hI (fun _ => rfl) fun _ => ?_⟩
    exact ends_throw hI rfl
  · show Run I (if _ then _ else _) _ _
    split
    · exact ends_pure hI rfl
    · exact ends_throw hI rfl

/-- While the file is moved, one of its names leads to it. -/
def Moving (fs : Disk) (source destination : Pinned) (i : Ino) (fs' : Disk) : Prop :=
  fs.Keeps fs' ∧ (fs'.entry source.parent.ino source.name = some i ∨
    fs'.entry destination.parent.ino destination.name = some i)

/-- **The calls that move the file.** -/
theorem run_moveInto (hentry : fs.entry source.parent.ino source.name = some i) (hfile : fs.isDir i = false)
    (hdir : fs.isDir destination.parent.ino = true) :
    Run (Moving fs source destination i) (FileManager.moveInto source destination overwrite) (fun tr r fs' =>
      fs.Keeps fs' ∧
      (r = .ok () → (overwrite = true ∧ fs.entry destination.parent.ino destination.name = some i ∧ fs' = fs) ∨
        (overwrite = true → fs.entry destination.parent.ino destination.name ≠ some i) ∧
          fs'.entry source.parent.ino source.name = none ∧
          fs'.entry destination.parent.ino destination.name = some i) ∧
      (∀ e, r = .error e → (∃ e', ⟨.unlink destination.parent destination.name, .error e'⟩ ∈ tr) ∨
        ∀ d n, fs'.entry d n = fs.entry d n)) fs := by
  have hhere : Moving fs source destination i fs := ⟨.refl fs, .inl hentry⟩
  have hsource : ∀ j, fs.entry source.parent.ino source.name = some j → fs.isDir j = false := by
    intro j hj
    obtain rfl := Option.some.inj (hentry.symm.trans hj)
    exact hfile
  rw [FileManager.moveInto]
  split
  · rename_i hover
    refine ends_bind (ends_mono ?_ (run_assertReplaceable hhere))
    rintro tr (e | u) fs' - rfl
    · exact ⟨.refl fs', nofun, fun _ _ => .inr fun _ _ => rfl⟩
    refine run_sys hhere (fun u' fs'' hexec => ?_) fun e => ⟨.refl fs', nofun, fun _ _ => .inr fun _ _ => rfl⟩
    rcases rename_eq_ok hexec hentry hfile with ⟨hsame, rfl⟩ | ⟨hother, -, hold, rfl⟩
    · exact ⟨hhere, .refl _, fun _ => .inl ⟨hover, hsame, rfl⟩, nofun⟩
    -- the two names differ, since one of them does not lead to the file
    have hne : ¬(source.parent.ino = destination.parent.ino ∧ source.name = destination.name) := by
      rintro ⟨hd, hn⟩
      rw [← hd, ← hn] at hother
      exact hother hentry
    have hdetach : fs'.Keeps (fs'.detach source.parent.ino source.name) := keeps_detach hsource
    have hdir' : (fs'.detach source.parent.ino source.name).isDir destination.parent.ino = true := by
      rw [isDir_of_shape (hdetach.shape _), hdir]
    have hkeeps : fs'.Keeps ((fs'.detach source.parent.ino source.name).attach destination.parent.ino
        destination.name i) := by
      refine hdetach.trans (keeps_attach hdir' fun j hj => ?_)
      rw [entry_detach] at hj
      split at hj
      · cases hj
      · rw [isDir_of_shape (hdetach.shape j)]
        exact hold j hj
    have hnew : ((fs'.detach source.parent.ino source.name).attach destination.parent.ino
        destination.name i).entry destination.parent.ino destination.name = some i := by
      rw [entry_attach hdir', if_pos ⟨rfl, rfl⟩]
    refine ⟨⟨hkeeps, .inr hnew⟩, hkeeps, fun _ => .inr ⟨fun _ => hother, ?_, hnew⟩, nofun⟩
    rw [entry_attach hdir', if_neg hne, entry_detach, if_pos ⟨rfl, rfl⟩]
  · rename_i hover
    refine ends_bind (ends_tryCatch (run_sys hhere (fun u fs' hexec => ?_) fun e => ?_))
    · obtain ⟨j, hj, -, -, hvacant, rfl⟩ := link_eq_ok hexec
      obtain rfl := Option.some.inj (hentry.symm.trans hj)
      have hne : ¬(source.parent.ino = destination.parent.ino ∧ source.name = destination.name) := by
        rintro ⟨hd, hn⟩
        rw [← hd, ← hn, hentry] at hvacant
        cases hvacant
      have hlinked : fs.Keeps (fs.attach destination.parent.ino destination.name i) :=
        keeps_attach hdir fun j hj => by rw [hvacant] at hj; cases hj
      have hsource' : (fs.attach destination.parent.ino destination.name i).entry source.parent.ino source.name =
          some i := by
        rw [entry_attach hdir, if_neg hne, hentry]
      have hdest : (fs.attach destination.parent.ino destination.name i).entry destination.parent.ino
          destination.name = some i := by
        rw [entry_attach hdir, if_pos ⟨rfl, rfl⟩]
      have hfile' : (fs.attach destination.parent.ino destination.name i).isDir i = false := by
        rw [isDir_of_shape (hlinked.shape i), hfile]
      refine ⟨⟨hlinked, .inl hsource'⟩, run_onError (run_sys ⟨hlinked, .inl hsource'⟩ (fun u' fs'' hexec' => ?_)
        fun e => ?_)⟩
      · -- the old name is gone
        obtain ⟨j, -, -, rfl⟩ := unlink_eq_ok hexec'
        have hgone : fs.Keeps ((fs.attach destination.parent.ino destination.name i).detach source.parent.ino
            source.name) := by
          refine hlinked.trans (keeps_detach fun j hj => ?_)
          obtain rfl := Option.some.inj (hsource'.symm.trans hj)
          exact hfile'
        have hnew : ((fs.attach destination.parent.ino destination.name i).detach source.parent.ino
            source.name).entry destination.parent.ino destination.name = some i := by
          rw [entry_detach, if_neg, hdest]
          rintro ⟨hd, hn⟩
          exact hne ⟨hd.symm, hn.symm⟩
        refine ⟨⟨hgone, .inr hnew⟩, hgone, fun _ => .inr ⟨fun h => absurd h hover, ?_, hnew⟩, nofun⟩
        rw [entry_detach, if_pos ⟨rfl, rfl⟩]
      · -- the new name is taken back, unless that fails
        refine run_sys ⟨hlinked, .inl hsource'⟩ (fun u' fs'' hexec' => ?_) fun e' => ?_
        · obtain ⟨j, -, -, rfl⟩ := unlink_eq_ok hexec'
          have hback : fs.Keeps ((fs.attach destination.parent.ino destination.name i).detach
              destination.parent.ino destination.name) := by
            refine hlinked.trans (keeps_detach fun j hj => ?_)
            obtain rfl := Option.some.inj (hdest.symm.trans hj)
            exact hfile'
          have hsame : ∀ d n, ((fs.attach destination.parent.ino destination.name i).detach
              destination.parent.ino destination.name).entry d n = fs.entry d n := by
            intro d n
            rw [entry_detach, entry_attach hdir]
            split
            · rename_i h
              rw [h.1, h.2, hvacant]
            · rfl
          exact ⟨⟨hback, .inl (by rw [hsame, hentry])⟩, hback, nofun, fun _ _ => .inr hsame⟩
        · exact ⟨hlinked, nofun, fun _ _ => .inl ⟨e', by simp⟩⟩
    · show Run _ (if _ then _ else _) _ _
      split
      · exact ends_throw hhere ⟨.refl fs, nofun, fun _ _ => .inr fun _ _ => rfl⟩
      · exact ends_throw hhere ⟨.refl fs, nofun, fun _ _ => .inr fun _ _ => rfl⟩

/-- What a name leads to, where its parent is held. -/
theorem Pinned.follow_displayPath {pinned : Pinned} {reference : Reference} (hne : reference.segments ≠ [])
    (hname : pinned.name = reference.last) (hdir : fs.isDir pinned.parent.ino = true)
    (hparent : fs.follow (reference.root ++ reference.parents) = some pinned.parent.ino)
    (hkeeps : fs.Keeps fs') :
    fs'.follow reference.displayPath = fs'.entry pinned.parent.ino pinned.name := by
  rw [displayPath_eq hne, hname]
  exact hkeeps.follow_snoc hparent hdir

theorem safe_self (fs : Disk) (from' to' : Reference) : Safe fs from' to' fs := fun _ _ hi hbytes => ⟨.inl hi, hbytes⟩

theorem restored_self (fs : Disk) (from' to' : Reference) : Restored fs from' to' fs := ⟨rfl, rfl, fun _ => rfl⟩

/-- **The move with the parent directory of the source held.** -/
theorem run_moveFrom (hfrom : from'.segments ≠ []) (hroot : ∀ n ∈ to'.root, n.Valid) (hto : to'.segments ≠ [])
    (hname : source.name = from'.last) (hdir : fs.isDir source.parent.ino = true)
    (hparent : fs.follow (from'.root ++ from'.parents) = some source.parent.ino) :
    Run (Safe fs from' to') (m.moveFrom source to' overwrite) (fun tr r fs' =>
      (r = .ok () → (Moved fs from' to' fs' ↔ Apart fs from' to' overwrite)) ∧
      (∀ e, r = .error e → CompensationFailed fs to' tr ∨ Restored fs from' to' fs')) fs := by
  have hsafe : Safe fs from' to' fs := safe_self fs from' to'
  have hsource : ∀ fs', fs.Keeps fs' →
      fs'.follow from'.displayPath = fs'.entry source.parent.ino source.name :=
    fun fs' hkeeps => Pinned.follow_displayPath hfrom hname hdir hparent hkeeps
  refine ends_bind (run_sys hsafe (fun stat fs' hexec => ?_) fun e => ⟨by rintro ⟨⟩, fun _ _ => .inr (restored_self _ _ _)⟩)
  obtain ⟨rfl, i, node, hentry, hnode, rfl⟩ := lstat_eq_ok hexec
  refine ⟨hsafe, ends_bind (run_ensure hsafe (fun hregular => ?_)
    fun _ => ⟨by rintro ⟨⟩, fun _ _ => .inr (restored_self _ _ _)⟩)⟩
  obtain ⟨bytes, hbytes, hshape⟩ := bytes_of_isFile hnode hregular
  have hfile : fs'.isDir i = false := by
    rw [isDir_of_node hnode, Node.isDirectory]
    change node.isFile = true at hregular
    rw [Node.isFile] at hregular
    split at hregular
    · rename_i hkind
      rw [hkind]
    · cases hregular
  refine ends_bind (ends_mono ?_ (run_openExistingParent hroot hsafe))
  rintro tr (e | destination) fs'' - ⟨rfl, hdestination⟩
  · exact ⟨by rintro ⟨⟩, fun _ _ => .inr (restored_self _ _ _)⟩
  obtain ⟨hname', hdir', hparent'⟩ := hdestination destination rfl
  have htarget : ∀ fs', fs''.Keeps fs' →
      fs'.follow to'.displayPath = fs'.entry destination.parent.ino destination.name :=
    fun fs' hkeeps => Pinned.follow_displayPath hto hname' hdir' hparent' hkeeps
  have hi : fs''.follow from'.displayPath = some i := (hsource _ (.refl _)).trans hentry
  -- while the file is moved, what is safe is its entry under one of the two names
  have hmoving : ∀ fs', Moving fs'' source destination i fs' → Safe fs'' from' to' fs' := by
    rintro fs' ⟨hkeeps, hone⟩ j bytes' hj hbytes'
    obtain rfl := Option.some.inj (hi.symm.trans hj)
    rw [hsource _ hkeeps, htarget _ hkeeps, bytes_of_shape (hkeeps.shape i)]
    exact ⟨hone, hbytes'⟩
  refine ends_finally (ends_mono ?_ (ends_weaken hmoving (run_moveInto hentry hfile hdir')))
  rintro tr' r fs' hsafe' ⟨hkeeps, hok, herror⟩
  refine ends_ignored (run_close hsafe' fun tr'' _ => ?_)
  constructor
  · intro hr
    rcases hok hr with ⟨hover, hsame, rfl⟩ | ⟨hother, hgone, hnew⟩
    · -- both names led to the file already
      refine iff_of_false (fun hmoved => ?_) fun hapart => ?_
      · cases hi.symm.trans hmoved.1
      · exact hapart hover i hi ((htarget _ (.refl _)).trans hsame)
    · refine iff_of_true ⟨(hsource _ hkeeps).trans hgone, i, bytes, hi, hbytes, (htarget _ hkeeps).trans hnew, ?_⟩
        fun hover j hj hsame => ?_
      · rw [bytes_of_shape (hkeeps.shape i), hbytes]
      · obtain rfl := Option.some.inj (hi.symm.trans hj)
        exact hother hover ((htarget _ (.refl _)).symm.trans hsame)
  · intro e hr
    rcases herror e hr with ⟨e', hfailed⟩ | hsame
    · refine .inl ⟨destination.parent.ino, e', hparent', ?_⟩
      rw [← hname']
      simp [hfailed]
    · refine .inr ⟨?_, ?_, fun j => bytes_of_shape (hkeeps.shape j)⟩
      · rw [hsource _ hkeeps, hsource _ (.refl _), hsame]
      · rw [htarget _ hkeeps, htarget _ (.refl _), hsame]

/-- **A move keeps the file**: it is reached by one of its names all the time, when the move returns the file
has moved unless both names led to it, and when it throws the names lead where they led unless taking the new
one back has failed. -/
theorem move_keeps {a b : List Char} (hfrom : m.pathPolicy.mutation a = .ok from')
    (hto : m.pathPolicy.mutation b = .ok to') :
    (∀ tr fs', Visits posix AnyFault (m.move a b overwrite).run fs tr fs' → Safe fs from' to' fs') ∧
      ∀ tr r fs', Runs posix AnyFault (m.move a b overwrite).run fs tr r fs' →
        (∀ t, r = .ok t → t.done = true → (Moved fs from' to' fs' ↔ Apart fs from' to' overwrite)) ∧
        ∀ e, r = .error e → ¬CompensationFailed fs to' tr → Restored fs from' to' fs' := by
  obtain ⟨hfromRoot, hfromNe⟩ := mutation_reference hfrom
  obtain ⟨htoRoot, htoNe⟩ := mutation_reference hto
  have hsafe : Safe fs from' to' fs := safe_self fs from' to'
  have key : Run (Safe fs from' to') (m.move a b overwrite) (fun tr r fs' =>
      (∀ t, r = .ok t → t.done = true → (Moved fs from' to' fs' ↔ Apart fs from' to' overwrite)) ∧
      ∀ e, r = .error e → ¬CompensationFailed fs to' tr → Restored fs from' to' fs') fs := by
    rw [FileManager.move, hfrom, hto]
    refine ends_bind (run_fromPolicy hsafe (fun x hx => ?_) nofun)
    obtain rfl := Except.ok.inj hx
    refine ends_bind (run_fromPolicy hsafe (fun y hy => ?_) nofun)
    obtain rfl := Except.ok.inj hy
    show Run _ (if _ then _ else _) _ _
    split
    · refine ends_pure hsafe ⟨fun t ht hdone => ?_, nofun⟩
      obtain rfl := Except.ok.inj ht
      cases hdone
    refine ends_bind (run_fromPolicy hsafe (fun _ _ => ?_) fun _ _ => ⟨nofun, fun _ _ _ => restored_self _ _ _⟩)
    refine ends_bind (ends_mono ?_ (run_openExistingParent hfromRoot hsafe))
    rintro tr (e | source) fs₁ - ⟨rfl, hsource⟩
    · exact ⟨nofun, fun _ _ _ => restored_self _ _ _⟩
    obtain ⟨hname, hdir, hparent⟩ := hsource source rfl
    refine ends_bind (ends_finally (ends_tryCatch (ends_mono ?_
      (run_moveFrom hfromNe htoRoot htoNe hname hdir hparent))))
    rintro tr' (e | u) fs' hsafe' ⟨hok, herror⟩
    · -- an error is thrown, as it is or in other words
      have hthrown : ∀ whole, (∀ x ∈ tr', x ∈ whole) → ¬CompensationFailed fs₁ to' whole →
          Restored fs₁ from' to' fs' := by
        intro whole hwhole hno
        rcases herror e rfl with ⟨d, e', hd, hmem⟩ | hrestored
        · exact absurd ⟨d, e', hd, hwhole _ hmem⟩ hno
        · exact hrestored
      show Run _ (if _ then _ else _) _ _
      split
      · refine ends_throw hsafe' (ends_ignored (run_close hsafe' fun tr'' _ => ⟨nofun, fun _ _ => ?_⟩))
        exact hthrown _ fun x hx => by simp [hx]
      · refine ends_throw hsafe' (ends_ignored (run_close hsafe' fun tr'' _ => ⟨nofun, fun _ _ => ?_⟩))
        exact hthrown _ fun x hx => by simp [hx]
    · refine ends_ignored (run_close hsafe' fun tr'' _ => ?_)
      refine ends_pure hsafe' ⟨fun t ht _ => ?_, nofun⟩
      exact hok rfl
  exact ⟨fun tr fs' h => Prog.Ends.visits key h, fun tr r fs' h => Prog.Ends.runs key h⟩

/-- A file manager for the root `/r`. -/
def sampleManager : FileManager := ⟨⟨⟨[['r']], [['r']], sampleRoot_valid, sampleRoot_valid⟩, [], false⟩, 100, 0, 2⟩

/-- A file system whose directory `/r` has these names. The node 2 is a file. -/
def rootedDisk (entries : List (Sigma fun _ : Name => Ino)) : Disk where
  nodes := [⟨0, ⟨.dir 0 [] [⟨['r'], 1⟩].toAList, 0, 0, false⟩⟩, ⟨1, ⟨.dir 0 ['r'] entries.toAList, 0, 0, false⟩⟩,
    ⟨2, ⟨.file [7], 1, 0, false⟩⟩].toAList
  root := 0
  free := 0
  links := 40
  realpathLinks := 40
  links_le := sampleLinks_le

def sampleMove : FileScript FileManager.Transferred := sampleManager.move "/r/a".toList "/r/b".toList true

/-- There is nothing to move. -/
example : (sampleMove.run.eval posix (rootedDisk [⟨['b'], 2⟩])).1 = .error (.errno .ENOENT) := by decide +kernel

/-- Where only `a` is there, it is moved. -/
theorem move_keeps_one : Moved (rootedDisk [⟨['a'], 2⟩]) ⟨[['r']], [['a']]⟩ ⟨[['r']], [['b']]⟩
    (sampleMove.run.eval posix (rootedDisk [⟨['a'], 2⟩])).2 := by
  have hresult : (sampleMove.run.eval posix (rootedDisk [⟨['a'], 2⟩])).1 =
      .ok ⟨[['r'], ['a']], [['r'], ['b']], true, none⟩ := by decide +kernel
  refine (((move_keeps (by decide +kernel) (by decide +kernel)).2 _ _ _
    (eval_runs sampleMove.run (rootedDisk [⟨['a'], 2⟩]))).1 _ hresult rfl).mpr ?_
  intro _ i _ hsame
  exact absurd hsame (by rw [show (rootedDisk [⟨['a'], 2⟩]).follow _ = none by decide +kernel]; exact nofun)

/-- Where `a` and `b` are two names of one file, the move returns, and `a` still leads to it. -/
theorem move_stays : ∃ tr t fs', Runs posix AnyFault sampleMove.run (rootedDisk [⟨['a'], 2⟩, ⟨['b'], 2⟩]) tr (.ok t) fs' ∧
    t.done = true ∧ fs'.follow [['r'], ['a']] = some 2 := by
  have hresult : (sampleMove.run.eval posix (rootedDisk [⟨['a'], 2⟩, ⟨['b'], 2⟩])).1 =
      .ok ⟨[['r'], ['a']], [['r'], ['b']], true, none⟩ := by decide +kernel
  have hrun : Runs posix AnyFault sampleMove.run (rootedDisk [⟨['a'], 2⟩, ⟨['b'], 2⟩]) _ _ _ := eval_runs _ _
  rw [hresult] at hrun
  exact ⟨_, _, _, hrun, rfl, by decide +kernel⟩

end Move

end BegetBridge.Files
