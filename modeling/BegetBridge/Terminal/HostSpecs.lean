import BegetBridge.Terminal.Store
import BegetBridge.Transcript.Inspection

/-!
# Programs of the Session Host among others

What the operations do to a row and to a transcript, and the rules for programs whose operations other
calls come between. A call keeps the stream of a session, and while others only let its transcript grow,
a program over its files does what it does alone.

## Main definitions

* `among`: programs of the Session Host among others
* `Around`, `Near`: what the others may do around a session, and what holds of it meanwhile

## Main results

* `wp_service`, `wp_tmux`, `wp_attempt`: one operation
* `onFiles_spec`: a program over the files of a session
* `save_near`, `updateTranscript_near`: the programs of the store
-/

namespace BegetBridge.Terminal

open Core Relational Interleaving Transcript

/-! ## Rows and directories -/

/-- `session.json` of a session. -/
def Host.metadata (h : Host) (id : String) : Option Session :=
  (h.dirs.lookup id).bind SessionDir.metadata

/-- The file that it is written through. -/
def Host.part (h : Host) (id : String) : Option Session := (h.dirs.lookup id).bind SessionDir.part

section Rows

variable {h : Host} {id i : String} {s : Session} {dir : SessionDir}

theorem row_id (hs : h.row id = some s) : s.id = id := by
  simpa using (Table.mem_of_select hs).2

@[simp] theorem row_upsert :
    Host.row { h with rows := h.rows.upsert s } id = if s.id = id then some s else h.row id := by
  by_cases hid : s.id = id
  · rw [if_pos hid]
    refine Table.select_upsert (by simpa using hid) fun x hx => ?_
    show (x.id == s.id) = true
    rw [hid]
    exact hx
  · rw [if_neg hid]
    refine Table.select_upsert_of_ne (by simpa using hid) fun x hx => ?_
    show (x.id == s.id) = false
    rw [eq_of_beq hx, beq_eq_false_iff_ne]
    exact Ne.symm hid

@[simp] theorem row_delete :
    Host.row { h with rows := h.rows.delete fun s => s.id == i } id =
      if i = id then none else h.row id := by
  by_cases hid : i = id
  · subst hid
    rw [if_pos rfl]
    exact Table.select_delete
  · rw [if_neg hid]
    refine Table.select_delete_of_ne fun x hx => ?_
    rw [eq_of_beq hx, beq_eq_false_iff_ne]
    exact Ne.symm hid

@[simp] theorem row_setDir : (h.setDir i dir).row id = h.row id := rfl

@[simp] theorem lookup_setDir :
    (h.setDir i dir).dirs.lookup id = if id = i then some dir else h.dirs.lookup id := by
  by_cases hid : id = i
  · subst hid
    rw [if_pos rfl]
    exact AList.lookup_insert _
  · rw [if_neg hid]
    exact AList.lookup_insert_ne hid

theorem files_of_lookup (hdir : h.dirs.lookup id = some dir) : h.files id = dir.files := by
  rw [Host.files, hdir]
  rfl

theorem metadata_of_lookup (hdir : h.dirs.lookup id = some dir) : h.metadata id = dir.metadata := by
  rw [Host.metadata, hdir]
  rfl

theorem part_of_lookup (hdir : h.dirs.lookup id = some dir) : h.part id = dir.part := by
  rw [Host.part, hdir]
  rfl

theorem files_setDir : (h.setDir i dir).files id = if id = i then dir.files else h.files id := by
  rw [Host.files, lookup_setDir]
  by_cases hid : id = i
  · rw [if_pos hid, if_pos hid]
    rfl
  · rw [if_neg hid, if_neg hid]
    rfl

/-- A directory that changes but for its transcript. -/
theorem files_setDir_same (hdir : h.dirs.lookup i = some dir) {dir' : SessionDir}
    (hfiles : dir'.files = dir.files) : (h.setDir i dir').files id = h.files id := by
  rw [files_setDir]
  by_cases hid : id = i
  · rw [if_pos hid, hfiles, hid, files_of_lookup hdir]
  · rw [if_neg hid]

theorem row_sameStream (s : Session) : s.SameStream s.row := ⟨rfl, rfl, rfl⟩

theorem normalized_sameStream (s : Session) (existing : Option Session) :
    s.SameStream (s.normalized existing) := ⟨rfl, rfl, rfl⟩

theorem degraded_sameStream (s : Session) {reason : CaptureGap} :
    s.SameStream (s.updated (degradedBy reason)) := ⟨rfl, rfl, rfl⟩

end Rows

/-! ## Operations among others -/

/-- Programs of the Session Host among others, who act within `A`. Nothing faults. -/
def among (A : Host → Host → Prop) : Setting HostOp FsError Host where
  toBackend := hostBackend
  Fault _ := False
  rely _ := A
  oblige _ _ := True

section Operations

variable {A : Host → Host → Prop} {h : Host} {α β : Type}

/-- An operation acts on what the others leave. -/
theorem wp_attempt {op : HostOp β} {Q : Except FsError β → Host → Prop}
    (hok : ∀ h₁ b h₂, A h h₁ → op.exec h₁ = .ok (b, h₂) → Q (.ok b) h₂)
    (herr : ∀ h₁ e, A h h₁ → op.exec h₁ = .error e → Q (.error e) h₁) :
    wp (among A) (Prog.perform op) Q h := by
  intro h₁ hrely
  refine ⟨trivial, fun r h₂ hans => ?_⟩
  cases hans with
  | effect he => exact hok h₁ _ h₂ hrely he
  | refusal he => exact herr h₁ _ hrely he
  | fault hf => exact hf.elim

theorem wp_service {op : Service β} {Q : Except Thrown β → Host → Prop}
    (hok : ∀ h₁ b h₂, A h h₁ → op.exec h₁ = .ok (b, h₂) → Q (.ok b) h₂)
    (herr : ∀ h₁ e, A h h₁ → op.exec h₁ = .error e → Q (.error (.fs e)) h₁) :
    wpThrow (among A) (service op) Q h := by
  intro h₁ hrely
  refine ⟨trivial, fun r h₂ hans => ?_⟩
  cases hans with
  | effect he => exact hok h₁ _ h₂ hrely he
  | refusal he => exact herr h₁ _ hrely he
  | fault hf => exact hf.elim

theorem wp_tmux {op : Service β} {Q : Except Thrown β → Host → Prop}
    (hok : ∀ h₁ b h₂, A h h₁ → op.exec h₁ = .ok (b, h₂) → Q (.ok b) h₂)
    (herr : ∀ h₁, A h h₁ → Q (.error (.bridge tmuxError)) h₁) :
    wpThrow (among A) (tmux op) Q h := by
  intro h₁ hrely
  refine ⟨trivial, fun r h₂ hans => ?_⟩
  cases hans with
  | effect he => exact hok h₁ _ h₂ hrely he
  | refusal he => exact herr h₁ hrely
  | fault hf => exact hf.elim

@[simp] theorem wpThrow_lift {p : Prog HostOp FsError α} {Q : Except Thrown α → Host → Prop} :
    wpThrow (among A) (ExceptT.lift p) Q h ↔ wp (among A) p (fun a h => Q (.ok a) h) h := by
  show wp (among A) (p.bind _) Q h ↔ _
  rw [wp_bind]
  exact Iff.rfl

end Operations

/-! ## The files of a session -/

/-- The others keep a condition on the host. Where it holds, they change the transcript of a session
within `R`, and do not remove its directory. -/
structure Kept (A : Host → Host → Prop) (R : Dir → Dir → Prop) (id : String) (P : Host → Prop) :
    Prop where
  refl : ∀ h, A h h
  keeps : ∀ {h h'}, P h → A h h' → P h'
  files : ∀ {h h'}, P h → A h h' → R (h.files id) (h'.files id)
  dir : ∀ {h h'}, P h → A h h' → (h.dirs.lookup id).isSome = true → (h'.dirs.lookup id).isSome = true

section Files

variable {A : Host → Host → Prop} {R : Dir → Dir → Prop} {P : Host → Prop} {id : String} {h : Host}
  {α : Type}

/-- **A program over the files of a session** does what it does alone. -/
theorem onFiles_spec (hA : Kept A R id P) {p : FsM α} {Q : Except Failure α → Dir → Prop} (hP : P h)
    (hdir : (h.dirs.lookup id).isSome = true) (hp : wpThrow (sharing R) p Q (h.files id)) :
    wp (among A) (p.run.mapOp (.file id)) (fun r h' => P h' ∧ Q r (h'.files id)) h := by
  have hrely : ∀ {h h' : Host}, P h ∧ (h.dirs.lookup id).isSome = true → A h h' →
      (P h' ∧ (h'.dirs.lookup id).isSome = true) ∧ R (h.files id) (h'.files id) :=
    fun hP ha => ⟨⟨hA.keeps hP.1 ha, hA.dir hP.1 ha hP.2⟩, hA.files hP.1 ha⟩
  have hmono : ∀ r h', (P h' ∧ (h'.dirs.lookup id).isSome = true) ∧ Q r (h'.files id) →
      P h' ∧ Q r (h'.files id) := fun r h' hr => ⟨hr.1.1, hr.2⟩
  refine wp_mono hmono (wp_mapOp (C := sharing R) (fun h : Host => h.files id) hrely ?_ ⟨hP, hdir⟩ hp)
  intro β op h₁ hP₁ hreads
  refine ⟨trivial, fun r h₂ hans => ?_⟩
  obtain ⟨dir, hlook⟩ := Option.isSome_iff_exists.mp hP₁.2
  have hexec : ∀ r', HostOp.exec (.file id op) h₁ = r' →
      (op.exec dir.files).map (fun r => (r.1, h₁)) = r' := by
    intro r' he
    rw [← he, HostOp.exec, hlook, show op.reads = true from hreads]
    rfl
  show _ ∧ Answer fsBackend _ op (h₁.files id) r (h₂.files id)
  cases hans with
  | effect he =>
    have he := hexec _ he
    rcases hop : op.exec dir.files with e | ⟨b, files'⟩
    · rw [hop] at he
      exact absurd he nofun
    · rw [hop] at he
      obtain ⟨rfl, rfl⟩ := Prod.mk.inj (Except.ok.inj he)
      obtain rfl := Fs.exec_reads hreads hop
      rw [files_of_lookup hlook]
      exact ⟨hP₁, .effect hop⟩
  | refusal he =>
    have he := hexec _ he
    rcases hop : op.exec dir.files with e | ⟨b, files'⟩
    · rw [hop] at he
      obtain rfl := Except.error.inj he
      rw [files_of_lookup hlook]
      exact ⟨hP₁, .refusal hop⟩
    · rw [hop] at he
      exact absurd he nofun
  | fault hf => exact hf.elim

/-- What an inspection among others returns. A directory that is not there holds no transcript. -/
def Found (seg segmentBytes : Nat) (files : List Bytes) (r : Except Failure Inventory) (d : Dir) : Prop :=
  Inspected seg segmentBytes files r d ∨ r = .error (.fs .enoent) ∧ files = [] ∨
    maxSafeInteger < segmentBytes ∧ ∃ text, r = .error (.message text)

theorem inspect_found (hA : Kept A R id P) {seg segmentBytes : Nat} {files : List Bytes}
    (hR : Growth seg R) (hpos : 1 ≤ seg) (hbytes : 1 ≤ segmentBytes) (hP : P h)
    (hs : Stored seg (h.files id) files) :
    wp (among A) ((inspectTranscriptSegments segmentBytes).run.mapOp (.file id))
      (fun r h' => P h' ∧ Found seg segmentBytes files r (h'.files id)) h := by
  by_cases hsafe : segmentBytes ≤ maxSafeInteger
  · have hspec : ∀ h₁, A h h₁ → (h₁.dirs.lookup id).isSome = true → wp (among A)
        ((inspectTranscriptSegments segmentBytes).run.mapOp (.file id))
        (fun r h' => P h' ∧ Found seg segmentBytes files r (h'.files id)) h₁ := by
      intro h₁ ha hdir
      obtain ⟨files₁, hs₁, hext⟩ := hR.grows (hA.files hP ha) hs
      refine wp_mono ?_ (onFiles_spec hA (hA.keeps hP ha) hdir
        (inspectTranscriptSegments_spec hR ⟨hbytes, hsafe⟩ hs₁ hpos))
      rintro r h' ⟨hP', inv, files', rfl, hs', hext', hcov, hlen, hsize, hseg⟩
      exact ⟨hP', .inl ⟨inv, files', rfl, hs', hext.trans hext', hcov, hext.length_le.trans hlen,
        (hext.flatten_prefix hs.shape hs₁.shape).length_le.trans hsize, hseg⟩⟩
    -- the directory is listed first
    obtain ⟨k, hk, herr⟩ : ∃ k, (inspectTranscriptSegments segmentBytes).run = .call .readdir k ∧
        ∀ e, k (.error e) = .done (.error (.fs e)) := by
      rw [inspectTranscriptSegments, ensure, if_pos ⟨hbytes, hsafe⟩]
      exact ⟨_, rfl, fun _ => rfl⟩
    rw [hk] at hspec ⊢
    intro h₁ ha
    refine ⟨trivial, fun r h₂ hans => ?_⟩
    rcases hdir : h₁.dirs.lookup id with _ | dir
    · have hexec : HostOp.exec (.file id .readdir) h₁ = .error .enoent := by
        rw [HostOp.exec, hdir]
      have hnone : h₁.files id = ∅ := by
        rw [Host.files, hdir]
        rfl
      obtain ⟨files₁, hs₁, hext⟩ := hR.grows (hA.files hP ha) hs
      cases hans with
      | effect he => cases hexec.symm.trans he
      | refusal he =>
        obtain rfl := Except.error.inj (hexec.symm.trans he)
        show wp (among A) ((k (.error .enoent)).mapOp (.file id)) _ h₁
        rw [herr]
        refine ⟨hA.keeps hP ha, .inr (.inl ⟨rfl, ?_⟩)⟩
        -- no file is there
        rcases files₁ with _ | ⟨b, files₁⟩
        · exact List.length_eq_zero_iff.mp (Nat.le_zero.mp hext.length_le)
        · have hfirst := hs₁.holds.from_first.1
          rw [hnone] at hfirst
          cases hfirst
      | fault hf => exact hf.elim
    · exact (hspec h₁ ha (by rw [hdir]; rfl) h₁ (hA.refl h₁)).2 r h₂ hans
  · have hrun : (inspectTranscriptSegments segmentBytes).run =
        .done (.error (.message "Invalid transcript segment size")) := by
      rw [inspectTranscriptSegments, ensure, if_neg fun h => hsafe h.2]
      rfl
    rw [hrun]
    exact ⟨hP, .inr (.inr ⟨not_le.mp hsafe, _, rfl⟩)⟩

end Files

/-! ## Around a session -/

/-- What the others may do around a session: its row keeps its stream, and its transcript changes
within `R`. -/
structure Around (R : Dir → Dir → Prop) (id : String) (h h' : Host) : Prop where
  row : ∀ s, h.row id = some s → ∃ s', h'.row id = some s' ∧ s.SameStream s'
  dir : (h.dirs.lookup id).isSome = true → (h'.dirs.lookup id).isSome = true
  files : R (h.files id) (h'.files id)

/-- The session is there with the stream of `s`, and its transcript has changed within `R` since it
was `d`. -/
structure Near (R : Dir → Dir → Prop) (id : String) (s : Session) (d : Dir) (h : Host) : Prop where
  row : ∃ s', h.row id = some s' ∧ s.SameStream s'
  files : R d (h.files id)

/-- The operations that keep the stream of a session, and its transcript. -/
def Service.Keeps (id : String) (s : Session) {β : Type} : Service β → Prop
  | .upsert session => session.id = id → s.SameStream session
  | .deleteRow i | .rmdir i | .writeOutput i => i ≠ id
  | _ => True

section Around

variable {R : Dir → Dir → Prop} {id : String} {s : Session} {d : Dir} {h h' : Host} {seg : Nat}
  {files : List Bytes} {α β : Type}

theorem Near.around (hR : Growth seg R) (hn : Near R id s d h) (ha : Around R id h h') :
    Near R id s d h' := by
  obtain ⟨s₁, hrow, hs₁⟩ := hn.row
  obtain ⟨s₂, hrow', hs₂⟩ := ha.row s₁ hrow
  exact ⟨⟨s₂, hrow', hs₁.trans hs₂⟩, hR.trans hn.files ha.files⟩

theorem Near.stored (hR : Growth seg R) (hn : Near R id s d h) (hs : Stored seg d files) :
    ∃ files', Stored seg (h.files id) files' ∧ Extends files files' := hR.grows hn.files hs

/-- An operation that keeps a session. -/
theorem Service.Keeps.exec (op : Service β) {b : β} (hop : op.Keeps id s)
    (he : op.exec h = .ok (b, h')) (hn : Near R id s d h) : Near R id s d h' := by
  have hsame : ∀ {i : String} {dir dir' : SessionDir}, h.dirs.lookup i = some dir →
      dir'.files = dir.files → Near R id s d (h.setDir i dir') := fun hdir hfiles =>
    ⟨hn.row, by rw [files_setDir_same hdir hfiles]; exact hn.files⟩
  cases op with
  | select | selectAll | statfs | hasSession =>
    obtain ⟨-, rfl⟩ := Prod.mk.inj (Except.ok.inj he)
    exact hn
  | upsert session =>
    obtain ⟨-, rfl⟩ := Prod.mk.inj (Except.ok.inj he)
    refine ⟨?_, hn.files⟩
    rw [row_upsert]
    by_cases hid : session.row.id = id
    · rw [if_pos hid]
      exact ⟨_, rfl, (hop hid).trans (row_sameStream _)⟩
    · rw [if_neg hid]
      exact hn.row
  | deleteRow i =>
    obtain ⟨-, rfl⟩ := Prod.mk.inj (Except.ok.inj he)
    refine ⟨?_, hn.files⟩
    rw [row_delete, if_neg hop]
    exact hn.row
  | mkdir i =>
    obtain ⟨-, rfl⟩ := Prod.mk.inj (Except.ok.inj he)
    split
    · exact hn
    · -- a new directory is as empty as one that is not there
      rename_i hnone
      refine ⟨hn.row, ?_⟩
      rw [files_setDir]
      by_cases hid : id = i
      · have hfiles : h.files i = ∅ := by
          rw [Host.files, Option.not_isSome_iff_eq_none.mp hnone]
          rfl
        rw [if_pos hid, SessionDir.empty, ← hfiles, ← hid]
        exact hn.files
      · rw [if_neg hid]
        exact hn.files
  | rmdir i =>
    obtain ⟨-, rfl⟩ := Prod.mk.inj (Except.ok.inj he)
    refine ⟨hn.row, ?_⟩
    rw [Host.files, AList.lookup_erase_ne (Ne.symm hop)]
    exact hn.files
  | writeOutput i =>
    rw [Service.exec] at he
    split at he
    · obtain ⟨-, rfl⟩ := Prod.mk.inj (Except.ok.inj he)
      refine ⟨hn.row, ?_⟩
      rw [files_setDir, if_neg (Ne.symm hop)]
      exact hn.files
    · exact absurd he nofun
  | writePart i session =>
    rw [Service.exec] at he
    split at he
    · rename_i hdir
      obtain ⟨-, rfl⟩ := Prod.mk.inj (Except.ok.inj he)
      exact hsame hdir rfl
    · exact absurd he nofun
  | renamePart i =>
    rw [Service.exec] at he
    split at he
    · rename_i hdir
      split at he
      · obtain ⟨-, rfl⟩ := Prod.mk.inj (Except.ok.inj he)
        exact hsame hdir rfl
      · exact absurd he nofun
    · exact absurd he nofun
  | openMarker i =>
    rw [Service.exec] at he
    split at he
    · split at he
      · obtain ⟨-, rfl⟩ := Prod.mk.inj (Except.ok.inj he)
        exact hn
      · exact absurd he nofun
    · exact absurd he nofun
  | newSession i =>
    rw [Service.exec] at he
    split at he
    · exact absurd he nofun
    · obtain ⟨-, rfl⟩ := Prod.mk.inj (Except.ok.inj he)
      exact ⟨hn.row, hn.files⟩
  | killSession i | setOption i | pipePane i capture =>
    rw [Service.exec] at he
    split at he
    · obtain ⟨-, rfl⟩ := Prod.mk.inj (Except.ok.inj he)
      exact ⟨hn.row, hn.files⟩
    · exact absurd he nofun

/-- An operation near a session. -/
theorem wp_near {op : Service β} {Q : Except Thrown β → Host → Prop} (hR : Growth seg R)
    (hop : op.Keeps id s) (hn : Near R id s d h)
    (hok : ∀ h₁ b h₂, Near R id s d h₁ → Near R id s d h₂ → op.exec h₁ = .ok (b, h₂) → Q (.ok b) h₂)
    (herr : ∀ h₁ e, Near R id s d h₁ → op.exec h₁ = .error e → Q (.error (.fs e)) h₁) :
    wpThrow (among (Around R id)) (service op) Q h :=
  wp_service
    (fun h₁ b h₂ ha he => hok h₁ b h₂ (hn.around hR ha) (hop.exec op he (hn.around hR ha)) he)
    (fun h₁ e ha he => herr h₁ e (hn.around hR ha) he)

/-- What a program leaves behind that keeps a session, and returns one. -/
def KeptNear (R : Dir → Dir → Prop) (id : String) (s : Session) (d : Dir) (r : Except Thrown Session)
    (h : Host) : Prop :=
  Near R id s d h ∧ ∀ s', r = .ok s' → s'.id = id ∧ s.SameStream s'

theorem getSession_near (hR : Growth seg R) (hn : Near R id s d h) :
    wpThrow (among (Around R id)) (getSession id) (KeptNear R id s d) h := by
  rw [getSession, wpThrow_bind]
  refine wp_near hR trivial hn (fun h₁ b h₂ hn₁ hn₂ he => ?_) (fun h₁ e hn₁ _ => ⟨hn₁, nofun⟩)
  obtain ⟨rfl, rfl⟩ := Prod.mk.inj (Except.ok.inj he)
  obtain ⟨s', hrow, hs'⟩ := hn₁.row
  rw [hrow, onOk_ok, wpThrow_pure]
  refine ⟨hn₁, fun s'' heq => ?_⟩
  obtain rfl := Except.ok.inj heq
  exact ⟨row_id hrow, hs'⟩

theorem save_near (hR : Growth seg R) (hn : Near R id s d h) {s' : Session} (hid : s'.id = id)
    (hs' : s.SameStream s') : wpThrow (among (Around R id)) (save s') (KeptNear R id s d) h := by
  have herror : ∀ h₁ (e : FsError), Near R id s d h₁ →
      KeptNear R id s d (.error (.fs e)) h₁ := fun h₁ e hn₁ => ⟨hn₁, nofun⟩
  rw [save, wpThrow_bind]
  refine wp_near hR trivial hn (fun _ _ h₁ _ hn₁ _ => ?_) fun h₁ e hn₁ _ => herror h₁ e hn₁
  rw [onOk_ok, wpThrow_bind]
  refine wp_near hR trivial hn₁ (fun _ existing h₂ _ hn₂ _ => ?_) fun h₁ e hn₁ _ => herror h₁ e hn₁
  have hsame := hs'.trans (normalized_sameStream s' existing)
  rw [onOk_ok, wpThrow_bind]
  refine wp_near hR (fun _ => hsame) hn₂ (fun _ _ h₃ _ hn₃ _ => ?_) fun h₁ e hn₁ _ => herror h₁ e hn₁
  rw [onOk_ok, wpThrow_bind]
  refine wp_near hR trivial hn₃ (fun _ _ h₄ _ hn₄ _ => ?_) fun h₁ e hn₁ _ => herror h₁ e hn₁
  rw [onOk_ok, wpThrow_bind]
  refine wp_near hR trivial hn₄ (fun _ _ h₅ _ hn₅ _ => ?_) fun h₁ e hn₁ _ => herror h₁ e hn₁
  rw [onOk_ok, wpThrow_pure]
  refine ⟨hn₅, fun s'' heq => ?_⟩
  obtain rfl := Except.ok.inj heq
  exact ⟨hid, hsame⟩

theorem updateTranscript_near (hR : Growth seg R) (hn : Near R id s d h) {reason : CaptureGap} :
    wpThrow (among (Around R id)) (updateTranscript id (degradedBy reason)) (KeptNear R id s d) h := by
  rw [updateTranscript, wpThrow_bind]
  refine wpThrow_mono (fun r h₁ hr => ?_) (getSession_near hR hn)
  obtain ⟨hn₁, hs'⟩ := hr
  rcases r with e | s'
  · exact ⟨hn₁, nofun⟩
  · obtain ⟨hid, hsame⟩ := hs' s' rfl
    exact save_near hR hn₁ hid (hsame.trans (degraded_sameStream s'))

end Around

end BegetBridge.Terminal
