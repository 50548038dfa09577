import BegetBridge.Transcript.Segments

/-!
# What an inspection finds

An inspection lists the directory first and measures the files afterwards, one by one. While the
transcript only grows, whatever lies between these steps, it succeeds: it covers at least what was
there when it listed the directory and at most what is there when it ends. A read inside what it
covers then finds the bytes of the transcript, however much has been added since.

## Main definitions

* `Stored`: a directory that holds a transcript of one segment size
* `sharing`, `Growth`: programs over files whose transcript grows between their operations

## Main results

* `inspectTranscriptSegments_spec`, `readTranscriptBytes_spec`: the two programs among others
* `inspectTranscriptSegments_ok_iff`: it succeeds exactly on a stored transcript, where it stands still
-/

namespace BegetBridge.Transcript

open Core Relational Interleaving

/-- The directory holds a transcript in segments of length `seg`, of a safe total length. -/
structure Stored (seg : Nat) (d : Dir) (files : List Bytes) : Prop where
  holds : Holds d files
  shape : Shape seg files
  safe : files.flatten.length ≤ maxSafeInteger

/-- Programs that read files among others, who act within `R`. Nothing faults. -/
def sharing (R : Dir → Dir → Prop) : Setting Fs FsError Dir where
  toBackend := fsBackend
  Fault _ := False
  rely _ d d' := R d d'
  oblige op _ := op.reads = true

/-- The others only let the transcript grow. -/
structure Growth (seg : Nat) (R : Dir → Dir → Prop) : Prop where
  refl : ∀ d, R d d
  trans : ∀ {d d' d''}, R d d' → R d' d'' → R d d''
  grows : ∀ {d d' files}, R d d' → Stored seg d files →
    ∃ files', Stored seg d' files' ∧ Extends files files'

/-- What an inventory covers stays covered while the transcript grows. -/
theorem Inventory.Covers.grows {seg : Nat} {d d' : Dir} {inv : Inventory} {files files' : List Bytes}
    (h : inv.Covers files) (hs : Stored seg d files) (hs' : Stored seg d' files')
    (hext : Extends files files') : inv.Covers files' :=
  { h with segments := h.segments.extends hext hs.shape hs'.shape }

theorem Inventory.Covers.size_le {inv : Inventory} {files : List Bytes} (h : inv.Covers files) :
    inv.size ≤ files.flatten.length :=
  h.size.trans_le h.segments.size_le

/-! ## Steps -/

section Steps

variable {C : Setting Fs FsError Dir} {R : Dir → Dir → Prop} {d : Dir} {α β : Type}
  {Q : Except Failure α → Dir → Prop}

theorem wpThrow_ensure_bind {c : Prop} [Decidable c] {text : String} {f : Unit → FsM α} :
    wpThrow C (ensure c text >>= f) Q d ↔
      (c → wpThrow C (f ()) Q d) ∧ (¬c → Q (.error (.message text)) d) := by
  unfold ensure
  by_cases hc : c
  · rw [if_pos hc, wpThrow_bind]
    simp [hc]
  · rw [if_neg hc, wpThrow_bind]
    simp [hc]

/-- A check that passes. -/
theorem wpThrow_ensured {c : Prop} [Decidable c] {text : String} {f : Unit → FsM α} (hc : c)
    (h : wpThrow C (f ()) Q d) : wpThrow C (ensure c text >>= f) Q d :=
  wpThrow_ensure_bind.mpr ⟨fun _ => h, fun hno => absurd hc hno⟩

/-- A file operation acts on what the others leave. -/
theorem wp_perform {op : Fs α} (hreads : op.reads = true)
    (hok : ∀ d₁ b d₂, R d d₁ → op.exec d₁ = .ok (b, d₂) → Q (.ok b) d₂)
    (herr : ∀ d₁ e, R d d₁ → op.exec d₁ = .error e → Q (.error (.fs e)) d₁) :
    wpThrow (sharing R) (perform op) Q d := by
  intro d₁ hrely
  refine ⟨hreads, fun r d₂ hans => ?_⟩
  cases hans with
  | effect he => exact hok d₁ _ d₂ hrely he
  | refusal he => exact herr d₁ _ hrely he
  | fault hf => exact hf.elim

/-- A file operation that the others cannot make fail. -/
theorem wp_performed {op : Fs α} (hreads : op.reads = true)
    (h : ∀ d₁, R d d₁ → ∃ b, op.exec d₁ = .ok (b, d₁) ∧ Q (.ok b) d₁) :
    wpThrow (sharing R) (perform op) Q d := by
  refine wp_perform hreads (fun d₁ b d₂ hrely he => ?_) (fun d₁ e hrely he => ?_)
  · obtain ⟨b', he', hQ⟩ := h d₁ hrely
    obtain ⟨rfl, rfl⟩ := Prod.mk.inj (Except.ok.inj (he'.symm.trans he))
    exact hQ
  · obtain ⟨b', he', -⟩ := h d₁ hrely
    exact absurd (he'.symm.trans he) nofun

/-- A program that only reads also knows that the directory has changed within `R`. -/
theorem wp_sharing_within {seg : Nat} (hR : Growth seg R) {p : Prog Fs FsError α} {Q : α → Dir → Prop}
    (h : wp (sharing R) p Q d) : wp (sharing R) p (fun a d' => Q a d' ∧ R d d') d := by
  induction p generalizing d with
  | done a => exact ⟨h, hR.refl d⟩
  | call op k ih =>
    intro d₁ hd
    obtain ⟨hreads, hk⟩ := h d₁ hd
    refine ⟨hreads, fun r d₂ hans => ?_⟩
    have hsame : d₂ = d₁ := by
      cases hans with
      | effect he => exact Fs.exec_reads hreads he
      | refusal => rfl
      | fault => rfl
    rw [hsame] at hans ⊢
    refine wp_mono ?_ (ih r (hk r d₁ hans))
    rintro a d' ⟨hQ, hd'⟩
    exact ⟨hQ, hR.trans hd hd'⟩

end Steps

/-! ## Positions in the files -/

section Positions

variable {seg index k : Nat} {d : Dir} {files files' : List Bytes} {b : Bytes}

theorem HoldsFrom.drop (h : HoldsFrom d index files) : HoldsFrom d (index + k) (files.drop k) := by
  induction k generalizing index files with
  | zero => exact h
  | succ k ih =>
    rcases files with _ | ⟨b, files⟩
    · trivial
    · rw [← Nat.add_assoc, Nat.add_right_comm]
      exact ih h.2

theorem Shape.drop (h : Shape seg files) : Shape seg (files.drop k) := by
  induction k generalizing files with
  | zero => exact h
  | succ k ih =>
    rcases files with _ | ⟨b, files⟩
    · trivial
    · exact ih h.tail

theorem Extends.drop (h : Extends files files') : Extends (files.drop k) (files'.drop k) := by
  induction k generalizing files files' with
  | zero => exact h
  | succ k ih =>
    rcases files with _ | ⟨b, files⟩
    · trivial
    · rcases files' with _ | ⟨b', files'⟩
      · exact h.elim
      · exact ih h.2

theorem Extends.length_le (h : Extends files files') : files.length ≤ files'.length := by
  induction files generalizing files' with
  | nil => exact Nat.zero_le _
  | cons b files ih =>
    rcases files' with _ | ⟨b', files'⟩
    · exact h.elim
    · exact Nat.succ_le_succ (ih h.2)

theorem Extends.take_length_le (h : Extends files files') :
    (files.take k).flatten.length ≤ (files'.take k).flatten.length := by
  induction k generalizing files files' with
  | zero => simp
  | succ k ih =>
    rcases files with _ | ⟨b, files⟩
    · simp
    · rcases files' with _ | ⟨b', files'⟩
      · exact h.elim
      · have := ih h.2
        have := h.1.length_le
        simp only [List.take_succ_cons, List.flatten_cons, List.length_append]
        omega

/-- The file at a position is there. -/
theorem Stored.lookup (h : Stored seg d files) (hk : files.drop k = b :: files') :
    d.lookup (segmentName k) = some ⟨true, 1, b⟩ := by
  have := h.holds.from_first.drop (k := k)
  rw [hk, Nat.zero_add] at this
  exact this.1

end Positions

/-! ## Reading -/

section Reading

variable {seg : Nat} {R : Dir → Dir → Prop} {d : Dir} {files F : List Bytes}

/-- A range inside a prefix is a range of the whole. -/
theorem slice_of_isPrefix {b b' : Bytes} {start count : Nat} (h : b <+: b')
    (hle : start + count ≤ b.length) : (b'.drop start).take count = (b.drop start).take count := by
  obtain ⟨t, rfl⟩ := h
  rw [List.drop_append_of_le_length (by omega), List.take_append_of_le_length]
  rw [List.length_drop]
  omega

theorem slice_length {b : Bytes} {start count : Nat} (hle : start + count ≤ b.length) :
    ((b.drop start).take count).length = count := by
  rw [List.length_take, List.length_drop]
  omega

/-- A range of a first file and what follows it, read in two steps. -/
theorem slice_append {b rest : Bytes} {start length count : Nat} (hle : count ≤ length)
    (hfile : start + count ≤ b.length) (hfull : count < length → start + count = b.length) :
    ((b ++ rest).drop start).take length =
      (b.drop start).take count ++ rest.take (length - count) := by
  obtain ⟨more, rfl⟩ := Nat.exists_eq_add_of_le hle
  rw [Nat.add_sub_cancel_left, List.take_add, List.drop_append_of_le_length (by omega),
    List.take_append_of_le_length (by rw [List.length_drop]; omega)]
  rcases more with _ | more
  · simp
  · -- the range goes on, so the file has been read to its end
    have := hfull (by omega)
    rw [List.drop_append_of_le_length (by rw [List.length_drop]; omega), List.drop_drop, this,
      List.drop_length, List.nil_append]

/-- What the loop of a read returns, in terms of the files that the segments were measured on. -/
theorem readFrom_spec (hR : Growth seg R) {offset length index start copied : Nat}
    {segments : List Segment} (hs : Stored seg d files) (hext : Extends F files)
    (hc : CoversFrom index start segments (F.drop index)) (hle : copied ≤ length)
    (hstart : copied < length → start ≤ offset + copied)
    (hend : offset + length ≤ start + (segments.map (·.size)).sum) :
    wpThrow (sharing R) (readFrom offset length segments copied)
      (fun r _ => r = .ok (((F.drop index).flatten.drop (offset + copied - start)).take
        (length - copied))) d := by
  induction segments generalizing index start copied d files with
  | nil =>
    have hdone : copied = length := by
      by_contra hne
      have := hstart (by omega)
      simp only [List.map_nil, List.sum_nil] at hend
      omega
    subst hdone
    rw [readFrom]
    exact wpThrow_ensured rfl (by simp)
  | cons s segments ih =>
    rw [readFrom]
    split
    · rename_i hdone
      simp [hdone]
    · rename_i hmore
      have hlt : copied < length := by omega
      have hstart := hstart hlt
      simp only [List.map_cons, List.sum_cons] at hend
      obtain ⟨b, rest, hdrop⟩ : ∃ b rest, F.drop index = b :: rest := by
        rcases hF' : F.drop index with _ | ⟨b, rest⟩
        · rw [hF'] at hc
          exact hc.elim
        · exact ⟨b, rest, rfl⟩
      have hrest : F.drop (index + 1) = rest := by
        rw [← List.drop_drop, hdrop, List.drop_one, List.tail_cons]
      rw [hdrop] at hc ⊢
      obtain ⟨hname, hsstart, hsize, hfull, hcrest⟩ := hc
      rw [← hrest] at hcrest
      rw [List.flatten_cons, ← hrest]
      have hlast : segments = [] → start + s.size < offset + length → False := by
        rintro rfl hgt
        simp only [List.map_nil, List.sum_nil] at hend
        omega
      split
      · -- the segment lies before the range
        rename_i hskip
        have hne : segments ≠ [] := fun hnil => hlast hnil (by omega)
        have hb := hfull hne
        have heq : offset + copied - start = b.length + (offset + copied - (start + s.size)) := by
          omega
        rw [heq, List.drop_length_add_append]
        exact ih hs hext hcrest hle (fun _ => by omega) (by omega)
      · rename_i hreach
        rw [hsstart] at hreach ⊢
        -- at every later directory the file is there, with the bytes measured
        have hthere : ∀ {d₁ d₂ files₁}, Stored seg d₁ files₁ → Extends F files₁ → R d₁ d₂ →
            ∃ files₂ b₂, Stored seg d₂ files₂ ∧ Extends F files₂ ∧
              d₂.lookup s.filename = some ⟨true, 1, b₂⟩ ∧ b <+: b₂ := by
          intro d₁ d₂ files₁ hs₁ hext₁ h₁₂
          obtain ⟨files₂, hs₂, hext₂⟩ := hR.grows h₁₂ hs₁
          have hF₂ := (hext₁.trans hext₂).drop (k := index)
          rcases hfile : files₂.drop index with _ | ⟨b₂, rest₂⟩
          · rw [hdrop, hfile] at hF₂
            exact hF₂.elim
          · rw [hdrop, hfile] at hF₂
            exact ⟨files₂, b₂, hs₂, hext₁.trans hext₂, hname ▸ hs₂.lookup hfile, hF₂.1⟩
        refine wpThrow_ensured (by omega) ?_
        rw [wpThrow_bind]
        refine wp_performed rfl fun d₁ h₁ => ?_
        obtain ⟨files₁, b₁, hs₁, hext₁, hlook₁, -⟩ := hthere hs hext h₁
        refine ⟨(), by simp [Fs.exec, hlook₁], ?_⟩
        rw [onOk_ok, wpThrow_bind]
        refine wp_performed rfl fun d₂ h₂ => ?_
        obtain ⟨files₂, b₂, hs₂, hext₂, hlook₂, hb₂⟩ := hthere hs₁ hext₁ h₂
        refine ⟨_, by simp only [Fs.exec, hlook₂]; rfl, ?_⟩
        rw [onOk_ok]
        refine wpThrow_ensured ⟨rfl, rfl, hsize.trans hb₂.length_le⟩ ?_
        rw [wpThrow_bind]
        refine wp_performed rfl fun d₃ h₃ => ?_
        obtain ⟨files₃, b₃, hs₃, hext₃, hlook₃, hb₃⟩ := hthere hs₂ hext₂ h₃
        refine ⟨_, by simp only [Fs.exec, hlook₃]; rfl, ?_⟩
        rw [onOk_ok]
        have hcount : offset + copied - start + min (length - copied)
            (s.size - (offset + copied - start)) ≤ b.length := by omega
        rw [slice_of_isPrefix hb₃ hcount]
        refine wpThrow_ensured (slice_length hcount) ?_
        rw [wpThrow_bind]
        refine wpThrow_mono (fun r d' hr => ?_) (ih hs₃ hext₃ hcrest (by omega) (fun _ => by omega)
          (by omega))
        subst hr
        set count := min (length - copied) (s.size - (offset + copied - start)) with hcut
        have hgo : count < length - copied → start + s.size = offset + copied + count := by omega
        have hcle : count ≤ length - copied := min_le_left _ _
        rw [onOk_ok, wpThrow_pure, slice_append hcle hcount fun hmore => ?_]
        · rw [Nat.sub_add_eq]
          by_cases hmore : count < length - copied
          · rw [hgo hmore, ← Nat.add_assoc, Nat.sub_self, List.drop_zero]
          · have hdone : length - copied - count = 0 := by omega
            rw [hdone, List.take_zero, List.take_zero]
        · -- the last segment ends the range
          have hne : segments ≠ [] := fun hnil => hlast hnil (by have := hgo hmore; omega)
          have := hfull hne
          have := hgo hmore
          omega

end Reading

/-! ## Inspecting -/

section Inspecting

variable {seg : Nat} {R : Dir → Dir → Prop} {d : Dir} {files orig : List Bytes}

theorem flatten_take_succ {k : Nat} {b : Bytes} {rest : List Bytes} (h : files.drop k = b :: rest) :
    (files.take (k + 1)).flatten.length = (files.take k).flatten.length + b.length := by
  have hk : files[k]? = some b := by
    rw [← List.head?_drop, h, List.head?_cons]
  rw [List.take_add_one, hk, List.flatten_append, List.length_append]
  simp

theorem flatten_take_le (files : List Bytes) (k : Nat) : (files.take k).flatten.length ≤ files.flatten.length := by
  conv_rhs => rw [← List.take_append_drop k files, List.flatten_append, List.length_append]
  exact Nat.le_add_right _ _

/-- A regular file of the transcript is measured at its length then. -/
theorem regularSize_spec (hR : Growth seg R) {k : Nat} {Q : Except Failure Nat → Dir → Prop}
    (hs : Stored seg d files) (hk : k < files.length)
    (hQ : ∀ d' files' b rest, R d d' → Stored seg d' files' → Extends files files' →
      files'.drop k = b :: rest → Q (.ok b.length) d') :
    wpThrow (sharing R) (regularSize (segmentName k)) Q d := by
  rw [regularSize, wpThrow_bind]
  refine wp_performed rfl fun d₁ h₁ => ?_
  obtain ⟨files₁, hs₁, hext⟩ := hR.grows h₁ hs
  have hk₁ := hk.trans_le hext.length_le
  obtain ⟨b, rest, hdrop⟩ : ∃ b rest, files₁.drop k = b :: rest :=
    ⟨_, _, List.drop_eq_getElem_cons hk₁⟩
  refine ⟨_, by simp only [Fs.exec, hs₁.lookup hdrop]; rfl, ?_⟩
  -- one file is no longer than all of them
  have hsafe : b.length ≤ maxSafeInteger := by
    have := flatten_take_succ hdrop
    have := flatten_take_le files₁ (k + 1)
    have := hs₁.safe
    omega
  rw [onOk_ok]
  exact wpThrow_ensured ⟨rfl, rfl, hsafe⟩ (hQ _ _ _ _ h₁ hs₁ hext hdrop)

/-- What the loop of an inspection returns, where the numbered files were listed when the transcript
was `orig`. -/
theorem inspectFrom_spec (hR : Growth seg R) {numbered : List String} {count index size : Nat}
    (hs : Stored seg d files) (hext : Extends orig files) (hshape : Shape seg orig)
    (hnum : ∀ i, 1 ≤ i → i < orig.length → sixDigits i ∈ numbered)
    (hbound : orig.length ≤ maxTranscriptSegments + 1) (hindex : 1 ≤ index)
    (hcount : index + count = orig.length) (hsize : size ≤ (files.take index).flatten.length) :
    wpThrow (sharing R) (inspectFrom numbered seg count index size)
      (fun r d' => ∃ segments total files', r = .ok (segments, total) ∧ Stored seg d' files' ∧
        Extends files files' ∧ segments.length = count ∧
        CoversFrom index size segments (files'.drop index) ∧
        total = size + (segments.map (·.size)).sum ∧
        (orig.drop index).flatten.length ≤ (segments.map (·.size)).sum) d := by
  induction count generalizing index size d files with
  | zero =>
    rw [inspectFrom, wpThrow_pure]
    refine ⟨[], size, files, rfl, hs, Extends.refl files, rfl, trivial, by simp, ?_⟩
    rw [List.drop_eq_nil_of_le (by omega)]
    simp
  | succ count ih =>
    have hlt : index < orig.length := by omega
    have hname : segmentPath index = .ok (segmentName index) := by
      rw [segmentPath, segmentName, if_pos ⟨hindex, by omega⟩, if_neg (by omega)]
    rw [inspectFrom, hname, wpThrow_bind, wpThrow_result, onOk_ok]
    refine wpThrow_ensured ⟨_, hnum index hindex hlt, if_neg (by omega)⟩ ?_
    rw [wpThrow_bind]
    refine regularSize_spec hR hs (hlt.trans_le hext.length_le)
      fun d₁ files₁ b rest hR₁ hs₁ hext₁ hdrop => ?_
    have hext₁' := hext.trans hext₁
    obtain ⟨b₀, rest₀, hdrop₀⟩ : ∃ b rest, orig.drop index = b :: rest :=
      ⟨_, _, List.drop_eq_getElem_cons hlt⟩
    have hhead := hext₁'.drop (k := index)
    rw [hdrop₀, hdrop] at hhead
    have hsh := hs₁.shape.drop (k := index)
    have hsh₀ := hshape.drop (k := index)
    rw [hdrop] at hsh
    rw [hdrop₀] at hsh₀
    -- a file that was not the last one then is full
    have hfull : count ≠ 0 → b.length = seg := by
      intro hne
      have hrest₀ : rest₀ ≠ [] := by
        rintro rfl
        have := congrArg List.length hdrop₀
        rw [List.length_drop, List.length_singleton] at this
        omega
      rw [hhead.head_eq hsh₀ hsh hrest₀, hsh₀.head_eq hrest₀]
    have htake := flatten_take_succ hdrop
    have hsize₁ : size + b.length ≤ (files₁.take (index + 1)).flatten.length := by
      have := hext₁.take_length_le (k := index)
      omega
    rw [onOk_ok]
    refine wpThrow_ensured ⟨hsh.head_le, hfull⟩ (wpThrow_ensured ?_ ?_)
    · exact hsize₁.trans ((flatten_take_le _ _).trans hs₁.safe)
    · rw [wpThrow_bind]
      refine wpThrow_mono ?_ (ih hs₁ hext₁' (by omega) (by omega) hsize₁)
      rintro r d' ⟨segments, total, files', rfl, hs', hext', hlen, hcov, htotal, hlow⟩
      have htail := hext'.drop (k := index)
      rw [hdrop] at htail
      rcases hdrop' : files'.drop index with _ | ⟨b', rest'⟩
      · rw [hdrop'] at htail
        exact htail.elim
      · rw [hdrop'] at htail
        have hsh' := hs'.shape.drop (k := index)
        rw [hdrop'] at hsh'
        rw [onOk_ok, wpThrow_pure]
        refine ⟨_, _, files', rfl, hs', hext₁.trans hext', by simp [hlen], ?_, ?_, ?_⟩
        · rw [hdrop']
          refine ⟨rfl, rfl, htail.1.length_le, fun hne => ?_, ?_⟩
          · have hfull := hfull fun h0 => hne (List.length_eq_zero_iff.mp (hlen.trans h0))
            exact le_antisymm htail.1.length_le (hsh'.head_le.trans_eq hfull.symm)
          · rwa [← List.drop_drop, hdrop'] at hcov
        · simp only [List.map_cons, List.sum_cons]
          omega
        · rw [← List.drop_drop, hdrop₀, List.drop_one, List.tail_cons] at hlow
          have := hhead.1.length_le
          rw [hdrop₀]
          simp only [List.map_cons, List.sum_cons, List.flatten_cons, List.length_append]
          omega

/-! ### The numbered files of a directory -/

theorem sixDigits_inj {i j : Nat} (hi : i ≤ maxTranscriptSegments) (hj : j ≤ maxTranscriptSegments)
    (h : sixDigits i = sixDigits j) : i = j := by
  have hchar : ∀ a < 10, ∀ b < 10, Char.ofNat (48 + a) = Char.ofNat (48 + b) → a = b := by decide
  have hdigit : ∀ unit ∈ [100000, 10000, 1000, 100, 10, 1], i / unit % 10 = j / unit % 10 :=
    fun unit hu => hchar _ (Nat.mod_lt _ (by decide)) _ (Nat.mod_lt _ (by decide))
      (List.map_inj_left.mp (String.ofList_inj.mp h) unit hu)
  simp only [List.forall_mem_cons] at hdigit
  simp only [maxTranscriptSegments] at hi hj
  omega

theorem sixDigits_pattern (i : Nat) : sixDigitPattern (sixDigits i) = true := by
  have hdigit : ∀ k < 10, (Char.ofNat (48 + k)).isDigit = true := by decide
  simp [sixDigitPattern, within, sixDigits, hdigit, Nat.mod_lt]

theorem mem_numberedIn {suffix : String} : suffix ∈ numberedIn d.keys ↔ .part suffix ∈ d.keys := by
  rw [numberedIn, List.mem_filterMap]
  constructor
  · rintro ⟨name, hmem, hsuffix⟩
    cases name with
    | part s => exact Option.some.inj hsuffix ▸ hmem
    | first => exact absurd hsuffix nofun
    | other => exact absurd hsuffix nofun
  · intro h
    exact ⟨_, h, rfl⟩

theorem numberedIn_nodup : (numberedIn d.keys).Nodup := by
  refine List.Nodup.filterMap (fun a a' b ha ha' => ?_) d.keys_nodup
  cases a with
  | part s =>
    cases a' with
    | part s' => rw [Option.some.inj ha, Option.some.inj ha']
    | first => exact absurd ha' nofun
    | other => exact absurd ha' nofun
  | first => exact absurd ha nofun
  | other => exact absurd ha nofun

/-- The numbered siblings are those of the files, up to order. -/
theorem Holds.numbered (h : Holds d files) :
    (numberedIn d.keys).Perm ((List.range' 1 (files.length - 1)).map sixDigits) := by
  have hbound := h.bounded
  refine (List.perm_ext_iff_of_nodup numberedIn_nodup ?_).mpr fun suffix => ?_
  · refine List.Nodup.map_on (fun i hi j hj hij => ?_) List.nodup_range'
    rw [List.mem_range'_1] at hi hj
    exact sixDigits_inj (by omega) (by omega) hij
  · rw [mem_numberedIn, h.parts, List.mem_map]
    constructor
    · rintro ⟨i, h1, hlt, rfl⟩
      exact ⟨i, List.mem_range'_1.mpr ⟨h1, by omega⟩, rfl⟩
    · rintro ⟨i, hi, rfl⟩
      rw [List.mem_range'_1] at hi
      exact ⟨i, hi.1, by omega, rfl⟩

theorem Holds.numbered_length (h : Holds d files) : (numberedIn d.keys).length = files.length - 1 := by
  rw [h.numbered.length_eq, List.length_map, List.length_range']

/-- The first file is measured, or found missing where no numbered one was listed. -/
theorem firstSize_spec (hR : Growth seg R) {numbered : List String}
    {Q : Except Failure (Option Nat) → Dir → Prop} (hs : Stored seg d files)
    (hnum : files = [] → numbered = [])
    (hmissing : ∀ d', R d d' → Stored seg d' [] → files = [] → Q (.ok none) d')
    (hfound : ∀ d' b rest, R d d' → Stored seg d' (b :: rest) → Extends files (b :: rest) →
      Q (.ok (some b.length)) d') :
    wpThrow (sharing R) (firstSize numbered) Q d := by
  show wp (sharing R) ((regularSize .first).run.bind _) Q d
  rw [wp_bind]
  show wpThrow (sharing R) (regularSize .first) _ d
  rw [regularSize, wpThrow_bind]
  refine wp_perform rfl (fun d₁ info d₂ h₁ he => ?_) (fun d₁ e h₁ he => ?_)
  all_goals
    obtain ⟨files₁, hs₁, hext⟩ := hR.grows h₁ hs
    rw [Fs.exec] at he
    rcases files₁ with _ | ⟨b, rest⟩
  · rw [hs₁.holds.missing rfl] at he
    cases he
  · rw [show d₁.lookup .first = _ from hs₁.holds.from_first.1] at he
    obtain ⟨rfl, rfl⟩ := Prod.mk.inj (Except.ok.inj he)
    have hsafe : b.length ≤ maxSafeInteger := by
      have := hs₁.safe
      rw [List.flatten_cons, List.length_append] at this
      omega
    rw [onOk_ok]
    exact wpThrow_ensured ⟨rfl, rfl, hsafe⟩ (hfound _ _ _ h₁ hs₁ hext)
  · rw [hs₁.holds.missing rfl] at he
    obtain rfl := Except.error.inj he
    obtain rfl := List.length_eq_zero_iff.mp (Nat.le_zero.mp hext.length_le)
    show wp (sharing R) (if _ then _ else _) Q d₁
    rw [if_pos ⟨rfl, hnum rfl⟩]
    exact hmissing d₁ h₁ hs₁ rfl
  · rw [show d₁.lookup .first = _ from hs₁.holds.from_first.1] at he
    cases he

/-- What an inspection finds, from a transcript `files` on, with `segmentBytes` configured. -/
def Inspected (seg segmentBytes : Nat) (files : List Bytes) (r : Except Failure Inventory) (d : Dir) :
    Prop :=
  ∃ inv files', r = .ok inv ∧ Stored seg d files' ∧ Extends files files' ∧ inv.Covers files' ∧
    files.length ≤ inv.segments.length ∧ files.flatten.length ≤ inv.size ∧
    inv.segmentBytes = if inv.segments.length ≤ 1 then segmentBytes else seg

/-- The rest of an inspection, after the first file was measured. -/
theorem inventoryFrom_spec (hR : Growth seg R) {segmentBytes : Nat} {numbered : List String}
    {b : Bytes} {rest : List Bytes} (hpos : 1 ≤ seg) (hs : Stored seg d (b :: rest))
    (hext : Extends orig (b :: rest)) (hshape : Shape seg orig)
    (hnum : ∀ i, 1 ≤ i → i < orig.length → sixDigits i ∈ numbered)
    (hlen : numbered.length = orig.length - 1)
    (hbound : orig.length ≤ maxTranscriptSegments + 1) :
    wpThrow (sharing R) (inventoryFrom segmentBytes numbered b.length)
      (Inspected seg segmentBytes orig) d := by
  rw [inventoryFrom]
  by_cases hnone : numbered = []
  · -- only the first file was listed
    subst hnone
    rw [List.length_nil] at hlen
    refine wpThrow_ensured (.inl rfl) ?_
    rw [List.length_nil, inspectFrom, wpThrow_bind, wpThrow_pure, onOk_ok, wpThrow_pure]
    refine ⟨_, _, rfl, hs, hext, ⟨⟨rfl, rfl, le_rfl, fun h => absurd rfl h, trivial⟩, rfl, by simp⟩,
      ?_, ?_, rfl⟩
    · rw [List.length_singleton]
      omega
    · rcases orig with _ | ⟨b₀, rest₀⟩
      · exact Nat.zero_le _
      · obtain rfl := List.length_eq_zero_iff.mp hlen.symm
        simpa using hext.1.length_le
  · -- the first file is full, and gives the segment length
    have hmore := List.length_pos_iff.mpr hnone
    obtain ⟨b₀, rest₀, rfl⟩ : ∃ b₀ rest₀, orig = b₀ :: rest₀ :=
      List.exists_cons_of_length_pos (by omega)
    have hrest₀ : rest₀ ≠ [] := List.length_pos_iff.mp (by rw [List.length_cons] at hlen; omega)
    have hb := hext.head_eq hshape hs.shape hrest₀
    obtain rfl : seg = b.length := hb ▸ (hshape.head_eq hrest₀).symm
    rw [if_neg hnone]
    refine wpThrow_ensured (.inr hpos) ?_
    rw [wpThrow_bind]
    refine wpThrow_mono ?_ (inspectFrom_spec hR hs hext hshape hnum hbound le_rfl
      (by omega) (by simp))
    rintro r d' ⟨segments, total, files', rfl, hs', hext', hcount, hcov, htotal, hlow⟩
    rcases files' with _ | ⟨b', rest'⟩
    · exact hext'.elim
    · have hlast := hs'.shape.head_le
      refine ⟨_, _, rfl, hs', hext.trans hext', ⟨⟨rfl, rfl, hext'.1.length_le, fun _ => ?_, ?_⟩,
        ?_, ?_⟩, ?_, ?_, ?_⟩
      · exact le_antisymm hext'.1.length_le hlast
      · show CoversFrom 1 (0 + b.length) segments rest'
        rwa [Nat.zero_add]
      · simpa using htotal
      · simp
      · show rest₀.length + 1 ≤ segments.length + 1
        rw [List.length_cons] at hlen
        omega
      · show (b₀ :: rest₀).flatten.length ≤ total
        rw [List.drop_one, List.tail_cons] at hlow
        have := hext.1.length_le
        rw [htotal, List.flatten_cons, List.length_append]
        omega
      · show b.length = if segments.length + 1 ≤ 1 then _ else _
        rw [if_neg (by omega)]

/-- **An inspection succeeds** while the transcript grows. It covers at least what was there when it
began, and at most what is there when it ends. -/
theorem inspectTranscriptSegments_spec (hR : Growth seg R) {segmentBytes : Nat}
    (hseg : 1 ≤ segmentBytes ∧ segmentBytes ≤ maxSafeInteger) (hs : Stored seg d files)
    (hpos : 1 ≤ seg) :
    wpThrow (sharing R) (inspectTranscriptSegments segmentBytes) (Inspected seg segmentBytes files)
      d := by
  rw [inspectTranscriptSegments]
  refine wpThrow_ensured hseg ?_
  rw [wpThrow_bind]
  refine wp_performed rfl fun d₁ h₁ => ⟨_, rfl, ?_⟩
  obtain ⟨orig, hs₁, hext₁⟩ := hR.grows h₁ hs
  have hlen := hs₁.holds.numbered_length
  have hbound := hs₁.holds.bounded
  have hmem : ∀ suffix, suffix ∈ numberedIn d₁.keys ↔ _ := fun _ =>
    mem_numberedIn.trans (hs₁.holds.parts _)
  rw [onOk_ok]
  refine wpThrow_ensured ⟨by omega, fun suffix hsuffix => ?_⟩ ?_
  · obtain ⟨i, -, -, rfl⟩ := (hmem suffix).mp hsuffix
    exact sixDigits_pattern i
  rw [wpThrow_bind]
  refine firstSize_spec hR hs₁ (fun hnil => ?_) (fun d₂ h₂ hs₂ hnil => ?_)
    (fun d₂ b rest h₂ hs₂ hext₂ => ?_)
  · rw [← List.length_eq_zero_iff, hlen, hnil, List.length_nil]
  · subst hnil
    obtain rfl := List.length_eq_zero_iff.mp (Nat.le_zero.mp hext₁.length_le)
    exact ⟨_, [], rfl, hs₂, trivial, ⟨trivial, rfl, by simp⟩, le_rfl, le_rfl, by simp⟩
  · rw [onOk_ok]
    refine wpThrow_mono ?_ (inventoryFrom_spec hR hpos hs₂ hext₂ hs₁.shape
      (fun i h1 hlt => (hmem _).mpr ⟨i, h1, hlt, rfl⟩) hlen hbound)
    rintro r d' ⟨inv, files', rfl, hs', hext', hcov, hcount, hlow, hbytes⟩
    exact ⟨inv, files', rfl, hs', hext₁.trans hext', hcov, hext₁.length_le.trans hcount,
      (hext₁.flatten_prefix hs.shape hs₁.shape).length_le.trans hlow, hbytes⟩

/-- **A read inside an inventory** returns that range of the transcript, however much has been added
since. -/
theorem readTranscriptBytes_spec (hR : Growth seg R) {inv : Inventory} {offset length : Nat}
    (hs : Stored seg d files) (hcov : inv.Covers files) (hend : offset + length ≤ inv.size)
    (hlimit : length ≤ readLimit) :
    wpThrow (sharing R) (readTranscriptBytes inv.segments offset length)
      (fun r _ => r = .ok ((files.flatten.drop offset).take length)) d := by
  have hsize := hcov.segments.size_le
  have hsafe := hs.safe
  rw [hcov.size] at hend
  rw [readTranscriptBytes]
  refine wpThrow_ensured ⟨by omega, hlimit⟩ ?_
  simpa using readFrom_spec hR hs (Extends.refl files) hcov.segments (Nat.zero_le length)
    (fun _ => Nat.zero_le _) (by omega)

end Inspecting

/-! ## Directories that stand still -/

section Still

variable {d : Dir} {seg : Nat} {files : List Bytes}

theorem growth_eq : Growth seg Eq where
  refl _ := rfl
  trans h h' := h.trans h'
  grows := by
    rintro d _ files rfl hs
    exact ⟨files, hs, Extends.refl files⟩

theorem sharing_eq_idle : (sharing Eq).Idle := fun _ _ => rfl

/-- What a program that is left alone ends with. -/
theorem eval_of_wpThrow {α : Type} {p : FsM α} {Q : Except Failure α → Dir → Prop}
    (h : wpThrow (sharing Eq) p Q d) : Q (p.run.eval fsBackend d).1 (p.run.eval fsBackend d).2 :=
  wp_sound sharing_eq_idle h (eval_runs _ _)

/-- A regular file that is measured is there. -/
theorem regularSize_found {name : FileName} {Q : Except Failure Nat → Dir → Prop}
    (hok : ∀ b, d.lookup name = some ⟨true, 1, b⟩ → b.length ≤ maxSafeInteger → Q (.ok b.length) d)
    (hmissing : d.lookup name = none → Q (.error (.fs .enoent)) d)
    (hbad : ∀ text, Q (.error (.message text)) d) :
    wpThrow (sharing Eq) (regularSize name) Q d := by
  rw [regularSize, wpThrow_bind]
  refine wp_perform rfl (fun d₁ info d₂ h₁ he => ?_) (fun d₁ e h₁ he => ?_)
  all_goals
    subst h₁
    rw [Fs.exec] at he
    rcases hlook : d.lookup name with _ | ⟨isFile, nlink, b⟩ <;> rw [hlook] at he
  · cases he
  · obtain ⟨rfl, rfl⟩ := Prod.mk.inj (Except.ok.inj he)
    rw [onOk_ok, wpThrow_ensure_bind]
    refine ⟨?_, fun _ => hbad _⟩
    rintro ⟨hfile, hlink, hsafe⟩
    obtain rfl : isFile = true := hfile
    obtain rfl : nlink = 1 := hlink
    exact hok b hlook hsafe
  · obtain rfl := Except.error.inj he
    exact hmissing hlook
  · cases he

/-- What the loop of an inspection has found when it returns. -/
theorem inspectFrom_found {numbered : List String} {actual count index size : Nat}
    (hindex : 1 ≤ index) (hsize : size ≤ maxSafeInteger) :
    wpThrow (sharing Eq) (inspectFrom numbered actual count index size)
      (fun r d' => ∀ segments total, r = .ok (segments, total) → d' = d ∧
        ∃ files, files.length = count ∧ HoldsFrom d index files ∧ Shape actual files ∧
          (∀ i, index ≤ i → i < index + count → sixDigits i ∈ numbered) ∧
          size + files.flatten.length ≤ maxSafeInteger) d := by
  induction count generalizing index size with
  | zero =>
    rw [inspectFrom, wpThrow_pure]
    intro _ _ _
    exact ⟨rfl, [], rfl, trivial, trivial, fun i _ _ => by omega, by simpa using hsize⟩
  | succ count ih =>
    rw [inspectFrom, wpThrow_bind]
    by_cases hbound : index ≤ maxTranscriptSegments
    · rw [segmentPath, if_pos ⟨hindex, hbound⟩, wpThrow_result, onOk_ok, wpThrow_ensure_bind]
      refine ⟨?_, fun _ => nofun⟩
      rintro ⟨suffix, hmem, hname⟩
      obtain rfl : sixDigits index = suffix := FileName.part.inj hname
      rw [wpThrow_bind]
      refine regularSize_found (fun b hlook _ => ?_) (fun _ => nofun) (fun _ => nofun)
      rw [onOk_ok, wpThrow_ensure_bind]
      refine ⟨?_, fun _ => nofun⟩
      rintro ⟨hle, hfull⟩
      rw [wpThrow_ensure_bind]
      refine ⟨fun hsafe => ?_, fun _ => nofun⟩
      rw [wpThrow_bind]
      refine wpThrow_mono ?_ (ih (by omega) hsafe)
      rintro (e | ⟨segments, total⟩) d' h
      · exact nofun
      · intro _ _ _
        obtain ⟨rfl, files, rfl, hholds, hshape, hnum, htotal⟩ := h _ _ rfl
        refine ⟨rfl, b :: files, rfl, ⟨?_, hholds⟩, ?_, ?_, ?_⟩
        · rwa [segmentName, if_neg (by omega)]
        · rcases files with _ | ⟨b', files⟩
          · exact hle
          · exact ⟨hfull (by simp), hshape⟩
        · intro i hi hlt
          rcases hi.eq_or_lt with rfl | hi
          · exact hmem
          · exact hnum i hi (by omega)
        · rw [List.flatten_cons, List.length_append]
          omega
    · rw [segmentPath, if_neg (by omega), wpThrow_result]
      exact nofun

/-- The numbered siblings are those of the files, where there are as many of them. -/
theorem numberedIn_iff {n : Nat} (hlen : (numberedIn d.keys).length = n)
    (hbound : n ≤ maxTranscriptSegments)
    (hnum : ∀ i, 1 ≤ i → i < 1 + n → sixDigits i ∈ numberedIn d.keys) (suffix : String) :
    .part suffix ∈ d.keys ↔ ∃ i, 1 ≤ i ∧ i < n + 1 ∧ suffix = sixDigits i := by
  have hsub : (List.range' 1 n).map sixDigits ⊆ numberedIn d.keys := by
    intro s hs
    obtain ⟨i, hi, rfl⟩ := List.mem_map.mp hs
    rw [List.mem_range'_1] at hi
    exact hnum i hi.1 hi.2
  have hnodup : ((List.range' 1 n).map sixDigits).Nodup := by
    refine List.Nodup.map_on (fun i hi j hj hij => ?_) List.nodup_range'
    rw [List.mem_range'_1] at hi hj
    exact sixDigits_inj (by omega) (by omega) hij
  have hperm := (List.subperm_of_subset hnodup hsub).perm_of_length_le
    (by rw [hlen, List.length_map, List.length_range'])
  rw [← mem_numberedIn, ← hperm.mem_iff, List.mem_map]
  constructor
  · rintro ⟨i, hi, rfl⟩
    rw [List.mem_range'_1] at hi
    exact ⟨i, hi.1, by omega, rfl⟩
  · rintro ⟨i, h1, hlt, rfl⟩
    exact ⟨i, List.mem_range'_1.mpr ⟨h1, by omega⟩, rfl⟩

/-- The first file is measured, or missing. -/
theorem firstSize_found {numbered : List String} {Q : Except Failure (Option Nat) → Dir → Prop}
    (hfound : ∀ b, d.lookup .first = some ⟨true, 1, b⟩ → b.length ≤ maxSafeInteger →
      Q (.ok (some b.length)) d)
    (hmissing : d.lookup .first = none → numbered = [] → Q (.ok none) d)
    (herr : ∀ e, Q (.error e) d) : wpThrow (sharing Eq) (firstSize numbered) Q d := by
  show wp (sharing Eq) ((regularSize .first).run.bind _) Q d
  rw [wp_bind]
  refine regularSize_found (fun b hlook hsafe => hfound b hlook hsafe) (fun hlook => ?_)
    (fun text => ?_)
  · show wp (sharing Eq) (if _ then _ else _) Q d
    split
    · rename_i h
      exact hmissing hlook h.2
    · exact herr _
  · show wp (sharing Eq) (if _ then _ else _) Q d
    rw [if_neg (fun h => absurd h.1 nofun)]
    exact herr _

/-- **What an inspection that succeeds has found.** -/
theorem inspectTranscriptSegments_found {segmentBytes : Nat} :
    wpThrow (sharing Eq) (inspectTranscriptSegments segmentBytes)
      (fun r _ => ∀ inv, r = .ok inv → (1 ≤ segmentBytes ∧ segmentBytes ≤ maxSafeInteger) ∧
        ∃ seg files, 1 ≤ seg ∧ Stored seg d files) d := by
  rw [inspectTranscriptSegments, wpThrow_ensure_bind]
  refine ⟨fun hseg => ?_, fun _ => nofun⟩
  rw [wpThrow_bind]
  refine wp_performed rfl ?_
  rintro _ rfl
  refine ⟨_, rfl, ?_⟩
  rw [onOk_ok, wpThrow_ensure_bind]
  refine ⟨?_, fun _ => nofun⟩
  rintro ⟨hcount, -⟩
  rw [wpThrow_bind]
  refine firstSize_found (fun b hlook hsafe => ?_) (fun hlook hnone => ?_) (fun _ => nofun)
  · rw [onOk_ok]
    show wpThrow (sharing Eq) (inventoryFrom segmentBytes _ b.length) _ d
    rw [inventoryFrom, wpThrow_ensure_bind]
    refine ⟨fun hpos => ?_, fun _ => nofun⟩
    rw [wpThrow_bind]
    refine wpThrow_mono ?_ (inspectFrom_found le_rfl hsafe)
    rintro (e | ⟨segments, total⟩) d' h
    · exact nofun
    · intro _ _
      obtain ⟨rfl, files, hlen, hholds, hshape, hnum, htotal⟩ := h _ _ rfl
      obtain ⟨seg, hseg1, hshape⟩ : ∃ seg, 1 ≤ seg ∧ Shape seg (b :: files) := by
        rcases files with _ | ⟨b', files⟩
        · -- one file fits any length that is not below its own
          exact ⟨b.length + 1, Nat.succ_le_succ (Nat.zero_le _), Nat.le_succ _⟩
        · have hne : numberedIn d'.keys ≠ [] := fun h => by simp [h] at hlen
          rw [if_neg hne] at hpos hshape
          exact ⟨b.length, hpos.resolve_left hne, rfl, hshape⟩
      refine ⟨hseg, seg, b :: files, hseg1, ⟨⟨⟨hlook, hholds⟩, nofun, fun suffix => ?_, ?_⟩, hshape,
        ?_⟩⟩
      · rw [numberedIn_iff hlen.symm (by omega) (by rwa [hlen])]
        rfl
      · rw [List.length_cons, hlen]
        omega
      · rwa [List.flatten_cons, List.length_append]
  · intro _ _
    refine ⟨hseg, 1, [], le_rfl, ⟨trivial, fun _ => hlook, fun suffix => ?_, Nat.zero_le _⟩, trivial,
      Nat.zero_le _⟩
    rw [← mem_numberedIn, hnone]
    constructor
    · exact nofun
    · rintro ⟨i, -, hlt, -⟩
      exact absurd hlt (Nat.not_lt_zero i)

/-- **An inspection of a directory that stands still succeeds** exactly on a stored transcript. -/
theorem inspectTranscriptSegments_ok_iff {segmentBytes : Nat} :
    (∃ inv, ((inspectTranscriptSegments segmentBytes).run.eval fsBackend d).1 = .ok inv) ↔
      (1 ≤ segmentBytes ∧ segmentBytes ≤ maxSafeInteger) ∧
        ∃ seg files, 1 ≤ seg ∧ Stored seg d files := by
  constructor
  · rintro ⟨inv, hinv⟩
    exact eval_of_wpThrow inspectTranscriptSegments_found inv hinv
  · rintro ⟨hseg, seg, files, hpos, hs⟩
    obtain ⟨inv, files', hinv, -⟩ :=
      eval_of_wpThrow (inspectTranscriptSegments_spec growth_eq hseg hs hpos)
    exact ⟨inv, hinv⟩

end Still

end BegetBridge.Transcript
