import BegetBridge.Transcript.Inspection

/-!
# How a transcript grows

The two writes that a capture makes, to the end of the last file and to a new one, keep a stored
transcript stored, and only let it grow. Other files of the directory do not matter.

## Main definitions

* `Grows`: from one directory to the other, the transcript only grows
* `capturing`: a program with nobody else writing, which owes that at every operation

## Main results

* `Holds.unique`: a directory holds one transcript at most
* `Holds.put`, `Holds.lookup_next`: the two writes
-/

namespace BegetBridge.Transcript

open Core Relational Interleaving

/-- The transcript in segments of length `seg` only grows from one directory to the other. -/
def Grows (seg : Nat) (d d' : Dir) : Prop :=
  ∀ files, Stored seg d files → ∃ files', Stored seg d' files' ∧ Extends files files'

theorem Grows.refl {seg : Nat} (d : Dir) : Grows seg d d :=
  fun files hs => ⟨files, hs, Extends.refl files⟩

theorem Grows.trans {seg : Nat} {d d' d'' : Dir} (h : Grows seg d d') (h' : Grows seg d' d'') :
    Grows seg d d'' := by
  intro files hs
  obtain ⟨files', hs', hext⟩ := h files hs
  obtain ⟨files'', hs'', hext'⟩ := h' files' hs'
  exact ⟨files'', hs'', hext.trans hext'⟩

theorem Grows.growth (seg : Nat) : Growth seg (Grows seg) where
  refl := Grows.refl
  trans := Grows.trans
  grows h hs := h _ hs

/-- The one writer. Every operation owes that the transcript only grows. -/
def capturing (seg : Nat) : Setting Fs FsError Dir where
  toBackend := fsBackend
  Fault _ := False
  rely _ d d' := d = d'
  oblige op d := ∀ b d', op.exec d = .ok (b, d') → Grows seg d d'

section Directory

variable {seg : Nat} {d d' : Dir} {files files' full : List Bytes} {b old : Bytes}

theorem segmentName_inj {i j : Nat} (hi : i ≤ maxTranscriptSegments) (hj : j ≤ maxTranscriptSegments)
    (h : segmentName i = segmentName j) : i = j := by
  unfold segmentName at h
  split at h <;> split at h
  · omega
  · exact absurd h nofun
  · exact absurd h nofun
  · exact sixDigits_inj hi hj (FileName.part.inj h)

theorem holdsFrom_iff {k : Nat} : HoldsFrom d k files ↔
    ∀ i (hi : i < files.length), d.lookup (segmentName (k + i)) = some ⟨true, 1, files[i]⟩ := by
  induction files generalizing k with
  | nil => exact ⟨fun _ i hi => absurd hi (Nat.not_lt_zero i), fun _ => trivial⟩
  | cons b files ih =>
    rw [HoldsFrom, ih]
    constructor
    · rintro ⟨hfirst, hrest⟩ (_ | i) hi
      · exact hfirst
      · rw [← Nat.add_assoc, Nat.add_right_comm]
        exact hrest i (Nat.lt_of_succ_lt_succ hi)
    · intro h
      refine ⟨h 0 (Nat.zero_lt_succ _), fun i hi => ?_⟩
      rw [Nat.add_right_comm, Nat.add_assoc]
      exact h (i + 1) (Nat.succ_lt_succ hi)

/-- A directory holds one transcript at most. -/
theorem Holds.unique (h : Holds d files) (h' : Holds d files') : files = files' := by
  have hlen : files.length = files'.length := by
    have := h.numbered_length.symm.trans h'.numbered_length
    -- the first file alone is not numbered
    rcases files with _ | ⟨b, files⟩ <;> rcases files' with _ | ⟨b', files'⟩
    · rfl
    · exact absurd ((h.missing rfl).symm.trans h'.from_first.1) nofun
    · exact absurd ((h'.missing rfl).symm.trans h.from_first.1) nofun
    · simpa using this
  refine List.ext_getElem hlen fun i hi hi' => ?_
  have := (holdsFrom_iff.mp h.from_first i hi).symm.trans (holdsFrom_iff.mp h'.from_first i hi')
  exact congrArg File.bytes (Option.some.inj this)

/-- Other files do not matter. -/
theorem Holds.congr (h : Holds d files)
    (hsame : ∀ name, (∀ n, name ≠ .other n) → d'.lookup name = d.lookup name) : Holds d' files where
  from_first := by
    refine holdsFrom_iff.mpr fun i hi => ?_
    rw [hsame _ (fun n => ?_), holdsFrom_iff.mp h.from_first i hi]
    unfold segmentName
    split <;> exact nofun
  missing hnil := by rw [hsame _ (by simp), h.missing hnil]
  parts suffix := by
    rw [← h.parts, ← AList.mem_keys, ← AList.mem_keys, ← AList.lookup_isSome, ← AList.lookup_isSome,
      hsame _ (by simp)]
  bounded := h.bounded

theorem grows_of_same
    (hsame : ∀ name, (∀ n, name ≠ .other n) → d'.lookup name = d.lookup name) : Grows seg d d' :=
  fun files hs => ⟨files, ⟨hs.holds.congr hsame, hs.shape, hs.safe⟩, Extends.refl files⟩

/-- The last file is written, or a next one created. -/
theorem Holds.put (h : Holds d files) (hfiles : files = full ∨ ∃ a, files = full ++ [a])
    (hbound : full.length ≤ maxTranscriptSegments) :
    Holds (d.insert (segmentName full.length) ⟨true, 1, b⟩) (full ++ [b]) where
  from_first := by
    refine holdsFrom_iff.mpr fun i hi => ?_
    rw [Nat.zero_add, KeyedMap.lookup_insert_iff]
    rw [List.length_append, List.length_singleton] at hi
    by_cases hi' : i = full.length
    · subst hi'
      exact .inl ⟨rfl, by simp⟩
    · have hlt : i < full.length := by omega
      refine .inr ⟨fun hname => hi' (segmentName_inj (by omega) hbound hname), ?_⟩
      have hfile : i < files.length := by
        rcases hfiles with rfl | ⟨a, rfl⟩
        · exact hlt
        · rw [List.length_append]
          omega
      have hlook := holdsFrom_iff.mp h.from_first i hfile
      rw [Nat.zero_add] at hlook
      rw [hlook]
      rcases hfiles with rfl | ⟨a, rfl⟩ <;> simp [hlt]
  missing hnil := by simp at hnil
  parts suffix := by
    rw [← AList.mem_keys, AList.mem_insert, AList.mem_keys, h.parts]
    have hlen : (full ++ [b]).length = full.length + 1 := by simp
    have hfile : full.length ≤ files.length ∧ files.length ≤ full.length + 1 := by
      rcases hfiles with rfl | ⟨a, rfl⟩ <;> simp
    rw [hlen]
    constructor
    · rintro (hname | ⟨i, h1, hlt, rfl⟩)
      · unfold segmentName at hname
        split at hname
        · exact absurd hname nofun
        · exact ⟨full.length, by omega, by omega, FileName.part.inj hname⟩
      · exact ⟨i, h1, by omega, rfl⟩
    · rintro ⟨i, h1, hlt, rfl⟩
      by_cases hi : i = full.length
      · exact .inl (by rw [segmentName, if_neg (by omega), hi])
      · exact .inr ⟨i, h1, by omega, rfl⟩
  bounded := by
    rw [List.length_append, List.length_singleton]
    omega

/-- The next file is not there. -/
theorem Holds.lookup_next (h : Holds d files) (hbound : files.length ≤ maxTranscriptSegments) :
    d.lookup (segmentName files.length) = none := by
  rw [AList.lookup_eq_none, AList.mem_keys]
  rcases files with _ | ⟨b, files⟩
  · exact AList.lookup_eq_none.mp (h.missing rfl)
  · rw [segmentName, if_neg (by simp), h.parts]
    rintro ⟨i, -, hlt, heq⟩
    exact hlt.ne (sixDigits_inj (hlt.le.trans hbound) hbound heq.symm)

theorem shape_full (hfull : ∀ b ∈ full, b.length = seg) : Shape seg full := by
  induction full with
  | nil => trivial
  | cons b full ih =>
    rw [List.forall_mem_cons] at hfull
    rcases full with _ | ⟨b', full⟩
    · exact hfull.1.le
    · exact ⟨hfull.1, ih hfull.2⟩

theorem flatten_full (hfull : ∀ b ∈ full, b.length = seg) :
    full.flatten.length = full.length * seg := by
  induction full with
  | nil => simp
  | cons b full ih =>
    rw [List.forall_mem_cons] at hfull
    rw [List.flatten_cons, List.length_append, ih hfull.2, hfull.1, List.length_cons, Nat.succ_mul,
      Nat.add_comm]

theorem shape_snoc : Shape seg (full ++ [b]) ↔ (∀ b ∈ full, b.length = seg) ∧ b.length ≤ seg := by
  induction full with
  | nil => simp [Shape]
  | cons b' full ih =>
    rw [List.forall_mem_cons, and_assoc, ← ih]
    rcases full with _ | ⟨b'', full⟩ <;> exact Iff.rfl

theorem extends_snoc (h : old <+: b) : Extends (full ++ [old]) (full ++ [b]) := by
  induction full with
  | nil => exact ⟨h, trivial⟩
  | cons b' full ih => exact ⟨List.prefix_refl b', ih⟩

theorem extends_append (full rest : List Bytes) : Extends full (full ++ rest) := by
  induction full with
  | nil => trivial
  | cons b full ih => exact ⟨List.prefix_refl b, ih⟩

end Directory

end BegetBridge.Transcript
