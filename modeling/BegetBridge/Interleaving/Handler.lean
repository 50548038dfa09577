import BegetBridge.Interleaving.History

/-!
# Programs within a larger system

Each operation of a program is performed by a larger system, as a program of its own, and these share a memory. There
the program does what it does by itself. Where one operation depends on what only the larger system knows, what holds
of the program whatever it answers holds with the answer that is given.

## Main definitions

* `Prog.handleWith`: each operation as a program, with a memory
* `Prog.asOne`: an operation as one operation of the larger system
* `Prog.Once`: programs with one operation of a kind at most

## Main results

* `Prog.meets_within`: what simulates each operation simulates the program
* `Prog.meets_once`: the same, where one operation is answered by the larger system
-/

namespace Interleaving

variable {Op Op' : Type → Type} {ε ε' S S' α β ξ M : Type}

/-- Perform each operation as a program of other operations, which reads and changes a memory. -/
def Prog.handleWith (f : {γ : Type} → Op γ → M → Prog Op' ε' (Except ε γ × M)) : Prog Op ε α → M → Prog Op' ε' (α × M)
  | .done a, m => .done (a, m)
  | .call op k, m => (f op m).bind fun x => (k x.1).handleWith f x.2

/-- An operation as one of the larger system, whose errors are read as errors of the operation. -/
def Prog.asOne {γ : Type} (op : Op' γ) (error : ε' → ε) (m : M) : Prog Op' ε' (Except ε γ × M) :=
  .call op fun r => .done (r.mapError error, m)

theorem Prog.every_true (p : Prog Op ε α) : p.Every fun _ => True := by
  induction p with
  | done a => trivial
  | call op k ih => exact ⟨trivial, ih⟩

/-- What is known of the runs of a program is known of its history. -/
theorem Prog.Ends.meets {B : Backend Op ε S} {Fault : ε → Prop} {I : S → Prop} {p : Prog Op ε α}
    {Q : List (Entry Op ε) → α → S → Prop} {h : List (Entry Op ε)} {s : S} (hp : p.Ends B Fault I Q s) :
    p.Meets B Fault (fun _ _ _ => True) (fun h' a s' => ∃ tr, h' = h ++ tr ∧ Q tr a s') h s := by
  induction p generalizing Q h s with
  | done a => exact ⟨[], (List.append_nil h).symm, hp.2⟩
  | call op k ih =>
    refine ⟨trivial, fun r s' hans => Prog.meets_mono ?_ (ih r (hp.2 r s' hans))⟩
    rintro h' a s'' ⟨tr, rfl, hQ⟩
    exact ⟨_, (List.append_cons ..).symm, hQ⟩

section Within

variable {B : Backend Op ε S} {Fault : ε → Prop} {B' : Backend Op' ε' S'} {Fault' : ε' → Prop}
  {O : {γ : Type} → List (Entry Op ε) → Op γ → S → Prop} {O' : {γ : Type} → List (Entry Op' ε') → Op' γ → S' → Prop}
  {f : {γ : Type} → Op γ → M → Prog Op' ε' (Except ε γ × M)} {P : {γ : Type} → Op γ → Prop}
  {h : List (Entry Op ε)} {h' : List (Entry Op' ε')} {s : S} {s' : S'} {m : M}

theorem Prog.meets_asOne {γ : Type} {op : Op' γ} {error : ε' → ε}
    {Q : List (Entry Op' ε') → Except ε γ × M → S' → Prop} (hO : O' h' op s')
    (hQ : ∀ r s'', Answer B' Fault' op s' r s'' → Q (h' ++ [⟨op, r⟩]) (r.mapError error, m) s'') :
    (Prog.asOne op error m).Meets B' Fault' O' Q h' s' := ⟨hO, hQ⟩

/-- **What simulates each operation simulates the program.** -/
theorem Prog.meets_within {R : List (Entry Op ε) → M → List (Entry Op' ε') → S → S' → Prop}
    (hstep : ∀ {γ : Type} (op : Op γ) (m : M) (h : List (Entry Op ε)) (h' : List (Entry Op' ε')) (s : S) (s' : S'),
      P op → O h op s → R h m h' s s' → (f op m).Meets B' Fault' O' (fun h'' x s'' =>
        ∃ t, Answer B Fault op s x.1 t ∧ R (h ++ [⟨op, x.1⟩]) x.2 h'' t s'') h' s')
    {p : Prog Op ε α} {Q : List (Entry Op ε) → α → S → Prop} (hp : p.Every P) (hmeets : p.Meets B Fault O Q h s)
    (hR : R h m h' s s') :
    (p.handleWith f m).Meets B' Fault' O' (fun h'' x s'' => ∃ hs t, Q hs x.1 t ∧ R hs x.2 h'' t s'') h' s' := by
  induction p generalizing h h' s s' m with
  | done a => exact ⟨h, s, hmeets, hR⟩
  | call op k ih =>
    refine Prog.meets_bind (Prog.meets_mono ?_ (hstep op m h h' s s' hp.1 hmeets.1 hR))
    rintro h'' x s'' ⟨t, hans, hR'⟩
    exact ih x.1 (hp.2 x.1) (hmeets.2 _ _ hans) hR'

end Within

/-! ## One operation of a kind -/

/-- An operation of the kind is followed by others only. -/
def Prog.Once (P : {γ : Type} → Op γ → Prop) : Prog Op ε α → Prop
  | .done _ => True
  | .call op k => (P op ∧ ∀ r, (k r).Every fun op => ¬P op) ∨ ¬P op ∧ ∀ r, (k r).Once P

section Once

variable {P : {γ : Type} → Op γ → Prop}

theorem Prog.once_of_every {p : Prog Op ε α} (hp : p.Every fun op => ¬P op) : p.Once P := by
  induction p with
  | done a => trivial
  | call op k ih => exact .inr ⟨hp.1, fun r => ih r (hp.2 r)⟩

/-- The operation is in the second part. -/
theorem Prog.once_bind_right {p : Prog Op ε β} {f : β → Prog Op ε α} (hp : p.Every fun op => ¬P op)
    (hf : ∀ b, (f b).Once P) : (p.bind f).Once P := by
  induction p with
  | done b => exact hf b
  | call op k ih => exact .inr ⟨hp.1, fun r => ih r (hp.2 r)⟩

/-- The operation is in the first part. -/
theorem Prog.once_bind_left {p : Prog Op ε β} {f : β → Prog Op ε α} (hp : p.Once P)
    (hf : ∀ b, (f b).Every fun op => ¬P op) : (p.bind f).Once P := by
  induction p with
  | done b => exact Prog.once_of_every (hf b)
  | call op k ih =>
    rcases hp with ⟨hop, hk⟩ | ⟨hop, hk⟩
    · exact .inl ⟨hop, fun r => every_bind (hk r) hf⟩
    · exact .inr ⟨hop, fun r => ih r (hk r)⟩

variable {B : Backend Op ε S} {Fault : ε → Prop} {B' : Backend Op' ε' S'} {Fault' : ε' → Prop}
  {O' : {γ : Type} → List (Entry Op' ε') → Op' γ → S' → Prop}
  {f : {γ : Type} → Op γ → M → Prog Op' ε' (Except ε γ × M)} {ω : Type}
  {R T : ω → List (Entry Op ε) → M → List (Entry Op' ε') → S → S' → Prop}

/-- **One operation is answered by the larger system**: until then the program is simulated in every store of a family,
and from then on in the one with the answer that was given. -/
theorem Prog.meets_once
    (hbefore : ∀ {γ : Type} (op : Op γ) (m : M) (h : List (Entry Op ε)) (h' : List (Entry Op' ε')) (s : ω → S) (s' : S'),
      ¬P op → (∀ o, R o h m h' (s o) s') → (f op m).Meets B' Fault' O' (fun h'' x s'' => ∃ t : ω → S, ∀ o,
        Answer B Fault op (s o) x.1 (t o) ∧ R o (h ++ [⟨op, x.1⟩]) x.2 h'' (t o) s'') h' s')
    (hat : ∀ {γ : Type} (op : Op γ) (m : M) (h : List (Entry Op ε)) (h' : List (Entry Op' ε')) (s : ω → S) (s' : S'),
      P op → (∀ o, R o h m h' (s o) s') → (f op m).Meets B' Fault' O' (fun h'' x s'' => ∃ o t,
        Answer B Fault op (s o) x.1 t ∧ T o (h ++ [⟨op, x.1⟩]) x.2 h'' t s'') h' s')
    (hafter : ∀ (o : ω) {γ : Type} (op : Op γ) (m : M) (h : List (Entry Op ε)) (h' : List (Entry Op' ε')) (s : S) (s' : S'),
      ¬P op → T o h m h' s s' → (f op m).Meets B' Fault' O' (fun h'' x s'' => ∃ t,
        Answer B Fault op s x.1 t ∧ T o (h ++ [⟨op, x.1⟩]) x.2 h'' t s'') h' s')
    {p : Prog Op ε α} {Q : ω → List (Entry Op ε) → α → S → Prop} {h : List (Entry Op ε)} {h' : List (Entry Op' ε')}
    {s : ω → S} {s' : S'} {m : M} (hp : p.Once P)
    (hmeets : ∀ o, p.Meets B Fault (fun _ _ _ => True) (Q o) h (s o)) (hR : ∀ o, R o h m h' (s o) s') :
    (p.handleWith f m).Meets B' Fault' O' (fun h'' x s'' => (∃ o hs t, Q o hs x.1 t ∧ T o hs x.2 h'' t s'') ∨
      ∀ o, ∃ hs t, Q o hs x.1 t ∧ R o hs x.2 h'' t s'') h' s' := by
  induction p generalizing h h' s s' m with
  | done a => exact .inr fun o => ⟨h, s o, hmeets o, hR o⟩
  | call op k ih =>
    rcases hp with ⟨hop, hk⟩ | ⟨hop, hk⟩
    · refine Prog.meets_bind (Prog.meets_mono ?_ (hat op m h h' s s' hop hR))
      rintro h'' x s'' ⟨o, t, hans, hR'⟩
      have hrest := (hmeets o).2 _ _ hans
      refine Prog.meets_mono ?_ (Prog.meets_within (R := T o) (fun op m h h' s s' hop _ => hafter o op m h h' s s' hop)
        (hk x.1) hrest hR')
      rintro h₁ y s₁ hend
      exact .inl ⟨o, hend⟩
    · refine Prog.meets_bind (Prog.meets_mono ?_ (hbefore op m h h' s s' hop hR))
      rintro h'' x s'' ⟨t, hboth⟩
      exact ih x.1 (hk x.1) (fun o => (hmeets o).2 _ _ (hboth o).1) fun o => (hboth o).2

end Once

/-! ## Programs that throw, all of whose operations are of a kind -/

namespace Script

variable {P : {γ : Type} → Op γ → Prop}

/-- All operations of the program are of the kind. -/
def Every (P : {γ : Type} → Op γ → Prop) (p : Script Op ε ξ α) : Prop := p.run.Every P

theorem every_pure {a : α} : Every P (pure a : Script Op ε ξ α) := trivial

theorem every_throw {e : ξ} : Every P (throw e : Script Op ε ξ α) := trivial

theorem every_perform {throws : ε → ξ} {op : Op α} (hop : P op) : Every P (perform throws op : Script Op ε ξ α) := by
  refine ⟨hop, ?_⟩
  rintro (e | a) <;> trivial

theorem every_bind {p : Script Op ε ξ β} {f : β → Script Op ε ξ α} (hp : Every P p) (hf : ∀ b, Every P (f b)) :
    Every P (p >>= f) := by
  apply Interleaving.every_bind hp
  rintro (e | b)
  · trivial
  · exact hf b

theorem every_tryCatch {p : Script Op ε ξ α} {f : ξ → Script Op ε ξ α} (hp : Every P p) (hf : ∀ e, Every P (f e)) :
    Every P (tryCatch p f) := by
  apply Interleaving.every_bind hp
  rintro (e | a)
  · exact hf e
  · trivial

theorem every_finally {p : Script Op ε ξ α} {last : Script Op ε ξ Unit} (hp : Every P p) (hlast : Every P last) :
    Every P (p.andFinally last) := by
  apply Interleaving.every_bind hp
  intro r
  apply Interleaving.every_bind hlast
  rintro (e | u) <;> trivial

end Script

end Interleaving
