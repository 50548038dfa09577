import BegetBridge.Interleaving.Ending

/-!
# Programs and their history

What the undisturbed runs of a program owe at each operation, and what holds when they end, may depend on
what they have done before.

## Main definitions

* `Prog.Meets`: every operation meets its obligation, and every end the postcondition
* `Script.Meets`: the same, of programs that throw
* `Prog.handle`: each operation as a program of other operations

## Main results

* `Prog.Meets.owes`, `Prog.Meets.runs`: what is known of the runs
* `Prog.meets_handle`: what all these programs keep
* `Script.meets_bind`, `Script.meets_perform`, `Script.meets_tryCatch`, `Script.meets_finally`: the rules
* `Script.runs_bind`, `Script.runs_tryCatch`: runs are taken apart
* `Script.total_bind_iff`, `Script.total_perform_iff`, `Script.total_finally_iff`: runs without faults
-/

namespace Interleaving

variable {Op : Type → Type} {ε S α β ξ : Type}

/-- Every run, after a history, owes `O` at each operation, and ends in `Q`. -/
def Prog.Meets (B : Backend Op ε S) (Fault : ε → Prop) (O : {γ : Type} → List (Entry Op ε) → Op γ → S → Prop) :
    Prog Op ε α → (List (Entry Op ε) → α → S → Prop) → List (Entry Op ε) → S → Prop
  | .done a, Q, h, s => Q h a s
  | .call op k, Q, h, s => O h op s ∧ ∀ r s', Answer B Fault op s r s' →
      (k r).Meets B Fault O Q (h ++ [⟨op, r⟩]) s'

section Meets

variable {B : Backend Op ε S} {Fault : ε → Prop} {O : {γ : Type} → List (Entry Op ε) → Op γ → S → Prop}
  {Q Q' : List (Entry Op ε) → α → S → Prop} {h tr : List (Entry Op ε)} {s s' : S}

theorem Prog.meets_mono {p : Prog Op ε α} (hQ : ∀ h a s, Q h a s → Q' h a s) (hp : p.Meets B Fault O Q h s) :
    p.Meets B Fault O Q' h s := by
  induction p generalizing h s with
  | done a => exact hQ h a s hp
  | call op k ih => exact ⟨hp.1, fun r s' hans => ih r (hp.2 r s' hans)⟩

theorem Prog.meets_bind {p : Prog Op ε β} {f : β → Prog Op ε α}
    (hp : p.Meets B Fault O (fun h' b s' => (f b).Meets B Fault O Q h' s') h s) :
    (p.bind f).Meets B Fault O Q h s := by
  induction p generalizing h s with
  | done b => exact hp
  | call op k ih => exact ⟨hp.1, fun r s' hans => ih r (hp.2 r s' hans)⟩

/-- A run ends in the postcondition of its history. -/
theorem Prog.Meets.runs {p : Prog Op ε α} {a : α} (hp : p.Meets B Fault O Q h s)
    (hr : Runs B Fault p s tr a s') : Q (h ++ tr) a s' := by
  induction hr generalizing h with
  | done =>
    rw [List.append_nil]
    exact hp
  | call hans _ ih =>
    rw [List.append_cons]
    exact ih (hp.2 _ _ hans)

/-- What two postconditions and two obligations say is said at once. -/
theorem Prog.Meets.and {O' : {γ : Type} → List (Entry Op ε) → Op γ → S → Prop} {p : Prog Op ε α}
    (hp : p.Meets B Fault O Q h s) (hp' : p.Meets B Fault O' Q' h s) :
    p.Meets B Fault (fun h op s => O h op s ∧ O' h op s) (fun h a s => Q h a s ∧ Q' h a s) h s := by
  induction p generalizing h s with
  | done a => exact ⟨hp, hp'⟩
  | call op k ih => exact ⟨⟨hp.1, hp'.1⟩, fun r s' hans => ih r (hp.2 r s' hans) (hp'.2 r s' hans)⟩

/-- Less is owed. -/
theorem Prog.Meets.weaken {O' : {γ : Type} → List (Entry Op ε) → Op γ → S → Prop} {p : Prog Op ε α}
    (hO : ∀ {γ : Type} (h : List (Entry Op ε)) (op : Op γ) (s : S), O h op s → O' h op s)
    (hp : p.Meets B Fault O Q h s) : p.Meets B Fault O' Q h s := by
  induction p generalizing h s with
  | done a => exact hp
  | call op k ih => exact ⟨hO _ _ _ hp.1, fun r s' hans => ih r (hp.2 r s' hans)⟩

/-- What all the operations of a program keep. -/
theorem Prog.meets_every {P : {γ : Type} → Op γ → Prop} {I : List (Entry Op ε) → S → Prop} {p : Prog Op ε α}
    (hO : ∀ {γ : Type} (h : List (Entry Op ε)) (op : Op γ) (s : S), P op → I h s → O h op s)
    (hstep : ∀ {γ : Type} {op : Op γ} {h : List (Entry Op ε)} {s s' : S} {r : Except ε γ}, P op → I h s →
      Answer B Fault op s r s' → I (h ++ [⟨op, r⟩]) s')
    (hp : p.Every P) (hI : I h s) : p.Meets B Fault O (fun h' _ s' => I h' s') h s := by
  induction p generalizing h s with
  | done a => exact hI
  | call op k ih => exact ⟨hO h op s hp.1 hI, fun r s' hans => ih r (hp.2 r) (hstep hp.1 hI hans)⟩

/-- What is left of the program where a run is cut. -/
theorem Prog.Meets.visits {p : Prog Op ε α} (hp : p.Meets B Fault O Q h s) (hr : Visits B Fault p s tr s') :
    ∃ q : Prog Op ε α, q.Meets B Fault O Q (h ++ tr) s' := by
  induction hr generalizing h with
  | here p s =>
    rw [List.append_nil]
    exact ⟨p, hp⟩
  | call hans _ ih =>
    rw [List.append_cons]
    exact ih (hp.2 _ _ hans)

/-- What holds before every operation and at every end holds wherever a run is cut. -/
theorem Prog.Meets.invariant {I : List (Entry Op ε) → S → Prop} {p : Prog Op ε α} (hp : p.Meets B Fault O Q h s)
    (hO : ∀ {γ : Type} (h : List (Entry Op ε)) (op : Op γ) (s : S), O h op s → I h s)
    (hQ : ∀ h a s, Q h a s → I h s) (hr : Visits B Fault p s tr s') : I (h ++ tr) s' := by
  obtain ⟨q, hq⟩ := hp.visits hr
  cases q with
  | done a => exact hQ _ _ _ hq
  | call op k => exact hO _ _ _ hq.1

/-- **An operation of a run meets its obligation**, where it is performed. -/
theorem Prog.Meets.owes {γ : Type} {p : Prog Op ε α} {op : Op γ} {r : Except ε γ} {rest : List (Entry Op ε)}
    (hp : p.Meets B Fault O Q h s) (hr : Visits B Fault p s (tr ++ ⟨op, r⟩ :: rest) s') :
    ∃ s₁ s₂, Visits B Fault p s tr s₁ ∧ Answer B Fault op s₁ r s₂ ∧ O (h ++ tr) op s₁ := by
  induction tr generalizing p h s with
  | nil =>
    cases hr with
    | call hans _ =>
      rw [List.append_nil]
      exact ⟨s, _, .here _ _, hans, hp.1⟩
  | cons x tr ih =>
    cases hr with
    | call hans hk =>
      obtain ⟨s₁, s₂, hs₁, hans', howes⟩ := ih (hp.2 _ _ hans) hk
      rw [← List.append_cons] at howes
      exact ⟨s₁, s₂, .call hans hs₁, hans', howes⟩

end Meets

/-! ## Runs that are cut -/

/-- The run without faults, cut after so many operations: where it is then. -/
def Prog.cut (B : Backend Op ε S) : Prog Op ε α → Nat → S → S
  | .done _, _, s => s
  | .call _ _, 0, s => s
  | .call op k, n + 1, s =>
    match B.exec op s with
    | .ok (b, s') => (k (.ok b)).cut B n s'
    | .error e => (k (.error e)).cut B n s

/-- **A run that is cut is visited there.** -/
theorem Prog.cut_visits {B : Backend Op ε S} {Fault : ε → Prop} (p : Prog Op ε α) (n : Nat) (s : S) :
    ∃ tr, Visits B Fault p s tr (p.cut B n s) := by
  induction p generalizing n s with
  | done a => exact ⟨[], .here _ _⟩
  | call op k ih =>
    cases n with
    | zero => exact ⟨[], .here _ _⟩
    | succ n =>
      rw [Prog.cut]
      split
      · next hexec =>
        obtain ⟨tr, hvisits⟩ := ih _ n _
        exact ⟨_, .call (.effect hexec) hvisits⟩
      · next hexec =>
        obtain ⟨tr, hvisits⟩ := ih _ n _
        exact ⟨_, .call (.refusal hexec) hvisits⟩

/-! ## Handlers -/

/-- Perform each operation as a program of other operations. -/
def Prog.handle {Op' : Type → Type} {ε' : Type} (f : {γ : Type} → Op γ → Prog Op' ε' (Except ε γ)) :
    Prog Op ε α → Prog Op' ε' α
  | .done a => .done a
  | .call op k => (f op).bind fun r => (k r).handle f

/-- What all these programs keep is kept. -/
theorem Prog.meets_handle {Op' : Type → Type} {ε' : Type} {B : Backend Op' ε' S} {Fault : ε' → Prop}
    {O : {γ : Type} → List (Entry Op' ε') → Op' γ → S → Prop} {f : {γ : Type} → Op γ → Prog Op' ε' (Except ε γ)}
    {I : List (Entry Op' ε') → S → Prop}
    (hf : ∀ {γ : Type} (op : Op γ) (h : List (Entry Op' ε')) (s : S), I h s →
      (f op).Meets B Fault O (fun h' _ s' => I h' s') h s)
    (p : Prog Op ε α) {h : List (Entry Op' ε')} {s : S} (hI : I h s) :
    (p.handle f).Meets B Fault O (fun h' _ s' => I h' s') h s := by
  induction p generalizing h s with
  | done a => exact hI
  | call op k ih => exact Prog.meets_bind (Prog.meets_mono (fun h' r s' hI' => ih r hI') (hf op h s hI))

/-! ## Programs that throw -/

namespace Script

/-- Every run of a program that may throw owes `O` at each operation, and ends in `Q`. -/
def Meets (B : Backend Op ε S) (Fault : ε → Prop) (O : {γ : Type} → List (Entry Op ε) → Op γ → S → Prop)
    (p : Script Op ε ξ α) (Q : List (Entry Op ε) → Except ξ α → S → Prop) (h : List (Entry Op ε)) (s : S) : Prop :=
  Prog.Meets B Fault O p.run Q h s

section Rules

variable {B : Backend Op ε S} {Fault : ε → Prop} {O : {γ : Type} → List (Entry Op ε) → Op γ → S → Prop}
  {Q Q' : List (Entry Op ε) → Except ξ α → S → Prop} {h : List (Entry Op ε)} {s : S}

theorem meets_pure {a : α} (hQ : Q h (.ok a) s) : Meets B Fault O (pure a) Q h s := hQ

theorem meets_throw {e : ξ} (hQ : Q h (.error e) s) : Meets B Fault O (throw e) Q h s := hQ

theorem meets_mono {p : Script Op ε ξ α} (hp : Meets B Fault O p Q h s) (hQ : ∀ h r s, Q h r s → Q' h r s) :
    Meets B Fault O p Q' h s := Prog.meets_mono hQ hp

/-- The next program starts where the first one ends, unless that throws. -/
theorem meets_bind {p : Script Op ε ξ β} {f : β → Script Op ε ξ α}
    {P : List (Entry Op ε) → Except ξ β → S → Prop} (hp : Meets B Fault O p P h s)
    (hok : ∀ h' b s', P h' (.ok b) s' → Meets B Fault O (f b) Q h' s')
    (herror : ∀ h' e s', P h' (.error e) s' → Q h' (.error e) s') : Meets B Fault O (p >>= f) Q h s := by
  refine Prog.meets_bind (Prog.meets_mono ?_ hp)
  rintro h' (e | b) s' hP
  · exact herror h' e s' hP
  · exact hok h' b s' hP

theorem meets_perform {throws : ε → ξ} {op : Op α} (hO : O h op s)
    (hok : ∀ a s', B.exec op s = .ok (a, s') → Q (h ++ [⟨op, .ok a⟩]) (.ok a) s')
    (herror : ∀ e, Q (h ++ [⟨op, .error e⟩]) (.error (throws e)) s) :
    Meets B Fault O (perform throws op) Q h s := by
  refine ⟨hO, fun r s' hans => ?_⟩
  cases hans with
  | effect hexec => exact hok _ _ hexec
  | refusal hexec => exact herror _
  | fault hfault => exact herror _

/-- The same, where it matters why the operation fails. -/
theorem meets_answer {throws : ε → ξ} {op : Op α} (hO : O h op s)
    (hok : ∀ a s', B.exec op s = .ok (a, s') → Q (h ++ [⟨op, .ok a⟩]) (.ok a) s')
    (hrefused : ∀ e, B.exec op s = .error e → Q (h ++ [⟨op, .error e⟩]) (.error (throws e)) s)
    (hfault : ∀ e, Fault e → Q (h ++ [⟨op, .error e⟩]) (.error (throws e)) s) :
    Meets B Fault O (perform throws op) Q h s := by
  refine ⟨hO, fun r s' hans => ?_⟩
  cases hans with
  | effect hexec => exact hok _ _ hexec
  | refusal hexec => exact hrefused _ hexec
  | fault he => exact hfault _ he

/-- An operation, and what comes after it. -/
theorem meets_call {throws : ε → ξ} {op : Op β} {f : β → Script Op ε ξ α} (hO : O h op s)
    (hok : ∀ b s', B.exec op s = .ok (b, s') → Meets B Fault O (f b) Q (h ++ [⟨op, .ok b⟩]) s')
    (herror : ∀ e, Q (h ++ [⟨op, .error e⟩]) (.error (throws e)) s) :
    Meets B Fault O (perform throws op >>= f) Q h s := by
  refine ⟨hO, fun r s' hans => ?_⟩
  cases hans with
  | effect hexec => exact hok _ _ hexec
  | refusal hexec => exact herror _
  | fault hfault => exact herror _

theorem meets_tryCatch {p : Script Op ε ξ α} {f : ξ → Script Op ε ξ α}
    {P : List (Entry Op ε) → Except ξ α → S → Prop} (hp : Meets B Fault O p P h s)
    (hok : ∀ h' a s', P h' (.ok a) s' → Q h' (.ok a) s')
    (herror : ∀ h' e s', P h' (.error e) s' → Meets B Fault O (f e) Q h' s') :
    Meets B Fault O (tryCatch p f) Q h s := by
  refine Prog.meets_bind (Prog.meets_mono ?_ hp)
  rintro h' (e | a) s' hP
  · exact herror h' e s' hP
  · exact hok h' a s' hP

theorem meets_finally {p : Script Op ε ξ α} {last : Script Op ε ξ Unit}
    {P : List (Entry Op ε) → Except ξ α → S → Prop} (hp : Meets B Fault O p P h s)
    (hlast : ∀ h' r s', P h' r s' →
      Meets B Fault O last (fun h'' r' s'' => Q h'' (lastly r r') s'') h' s') :
    Meets B Fault O (p.andFinally last) Q h s := by
  refine Prog.meets_bind (Prog.meets_mono (fun h' r s' hP => ?_) hp)
  refine Prog.meets_bind (Prog.meets_mono ?_ (hlast h' r s' hP))
  rintro h'' (e | u) s'' hQ
  · exact hQ
  · exact hQ

theorem meets_attempt {ξ' : Type} {p : Script Op ε ξ α}
    {Q : List (Entry Op ε) → Except ξ' (Except ξ α) → S → Prop}
    (hp : Meets B Fault O p (fun h' r s' => Q h' (.ok r) s') h s) : Meets B Fault O p.attempt Q h s :=
  Prog.meets_bind hp

theorem meets_ignored {p : Script Op ε ξ Unit} {Q : List (Entry Op ε) → Except ξ Unit → S → Prop}
    (hp : Meets B Fault O p (fun h' _ s' => Q h' (.ok ()) s') h s) : Meets B Fault O p.ignored Q h s :=
  Prog.meets_bind hp

end Rules

/-! ## What a run has done -/

section Runs

variable {B : Backend Op ε S} {Fault : ε → Prop} {s s' : S} {tr : List (Entry Op ε)} {r : Except ξ α}

theorem runs_bind {p : Script Op ε ξ β} {f : β → Script Op ε ξ α} (hruns : Runs B Fault (p >>= f).run s tr r s') :
    (∃ e, r = .error e ∧ Runs B Fault p.run s tr (.error e) s') ∨
      ∃ tr₁ b s₁ tr₂, Runs B Fault p.run s tr₁ (.ok b) s₁ ∧ Runs B Fault (f b).run s₁ tr₂ r s' ∧ tr = tr₁ ++ tr₂ := by
  obtain ⟨tr₁, e | b, s₁, tr₂, hp, hf, rfl⟩ := Interleaving.runs_bind.mp hruns
  · obtain ⟨rfl, rfl, rfl⟩ := runs_done.mp hf
    rw [List.append_nil]
    exact .inl ⟨e, rfl, hp⟩
  · exact .inr ⟨tr₁, b, s₁, tr₂, hp, hf, rfl⟩

theorem runs_tryCatch {p : Script Op ε ξ α} {f : ξ → Script Op ε ξ α} (hruns : Runs B Fault (tryCatch p f).run s tr r s') :
    (∃ a, r = .ok a ∧ Runs B Fault p.run s tr (.ok a) s') ∨
      ∃ tr₁ e s₁ tr₂, Runs B Fault p.run s tr₁ (.error e) s₁ ∧ Runs B Fault (f e).run s₁ tr₂ r s' ∧ tr = tr₁ ++ tr₂ := by
  obtain ⟨tr₁, e | a, s₁, tr₂, hp, hf, rfl⟩ := Interleaving.runs_bind.mp hruns
  · exact .inr ⟨tr₁, e, s₁, tr₂, hp, hf, rfl⟩
  · obtain ⟨rfl, rfl, rfl⟩ := runs_done.mp hf
    rw [List.append_nil]
    exact .inl ⟨a, rfl, hp⟩

end Runs

/-! ## What a run without faults has done -/

section Total

variable {B : Backend Op ε S} {s : S} {Q : α → S → Prop}

theorem total_pure_iff {a : α} : Total B (pure a : Script Op ε ξ α) Q s ↔ Q a s := by
  refine ⟨?_, total_pure⟩
  rintro ⟨b, t, hp, hQ⟩
  obtain ⟨hb, rfl⟩ := Prod.mk.inj (hp : (Except.ok a, s) = (Except.ok b, t))
  rw [Except.ok.inj hb]
  exact hQ

theorem not_total_throw {e : ξ} : ¬Total B (throw e : Script Op ε ξ α) Q s := by
  rintro ⟨a, t, hp, -⟩
  cases hp

theorem total_bind_iff {p : Script Op ε ξ β} {f : β → Script Op ε ξ α} :
    Total B (p >>= f) Q s ↔ Total B p (fun b t => Total B (f b) Q t) s := by
  refine ⟨?_, total_bind⟩
  rintro ⟨a, t, hp, hQ⟩
  change (p.run.bind _).eval B s = _ at hp
  rw [Prog.eval_bind] at hp
  rcases hrun : p.run.eval B s with ⟨e | b, u⟩
  · rw [hrun] at hp
    cases hp
  · rw [hrun] at hp
    exact ⟨b, u, hrun, a, t, hp, hQ⟩

theorem total_perform_iff {throws : ε → ξ} {op : Op α} :
    Total B (perform throws op) Q s ↔ ∃ x, B.exec op s = .ok x ∧ Q x.1 x.2 := by
  refine ⟨?_, fun ⟨x, hexec, hQ⟩ => total_perform hexec hQ⟩
  rintro ⟨a, t, hp, hQ⟩
  change Prog.eval B (.call op _) s = _ at hp
  rw [Prog.eval] at hp
  rcases hexec : B.exec op s with e | ⟨b, u⟩
  · rw [hexec] at hp
    cases hp
  · rw [hexec] at hp
    obtain ⟨hb, rfl⟩ := Prod.mk.inj (hp : (Except.ok b, u) = (Except.ok a, t))
    rw [Except.ok.inj hb]
    exact ⟨_, rfl, hQ⟩

theorem total_attempt {ξ' : Type} {p : Script Op ε ξ α} {Q : Except ξ α → S → Prop}
    (hp : Total B p (fun a t => Q (.ok a) t) s) : Total B (p.attempt : Script Op ε ξ' (Except ξ α)) Q s := by
  obtain ⟨a, t, hp, hQ⟩ := hp
  refine ⟨.ok a, t, ?_, hQ⟩
  show (p.run.bind _).eval B s = _
  rw [Prog.eval_bind, hp]
  rfl

theorem total_finally_iff {p : Script Op ε ξ α} {last : Script Op ε ξ Unit} :
    Total B (p.andFinally last) Q s ↔ Total B p (fun a t => Total B last (fun _ u => Q a u) t) s := by
  refine ⟨?_, total_finally⟩
  rintro ⟨a, t, hp, hQ⟩
  change (p.run.bind fun r => last.run.bind _).eval B s = _ at hp
  rw [Prog.eval_bind, Prog.eval_bind] at hp
  rcases hlast : last.run.eval B (p.run.eval B s).2 with ⟨e | v, u⟩
  · rw [hlast] at hp
    cases hp
  · rw [hlast] at hp
    obtain ⟨hr, rfl⟩ := Prod.mk.inj (hp : ((p.run.eval B s).1, u) = (Except.ok a, t))
    exact ⟨a, _, Prod.ext hr rfl, v, u, hlast, hQ⟩

end Total

end Script

end Interleaving
