import BegetBridge.Interleaving.History

/-!
# Scripts that throw only after a fault

A script keeps an invariant, and pays what it owes at each operation. Where it returns, that is known. Where it throws
although it was to go well, an operation was stopped by a fault.

## Main definitions

* `Script.Outcome`: how such a script ends
* `Script.Keeps`: every run of a script pays what it owes, and ends so

## Main results

* `Script.keeps_bind`, `Script.keeps_call`, `Script.keeps_finally`, `Script.keeps_caught`, `Script.keeps_refused`: the
  rules
* `Script.Keeps.invariant`, `Script.Keeps.returns`: what is known of the runs
-/

namespace Interleaving

variable {Op : Type → Type} {ε S α β ξ : Type}

section Faultless

variable {Fault : ε → Prop} {h tr : List (Entry Op ε)}

/-- A fault is not forgotten. -/
theorem not_faultless_append (hfault : ¬Faultless Fault h) : ¬Faultless Fault (h ++ tr) :=
  fun hall => hfault fun x hx => hall x (List.mem_append_left tr hx)

theorem not_faultless_snoc {op : Op β} {e : ε} (hfault : Fault e) : ¬Faultless Fault (h ++ [⟨op, .error e⟩]) :=
  fun hall => hall _ (List.mem_append_right h (List.mem_singleton.mpr rfl)) e rfl hfault

end Faultless

/-- Where what is refused is no fault, the run without faults has none. -/
theorem trace_faultless {B : Backend Op ε S} {Fault : ε → Prop}
    (hrefused : ∀ {γ : Type} {op : Op γ} {s : S} {e : ε}, B.exec op s = .error e → ¬Fault e) {p : Prog Op ε α} {s : S} :
    Faultless Fault (p.trace B s) := by
  induction p generalizing s with
  | done a => exact nofun
  | call op k ih =>
    rw [Prog.trace]
    split
    · rintro x hx e he
      rcases List.mem_cons.mp hx with rfl | hx
      · cases he
      · exact ih _ x hx e he
    · next e hexec =>
      rintro x hx e' he
      rcases List.mem_cons.mp hx with rfl | hx
      · obtain rfl := Except.error.inj he
        exact hrefused hexec
      · exact ih _ x hx e' he

/-- What a run has done comes after what was done before. -/
theorem Prog.Meets.extends {B : Backend Op ε S} {Fault : ε → Prop} {O : {γ : Type} → List (Entry Op ε) → Op γ → S → Prop}
    {Q : List (Entry Op ε) → α → S → Prop} {p : Prog Op ε α} {h : List (Entry Op ε)} {s : S}
    (hp : p.Meets B Fault O Q h s) :
    p.Meets B Fault O (fun h' a s' => (∃ tr, h' = h ++ tr) ∧ Q h' a s') h s := by
  induction p generalizing h s with
  | done a => exact ⟨⟨[], (List.append_nil h).symm⟩, hp⟩
  | call op k ih =>
    refine ⟨hp.1, fun r s' hans => Prog.meets_mono ?_ (ih r (hp.2 r s' hans))⟩
    rintro h' a s'' ⟨⟨tr, rfl⟩, hQ⟩
    exact ⟨⟨_, (List.append_cons ..).symm⟩, hQ⟩

namespace Script

/-- The invariant holds, what is returned is as promised, what is thrown is of a kind, and what was to go well has thrown
only after a fault. -/
def Outcome (Fault : ε → Prop) (I : S → Prop) (T : ξ → Prop) (well : Prop) (P : α → S → Prop) (h : List (Entry Op ε))
    (r : Except ξ α) (s : S) : Prop :=
  I s ∧ match r with
    | .ok a => P a s
    | .error e => T e ∧ (well → ¬Faultless Fault h)

/-- Every run pays what it owes, and ends as promised. -/
abbrev Keeps (B : Backend Op ε S) (Fault : ε → Prop) (O : {γ : Type} → Op γ → S → Prop) (I : S → Prop) (T : ξ → Prop)
    (well : Prop) (p : Script Op ε ξ α) (P : α → S → Prop) (h : List (Entry Op ε)) (s : S) : Prop :=
  Meets B Fault (fun _ op s => O op s) p (Outcome Fault I T well P) h s

section Keeps

variable {B : Backend Op ε S} {Fault : ε → Prop} {O : {γ : Type} → Op γ → S → Prop} {I : S → Prop} {T : ξ → Prop}
  {well : Prop} {P : α → S → Prop} {h : List (Entry Op ε)} {s : S}

theorem keeps_pure {a : α} (hs : I s) (hP : P a s) : Keeps B Fault O I T well (pure a : Script Op ε ξ α) P h s := ⟨hs, hP⟩

theorem keeps_throw {e : ξ} (hs : I s) (he : T e) (hnot : ¬well) :
    Keeps B Fault O I T well (throw e : Script Op ε ξ α) P h s := ⟨hs, he, fun hwell => absurd hwell hnot⟩

theorem keeps_mono {p : Script Op ε ξ α} {P' : α → S → Prop} (hp : Keeps B Fault O I T well p P h s)
    (hP : ∀ a s', I s' → P a s' → P' a s') : Keeps B Fault O I T well p P' h s := by
  apply meets_mono hp
  rintro h' (e | a) s' ⟨hs', hends⟩
  · exact ⟨hs', hends⟩
  · exact ⟨hs', hP a s' hs' hends⟩

theorem keeps_bind {p : Script Op ε ξ β} {f : β → Script Op ε ξ α} {R : β → S → Prop}
    (hp : Keeps B Fault O I T well p R h s)
    (hf : ∀ b h' s', I s' → R b s' → Keeps B Fault O I T well (f b) P h' s') : Keeps B Fault O I T well (p >>= f) P h s := by
  apply meets_bind hp
  · exact fun h' b s' hs' => hf b h' s' hs'.1 hs'.2
  · exact fun h' e s' hs' => hs'

/-- After what only looks everything is as it was. -/
theorem keeps_after {p : Script Op ε ξ β} {f : β → Script Op ε ξ α} {R : β → Prop}
    (hp : Keeps B Fault O I T well p (fun b s' => s' = s ∧ R b) h s)
    (hf : ∀ b h', R b → Keeps B Fault O I T well (f b) P h' s) : Keeps B Fault O I T well (p >>= f) P h s := by
  apply keeps_bind hp
  rintro b h' _ - ⟨rfl, hb⟩
  exact hf b h' hb

/-- An operation that takes effect where all goes well. -/
theorem keeps_call {throws : ε → ξ} {op : Op α} (hs : I s) (howes : O op s) (hthrows : ∀ e, Fault e → T (throws e))
    (hok : ∀ a s', B.exec op s = .ok (a, s') → I s' ∧ P a s')
    (hrefused : ∀ e, B.exec op s = .error e → T (throws e) ∧ ¬well) :
    Keeps B Fault O I T well (perform throws op) P h s := by
  apply meets_answer howes
  · exact fun a s' hexec => hok a s' hexec
  · exact fun e hexec => ⟨hs, (hrefused e hexec).1, fun hwell => absurd hwell (hrefused e hexec).2⟩
  · exact fun e hfault => ⟨hs, hthrows e hfault, fun _ => not_faultless_snoc hfault⟩

/-- An operation that takes effect. -/
theorem keeps_effect {throws : ε → ξ} {op : Op α} {a : α} {s' : S} (hs : I s) (howes : O op s)
    (hthrows : ∀ e, Fault e → T (throws e)) (hexec : B.exec op s = .ok (a, s')) (hs' : I s') (hP : P a s') :
    Keeps B Fault O I T well (perform throws op) P h s := by
  apply keeps_call hs howes hthrows
  · intro b t hb
    obtain ⟨rfl, rfl⟩ := Prod.mk.inj (Except.ok.inj (hexec.symm.trans hb))
    exact ⟨hs', hP⟩
  · exact fun e he => absurd (hexec.symm.trans he) nofun

/-- What is done at the end is done whatever has happened. -/
theorem keeps_finally {p : Script Op ε ξ α} {last : Script Op ε ξ Unit} {R : α → S → Prop}
    (hp : Keeps B Fault O I T well p R h s)
    (hlast : ∀ h' s', I s' → Keeps B Fault O I T well last (fun _ s'' => ∀ a, R a s' → P a s'') h' s') :
    Keeps B Fault O I T well (p.andFinally last) P h s := by
  apply meets_finally hp
  rintro h' r s' ⟨hs', hends⟩
  apply meets_mono (Prog.Meets.extends (hlast h' s' hs'))
  rintro h'' (e | u) s'' ⟨⟨tr, rfl⟩, hs'', hends'⟩
  · exact ⟨hs'', hends'⟩
  · cases r with
    | error e => exact ⟨hs'', hends.1, fun hwell => not_faultless_append (hends.2 hwell)⟩
    | ok a => exact ⟨hs'', hends' a hends⟩

/-- What is thrown is thrown on. -/
theorem keeps_caught {p : Script Op ε ξ α} {f : ξ → Script Op ε ξ α} (hp : Keeps B Fault O I T well p P h s)
    (hf : ∀ e, T e → f e = throw e) : Keeps B Fault O I T well (tryCatch p f) P h s := by
  apply meets_tryCatch hp
  · exact fun h' a s' hs' => hs'
  · rintro h' e s' hs'
    rw [hf e hs'.2.1]
    exact hs'

/-- What an operation is refused is caught. -/
theorem keeps_refused {throws : ε → ξ} {op : Op β} {f : β → Script Op ε ξ α} {g : ξ → Script Op ε ξ α} {e : ε} (hs : I s)
    (howes : O op s) (hthrows : ∀ e, Fault e → T (throws e)) (hexec : B.exec op s = .error e)
    (hcaught : ∀ h', Keeps B Fault O I T well (g (throws e)) P h' s) (hg : ∀ e, T e → g e = throw e) :
    Keeps B Fault O I T well (tryCatch (perform throws op >>= f) g) P h s := by
  apply meets_tryCatch (P := fun h' r s' => s' = s ∧ ∃ e', r = .error (throws e') ∧
    (e' = e ∨ Fault e' ∧ ¬Faultless Fault h'))
  · apply meets_bind (P := fun h' r s' => s' = s ∧ ∃ e', r = .error (throws e') ∧
      (e' = e ∨ Fault e' ∧ ¬Faultless Fault h'))
    · apply meets_answer howes
      · exact fun a s' he => absurd (hexec.symm.trans he) nofun
      · intro e' he
        rw [hexec] at he
        exact ⟨rfl, e', rfl, .inl (Except.error.inj he).symm⟩
      · exact fun e' hfault => ⟨rfl, e', rfl, .inr ⟨hfault, not_faultless_snoc hfault⟩⟩
    · rintro h' b s' ⟨-, e', he, -⟩
      cases he
    · rintro h' e₁ s' ⟨rfl, e', he, hends⟩
      exact ⟨rfl, e', congrArg _ (Except.error.inj he), hends⟩
  · rintro h' a s' ⟨-, e', he, -⟩
    cases he
  · rintro h' _ s' ⟨rfl, e', he, hends⟩
    obtain rfl := Except.error.inj he
    rcases hends with rfl | ⟨hfault, hnot⟩
    · exact hcaught h'
    · rw [hg _ (hthrows e' hfault)]
      exact ⟨hs, hthrows e' hfault, fun _ => hnot⟩

/-- **What holds before every operation** holds wherever a run is cut. -/
theorem Keeps.invariant {p : Script Op ε ξ α} {tr : List (Entry Op ε)} {s' : S}
    (hp : Keeps B Fault O I T well p P h s) (hO : ∀ {γ : Type} (op : Op γ) (s : S), O op s → I s)
    (hvisits : Visits B Fault p.run s tr s') : I s' :=
  Prog.Meets.invariant (I := fun _ => I) hp (fun _ op s => hO op s) (fun _ _ _ hends => hends.1) hvisits

/-- **A run without a fault returns** what is promised. -/
theorem Keeps.returns {p : Script Op ε ξ α} {tr : List (Entry Op ε)} {r : Except ξ α} {s' : S}
    (hp : Keeps B Fault O I T well p P [] s) (hwell : well) (hruns : Runs B Fault p.run s tr r s')
    (hfaultless : Faultless Fault tr) : ∃ a, r = .ok a ∧ P a s' := by
  have hends := Prog.Meets.runs hp hruns
  cases r with
  | error e => exact absurd hfaultless (hends.2.2 hwell)
  | ok a => exact ⟨a, rfl, hends.2⟩

end Keeps

end Script

end Interleaving
