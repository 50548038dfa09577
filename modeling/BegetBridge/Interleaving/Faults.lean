import BegetBridge.Interleaving.History

/-!
# Programs that report faults

What such a program returns was not disturbed: after a fault it throws, whatever it does before it ends. And where
nothing was disturbed, it has ended as the run without faults does.

## Main definitions

* `Prog.Never`, `Prog.Careful`: a program never ends well, or not after a fault
* `Script.Careful`: programs that throw after a fault

## Main results

* `Script.careful_bind`, `Script.careful_finally`, `Script.careful_tryCatch`: the rules
* `Prog.Careful.meets`, `Prog.meets_eval`: what is known where the program ends
-/

namespace Interleaving

variable {Op : Type → Type} {ε S α β ξ : Type}

/-- The program does not end well. -/
def Prog.Never (good : α → Prop) : Prog Op ε α → Prop
  | .done a => ¬good a
  | .call _ k => ∀ r, (k r).Never good

/-- The program does not end well after a fault. -/
def Prog.Careful (Fault : ε → Prop) (good : α → Prop) : Prog Op ε α → Prop
  | .done _ => True
  | .call _ k => (∀ r, (k r).Careful Fault good) ∧ ∀ e, Fault e → (k (.error e)).Never good

section Prog

variable {Fault : ε → Prop} {good : β → Prop} {good' : α → Prop}

theorem Prog.never_bind {p : Prog Op ε β} {f : β → Prog Op ε α} (hf : ∀ b, (f b).Never good') :
    (p.bind f).Never good' := by
  induction p with
  | done b => exact hf b
  | call op k ih => exact fun r => ih r

/-- What has not ended well does not lead to a good end. -/
theorem Prog.Never.bind {p : Prog Op ε β} {f : β → Prog Op ε α} (hp : p.Never good)
    (hf : ∀ b, ¬good b → (f b).Never good') : (p.bind f).Never good' := by
  induction p with
  | done b => exact hf b hp
  | call op k ih => exact fun r => ih r (hp r)

theorem Prog.Careful.bind {p : Prog Op ε β} {f : β → Prog Op ε α} (hp : p.Careful Fault good)
    (hf : ∀ b, (f b).Careful Fault good') (hbad : ∀ b, ¬good b → (f b).Never good') : (p.bind f).Careful Fault good' := by
  induction p with
  | done b => exact hf b
  | call op k ih => exact ⟨fun r => ih r (hp.1 r), fun e he => (hp.2 e he).bind hbad⟩

theorem Prog.Never.careful {p : Prog Op ε β} (hp : p.Never good) : p.Careful Fault good := by
  induction p with
  | done b => trivial
  | call op k ih => exact ⟨fun r => ih r (hp r), fun e _ => hp (.error e)⟩

theorem Prog.never_mapOp {Op' : Type → Type} {f : {γ : Type} → Op γ → Op' γ} {p : Prog Op ε β} (hp : p.Never good) :
    (p.mapOp f).Never good := by
  induction p with
  | done b => exact hp
  | call op k ih => exact fun r => ih r (hp r)

theorem Prog.careful_mapOp {Op' : Type → Type} {f : {γ : Type} → Op γ → Op' γ} {p : Prog Op ε β}
    (hp : p.Careful Fault good) : (p.mapOp f).Careful Fault good := by
  induction p with
  | done b => trivial
  | call op k ih => exact ⟨fun r => ih r (hp.1 r), fun e he => Prog.never_mapOp (hp.2 e he)⟩

variable {B : Backend Op ε S} {h : List (Entry Op ε)} {s : S}

theorem Prog.Never.meets {p : Prog Op ε β} (hp : p.Never good) :
    p.Meets B Fault (fun _ _ _ => True) (fun _ b _ => ¬good b) h s := by
  induction p generalizing h s with
  | done b => exact hp
  | call op k ih => exact ⟨trivial, fun r s' _ => ih r (hp r)⟩

/-- **Where the program ends well, there was no fault.** -/
theorem Prog.Careful.meets {p : Prog Op ε β} (hp : p.Careful Fault good) (hh : Faultless Fault h) :
    p.Meets B Fault (fun _ _ _ => True) (fun h' b _ => good b → Faultless Fault h') h s := by
  induction p generalizing h s with
  | done b => exact fun _ => hh
  | call op k ih =>
    refine ⟨trivial, fun r s' _ => ?_⟩
    by_cases hfault : ∃ e, r = .error e ∧ Fault e
    · obtain ⟨e, rfl, he⟩ := hfault
      exact Prog.meets_mono (fun h' b s' hbad hgood => absurd hgood hbad) (hp.2 e he).meets
    · refine ih r (hp.1 r) fun x hx e he => ?_
      rcases List.mem_append.mp hx with hx | hx
      · exact hh x hx e he
      · obtain rfl := List.mem_singleton.mp hx
        exact fun hfault' => hfault ⟨e, he, hfault'⟩

/-- **Where there was no fault**, the program has ended as the run without faults does. -/
theorem Prog.meets_eval (p : Prog Op ε β) :
    p.Meets B Fault (fun _ _ _ => True) (fun h' b s' => Faultless Fault h' → p.eval B s = (b, s')) h s := by
  have hruns : p.Meets B Fault (fun _ _ _ => True) (fun h' b s' => ∃ tr, h' = h ++ tr ∧ Runs B Fault p s tr b s') h s := by
    induction p generalizing h s with
    | done b => exact ⟨[], (List.append_nil h).symm, .done b s⟩
    | call op k ih =>
      refine ⟨trivial, fun r s' hans => Prog.meets_mono ?_ (ih r)⟩
      rintro h' b s'' ⟨tr, rfl, hr⟩
      exact ⟨_, (List.append_cons ..).symm, .call hans hr⟩
  refine Prog.meets_mono ?_ hruns
  rintro h' b s' ⟨tr, rfl, hr⟩ hall
  exact (hr.faultless fun x hx => hall x (List.mem_append_right h hx)).eq_eval

end Prog

/-! ## Programs that throw -/

/-- The program has returned. -/
def Returns : Except ξ α → Prop
  | .ok _ => True
  | .error _ => False

namespace Script

variable {Fault : ε → Prop}

/-- The program throws after a fault. -/
def Careful (Fault : ε → Prop) (p : Script Op ε ξ α) : Prop := p.run.Careful Fault Returns

/-- The program throws. -/
def Throws (p : Script Op ε ξ α) : Prop := p.run.Never Returns

theorem careful_pure {a : α} : Careful Fault (pure a : Script Op ε ξ α) := trivial

theorem careful_throw {e : ξ} : Careful Fault (throw e : Script Op ε ξ α) := trivial

theorem throws_throw {e : ξ} : Throws (throw e : Script Op ε ξ α) := id

theorem careful_perform {throws : ε → ξ} {op : Op α} : Careful Fault (perform throws op : Script Op ε ξ α) := by
  refine ⟨?_, fun e _ => id⟩
  rintro (e | a) <;> trivial

theorem careful_bind {p : Script Op ε ξ β} {f : β → Script Op ε ξ α} (hp : Careful Fault p)
    (hf : ∀ b, Careful Fault (f b)) : Careful Fault (p >>= f) := by
  apply Prog.Careful.bind hp
  · rintro (e | b)
    · trivial
    · exact hf b
  · rintro (e | b) hb
    · exact id
    · exact absurd trivial hb

theorem throws_bind {p : Script Op ε ξ β} {f : β → Script Op ε ξ α} (hf : ∀ b, Throws (f b)) : Throws (p >>= f) := by
  apply Prog.never_bind
  rintro (e | b)
  · exact id
  · exact hf b

theorem careful_finally {p : Script Op ε ξ α} {last : Script Op ε ξ Unit} (hp : Careful Fault p)
    (hlast : Careful Fault last) : Careful Fault (p.andFinally last) := by
  apply Prog.Careful.bind hp
  · intro r
    apply Prog.Careful.bind hlast
    · rintro (e | u) <;> trivial
    · rintro (e | u) hu
      · exact id
      · exact absurd trivial hu
  · rintro (e | a) ha
    · apply Prog.never_bind
      rintro (e' | u) <;> exact id
    · exact absurd trivial ha

/-- What is caught is followed by a throw. -/
theorem careful_tryCatch {p : Script Op ε ξ α} {f : ξ → Script Op ε ξ α} (hp : Careful Fault p)
    (hthrows : ∀ e, Throws (f e)) : Careful Fault (tryCatch p f) := by
  apply Prog.Careful.bind hp
  · rintro (e | a)
    · exact (hthrows e).careful
    · trivial
  · rintro (e | a) ha
    · exact hthrows e
    · exact absurd trivial ha

end Script

end Interleaving
