import BegetBridge.Interleaving.Program

/-!
# How the undisturbed runs of a program end

What holds wherever the runs of a program pass, and what is known of the trace, of the value and of the
store when they end. The rules follow the program.

## Main definitions

* `Prog.Ends`: the invariant of the runs, and their postcondition
* `Prog.planned`: a run in which some operations fail
* `Script`: programs that throw, with `finally`, and with results that are ignored
* `Script.Total`, `Script.Fails`: how the run without faults of such a program ends

## Main results

* `Prog.Ends.visits`, `Prog.Ends.runs`: what is known of the runs
* `Prog.ends_bind`, `Prog.ends_call`: sequencing
* `wp_last`: what is owed at the operation at which a run is cut
-/

namespace Interleaving

variable {Op : Type → Type} {ε S α β ξ : Type}

/-- Every undisturbed run passes stores that meet `I` only, and ends in `Q` of its trace. -/
def Prog.Ends (B : Backend Op ε S) (Fault : ε → Prop) (I : S → Prop) :
    Prog Op ε α → (List (Entry Op ε) → α → S → Prop) → S → Prop
  | .done a, Q, s => I s ∧ Q [] a s
  | .call op k, Q, s => I s ∧ ∀ r s', Answer B Fault op s r s' →
      (k r).Ends B Fault I (fun tr a s'' => Q (⟨op, r⟩ :: tr) a s'') s'

section Ends

variable {B : Backend Op ε S} {Fault : ε → Prop} {I : S → Prop} {s s' : S}
  {Q Q' : List (Entry Op ε) → α → S → Prop}

theorem Prog.Ends.here {p : Prog Op ε α} (h : p.Ends B Fault I Q s) : I s := by
  cases p with
  | done a => exact h.1
  | call op k => exact h.1

theorem Prog.Ends.visits {p : Prog Op ε α} {tr : List (Entry Op ε)} (h : p.Ends B Fault I Q s)
    (hr : Visits B Fault p s tr s') : I s' := by
  induction hr generalizing Q with
  | here => exact h.here
  | call hans _ ih => exact ih (h.2 _ _ hans)

theorem Prog.Ends.runs {p : Prog Op ε α} {tr : List (Entry Op ε)} {a : α} (h : p.Ends B Fault I Q s)
    (hr : Runs B Fault p s tr a s') : Q tr a s' := by
  induction hr generalizing Q with
  | done => exact h.2
  | call hans _ ih => exact ih (h.2 _ _ hans)

theorem Prog.ends_mono {p : Prog Op ε α} (hQ : ∀ tr a s, I s → Q tr a s → Q' tr a s)
    (h : p.Ends B Fault I Q s) : p.Ends B Fault I Q' s := by
  induction p generalizing s Q Q' with
  | done a => exact ⟨h.1, hQ _ _ _ h.1 h.2⟩
  | call op k ih => exact ⟨h.1, fun r s' hans => ih r (fun tr a s hI => hQ _ a s hI) (h.2 r s' hans)⟩

/-- What runs under one invariant runs under a weaker one. -/
theorem Prog.ends_weaken {I' : S → Prop} {p : Prog Op ε α} (hI : ∀ s, I s → I' s) (h : p.Ends B Fault I Q s) :
    p.Ends B Fault I' Q s := by
  induction p generalizing s Q with
  | done a => exact ⟨hI _ h.1, h.2⟩
  | call op k ih => exact ⟨hI _ h.1, fun r s' hans => ih r (h.2 r s' hans)⟩

theorem Prog.ends_bind {p : Prog Op ε β} {f : β → Prog Op ε α}
    (h : p.Ends B Fault I (fun tr b s' =>
      (f b).Ends B Fault I (fun tr' a s'' => Q (tr ++ tr') a s'') s') s) :
    (p.bind f).Ends B Fault I Q s := by
  induction p generalizing s Q with
  | done b => exact h.2
  | call op k ih => exact ⟨h.1, fun r s' hans => ih r (h.2 r s' hans)⟩

/-- The trace has operations of the program only. -/
theorem Prog.ends_every {P : {γ : Type} → Op γ → Prop} {p : Prog Op ε α} (hp : p.Every P)
    (h : p.Ends B Fault I Q s) :
    p.Ends B Fault I (fun tr a s' => (∀ x ∈ tr, P x.op) ∧ Q tr a s') s := by
  induction p generalizing s Q with
  | done a => exact ⟨h.1, nofun, h.2⟩
  | call op k ih =>
    refine ⟨h.1, fun r s' hans => Prog.ends_mono ?_ (ih r (hp.2 r) (h.2 r s' hans))⟩
    rintro tr a s'' - ⟨hall, hQ⟩
    refine ⟨fun x hx => ?_, hQ⟩
    rcases List.mem_cons.mp hx with rfl | hx
    · exact hp.1
    · exact hall x hx

/-- An operation that is performed: it takes effect, or the program goes on with a failure in the store as
it was. -/
theorem Prog.ends_call {op : Op β} {k : Except ε β → Prog Op ε α} (hI : I s)
    (hok : ∀ b s', B.exec op s = .ok (b, s') →
      (k (.ok b)).Ends B Fault I (fun tr a s'' => Q (⟨op, .ok b⟩ :: tr) a s'') s')
    (herror : ∀ e, (k (.error e)).Ends B Fault I (fun tr a s'' => Q (⟨op, .error e⟩ :: tr) a s'') s) :
    (Prog.call op k).Ends B Fault I Q s := by
  refine ⟨hI, fun r s' hans => ?_⟩
  cases hans with
  | effect h => exact hok _ _ h
  | refusal h => exact herror _
  | fault h => exact herror _

end Ends

/-! ## The run without faults, and the last operation of a run -/

theorem Prog.eval_bind {B : Backend Op ε S} {p : Prog Op ε α} {f : α → Prog Op ε β} {s : S} :
    (p.bind f).eval B s = (f (p.eval B s).1).eval B (p.eval B s).2 := by
  induction p generalizing s with
  | done a => rfl
  | call op k ih =>
    simp only [Prog.bind, Prog.eval]
    split
    · exact ih _
    · exact ih _

/-- What is owed at the last operation of a run that is cut. -/
theorem wp_last {γ : Type} {C : Setting Op ε S} (hC : C.Idle) {p : Prog Op ε α} {Q : α → S → Prop}
    {tr : List (Entry Op ε)} {op : Op γ} {r : Except ε γ} {s s' : S} (h : wp C p Q s)
    (hvisits : Visits C.toBackend C.Fault p s (tr ++ [⟨op, r⟩]) s') :
    ∃ s₁, Visits C.toBackend C.Fault p s tr s₁ ∧ C.oblige op s₁ := by
  induction tr generalizing p s with
  | nil =>
    cases hvisits with
    | call hans _ => exact ⟨s, .here _ _, (h s (hC _ s)).1⟩
  | cons x tr ih =>
    cases hvisits with
    | call hans hk =>
      obtain ⟨s₁, hs₁, howes⟩ := ih ((h s (hC _ s)).2 _ _ hans) hk
      exact ⟨s₁, .call hans hs₁, howes⟩

/-! ## Runs in which some operations fail -/

/-- The run in which the operations fail as it is planned, and where nothing is planned without a fault. -/
def Prog.planned (B : Backend Op ε S) : Prog Op ε α → List (Option ε) → S → List (Entry Op ε) × α × S
  | .done a, _, s => ([], a, s)
  | .call op k, plan, s =>
    match plan.headD none with
    | some e =>
      let x := (k (.error e)).planned B plan.tail s
      (⟨op, .error e⟩ :: x.1, x.2)
    | none =>
      match B.exec op s with
      | .ok (b, s') =>
        let x := (k (.ok b)).planned B plan.tail s'
        (⟨op, .ok b⟩ :: x.1, x.2)
      | .error e =>
        let x := (k (.error e)).planned B plan.tail s
        (⟨op, .error e⟩ :: x.1, x.2)

/-- **A run that is planned is a run**, where the failures that are planned may happen. -/
theorem Prog.planned_runs_of {B : Backend Op ε S} {Fault : ε → Prop} (p : Prog Op ε α) (plan : List (Option ε)) (s : S)
    (hfault : ∀ e, some e ∈ plan → Fault e) :
    Runs B Fault p s (p.planned B plan s).1 (p.planned B plan s).2.1 (p.planned B plan s).2.2 := by
  induction p generalizing plan s with
  | done a => exact .done a s
  | call op k ih =>
    have htail : ∀ e, some e ∈ plan.tail → Fault e := fun e he => hfault e (List.mem_of_mem_tail he)
    rw [Prog.planned]
    split
    · rename_i e hhead
      refine .call (.fault (hfault e ?_)) (ih _ _ _ htail)
      cases plan with
      | nil => cases hhead
      | cons x plan => exact List.mem_cons.mpr (.inl hhead.symm)
    · split
      · rename_i hexec
        exact .call (.effect hexec) (ih _ _ _ htail)
      · rename_i hexec
        exact .call (.refusal hexec) (ih _ _ _ htail)

theorem Prog.planned_runs {B : Backend Op ε S} {Fault : ε → Prop} (hfault : ∀ e, Fault e) (p : Prog Op ε α)
    (plan : List (Option ε)) (s : S) :
    Runs B Fault p s (p.planned B plan s).1 (p.planned B plan s).2.1 (p.planned B plan s).2.2 :=
  p.planned_runs_of plan s fun e _ => hfault e

/-! ## Programs that throw -/

/-- A program that may throw. -/
abbrev Script (Op : Type → Type) (ε ξ : Type) := ExceptT ξ (Prog Op ε)

namespace Script

/-- An operation whose failure is thrown. -/
def perform (throws : ε → ξ) (op : Op β) : Script Op ε ξ β :=
  ExceptT.mk (.call op fun
    | .ok b => .done (.ok b)
    | .error e => .done (.error (throws e)))

/-- The program, and what is done when it ends: what that throws is thrown instead. -/
def andFinally (p : Script Op ε ξ α) (last : Script Op ε ξ Unit) : Script Op ε ξ α :=
  ExceptT.mk (p.run.bind fun r => last.run.bind fun r' =>
    match r' with
    | .ok _ => .done r
    | .error e => .done (.error e))

/-- The program, and nothing of what it throws. -/
def ignored (p : Script Op ε ξ Unit) : Script Op ε ξ Unit := ExceptT.mk (p.run.bind fun _ => .done (.ok ()))

/-- The program, and what it throws as a value. -/
def attempt {ξ' : Type} (p : Script Op ε ξ α) : Script Op ε ξ' (Except ξ α) :=
  ExceptT.mk (p.run.bind fun r => .done (.ok r))

/-- How the runs of a program that may throw end. -/
def Ends (B : Backend Op ε S) (Fault : ε → Prop) (I : S → Prop) (p : Script Op ε ξ α)
    (Q : List (Entry Op ε) → Except ξ α → S → Prop) (s : S) : Prop :=
  Prog.Ends B Fault I p.run Q s

section Rules

variable {B : Backend Op ε S} {Fault : ε → Prop} {I : S → Prop} {s : S}
  {Q Q' : List (Entry Op ε) → Except ξ α → S → Prop}

theorem ends_pure {a : α} (hI : I s) (h : Q [] (.ok a) s) : Ends B Fault I (pure a) Q s := ⟨hI, h⟩

theorem ends_throw {e : ξ} (hI : I s) (h : Q [] (.error e) s) : Ends B Fault I (throw e) Q s := ⟨hI, h⟩

theorem ends_mono {p : Script Op ε ξ α} (hQ : ∀ tr r s, I s → Q tr r s → Q' tr r s)
    (h : Ends B Fault I p Q s) : Ends B Fault I p Q' s := Prog.ends_mono hQ h

theorem ends_weaken {I' : S → Prop} {p : Script Op ε ξ α} (hI : ∀ s, I s → I' s) (h : Ends B Fault I p Q s) :
    Ends B Fault I' p Q s := Prog.ends_weaken hI h

/-- The next program starts where the first one ends, unless that throws. -/
theorem ends_bind {p : Script Op ε ξ β} {f : β → Script Op ε ξ α}
    (h : Ends B Fault I p (fun tr r s' =>
      match r with
      | .ok b => Ends B Fault I (f b) (fun tr' r' s'' => Q (tr ++ tr') r' s'') s'
      | .error e => Q tr (.error e) s') s) : Ends B Fault I (p >>= f) Q s := by
  refine Prog.ends_bind (Prog.ends_mono ?_ h)
  rintro tr (e | b) s' hI hQ
  · refine ⟨hI, ?_⟩
    show Q (tr ++ []) _ _
    rw [List.append_nil]
    exact hQ
  · exact hQ

theorem ends_perform {throws : ε → ξ} {op : Op α} (hI : I s)
    (hok : ∀ a s', B.exec op s = .ok (a, s') → I s' ∧ Q [⟨op, .ok a⟩] (.ok a) s')
    (herror : ∀ e, Q [⟨op, .error e⟩] (.error (throws e)) s) :
    Ends B Fault I (perform throws op) Q s :=
  Prog.ends_call hI (fun b s' h => hok b s' h) fun e => ⟨hI, herror e⟩

/-- The same, where it matters why the operation fails. -/
theorem ends_answer {throws : ε → ξ} {op : Op α} (hI : I s)
    (hok : ∀ a s', B.exec op s = .ok (a, s') → I s' ∧ Q [⟨op, .ok a⟩] (.ok a) s')
    (hrefused : ∀ e, B.exec op s = .error e → Q [⟨op, .error e⟩] (.error (throws e)) s)
    (hfault : ∀ e, Fault e → Q [⟨op, .error e⟩] (.error (throws e)) s) :
    Ends B Fault I (perform throws op) Q s := by
  refine ⟨hI, fun r s' hans => ?_⟩
  cases hans with
  | effect h => exact hok _ _ h
  | refusal h => exact ⟨hI, hrefused _ h⟩
  | fault h => exact ⟨hI, hfault _ h⟩

theorem ends_tryCatch {p : Script Op ε ξ α} {f : ξ → Script Op ε ξ α}
    (h : Ends B Fault I p (fun tr r s' =>
      match r with
      | .ok a => Q tr (.ok a) s'
      | .error e => Ends B Fault I (f e) (fun tr' r' s'' => Q (tr ++ tr') r' s'') s') s) :
    Ends B Fault I (tryCatch p f) Q s := by
  refine Prog.ends_bind (Prog.ends_mono ?_ h)
  rintro tr (e | b) s' hI hQ
  · exact hQ
  · refine ⟨hI, ?_⟩
    show Q (tr ++ []) _ _
    rw [List.append_nil]
    exact hQ

theorem ends_finally {p : Script Op ε ξ α} {last : Script Op ε ξ Unit}
    (h : Ends B Fault I p (fun tr r s' => Ends B Fault I last (fun tr' r' s'' =>
      Q (tr ++ tr') (match r' with | .ok _ => r | .error e => .error e) s'') s') s) :
    Ends B Fault I (p.andFinally last) Q s := by
  refine Prog.ends_bind (Prog.ends_mono ?_ h)
  intro tr r s' _ hlast
  refine Prog.ends_bind (Prog.ends_mono ?_ hlast)
  rintro tr' (e | b) s'' hI hQ
  · refine ⟨hI, ?_⟩
    show Q (tr ++ (tr' ++ [])) _ _
    rw [List.append_nil]
    exact hQ
  · refine ⟨hI, ?_⟩
    show Q (tr ++ (tr' ++ [])) _ _
    rw [List.append_nil]
    exact hQ

theorem ends_attempt {ξ' : Type} {p : Script Op ε ξ α} {Q : List (Entry Op ε) → Except ξ' (Except ξ α) → S → Prop}
    (h : Ends B Fault I p (fun tr r s' => Q tr (.ok r) s') s) : Ends B Fault I p.attempt Q s := by
  refine Prog.ends_bind (Prog.ends_mono ?_ h)
  intro tr r s' hI hQ
  refine ⟨hI, ?_⟩
  show Q (tr ++ []) _ _
  rw [List.append_nil]
  exact hQ

theorem ends_ignored {p : Script Op ε ξ Unit} {Q : List (Entry Op ε) → Except ξ Unit → S → Prop}
    (h : Ends B Fault I p (fun tr _ s' => Q tr (.ok ()) s') s) : Ends B Fault I p.ignored Q s := by
  refine Prog.ends_bind (Prog.ends_mono ?_ h)
  intro tr r s' hI hQ
  refine ⟨hI, ?_⟩
  show Q (tr ++ []) _ _
  rw [List.append_nil]
  exact hQ

end Rules

/-! ## The run without faults of a program that throws -/

section Total

variable {B : Backend Op ε S} {s t : S}

/-- Without faults the program returns, and ends in `Q`. -/
def Total (B : Backend Op ε S) (p : Script Op ε ξ α) (Q : α → S → Prop) (s : S) : Prop :=
  ∃ a t, p.run.eval B s = (.ok a, t) ∧ Q a t

/-- Without faults the program throws. -/
def Fails (B : Backend Op ε S) (p : Script Op ε ξ α) (s : S) : Prop := ∃ e t, p.run.eval B s = (.error e, t)

/-- Without faults the program throws, and ends in a store. -/
def FailsIn (B : Backend Op ε S) (p : Script Op ε ξ α) (t s : S) : Prop := ∃ e, p.run.eval B s = (.error e, t)

theorem Fails.not_total {p : Script Op ε ξ α} {Q : α → S → Prop} (h : Fails B p s) : ¬Total B p Q s := by
  rintro ⟨a, s₁, hp, -⟩
  obtain ⟨e, s₂, he⟩ := h
  rw [hp] at he
  cases he

theorem total_pure {a : α} {Q : α → S → Prop} (h : Q a s) : Total B (pure a : Script Op ε ξ α) Q s :=
  ⟨a, s, rfl, h⟩

theorem total_mono {p : Script Op ε ξ α} {Q Q' : α → S → Prop} (hQ : ∀ a t, Q a t → Q' a t)
    (h : Total B p Q s) : Total B p Q' s := by
  obtain ⟨a, t, hp, hq⟩ := h
  exact ⟨a, t, hp, hQ a t hq⟩

theorem total_bind {p : Script Op ε ξ β} {f : β → Script Op ε ξ α} {Q : α → S → Prop}
    (h : Total B p (fun b t => Total B (f b) Q t) s) : Total B (p >>= f) Q s := by
  obtain ⟨b, s₁, hp, a, s₂, hf, hQ⟩ := h
  refine ⟨a, s₂, ?_, hQ⟩
  show (p.run.bind _).eval B s = _
  rw [Prog.eval_bind, hp]
  exact hf

theorem total_perform {throws : ε → ξ} {op : Op β} {b : β} {Q : β → S → Prop} (h : B.exec op s = .ok (b, t))
    (hQ : Q b t) : Total B (perform throws op) Q s := by
  refine ⟨b, t, ?_, hQ⟩
  show Prog.eval B (.call op _) s = _
  rw [Prog.eval, h]
  rfl

theorem total_finally {p : Script Op ε ξ α} {last : Script Op ε ξ Unit} {Q : α → S → Prop}
    (h : Total B p (fun a t => Total B last (fun _ u => Q a u) t) s) : Total B (p.andFinally last) Q s := by
  obtain ⟨a, s₁, hp, u, s₂, hlast, hQ⟩ := h
  refine ⟨a, s₂, ?_, hQ⟩
  show (p.run.bind fun r => last.run.bind _).eval B s = _
  rw [Prog.eval_bind, hp, Prog.eval_bind, hlast]
  rfl

theorem total_tryCatch {p : Script Op ε ξ α} {f : ξ → Script Op ε ξ α} {Q : α → S → Prop}
    (h : Total B p Q s) : Total B (tryCatch p f) Q s := by
  obtain ⟨a, s₁, hp, hQ⟩ := h
  refine ⟨a, s₁, ?_, hQ⟩
  show (p.run.bind _).eval B s = _
  rw [Prog.eval_bind, hp]
  rfl

theorem total_caught {p : Script Op ε ξ α} {f : ξ → Script Op ε ξ α} {Q : α → S → Prop} {e : ξ}
    (hp : p.run.eval B s = (.error e, t)) (h : Total B (f e) Q t) : Total B (tryCatch p f) Q s := by
  obtain ⟨a, s₁, hf, hQ⟩ := h
  refine ⟨a, s₁, ?_, hQ⟩
  show (p.run.bind _).eval B s = _
  rw [Prog.eval_bind, hp]
  exact hf

theorem fails_after {p : Script Op ε ξ β} {f : β → Script Op ε ξ α}
    (h : Total B p (fun b t => Fails B (f b) t) s) : Fails B (p >>= f) s := by
  obtain ⟨b, s₁, hp, e, s₂, hf⟩ := h
  refine ⟨e, s₂, ?_⟩
  show (p.run.bind _).eval B s = _
  rw [Prog.eval_bind, hp]
  exact hf

theorem fails_first {p : Script Op ε ξ β} {f : β → Script Op ε ξ α} (h : Fails B p s) :
    Fails B (p >>= f) s := by
  obtain ⟨e, s₁, hp⟩ := h
  refine ⟨e, s₁, ?_⟩
  show (p.run.bind _).eval B s = _
  rw [Prog.eval_bind, hp]
  rfl

theorem failsIn_after {p : Script Op ε ξ β} {f : β → Script Op ε ξ α}
    (h : Total B p (fun b u => FailsIn B (f b) t u) s) : FailsIn B (p >>= f) t s := by
  obtain ⟨b, s₁, hp, e, hf⟩ := h
  refine ⟨e, ?_⟩
  show (p.run.bind _).eval B s = _
  rw [Prog.eval_bind, hp]
  exact hf

theorem failsIn_first {p : Script Op ε ξ β} {f : β → Script Op ε ξ α} (h : FailsIn B p t s) :
    FailsIn B (p >>= f) t s := by
  obtain ⟨e, hp⟩ := h
  refine ⟨e, ?_⟩
  show (p.run.bind _).eval B s = _
  rw [Prog.eval_bind, hp]
  rfl

end Total

/-! ## Programs that throw, among others -/

section Among

variable {C : Setting Op ε S} {s : S}

/-- What comes of a program, and of what is done when it ends. -/
def lastly (r : Except ξ α) : Except ξ Unit → Except ξ α
  | .ok _ => r
  | .error e => .error e

theorem wpThrow_finally {p : Script Op ε ξ α} {last : Script Op ε ξ Unit} {Q : Except ξ α → S → Prop}
    (h : wpThrow C p (fun r t => wpThrow C last (fun r' u => Q (lastly r r') u) t) s) :
    wpThrow C (p.andFinally last) Q s := by
  refine wp_bind.mpr (wp_mono (fun r t hlast => wp_bind.mpr (wp_mono ?_ hlast)) h)
  rintro (e | u) v hQ
  · exact hQ
  · exact hQ

theorem wpThrow_ignored {p : Script Op ε ξ Unit} {Q : Except ξ Unit → S → Prop}
    (h : wpThrow C p (fun _ t => Q (.ok ()) t) s) : wpThrow C p.ignored Q s := wp_bind.mpr h

end Among

end Script

end Interleaving
