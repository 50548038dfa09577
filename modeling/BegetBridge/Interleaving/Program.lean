import Mathlib

/-!
# Programs over atomic operations

A program is the tree of the atomic operations it performs on a shared store, each continuing
with the reply. An operation takes effect or fails without effect. A program has two readings:
its runs when nothing interferes, and its weakest precondition when other parties may change
the store before each of its operations.

## Main definitions

* `Prog Op ε α`: programs of operations `Op` that may fail with `ε`
* `Backend`, `Answer`: what an operation does to the store, faults included
* `Runs`: the undisturbed runs of a program, with the trace of its operations
* `Visits`: the stores an undisturbed run passes, where a crash may cut it
* `Prog.eval`, `Prog.trace`: the run without faults
* `Prog.Every`: programs all of whose operations are of a kind
* `Process`, `wpProcess`: programs with exceptions and a private memory
* `Setting`, `wp`: a rely before each operation, an obligation at each operation, and the
  weakest precondition under both

## Main results

* `runs_bind`, `wp_bind`: sequencing
* `Visits.preserves`: what all its operations preserve holds along the runs of a program
* `Visits.entry`: every traced operation was performed at some state of the run
* `wp_sound`, `wp_invariant`: a weakest precondition bounds the undisturbed runs
* `wp_answer`, `wp_interfere`: it survives a step of the program, and a step of the others
-/

namespace Interleaving

/-- A program: a value, or an operation whose reply decides the rest. -/
inductive Prog (Op : Type → Type) (ε α : Type) : Type 1
  | done (a : α)
  | call {β : Type} (op : Op β) (k : Except ε β → Prog Op ε α)

variable {Op : Type → Type} {ε S α β : Type}

namespace Prog

/-- Run `p`, then the program chosen by its value. -/
def bind : Prog Op ε α → (α → Prog Op ε β) → Prog Op ε β
  | done a, f => f a
  | call op k, f => call op fun r => (k r).bind f

instance : Monad (Prog Op ε) where
  pure := done
  bind := bind

/-- The program of one operation. -/
def perform (op : Op β) : Prog Op ε (Except ε β) := call op done

/-- Perform each operation as one of another signature. -/
def mapOp {Op' : Type → Type} (f : {β : Type} → Op β → Op' β) : Prog Op ε α → Prog Op' ε α
  | done a => done a
  | call op k => call (f op) fun r => (k r).mapOp f

theorem pure_eq (a : α) : (pure a : Prog Op ε α) = done a := rfl

theorem bind_eq (p : Prog Op ε α) (f : α → Prog Op ε β) : p >>= f = p.bind f := rfl

theorem map_eq (g : α → β) (p : Prog Op ε α) : g <$> p = p.bind fun a => done (g a) := rfl

end Prog

/-- The effect of each operation on the store. -/
structure Backend (Op : Type → Type) (ε S : Type) where
  exec : {β : Type} → Op β → S → Except ε (β × S)

/-- One operation at store `s`: it takes effect, it is refused, or a fault stops it. Only the
first changes the store. -/
inductive Answer (B : Backend Op ε S) (Fault : ε → Prop) (op : Op β) (s : S) :
    Except ε β → S → Prop
  | effect {b : β} {s' : S} (h : B.exec op s = .ok (b, s')) : Answer B Fault op s (.ok b) s'
  | refusal {e : ε} (h : B.exec op s = .error e) : Answer B Fault op s (.error e) s
  | fault {e : ε} (h : Fault e) : Answer B Fault op s (.error e) s

/-- A performed operation and its reply. -/
structure Entry (Op : Type → Type) (ε : Type) : Type 1 where
  {β : Type}
  op : Op β
  reply : Except ε β

/-- No operation of the trace was stopped by a fault. -/
def Faultless (Fault : ε → Prop) (tr : List (Entry Op ε)) : Prop :=
  ∀ x ∈ tr, ∀ e, x.reply = .error e → ¬Fault e

instance decidableNoFault {Fault : ε → Prop} [DecidablePred Fault] (r : Except ε β) :
    Decidable (∀ e, r = .error e → ¬Fault e) :=
  match r with
  | .ok _ => isTrue nofun
  | .error e => decidable_of_iff (¬Fault e) ⟨fun h _ he => Except.error.inj he ▸ h, fun h => h e rfl⟩

instance {Fault : ε → Prop} [DecidablePred Fault] (tr : List (Entry Op ε)) :
    Decidable (Faultless Fault tr) :=
  inferInstanceAs (Decidable (∀ x ∈ tr, ∀ e, x.reply = .error e → ¬Fault e))

/-- The undisturbed runs of a program: start, trace, value and end. -/
inductive Runs (B : Backend Op ε S) (Fault : ε → Prop) :
    Prog Op ε α → S → List (Entry Op ε) → α → S → Prop
  | done (a : α) (s : S) : Runs B Fault (.done a) s [] a s
  | call {γ : Type} {op : Op γ} {k : Except ε γ → Prog Op ε α} {s s₁ s₂ : S} {r : Except ε γ}
      {tr : List (Entry Op ε)} {a : α} (h : Answer B Fault op s r s₁)
      (hk : Runs B Fault (k r) s₁ tr a s₂) : Runs B Fault (.call op k) s (⟨op, r⟩ :: tr) a s₂

/-- The stores an undisturbed run of a program passes, its start and its end included, with the
trace up to there. -/
inductive Visits (B : Backend Op ε S) (Fault : ε → Prop) :
    Prog Op ε α → S → List (Entry Op ε) → S → Prop
  | here (p : Prog Op ε α) (s : S) : Visits B Fault p s [] s
  | call {γ : Type} {op : Op γ} {k : Except ε γ → Prog Op ε α} {s s₁ s₂ : S} {r : Except ε γ}
      {tr : List (Entry Op ε)} (h : Answer B Fault op s r s₁)
      (hk : Visits B Fault (k r) s₁ tr s₂) : Visits B Fault (.call op k) s (⟨op, r⟩ :: tr) s₂

/-- The run without faults. -/
def Prog.eval (B : Backend Op ε S) : Prog Op ε α → S → α × S
  | .done a, s => (a, s)
  | .call op k, s =>
    match B.exec op s with
    | .ok (b, s') => (k (.ok b)).eval B s'
    | .error e => (k (.error e)).eval B s

/-- The trace of that run. -/
def Prog.trace (B : Backend Op ε S) : Prog Op ε α → S → List (Entry Op ε)
  | .done _, _ => []
  | .call op k, s =>
    match B.exec op s with
    | .ok (b, s') => ⟨op, .ok b⟩ :: (k (.ok b)).trace B s'
    | .error e => ⟨op, .error e⟩ :: (k (.error e)).trace B s

section Runs

variable {B : Backend Op ε S} {Fault : ε → Prop} {s s' : S} {tr : List (Entry Op ε)}

@[simp] theorem runs_done {a a' : α} :
    Runs B Fault (.done a) s tr a' s' ↔ tr = [] ∧ a' = a ∧ s' = s := by
  constructor
  · rintro ⟨⟩
    exact ⟨rfl, rfl, rfl⟩
  · rintro ⟨rfl, rfl, rfl⟩
    exact .done _ _

theorem runs_bind {p : Prog Op ε α} {f : α → Prog Op ε β} {b : β} :
    Runs B Fault (p.bind f) s tr b s' ↔ ∃ tr₁ a s₁ tr₂, Runs B Fault p s tr₁ a s₁ ∧
      Runs B Fault (f a) s₁ tr₂ b s' ∧ tr = tr₁ ++ tr₂ := by
  induction p generalizing s tr with
  | done a =>
    simp only [Prog.bind, runs_done]
    constructor
    · intro h
      exact ⟨[], a, s, tr, ⟨rfl, rfl, rfl⟩, h, rfl⟩
    · rintro ⟨_, _, _, tr₂, ⟨rfl, rfl, rfl⟩, h, rfl⟩
      exact h
  | call op k ih =>
    constructor
    · intro h
      cases h with
      | call hans hk =>
        obtain ⟨tr₁, a, s₁, tr₂, h₁, h₂, rfl⟩ := (ih _).mp hk
        exact ⟨_, a, s₁, tr₂, .call hans h₁, h₂, rfl⟩
    · rintro ⟨_, a, s₁, tr₂, h₁, h₂, rfl⟩
      cases h₁ with
      | call hans hk => exact .call hans ((ih _).mpr ⟨_, a, s₁, tr₂, hk, h₂, rfl⟩)

/-- The run without faults is a run. -/
theorem eval_runs (p : Prog Op ε α) (s : S) :
    Runs B Fault p s (p.trace B s) (p.eval B s).1 (p.eval B s).2 := by
  induction p generalizing s with
  | done a => exact .done a s
  | call op k ih =>
    simp only [Prog.eval, Prog.trace]
    cases h : B.exec op s with
    | ok bs => exact .call (.effect h) (ih (.ok bs.1) bs.2)
    | error e => exact .call (.refusal h) (ih (.error e) s)

theorem Runs.faultless {p : Prog Op ε α} {a : α} (h : Runs B Fault p s tr a s')
    (hno : Faultless Fault tr) : Runs B (fun _ => False) p s tr a s' := by
  induction h with
  | done => exact .done _ _
  | call hans _ ih =>
    refine .call ?_ (ih fun x hx => hno x (List.mem_cons_of_mem _ hx))
    cases hans with
    | effect he => exact .effect he
    | refusal he => exact .refusal he
    | fault hf => exact absurd hf (hno _ List.mem_cons_self _ rfl)

/-- Without faults there is no other run. -/
theorem Runs.eq_eval {p : Prog Op ε α} {a : α} (h : Runs B (fun _ => False) p s tr a s') :
    p.eval B s = (a, s') := by
  induction h with
  | done => rfl
  | call hans _ ih =>
    rw [Prog.eval]
    cases hans with
    | effect he => rw [he]; exact ih
    | refusal he => rw [he]; exact ih
    | fault hf => exact hf.elim

/-- A run passes its end. -/
theorem Runs.visits {p : Prog Op ε α} {a : α} (h : Runs B Fault p s tr a s') :
    Visits B Fault p s tr s' := by
  induction h with
  | done => exact .here _ _
  | call hans _ ih => exact .call hans ih

/-- A run moves the store along any preorder that every operation respects. -/
theorem Visits.related {R : S → S → Prop} (hrefl : ∀ s, R s s)
    (htrans : ∀ {a b c}, R a b → R b c → R a c)
    (hop : ∀ {γ} {op : Op γ} {s r s'}, Answer B Fault op s r s' → R s s')
    {p : Prog Op ε α} (h : Visits B Fault p s tr s') : R s s' := by
  induction h with
  | here => exact hrefl _
  | call hans _ ih => exact htrans (hop hans) ih

theorem Runs.related {R : S → S → Prop} (hrefl : ∀ s, R s s)
    (htrans : ∀ {a b c}, R a b → R b c → R a c)
    (hop : ∀ {γ} {op : Op γ} {s r s'}, Answer B Fault op s r s' → R s s')
    {p : Prog Op ε α} {a : α} (h : Runs B Fault p s tr a s') : R s s' :=
  h.visits.related hrefl htrans hop

/-- **Every traced operation was performed** at some state of the run. -/
theorem Visits.entry {R : S → S → Prop} (hrefl : ∀ s, R s s)
    (htrans : ∀ {a b c}, R a b → R b c → R a c)
    (hop : ∀ {γ} {op : Op γ} {s r s'}, Answer B Fault op s r s' → R s s')
    {p : Prog Op ε α} (h : Visits B Fault p s tr s') {e : Entry Op ε} (he : e ∈ tr) :
    ∃ s₁ s₂, R s s₁ ∧ Answer B Fault e.op s₁ e.reply s₂ ∧ R s₂ s' := by
  induction h with
  | here => exact absurd he List.not_mem_nil
  | call hans hk ih =>
    rcases List.mem_cons.mp he with rfl | he
    · exact ⟨_, _, hrefl _, hans, hk.related hrefl htrans hop⟩
    · obtain ⟨s₁, s₂, h₁, h₂, h₃⟩ := ih he
      exact ⟨s₁, s₂, htrans (hop hans) h₁, h₂, h₃⟩

end Runs

/-! ## Programs all of whose operations are of a kind -/

/-- Every operation that the program may perform is one of those. -/
def Prog.Every (P : {γ : Type} → Op γ → Prop) : Prog Op ε α → Prop
  | .done _ => True
  | .call op k => P op ∧ ∀ r, (k r).Every P

section Every

variable {P : {γ : Type} → Op γ → Prop} {B : Backend Op ε S} {Fault : ε → Prop}

theorem every_bind {p : Prog Op ε α} {f : α → Prog Op ε β} (hp : p.Every P)
    (hf : ∀ a, (f a).Every P) : (p.bind f).Every P := by
  induction p with
  | done a => exact hf a
  | call op k ih => exact ⟨hp.1, fun r => ih r (hp.2 r)⟩

/-- What all these operations preserve holds wherever a run of the program passes. -/
theorem Visits.preserves {I : S → Prop} {p : Prog Op ε α} {s s' : S} {tr : List (Entry Op ε)}
    (h : Visits B Fault p s tr s') (hp : p.Every P) (hs : I s)
    (hop : ∀ {γ} {op : Op γ} {s r s'}, P op → I s → Answer B Fault op s r s' → I s') : I s' := by
  induction h with
  | here => exact hs
  | call hans _ ih => exact ih (hp.2 _) (hop hp.1 hs hans)

end Every

/-! ## Weakest preconditions under interference -/

/-- What surrounds a program: the effect of the operations, their faults, what the other parties
may do to the store before an operation, and what the program owes at each operation. -/
structure Setting (Op : Type → Type) (ε S : Type) extends Backend Op ε S where
  Fault : ε → Prop
  rely : {β : Type} → Op β → S → S → Prop
  oblige : {β : Type} → Op β → S → Prop

/-- The others may leave the store alone. -/
def Setting.Idle (C : Setting Op ε S) : Prop := ∀ {β : Type} (op : Op β) (s : S), C.rely op s s

/-- The weakest precondition of a program: before each operation the others act within the rely;
then the obligation holds, and every reply leads on to the postcondition. -/
def wp (C : Setting Op ε S) : Prog Op ε α → (α → S → Prop) → S → Prop
  | .done a, Q, s => Q a s
  | .call op k, Q, s => ∀ s₁, C.rely op s s₁ →
      C.oblige op s₁ ∧ ∀ r s₂, Answer C.toBackend C.Fault op s₁ r s₂ → wp C (k r) Q s₂

section Wp

variable {C : Setting Op ε S} {s : S}

@[simp] theorem wp_done {a : α} {Q : α → S → Prop} : wp C (.done a) Q s ↔ Q a s := Iff.rfl

theorem wp_bind {p : Prog Op ε α} {f : α → Prog Op ε β} {Q : β → S → Prop} :
    wp C (p.bind f) Q s ↔ wp C p (fun a s => wp C (f a) Q s) s := by
  induction p generalizing s with
  | done a => rfl
  | call op k ih =>
    simp only [Prog.bind, wp, ih]

theorem wp_mono {p : Prog Op ε α} {Q Q' : α → S → Prop} (hQ : ∀ a s, Q a s → Q' a s)
    (h : wp C p Q s) : wp C p Q' s := by
  induction p generalizing s with
  | done a => exact hQ _ _ h
  | call op k ih =>
    intro s₁ hs₁
    obtain ⟨ho, hr⟩ := h s₁ hs₁
    exact ⟨ho, fun r s₂ hans => ih r (hr r s₂ hans)⟩

/-- An undisturbed run ends in the postcondition. -/
theorem wp_sound (hC : C.Idle) {p : Prog Op ε α} {Q : α → S → Prop} {a : α} {s' : S}
    {tr : List (Entry Op ε)} (h : wp C p Q s) (hr : Runs C.toBackend C.Fault p s tr a s') :
    Q a s' := by
  induction hr with
  | done => exact h
  | call hans _ ih => exact ih ((h _ (hC _ _)).2 _ _ hans)

/-- **Run rule**: what every owed operation preserves holds wherever an undisturbed run
passes. -/
theorem wp_invariant (hC : C.Idle) {I : S → Prop}
    (hI : ∀ {β} {op : Op β} {s r s'}, I s → C.oblige op s →
      Answer C.toBackend C.Fault op s r s' → I s')
    {p : Prog Op ε α} {Q : α → S → Prop} {s' : S} {tr : List (Entry Op ε)} (h : wp C p Q s)
    (hs : I s) (hr : Visits C.toBackend C.Fault p s tr s') : I s' := by
  induction hr with
  | here => exact hs
  | call hans _ ih =>
    obtain ⟨ho, hk⟩ := h _ (hC _ _)
    exact ih (hk _ _ hans) (hI hs ho hans)

/-- A program alone, which owes nothing. -/
def Backend.alone (B : Backend Op ε S) (Fault : ε → Prop) : Setting Op ε S where
  toBackend := B
  Fault := Fault
  rely _ s s' := s' = s
  oblige _ _ := True

theorem Backend.alone_idle {B : Backend Op ε S} {Fault : ε → Prop} : (B.alone Fault).Idle :=
  fun _ _ => rfl

/-- Alone and without faults, an operation that can take effect does. -/
theorem wp_alone_call {B : Backend Op ε S} {op : Op β} {k : Except ε β → Prog Op ε α}
    {Q : α → S → Prop} {b : β} {s' : S} (h : B.exec op s = .ok (b, s'))
    (hk : wp (B.alone fun _ => False) (k (.ok b)) Q s') :
    wp (B.alone fun _ => False) (.call op k) Q s := by
  rintro s₁ rfl
  refine ⟨trivial, fun r s₂ hans => ?_⟩
  cases hans with
  | effect he =>
    obtain ⟨rfl, rfl⟩ := Prod.mk.inj (Except.ok.inj (h.symm.trans he))
    exact hk
  | refusal he => exact absurd (h.symm.trans he) nofun
  | fault hf => exact hf.elim

/-- The program performs its next operation. -/
theorem wp_answer {op : Op β} {k : Except ε β → Prog Op ε α} {Q : α → S → Prop}
    (h : wp C (.call op k) Q s) (hrefl : C.rely op s s) {r : Except ε β} {s' : S}
    (hans : Answer C.toBackend C.Fault op s r s') : C.oblige op s ∧ wp C (k r) Q s' :=
  ⟨(h s hrefl).1, (h s hrefl).2 r s' hans⟩

/-- The others act before it. -/
theorem wp_interfere {op : Op β} {k : Except ε β → Prog Op ε α} {Q : α → S → Prop}
    (h : wp C (.call op k) Q s) {s' : S} (htrans : ∀ {s''}, C.rely op s' s'' → C.rely op s s'') :
    wp C (.call op k) Q s' :=
  fun s₁ hs₁ => h s₁ (htrans hs₁)

/-- The others act where the program stands, and what they do keeps the postcondition. -/
theorem wp_stable {p : Prog Op ε α} {Q : α → S → Prop} {s' : S} (h : wp C p Q s)
    (htrans : ∀ {β} {op : Op β} {s''}, C.rely op s' s'' → C.rely op s s'')
    (hQ : ∀ a, Q a s → Q a s') : wp C p Q s' := by
  cases p with
  | done a => exact hQ a h
  | call op k => exact wp_interfere h htrans

/-- A program keeps its weakest precondition as part of a larger store, where the others and its
operations act on its own part as they do alone. -/
theorem wp_mapOp {Op' : Type → Type} {S' : Type} {C' : Setting Op' ε S'}
    {f : {β : Type} → Op β → Op' β} {P : S' → Prop} (view : S' → S)
    (hrely : ∀ {β} {op : Op β} {s s'}, P s → C'.rely (f op) s s' →
      P s' ∧ C.rely op (view s) (view s'))
    (hop : ∀ {β} {op : Op β} {s}, P s → C.oblige op (view s) → C'.oblige (f op) s ∧
      ∀ r s', Answer C'.toBackend C'.Fault (f op) s r s' →
        P s' ∧ Answer C.toBackend C.Fault op (view s) r (view s'))
    {p : Prog Op ε α} {Q : α → S → Prop} {s : S'} (hs : P s) (h : wp C p Q (view s)) :
    wp C' (p.mapOp f) (fun a s' => P s' ∧ Q a (view s')) s := by
  induction p generalizing s with
  | done a => exact ⟨hs, h⟩
  | call op k ih =>
    intro s₁ hs₁
    obtain ⟨hP, hC⟩ := hrely hs hs₁
    obtain ⟨ho, hk⟩ := h _ hC
    obtain ⟨ho', hans⟩ := hop hP ho
    refine ⟨ho', fun r s₂ hr => ?_⟩
    obtain ⟨hP₂, hr₂⟩ := hans r s₂ hr
    exact ih r hP₂ (hk r _ hr₂)

end Wp

/-! ## Programs that throw, and programs with private memory -/

section Throw

variable {C : Setting Op ε S} {s : S} {ξ M : Type}

/-- The postcondition that continues after a value and passes an exception on. -/
def onOk (Q : Except ξ β → S → Prop) (k : α → S → Prop) : Except ξ α → S → Prop
  | .ok a, s => k a s
  | .error e, s => Q (.error e) s

@[simp] theorem onOk_ok {Q : Except ξ β → S → Prop} {k : α → S → Prop} {a : α} :
    onOk Q k (.ok a) s ↔ k a s := Iff.rfl

@[simp] theorem onOk_error {Q : Except ξ β → S → Prop} {k : α → S → Prop} {e : ξ} :
    onOk Q k (.error e) s ↔ Q (.error e) s := Iff.rfl

/-- The weakest precondition of a program that may throw. -/
def wpThrow (C : Setting Op ε S) (p : ExceptT ξ (Prog Op ε) α) (Q : Except ξ α → S → Prop)
    (s : S) : Prop :=
  wp C p.run Q s

@[simp] theorem wpThrow_pure {a : α} {Q : Except ξ α → S → Prop} :
    wpThrow C (pure a) Q s ↔ Q (.ok a) s := Iff.rfl

@[simp] theorem wpThrow_throw {e : ξ} {Q : Except ξ α → S → Prop} :
    wpThrow C (throw e) Q s ↔ Q (.error e) s := Iff.rfl

/-- A result that is there already. -/
@[simp] theorem wpThrow_result {r : Except ξ α} {Q : Except ξ α → S → Prop} :
    wpThrow C (ExceptT.mk (.done r)) Q s ↔ Q r s := Iff.rfl

theorem wpThrow_bind {p : ExceptT ξ (Prog Op ε) α} {f : α → ExceptT ξ (Prog Op ε) β}
    {Q : Except ξ β → S → Prop} :
    wpThrow C (p >>= f) Q s ↔ wpThrow C p (onOk Q fun a s => wpThrow C (f a) Q s) s := by
  show wp C (p.run.bind _) Q s ↔ _
  rw [wp_bind]
  constructor <;> exact wp_mono fun r s h => by cases r <;> exact h

theorem wpThrow_map {p : ExceptT ξ (Prog Op ε) α} {g : α → β} {Q : Except ξ β → S → Prop} :
    wpThrow C (g <$> p) Q s ↔ wpThrow C p (fun r s => Q (r.map g) s) s := by
  show wp C (p.run.bind _) Q s ↔ _
  rw [wp_bind]
  constructor <;> exact wp_mono fun r s h => by cases r <;> exact h

theorem wpThrow_tryCatch {p : ExceptT ξ (Prog Op ε) α} {f : ξ → ExceptT ξ (Prog Op ε) α}
    {Q : Except ξ α → S → Prop} :
    wpThrow C (tryCatch p f) Q s ↔ wpThrow C p (fun r s => match r with
      | .ok a => Q (.ok a) s
      | .error e => wpThrow C (f e) Q s) s := by
  show wp C (p.run.bind _) Q s ↔ _
  rw [wp_bind]
  constructor <;> exact wp_mono fun r s h => by cases r <;> exact h

theorem wpThrow_mono {p : ExceptT ξ (Prog Op ε) α} {Q Q' : Except ξ α → S → Prop}
    (hQ : ∀ r s, Q r s → Q' r s) (h : wpThrow C p Q s) : wpThrow C p Q' s :=
  wp_mono hQ h

end Throw

section Process

variable {C : Setting Op ε S} {s : S} {ξ M : Type} {m : M}

/-- Programs that may throw, with a private memory that stays as it is when they do. -/
abbrev Process (Op : Type → Type) (ε ξ M : Type) : Type → Type 1 :=
  ExceptT ξ (StateT M (Prog Op ε))

/-- The weakest precondition of a process. -/
def wpProcess (C : Setting Op ε S) (p : Process Op ε ξ M α) (Q : Except ξ α → M → S → Prop) (m : M)
    (s : S) : Prop :=
  wp C (p.run.run m) (fun r s => Q r.1 r.2 s) s

/-- The postcondition that continues after a value and passes an exception on. -/
def andThen (Q : Except ξ β → M → S → Prop) (k : α → M → S → Prop) : Except ξ α → M → S → Prop
  | .ok a, m, s => k a m s
  | .error e, m, s => Q (.error e) m s

@[simp] theorem andThen_ok {Q : Except ξ β → M → S → Prop} {k : α → M → S → Prop} {a : α} :
    andThen Q k (.ok a) m s ↔ k a m s := Iff.rfl

@[simp] theorem andThen_error {Q : Except ξ β → M → S → Prop} {k : α → M → S → Prop} {e : ξ} :
    andThen Q k (.error e) m s ↔ Q (.error e) m s := Iff.rfl

/-- Run a program of the shared store within a process. -/
def Process.perform (p : Prog Op ε α) : Process Op ε ξ M α := ExceptT.lift (StateT.lift p)

@[simp] theorem wpProcess_pure {a : α} {Q : Except ξ α → M → S → Prop} :
    wpProcess C (pure a) Q m s ↔ Q (.ok a) m s := Iff.rfl

@[simp] theorem wpProcess_throw {e : ξ} {Q : Except ξ α → M → S → Prop} :
    wpProcess C (throw e) Q m s ↔ Q (.error e) m s := Iff.rfl

theorem wpProcess_bind {p : Process Op ε ξ M α} {f : α → Process Op ε ξ M β}
    {Q : Except ξ β → M → S → Prop} :
    wpProcess C (p >>= f) Q m s ↔
      wpProcess C p (andThen Q fun a m s => wpProcess C (f a) Q m s) m s := by
  show wp C ((p.run.run m).bind _) _ s ↔ _
  rw [wp_bind]
  constructor <;> exact wp_mono fun r s h => by
    obtain ⟨r | r, m⟩ := r <;> exact h

theorem wpProcess_map {p : Process Op ε ξ M α} {g : α → β} {Q : Except ξ β → M → S → Prop} :
    wpProcess C (g <$> p) Q m s ↔ wpProcess C p (fun r m s => Q (r.map g) m s) m s := by
  show wp C ((p.run.run m).bind _) _ s ↔ _
  rw [wp_bind]
  constructor <;> exact wp_mono fun r s h => by
    obtain ⟨r | r, m⟩ := r <;> exact h

@[simp] theorem wpProcess_get {Q : Except ξ M → M → S → Prop} :
    wpProcess C (get : Process Op ε ξ M M) Q m s ↔ Q (.ok m) m s := Iff.rfl

@[simp] theorem wpProcess_modify {f : M → M} {Q : Except ξ PUnit → M → S → Prop} :
    wpProcess C (modify f : Process Op ε ξ M PUnit) Q m s ↔ Q (.ok ⟨⟩) (f m) s := Iff.rfl

theorem wpProcess_perform {p : Prog Op ε α} {Q : Except ξ α → M → S → Prop} :
    wpProcess C (Process.perform p) Q m s ↔ wp C p (fun a s => Q (.ok a) m s) s := by
  show wp C ((p.bind fun a => Prog.done (a, m)).bind fun r => Prog.done (Except.ok r.1, r.2)) _ s ↔ _
  rw [wp_bind, wp_bind]
  exact Iff.rfl

end Process

end Interleaving
