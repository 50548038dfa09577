import BegetBridge.Interleaving.Transition

/-!
# Pools of calls

Calls of several kinds run at the same time over one store. Each performs the program of its kind, and
between any two of its operations the others may perform theirs. The store may also change by itself.
A call carries notes along: what it has done so far, which a condition on the steps may speak of.

What a call needs of the others is a preorder on the store, which depends on its notes. What it owes them
is that its own operations stay within theirs.

## Main definitions

* `Calls`: the kinds of calls, and what surrounds them
* `Pool`, `Pool.Step`: the calls in flight, and what happens
* `Condition`, `Pool.Meets`: a condition on the steps of a run
* `Calls.setting`, `Pool.Sound`: one call among the others, and a pool of such calls
* `Discipline`: the preorders, with what has to be shown about each kind of call

## Main results

* `Discipline.step`, `Discipline.run`: what a step and what a run preserve
* `play_path`: runs that are computed
-/

namespace Interleaving

variable {Op : Type → Type} {ε S κ N η α : Type}

/-- Calls of the kinds `κ`. An operation waits until the store is ready for it. -/
structure Calls (Op : Type → Type) (ε S κ N η α : Type) extends Backend Op ε S where
  Fault : ε → Prop
  ready : {β : Type} → Op β → S → Prop
  program : κ → Prog Op ε α
  notes : κ → N
  note : {β : Type} → Op β → β → S → N → N
  elsewhere : η → S → S → Prop

/-- A call in flight: its kind, its notes, and what is left of its program. -/
structure InFlight (Op : Type → Type) (ε κ N α : Type) : Type 1 where
  kind : κ
  notes : N
  rest : Prog Op ε α

/-- The store and the calls in flight. -/
structure Pool (Op : Type → Type) (ε S κ N α : Type) : Type 1 where
  store : S
  calls : Nat → Option (InFlight Op ε κ N α)

/-- What happens in a step. A call that returns shows its notes. -/
inductive Event (κ N η α : Type)
  | begins (i : Nat) (kind : κ)
  | operates (i : Nat)
  | returns (i : Nat) (kind : κ) (n : N) (a : α)
  | elsewhere (e : η)
  deriving DecidableEq

/-- No call is in flight. -/
def Pool.still (s : S) : Pool Op ε S κ N α := ⟨s, fun _ => none⟩

def Pool.put (p : Pool Op ε S κ N α) (i : Nat) (c : Option (InFlight Op ε κ N α)) :
    Pool Op ε S κ N α :=
  { p with calls := Function.update p.calls i c }

/-- The notes after a reply: an operation that fails adds nothing to them. -/
def Calls.noted {β : Type} (C : Calls Op ε S κ N η α) (op : Op β) (r : Except ε β) (s : S) (n : N) : N :=
  match r with
  | .ok b => C.note op b s n
  | .error _ => n

/-- One step: a call begins, performs an operation or returns, or the store changes by itself. -/
inductive Pool.Step (C : Calls Op ε S κ N η α) :
    Pool Op ε S κ N α → Event κ N η α → Pool Op ε S κ N α → Prop
  | begins {p : Pool Op ε S κ N α} {i : Nat} {kind : κ} (hi : p.calls i = none) :
      Step C p (.begins i kind) (p.put i (some ⟨kind, C.notes kind, C.program kind⟩))
  | operates {p : Pool Op ε S κ N α} {i : Nat} {kind : κ} {n : N} {β : Type} {op : Op β}
      {k : Except ε β → Prog Op ε α} {r : Except ε β} {s : S}
      (hi : p.calls i = some ⟨kind, n, .call op k⟩) (hready : C.ready op p.store)
      (hans : Answer C.toBackend C.Fault op p.store r s) :
      Step C p (.operates i) { p.put i (some ⟨kind, C.noted op r s n, k r⟩) with store := s }
  | returns {p : Pool Op ε S κ N α} {i : Nat} {kind : κ} {n : N} {a : α}
      (hi : p.calls i = some ⟨kind, n, .done a⟩) : Step C p (.returns i kind n a) (p.put i none)
  | elsewhere {p : Pool Op ε S κ N α} {e : η} {s : S} (h : C.elsewhere e p.store s) :
      Step C p (.elsewhere e) { p with store := s }

/-- A condition on steps, in the store before them: on an operation of a call and on the other calls in
flight beside it, and on what happens elsewhere, again beside the calls in flight. -/
structure Condition (Op : Type → Type) (S κ N η : Type) where
  operation : κ → N → {β : Type} → Op β → S → Prop
  beside : {β : Type} → Op β → S → κ → N → Prop
  elsewhere : η → S → Prop
  aside : η → S → κ → N → Prop

/-- The next step meets the condition. -/
def Pool.Meets (ok : Condition Op S κ N η) (p : Pool Op ε S κ N α) : Event κ N η α → Prop
  | .operates i => ∀ kind n (β : Type) (op : Op β) k, p.calls i = some ⟨kind, n, .call op k⟩ →
      ok.operation kind n op p.store ∧
        ∀ j c, j ≠ i → p.calls j = some c → ok.beside op p.store c.kind c.notes
  | .elsewhere e => ok.elsewhere e p.store ∧
      ∀ j c, p.calls j = some c → ok.aside e p.store c.kind c.notes
  | _ => True

/-- The steps that meet a condition. -/
def Pool.Steps (C : Calls Op ε S κ N η α) (ok : Condition Op S κ N η) :
    Pool Op ε S κ N α → Event κ N η α → Pool Op ε S κ N α → Prop :=
  Guarded (Pool.Meets ok) (Pool.Step C)

/-- What an operation owes: to keep within `B`, and within the rely of every call beside it. -/
def Condition.Owes (ok : Condition Op S κ N η) (R : κ → N → S → S → Prop) (B : S → S → Prop) {β : Type}
    (op : Op β) (s s' : S) : Prop :=
  B s s' ∧ ∀ kind n, ok.beside op s kind n → R kind n s s'

/-- A call of a kind among others, who move the store within its rely. -/
def Calls.setting (C : Calls Op ε S κ N η α) (ok : Condition Op S κ N η) (R : κ → N → S → S → Prop)
    (B : S → S → Prop) (kind : κ) : Setting Op ε (S × N) where
  exec op x := (C.exec op x.1).map fun r => (r.1, r.2, C.note op r.1 r.2 x.2)
  Fault := C.Fault
  rely op x x' := x'.2 = x.2 ∧ R kind x.2 x.1 x'.1 ∧ C.ready op x'.1 ∧ ok.operation kind x'.2 op x'.1
  oblige op x := ∀ r s, Answer C.toBackend C.Fault op x.1 r s → ok.Owes R B op x.1 s

/-- Every call in flight keeps to its part, and ends with `Q`. -/
def Pool.Sound (C : Calls Op ε S κ N η α) (ok : Condition Op S κ N η) (R : κ → N → S → S → Prop)
    (B : S → S → Prop) (Q : κ → N → α → S → Prop) (p : Pool Op ε S κ N α) : Prop :=
  ∀ i c, p.calls i = some c →
    wp (C.setting ok R B c.kind) c.rest (fun a x => Q c.kind x.2 a x.1) (p.store, c.notes)

/-- What is to be shown of the calls: what each of them relies on, and a preorder within which all steps
move the store. -/
structure Discipline (C : Calls Op ε S κ N η α) (ok : Condition Op S κ N η) (I : S → Prop)
    (R : κ → N → S → S → Prop) (B : S → S → Prop) (Q : κ → N → α → S → Prop) : Prop where
  refl : ∀ s, B s s
  trans : ∀ {a b c}, B a b → B b c → B a c
  keeps : ∀ {s s'}, I s → B s s' → I s'
  rely_refl : ∀ kind n s, R kind n s s
  rely_trans : ∀ {kind n a b c}, R kind n a b → R kind n b c → R kind n a c
  stable : ∀ {kind n a s s'}, Q kind n a s → R kind n s s' → Q kind n a s'
  elsewhere : ∀ {e s s'}, I s → ok.elsewhere e s → C.elsewhere e s s' →
    B s s' ∧ ∀ kind n, ok.aside e s kind n → R kind n s s'
  begins : ∀ {kind s}, I s → wp (C.setting ok R B kind) (C.program kind)
    (fun a x => Q kind x.2 a x.1) (s, C.notes kind)

section Calls

variable {C : Calls Op ε S κ N η α} {ok : Condition Op S κ N η} {I : S → Prop}
  {R : κ → N → S → S → Prop} {B : S → S → Prop} {Q : κ → N → α → S → Prop}
  {p p' : Pool Op ε S κ N α} {l : Event κ N η α} {i j : Nat} {c : Option (InFlight Op ε κ N α)}

@[simp] theorem Pool.put_self : (p.put i c).calls i = c := Function.update_self ..

@[simp] theorem Pool.put_of_ne (h : j ≠ i) : (p.put i c).calls j = p.calls j :=
  Function.update_of_ne h ..

theorem Pool.still_sound (s : S) : (Pool.still s : Pool Op ε S κ N α).Sound C ok R B Q :=
  fun _ _ h => absurd h nofun

/-- A reply to a call is a reply with its notes. -/
theorem answer_noted {β : Type} {op : Op β} {r : Except ε β} {s s' : S} {kind : κ} {n : N}
    (hans : Answer C.toBackend C.Fault op s r s') :
    Answer (C.setting ok R B kind).toBackend (C.setting ok R B kind).Fault op (s, n) r
      (s', C.noted op r s' n) := by
  cases hans with
  | effect he =>
    refine .effect ?_
    show (C.exec op s).map _ = _
    rw [he]
    rfl
  | refusal he =>
    refine .refusal ?_
    show (C.exec op s).map _ = _
    rw [he]
    rfl
  | fault hf => exact .fault hf

/-- **One operation of a call** among the others: where it is performed, it does what it owes, and leads
on. -/
theorem wp_setting_call {β γ : Type} {op : Op β} {k : Except ε β → Prog Op ε γ} {kind : κ} {s : S}
    {n : N} {P : γ → S × N → Prop}
    (h : ∀ s₁, R kind n s s₁ → C.ready op s₁ → ok.operation kind n op s₁ → ∀ r s₂,
      Answer C.toBackend C.Fault op s₁ r s₂ →
      ok.Owes R B op s₁ s₂ ∧ wp (C.setting ok R B kind) (k r) P (s₂, C.noted op r s₂ n)) :
    wp (C.setting ok R B kind) (.call op k) P (s, n) := by
  rintro ⟨s₁, n₁⟩ ⟨hn, hR, hready, hok⟩
  obtain rfl : n₁ = n := hn
  refine ⟨fun r s₂ hans => (h s₁ hR hready hok r s₂ hans).1, fun r x hans => ?_⟩
  obtain ⟨s₂, n₂⟩ := x
  -- a reply with notes is a reply, and these are the notes
  obtain ⟨hans', rfl⟩ : Answer C.toBackend C.Fault op s₁ r s₂ ∧ n₂ = C.noted op r s₂ n₁ := by
    cases hans with
    | effect he =>
      change (C.exec op s₁).map _ = _ at he
      rcases hexec : C.exec op s₁ with e | ⟨b, s'⟩
      · rw [hexec] at he
        exact absurd he nofun
      · rw [hexec] at he
        obtain ⟨rfl, hx⟩ := Prod.mk.inj (Except.ok.inj he)
        obtain ⟨rfl, rfl⟩ := Prod.mk.inj hx
        exact ⟨.effect hexec, rfl⟩
    | refusal he =>
      change (C.exec op s₁).map _ = _ at he
      rcases hexec : C.exec op s₁ with e | ⟨b, s'⟩
      · rw [hexec] at he
        obtain rfl := Except.error.inj he
        exact ⟨.refusal hexec, rfl⟩
      · rw [hexec] at he
        exact absurd he nofun
    | fault hf => exact ⟨.fault hf, rfl⟩
  exact (h s₁ hR hready hok r s₂ hans').2

namespace Discipline

/-- A call in flight stays on its way while the others act. -/
theorem interfered (hD : Discipline C ok I R B Q) {c : InFlight Op ε κ N α} {s s' : S}
    (hR : R c.kind c.notes s s')
    (h : wp (C.setting ok R B c.kind) c.rest (fun a x => Q c.kind x.2 a x.1) (s, c.notes)) :
    wp (C.setting ok R B c.kind) c.rest (fun a x => Q c.kind x.2 a x.1) (s', c.notes) := by
  refine wp_stable h ?_ fun a hQ => hD.stable hQ hR
  rintro β op ⟨s'', n⟩ ⟨hn, hR', hready, hok⟩
  exact ⟨hn, hD.rely_trans hR hR', hready, hok⟩

theorem put_sound (hD : Discipline C ok I R B Q) (hp : p.Sound C ok R B Q) {s : S}
    (hR : ∀ j c', j ≠ i → p.calls j = some c' → R c'.kind c'.notes p.store s)
    (hc : ∀ c', c = some c' →
      wp (C.setting ok R B c'.kind) c'.rest (fun a x => Q c'.kind x.2 a x.1) (s, c'.notes)) :
    ({ p.put i c with store := s } : Pool Op ε S κ N α).Sound C ok R B Q := by
  intro j c' hj
  by_cases hij : j = i
  · subst hij
    exact hc c' ((Pool.put_self (p := p)).symm.trans hj)
  · have hj' : p.calls j = some c' := (Pool.put_of_ne (p := p) hij).symm.trans hj
    exact hD.interfered (hR j c' hij hj') (hp j c' hj')

/-- **A step keeps a pool sound**, moves its store within `B`, and a call that returns has done what it
is for. -/
theorem step (hD : Discipline C ok I R B Q) (hp : p.Sound C ok R B Q) (hI : I p.store)
    (hs : Pool.Steps C ok p l p') :
    p'.Sound C ok R B Q ∧ B p.store p'.store ∧
      ∀ i kind n a, l = .returns i kind n a → Q kind n a p'.store := by
  obtain ⟨hok, hs⟩ := hs
  cases hs with
  | begins hi =>
    refine ⟨hD.put_sound hp (fun _ _ _ _ => hD.rely_refl _ _ _) fun c' hc => ?_, hD.refl _, nofun⟩
    obtain rfl := Option.some.inj hc
    exact hD.begins hI
  | operates hi hready hans =>
    -- the operation is one of those that the call may perform
    obtain ⟨hmeets, hbeside⟩ := hok _ _ _ _ _ hi
    obtain ⟨howes, hrest⟩ := wp_answer (hp _ _ hi) ⟨rfl, hD.rely_refl _ _ _, hready, hmeets⟩
      (answer_noted hans)
    obtain ⟨hB, hR⟩ := howes _ _ hans
    refine ⟨hD.put_sound hp (fun j c' hj hc' => hR _ _ (hbeside j c' hj hc')) fun c' hc => ?_, hB, nofun⟩
    obtain rfl := Option.some.inj hc
    exact hrest
  | returns hi =>
    refine ⟨hD.put_sound hp (fun _ _ _ _ => hD.rely_refl _ _ _) nofun, hD.refl _, ?_⟩
    rintro i' kind' n' a' heq
    obtain ⟨rfl, rfl, rfl, rfl⟩ := Event.returns.inj heq
    exact hp _ _ hi
  | elsewhere h =>
    obtain ⟨hB, hR⟩ := hD.elsewhere hI hok.1 h
    exact ⟨fun j c hj => hD.interfered (hR _ _ (hok.2 j c hj)) (hp j c hj), hB, nofun⟩

/-- **A run keeps a pool sound**, and from every state it passes it moves the store within `B`. -/
theorem run (hD : Discipline C ok I R B Q) (hp : p.Sound C ok R B Q) (hI : I p.store)
    {h : List (Event κ N η α × Pool Op ε S κ N α)} (hpath : Path (Pool.Steps C ok) p h p') :
    p'.Sound C ok R B Q ∧ B p.store p'.store ∧ ∀ x ∈ h, B x.2.store p'.store ∧
      ∀ i kind n a, x.1 = .returns i kind n a → Q kind n a x.2.store := by
  refine hpath.history (I := fun h p' => p'.Sound C ok R B Q ∧ B p.store p'.store ∧ ∀ x ∈ h,
    B x.2.store p'.store ∧ ∀ i kind n a, x.1 = .returns i kind n a → Q kind n a x.2.store)
    ⟨hp, hD.refl _, fun x hx => absurd hx List.not_mem_nil⟩ ?_
  rintro h s l s' - ⟨hs, hB, hall⟩ hstep
  obtain ⟨hs', hB', hQ⟩ := hD.step hs (hD.keeps hI hB) hstep
  refine ⟨hs', hD.trans hB hB', fun x hx => ?_⟩
  rcases List.mem_append.mp hx with hx | hx
  · exact ⟨hD.trans (hall x hx).1 hB', (hall x hx).2⟩
  · obtain rfl := List.mem_singleton.mp hx
    exact ⟨hD.refl _, hQ⟩

/-- Every state of such a run meets the invariant. -/
theorem passes (hD : Discipline C ok I R B Q) (hp : p.Sound C ok R B Q) (hI : I p.store)
    {h : List (Event κ N η α × Pool Op ε S κ N α)} (hpath : Path (Pool.Steps C ok) p h p')
    {x : Event κ N η α × Pool Op ε S κ N α} (hx : x ∈ h) : I x.2.store := by
  obtain ⟨k, hk⟩ := List.mem_iff_getElem?.mp hx
  obtain ⟨q, hp₁, hstep, -⟩ := hpath.step_at hk
  obtain ⟨hsound, hB, -⟩ := hD.run hp hI hp₁
  exact hD.keeps (hD.keeps hI hB) (hD.step hsound (hD.keeps hI hB) hstep).2.1

end Discipline

end Calls

/-! ## Runs that are computed -/

/-- Every step. -/
def Condition.any : Condition Op S κ N η :=
  ⟨fun _ _ _ _ _ => True, fun _ _ _ _ => True, fun _ _ => True, fun _ _ _ _ => True⟩

theorem Pool.step_of_steps {C : Calls Op ε S κ N η α} {ok : Condition Op S κ N η}
    {p p' : Pool Op ε S κ N α} {h : List (Event κ N η α × Pool Op ε S κ N α)}
    (hp : Path (Pool.Steps C ok) p h p') : Path (Pool.Step C) p h p' :=
  hp.mono fun hs => hs.2

/-- What happens next: a call begins, or takes its next step. -/
inductive Move (κ : Type)
  | start (i : Nat) (kind : κ)
  | go (i : Nat)

/-- The operations for which the store is ready, and that meet a condition, are decided. The calls beside
one do not matter. -/
class Decides (C : Calls Op ε S κ N η α) (ok : Condition Op S κ N η) where
  ready : ∀ {β : Type} (op : Op β) (s : S), Decidable (C.ready op s)
  operation : ∀ (kind : κ) (n : N) {β : Type} (op : Op β) (s : S), Decidable (ok.operation kind n op s)
  beside : ∀ {β : Type} (op : Op β) (s : S) (kind : κ) (n : N), ok.beside op s kind n

/-- One move without faults, where it is possible and meets the condition. -/
def Pool.move (C : Calls Op ε S κ N η α) (ok : Condition Op S κ N η) [d : Decides C ok]
    (p : Pool Op ε S κ N α) : Move κ → Option (Event κ N η α × Pool Op ε S κ N α)
  | .start i kind =>
    match p.calls i with
    | none => some (.begins i kind, p.put i (some ⟨kind, C.notes kind, C.program kind⟩))
    | some _ => none
  | .go i =>
    match p.calls i with
    | none => none
    | some ⟨kind, n, .done a⟩ => some (.returns i kind n a, p.put i none)
    | some ⟨kind, n, .call op k⟩ =>
      if (d.ready op p.store).decide && (d.operation kind n op p.store).decide then
        match C.exec op p.store with
        | .ok (b, s) =>
          some (.operates i, { p.put i (some ⟨kind, C.note op b s n, k (.ok b)⟩) with store := s })
        | .error e => some (.operates i, p.put i (some ⟨kind, n, k (.error e)⟩))
      else none

/-- The run of some moves: its history and its end. -/
def Pool.play (C : Calls Op ε S κ N η α) (ok : Condition Op S κ N η) [Decides C ok] :
    List (Move κ) → Pool Op ε S κ N α →
      Option (List (Event κ N η α × Pool Op ε S κ N α) × Pool Op ε S κ N α)
  | [], p => some ([], p)
  | m :: moves, p =>
    match p.move C ok m with
    | some x => (Pool.play C ok moves x.2).map fun r => (x :: r.1, r.2)
    | none => none

section Play

variable {C : Calls Op ε S κ N η α} {ok : Condition Op S κ N η} [d : Decides C ok]
  {p p' : Pool Op ε S κ N α}

theorem Pool.move_step {m : Move κ} {x : Event κ N η α × Pool Op ε S κ N α}
    (h : p.move C ok m = some x) : Pool.Steps C ok p x.1 x.2 := by
  cases m with
  | start i kind =>
    rw [Pool.move] at h
    split at h
    · rename_i hi
      obtain rfl := Option.some.inj h
      exact ⟨trivial, .begins hi⟩
    · exact absurd h nofun
  | go i =>
    rw [Pool.move] at h
    split at h
    · exact absurd h nofun
    · rename_i hi
      obtain rfl := Option.some.inj h
      exact ⟨trivial, .returns hi⟩
    · rename_i kind n β op k hi
      split at h
      · rename_i hdecided
        rw [Bool.and_eq_true] at hdecided
        have hready := @of_decide_eq_true _ (d.ready op p.store) hdecided.1
        have hmeets : p.Meets ok (.operates i : Event κ N η α) := by
          intro kind' n' β' op' k' hi'
          obtain ⟨rfl, rfl, hcall⟩ := InFlight.mk.inj (Option.some.inj (hi.symm.trans hi'))
          obtain ⟨rfl, hop, -⟩ := Prog.call.inj hcall
          obtain rfl := eq_of_heq hop
          exact ⟨@of_decide_eq_true _ (d.operation kind n op p.store) hdecided.2,
            fun _ c _ _ => d.beside op p.store c.kind c.notes⟩
        split at h
        · rename_i hexec
          obtain rfl := Option.some.inj h
          exact ⟨hmeets, .operates hi hready (.effect hexec)⟩
        · rename_i hexec
          obtain rfl := Option.some.inj h
          exact ⟨hmeets, .operates hi hready (.refusal hexec)⟩
      · exact absurd h nofun

/-- **A run that is computed is a run.** -/
theorem Pool.play_path {moves : List (Move κ)} {h : List (Event κ N η α × Pool Op ε S κ N α)}
    (hplay : Pool.play C ok moves p = some (h, p')) : Path (Pool.Steps C ok) p h p' := by
  induction moves generalizing p h with
  | nil =>
    obtain ⟨rfl, rfl⟩ := Prod.mk.inj (Option.some.inj hplay)
    exact .nil
  | cons m moves ih =>
    rw [Pool.play] at hplay
    split at hplay
    · rename_i x hx
      obtain ⟨⟨h', p₁⟩, hrest, heq⟩ := Option.map_eq_some_iff.mp hplay
      obtain ⟨rfl, rfl⟩ := Prod.mk.inj heq
      have hfirst : Path (Pool.Steps C ok) p [x] x.2 := .single (Pool.move_step hx)
      exact hfirst.trans (ih hrest)
    · exact absurd hplay nofun

end Play

end Interleaving
