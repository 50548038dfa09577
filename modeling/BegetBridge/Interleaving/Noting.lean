import BegetBridge.Interleaving.Ending
import BegetBridge.Interleaving.Pool

/-!
# Programs that are permitted what they do

What a program may do next can depend on the replies that it has had, and on nothing else: then others may
do what they want between its operations.

## Main definitions

* `Prog.Along`: every operation is permitted by what was noted of the replies before it
* `Script.Along`: the same for programs that throw
* `Due`, `Permitted`: what is left of a call in flight
* `Pool.Counts`: how many calls of a kind are in flight
* `Bears`, `Apart`: tokens that no two calls have

## Main results

* `Script.along_bind`, `Script.along_tryCatch`, `Script.along_andFinally`: the rules follow the program
* `Pool.apart_step`, `Pool.bears_step`: tokens stay apart, and are not lost
* `Pool.call_due`, `Pool.call_along`: in every run of a pool, each call is permitted what it still does
-/

namespace Interleaving

variable {Op : Type → Type} {ε S α β ξ N : Type}

/-- Whatever the replies are, every operation is permitted by the notes, and the value meets `Q` with them. -/
def Prog.Along (P : {γ : Type} → Op γ → N → Prop) (note : {γ : Type} → Op γ → Except ε γ → N → N) :
    Prog Op ε α → (α → N → Prop) → N → Prop
  | .done a, Q, n => Q a n
  | .call op k, Q, n => P op n ∧ ∀ r, (k r).Along P note Q (note op r n)

section Along

variable {P : {γ : Type} → Op γ → N → Prop} {note : {γ : Type} → Op γ → Except ε γ → N → N} {n : N}

theorem Prog.along_mono {p : Prog Op ε α} {Q Q' : α → N → Prop} (hQ : ∀ a n, Q a n → Q' a n)
    (h : p.Along P note Q n) : p.Along P note Q' n := by
  induction p generalizing n with
  | done a => exact hQ a n h
  | call op k ih => exact ⟨h.1, fun r => ih r (h.2 r)⟩

theorem Prog.along_bind {p : Prog Op ε β} {f : β → Prog Op ε α} {Q : α → N → Prop}
    (h : p.Along P note (fun b n => (f b).Along P note Q n) n) : (p.bind f).Along P note Q n := by
  induction p generalizing n with
  | done b => exact h
  | call op k ih => exact ⟨h.1, fun r => ih r (h.2 r)⟩

/-- A program of another store, whose operations are permitted and add nothing to the notes. -/
theorem Prog.along_mapOp {Op' : Type → Type} {f : {γ : Type} → Op' γ → Op γ} {p : Prog Op' ε α} {Q : α → N → Prop}
    (hP : ∀ {γ : Type} (op : Op' γ), P (f op) n) (hnote : ∀ {γ : Type} (op : Op' γ) r, note (f op) r n = n)
    (hQ : ∀ a, Q a n) : (p.mapOp f).Along P note Q n := by
  induction p with
  | done a => exact hQ a
  | call op k ih =>
    refine ⟨hP op, fun r => ?_⟩
    show ((k r).mapOp f).Along P note Q (note (f op) r n)
    rw [hnote op r]
    exact ih r

/-- What is permitted whatever was noted is all that the program does. -/
theorem Prog.every_of_along {P : {γ : Type} → Op γ → Prop} {p : Prog Op ε α} {Q : α → N → Prop}
    (h : p.Along (fun {_} op _ => P op) note Q n) : p.Every P := by
  induction p generalizing n with
  | done a => trivial
  | call op k ih => exact ⟨h.1, fun r => ih r (h.2 r)⟩

end Along

namespace Script

/-- A program that throws, permitted what it does. -/
def Along (P : {γ : Type} → Op γ → N → Prop) (note : {γ : Type} → Op γ → Except ε γ → N → N)
    (p : Script Op ε ξ α) (Q : Except ξ α → N → Prop) (n : N) : Prop :=
  Prog.Along P note p.run Q n

section Rules

variable {P : {γ : Type} → Op γ → N → Prop} {note : {γ : Type} → Op γ → Except ε γ → N → N} {n : N}
  {Q Q' : Except ξ α → N → Prop}

theorem along_mono {p : Script Op ε ξ α} (hQ : ∀ r n, Q r n → Q' r n) (h : Along P note p Q n) :
    Along P note p Q' n := Prog.along_mono hQ h

theorem along_pure {a : α} (h : Q (.ok a) n) : Along P note (pure a) Q n := h

theorem along_throw {e : ξ} (h : Q (.error e) n) : Along P note (throw e) Q n := h

theorem along_bind {p : Script Op ε ξ β} {f : β → Script Op ε ξ α}
    (h : Along P note p (fun r n =>
      match r with
      | .ok b => Along P note (f b) Q n
      | .error e => Q (.error e) n) n) : Along P note (p >>= f) Q n := by
  refine Prog.along_bind (Prog.along_mono ?_ h)
  rintro (e | b) n hQ
  · exact hQ
  · exact hQ

theorem along_perform {throws : ε → ξ} {op : Op α} (hP : P op n)
    (hok : ∀ a, Q (.ok a) (note op (.ok a) n)) (herror : ∀ e, Q (.error (throws e)) (note op (.error e) n)) :
    Along P note (perform throws op) Q n := by
  refine ⟨hP, ?_⟩
  rintro (e | a)
  · exact herror e
  · exact hok a

theorem along_tryCatch {p : Script Op ε ξ α} {f : ξ → Script Op ε ξ α}
    (h : Along P note p (fun r n =>
      match r with
      | .ok a => Q (.ok a) n
      | .error e => Along P note (f e) Q n) n) : Along P note (tryCatch p f) Q n := by
  refine Prog.along_bind (Prog.along_mono ?_ h)
  rintro (e | b) n hQ
  · exact hQ
  · exact hQ

theorem along_andFinally {p : Script Op ε ξ α} {last : Script Op ε ξ Unit}
    (h : Along P note p (fun r n => Along P note last (fun r' n =>
      Q (match r' with | .ok _ => r | .error e => .error e) n) n) n) :
    Along P note (p.andFinally last) Q n := by
  refine Prog.along_bind (Prog.along_mono ?_ h)
  intro r n hlast
  refine Prog.along_bind (Prog.along_mono ?_ hlast)
  rintro (e | b) n hQ
  · exact hQ
  · exact hQ

theorem along_ignored {p : Script Op ε ξ Unit} {Q : Except ξ Unit → N → Prop}
    (h : Along P note p (fun _ n => Q (.ok ()) n) n) : Along P note p.ignored Q n :=
  Prog.along_bind (Prog.along_mono (fun _ _ hQ => hQ) h)

end Rules

end Script

/-! ## In a pool -/

section Pool

variable {κ η M : Type} {C : Calls Op ε S κ N η α} {p p' : Pool Op ε S κ N α}
  {h : List (Event κ N η α × Pool Op ε S κ N α)}

/-- A call in flight after a change of one is that one, or it was there before. -/
theorem Pool.put_cases {q : Pool Op ε S κ N α} {i j : Nat} {c : Option (InFlight Op ε κ N α)}
    {d : InFlight Op ε κ N α} (hd : (q.put i c).calls j = some d) :
    j = i ∧ c = some d ∨ j ≠ i ∧ q.calls j = some d := by
  by_cases hij : j = i
  · subst hij
    exact .inl ⟨rfl, Pool.put_self.symm.trans hd⟩
  · exact .inr ⟨hij, (Pool.put_of_ne hij).symm.trans hd⟩

/-- The calls in flight of a kind, counted. -/
def Pool.Counts (p : Pool Op ε S κ N α) (P : InFlight Op ε κ N α → Prop) (n : Nat) : Prop :=
  ∃ l : List Nat, l.Nodup ∧ l.length = n ∧ ∀ i, i ∈ l ↔ ∃ c, p.calls i = some c ∧ P c

section Counts

variable {P : InFlight Op ε κ N α → Prop} {n i : Nat} {c : Option (InFlight Op ε κ N α)}

/-- Where none is counted there is none. -/
theorem Pool.Counts.none_of_zero (h : p.Counts P 0) {d : InFlight Op ε κ N α} (hd : p.calls i = some d) : ¬P d := by
  obtain ⟨l, -, hl, hmem⟩ := h
  intro hP
  have hi := (hmem i).mpr ⟨d, hd, hP⟩
  rw [List.eq_nil_of_length_eq_zero hl] at hi
  exact List.not_mem_nil hi

theorem Pool.exists_put {j : Nat} (hij : j ≠ i) :
    (∃ d, (p.put i c).calls j = some d ∧ P d) ↔ ∃ d, p.calls j = some d ∧ P d := by
  rw [Pool.put_of_ne hij]

theorem Pool.exists_put_self : (∃ d, (p.put i c).calls i = some d ∧ P d) ↔ ∃ d, c = some d ∧ P d := by
  rw [Pool.put_self]

/-- The number stays where a call counts as it did before. -/
theorem Pool.Counts.put_same (h : p.Counts P n)
    (hsame : (∃ d, c = some d ∧ P d) ↔ ∃ d, p.calls i = some d ∧ P d) : (p.put i c).Counts P n := by
  obtain ⟨l, hnodup, hl, hmem⟩ := h
  refine ⟨l, hnodup, hl, fun j => ?_⟩
  by_cases hij : j = i
  · subst hij
    rw [hmem, Pool.exists_put_self, hsame]
  · rw [hmem, Pool.exists_put hij]

/-- One more is counted. -/
theorem Pool.Counts.put_more (h : p.Counts P n) (hbefore : ¬∃ d, p.calls i = some d ∧ P d)
    (hafter : ∃ d, c = some d ∧ P d) : (p.put i c).Counts P (n + 1) := by
  obtain ⟨l, hnodup, hl, hmem⟩ := h
  have hi : i ∉ l := fun hi => hbefore ((hmem i).mp hi)
  refine ⟨i :: l, List.nodup_cons.mpr ⟨hi, hnodup⟩, by rw [List.length_cons, hl], fun j => ?_⟩
  by_cases hij : j = i
  · subst hij
    rw [Pool.exists_put_self]
    exact iff_of_true List.mem_cons_self hafter
  · rw [List.mem_cons, hmem, Pool.exists_put hij]
    simp [hij]

/-- One less is counted. -/
theorem Pool.Counts.put_less (h : p.Counts P n) (hbefore : ∃ d, p.calls i = some d ∧ P d)
    (hafter : ¬∃ d, c = some d ∧ P d) : (p.put i c).Counts P (n - 1) := by
  obtain ⟨l, hnodup, hl, hmem⟩ := h
  have hi : i ∈ l := (hmem i).mpr hbefore
  refine ⟨l.erase i, hnodup.erase i, by rw [List.length_erase_of_mem hi, hl], fun j => ?_⟩
  by_cases hij : j = i
  · subst hij
    rw [Pool.exists_put_self]
    exact iff_of_false (fun hj => (hnodup.mem_erase_iff.mp hj).1 rfl) hafter
  · rw [hnodup.mem_erase_iff, hmem, Pool.exists_put hij]
    simp [hij]

end Counts

/-- The call in flight with an index, or the one that returned at a place of the history, has a token in its notes. -/
def Bears {K : Type} (token : N → Option K) (h : List (Event κ N η α × Pool Op ε S κ N α)) (p : Pool Op ε S κ N α) :
    Nat ⊕ Nat → K → Prop
  | .inl i, k => ∃ c, p.calls i = some c ∧ token c.notes = some k
  | .inr j, k => ∃ i kind n r q, h[j]? = some (.returns i kind n r, q) ∧ token n = some k

/-- No two calls have one token. -/
def Apart {K : Type} (token : N → Option K) (h : List (Event κ N η α × Pool Op ε S κ N α)) (p : Pool Op ε S κ N α) :
    Prop :=
  ∀ x y k, Bears token h p x k → Bears token h p y k → x = y

section Tokens

variable {K : Type} {token : N → Option K} {l : Event κ N η α}

theorem apart_still {s : S} :
    Apart token ([] : List (Event κ N η α × Pool Op ε S κ N α)) (Pool.still s : Pool Op ε S κ N α) := by
  rintro (i | j) y k hx -
  · obtain ⟨c, hc, -⟩ := hx
    exact absurd hc (by simp [Pool.still])
  · obtain ⟨i, kind, n, r, q, hj, -⟩ := hx
    cases hj

/-- A return that is in a history with one more step that is none was there before. -/
theorem bears_inr_snoc {x : Event κ N η α × Pool Op ε S κ N α} {q : Pool Op ε S κ N α} {j : Nat} {k : K}
    (hj : Bears token (h ++ [x]) q (.inr j) k) (hx : ∀ i kind n r, x.1 ≠ .returns i kind n r) :
    Bears token h p (.inr j) k := by
  obtain ⟨i, kind, n, r, q', hj, hk⟩ := hj
  rcases getElem?_snoc_eq_some.mp hj with hj | ⟨-, rfl⟩
  · exact ⟨i, kind, n, r, q', hj, hk⟩
  · exact absurd rfl (hx i kind n r)

/-- **Tokens stay apart** in a step in which a call that gets a token gets a new one. -/
theorem Pool.apart_step (hp : Apart token h p) (hs : Pool.Step C p l p') (hstart : ∀ kind, token (C.notes kind) = none)
    (hop : ∀ {i : Nat} {kind : κ} {n : N} {β : Type} {op : Op β} {k : Except ε β → Prog Op ε α} {r : Except ε β} {s : S}
      {t : K}, l = .operates i → p.calls i = some ⟨kind, n, .call op k⟩ → Answer C.toBackend C.Fault op p.store r s →
      token (C.noted op r s n) = some t → token n = some t ∨ ∀ x, ¬Bears token h p x t) :
    Apart token (h ++ [(l, p')]) p' := by
  cases hs with
  | @begins i kind hi =>
    have hsame : ∀ x k, Bears token (h ++ [(.begins i kind, p.put i (some ⟨kind, C.notes kind, C.program kind⟩))])
        (p.put i (some ⟨kind, C.notes kind, C.program kind⟩)) x k → Bears token h p x k := by
      rintro (j | j) k hx
      · obtain ⟨c, hc, hk⟩ := hx
        rcases Pool.put_cases hc with ⟨-, heq⟩ | ⟨-, hc⟩
        · obtain rfl := Option.some.inj heq
          cases (hstart kind).symm.trans hk
        · exact ⟨c, hc, hk⟩
      · exact bears_inr_snoc hx fun _ _ _ _ => nofun
    exact fun x y k hx hy => hp x y k (hsame x k hx) (hsame y k hy)
  | @elsewhere e s he =>
    have hsame : ∀ x k, Bears token (h ++ [(.elsewhere e, { p with store := s })]) { p with store := s } x k →
        Bears token h p x k := by
      rintro (j | j) k hx
      · exact hx
      · exact bears_inr_snoc hx fun _ _ _ _ => nofun
    exact fun x y k hx hy => hp x y k (hsame x k hx) (hsame y k hy)
  | @operates i kind n β op k r s hi hready hans =>
    -- a token was there before, or this call has got it now
    have hcases : ∀ x t, Bears token (h ++ [(.operates i, { p.put i (some ⟨kind, C.noted op r s n, k r⟩) with store := s })])
        { p.put i (some ⟨kind, C.noted op r s n, k r⟩) with store := s } x t →
        Bears token h p x t ∨ x = .inl i ∧ ∀ y, ¬Bears token h p y t := by
      rintro (j | j) t hx
      · obtain ⟨c, hc, ht⟩ := hx
        rcases Pool.put_cases (q := p) hc with ⟨rfl, heq⟩ | ⟨-, hc⟩
        · obtain rfl := Option.some.inj heq
          rcases hop rfl hi hans ht with ht | hnew
          · exact .inl ⟨_, hi, ht⟩
          · exact .inr ⟨rfl, hnew⟩
        · exact .inl ⟨c, hc, ht⟩
      · exact .inl (bears_inr_snoc hx fun _ _ _ _ => nofun)
    intro x y t hx hy
    rcases hcases x t hx with hx | ⟨rfl, hnew⟩
    · rcases hcases y t hy with hy | ⟨rfl, hnew⟩
      · exact hp x y t hx hy
      · exact absurd hx (hnew x)
    · rcases hcases y t hy with hy | ⟨rfl, -⟩
      · exact absurd hy (hnew y)
      · rfl
  | @returns i kind n a hi =>
    -- the token of the call in flight is now that of the call at the end of the history
    have hcases : ∀ x k, Bears token (h ++ [(.returns i kind n a, p.put i none)]) (p.put i none) x k →
        (x ≠ .inl i ∧ Bears token h p x k) ∨ x = .inr h.length ∧ Bears token h p (.inl i) k := by
      rintro (j | j) k hx
      · obtain ⟨c, hc, hk⟩ := hx
        rcases Pool.put_cases hc with ⟨-, heq⟩ | ⟨hne, hc⟩
        · cases heq
        · exact .inl ⟨by simpa using hne, c, hc, hk⟩
      · obtain ⟨i', kind', m, r', q', hj, hk⟩ := hx
        rcases getElem?_snoc_eq_some.mp hj with hj | ⟨rfl, heq⟩
        · exact .inl ⟨nofun, i', kind', m, r', q', hj, hk⟩
        · obtain ⟨heq, -⟩ := Prod.mk.inj heq
          obtain ⟨rfl, rfl, rfl, rfl⟩ := Event.returns.inj heq
          exact .inr ⟨rfl, _, hi, hk⟩
    intro x y k hx hy
    rcases hcases x k hx with ⟨hxi, hx'⟩ | ⟨rfl, hx'⟩
    · rcases hcases y k hy with ⟨-, hy'⟩ | ⟨rfl, hy'⟩
      · exact hp x y k hx' hy'
      · exact absurd (hp x _ k hx' hy') hxi
    · rcases hcases y k hy with ⟨hyi, hy'⟩ | ⟨rfl, -⟩
      · exact absurd (hp y _ k hy' hx') hyi
      · rfl

/-- **Tokens are not lost** in a step in which a call with a token keeps it. -/
theorem Pool.bears_step {x : Nat ⊕ Nat} {t : K} (hx : Bears token h p x t) (hs : Pool.Step C p l p')
    (hop : ∀ {i : Nat} {kind : κ} {n : N} {β : Type} {op : Op β} {k : Except ε β → Prog Op ε α} {r : Except ε β} {s : S},
      l = .operates i → p.calls i = some ⟨kind, n, .call op k⟩ → Answer C.toBackend C.Fault op p.store r s →
      token n = some t → token (C.noted op r s n) = some t) : ∃ y, Bears token (h ++ [(l, p')]) p' y t := by
  cases x with
  | inr j =>
    obtain ⟨i, kind, n, r, q, hj, ht⟩ := hx
    exact ⟨.inr j, i, kind, n, r, q, getElem?_append_some hj, ht⟩
  | inl i =>
    obtain ⟨c, hc, ht⟩ := hx
    cases hs with
    | @begins j kind hj =>
      have hij : i ≠ j := fun heq => Option.some_ne_none _ (hc.symm.trans (heq ▸ hj))
      exact ⟨.inl i, c, (Pool.put_of_ne hij).trans hc, ht⟩
    | elsewhere he => exact ⟨.inl i, c, hc, ht⟩
    | @operates j kind n β op k r s hj hready hans =>
      by_cases hij : i = j
      · subst hij
        obtain rfl := Option.some.inj (hc.symm.trans hj)
        exact ⟨.inl i, _, Pool.put_self (p := p), hop rfl hj hans ht⟩
      · exact ⟨.inl i, c, (Pool.put_of_ne (p := p) hij).trans hc, ht⟩
    | @returns j kind n a hj =>
      by_cases hij : i = j
      · subst hij
        obtain rfl := Option.some.inj (hc.symm.trans hj)
        exact ⟨.inr h.length, i, kind, n, a, _, List.getElem?_concat_length, ht⟩
      · exact ⟨.inl i, c, (Pool.put_of_ne hij).trans hc, ht⟩

end Tokens

/-- A call is permitted what it still does, it ends in `Q`, and its notes meet an invariant. -/
def Due (P : κ → {γ : Type} → Op γ → M → Prop) (note : κ → {γ : Type} → Op γ → Except ε γ → M → M)
    (Q : κ → α → M → Prop) (I : κ → M → N → Prop) (c : InFlight Op ε κ N α) : Prop :=
  ∃ known, c.rest.Along (P c.kind) (note c.kind) (Q c.kind) known ∧ I c.kind known c.notes

/-- A call is permitted what it still does, and its notes meet an invariant. -/
def Permitted (P : κ → {γ : Type} → Op γ → M → Prop) (note : κ → {γ : Type} → Op γ → Except ε γ → M → M)
    (I : κ → M → N → Prop) (c : InFlight Op ε κ N α) : Prop :=
  ∃ known, c.rest.Along (P c.kind) (note c.kind) (fun _ _ => True) known ∧ I c.kind known c.notes

/-- **Each call is permitted what it still does, and ends as it should**, in every run of a pool: whatever the
others do between its operations, a reply that it has is noted. -/
theorem Pool.call_due (P : κ → {γ : Type} → Op γ → M → Prop)
    (note : κ → {γ : Type} → Op γ → Except ε γ → M → M) (Q : κ → α → M → Prop) (I : κ → M → N → Prop)
    (start : κ → M) (hstart : ∀ kind, (C.program kind).Along (P kind) (note kind) (Q kind) (start kind))
    (hI : ∀ kind, I kind (start kind) (C.notes kind))
    (hstep : ∀ kind known n {γ : Type} (op : Op γ) (r : Except ε γ) (s s' : S), I kind known n → P kind op known →
      Answer C.toBackend C.Fault op s r s' → I kind (note kind op r known) (C.noted op r s' n))
    (hp : ∀ i c, p.calls i = some c → Due P note Q I c) (hpath : Path (Pool.Step C) p h p') :
    ∀ i c, p'.calls i = some c → Due P note Q I c := by
  refine hpath.history (I := fun _ p' => ∀ i c, p'.calls i = some c → Due P note Q I c) hp ?_
  rintro _ q l q' - hq hs j c hc
  cases hs with
  | @begins i kind hi =>
    by_cases hij : j = i
    · subst hij
      obtain rfl := Option.some.inj ((Pool.put_self (p := q)).symm.trans hc)
      exact ⟨start kind, hstart kind, hI kind⟩
    · exact hq j c ((Pool.put_of_ne (p := q) hij).symm.trans hc)
  | @operates i kind n γ op k r s hi hready hans =>
    by_cases hij : j = i
    · subst hij
      obtain rfl := Option.some.inj ((Pool.put_self (p := q)).symm.trans hc)
      obtain ⟨known, ⟨hpermit, hrest⟩, hnotes⟩ := hq _ _ hi
      exact ⟨_, hrest r, hstep kind known n op r _ _ hnotes hpermit hans⟩
    · exact hq j c ((Pool.put_of_ne (p := q) hij).symm.trans hc)
  | @returns i kind n a hi =>
    by_cases hij : j = i
    · subst hij
      exact absurd ((Pool.put_self (p := q)).symm.trans hc) nofun
    · exact hq j c ((Pool.put_of_ne (p := q) hij).symm.trans hc)
  | elsewhere _ => exact hq j c hc

/-- **Each call is permitted what it still does**, in every run of a pool. -/
theorem Pool.call_along (P : κ → {γ : Type} → Op γ → M → Prop)
    (note : κ → {γ : Type} → Op γ → Except ε γ → M → M) (I : κ → M → N → Prop) (start : κ → M)
    (hstart : ∀ kind, (C.program kind).Along (P kind) (note kind) (fun _ _ => True) (start kind))
    (hI : ∀ kind, I kind (start kind) (C.notes kind))
    (hstep : ∀ kind known n {γ : Type} (op : Op γ) (r : Except ε γ) (s s' : S), I kind known n → P kind op known →
      Answer C.toBackend C.Fault op s r s' → I kind (note kind op r known) (C.noted op r s' n))
    (hp : ∀ i c, p.calls i = some c → Permitted P note I c) (hpath : Path (Pool.Step C) p h p') :
    ∀ i c, p'.calls i = some c → Permitted P note I c :=
  Pool.call_due P note (fun _ _ _ => True) I start hstart hI hstep hp hpath

end Pool

end Interleaving
