import BegetBridge.Interleaving.Program

/-!
# Runs of a transition system and their histories

A run of a labelled step relation, with the history of its labels and of the states they lead to.
What an invariant says may speak of the history: which labels came before, and at which place.

## Main definitions

* `Path`: runs with their histories
* `Guarded`: runs whose steps all meet a condition on the state before them

## Main results

* `Path.invariant`, `Path.history`: the induction rules
* `Path.append_iff`, `Path.step_at`: a run is cut at any place of its history
* `Visits.countP_add_le`, `Path.sum_add_le`: what happens only once
-/

namespace Interleaving

universe u v w

variable {σ : Type u} {ℓ : Type v}

/-- A run from `s₀` to a state, with its history, oldest step first. -/
inductive Path (step : σ → ℓ → σ → Prop) (s₀ : σ) : List (ℓ × σ) → σ → Prop
  | nil : Path step s₀ [] s₀
  | snoc {h : List (ℓ × σ)} {s : σ} {l : ℓ} {s' : σ} (hp : Path step s₀ h s) (hs : step s l s') :
      Path step s₀ (h ++ [(l, s')]) s'

/-- The steps that meet a condition on the state before them. -/
def Guarded (ok : σ → ℓ → Prop) (step : σ → ℓ → σ → Prop) (s : σ) (l : ℓ) (s' : σ) : Prop :=
  ok s l ∧ step s l s'

/-- What is at a place of a history stays there. -/
theorem getElem?_append_some {α : Type w} {h h' : List α} {i : Nat} {x : α} (hx : h[i]? = some x) :
    (h ++ h')[i]? = some x := by
  rw [List.getElem?_append_left (List.getElem?_eq_some_iff.mp hx).1, hx]

/-- The places of a history with one more step. -/
theorem getElem?_snoc_eq_some {α : Type w} {h : List α} {i : Nat} {x y : α} :
    (h ++ [y])[i]? = some x ↔ h[i]? = some x ∨ i = h.length ∧ y = x := by
  rcases lt_trichotomy i h.length with hlt | rfl | hgt
  · rw [List.getElem?_append_left hlt]
    exact ⟨.inl, fun hx => hx.resolve_right fun he => absurd he.1 hlt.ne⟩
  · rw [List.getElem?_concat_length]
    simp
  · rw [List.getElem?_eq_none (by simp; omega), List.getElem?_eq_none hgt.le]
    simp [hgt.ne']

namespace Path

variable {step : σ → ℓ → σ → Prop} {s₀ s s' : σ} {h h' : List (ℓ × σ)}

theorem single {l : ℓ} (hs : step s l s') : Path step s [(l, s')] s' := snoc nil hs

theorem nil_iff : Path step s₀ [] s ↔ s = s₀ := by
  constructor
  · generalize hh : ([] : List (ℓ × σ)) = h
    rintro (_ | _)
    · rfl
    · exact absurd hh (by simp)
  · rintro rfl
    exact nil

theorem snoc_iff {x : ℓ × σ} :
    Path step s₀ (h ++ [x]) s ↔ ∃ s₁, Path step s₀ h s₁ ∧ step s₁ x.1 s ∧ x.2 = s := by
  constructor
  · generalize hh : h ++ [x] = h'
    rintro (_ | ⟨hp, hs⟩)
    · exact absurd hh (by simp)
    · obtain ⟨rfl, hx⟩ := List.append_inj' hh rfl
      obtain rfl := List.singleton_inj.mp hx
      exact ⟨_, hp, hs, rfl⟩
  · rintro ⟨s₁, hp, hs, rfl⟩
    exact hp.snoc hs

/-- A run through a history is a run through its first part and one through the rest. -/
theorem append_iff : Path step s₀ (h ++ h') s ↔ ∃ s₁, Path step s₀ h s₁ ∧ Path step s₁ h' s := by
  induction h' using List.reverseRecOn generalizing s with
  | nil => simp [nil_iff]
  | append_singleton h' x ih =>
    rw [← List.append_assoc, snoc_iff]
    simp only [ih, snoc_iff]
    constructor
    · rintro ⟨s₂, ⟨s₁, h₁, h₂⟩, hs⟩
      exact ⟨s₁, h₁, s₂, h₂, hs⟩
    · rintro ⟨s₁, h₁, s₂, h₂, hs⟩
      exact ⟨s₂, ⟨s₁, h₁, h₂⟩, hs⟩

theorem trans (hp : Path step s₀ h s) (hp' : Path step s h' s') : Path step s₀ (h ++ h') s' :=
  append_iff.mpr ⟨s, hp, hp'⟩

/-- The step at a place of the history, between the run before it and the run after it. -/
theorem step_at {i : Nat} {x : ℓ × σ} (hp : Path step s₀ h s) (hx : h[i]? = some x) :
    ∃ s₁, Path step s₀ (h.take i) s₁ ∧ step s₁ x.1 x.2 ∧ Path step x.2 (h.drop (i + 1)) s := by
  obtain ⟨hi, rfl⟩ := List.getElem?_eq_some_iff.mp hx
  have hh : h = h.take i ++ ([h[i]] ++ h.drop (i + 1)) := by simp
  rw [hh] at hp
  obtain ⟨s₁, h₁, hp⟩ := append_iff.mp hp
  obtain ⟨s₂, h₂, h₃⟩ := append_iff.mp hp
  rw [← List.nil_append [h[i]], snoc_iff] at h₂
  obtain ⟨s₁', hnil, hs, rfl⟩ := h₂
  obtain rfl := nil_iff.mp hnil
  exact ⟨_, h₁, hs, h₃⟩

/-- What holds at first and is preserved by every step holds along the run. -/
theorem invariant {I : σ → Prop} (hp : Path step s₀ h s) (h0 : I s₀)
    (hstep : ∀ {s l s'}, I s → step s l s' → I s') : I s := by
  induction hp with
  | nil => exact h0
  | snoc _ hs ih => exact hstep ih hs

/-- The same for what also speaks of the history. -/
theorem history {I : List (ℓ × σ) → σ → Prop} (hp : Path step s₀ h s) (h0 : I [] s₀)
    (hstep : ∀ {h s l s'}, Path step s₀ h s → I h s → step s l s' → I (h ++ [(l, s')]) s') :
    I h s := by
  induction hp with
  | nil => exact h0
  | snoc hp hs ih => exact hstep hp ih hs

/-- A run moves the state along any preorder that every step respects. -/
theorem related {R : σ → σ → Prop} (hp : Path step s₀ h s) (hrefl : ∀ s, R s s)
    (htrans : ∀ {a b c}, R a b → R b c → R a c) (hstep : ∀ {s l s'}, step s l s' → R s s') :
    R s₀ s :=
  hp.invariant (hrefl _) fun hr hs => htrans hr (hstep hs)

theorem mono {step' : σ → ℓ → σ → Prop} (hp : Path step s₀ h s)
    (hstep : ∀ {s l s'}, step s l s' → step' s l s') : Path step' s₀ h s := by
  induction hp with
  | nil => exact nil
  | snoc _ hs ih => exact ih.snoc (hstep hs)

end Path

/-! ## What happens only once -/

section Once

open Classical in
/-- `1` once `P` holds. -/
noncomputable def happened (P : Prop) : Nat := if P then 1 else 0

theorem happened_le_one (P : Prop) : happened P ≤ 1 := by
  unfold happened
  split <;> simp

theorem happened_mono {P P' : Prop} (h : P → P') : happened P ≤ happened P' := by
  unfold happened
  split
  · exact (if_pos (h ‹_›)).ge
  · exact Nat.zero_le _

theorem happened_lt {P P' : Prop} (h : ¬P) (h' : P') : 1 + happened P ≤ happened P' := by
  simp [happened, h, h']

variable {Op : Type → Type} {ε S α : Type} {B : Backend Op ε S} {Fault : ε → Prop}
  {q : Entry Op ε → Bool} {P : S → Prop}

/-- **Once only**: where a traced operation of kind `q` finds `P` false and leaves it true for
good, a run that starts after `P` has none, and any run has at most one, also where it is cut. -/
theorem Visits.countP_add_le
    (hkeep : ∀ {γ} {op : Op γ} {s r s'}, Answer B Fault op s r s' → P s → P s')
    (hq : ∀ {γ} {op : Op γ} {s r s'}, Answer B Fault op s r s' → q ⟨op, r⟩ = true → ¬P s ∧ P s')
    {p : Prog Op ε α} {s s' : S} {tr : List (Entry Op ε)} (h : Visits B Fault p s tr s') :
    tr.countP q + happened (P s) ≤ happened (P s') := by
  induction h with
  | here => simp
  | @call _ op k s s₁ s₂ r tr hans _ ih =>
    rw [List.countP_cons]
    split
    · rename_i hqe
      obtain ⟨hno, hyes⟩ := hq hans hqe
      have := happened_lt hno hyes
      omega
    · have := happened_mono (hkeep hans)
      omega

/-- The same along a run of a system whose labels carry counts. -/
theorem Path.sum_add_le {step : σ → ℓ → σ → Prop} {s₀ s : σ} {h : List (ℓ × σ)}
    {count : ℓ → Nat} {P : σ → Prop} (hp : Path step s₀ h s)
    (hstep : ∀ {s l s'}, step s l s' → count l + happened (P s) ≤ happened (P s')) :
    (h.map fun x => count x.1).sum + happened (P s₀) ≤ happened (P s) := by
  induction hp with
  | nil => simp
  | snoc _ hs ih =>
    have := hstep hs
    simp only [List.map_append, List.map_cons, List.map_nil, List.sum_append, List.sum_cons,
      List.sum_nil]
    omega

end Once

end Interleaving
