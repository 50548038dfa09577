import Mathlib

/-!
# Tables with uniqueness constraints

A table holds its rows in insertion order. Its declared constraints (primary keys, unique and
partial unique indexes) are one symmetric test `clash` on pairs of rows: two rows that clash
never stand in one table. The table carries that as a field, so a statement that would break a
constraint has no resulting table and fails.

## Main definitions

* `RowKind`: the constraints of a kind of row
* `Table`: rows no two of which clash
* `Table.select`, `Table.insert`, `Table.update`: the statements, as partial functions
* `Table.rewrite`: an update that leaves the constrained columns alone, which cannot fail
* `Table.upsert`, `Table.delete`: the statements that cannot fail
* `Table.Grows`: every row lives on, changed only as a relation allows

## Main results

* `Table.eq_of_clash`: clashing rows of one table are the same row
* `Table.mem_insert`, `Table.mem_update`, `Table.mem_rewrite`: the rows after a statement
* `Table.select_of_mem`: a selection by key finds the row that has the key
* `Table.select_upsert`, `Table.select_delete`: what a selection by key finds after a statement
* `Table.Grows.insert`, `Table.Grows.rewrite`: which statements a table grows by
-/

namespace Relational

universe u

/-- The uniqueness constraints of a kind of row: `clash r r'` when no table holds both. -/
class RowKind (ρ : Type u) where
  clash : ρ → ρ → Bool
  clash_self : ∀ r, clash r r = true
  clash_symm : ∀ r r', clash r r' = clash r' r

export RowKind (clash clash_self clash_symm)

variable {ρ : Type u} [RowKind ρ]

/-- No row of the list clashes with another one. -/
abbrev Distinct (rows : List ρ) : Prop := rows.Pairwise fun r r' => clash r r' = false

variable (ρ) in
/-- A table: its rows in insertion order, with every constraint satisfied. -/
structure Table where
  rows : List ρ
  distinct : Distinct rows

/-- An assignment that leaves every constrained column as it is. -/
structure KeepsKeys (f : ρ → ρ) : Prop where
  clash_left : ∀ r r', clash (f r) r' = clash r r'

namespace Table

/-- The table without rows. -/
def empty : Table ρ := ⟨[], List.Pairwise.nil⟩

instance : Membership ρ (Table ρ) := ⟨fun t r => r ∈ t.rows⟩

instance [DecidableEq ρ] (r : ρ) (t : Table ρ) : Decidable (r ∈ t) :=
  inferInstanceAs (Decidable (r ∈ t.rows))

@[simp] theorem mem_rows {t : Table ρ} {r : ρ} : r ∈ t.rows ↔ r ∈ t := Iff.rfl

@[simp] theorem not_mem_empty {r : ρ} : r ∉ (empty : Table ρ) := List.not_mem_nil

variable (t : Table ρ)

/-- `SELECT … WHERE p`, first row. -/
def select (p : ρ → Bool) : Option ρ := t.rows.find? p

/-- `INSERT`: fails when the new row clashes with one that is there. -/
def insert (r : ρ) : Option (Table ρ) :=
  if h : Distinct (t.rows ++ [r]) then some ⟨t.rows ++ [r], h⟩ else none

/-- `UPDATE … SET f WHERE sel`: fails when the updated rows clash. -/
def update (sel : ρ → Bool) (f : ρ → ρ) : Option (Table ρ) :=
  if h : Distinct (t.rows.map fun r => if sel r then f r else r) then some ⟨_, h⟩ else none

/-- The number of rows a `WHERE sel` reaches. -/
def changes (sel : ρ → Bool) : Nat := (t.rows.filter sel).length

variable {t}

/-- **Rows that clash are one row.** -/
theorem eq_of_clash {r r' : ρ} (hr : r ∈ t) (hr' : r' ∈ t) (h : clash r r' = true) : r = r' := by
  by_contra hne
  have : Std.Symm fun a b : ρ => clash a b = false := ⟨fun a b hab => (clash_symm b a).trans hab⟩
  have hdiff := t.distinct.forall hr hr' hne
  rw [hdiff] at h
  exact Bool.noConfusion h

/-- A table has no row twice. -/
theorem nodup (t : Table ρ) : t.rows.Nodup :=
  t.distinct.imp fun h heq => by
    rw [heq, clash_self] at h
    exact Bool.noConfusion h

theorem mem_of_select {p : ρ → Bool} {r : ρ} (h : t.select p = some r) : r ∈ t ∧ p r = true :=
  ⟨List.mem_of_find?_eq_some h, List.find?_some h⟩

theorem select_eq_none {p : ρ → Bool} : t.select p = none ↔ ∀ r ∈ t, p r = false := by
  simp [select]

/-- A selection that only one row can meet finds it. -/
theorem select_of_mem {p : ρ → Bool} {r : ρ} (hr : r ∈ t) (hp : p r = true)
    (hkey : ∀ r' ∈ t, p r' = true → clash r' r = true) : t.select p = some r := by
  cases h : t.select p with
  | none =>
    rw [select_eq_none.mp h r hr] at hp
    exact absurd hp Bool.false_ne_true
  | some r' =>
    obtain ⟨hmem, hp'⟩ := mem_of_select h
    rw [eq_of_clash hmem hr (hkey r' hmem hp')]

/-- A selection that only one row can meet changes that row. -/
theorem changes_of_mem {sel : ρ → Bool} {r : ρ} (hr : r ∈ t) (hsel : sel r = true)
    (hkey : ∀ r' ∈ t, sel r' = true → clash r' r = true) : t.changes sel = 1 := by
  have hmem : r ∈ t.rows.filter sel := List.mem_filter.mpr ⟨hr, hsel⟩
  have hall : ∀ x ∈ t.rows.filter sel, x = r := by
    intro x hx
    obtain ⟨hx, hxsel⟩ := List.mem_filter.mp hx
    exact eq_of_clash hx hr (hkey x hx hxsel)
  have hnodup : (t.rows.filter sel).Nodup := t.nodup.filter sel
  rw [changes]
  rcases hrows : t.rows.filter sel with _ | ⟨x, _ | ⟨y, rest⟩⟩
  · rw [hrows] at hmem
    exact absurd hmem List.not_mem_nil
  · rfl
  · -- two rows would be the same one
    rw [hrows] at hall hnodup
    have hxy : x = y := (hall x (by simp)).trans (hall y (by simp)).symm
    rw [hxy] at hnodup
    exact absurd List.mem_cons_self (List.nodup_cons.mp hnodup).1

theorem insert_eq_some {r : ρ} {t' : Table ρ} (h : t.insert r = some t') :
    t'.rows = t.rows ++ [r] ∧ ∀ x ∈ t, clash x r = false := by
  unfold insert at h
  split at h
  · rename_i hd
    obtain rfl := Option.some.inj h
    refine ⟨rfl, fun x hx => ?_⟩
    exact (List.pairwise_append.mp hd).2.2 x hx r (List.mem_singleton.mpr rfl)
  · exact absurd h (by simp)

theorem mem_insert {r x : ρ} {t' : Table ρ} (h : t.insert r = some t') :
    x ∈ t' ↔ x ∈ t ∨ x = r := by
  rw [← mem_rows, (insert_eq_some h).1, List.mem_append, List.mem_singleton]
  rfl

/-- A selection finds the new row where it found none. -/
theorem select_insert {p : ρ → Bool} {r : ρ} {t' : Table ρ} (h : t.insert r = some t') :
    t'.select p = (t.select p).or (if p r then some r else none) := by
  rw [select, select, (insert_eq_some h).1, List.find?_append, List.find?_singleton]

/-- A row that clashes with none of the table can be inserted. -/
theorem exists_insert {r : ρ} (h : ∀ x ∈ t, clash x r = false) : ∃ t', t.insert r = some t' := by
  refine ⟨⟨t.rows ++ [r], ?_⟩, dif_pos _⟩
  exact List.pairwise_append.mpr ⟨t.distinct, List.pairwise_singleton _ _,
    fun x hx y hy => by rw [List.mem_singleton.mp hy]; exact h x hx⟩

theorem update_eq_some {sel : ρ → Bool} {f : ρ → ρ} {t' : Table ρ}
    (h : t.update sel f = some t') : t'.rows = t.rows.map fun r => if sel r then f r else r := by
  unfold update at h
  split at h
  · obtain rfl := Option.some.inj h
    rfl
  · exact absurd h (by simp)

theorem mem_update {sel : ρ → Bool} {f : ρ → ρ} {t' : Table ρ} {x : ρ}
    (h : t.update sel f = some t') : x ∈ t' ↔ ∃ r ∈ t, x = if sel r then f r else r := by
  rw [← mem_rows, update_eq_some h, List.mem_map]
  exact exists_congr fun r => and_congr_right fun _ => eq_comm

section Rewrite

variable (t) (sel : ρ → Bool) {f : ρ → ρ}

theorem clash_rewrite (hf : KeepsKeys f) (r r' : ρ) :
    clash (if sel r then f r else r) (if sel r' then f r' else r') = clash r r' := by
  have hleft : ∀ a b : ρ, clash (if sel a then f a else a) b = clash a b := fun a b => by
    split
    · exact hf.clash_left a b
    · rfl
  rw [hleft, clash_symm, hleft, clash_symm]

/-- An `UPDATE` of columns no constraint mentions. -/
def rewrite (hf : KeepsKeys f) : Table ρ :=
  ⟨t.rows.map fun r => if sel r then f r else r, by
    rw [Distinct, List.pairwise_map]
    exact t.distinct.imp fun h => by rw [clash_rewrite sel hf]; exact h⟩

variable {t sel}

theorem mem_rewrite {hf : KeepsKeys f} {x : ρ} :
    x ∈ t.rewrite sel hf ↔ ∃ r ∈ t, x = if sel r then f r else r := by
  rw [← mem_rows, rewrite, List.mem_map]
  exact exists_congr fun r => and_congr_right fun _ => eq_comm

theorem mem_rewrite_of_mem (hf : KeepsKeys f) {r : ρ} (hr : r ∈ t) :
    (if sel r then f r else r) ∈ t.rewrite sel hf :=
  mem_rewrite.mpr ⟨r, hr, rfl⟩

end Rewrite

/-! ## Upsert and delete -/

section Upsert

variable (t)

/-- `DELETE … WHERE p` -/
def delete (p : ρ → Bool) : Table ρ :=
  ⟨t.rows.filter fun r => !p r, t.distinct.sublist List.filter_sublist⟩

/-- `INSERT … ON CONFLICT DO UPDATE` of every column: the row takes the place of those it clashes
with. -/
def upsert (r : ρ) : Table ρ :=
  ⟨(t.rows.filter fun x => !clash x r) ++ [r], by
    refine List.pairwise_append.mpr ⟨t.distinct.sublist List.filter_sublist,
      List.pairwise_singleton _ _, fun x hx y hy => ?_⟩
    obtain rfl := List.mem_singleton.mp hy
    simpa using (List.mem_filter.mp hx).2⟩

variable {t} {p : ρ → Bool} {r x : ρ}

theorem mem_delete : x ∈ t.delete p ↔ x ∈ t ∧ p x = false := by
  rw [← mem_rows, delete, List.mem_filter, mem_rows]
  simp

theorem mem_upsert : x ∈ t.upsert r ↔ x = r ∨ x ∈ t ∧ clash x r = false := by
  rw [← mem_rows, upsert, List.mem_append, List.mem_filter, List.mem_singleton, mem_rows]
  simp [or_comm]

/-- A selection by key finds the row that was written. -/
theorem select_upsert (hp : p r = true) (hkey : ∀ x, p x = true → clash x r = true) :
    (t.upsert r).select p = some r := by
  refine select_of_mem (mem_upsert.mpr (.inl rfl)) hp fun x _ hx => hkey x hx

/-- A selection by another key finds what it found before. -/
theorem select_upsert_of_ne (hp : p r = false) (hkey : ∀ x, p x = true → clash x r = false) :
    (t.upsert r).select p = t.select p := by
  rw [select, select, upsert, List.find?_append, List.find?_filter]
  have hsame : (fun x => decide ((!clash x r) = true ∧ p x = true)) = p := by
    funext x
    by_cases hx : p x = true
    · simp [hx, hkey x hx]
    · simp [hx]
  rw [hsame]
  simp [hp]

/-- A selection of deleted rows finds none. -/
theorem select_delete : (t.delete p).select p = none := by
  rw [select_eq_none]
  exact fun x hx => (mem_delete.mp hx).2

theorem select_delete_of_ne {q : ρ → Bool} (h : ∀ x, q x = true → p x = false) :
    (t.delete p).select q = t.select q := by
  rw [select, select, delete, List.find?_filter]
  congr 1
  funext x
  by_cases hx : q x = true
  · simp [hx, h x hx]
  · simp [hx]

end Upsert

/-! ## Growth -/

/-- Every row of `t` is still in `t'`, changed as `R` allows. -/
def Grows (R : ρ → ρ → Prop) (t t' : Table ρ) : Prop := ∀ r ∈ t, ∃ r' ∈ t', R r r'

namespace Grows

variable {R : ρ → ρ → Prop} {t t' t'' : Table ρ}

theorem refl (hR : ∀ r, R r r) : Grows R t t := fun r hr => ⟨r, hr, hR r⟩

theorem trans (hR : ∀ {a b c}, R a b → R b c → R a c) (h : Grows R t t') (h' : Grows R t' t'') :
    Grows R t t'' := by
  intro r hr
  obtain ⟨r', hr', hrr'⟩ := h r hr
  obtain ⟨r'', hr'', hrr''⟩ := h' r' hr'
  exact ⟨r'', hr'', hR hrr' hrr''⟩

theorem insert (hR : ∀ r, R r r) {x : ρ} (h : t.insert x = some t') : Grows R t t' :=
  fun r hr => ⟨r, (mem_insert h).mpr (.inl hr), hR r⟩

theorem rewrite {f : ρ → ρ} (hf : KeepsKeys f) (hR : ∀ r, R r r) {sel : ρ → Bool}
    (h : ∀ r, sel r = true → R r (f r)) : Grows R t (t.rewrite sel hf) := by
  intro r hr
  refine ⟨_, mem_rewrite_of_mem hf hr, ?_⟩
  split
  · exact h r ‹_›
  · exact hR r

end Grows

end Table

end Relational
