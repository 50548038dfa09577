import Mathlib

/-!
# Keyed maps with expiring entries

A map from keys to values of one type is an `AList`. `retain` drops the values that fail a
test, as a sweep of expired entries does.

## Main results

* `lookup_retain`: a swept map answers with the entries that pass
* `lookup_insert_iff`: the entries after a write
-/

namespace Relational

universe u v

/-- Keys with values of one type. -/
abbrev KeyedMap (κ : Type u) (ν : Type v) := AList fun _ : κ => ν

namespace KeyedMap

variable {κ : Type u} {ν : Type v}

/-- The entries whose value passes the test. -/
def retain (p : ν → Bool) (m : KeyedMap κ ν) : KeyedMap κ ν :=
  ⟨m.entries.filter fun e => p e.2, m.nodupKeys.sublist List.filter_sublist⟩

/-- The number of entries. -/
def size (m : KeyedMap κ ν) : Nat := m.entries.length

variable [DecidableEq κ] {m : KeyedMap κ ν} {k k' : κ} {v v' : ν}

theorem lookup_retain {p : ν → Bool} :
    (retain p m).lookup k = some v ↔ m.lookup k = some v ∧ p v = true := by
  rw [← Option.mem_def, ← Option.mem_def, AList.mem_lookup_iff, AList.mem_lookup_iff]
  simp [retain]

theorem lookup_insert_iff :
    AList.lookup k (m.insert k' v') = some v ↔ k = k' ∧ v = v' ∨ k ≠ k' ∧ m.lookup k = some v := by
  by_cases h : k = k'
  · subst h
    rw [AList.lookup_insert]
    simp [eq_comm]
  · rw [AList.lookup_insert_ne h]
    simp [h]

theorem lookup_erase_iff :
    AList.lookup k (m.erase k') = some v ↔ k ≠ k' ∧ m.lookup k = some v := by
  by_cases h : k = k'
  · subst h
    simp
  · rw [AList.lookup_erase_ne h]
    simp [h]

end KeyedMap

end Relational
