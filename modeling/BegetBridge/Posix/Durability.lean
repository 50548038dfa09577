import Mathlib

/-!
# Values that a crash may bring back

What is written to a directory is seen at once, and lasts once the directory is synchronised. Until then a crash may
leave what was there before.

## Main definitions

* `Cell`: a value, with those that a crash may bring back
* `Cell.All`: a property of all of them
* `Cell.Crashed`: what a crash leaves

## Main results

* `Cell.all_write`, `Cell.all_sync`, `Cell.Crashed.all`: what keeps such a property
-/

namespace Posix

/-- A value, and the earlier ones that a crash may bring back. -/
structure Cell (α : Type) where
  now : α
  stale : List α
  deriving DecidableEq

namespace Cell

variable {α : Type} {P Q : α → Prop} {c c' : Cell α} {a : α}

/-- The value is changed. -/
def write (c : Cell α) (a : α) : Cell α := ⟨a, c.now :: c.stale⟩

/-- The value lasts. -/
def sync (c : Cell α) : Cell α := ⟨c.now, []⟩

/-- The value, and what a crash may leave instead. -/
def All (P : α → Prop) (c : Cell α) : Prop := P c.now ∧ ∀ a ∈ c.stale, P a

/-- A crash leaves the value, or an earlier one. -/
def Crashed (c c' : Cell α) : Prop := (c'.now = c.now ∨ c'.now ∈ c.stale) ∧ c'.stale = []

theorem All.mono (hPQ : ∀ a, P a → Q a) (hc : c.All P) : c.All Q := ⟨hPQ _ hc.1, fun a ha => hPQ a (hc.2 a ha)⟩

theorem all_write (ha : P a) (hc : c.All P) : (c.write a).All P := by
  refine ⟨ha, fun b hb => ?_⟩
  rcases List.mem_cons.mp hb with rfl | hb
  · exact hc.1
  · exact hc.2 b hb

theorem all_sync (hc : c.All P) : c.sync.All P := ⟨hc.1, nofun⟩

theorem all_settled (hc : c.stale = []) (hP : P c.now) : c.All P := by
  refine ⟨hP, fun a ha => ?_⟩
  rw [hc] at ha
  cases ha

theorem Crashed.all (hcrash : Crashed c c') (hc : c.All P) : c'.All P := by
  refine all_settled hcrash.2 ?_
  rcases hcrash.1 with hnow | hstale
  · rw [hnow]
    exact hc.1
  · exact hc.2 _ hstale

end Cell

end Posix
