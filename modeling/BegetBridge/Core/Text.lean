import Mathlib

/-!
# Text patterns of the bridge

The regular expressions by which the packages check identifiers, and the two list operations on
texts they share: splitting at white space and sorting. Every pattern is anchored at both ends,
so it is a bound on the length and a test of each character.

## Main definitions

* `within`: `/^[…]{lo,hi}$/`
* `utf16Length`: `value.length`
* `words`: `value.split(/\s+/).filter(Boolean)`
* `sortTexts`, `sameStrings`: sorted texts, and equality of two lists up to order

## Main results

* `sameStrings_iff`: `sameStrings` is permutation
* `mem_sortTexts`: sorting keeps the members
-/

namespace BegetBridge.Core

/-- `[a-zA-Z0-9_-]` -/
def idChar (c : Char) : Bool := c.isAlphanum || c == '_' || c == '-'

/-- `[a-zA-Z0-9._~-]` -/
def unreservedChar (c : Char) : Bool := idChar c || c == '.' || c == '~'

/-- `/^[ok]{lo,hi}$/` -/
def within (ok : Char → Bool) (lo hi : Nat) (s : String) : Bool :=
  decide (lo ≤ s.toList.length) && decide (s.toList.length ≤ hi) && s.toList.all ok

/-- `value.length`: the number of UTF-16 code units. -/
def utf16Length (s : String) : Nat := (s.toList.map fun c => if c.toNat < 0x10000 then 1 else 2).sum

/-- What `\s` matches. -/
def isSpace (c : Char) : Bool :=
  let n := c.toNat
  (9 ≤ n && n ≤ 13) || n == 0x20 || n == 0xa0 || n == 0x1680 || (0x2000 ≤ n && n ≤ 0x200a) ||
    n == 0x2028 || n == 0x2029 || n == 0x202f || n == 0x205f || n == 0x3000 || n == 0xfeff

/-- The nonempty pieces between white space, the piece in progress first. -/
def wordsFrom : List Char → List Char → List String
  | piece, [] => if piece.isEmpty then [] else [String.ofList piece.reverse]
  | piece, c :: cs =>
    if isSpace c then
      if piece.isEmpty then wordsFrom [] cs else String.ofList piece.reverse :: wordsFrom [] cs
    else wordsFrom (c :: piece) cs

/-- `value.split(/\s+/).filter(Boolean)` -/
def words (s : String) : List String := wordsFrom [] s.toList

/-- `[...list].sort()` -/
def sortTexts (l : List String) : List String := l.insertionSort (· ≤ ·)

@[simp] theorem mem_sortTexts {l : List String} {s : String} : s ∈ sortTexts l ↔ s ∈ l :=
  List.mem_insertionSort _

/-- Equal length, and equal texts after sorting. -/
def sameStrings (left right : List String) : Bool :=
  left.length == right.length && sortTexts left == sortTexts right

theorem sameStrings_iff {left right : List String} : sameStrings left right = true ↔ left.Perm right := by
  have hsort : ∀ l : List String, (sortTexts l).Perm l := fun l => List.perm_insertionSort _ l
  simp only [sameStrings, Bool.and_eq_true, beq_iff_eq]
  constructor
  · rintro ⟨-, h⟩
    exact (hsort left).symm.trans (h ▸ hsort right)
  · intro h
    refine ⟨h.length_eq, ?_⟩
    exact ((hsort left).trans (h.trans (hsort right).symm)).eq_of_pairwise
      (fun a b _ _ => le_antisymm) (List.pairwise_insertionSort _ _) (List.pairwise_insertionSort _ _)

end BegetBridge.Core
