import Mathlib

/-!
# Numbers of the host language

A number is a rational or one of the three values that are none. Sums of whole numbers are exact
as long as they are safe integers; every other sum is rounded to a multiple of its unit in the last
place.

## Main definitions

* `Number`: what `Number(value)` may be
* `toDouble`: the nearest double of a rational from one on
* `numberText`: `String(n)`

## Main results

* `toDouble_natCast`: safe integers are doubles
* `numberText_natCast`, `point_mem_numberText`: the text of a number tells whether it is whole
-/

namespace BegetBridge.Core

/-- `Number.MAX_SAFE_INTEGER` -/
def maxSafeInteger : Nat := 9007199254740991

/-- What `Number(value)` may be. -/
inductive Number
  | nan
  | infinity
  | negInfinity
  | finite (q : ℚ)
  deriving DecidableEq, Repr

/-- The nearest integer, and of two nearest ones the even one. -/
def roundHalfEven (x : ℚ) : ℤ :=
  if x - ⌊x⌋ < 1 / 2 then ⌊x⌋
  else if 1 / 2 < x - ⌊x⌋ then ⌊x⌋ + 1
  else if ⌊x⌋ % 2 = 0 then ⌊x⌋ else ⌊x⌋ + 1

/-- How many units in the last place make one, for a double from `x` on. -/
def unitsOf (x : ℚ) : ℚ := 2 ^ (52 - (Nat.log 2 ⌊x⌋.toNat : ℤ))

/-- The nearest double of `0`, or of a rational from one on. -/
def toDouble (x : ℚ) : ℚ := roundHalfEven (x * unitsOf x) / unitsOf x

/-- A number is whole. -/
def Whole (x : ℚ) : Prop := (⌊x⌋ : ℚ) = x

instance {x : ℚ} : Decidable (Whole x) := inferInstanceAs (Decidable ((⌊x⌋ : ℚ) = x))

/-- The decimals of a number below one. -/
def decimals : Nat → ℚ → List Char
  | 0, _ => []
  | places + 1, x =>
    if x = 0 then [] else Nat.digitChar ⌊10 * x⌋.toNat :: decimals places (10 * x - ⌊10 * x⌋)

/-- `String(n)` for a number that is not negative. The decimals of one that is not whole stand in full,
where the host language leaves out those that it does not need to find the number again. -/
def numberText (x : ℚ) : String :=
  if Whole x then toString ⌊x⌋.toNat
  else String.ofList (Nat.toDigits 10 ⌊x⌋.toNat ++ '.' :: decimals 1100 (x - ⌊x⌋))

theorem roundHalfEven_intCast (n : ℤ) : roundHalfEven n = n := by
  simp [roundHalfEven]

theorem whole_natCast (n : Nat) : Whole (n : ℚ) := by
  simp [Whole]

theorem Whole.exists_nat {x : ℚ} (h : Whole x) (h0 : 0 ≤ x) : ∃ n : Nat, x = n := by
  refine ⟨⌊x⌋.toNat, ?_⟩
  have hz : ((⌊x⌋.toNat : ℤ) : ℚ) = (⌊x⌋ : ℚ) := by
    rw [Int.toNat_of_nonneg (Int.floor_nonneg.mpr h0)]
  exact h.symm.trans (hz.symm.trans (Int.cast_natCast _))

theorem unitsOf_pos (x : ℚ) : 0 < unitsOf x := by
  exact zpow_pos (by norm_num) _

theorem roundHalfEven_le {x : ℚ} {n : ℤ} (h : x ≤ n) : roundHalfEven x ≤ n := by
  have hfloor : ⌊x⌋ ≤ n := Int.floor_le_iff.mpr (h.trans_lt (lt_add_one _))
  rcases hfloor.eq_or_lt with heq | hlt
  · -- the integer itself
    have hx : x = n := le_antisymm h (heq ▸ Int.floor_le x)
    rw [hx, roundHalfEven_intCast]
  · rw [roundHalfEven]
    split_ifs
    all_goals omega

theorem le_roundHalfEven {x : ℚ} {n : ℤ} (h : (n : ℚ) ≤ x) : n ≤ roundHalfEven x := by
  have hfloor : n ≤ ⌊x⌋ := Int.le_floor.mpr h
  rw [roundHalfEven]
  split_ifs
  all_goals omega

/-- Below the safe integers, one is a whole number of units. -/
theorem exists_unitsOf_eq {x : ℚ} (h : ⌊x⌋.toNat ≤ maxSafeInteger) : ∃ k : Nat, unitsOf x = (k : ℤ) := by
  have hlog : Nat.log 2 ⌊x⌋.toNat ≤ 52 := by
    rcases Nat.eq_zero_or_pos ⌊x⌋.toNat with h0 | hpos
    · simp [h0]
    · exact Nat.lt_succ_iff.mp (Nat.log_lt_of_lt_pow hpos.ne' (h.trans_lt (by decide)))
  obtain ⟨k, hk⟩ := Nat.exists_eq_add_of_le hlog
  refine ⟨2 ^ k, ?_⟩
  have he : (52 - (Nat.log 2 ⌊x⌋.toNat : ℤ)) = (k : ℤ) := by omega
  rw [unitsOf, he, zpow_natCast]
  push_cast
  rfl

/-- **Safe integers are doubles.** -/
theorem toDouble_natCast {n : Nat} (h : n ≤ maxSafeInteger) : toDouble n = n := by
  obtain ⟨k, hk⟩ := exists_unitsOf_eq (x := n) (by simpa using h)
  have hwhole : (n : ℚ) * unitsOf n = ((n * k : ℤ) : ℚ) := by
    rw [hk]
    push_cast
    rfl
  rw [toDouble, hwhole, roundHalfEven_intCast, ← hwhole, mul_div_assoc,
    div_self (unitsOf_pos _).ne', mul_one]

/-- Rounding does not pass a whole number. -/
theorem toDouble_le {x : ℚ} {n : Nat} (hx : ⌊x⌋.toNat ≤ maxSafeInteger) (h : x ≤ n) : toDouble x ≤ n := by
  obtain ⟨k, hk⟩ := exists_unitsOf_eq hx
  rw [toDouble, div_le_iff₀ (unitsOf_pos x), hk]
  have hle : x * (k : ℤ) ≤ ((n * k : ℤ) : ℚ) := by
    push_cast
    exact mul_le_mul_of_nonneg_right h (Nat.cast_nonneg k)
  exact_mod_cast roundHalfEven_le hle

theorem le_toDouble {x : ℚ} {n : Nat} (hx : ⌊x⌋.toNat ≤ maxSafeInteger) (h : (n : ℚ) ≤ x) :
    n ≤ toDouble x := by
  obtain ⟨k, hk⟩ := exists_unitsOf_eq hx
  rw [toDouble, le_div_iff₀ (unitsOf_pos x), hk]
  have hle : ((n * k : ℤ) : ℚ) ≤ x * (k : ℤ) := by
    push_cast
    exact mul_le_mul_of_nonneg_right h (Nat.cast_nonneg k)
  exact_mod_cast le_roundHalfEven hle

theorem toDouble_nonneg {x : ℚ} (h : 0 ≤ x) : 0 ≤ toDouble x := by
  have hround : 0 ≤ roundHalfEven (x * unitsOf x) :=
    le_roundHalfEven (by push_cast; exact mul_nonneg h (unitsOf_pos x).le)
  exact div_nonneg (by exact_mod_cast hround) (unitsOf_pos x).le

@[simp] theorem numberText_natCast (n : Nat) : numberText n = toString n := by
  rw [numberText, if_pos (whole_natCast n), Int.floor_natCast, Int.toNat_natCast]

theorem point_mem_numberText {x : ℚ} (h : ¬Whole x) : '.' ∈ (numberText x).toList := by
  rw [numberText, if_neg h, String.toList_ofList]
  exact List.mem_append_right _ List.mem_cons_self

end BegetBridge.Core
