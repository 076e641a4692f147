/-
Integers as IEEE 754 double precision numbers: rounding to 53 significant bits,
ties to even, and the range of finite numbers.  Arithmetic beyond the integers is known through
two facts about its rounding.
-/
import Mathlib.Algebra.Order.Ring.Int
import Mathlib.Data.Nat.Log
import Mathlib.Data.Rat.Floor
import Mathlib.Tactic.Linarith
import Mathlib.Tactic.NormNum

namespace Aegion.Binary64

/-- The double nearest to a natural number, were the exponent unbounded. -/
def roundNat (n : Nat) : Nat :=
  if n < 2 ^ 53 then n
  else
    let unit := 2 ^ (n.log2 - 52)
    let quotient := n / unit
    let remainder := n % unit
    if unit < 2 * remainder ∨ unit = 2 * remainder ∧ quotient % 2 = 1 then
      (quotient + 1) * unit
    else quotient * unit

/-- The double nearest to an integer, if its exponent is in range. -/
def ofInt (n : Int) : Option Int :=
  if (roundNat n.natAbs).log2 < 1024 then some (n.sign * roundNat n.natAbs)
  else none

theorem roundNat_of_lt {n : Nat} (hn : n < 2 ^ 53) : roundNat n = n := if_pos hn

/-- Integers below 2^53 are doubles. -/
theorem ofInt_of_lt {n : Int} (hn : n.natAbs < 2 ^ 53) : ofInt n = some n := by
  have hrange : (roundNat n.natAbs).log2 < 1024 := by
    rw [roundNat_of_lt hn]
    rcases eq_or_ne n.natAbs 0 with hzero | hne
    · rw [hzero]
      decide
    · exact ((Nat.log2_lt hne).mpr hn).trans (by decide)
  rw [ofInt, if_pos hrange, roundNat_of_lt hn, Int.sign_mul_natAbs]

section Rounding

/-- Arithmetic on doubles, as exact arithmetic followed by a rounding, and the conversion to an
integer of 64 bits.  The rounding is monotone and keeps what 53 bits hold; the conversion
truncates what fits and is left open otherwise. -/
structure Arithmetic where
  round : ℚ → ℚ
  toInt : ℚ → ℤ
  round_mono : ∀ x y : ℚ, x ≤ y → round x ≤ round y
  round_dyadic : ∀ (m : ℤ) (e : ℕ), |m| ≤ 2 ^ 53 → e ≤ 1022 →
    round ((m : ℚ) / 2 ^ e) = (m : ℚ) / 2 ^ e
  toInt_floor : ∀ x : ℚ, 0 ≤ x → x < 2 ^ 63 → toInt x = ⌊x⌋

variable (doubles : Arithmetic)

theorem Arithmetic.round_int {m : ℤ} (hm : |m| ≤ 2 ^ 53) : doubles.round m = m := by
  have hround := doubles.round_dyadic m 0 hm (Nat.zero_le _)
  rwa [pow_zero, div_one] at hround

/-- A rounded number stays between two dyadic bounds. -/
theorem Arithmetic.round_between {x : ℚ} {low high : ℤ} {e : ℕ} (he : e ≤ 1022)
    (hlow : |low| ≤ 2 ^ 53) (hhigh : |high| ≤ 2 ^ 53) (hx : (low : ℚ) / 2 ^ e ≤ x)
    (hx' : x ≤ (high : ℚ) / 2 ^ e) :
    (low : ℚ) / 2 ^ e ≤ doubles.round x ∧ doubles.round x ≤ (high : ℚ) / 2 ^ e := by
  constructor
  · rw [← doubles.round_dyadic low e hlow he]
    exact doubles.round_mono _ _ hx
  · rw [← doubles.round_dyadic high e hhigh he]
    exact doubles.round_mono _ _ hx'

end Rounding

end Aegion.Binary64
