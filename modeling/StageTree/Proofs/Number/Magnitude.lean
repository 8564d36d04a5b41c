import Mathlib.Algebra.Order.Field.Power
import Mathlib.Data.Rat.Cast.Order
import Mathlib.Order.Monotone.Basic
import Mathlib.Tactic.Linarith
import Mathlib.Tactic.Positivity
import Mathlib.Tactic.Ring
import StageTree.Number.Shortest

/-!
# Magnitudes

The values of doubles, as rational numbers. An ordinal is the place of a magnitude among all
magnitudes, and the magnitudes increase with it.

The magnitudes come in grids. On the grid with the number `k` the magnitudes are the multiples
of `2 ^ (k - 1074)` with a coefficient of up to 53 bits, and the coefficient is what the ordinal
adds to the beginning of the grid. A coefficient of `2 ^ 53` belongs to the next grid as well, and
on that one it is half as large; the ordinal is the same.

## Main definitions

* `Binary64.magnitude`: The magnitude at an ordinal.
* `Binary64.value?`: The value of a number, if it is finite.

## Theorems

* `Binary64.magnitude_grid`, `Binary64.exists_grid`: Magnitudes by their grids.
* `Binary64.magnitude_strictMono`: Magnitudes increase.
* `Binary64.integer?_eq_some`: The integer of a number is its value.
-/

namespace StageTree

/-- A power with an integer exponent as a fraction of powers with natural ones. -/
theorem zpow_eq_div {b : ℚ} (hb : b ≠ 0) (e : Int) :
    b ^ e = b ^ e.toNat / b ^ (-e).toNat := by
  rw [eq_div_iff (pow_ne_zero _ hb), ← zpow_natCast, ← zpow_natCast, ← zpow_add₀ hb]
  congr 1
  omega

namespace Binary64

theorem binadeSize_eq : binadeSize = 4503599627370496 := by rfl

/-- The magnitude at an ordinal. There are magnitudes past those of all doubles, at the ordinals
    that stand for too large ones. -/
def magnitude (n : Nat) : ℚ := significand n * 2 ^ exponent n

/-- The exponent field and the coefficient of a number on a grid. -/
theorem div_grid {k m : Nat} (hlow : binadeSize ≤ m) (hhigh : m < 2 * binadeSize) :
    (k * binadeSize + m) / binadeSize = k + 1 ∧
      binadeSize + (k * binadeSize + m) % binadeSize = m := by
  simp only [binadeSize_eq] at *
  omega

/-- At the end of a grid the next one starts. -/
theorem div_grid_end (k : Nat) :
    (k * binadeSize + 2 * binadeSize) / binadeSize = k + 2 ∧
      (k * binadeSize + 2 * binadeSize) % binadeSize = 0 := by
  simp only [binadeSize_eq]
  omega

/-- The magnitudes of a grid are the multiples of its step. -/
theorem magnitude_grid {k m : Nat} (hk : k = 0 ∨ binadeSize ≤ m) (hm : m ≤ 2 * binadeSize) :
    magnitude (k * binadeSize + m) = m * 2 ^ ((k : Int) - 1074) := by
  rw [magnitude, significand, exponent]
  by_cases hfirst : k * binadeSize + m < binadeSize
  · -- Only the first grid starts at zero.
    have hzero : k = 0 := by omega
    rw [if_pos hfirst, if_pos hfirst, hzero]
    simp
  · rw [if_neg hfirst, if_neg hfirst]
    have hlow : binadeSize ≤ m := by
      rcases hk with rfl | hk
      · omega
      · exact hk
    -- The end of the grid belongs to the next one, whose steps are twice as wide.
    by_cases hlast : m = 2 * binadeSize
    · have hexponent : ((k + 2 : Nat) : Int) - 1075 = ((k : Int) - 1074) + 1 := by omega
      rw [hlast, (div_grid_end k).1, (div_grid_end k).2, hexponent, zpow_add_one₀ two_ne_zero]
      push_cast
      ring
    · have hexponent : ((k + 1 : Nat) : Int) - 1075 = (k : Int) - 1074 := by omega
      rcases div_grid (k := k) hlow (by omega) with ⟨hdiv, hmod⟩
      rw [hdiv, hmod, hexponent]

/-- Every ordinal belongs to a grid. -/
theorem exists_grid (n : Nat) :
    ∃ k m, (k = 0 ∨ binadeSize ≤ m) ∧ m < 2 * binadeSize ∧ n = k * binadeSize + m := by
  by_cases hn : n < binadeSize
  · exact ⟨0, n, Or.inl rfl, by omega, by omega⟩
  · refine ⟨n / binadeSize - 1, binadeSize + n % binadeSize, Or.inr (by omega), ?_⟩
    simp only [binadeSize_eq] at *
    omega

/-- The next ordinal stands for one more step of the grid. -/
theorem magnitude_lt_succ (n : Nat) : magnitude n < magnitude (n + 1) := by
  rcases exists_grid n with ⟨k, m, hk, hm, rfl⟩
  rw [Nat.add_assoc, magnitude_grid hk hm.le, magnitude_grid (by omega) hm]
  have hstep : (0 : ℚ) < 2 ^ ((k : Int) - 1074) := by positivity
  push_cast
  linarith

/-- Magnitudes increase. -/
theorem magnitude_strictMono : StrictMono magnitude := strictMono_nat_of_lt_succ magnitude_lt_succ

theorem magnitude_zero : magnitude 0 = 0 := by
  rw [magnitude, significand, if_pos (by decide), Nat.cast_zero, zero_mul]

theorem magnitude_nonneg (n : Nat) : 0 ≤ magnitude n := by
  rw [magnitude]
  positivity

/-! ## Values -/

/-- The value of a number, if it is finite. -/
def value? : Binary64 → Option ℚ
  | .finite negative ordinal =>
    some (if negative then -magnitude ordinal.val else magnitude ordinal.val)
  | _ => none

/-- A magnitude as a fraction. -/
theorem magnitude_eq_div (n : Nat) : magnitude n = num n / den n := by
  rw [magnitude, zpow_eq_div two_ne_zero, num, den]
  simp only [Nat.pow_eq]
  push_cast
  ring

-- One of the two powers of two is one, so a magnitude is natural if the other one divides the
-- significand.
/-- The natural number that is found is the magnitude, and none is missed. -/
theorem naturalMagnitude?_eq_some {n k : Nat} :
    naturalMagnitude? n = some k ↔ magnitude n = k := by
  have hden : 0 < den n := Nat.pow_pos (by decide)
  have hvalue : magnitude n = k ↔ num n = k * den n := by
    rw [magnitude_eq_div, div_eq_iff (by positivity)]
    exact_mod_cast Iff.rfl
  rw [hvalue, naturalMagnitude?, num, den]
  simp only [Nat.pow_eq]
  -- Either there are halves to be divided out, or the significand is only scaled up.
  rcases Int.le_total (exponent n) 0 with hsign | hsign
  · have hone : (exponent n).toNat = 0 := by omega
    simp only [hone, pow_zero, mul_one]
    have hscale : 0 < 2 ^ (-exponent n).toNat := Nat.pow_pos (by decide)
    constructor
    · intro h
      split at h
      · rename_i hmod
        rw [Option.some.injEq] at h
        rw [← h, Nat.div_mul_cancel (Nat.dvd_of_mod_eq_zero hmod)]
      · cases h
    · intro h
      rw [h, if_pos (Nat.mul_mod_left _ _), Nat.mul_div_cancel _ hscale]
  · have hone : (-exponent n).toNat = 0 := by omega
    simp only [hone, pow_zero, Nat.mod_one, if_true, Nat.div_one, Option.some.injEq, mul_one]

/-- The integer that is found is the value of the double, and none is missed. -/
theorem integer?_eq_some {x : Binary64} {n : Int} :
    x.integer? = some n ↔ x.value? = some (n : ℚ) := by
  cases x with
  | nan => exact iff_of_false nofun nofun
  | infinite negative => exact iff_of_false nofun nofun
  | finite negative ordinal =>
      simp only [integer?, Option.map_eq_some_iff, naturalMagnitude?_eq_some, value?,
        Option.some.injEq]
      have hnonneg := magnitude_nonneg ordinal.val
      constructor
      · rintro ⟨k, hk, rfl⟩
        rw [hk]
        cases negative <;> simp
      · intro h
        -- The sign of the integer is that of the number, so its absolute value is the magnitude.
        cases negative with
        | false =>
            simp only [Bool.false_eq_true, if_false] at h ⊢
            have hn : 0 ≤ n := by exact_mod_cast h ▸ hnonneg
            exact ⟨n.toNat, by rw [h]; exact_mod_cast (Int.toNat_of_nonneg hn).symm,
              Int.toNat_of_nonneg hn⟩
        | true =>
            simp only [if_true] at h ⊢
            have hn : 0 ≤ -n := by
              have hle : (0 : ℚ) ≤ -n := by linarith
              exact_mod_cast hle
            refine ⟨(-n).toNat, ?_, by omega⟩
            have hcast : ((-n).toNat : ℚ) = -n := by exact_mod_cast Int.toNat_of_nonneg hn
            linarith

end Binary64

end StageTree
