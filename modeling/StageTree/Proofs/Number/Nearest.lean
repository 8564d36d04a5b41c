import Mathlib.Algebra.Order.Group.Abs
import Mathlib.Tactic.FieldSimp
import Mathlib.Tactic.GCongr
import StageTree.Proofs.Number.Magnitude

/-!
# Rounding to the Nearest Magnitude

What rounding a fraction gives: the ordinal of the magnitude that is nearest to it, and of two
that are equally near the even one. There is exactly one such ordinal, so a rounding is a
function of the fraction's value alone, however the fraction is written, and a fraction that is a
magnitude is rounded to itself.

Rounding is computed on a grid that is fine enough for the fraction. The magnitudes just below
and just above the fraction are both on it, and no other magnitude can be nearer.

## Main definitions

* `Binary64.Nearest`: The ordinal of the magnitude nearest to a fraction.

## Theorems

* `Binary64.Nearest.unique`: There is only one.
* `floorLog2_spec`: The power of two just below a fraction.
* `Binary64.ofRatio_nearest`: Rounding gives the nearest magnitude.
-/

namespace StageTree

namespace Binary64

/-- The ordinal of the magnitude that is nearest to a fraction. -/
structure Nearest (q : ℚ) (n : Nat) : Prop where
  /-- No magnitude is nearer. -/
  closest : ∀ m, |q - magnitude n| ≤ |q - magnitude m|
  /-- If another one is equally near, the ordinal is even. -/
  even : ∀ m, m ≠ n → |q - magnitude m| = |q - magnitude n| → n % 2 = 0

variable {q : ℚ} {m n : Nat}

theorem abs_sub_of_le (h : magnitude m ≤ q) : |q - magnitude m| = q - magnitude m :=
  abs_of_nonneg (sub_nonneg.2 h)

theorem abs_sub_of_ge (h : q ≤ magnitude m) : |q - magnitude m| = magnitude m - q := by
  rw [abs_sub_comm]
  exact abs_of_nonneg (sub_nonneg.2 h)

/-- A fraction that is at least a magnitude is not rounded to one below that. -/
theorem Nearest.le_of_le (h : Nearest q n) (hm : magnitude m ≤ q) : m ≤ n := by
  by_contra hlt
  have hmag : magnitude n < magnitude m := magnitude_strictMono (Nat.not_le.1 hlt)
  have hclosest := h.closest m
  rw [abs_sub_of_le hm, abs_sub_of_le (hmag.le.trans hm)] at hclosest
  linarith

/-- There is only one nearest magnitude. -/
theorem Nearest.unique (hm : Nearest q m) (hn : Nearest q n) : m = n := by
  -- Two nearest magnitudes lie on both sides of the fraction, equally far away, so both are
  -- even. Then there is another one between them, and that is nearer.
  have hnot (j k : Nat) (hj : Nearest q j) (hk : Nearest q k) : ¬j < k := by
    intro hlt
    have hdist : |q - magnitude j| = |q - magnitude k| :=
      le_antisymm (hj.closest k) (hk.closest j)
    have heven := hj.even k (by omega) hdist.symm
    have heven' := hk.even j (by omega) hdist
    have hmag : magnitude j < magnitude (j + 1) := magnitude_strictMono (Nat.lt_succ_self j)
    have hmag' : magnitude (j + 1) < magnitude k := magnitude_strictMono (by omega)
    have hcloser := hj.closest (j + 1)
    rcases abs_cases (q - magnitude j) with ⟨ha, _⟩ | ⟨ha, _⟩ <;>
      rcases abs_cases (q - magnitude k) with ⟨hb, _⟩ | ⟨hb, _⟩ <;>
      rcases abs_cases (q - magnitude (j + 1)) with ⟨hc, _⟩ | ⟨hc, _⟩ <;> linarith
  exact Nat.le_antisymm (Nat.not_lt.1 (hnot n m hn hm)) (Nat.not_lt.1 (hnot m n hm hn))

/-- Of the magnitudes next to a fraction on both sides, the lower one is nearest if the fraction
    is not past their middle, and in their middle only if it is even. -/
theorem nearest_below (hlow : magnitude n ≤ q) (hhigh : q < magnitude (n + 1))
    (hmiddle : 2 * q ≤ magnitude n + magnitude (n + 1))
    (htie : 2 * q = magnitude n + magnitude (n + 1) → n % 2 = 0) : Nearest q n := by
  -- All other magnitudes are those below, which are further away, and those from the next one on.
  have habove {m : Nat} (hm : n + 1 ≤ m) : magnitude (n + 1) ≤ magnitude m :=
    magnitude_strictMono.monotone hm
  constructor
  · intro m
    rw [abs_sub_of_le hlow]
    rcases Nat.lt_or_ge n m with hm | hm
    · have hmag := habove hm
      rw [abs_sub_of_ge (by linarith)]
      linarith
    · have hmag : magnitude m ≤ magnitude n := magnitude_strictMono.monotone hm
      rw [abs_sub_of_le (by linarith)]
      linarith
  · intro m hne hdist
    rw [abs_sub_of_le hlow] at hdist
    rcases Nat.lt_or_ge n m with hm | hm
    · have hmag := habove hm
      rw [abs_sub_of_ge (by linarith)] at hdist
      exact htie (by linarith)
    · have hmag : magnitude m < magnitude n := magnitude_strictMono (by omega)
      rw [abs_sub_of_le (by linarith)] at hdist
      exact absurd hdist (by linarith)

/-- The upper one is nearest if the fraction has reached their middle, and in their middle only
    if it is even. -/
theorem nearest_above (hhigh : q < magnitude (n + 1))
    (hmiddle : magnitude n + magnitude (n + 1) ≤ 2 * q)
    (htie : 2 * q = magnitude n + magnitude (n + 1) → (n + 1) % 2 = 0) : Nearest q (n + 1) := by
  -- All other magnitudes are those above, which are further away, and those up to the one before.
  have hbelow {m : Nat} (hm : m ≤ n) : magnitude m ≤ magnitude n :=
    magnitude_strictMono.monotone hm
  constructor
  · intro m
    rw [abs_sub_of_ge hhigh.le]
    rcases Nat.lt_or_ge n m with hm | hm
    · have hmag : magnitude (n + 1) ≤ magnitude m := magnitude_strictMono.monotone hm
      rw [abs_sub_of_ge (by linarith)]
      linarith
    · have hmag := hbelow hm
      rw [abs_sub_of_le (by linarith)]
      linarith
  · intro m hne hdist
    rw [abs_sub_of_ge hhigh.le] at hdist
    rcases Nat.lt_or_ge n m with hm | hm
    · have hmag : magnitude (n + 1) < magnitude m := magnitude_strictMono (by omega)
      rw [abs_sub_of_ge (by linarith)] at hdist
      exact absurd hdist (by linarith)
    · have hmag := hbelow hm
      rw [abs_sub_of_le (by linarith)] at hdist
      exact htie (by linarith)

/-- A magnitude is nearest to itself. -/
theorem nearest_magnitude (n : Nat) : Nearest (magnitude n) n := by
  have hnext := magnitude_lt_succ n
  exact nearest_below le_rfl hnext (by linarith) (fun h => absurd h (by linarith))

end Binary64

/-! ## Rounding a quotient -/

/-- A quotient is rounded down if it is not past the middle of the two natural numbers that it
    lies between, and up if it has reached it. In the middle the result is even. -/
theorem roundDiv_cases (num den : Nat) :
    (roundDiv num den = num / den ∧ 2 * num ≤ (2 * (num / den) + 1) * den ∧
      (2 * num = (2 * (num / den) + 1) * den → num / den % 2 = 0)) ∨
    (roundDiv num den = num / den + 1 ∧ (2 * (num / den) + 1) * den ≤ 2 * num ∧
      (2 * num = (2 * (num / den) + 1) * den → (num / den + 1) % 2 = 0)) := by
  -- The middle between two quotients is where twice the remainder is the denominator.
  have hsplit := Nat.div_add_mod num den
  have hexpand : (2 * (num / den) + 1) * den = 2 * (den * (num / den)) + den := by ring
  rw [hexpand]
  simp only [roundDiv]
  split
  · exact Or.inl ⟨rfl, by omega, by omega⟩
  · split
    · exact Or.inr ⟨rfl, by omega, by omega⟩
    · split
      · exact Or.inl ⟨rfl, by omega, by omega⟩
      · exact Or.inr ⟨rfl, by omega, by omega⟩

/-! ## Rounding a fraction -/

/-- Comparing a power of two with a fraction takes natural numbers only. -/
theorem two_zpow_le_div_iff {num den : Nat} (hden : 0 < den) (e : Int) :
    (2 : ℚ) ^ e ≤ num / den ↔ den * 2 ^ e.toNat ≤ num * 2 ^ (-e).toNat := by
  rw [zpow_eq_div two_ne_zero, div_le_div_iff₀ (by positivity) (by positivity), mul_comm]
  exact_mod_cast Iff.rfl

/-- The power of two just below a fraction. -/
theorem floorLog2_spec {num den : Nat} (hnum : 0 < num) (hden : 0 < den) :
    (2 : ℚ) ^ floorLog2 num den ≤ num / den ∧ (num / den : ℚ) < 2 ^ (floorLog2 num den + 1) := by
  have hnumLow : ((2 : ℚ) ^ (num.log2 : Int)) ≤ num := by
    exact_mod_cast Nat.log2_self_le (by omega)
  have hnumHigh : (num : ℚ) < 2 ^ ((num.log2 : Int) + 1) := by
    exact_mod_cast Nat.lt_log2_self
  have hdenLow : ((2 : ℚ) ^ (den.log2 : Int)) ≤ den := by
    exact_mod_cast Nat.log2_self_le (by omega)
  have hdenHigh : (den : ℚ) < 2 ^ ((den.log2 : Int) + 1) := by
    exact_mod_cast Nat.lt_log2_self
  -- The guess is the power just below the fraction, or the next one.
  have hlow : (2 : ℚ) ^ ((num.log2 : Int) - den.log2 - 1) ≤ num / den := by
    rw [sub_sub, zpow_sub₀ two_ne_zero]
    exact div_le_div₀ (by positivity) hnumLow (by positivity) hdenHigh.le
  have hhigh : (num / den : ℚ) < 2 ^ ((num.log2 : Int) - den.log2 + 1) := by
    rw [sub_add_eq_add_sub, zpow_sub₀ two_ne_zero]
    exact div_lt_div₀ hnumHigh hdenLow (by positivity) (by positivity)
  have hguess : (2 : ℚ) ^ ((num.log2 : Int) - den.log2) ≤ num / den ↔ _ :=
    two_zpow_le_div_iff hden _
  simp only [floorLog2, Nat.pow_eq]
  split
  · rename_i hle
    exact ⟨hguess.2 hle, hhigh⟩
  · rename_i hgt
    rw [sub_add_cancel]
    exact ⟨hlow, not_le.1 fun hle => hgt (hguess.1 hle)⟩

namespace Binary64

section Grid

variable {k c : Nat} {x : ℚ}

/-- The next magnitude is one step of the same grid further. -/
theorem magnitude_grid_succ (hk : k = 0 ∨ binadeSize ≤ c) (hc : c < 2 * binadeSize) :
    magnitude (k * binadeSize + c + 1) = (c + 1) * 2 ^ ((k : Int) - 1074) := by
  rw [Nat.add_assoc, magnitude_grid (hk.imp_right Nat.le_succ_of_le) hc, Nat.cast_succ]

/-- Ordinals on a grid are even together with their coefficients. -/
theorem grid_mod_two (k c : Nat) : (k * binadeSize + c) % 2 = c % 2 := by
  simp only [binadeSize_eq]
  omega

/-- Rounding on a grid that a fraction lies in: its number of steps is rounded to the nearest
    natural number, which is the coefficient of the nearest magnitude. -/
theorem nearest_grid {r : Nat} (hk : k = 0 ∨ binadeSize ≤ c) (hc : c < 2 * binadeSize)
    (hlow : c ≤ x) (hhigh : x < c + 1)
    (hr : (r = c ∧ 2 * x ≤ 2 * c + 1 ∧ (2 * x = 2 * c + 1 → c % 2 = 0)) ∨
      (r = c + 1 ∧ 2 * c + 1 ≤ 2 * x ∧ (2 * x = 2 * c + 1 → (c + 1) % 2 = 0))) :
    Nearest (x * 2 ^ ((k : Int) - 1074)) (k * binadeSize + r) := by
  -- Fractions and magnitudes are compared by how many steps of the grid they are.
  have hstep : (0 : ℚ) < 2 ^ ((k : Int) - 1074) := by positivity
  have hbelow := magnitude_grid hk hc.le
  have habove := magnitude_grid_succ hk hc
  have hmiddle : magnitude (k * binadeSize + c) + magnitude (k * binadeSize + c + 1) =
      (2 * c + 1) * 2 ^ ((k : Int) - 1074) := by
    rw [hbelow, habove]
    ring
  have hq : 2 * (x * 2 ^ ((k : Int) - 1074)) = 2 * x * 2 ^ ((k : Int) - 1074) := by ring
  have hle : magnitude (k * binadeSize + c) ≤ x * 2 ^ ((k : Int) - 1074) := by
    rw [hbelow]
    gcongr
  have hlt : x * 2 ^ ((k : Int) - 1074) < magnitude (k * binadeSize + c + 1) := by
    rw [habove]
    gcongr
  rcases hr with ⟨rfl, hdown, htie⟩ | ⟨rfl, hup, htie⟩
  · refine nearest_below hle hlt ?_ fun heq => ?_
    · rw [hmiddle, hq]
      gcongr
    · rw [hmiddle, hq] at heq
      rw [grid_mod_two]
      exact htie (mul_right_cancel₀ hstep.ne' heq)
  · rw [← Nat.add_assoc]
    refine nearest_above hlt ?_ fun heq => ?_
    · rw [hmiddle, hq]
      gcongr
    · rw [hmiddle, hq] at heq
      rw [Nat.add_assoc, grid_mod_two]
      exact htie (mul_right_cancel₀ hstep.ne' heq)

/-- Rounding a quotient on a grid. -/
theorem nearest_grid_div {num den : Nat} (hden : 0 < den)
    (hlow : k = 0 ∨ binadeSize * den ≤ num) (hhigh : num < 2 * binadeSize * den) :
    Nearest (num / den * 2 ^ ((k : Int) - 1074)) (k * binadeSize + roundDiv num den) := by
  -- The quotient lies between its whole part and the next number, and the middle tells which is
  -- nearer.
  have hden' : (0 : ℚ) < den := by exact_mod_cast hden
  have hquotient : num / den < 2 * binadeSize := (Nat.div_lt_iff_lt_mul hden).2 hhigh
  have hnormal : k = 0 ∨ binadeSize ≤ num / den := hlow.imp_right (Nat.le_div_iff_mul_le hden).2
  refine nearest_grid hnormal hquotient ?_ ?_ ?_
  · rw [le_div_iff₀ hden']
    exact_mod_cast Nat.div_mul_le_self num den
  · rw [div_lt_iff₀ hden']
    exact_mod_cast Nat.lt_mul_of_div_lt (Nat.lt_succ_self _) hden
  · have htwice : 2 * (num / den : ℚ) = (2 * num : Nat) / den := by
      push_cast
      ring
    have hmiddle : (2 * (num / den : Nat) + 1 : ℚ) = (2 * (num / den) + 1 : Nat) := by
      push_cast
      ring
    rw [htwice, hmiddle, div_le_iff₀ hden', le_div_iff₀ hden', div_eq_iff hden'.ne']
    exact_mod_cast roundDiv_cases num den

/-- A fraction is as many steps of a grid as the scaled quotient says. -/
theorem scaled_div_mul_zpow (num den : Nat) (g : Int) :
    ((num * 2 ^ (-g).toNat : Nat) : ℚ) / (den * 2 ^ g.toNat : Nat) * 2 ^ g = num / den := by
  rw [zpow_eq_div two_ne_zero]
  push_cast
  field_simp

/-- A grid has as many steps as there are significands of 52 bits. -/
theorem binadeSize_cast : (binadeSize : ℚ) = 2 ^ (52 : Int) := by
  rw [binadeSize_eq]
  norm_num

/-- The grid on which a fraction is rounded is fine enough for it, and no finer than it must
    be, unless it is the finest grid. -/
theorem gridExponent_spec {num den : Nat} (hnum : 0 < num) (hden : 0 < den) :
    -1074 ≤ gridExponent num den ∧
      (num / den : ℚ) < 2 * binadeSize * 2 ^ gridExponent num den ∧
      (gridExponent num den = -1074 ∨
        (binadeSize : ℚ) * 2 ^ gridExponent num den ≤ num / den) := by
  rcases floorLog2_spec hnum hden with ⟨hlow, hhigh⟩
  have hmax : floorLog2 num den - 52 ≤ gridExponent num den := le_max_left _ _
  refine ⟨le_max_right _ _, ?_, ?_⟩
  · refine hhigh.trans_le ?_
    rw [binadeSize_cast, ← zpow_one_add₀ two_ne_zero, ← zpow_add₀ two_ne_zero]
    exact zpow_le_zpow_right₀ one_le_two (by omega)
  · -- Only below the normal numbers the finest grid is taken instead of the one that fits.
    rcases max_choice (floorLog2 num den - 52) (-1074) with hgrid | hgrid
    · right
      rw [gridExponent, hgrid, binadeSize_cast, ← zpow_add₀ two_ne_zero, add_sub_cancel]
      exact hlow
    · exact Or.inl hgrid

/-- A fraction that is not zero is rounded on the grid that fits its size. -/
theorem ofRatio_of_ne {num : Nat} (hnum : num ≠ 0) (negative : Bool) (den : Nat) :
    ofRatio negative num den = ofOrdinal negative
      ((gridExponent num den + 1074).toNat * binadeSize +
        roundDiv (num * 2 ^ (-gridExponent num den).toNat)
          (den * 2 ^ (gridExponent num den).toNat)) := by
  simp only [ofRatio, if_neg hnum, Nat.pow_eq]

/-- Rounding gives the ordinal of the nearest magnitude. -/
theorem ofRatio_nearest (negative : Bool) (num : Nat) {den : Nat} (hden : 0 < den) :
    ∃ n, Nearest (num / den) n ∧ ofRatio negative num den = ofOrdinal negative n := by
  by_cases hnum : num = 0
  · refine ⟨0, ?_, ?_⟩
    · rw [hnum, Nat.cast_zero, zero_div, ← magnitude_zero]
      exact nearest_magnitude 0
    · rw [ofRatio, if_pos hnum]
      rfl
  · refine ⟨_, ?_, ofRatio_of_ne hnum negative den⟩
    rcases gridExponent_spec (Nat.pos_of_ne_zero hnum) hden with ⟨hfinest, hhigh, hlow⟩
    -- The fraction is counted in steps of its grid, and that count is rounded.
    have hsteps := scaled_div_mul_zpow num den (gridExponent num den)
    have hstep : (0 : ℚ) < 2 ^ gridExponent num den := by positivity
    have hscaled : 0 < den * 2 ^ (gridExponent num den).toNat :=
      Nat.mul_pos hden (Nat.pow_pos (by decide))
    have hscaled' : (0 : ℚ) < (den * 2 ^ (gridExponent num den).toNat : Nat) := by
      exact_mod_cast hscaled
    have hgrid : (((gridExponent num den + 1074).toNat : Nat) : Int) - 1074 =
        gridExponent num den := by omega
    rw [← hsteps, mul_lt_mul_iff_of_pos_right hstep, div_lt_iff₀ hscaled'] at hhigh
    rw [← hsteps, mul_le_mul_iff_of_pos_right hstep, le_div_iff₀ hscaled'] at hlow
    have hbelow : num * 2 ^ (-gridExponent num den).toNat <
        2 * binadeSize * (den * 2 ^ (gridExponent num den).toNat) := by
      exact_mod_cast hhigh
    have habove : (gridExponent num den + 1074).toNat = 0 ∨
        binadeSize * (den * 2 ^ (gridExponent num den).toNat) ≤
          num * 2 ^ (-gridExponent num den).toNat := by
      refine hlow.imp (fun hfirst => by omega) fun hnormal => ?_
      exact_mod_cast hnormal
    have hnearest := nearest_grid_div hscaled habove hbelow
    rw [hgrid, hsteps] at hnearest
    exact hnearest

end Grid

end Binary64

end StageTree
