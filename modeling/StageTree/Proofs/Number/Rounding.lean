import StageTree.Proofs.Number.Digits
import StageTree.Proofs.Number.Nearest

/-!
# Doubles and Decimal Numerals

Which double a decimal numeral stands for: the one nearest to the numeral's value.

The digits that a double is written with stand for that double. They are found by a search that
tries candidates, and behind the search stands the exact expansion, whose value is the double's.

## Main definitions

* `Decimal.value`: The value of a numeral.

## Theorems

* `Decimal.toBinary64_nearest`: A numeral stands for the nearest double.
* `Binary64.shortest_nearest`: The digits of a double stand for it.
-/

namespace StageTree

/-! ## The length of numerals -/

/-- A number is less than the power of ten with one more digit. -/
theorem lt_pow_length_digitsOf (n : Nat) : n < 10 ^ (digitsOf n).length :=
  (Nat.length_toDigits_le_iff (by decide) Nat.length_toDigits_pos).1 le_rfl

/-- A number is at least the power of ten with as many digits. -/
theorem pow_length_digitsOf_le {n : Nat} (h : 0 < n) : 10 ^ ((digitsOf n).length - 1) ≤ n := by
  have hpos : 0 < (digitsOf n).length := Nat.length_toDigits_pos
  by_contra hlt
  rcases Nat.eq_zero_or_pos ((digitsOf n).length - 1) with hone | hmore
  · rw [hone, pow_zero] at hlt
    omega
  · have hlength : (digitsOf n).length ≤ (digitsOf n).length - 1 :=
      (Nat.length_toDigits_le_iff (by decide) hmore).2 (Nat.not_le.1 hlt)
    omega

namespace Decimal

/-- The value of a numeral. -/
def value (d : Decimal) : ℚ := d.coefficient * 10 ^ d.exponent

/-- The value of a decimal number is the fraction that is rounded. -/
theorem value_eq_div (d : Decimal) : d.value = d.num / d.den := by
  rw [value, zpow_eq_div (by norm_num), num, den]
  simp only [Nat.pow_eq]
  push_cast
  ring

theorem den_pos (d : Decimal) : 0 < d.den := Nat.pow_pos (by decide)

/-- A numeral with its point after so many digits is below that power of ten. -/
theorem value_lt (d : Decimal) : d.value < 10 ^ d.pointPosition := by
  rw [value, pointPosition, zpow_add₀ (by norm_num), zpow_natCast]
  gcongr
  exact_mod_cast lt_pow_length_digitsOf d.coefficient

/-- The place of the point bounds a decimal number from below. -/
theorem le_value {d : Decimal} (h : 0 < d.coefficient) :
    (10 : ℚ) ^ (d.pointPosition - 1) ≤ d.value := by
  have hpos : 0 < (digitsOf d.coefficient).length := Nat.length_toDigits_pos
  have hpoint : d.pointPosition - 1 =
      ((digitsOf d.coefficient).length - 1 : Nat) + d.exponent := by
    rw [pointPosition]
    omega
  rw [value, hpoint, zpow_add₀ (by norm_num), zpow_natCast]
  gcongr
  exact_mod_cast pow_length_digitsOf_le h

end Decimal

/-! ## Rounding numerals -/

namespace Binary64

/-- Past the last double there are only too large magnitudes. -/
theorem ofOrdinal_of_le {n : Nat} (h : 2047 * binadeSize ≤ n) (negative : Bool) :
    ofOrdinal negative n = .infinite negative := by
  rw [ofOrdinal, dif_neg (Nat.not_lt.2 h)]

/-- The magnitude behind the greatest finite one is a power of two. -/
theorem magnitude_past_last : magnitude (2047 * binadeSize) = 2 ^ (1024 : Int) := by
  -- It is the number that the last binade would go on to.
  have hgrid := magnitude_grid (k := 2046) (m := binadeSize) (Or.inr le_rfl) (by omega)
  rw [binadeSize_cast, ← zpow_add₀ two_ne_zero] at hgrid
  rw [show 2047 * binadeSize = 2046 * binadeSize + binadeSize by omega, hgrid]
  norm_num

/-- The least magnitude above zero. -/
theorem magnitude_one : magnitude 1 = 2 ^ (-1074 : Int) := by
  have hgrid := magnitude_grid (k := 0) (m := 1) (Or.inl rfl) (by decide)
  simpa using hgrid

end Binary64

namespace Decimal

open Binary64

/-- From `10 ^ 310` on all doubles have been passed. -/
theorem infinite_of_point {d : Decimal} {n : Nat} (hpos : 0 < d.coefficient)
    (hpoint : 311 ≤ d.pointPosition) (h : Nearest d.value n) : 2047 * binadeSize ≤ n := by
  refine h.le_of_le ?_
  rw [magnitude_past_last]
  have hpow : (10 : ℚ) ^ (310 : Int) ≤ 10 ^ (d.pointPosition - 1) :=
    zpow_le_zpow_right₀ (by norm_num) (by omega)
  have hnat : 2 ^ 1024 ≤ 10 ^ 310 := by decide +kernel
  have hbase : (2 : ℚ) ^ (1024 : Int) ≤ 10 ^ (310 : Int) := by exact_mod_cast hnat
  exact hbase.trans (hpow.trans (le_value hpos))

/-- Below `10 ^ -330` zero is nearest. -/
theorem nearest_zero_of_point {d : Decimal} (hpoint : d.pointPosition ≤ -330) :
    Nearest d.value 0 := by
  have hnonneg : 0 ≤ d.value := by
    rw [value]
    positivity
  have hpow : (10 : ℚ) ^ d.pointPosition ≤ 10 ^ (-330 : Int) :=
    zpow_le_zpow_right₀ (by norm_num) hpoint
  -- Half of the least magnitude is still more than such a number.
  have hnat : 2 * 2 ^ 1074 < 1 * 10 ^ 330 := by decide +kernel
  have hbase : 2 * (10 : ℚ) ^ (-330 : Int) < 2 ^ (-1074 : Int) := by
    rw [zpow_neg, zpow_neg, ← div_eq_mul_inv, ← one_div,
      div_lt_div_iff₀ (by positivity) (by positivity)]
    exact_mod_cast hnat
  have hvalue := d.value_lt
  have hhalf : 2 * d.value < magnitude (0 + 1) := by
    rw [magnitude_one]
    linarith
  have hzero := magnitude_zero
  exact nearest_below (by linarith) (by linarith) (by linarith) (fun _ => rfl)

/-- A numeral stands for the nearest double. -/
theorem toBinary64_nearest (negative : Bool) (d : Decimal) :
    ∃ n, Nearest d.value n ∧ d.toBinary64 negative = ofOrdinal negative n := by
  -- The fraction is rounded to the nearest, and the shortcuts before it agree with that.
  rcases ofRatio_nearest negative d.num d.den_pos with ⟨n, hn, hround⟩
  rw [← value_eq_div] at hn
  unfold toBinary64
  by_cases hzero : d.coefficient = 0
  · refine ⟨0, ?_, ?_⟩
    · rw [value, hzero, Nat.cast_zero, zero_mul, ← magnitude_zero]
      exact nearest_magnitude 0
    · rw [if_pos hzero]
      rfl
  · rw [if_neg hzero]
    simp only
    split
    · -- Numbers far beyond the doubles are not divided out, and those far below them neither.
      rename_i hlarge
      refine ⟨n, hn, (ofOrdinal_of_le ?_ negative).symm⟩
      exact infinite_of_point (Nat.pos_of_ne_zero hzero) hlarge hn
    · split
      · rename_i hsmall
        exact ⟨0, nearest_zero_of_point hsmall, rfl⟩
      · exact ⟨n, hn, hround⟩

/-- A decimal number becomes the double nearest to it. -/
theorem toBinary64_of_nearest {d : Decimal} {n : Nat} (h : Nearest d.value n)
    (negative : Bool) : d.toBinary64 negative = ofOrdinal negative n := by
  rcases d.toBinary64_nearest negative with ⟨m, hm, hround⟩
  rw [hround, hm.unique h]

end Decimal

/-! ## The digits of a double -/

namespace Binary64

variable {n : Nat}

theorem ofOrdinal_of_lt (h : n < 2047 * binadeSize) (negative : Bool) :
    ofOrdinal negative n = .finite negative ⟨n, h⟩ := by
  rw [ofOrdinal, dif_pos h]

theorem ofOrdinal_injective {m : Nat} (hn : n < 2047 * binadeSize) {negative : Bool}
    (h : ofOrdinal negative m = ofOrdinal negative n) : m = n := by
  rw [ofOrdinal_of_lt hn] at h
  by_cases hm : m < 2047 * binadeSize
  · rw [ofOrdinal_of_lt hm, finite.injEq, Fin.mk.injEq] at h
    exact h.2
  · rw [ofOrdinal_of_le (Nat.not_lt.1 hm)] at h
    exact absurd h nofun

/-- A numeral that reads back as a double has its magnitude for the nearest one. -/
theorem nearest_of_readsBack {d : Decimal} (hn : n < 2047 * binadeSize)
    (h : readsBack n d = true) : Nearest d.value n := by
  rw [readsBack, beq_iff_eq] at h
  rcases d.toBinary64_nearest false with ⟨m, hm, hround⟩
  rw [hround] at h
  rw [← ofOrdinal_injective hn h]
  exact hm

/-- A quotient is rounded to one of its neighbours, so what holds of both holds of the result. -/
theorem roundDiv_induction {p : Nat → Prop} {num den : Nat} (hbelow : p (num / den))
    (habove : p (num / den + 1)) : p (roundDiv num den) := by
  rcases roundDiv_cases num den with ⟨hround, _⟩ | ⟨hround, _⟩
  · rw [hround]
    exact hbelow
  · rw [hround]
    exact habove

-- If both neighbours pass, the one that the value is rounded to is one of them.
theorem nearestOn?_passes {passes : Decimal → Bool} {num den : Nat} {grid : Int} {d : Decimal}
    (h : nearestOn? passes num den grid = some d) : passes d = true := by
  unfold nearestOn? at h
  extract_lets below above at h
  split at h
  · rename_i hbelow habove
    rw [← Option.some.inj h]
    exact roundDiv_induction (p := fun c => passes ⟨c, grid⟩ = true) hbelow habove
  · rename_i hbelow _
    rw [← Option.some.inj h]
    exact hbelow
  · rename_i _ habove
    rw [← Option.some.inj h]
    exact habove
  · exact absurd h nofun

theorem candidate?_readsBack {count : Nat} {d : Decimal} (h : candidate? n count = some d) :
    readsBack n d = true :=
  nearestOn?_passes h

/-- The expansion of a magnitude is exact. -/
theorem value_expansion (n : Nat) : (expansion n).value = magnitude n := by
  -- Below the point a power of two is made one of ten by as many fives.
  have hten : (10 : ℚ) = 2 * 5 := by norm_num
  have hexponent : min (exponent n) 0 = -((-exponent n).toNat : Int) := by omega
  rw [Decimal.value, expansion, magnitude, zpow_eq_div two_ne_zero]
  simp only [Nat.pow_eq]
  rw [hexponent, zpow_neg, zpow_natCast, hten, mul_pow]
  push_cast
  field_simp

/-- The digits of a double stand for it. -/
theorem shortest_nearest (hn : n < 2047 * binadeSize) : Nearest (shortest n).value n := by
  rw [shortest]
  -- If no short row of digits reads back, the expansion does.
  cases hsearch : (List.range' 1 17).findSome? (candidate? n) with
  | none =>
      rw [Option.getD_none, value_expansion]
      exact nearest_magnitude n
  | some d =>
      rcases List.exists_of_findSome?_eq_some hsearch with ⟨count, _, hcandidate⟩
      exact nearest_of_readsBack hn (candidate?_readsBack hcandidate)

/-- Positive doubles have positive digits. -/
theorem shortest_coefficient_pos (hpos : 0 < n) (hn : n < 2047 * binadeSize) :
    0 < (shortest n).coefficient := by
  have hnearest := shortest_nearest hn
  rcases Nat.eq_zero_or_pos (shortest n).coefficient with hzero | hcoefficient
  · rw [Decimal.value, hzero, Nat.cast_zero, zero_mul, ← magnitude_zero] at hnearest
    have hn0 := hnearest.unique (nearest_magnitude 0)
    omega
  · exact hcoefficient

end Binary64

end StageTree
