import StageTree.Proofs.Number.Rounding

/-!
# Rounding Integers

Which doubles integers are rounded to. Rounding keeps the order, so it is told by a few
boundaries where it goes over from one magnitude to the next: the middle of two neighbouring
magnitudes. The last one of them lies between the greatest double and the power of two that would
follow it, and from there on integers are too large.

Up to `2 ^ 53` all integers are magnitudes. From there on all magnitudes are integers. So what an
integer is rounded to is an integer again.

## Main definitions

* `Binary64.signed`: A fraction with a sign.
* `Binary64.IsNearest`: The finite number nearest to a fraction, and its value.

## Theorems

* `Binary64.Nearest.mono`: Rounding keeps the order.
* `Binary64.Nearest.past_last_iff`: Which fractions are too large.
* `Binary64.isNearest_ofOrdinal`: From magnitudes to numbers with a sign.
* `Binary64.exists_magnitude_eq`, `Binary64.exists_natural`: Magnitudes that are integers.
* `Binary64.Nearest.natural`: An integer is rounded to an integer.
* `Binary64.isInfinite_ofInt`, `Binary64.ofInt_isNearest`, `Binary64.ofInt_mono`: Integers.
-/

namespace StageTree

namespace Binary64

variable {q r : ℚ} {m n : Nat}

/-! ## The middle of two magnitudes -/

/-- Of two fractions the larger one is nearer if their middle has been reached. -/
theorem abs_sub_le_iff_middle {a b : ℚ} (h : a < b) : |q - b| ≤ |q - a| ↔ a + b ≤ 2 * q := by
  constructor
  · intro hle
    rcases abs_cases (q - a) with ⟨ha, _⟩ | ⟨ha, _⟩ <;>
      rcases abs_cases (q - b) with ⟨hb, _⟩ | ⟨hb, _⟩ <;> linarith
  · intro hmiddle
    rcases abs_cases (q - a) with ⟨ha, _⟩ | ⟨ha, _⟩ <;>
      rcases abs_cases (q - b) with ⟨hb, _⟩ | ⟨hb, _⟩ <;> linarith

/-- The smaller one is nearer if their middle has not been passed. -/
theorem abs_sub_ge_iff_middle {a b : ℚ} (h : a < b) : |q - a| ≤ |q - b| ↔ 2 * q ≤ a + b := by
  -- The same fact, seen from the other side of zero.
  have hmirror := abs_sub_le_iff_middle (q := -q) (neg_lt_neg h)
  rw [neg_sub_neg, neg_sub_neg, abs_sub_comm a, abs_sub_comm b] at hmirror
  rw [hmirror]
  constructor <;> intro hmiddle <;> linarith

/-- Rounding keeps the order. -/
theorem Nearest.mono (hq : Nearest q m) (hr : Nearest r n) (h : q ≤ r) : m ≤ n := by
  by_contra hlt
  have hmag : magnitude n < magnitude m := magnitude_strictMono (Nat.not_le.1 hlt)
  -- The larger fraction is not past the middle that the smaller one has reached.
  have hreached := (abs_sub_le_iff_middle hmag).1 (hq.closest n)
  have hnotPast := (abs_sub_ge_iff_middle hmag).1 (hr.closest m)
  have heq : q = r := by linarith
  rw [heq] at hq
  exact hlt (hq.unique hr).le

/-- A fraction that has reached the middle above an odd ordinal is rounded past that. -/
theorem Nearest.past_middle (h : Nearest q n) (hodd : m % 2 = 1)
    (hmiddle : magnitude m + magnitude (m + 1) ≤ 2 * q) : m + 1 ≤ n := by
  by_contra hlt
  have hle : magnitude n ≤ magnitude m := magnitude_strictMono.monotone (by omega)
  have hnext : magnitude n < magnitude (m + 1) := hle.trans_lt (magnitude_lt_succ m)
  have hnotPast := (abs_sub_ge_iff_middle hnext).1 (h.closest (m + 1))
  -- So the fraction is in the middle, and the ordinal is the odd one.
  have hmag : magnitude n = magnitude m := by linarith
  have hdist : |q - magnitude (m + 1)| = |q - magnitude n| :=
    le_antisymm ((abs_sub_le_iff_middle hnext).2 (by linarith)) (h.closest (m + 1))
  have heven := h.even (m + 1) (by omega) hdist
  rw [magnitude_strictMono.injective hmag] at heven
  omega

/-- A fraction that has not reached the middle is not rounded past it. -/
theorem Nearest.below_middle (h : Nearest q n)
    (hmiddle : 2 * q < magnitude m + magnitude (m + 1)) : n ≤ m := by
  by_contra hlt
  have hle : magnitude (m + 1) ≤ magnitude n := magnitude_strictMono.monotone (Nat.not_le.1 hlt)
  have hmag : magnitude m < magnitude n := (magnitude_lt_succ m).trans_le hle
  have hreached := (abs_sub_le_iff_middle hmag).1 (h.closest m)
  linarith

/-! ## The greatest double -/

theorem magnitude_last : magnitude (2047 * binadeSize - 1) = 2 ^ 1024 - 2 ^ 971 := by
  have hgrid := magnitude_grid (k := 2045) (m := 2 * binadeSize - 1) (Or.inr (by decide))
    (by decide)
  have hlast : 2047 * binadeSize - 1 = 2045 * binadeSize + (2 * binadeSize - 1) := by decide
  have hcast : ((2 * binadeSize - 1 : Nat) : ℚ) = 2 ^ 53 - 1 := by
    rw [binadeSize_eq]
    norm_num
  have hexponent : ((2045 : Nat) : Int) - 1074 = (971 : Nat) := by norm_num
  rw [hlast, hgrid, hcast, hexponent, zpow_natCast, sub_mul, one_mul, ← pow_add]

/-- Fractions from the middle of the greatest double and `2 ^ 1024` on are too large. -/
theorem Nearest.past_last_iff (h : Nearest q n) :
    2047 * binadeSize ≤ n ↔ 2 ^ 1024 - 2 ^ 970 ≤ q := by
  have hnext : 2047 * binadeSize = 2047 * binadeSize - 1 + 1 := by decide
  have hmiddle : magnitude (2047 * binadeSize - 1) + magnitude (2047 * binadeSize - 1 + 1) =
      2 * (2 ^ 1024 - 2 ^ 970) := by
    rw [← hnext, magnitude_last, magnitude_past_last]
    have hhalf : (2 : ℚ) ^ 971 = 2 * 2 ^ 970 := pow_succ' 2 970
    have hcast : (2 : ℚ) ^ (1024 : Int) = 2 ^ 1024 := zpow_natCast 2 1024
    rw [hhalf, hcast]
    generalize (2 : ℚ) ^ 1024 = power, (2 : ℚ) ^ 970 = half
    ring
  generalize (2 : ℚ) ^ 1024 - 2 ^ 970 = limit at hmiddle ⊢
  constructor
  · intro hpast
    by_contra hlt
    have hle := h.below_middle (m := 2047 * binadeSize - 1) (by linarith)
    omega
  · intro hlarge
    -- The ordinal of the greatest double is odd, so in the middle it is not the one.
    rw [hnext]
    exact h.past_middle (by decide) (by linarith)

/-! ## Numbers with a sign -/

/-- A fraction with a sign. -/
def signed (negative : Bool) (q : ℚ) : ℚ := if negative then -q else q

theorem value?_finite (negative : Bool) (ordinal : Fin (2047 * binadeSize)) :
    value? (.finite negative ordinal) = some (signed negative (magnitude ordinal.val)) := rfl

/-- The double of an ordinal has the magnitude as its value, with the sign. -/
theorem value?_ofOrdinal (negative : Bool) (h : n < 2047 * binadeSize) :
    (ofOrdinal negative n).value? = some (signed negative (magnitude n)) := by
  rw [ofOrdinal_of_lt h, value?_finite]

/-- Whether a number is finite and its significand is even. -/
def EvenSignificand : Binary64 → Prop
  | .finite _ ordinal => significand ordinal.val % 2 = 0
  | _ => False

/-- Ordinals and their significands are even together. -/
theorem significand_mod_two (n : Nat) : significand n % 2 = n % 2 := by
  rw [significand]
  simp only [binadeSize_eq]
  split <;> omega

/-- The finite number that is nearest to a fraction, and its value. -/
structure IsNearest (q : ℚ) (x : Binary64) (v : ℚ) : Prop where
  value : x.value? = some v
  /-- No finite number is nearer. -/
  closest : ∀ y w, value? y = some w → |q - v| ≤ |q - w|
  /-- If one with another value is equally near, the significand is even. -/
  even : ∀ y w, value? y = some w → w ≠ v → |q - w| = |q - v| → x.EvenSignificand

/-- How far a fraction is from a magnitude, both with a sign. With different signs zero is between
    the two. -/
theorem abs_signed_sub (hq : 0 ≤ q) (s t : Bool) (n : Nat) :
    |signed s q - signed t (magnitude n)| =
      if s = t then |q - magnitude n| else q + magnitude n := by
  have hnonneg := magnitude_nonneg n
  have hsum : |q + magnitude n| = q + magnitude n := abs_of_nonneg (by linarith)
  cases s <;> cases t <;> simp only [signed, Bool.false_eq_true, if_false, if_true, reduceCtorEq]
  · rw [sub_neg_eq_add, hsum]
  · rw [← neg_add', abs_neg, hsum]
  · rw [neg_sub_neg, abs_sub_comm]

-- A number with the other sign is as far away as zero at least, and zero has either sign.
theorem isNearest_ofOrdinal (hq : 0 ≤ q) (h : Nearest q n) (hn : n < 2047 * binadeSize)
    (negative : Bool) :
    IsNearest (signed negative q) (ofOrdinal negative n) (signed negative (magnitude n)) := by
  -- Zero is a candidate, so the nearest magnitude is no further away.
  have hzero : |q - magnitude n| ≤ q := by
    have hclosest := h.closest 0
    rwa [magnitude_zero, sub_zero, abs_of_nonneg hq] at hclosest
  refine ⟨value?_ofOrdinal negative hn, ?_, ?_⟩
  · intro y w hw
    cases y with
    | finite s m =>
        rw [← Option.some.inj hw, ← signed, abs_signed_sub hq, abs_signed_sub hq, if_pos rfl]
        -- A double of the other sign is further away than zero is.
        by_cases hs : negative = s
        · rw [if_pos hs]
          exact h.closest m.val
        · rw [if_neg hs]
          have hnonneg := magnitude_nonneg m.val
          linarith
    | _ => cases hw
  · intro y w hw hne hdist
    rw [ofOrdinal_of_lt hn, EvenSignificand, significand_mod_two]
    cases y with
    | finite s m =>
        rw [← Option.some.inj hw, ← signed] at hne hdist
        rw [abs_signed_sub hq, abs_signed_sub hq, if_pos rfl] at hdist
        by_cases hs : negative = s
        · rw [if_pos hs] at hdist
          refine h.even m.val (fun hm => hne ?_) hdist
          rw [hs, hm]
        · -- The other number must be zero, so it counts as one with the same sign.
          rw [if_neg hs] at hdist
          have hnonneg := magnitude_nonneg m.val
          have hm : magnitude m.val = 0 := by linarith
          refine h.even 0 (fun hn0 => hne ?_) ?_
          · rw [hm, ← hn0, magnitude_zero]
            cases s <;> cases negative <;> simp [signed]
          · rw [magnitude_zero, sub_zero, abs_of_nonneg hq]
            linarith
    | _ => cases hw

/-! ## Magnitudes that are integers -/

/-- Every natural number up to `2 ^ 53` is a magnitude. -/
theorem exists_magnitude_eq {k : Nat} (h : k ≤ 2 ^ 53) : ∃ n, magnitude n = k := by
  by_cases hzero : k = 0
  · exact ⟨0, by rw [hzero, magnitude_zero, Nat.cast_zero]⟩
  · -- The number is doubled until it is a coefficient of a grid of its own.
    have hlow : 2 ^ k.log2 ≤ k := Nat.log2_self_le hzero
    have hhigh : k < 2 ^ (k.log2 + 1) := Nat.lt_log2_self
    have hcoefficient : binadeSize ≤ k * 2 ^ (52 - k.log2) := by
      calc
        2 ^ 52 ≤ 2 ^ (k.log2 + (52 - k.log2)) := Nat.pow_le_pow_right Nat.two_pos (by omega)
        _ = 2 ^ k.log2 * 2 ^ (52 - k.log2) := pow_add _ _ _
        _ ≤ k * 2 ^ (52 - k.log2) := Nat.mul_le_mul_right _ hlow
    have hbound : k * 2 ^ (52 - k.log2) ≤ 2 * binadeSize := by
      by_cases hsmall : k.log2 ≤ 52
      · calc
          k * 2 ^ (52 - k.log2) ≤ 2 ^ (k.log2 + 1) * 2 ^ (52 - k.log2) :=
            Nat.mul_le_mul_right _ hhigh.le
          _ = 2 ^ 53 := by
            rw [← pow_add]
            congr 1
            omega
      · rw [Nat.sub_eq_zero_of_le (by omega), pow_zero, Nat.mul_one]
        exact h
    refine ⟨(1074 - (52 - k.log2)) * binadeSize + k * 2 ^ (52 - k.log2), ?_⟩
    have hexponent : ((1074 - (52 - k.log2) : Nat) : Int) - 1074 = -(52 - k.log2 : Nat) := by
      omega
    rw [magnitude_grid (.inr hcoefficient) hbound, hexponent, zpow_neg, zpow_natCast]
    push_cast
    field_simp

/-- Where doubles stop to hold every integer. -/
theorem magnitude_two_pow_53 : magnitude (1076 * binadeSize) = 2 ^ 53 := by
  have hgrid := magnitude_grid (k := 1074) (m := 2 * binadeSize) (Or.inr (by decide)) le_rfl
  have hexponent : ((1074 : Nat) : Int) - 1074 = 0 := rfl
  rw [show 1076 * binadeSize = 1074 * binadeSize + 2 * binadeSize by decide, hgrid, hexponent,
    zpow_zero, binadeSize_eq]
  norm_num

/-- From `2 ^ 53` on all magnitudes are integers. -/
theorem exists_natural (h : 1076 * binadeSize ≤ n) : ∃ k : Nat, magnitude n = k := by
  have hdiv : 1076 ≤ n / binadeSize := (Nat.le_div_iff_mul_le (by decide)).2 h
  have hfirst : ¬n < binadeSize := by omega
  have hexponent : exponent n = (n / binadeSize - 1075 : Nat) := by
    rw [exponent, if_neg hfirst]
    omega
  refine ⟨significand n * 2 ^ (n / binadeSize - 1075), ?_⟩
  rw [magnitude, hexponent, zpow_natCast]
  push_cast
  rfl

/-- An integer is rounded to itself, or to an integer from `2 ^ 53` on. -/
theorem Nearest.natural {k : Nat} (h : Nearest k n) :
    (k ≤ 2 ^ 53 → magnitude n = k) ∧ ∃ l : Nat, magnitude n = l := by
  have hexact (hk : k ≤ 2 ^ 53) : magnitude n = k := by
    rcases exists_magnitude_eq hk with ⟨m, hm⟩
    rw [← hm] at h ⊢
    rw [h.unique (nearest_magnitude m)]
  refine ⟨hexact, ?_⟩
  by_cases hk : k ≤ 2 ^ 53
  · exact ⟨k, hexact hk⟩
  · -- Past `2 ^ 53` rounding does not go back below it.
    refine exists_natural (h.le_of_le ?_)
    rw [magnitude_two_pow_53]
    exact_mod_cast (Nat.not_le.1 hk).le

/-! ## Integers -/

/-- An integer is rounded by its size, and keeps its sign. -/
theorem ofInt_nearest (i : Int) :
    ∃ n, Nearest i.natAbs n ∧ ofInt i = ofOrdinal (decide (i < 0)) n := by
  rcases ofRatio_nearest (decide (i < 0)) i.natAbs Nat.one_pos with ⟨n, hn, hround⟩
  rw [Nat.cast_one, div_one] at hn
  exact ⟨n, hn, hround⟩

/-- An integer is its absolute value with its sign. -/
theorem signed_natAbs (i : Int) : signed (decide (i < 0)) i.natAbs = i := by
  rw [signed, Nat.cast_natAbs]
  by_cases h : i < 0
  · rw [if_pos (decide_eq_true h), abs_of_neg h]
    push_cast
    ring
  · rw [if_neg (by simpa using h), abs_of_nonneg (Int.not_lt.1 h)]

theorem cast_two_pow_sub {a b : Nat} (h : b ≤ a) :
    ((2 ^ a - 2 ^ b : Nat) : ℚ) = 2 ^ a - 2 ^ b := by
  rw [Nat.cast_sub (Nat.pow_le_pow_right Nat.two_pos h)]
  push_cast
  rfl

/-- Integers from `2 ^ 1024 - 2 ^ 970` on are too large. -/
theorem isInfinite_ofInt (i : Int) :
    (ofInt i).isInfinite = true ↔ 2 ^ 1024 - 2 ^ 970 ≤ i.natAbs := by
  rcases ofInt_nearest i with ⟨n, hn, hround⟩
  have hlimit := hn.past_last_iff
  rw [← cast_two_pow_sub (by decide), Nat.cast_le] at hlimit
  rw [hround, ← hlimit]
  by_cases hlast : n < 2047 * binadeSize
  · rw [ofOrdinal_of_lt hlast]
    exact iff_of_false nofun (Nat.not_le.2 hlast)
  · rw [ofOrdinal_of_le (Nat.not_lt.1 hlast)]
    exact iff_of_true rfl (Nat.not_lt.1 hlast)

/-- Other integers are rounded to the nearest number. It is the integer itself up to `2 ^ 53`, and
    an integer always. -/
theorem ofInt_isNearest {i : Int} (h : (ofInt i).isInfinite = false) :
    ∃ j : Int, IsNearest i (ofInt i) j ∧ (i.natAbs ≤ 2 ^ 53 → j = i) := by
  rcases ofInt_nearest i with ⟨n, hn, hround⟩
  have hlast : n < 2047 * binadeSize := by
    by_contra hpast
    rw [hround, ofOrdinal_of_le (Nat.not_lt.1 hpast)] at h
    cases h
  rcases hn.natural with ⟨hexact, l, hl⟩
  have hnearest := isNearest_ofOrdinal (Nat.cast_nonneg _) hn hlast (decide (i < 0))
  rw [signed_natAbs, ← hround] at hnearest
  -- The integer that the magnitude is gets the sign back.
  have hcast : signed (decide (i < 0)) (magnitude n) = (if i < 0 then -(l : Int) else l : Int) := by
    rw [hl, signed]
    by_cases hneg : i < 0
    · simp [hneg]
    · simp [hneg]
  rw [hcast] at hnearest
  refine ⟨_, hnearest, fun hsmall => ?_⟩
  have hl' : l = i.natAbs := by
    rw [hexact hsmall] at hl
    exact_mod_cast hl.symm
  rw [hl']
  split <;> omega

/-- Rounding integers keeps their order. -/
theorem ofInt_mono {i j : Int} (h : i ≤ j) {v w : ℚ} (hv : (ofInt i).value? = some v)
    (hw : (ofInt j).value? = some w) : v ≤ w := by
  have hfinite {k : Int} {u : ℚ} (hu : (ofInt k).value? = some u) :
      ∃ n, Nearest k.natAbs n ∧ u = signed (decide (k < 0)) (magnitude n) := by
    rcases ofInt_nearest k with ⟨n, hn, hround⟩
    rw [hround] at hu
    by_cases hlast : n < 2047 * binadeSize
    · rw [value?_ofOrdinal _ hlast] at hu
      exact ⟨n, hn, (Option.some.inj hu).symm⟩
    · rw [ofOrdinal_of_le (Nat.not_lt.1 hlast)] at hu
      cases hu
  rcases hfinite hv with ⟨m, hm, rfl⟩
  rcases hfinite hw with ⟨n, hn, rfl⟩
  have hmPos := magnitude_nonneg m
  have hnPos := magnitude_nonneg n
  -- The signs of the integers are those of their doubles.
  by_cases hi : i < 0
  · by_cases hj : j < 0
    · -- Below zero the order of the sizes is the other one.
      have hle : magnitude n ≤ magnitude m :=
        magnitude_strictMono.monotone (hn.mono hm (by exact_mod_cast (by omega)))
      simpa [signed, hi, hj] using hle
    · simp only [signed, hi, hj, decide_true, decide_false, if_true, Bool.false_eq_true, if_false]
      linarith
  · have hj : ¬j < 0 := by omega
    have hle : magnitude m ≤ magnitude n :=
      magnitude_strictMono.monotone (hm.mono hn (by exact_mod_cast (by omega)))
    simpa [signed, hi, hj] using hle

end Binary64

end StageTree
