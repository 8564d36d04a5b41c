import Mathlib.Tactic.Ring
import StageTree.Proofs.Number.Text

/-!
# Digits and What They Are Worth

Digits that a number is written with are worth the number again, so different numbers are
written differently.

The library reads digits with `Nat.ofDigitChars`, and reading them here is the same fold.

## Theorems

* `digitsValue_digitsOf`: The digits of a number are worth the number.
* `digitsValue_append`: The value of digits in front of others.
* `digitsOf_injective`, `integerText_injective`: Numbers are told apart by how they are written.
-/

namespace StageTree

theorem digitsValue_eq (ds : List Char) : digitsValue ds = Nat.ofDigitChars 10 ds 0 := rfl

/-- The digits of a number are worth the number. -/
theorem digitsValue_digitsOf (n : Nat) : digitsValue (digitsOf n) = n :=
  Nat.ofDigitChars_toDigits (by decide) (by decide)

/-- Numbers with the same digits are the same. -/
theorem digitsOf_injective {m n : Nat} (h : digitsOf m = digitsOf n) : m = n := by
  have hvalue := congrArg digitsValue h
  rw [digitsValue_digitsOf, digitsValue_digitsOf] at hvalue
  exact hvalue

/-- Digits in front of others are worth as many powers of ten more as there are others. -/
theorem digitsValue_append (xs ys : List Char) :
    digitsValue (xs ++ ys) = digitsValue xs * 10 ^ ys.length + digitsValue ys := by
  -- By induction on the digits behind, with any value in place of that of the digits in front.
  have hfold (v : Nat) : ys.foldl (fun value c => 10 * value + digitValue c) v =
      v * 10 ^ ys.length + digitsValue ys := by
    induction ys generalizing v with
    | nil => rw [List.foldl_nil, List.length_nil, pow_zero, Nat.mul_one]; rfl
    | cons y ys ih =>
        rw [List.foldl_cons, digitsValue, List.foldl_cons, ih, ih, List.length_cons, pow_succ]
        ring
  rw [digitsValue, List.foldl_append]
  exact hfold _

theorem digitsValue_zeros (count : Nat) : digitsValue (Decimal.zeros count) = 0 := by
  rw [digitsValue_eq, Decimal.zeros, Nat.ofDigitChars_replicate_zero, Nat.mul_zero]

/-- Zeros in front of digits count for nothing. -/
theorem digitsValue_zeros_append (count : Nat) (ds : List Char) :
    digitsValue (Decimal.zeros count ++ ds) = digitsValue ds := by
  rw [digitsValue_append, digitsValue_zeros, Nat.zero_mul, Nat.zero_add]

/-- Zeros behind digits count as powers of ten. -/
theorem digitsValue_append_zeros (ds : List Char) (count : Nat) :
    digitsValue (ds ++ Decimal.zeros count) = digitsValue ds * 10 ^ count := by
  rw [digitsValue_append, digitsValue_zeros, Nat.add_zero, Decimal.zeros, List.length_replicate]

/-- The digits of a coefficient are its significant ones and then zeros. -/
theorem Decimal.exists_digitsOf_eq (d : Decimal) :
    ∃ count, digitsOf d.coefficient = d.significantDigits ++ zeros count := by
  have hzeros : ((digitsOf d.coefficient).reverse.takeWhile (· == '0')).reverse =
      zeros ((digitsOf d.coefficient).reverse.takeWhile (· == '0')).length := by
    refine List.eq_replicate_iff.2 ⟨List.length_reverse, fun c hc => ?_⟩
    exact beq_iff_eq.1 (List.all_eq_true.1 List.all_takeWhile c (List.mem_reverse.1 hc))
  refine ⟨((digitsOf d.coefficient).reverse.takeWhile (· == '0')).length, ?_⟩
  rw [significantDigits, ← hzeros, ← List.reverse_append, List.takeWhile_append_dropWhile,
    List.reverse_reverse]

/-- Digits are no signs. -/
theorem digitsOf_ne_minus (m : Nat) (rest : List Char) : digitsOf m ≠ '-' :: rest := by
  intro h
  have hdigit : '-'.isDigit = true := isDigit_of_mem_digitsOf (n := m) (h ▸ List.mem_cons_self)
  exact absurd hdigit (by decide)

/-- An integer is written as its digits, behind a minus sign if it is negative. -/
theorem integerText_toList (n : Int) : (integerText n).toList =
    if n < 0 then '-' :: digitsOf n.natAbs else digitsOf n.natAbs := by
  rw [integerText]
  split
  · simp only [String.toList_append, String.toList_ofList]
    rfl
  · rw [String.toList_ofList]

/-- An integer's text has digits, and perhaps a sign. -/
theorem mem_integerText {n : Int} {c : Char} (h : c ∈ (integerText n).toList) :
    c = '-' ∨ c.isDigit = true := by
  rw [integerText_toList] at h
  split at h
  · exact (List.mem_cons.1 h).imp id isDigit_of_mem_digitsOf
  · exact Or.inr (isDigit_of_mem_digitsOf h)

/-- Integers are told apart by their texts: by the sign first, and then by the digits. -/
theorem integerText_injective {m n : Int} (h : integerText m = integerText n) : m = n := by
  have hlist := congrArg String.toList h
  rw [integerText_toList, integerText_toList] at hlist
  split at hlist
  · split at hlist
    · have habs := digitsOf_injective (List.cons.inj hlist).2
      omega
    · exact absurd hlist.symm (digitsOf_ne_minus _ _)
  · split at hlist
    · exact absurd hlist (digitsOf_ne_minus _ _)
    · have habs := digitsOf_injective hlist
      omega

end StageTree
