/-!
# Double-Precision Numbers

Floating-point numbers of 53 significant bits, held exactly.

A finite number is a sign and an ordinal: its place among the magnitudes, counted from zero
upward. Consecutive ordinals are consecutive magnitudes, so rounding is a choice between two
neighbouring ordinals, and a significand that overflows into the next binade needs no
special case: its ordinal is already the right one. The ordinals past the last one stand for
magnitudes too large to represent.

Everything here is computed on natural numbers. Nothing depends on the floating-point unit, so
every value can be computed with in a proof.

## Main definitions

* `Binary64`: A number, an infinity or the value that is not a number.
* `Binary64.significand`, `Binary64.exponent`: An ordinal's magnitude as
  `significand * 2 ^ exponent`.
* `roundDiv`: A quotient rounded to the nearest natural number, a half going to the even one.
* `Binary64.ofRatio`: The nearest number to a fraction.
* `Binary64.integer?`: The integer that a number equals, if it equals one.
-/

namespace StageTree

/-- How many magnitudes a binade holds. -/
abbrev binadeSize : Nat := Nat.pow 2 52

/-- A double-precision floating-point number. -/
inductive Binary64 where
  /-- The value that is not a number. -/
  | nan
  /-- One of the two infinities. -/
  | infinite (negative : Bool)
  /-- A finite number: its sign and the place of its magnitude among all magnitudes. -/
  | finite (negative : Bool) (ordinal : Fin (2047 * binadeSize))
  deriving DecidableEq

/-- The natural number nearest to `num / den`, a half going to the even neighbour. -/
def roundDiv (num den : Nat) : Nat :=
  let quotient := num / den
  let twice := 2 * (num % den)
  if twice < den then quotient
  else if den < twice then quotient + 1
  else if quotient % 2 = 0 then quotient else quotient + 1

/-- The greatest `k` with `2 ^ k ≤ num / den`, for a positive fraction. The two logarithms
    are off by at most one from the logarithm of the quotient, and the comparison settles
    which it is. -/
def floorLog2 (num den : Nat) : Int :=
  let guess : Int := (num.log2 : Int) - den.log2
  if den * Nat.pow 2 guess.toNat ≤ num * Nat.pow 2 (-guess).toNat then guess else guess - 1

namespace Binary64

/-- The significand of the magnitude at an ordinal. The first binade holds the subnormal
    magnitudes, whose significand is the ordinal itself. -/
def significand (ordinal : Nat) : Nat :=
  if ordinal < binadeSize then ordinal else binadeSize + ordinal % binadeSize

/-- The binary exponent of the magnitude at an ordinal. -/
def exponent (ordinal : Nat) : Int :=
  if ordinal < binadeSize then -1074 else (ordinal / binadeSize : Nat) - 1075

/-- The number with the given sign and ordinal, or an infinity past the last ordinal. -/
def ofOrdinal (negative : Bool) (ordinal : Nat) : Binary64 :=
  if inRange : ordinal < 2047 * binadeSize then .finite negative ⟨ordinal, inRange⟩
  else .infinite negative

/-- Zero with a sign. -/
def zero (negative : Bool) : Binary64 := .finite negative ⟨0, by decide⟩

/-- The binary exponent of the grid on which a positive fraction is rounded: 53 bits below
    its leading bit, but never below the finest grid. -/
def gridExponent (num den : Nat) : Int :=
  max (floorLog2 num den - 52) (-1074)

/-- The number nearest to the fraction `num / den`, a half going to the even significand.
    A fraction whose rounded significand reaches `2 ^ 53` lands on the first ordinal of the
    next binade. -/
def ofRatio (negative : Bool) (num den : Nat) : Binary64 :=
  if num = 0 then zero negative
  else
    let grid := gridExponent num den
    let rounded := roundDiv (num * Nat.pow 2 (-grid).toNat) (den * Nat.pow 2 grid.toNat)
    -- The leading bit of a normal significand is one binade by itself, so the sum counts it.
    ofOrdinal negative ((grid + 1074).toNat * binadeSize + rounded)

/-- The number nearest to an integer. -/
def ofInt (n : Int) : Binary64 := ofRatio (n < 0) n.natAbs 1

/-- The natural number that the magnitude at an ordinal equals, if it equals one. -/
def naturalMagnitude? (ordinal : Nat) : Option Nat :=
  let m := significand ordinal
  let e := exponent ordinal
  -- A negative exponent divides by a power of two, and the quotient must be exact.
  let scale := Nat.pow 2 (-e).toNat
  if m % scale = 0 then some (m / scale * Nat.pow 2 e.toNat) else none

/-- The integer that a number equals, if it equals one. Both zeros equal zero. -/
def integer? : Binary64 → Option Int
  | .finite negative ordinal =>
    (naturalMagnitude? ordinal.val).map fun (n : Nat) => if negative then -(n : Int) else n
  | _ => none

/-- Numerical equality: the two zeros are equal, and what is not a number equals nothing. -/
def numEq : Binary64 → Binary64 → Bool
  | .infinite a, .infinite b => a == b
  | .finite a m, .finite b n => m.val == n.val && (a == b || m.val == 0)
  | _, _ => false

/-- Whether a number is zero or less. What is not a number is not. -/
def isNonpositive : Binary64 → Bool
  | .nan => false
  | .infinite negative => negative
  | .finite negative ordinal => negative || ordinal.val == 0

/-- Whether a number is an infinity. -/
def isInfinite : Binary64 → Bool
  | .infinite _ => true
  | _ => false

end Binary64

end StageTree
