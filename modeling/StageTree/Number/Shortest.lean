import StageTree.Number.Decimal

/-!
# The Shortest Decimal of a Double

The decimal text of a double: the fewest digits that read back as the same double, and of
those the digits nearest to its value.

For each count of digits only two numerals can be wanted, the neighbours of the value on the
grid of numerals with that many digits, so the search looks at two candidates for each count
and stops at the first count for which one of them reads back. Seventeen digits always
suffice; the exact decimal expansion stands behind the search, so that the result reads back
by its form alone.

## Main definitions

* `Binary64.shortest`: The digits of a positive double.
* `Decimal.text`: A numeral written in the ordinary way while its point is near its digits,
  and with a power of ten otherwise.
* `Binary64.text`: The text of a double.
-/

namespace StageTree

namespace Binary64

/-- The numerator of the magnitude at an ordinal, as a fraction. -/
def num (ordinal : Nat) : Nat := significand ordinal * Nat.pow 2 (exponent ordinal).toNat

/-- The denominator of the magnitude at an ordinal, as a fraction. -/
def den (ordinal : Nat) : Nat := Nat.pow 2 (-(exponent ordinal)).toNat

/-- The exponent of the leading decimal digit of a positive magnitude. Every positive double
    is above `10 ^ -350`, so the digits of the value scaled by `10 ^ 350` tell it. -/
def leadingExponent (ordinal : Nat) : Int :=
  ((digitsOf (num ordinal * Nat.pow 10 350 / den ordinal)).length : Int) - 351

/-- The decimal expansion of a magnitude, complete. -/
def expansion (ordinal : Nat) : Decimal :=
  let e := exponent ordinal
  ⟨significand ordinal * Nat.pow 2 e.toNat * Nat.pow 5 (-e).toNat, min e 0⟩

/-- Whether a numeral's nearest double is the one at an ordinal. -/
def readsBack (ordinal : Nat) (d : Decimal) : Bool :=
  d.toBinary64 false == ofOrdinal false ordinal

/-- The numeral on a grid that passes a test and is nearest to a value, if there is one. The
    value is a number of steps of the grid and lies between its two neighbours there; if both
    pass, the nearer is taken, and of two equally near the even one. -/
def nearestOn? (passes : Decimal → Bool) (num den : Nat) (grid : Int) : Option Decimal :=
  -- The value is between these two, or equals the lower one.
  let below : Decimal := ⟨num / den, grid⟩
  let above : Decimal := ⟨num / den + 1, grid⟩
  match passes below, passes above with
  | true, true => some ⟨roundDiv num den, grid⟩
  | true, false => some below
  | false, true => some above
  | false, false => none

/-- The numeral with `count` digits that reads back as a magnitude and is nearest to it, if
    there is one. -/
def candidate? (ordinal count : Nat) : Option Decimal :=
  let grid : Int := leadingExponent ordinal - count + 1
  nearestOn? (readsBack ordinal) (num ordinal * Nat.pow 10 (-grid).toNat)
    (den ordinal * Nat.pow 10 grid.toNat) grid

/-- The fewest digits that read back as a positive magnitude, and of those the nearest to
    its value. -/
def shortest (ordinal : Nat) : Decimal :=
  ((List.range' 1 17).findSome? (candidate? ordinal)).getD (expansion ordinal)

end Binary64

namespace Decimal

/-- The digits of a coefficient without the zeros at its end. -/
def significantDigits (d : Decimal) : List Char :=
  ((digitsOf d.coefficient).reverse.dropWhile (· == '0')).reverse

/-- How many digits of a numeral stand before its point; not positive if it starts with
    zeros after the point. -/
def pointPosition (d : Decimal) : Int := (digitsOf d.coefficient).length + d.exponent

/-- A row of zeros. -/
def zeros (count : Nat) : List Char := List.replicate count '0'

/-- A power of ten as written: a sign and at least two digits. -/
def scaleText (power : Int) : List Char :=
  let digits := digitsOf power.natAbs
  (if power < 0 then '-' else '+') :: (zeros (2 - digits.length) ++ digits)

/-- Digits with their point, where the point stands among them or close by. A whole number
    keeps one zero after its point. -/
def positionalText (digits : List Char) (point : Int) : List Char :=
  if point ≤ 0 then "0.".toList ++ zeros (-point).toNat ++ digits
  else if digits.length ≤ point.toNat then
    digits ++ zeros (point.toNat - digits.length) ++ ".0".toList
  else digits.take point.toNat ++ '.' :: digits.drop point.toNat

/-- Digits as one digit, a fraction if there are more, and a power of ten. -/
def scaledText (digits : List Char) (point : Int) : List Char :=
  digits.take 1 ++ (if digits.length ≤ 1 then [] else '.' :: digits.drop 1)
    ++ 'e' :: scaleText (point - 1)

/-- The text of a positive numeral: positional from `0.0001` up to sixteen digits before the
    point, and with a power of ten outside of that. -/
def text (d : Decimal) : List Char :=
  let digits := d.significantDigits
  let point := d.pointPosition
  if -4 < point && point ≤ 16 then positionalText digits point else scaledText digits point

end Decimal

namespace Binary64

/-- The text of a magnitude. -/
def magnitudeText (ordinal : Nat) : List Char :=
  if ordinal = 0 then "0.0".toList else (shortest ordinal).text

/-- The text of a double. It keeps the sign of zero, and has a point or a power of ten in
    every finite number. -/
def text : Binary64 → String
  | .nan => "nan"
  | .infinite negative => if negative then "-inf" else "inf"
  | .finite negative ordinal =>
    String.ofList ((if negative then ['-'] else []) ++ magnitudeText ordinal.val)

end Binary64

end StageTree
