import StageTree.Number.Binary64
import StageTree.Text.Blank
import StageTree.Text.Digit

/-!
# Decimal Numbers

Digits, and the double-precision number nearest to a decimal numeral.

A numeral is a coefficient and a power of ten. Its nearest double is the nearest to a
fraction, but the fraction is only formed when the numeral's leading digit lies where some
double lies: a numeral such as `1e999999999` has a value that no memory holds, and its double
is known without it.

## Main definitions

* `Decimal`: `coefficient * 10 ^ exponent`.
* `digitsValue`: The value of a row of decimal digits.
* `Decimal.toBinary64`: The nearest double.
* `Decimal.ofText?`: The numeral that a text writes.
* `numberText`: A text as a numeral is read from it.
* `Binary64.ofText?`: The number written in a numeral, with the words for infinity and for
  what is not a number.
-/

namespace StageTree

/-- A decimal numeral: `coefficient * 10 ^ exponent`. -/
structure Decimal where
  /-- The digits, read as one natural number. -/
  coefficient : Nat
  /-- The power of ten that scales them. -/
  exponent : Int
  deriving DecidableEq

/-- The value of a decimal digit. -/
def digitValue (c : Char) : Nat := c.toNat - '0'.toNat

/-- The value of a row of decimal digits, the most significant first. -/
def digitsValue (ds : List Char) : Nat :=
  ds.foldl (fun value c => 10 * value + digitValue c) 0

/-- The decimal digits of a natural number, the most significant first. -/
def digitsOf (n : Nat) : List Char := Nat.toDigits 10 n

/-- The text of an integer. -/
def integerText (n : Int) : String :=
  if n < 0 then "-" ++ String.ofList (digitsOf n.natAbs) else String.ofList (digitsOf n.natAbs)

namespace Decimal

/-- The numeral with the given digits before and after its point, scaled by a power of ten. -/
def ofDigits (whole fraction : List Char) (exponent : Int) : Decimal :=
  ⟨digitsValue (whole ++ fraction), exponent - fraction.length⟩

/-- The numerator of a numeral's value as a fraction. -/
def num (d : Decimal) : Nat := d.coefficient * Nat.pow 10 d.exponent.toNat

/-- The denominator of a numeral's value as a fraction. -/
def den (d : Decimal) : Nat := Nat.pow 10 (-d.exponent).toNat

/-- The double nearest to a numeral. With `k` digits before its point, a numeral is below
    `10 ^ k` and at least `10 ^ (k - 1)`; from `10 ^ 310` on every double has been passed, and
    below `10 ^ -330` zero is nearest. -/
def toBinary64 (negative : Bool) (d : Decimal) : Binary64 :=
  if d.coefficient = 0 then .zero negative
  else
    -- The two outer cases only keep the powers below small: the nearest double is known.
    let point : Int := (digitsOf d.coefficient).length + d.exponent
    if 311 ≤ point then .infinite negative
    else if point ≤ -330 then .zero negative
    else .ofRatio negative d.num d.den

end Decimal

/-- The leading decimal digits of a text, and what follows them. -/
def takeDigits (cs : List Char) : List Char × List Char :=
  (cs.takeWhile Char.isDigit, cs.dropWhile Char.isDigit)

/-- Decimal digits in which single underscores may stand between two digits, without the
    underscores, and what follows them. `afterDigit` says whether a digit has just been read. -/
def takeGroupedDigits (afterDigit : Bool) : List Char → List Char × List Char
  | [] => ([], [])
  | c :: rest =>
    if c.isDigit then
      let (digits, left) := takeGroupedDigits true rest
      (c :: digits, left)
    else if c == '_' && afterDigit && rest.head?.any Char.isDigit then
      takeGroupedDigits false rest
    else ([], c :: rest)

/-- A sign, if one is written, and what follows it. -/
def takeSign : List Char → Bool × List Char
  | '-' :: rest => (true, rest)
  | '+' :: rest => (false, rest)
  | rest => (false, rest)

/-- A character as it counts in a numeral: white space of any script is a space, and a digit of
    any script is that of ASCII. The information separators of ASCII stay what they are. -/
def numeralChar (c : Char) : Char :=
  if c.toNat < 0x7f then c else if isBlank c then ' ' else plainDigit c

/-- A text as a numeral is read from it, without the white space around it. -/
def numberText (text : String) : List Char :=
  trimWhere isPlainBlank (text.toList.map numeralChar)

namespace Decimal

/-- The scaling part of a numeral, after its mark: the power of ten that is written. -/
def scaleOfText? (cs : List Char) : Option Int :=
  let (negative, unsigned) := takeSign cs
  match takeGroupedDigits false unsigned with
  | ([], _) => none
  | (digits, []) =>
    let power : Int := digitsValue digits
    some (if negative then -power else power)
  | _ => none

/-- The numeral that digits write, with an optional point and an optional power of ten. -/
def ofText? (cs : List Char) : Option Decimal :=
  let (whole, afterWhole) := takeGroupedDigits false cs
  let (fraction, afterFraction) := match afterWhole with
    | '.' :: rest => takeGroupedDigits false rest
    | rest => ([], rest)
  if whole.isEmpty && fraction.isEmpty then none
  else match afterFraction with
    | [] => some (ofDigits whole fraction 0)
    | 'e' :: rest => (scaleOfText? rest).map (ofDigits whole fraction)
    | _ => none

end Decimal

namespace Binary64

/-- The number written without a sign, in lower case. -/
def magnitudeOfText? (negative : Bool) (cs : List Char) : Option Binary64 :=
  if cs = "inf".toList || cs = "infinity".toList then some (.infinite negative)
  else if cs = "nan".toList then some .nan
  else (Decimal.ofText? cs).map fun d => d.toBinary64 negative

/-- The number that a text writes: an optional sign, then digits with an optional point and
    an optional power of ten, or one of the words `inf`, `infinity` and `nan`. Letters may be
    of either case, and there may be white space around all. -/
def ofText? (text : String) : Option Binary64 :=
  let (negative, rest) := takeSign ((numberText text).map Char.toLower)
  magnitudeOfText? negative rest

end Binary64

end StageTree
