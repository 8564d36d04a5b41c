/-!
# Hexadecimal Digits

Numbers of a fixed width in base sixteen, as escapes in texts write them.

## Main definitions

* `hexDigit`, `hexDigits`: The lower-case digits of a number, a given count of them.
* `hexValue?`, `hexDigitsValue?`: The value of digits of either case.
-/

namespace StageTree

/-- The lower-case digit of a number below sixteen. -/
def hexDigit (n : Nat) : Char :=
  if n < 10 then Char.ofNat ('0'.toNat + n) else Char.ofNat ('a'.toNat + (n - 10))

/-- The last `width` digits of a number in base sixteen. -/
def hexDigits (width n : Nat) : List Char :=
  match width with
  | 0 => []
  | width + 1 => hexDigits width (n / 16) ++ [hexDigit (n % 16)]

/-- The value of a digit of either case. -/
def hexValue? (c : Char) : Option Nat :=
  if '0' ≤ c && c ≤ '9' then some (c.toNat - '0'.toNat)
  else if 'a' ≤ c && c ≤ 'f' then some (c.toNat - 'a'.toNat + 10)
  else if 'A' ≤ c && c ≤ 'F' then some (c.toNat - 'A'.toNat + 10)
  else none

/-- The value of a row of digits, or nothing if one of them is no digit. -/
def hexDigitsValue? (cs : List Char) : Option Nat :=
  cs.foldl (fun value? c => do
    let value ← value?
    let digit ← hexValue? c
    pure (16 * value + digit)) (some 0)

end StageTree
