/-!
# Blank Characters

The characters that count as white space, in text and in bytes.

## Main definitions

* `isBlank`: The white space of Unicode text.
* `trimBlank`: A text without the white space at its two ends.
* `isPlainBlank`, `isBlankByte`: The white space of ASCII, as characters and as bytes.
* `trimBlankBytes`: Bytes without the white space at their two ends.
-/

namespace StageTree

/-- Whether a character is white space: the white space of Unicode and the four information
    separators of ASCII. -/
def isBlank (c : Char) : Bool :=
  let n := c.toNat
  (0x09 ≤ n && n ≤ 0x0d) || (0x1c ≤ n && n ≤ 0x20) || n == 0x85 || n == 0xa0 || n == 0x1680 ||
    (0x2000 ≤ n && n ≤ 0x200a) || n == 0x2028 || n == 0x2029 || n == 0x202f || n == 0x205f ||
    n == 0x3000

/-- A list without the elements of a class at its two ends. -/
def trimWhere {α : Type} (p : α → Bool) (xs : List α) : List α :=
  ((xs.dropWhile p).reverse.dropWhile p).reverse

/-- A text without the white space at its two ends. -/
def trimBlank (cs : List Char) : List Char := trimWhere isBlank cs

/-- Whether a character is white space of ASCII. The information separators are not. -/
def isPlainBlank (c : Char) : Bool := ('\t' ≤ c && c ≤ '\r') || c == ' '

/-- Whether a byte is white space of ASCII. -/
def isBlankByte (b : UInt8) : Bool := (9 ≤ b && b ≤ 13) || b == 32

/-- Bytes without the white space at their two ends. -/
def trimBlankBytes (bytes : List UInt8) : List UInt8 := trimWhere isBlankByte bytes

end StageTree
