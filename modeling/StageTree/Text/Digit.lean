/-!
# Decimal Digits

The decimal digits of all scripts.

Unicode lists the decimal digits of a script one after the other, from zero to nine, so a
script's digits are known by its zero. A text in which numbers may be written in any script is
brought to the digits of ASCII first; readers of numbers know only those.

## Main definitions

* `digitZeros`: The zeros of all scripts.
* `decimalValue?`: The value of a decimal digit of any script.
* `isDecimal`: Whether a character is a decimal digit of any script.
* `plainDigit`: A decimal digit of any script as the digit of ASCII.

## Theorems

* `toNat_of_isDigit`: The digits of ASCII are known by their code points.
-/

namespace StageTree

/-- The code points of the zeros of all scripts, in increasing order, for Unicode 14. -/
def digitZeros : List Nat :=
  [0x30, 0x660, 0x6f0, 0x7c0, 0x966, 0x9e6, 0xa66, 0xae6, 0xb66, 0xbe6, 0xc66, 0xce6, 0xd66,
   0xde6, 0xe50, 0xed0, 0xf20, 0x1040, 0x1090, 0x17e0, 0x1810, 0x1946, 0x19d0, 0x1a80, 0x1a90,
   0x1b50, 0x1bb0, 0x1c40, 0x1c50, 0xa620, 0xa8d0, 0xa900, 0xa9d0, 0xa9f0, 0xaa50, 0xabf0,
   0xff10, 0x104a0, 0x10d30, 0x11066, 0x110f0, 0x11136, 0x111d0, 0x112f0, 0x11450, 0x114d0,
   0x11650, 0x116c0, 0x11730, 0x118e0, 0x11950, 0x11c50, 0x11d50, 0x11da0, 0x16a60, 0x16ac0,
   0x16b50, 0x1d7ce, 0x1d7d8, 0x1d7e2, 0x1d7ec, 0x1d7f6, 0x1e140, 0x1e2f0, 0x1e950, 0x1fbf0]

/-- The value of a decimal digit of any script. -/
def decimalValue? (c : Char) : Option Nat :=
  (digitZeros.find? fun first => first ≤ c.toNat && c.toNat < first + 10).map (c.toNat - ·)

/-- Whether a character is a decimal digit of any script. -/
def isDecimal (c : Char) : Bool := (decimalValue? c).isSome

/-- A decimal digit of any script as the digit of ASCII with its value, and any other
    character as it is. -/
def plainDigit (c : Char) : Char :=
  match decimalValue? c with
  | some value => Char.ofNat ('0'.toNat + value)
  | none => c

/-- The code points of the digits of ASCII. -/
theorem toNat_of_isDigit {c : Char} (h : c.isDigit = true) : 0x30 ≤ c.toNat ∧ c.toNat < 0x3a := by
  simp only [Char.isDigit, Bool.and_eq_true, decide_eq_true_eq] at h
  have low : (48 : UInt32).toNat ≤ c.val.toNat := UInt32.le_iff_toNat_le.mp h.1
  have high : c.val.toNat ≤ (57 : UInt32).toNat := UInt32.le_iff_toNat_le.mp h.2
  simp only [UInt32.reduceToNat] at low high
  exact ⟨low, Nat.lt_succ_of_le high⟩

end StageTree
