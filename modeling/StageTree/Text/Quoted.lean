import StageTree.Text.Basic
import StageTree.Text.Hex
import StageTree.Text.Printable

/-!
# Quoted Text

A text as a message shows it: between quotes, on one line, with every character that could
not be seen or could be mistaken written as an escape.

The quotes are single ones, unless the text has single quotes and no double ones. Inside, the
quote in use and the backslash are escaped, the tab and the two line ends have an escape of
their own, and any other unprintable character is written by its code point.

## Main definitions

* `quoteMark`: The quote that a text is put in.
* `quote`: The quoted text.
-/

namespace StageTree

/-- The quote that a text is put in: the one that needs fewer escapes, if only one of the two
    occurs, and the single one otherwise. -/
def quoteMark (ps : List CodePoint) : Char :=
  if ps.contains '\'' && !ps.contains '"' then '"' else '\''

/-- The escape of a code point by its number, as short as the number allows. -/
def codePointEscape (n : Nat) : List Char :=
  if n < 0x100 then '\\' :: 'x' :: hexDigits 2 n
  else if n < 0x10000 then '\\' :: 'u' :: hexDigits 4 n
  else '\\' :: 'U' :: hexDigits 8 n

/-- A character as it stands between the given quotes. -/
def quotedChar (mark c : Char) : List Char :=
  if c = mark || c = '\\' then ['\\', c]
  else if c = '\n' then ['\\', 'n']
  else if c = '\r' then ['\\', 'r']
  else if c = '\t' then ['\\', 't']
  else if isPrintable c then [c]
  else codePointEscape c.toNat

/-- A code point as it stands between the given quotes. A surrogate cannot be seen. -/
def quotedPoint (mark : Char) : CodePoint → List Char
  | .char c => quotedChar mark c
  | .surrogate u => codePointEscape u.code

/-- A text between quotes. -/
def quote (text : Text) : String :=
  let ps := text.points
  let mark := quoteMark ps
  String.ofList (mark :: (ps.flatMap (quotedPoint mark) ++ [mark]))

end StageTree
