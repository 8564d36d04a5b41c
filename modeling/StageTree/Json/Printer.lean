import StageTree.Json.Basic
import StageTree.Number.Shortest
import StageTree.Text.Hex

/-!
# Writing JSON

The text of a document, on one line or with one item to a line.

Texts are written in ASCII: whatever is not a visible ASCII character is escaped, and a
character past the first plane as two escapes, one for each half of a pair. A surrogate is
escaped like the half that it is, so two of them in a row may be written like a character.

## Main definitions

* `Json.Layout`: Where the line breaks of a text go.
* `Json.write`: The text of a document in a layout.
-/

namespace StageTree

namespace Json

/-- The layout of a written document. -/
inductive Layout where
  /-- On one line, with a blank after each comma. -/
  | oneLine
  /-- One item to a line, each level indented by this many more blanks. -/
  | indented (step : Nat)

/-- An escape of a code unit. -/
def unitEscape (unit : Nat) : List Char := '\\' :: 'u' :: hexDigits 4 unit

/-- A character inside a written text. -/
def writtenChar (c : Char) : List Char :=
  if c = '"' || c = '\\' then ['\\', c]
  else if ' ' ≤ c && c ≤ '~' then [c]
  else if c = '\n' then ['\\', 'n']
  else if c = '\r' then ['\\', 'r']
  else if c = '\t' then ['\\', 't']
  else if c = '\x08' then ['\\', 'b']
  else if c = '\x0c' then ['\\', 'f']
  else if c.toNat < 0x10000 then unitEscape c.toNat
  else
    let offset := c.toNat - 0x10000
    unitEscape (0xd800 + offset / 0x400) ++ unitEscape (0xdc00 + offset % 0x400)

/-- A code point inside a written text. -/
def writtenPoint : CodePoint → List Char
  | .char c => writtenChar c
  | .surrogate u => unitEscape u.code

/-- A written text, between its quotes. -/
def writtenString (text : Text) : List Char :=
  '"' :: (text.points.flatMap writtenPoint ++ ['"'])

/-- A written floating-point number. -/
def writtenFloat : Binary64 → String
  | .nan => "NaN"
  | .infinite negative => if negative then "-Infinity" else "Infinity"
  | x => x.text

namespace Layout

/-- What stands between a bracket and an item at a level. -/
def lineBreak : Layout → Nat → List Char
  | .oneLine, _ => []
  | .indented step, level => '\n' :: List.replicate (step * level) ' '

/-- What stands between two items at a level. -/
def separator : Layout → Nat → List Char
  | .oneLine, _ => [',', ' ']
  | .indented step, level => ',' :: lineBreak (.indented step) level

end Layout

mutual

/-- A document whose items, if it has any, go to the level after the given one. -/
def writeAt (layout : Layout) (level : Nat) : Json → List Char
  | .null => "null".toList
  | .bool value => if value then "true".toList else "false".toList
  | .int value => (integerText value).toList
  | .float value => (writtenFloat value).toList
  | .str value => writtenString value
  | .arr [] => ['[', ']']
  | .arr (first :: rest) =>
    '[' :: (layout.lineBreak (level + 1) ++ writeAt layout (level + 1) first
      ++ writeItems layout (level + 1) rest ++ layout.lineBreak level ++ [']'])
  | .obj [] => ['\x7b', '\x7d']
  | .obj ((key, value) :: rest) =>
    '\x7b' :: (layout.lineBreak (level + 1) ++ writtenString key ++ ':' :: ' '
      :: writeAt layout (level + 1) value ++ writeMembers layout (level + 1) rest
      ++ layout.lineBreak level ++ ['\x7d'])

/-- The items after the first one, each after a separator. -/
def writeItems (layout : Layout) (level : Nat) : List Json → List Char
  | [] => []
  | item :: rest =>
    layout.separator level ++ writeAt layout level item ++ writeItems layout level rest

/-- The members after the first one, each after a separator. -/
def writeMembers (layout : Layout) (level : Nat) : List (Text × Json) → List Char
  | [] => []
  | (key, value) :: rest =>
    layout.separator level ++ writtenString key ++ ':' :: ' ' :: writeAt layout level value
      ++ writeMembers layout level rest

end

/-- The text of a document. -/
def write (layout : Layout) (j : Json) : List Char := writeAt layout 0 j

end Json

end StageTree
