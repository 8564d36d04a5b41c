import StageTree.Number.Shortest
import StageTree.Sexpr.Basic
import StageTree.Tree.Basic

/-!
# Showing Reader Values

The display tree of a reader value: an atom is a leaf with a label, a vector and a pair are
branches over their parts.

Labels hold texts as they are, without escapes. A number is labelled with the integer that it
equals, if there is one in its usual writing: a fraction whose numerator is zero or whose
denominator is one or minus one, and a floating-point number that is integral and below
`10 ^ 21`. Every other number is labelled as it is written.

## Main definitions

* `charName?`: The name of a character that has one.
* `Binary64.label`: The label of a floating-point number.
* `Atom.label`: The label of an atom.
* `Sexpr.tree`: The display tree of a reader value.
-/

namespace StageTree

/-- The name of a character that cannot be seen. -/
def charName? (text : Text) : Option Text :=
  if text = "\n" then some "newline"
  else if text = "\r" then some "return"
  else if text = "\x0c" then some "page"
  else if text = "\t" then some "tab"
  else if text = " " then some "space"
  else none

/-- Integral floating-point numbers below this magnitude are labelled as integers. -/
def integerLabelLimit : Nat := Nat.pow 10 21

/-- The integer that a floating-point number is labelled with, if it is. -/
def Binary64.labelInteger? (x : Binary64) : Option Int :=
  match x.integer? with
  | some n => if n.natAbs < integerLabelLimit then some n else none
  | none => none

/-- The label of a floating-point number. -/
def Binary64.label (x : Binary64) : String :=
  match x.labelInteger? with
  | some n => integerText n
  | none => x.text

/-- The label of a fraction. -/
def rationalLabel (numerator denominator : Int) : String :=
  if numerator = 0 then "0"
  else if denominator = 1 then integerText numerator
  else if denominator = -1 then integerText (-numerator)
  else integerText numerator ++ "/" ++ integerText denominator

/-- The label of a character. -/
def charLabel (text : Text) : Text := "#\\" ++ (charName? text).getD text

/-- The label of an atom. -/
def Atom.label : Atom → Text
  | .void => "#<void>"
  | .nil => "'()"
  | .boolean value => if value then "#t" else "#f"
  | .char text => charLabel text
  | .string text => "\"" ++ text ++ "\""
  | .symbol text => "'" ++ text
  | .rational numerator denominator => rationalLabel numerator denominator
  | .float value => value.label

namespace Sexpr

mutual

/-- The display tree of a reader value. -/
def tree : Sexpr → Tree
  | .atom a => .leaf a.label
  | .vector elements => .branch "Vector" (trees elements)
  | .pair car cdr => .branch "Pair" [tree car, tree cdr]

/-- The display trees of some reader values. -/
def trees : List Sexpr → List Tree
  | [] => []
  | element :: rest => tree element :: trees rest

end

end Sexpr

end StageTree
