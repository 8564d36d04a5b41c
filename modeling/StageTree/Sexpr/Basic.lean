import StageTree.Nesting
import StageTree.Number.Binary64
import StageTree.Text.Basic

/-!
# Reader Values

What the reader makes of source text: atoms, vectors and pairs.

A list is a chain of pairs that ends in the empty list, and an improper list is a chain that
ends in anything else. Fractions are kept as they are read, neither reduced nor with their
sign in a fixed place.

## Main definitions

* `Atom`: A value without parts.
* `Sexpr`: A reader value.
* `Sexpr.ofList`: The chain of pairs of some values.
* `Sexpr.nesting`: The room that going through a value takes.
-/

namespace StageTree

/-- A reader value without parts. -/
inductive Atom where
  /-- The unspecified value. -/
  | void
  | nil
  | boolean (value : Bool)
  /-- A character, as the text that shows it. -/
  | char (text : Text)
  | string (text : Text)
  | symbol (text : Text)
  /-- A fraction, as written. -/
  | rational (numerator denominator : Int)
  | float (value : Binary64)
  deriving DecidableEq

/-- A reader value. -/
inductive Sexpr where
  /-- A value without parts. -/
  | atom (a : Atom)
  | vector (elements : List Sexpr)
  | pair (car cdr : Sexpr)

namespace Sexpr

/-- The empty list. -/
def nil : Sexpr := .atom .nil

/-- The chain of pairs that holds some values and ends in a tail. -/
def ofList (items : List Sexpr) (tail : Sexpr) : Sexpr := items.foldr pair tail

mutual

/-- The room that going through a value takes: one unit for the value itself, and what its
    deepest part takes from where the part is entered. -/
def nesting : Sexpr → Nat
  | .atom _ => 1
  | .vector elements => max 1 (nestingOfElements elements)
  | .pair car cdr => max (nesting car) (nesting cdr) + 1

/-- The room that going through the elements of a list takes. -/
def nestingOfElements : List Sexpr → Nat
  | [] => 0
  | element :: rest => max (nesting element + listStep) (nestingOfElements rest)

end

end Sexpr

end StageTree
