/-!
# Nesting Room

Values nest, and how deep a value may nest is bounded: reading, checking, showing and
writing a value each take room for every level they enter, and give up when the room is used
up.

The room is an argument of every operation that goes down into a value. It shrinks on the way
down and is what the recursion of these operations is on, so the bound is a part of what the
operations mean.

A level costs one unit, with two exceptions. Going from a list of a wire form to one of its
elements costs `listStep` units, and turning a display tree into data costs two units for
each level of the tree.

## Main definitions

* `nestingLimit`: The room that an operation on a whole value starts with.
* `printingLimit`: The room that printing a display tree starts with.
* `listStep`: The room that entering an element of a list takes.
-/

namespace StageTree

/-- The room that an operation on a whole value starts with. -/
def nestingLimit : Nat := 985

/-- The room that printing a display tree starts with. A node takes room that is not counted
    where it is read and shown: the response around it is gone through, and so are the variable
    and the address below it. Printing counts each level of a tree, so it starts with what the
    others have set aside. -/
def printingLimit : Nat := nestingLimit + 2

/-- The limit that messages name: it counts what stands around an operation too. -/
def statedNestingLimit : Nat := 1000

/-- The room that entering an element of a list takes: the list's walk and its step take one
    unit each before the element takes its own. -/
def listStep : Nat := 3

/-- An operation ran out of room. -/
inductive TooDeep where
  /-- The value nests deeper than the room. -/
  | tooDeep
  deriving DecidableEq

end StageTree
