import StageTree.Number.Binary64
import StageTree.Text.Basic

/-!
# JSON Documents

A JSON document, with what its text distinguishes and most readers forget: whole numbers are
exact and apart from floating-point ones, and the members of an object have an order.

## Main definitions

* `Json`: A document.
* `putMember`: Set a member of an object, in its place if the key is there already.
* `Json.nesting`: How deep arrays and objects nest.
-/

namespace StageTree

/-- A JSON document. -/
inductive Json where
  | null
  | bool (value : Bool)
  | int (value : Int)
  /-- A number with a fraction or a power of ten, or one of the words for special numbers. -/
  | float (value : Binary64)
  | str (value : Text)
  | arr (items : List Json)
  /-- An object: its members in order. -/
  | obj (members : List (Text × Json))
  deriving Inhabited

/-- Set the member with a key: a key that is there keeps its place and takes the new value,
    and a new key goes last. -/
def putMember {α : Type} (members : List (Text × α)) (key : Text) (value : α) :
    List (Text × α) :=
  match members with
  | [] => [(key, value)]
  | (k, v) :: rest =>
    if k = key then (k, value) :: rest else (k, v) :: putMember rest key value

namespace Json

mutual

/-- How deep arrays and objects nest in a document; nothing nests in a number or a text. -/
def nesting : Json → Nat
  | .arr items => nestingOfItems items + 1
  | .obj members => nestingOfMembers members + 1
  | _ => 0

/-- How deep the deepest of some documents nests. -/
def nestingOfItems : List Json → Nat
  | [] => 0
  | item :: rest => max (nesting item) (nestingOfItems rest)

/-- How deep the deepest of some members nests. -/
def nestingOfMembers : List (Text × Json) → Nat
  | [] => 0
  | (_, value) :: rest => max (nesting value) (nestingOfMembers rest)

end

end Json

end StageTree
