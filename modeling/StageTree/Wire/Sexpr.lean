import StageTree.Sexpr.Basic
import StageTree.Wire.Basic

/-!
# The Wire Form of Reader Values

Truth values and floating-point numbers are bare JSON values. Every other reader value is a
node, and a vector is a node with the tag of lists.

A whole number is read as the nearest floating-point number, and refused if there is none.

## Main definitions

* `Wire.sexprNode`: The reader value of a node.
* `Wire.sexpr`: The reader value of a document.
-/

namespace StageTree

namespace Wire

/-- How many binary digits the magnitude of a number has. -/
def bitLength (n : Int) : Nat := if n = 0 then 0 else n.natAbs.log2 + 1

/-- Read a number that stands as a JSON number. -/
def wholeNumber (room : Nat) (n : Int) : Reading Sexpr :=
  let x := Binary64.ofInt n
  if x.isInfinite then reject room (.hugeInteger (bitLength n)) (.int n)
  else .ok (.atom (.float x))

/-- Read the fraction that a node writes. -/
def rational (room : Nat) (node : Node) : Reading Sexpr := do
  let numerator ← onField room node "numerator" (integer room)
  let denominator ← onField room node "denominator" (integer room)
  pure (.atom (.rational numerator denominator))

/-- Read the reader value that a node writes, given how its parts and the elements of a
    vector are read. -/
def sexprNode (room : Nat) (part element : Json → Reading Sexpr) (node : Node) :
    Reading Sexpr := do
  match node.tag with
  | .plain "ScmVoid" => pure (.atom .void)
  | .plain "ScmNil" => pure (.atom .nil)
  | .plain "ScmRational" => rational room node
  | .plain "ScmChar" => return .atom (.char (← onValue room node (text room)))
  | .plain "ScmString" => return .atom (.string (← onValue room node (text room)))
  | .plain "ScmSymbol" => return .atom (.symbol (← onValue room node (text room)))
  | .plain "OcamlList" => return .vector (← onList room element node.whole)
  | .plain "ScmPair" =>
    let car ← onField room node "car" part
    let cdr ← onField room node "cdr" part
    pure (.pair car cdr)
  | tag => reject room (.unknownTag .readerValue tag) node.whole

/-- Read a reader value. The elements of a vector are two units of room further down than the
    parts of a pair. -/
def sexpr (room : Nat) (j : Json) : Reading Sexpr :=
  match room with
  | 0 => .error .tooDeep
  | room + 1 =>
    match j with
    | .bool value => .ok (.atom (.boolean value))
    | .int value => wholeNumber room value
    | .float value => .ok (.atom (.float value))
    | _ => do
      -- One unit of a list's step is taken already; the element takes the last one itself.
      let element : Json → Reading Sexpr := match room with
        | room + 2 => sexpr room
        | _ => fun _ => .error .tooDeep
      sexprNode room (sexpr room) element (← nodeOf room j)

end Wire

end StageTree
