import StageTree.Analyzed.Basic
import StageTree.Wire.Parsed

/-!
# The Wire Form of Analyzed Expressions

Every analyzed expression is a node whose tag tells it from a parsed one, but for constants:
these have the same wire form in both stages.

## Main definitions

* `Wire.analyzedNode`: The analyzed expression of a node.
* `Wire.analyzed`: The analyzed expression of a document.
-/

namespace StageTree

namespace Wire

/-- Read a lexical address. -/
def address (room : Nat) (j : Json) : Reading Analyzed.Address := do
  let node ← nodeOf room j
  match node.tag with
  | .plain "Free" => pure .free
  | .plain "Param" => return .param (← onField room node "minor" (index room))
  | .plain "Bound" =>
    let major ← onField room node "major" (index room)
    let minor ← onField room node "minor" (index room)
    pure (.bound major minor)
  | tag => reject room (.unknownTag .lexicalAddress tag) j

/-- Read a variable with its address. -/
def analyzedVar (room : Nat) (j : Json) : Reading Analyzed.Var := do
  let node ← nodeOf room j
  if node.tag = "ScmVarTag" then
    let name ← onField room node "name" (varName room)
    let address ← onField room node "lexical_address" (address room)
    pure ⟨name, address⟩
  else reject room (.wrongTag "ScmVarTag" node.tag) j

/-- Read the word for a kind of application. -/
def callWord (room : Nat) (j : Json) : Reading Analyzed.CallKind :=
  match j with
  | .str word =>
    match Analyzed.CallKind.ofText? word with
    | some kind => .ok kind
    | none => reject room .unknownCall j
  | _ => reject room .unknownCall j

/-- Read a kind of application. -/
def callKind (room : Nat) (j : Json) : Reading Analyzed.CallKind := do
  let node ← nodeOf room j
  if node.tag = "AppKind" then onValue room node (callWord room)
  else reject room (.wrongTag "AppKind" node.tag) j

/-- Read the analyzed expression that a node writes, given how its parts and the expressions
    of a list are read. -/
def analyzedNode (room : Nat) (part element : Json → Reading Analyzed.Expr) (node : Node) :
    Reading Analyzed.Expr := do
  match node.tag with
  | .plain "ScmConst" => return .const (← onField room node "sexpr" (sexpr room))
  | .plain "ScmVarGetTag" => return .get (← onField room node "var" (analyzedVar room))
  | .plain "ScmBoxTag" => return .box (← onField room node "var" (analyzedVar room))
  | .plain "ScmBoxGetTag" => return .boxGet (← onField room node "var" (analyzedVar room))
  | .plain "ScmIfTag" =>
    let test ← onField room node "test" part
    let thenBranch ← onField room node "dit" part
    let elseBranch ← onField room node "dif" part
    pure (.cond test thenBranch elseBranch)
  | .plain "ScmSeqTag" => return .seq (← onField room node "exprs" (onList room element))
  | .plain "ScmOrTag" => return .disj (← onField room node "exprs" (onList room element))
  | .plain "ScmVarSetTag" =>
    let var ← onField room node "var" (analyzedVar room)
    let value ← onField room node "val" part
    pure (.set var value)
  | .plain "ScmVarDefTag" =>
    let var ← onField room node "var" (analyzedVar room)
    let value ← onField room node "val" part
    pure (.define var value)
  | .plain "ScmBoxSetTag" =>
    let var ← onField room node "var" (analyzedVar room)
    let value ← onField room node "val" part
    pure (.boxSet var value)
  | .plain "ScmLambdaTag" =>
    let params ← onField room node "params" (names room)
    let body ← onField room node "body" part
    pure (.lambda params body)
  | .plain "ScmApplicTag" =>
    let operator ← onField room node "applicative" part
    let args ← onField room node "params" (onList room element)
    let kind ← onField room node "kind" (callKind room)
    pure (.apply operator args kind)
  | tag => reject room (.unknownTag .analyzedExpression tag) node.whole

/-- Read an analyzed expression. The expressions of a list are two units of room further down
    than the other parts. -/
def analyzed (room : Nat) (j : Json) : Reading Analyzed.Expr :=
  match room with
  | 0 => .error .tooDeep
  | room + 1 => do
    let element : Json → Reading Analyzed.Expr := match room with
      | room + 2 => analyzed room
      | _ => fun _ => .error .tooDeep
    analyzedNode room (analyzed room) element (← nodeOf room j)

end Wire

end StageTree
