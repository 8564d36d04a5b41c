import StageTree.Parsed.Basic
import StageTree.Wire.Sexpr

/-!
# The Wire Form of Parsed Expressions

Every parsed expression is a node, and so are its variables and its lambda kinds. The fields
of a node are read in the order in which its form writes them, and the first defect is the
one that is reported.

## Main definitions

* `Wire.parsedNode`: The parsed expression of a node.
* `Wire.parsed`: The parsed expression of a document.
-/

namespace StageTree

namespace Wire

/-- Read the name of a variable. -/
def varName (room : Nat) (j : Json) : Reading VarName := do
  let name ← text room j
  match VarName.ofText? name with
  | some var => pure var
  | none => reject room .emptyName j

/-- Read a variable. -/
def parsedVar (room : Nat) (j : Json) : Reading VarName := do
  let node ← nodeOf room j
  if node.tag = "ScmVar" then onField room node "name" (varName room)
  else reject room (.wrongTag "ScmVar" node.tag) j

/-- Read a lambda kind. -/
def lambdaKind (room : Nat) (j : Json) : Reading Parsed.LambdaKind := do
  let node ← nodeOf room j
  match node.tag with
  | .plain "LambdaSimple" => pure .simple
  | .plain "LambdaOpt" => return .optional (← onField room node "opt" (text room))
  | tag => reject room (.unknownTag .lambdaKind tag) j

/-- Read the parsed expression that a node writes, given how its parts and the expressions of
    a list are read. -/
def parsedNode (room : Nat) (part element : Json → Reading Parsed.Expr) (node : Node) :
    Reading Parsed.Expr := do
  match node.tag with
  | .plain "ScmConst" => return .const (← onField room node "sexpr" (sexpr room))
  | .plain "ScmVarGet" => return .get (← onField room node "var" (parsedVar room))
  | .plain "ScmIf" =>
    let test ← onField room node "test" part
    let thenBranch ← onField room node "dit" part
    let elseBranch ← onField room node "dif" part
    pure (.cond test thenBranch elseBranch)
  | .plain "ScmSeq" => return .seq (← onField room node "exprs" (onList room element))
  | .plain "ScmOr" => return .disj (← onField room node "exprs" (onList room element))
  | .plain "ScmVarSet" =>
    let var ← onField room node "var" (parsedVar room)
    let value ← onField room node "val" part
    pure (.set var value)
  | .plain "ScmVarDef" =>
    let var ← onField room node "var" (parsedVar room)
    let value ← onField room node "val" part
    pure (.define var value)
  | .plain "ScmLambda" =>
    let params ← onField room node "params" (names room)
    let kind ← onField room node "kind" (lambdaKind room)
    let body ← onField room node "body" part
    pure (.lambda params kind body)
  | .plain "ScmApplic" =>
    let operator ← onField room node "applicative" part
    let args ← onField room node "params" (onList room element)
    pure (.apply operator args)
  | tag => reject room (.unknownTag .parsedExpression tag) node.whole

/-- Read a parsed expression. The expressions of a list are two units of room further down
    than the other parts. -/
def parsed (room : Nat) (j : Json) : Reading Parsed.Expr :=
  match room with
  | 0 => .error .tooDeep
  | room + 1 => do
    let element : Json → Reading Parsed.Expr := match room with
      | room + 2 => parsed room
      | _ => fun _ => .error .tooDeep
    parsedNode room (parsed room) element (← nodeOf room j)

end Wire

end StageTree
