import StageTree.Analyzed.Basic
import StageTree.Sexpr.Display

/-!
# Showing Analyzed Expressions

The display tree of an analyzed expression. The names of its branches carry a prime, which
tells them from those of parsed expressions. A variable is a branch over its name and its
address, and the indices of an address are attributes of its leaf too.

## Main definitions

* `Analyzed.Address.tree`, `Analyzed.Var.tree`, `Analyzed.CallKind.tree`: The trees of the
  parts that only analyzed expressions have.
* `Analyzed.Expr.tree`: The display tree of an analyzed expression.
-/

namespace StageTree

namespace Analyzed

/-- The leaf of an address. -/
def Address.tree : Address → Tree
  | .free => .taggedLeaf "Free" [("kind", "free")]
  | .param minor =>
    .taggedLeaf ("Param(" ++ integerText minor ++ ")")
      [("kind", "param"), ("minor", integerText minor)]
  | .bound major minor =>
    .taggedLeaf ("Bound(" ++ integerText major ++ "," ++ integerText minor ++ ")")
      [("kind", "bound"), ("major", integerText major), ("minor", integerText minor)]

/-- The tree of a variable. -/
def Var.tree (var : Var) : Tree := .branch "var'" [.leaf var.name.text, var.address.tree]

/-- The leaf of a kind of application. -/
def CallKind.tree (kind : CallKind) : Tree := .leaf kind.text

namespace Expr

mutual

/-- The display tree of an analyzed expression. -/
def tree : Expr → Tree
  | .const value => .branch "Const'" [value.tree]
  | .get var => .branch "VarGet'" [var.tree]
  | .cond test thenBranch elseBranch =>
    .branch "If'" [tree test, tree thenBranch, tree elseBranch]
  | .seq exprs => .branch "Seq'" (trees exprs)
  | .disj exprs => .branch "Or'" (trees exprs)
  | .set var value => .branch "VarSet'" [var.tree, tree value]
  | .define var value => .branch "VarDef'" [var.tree, tree value]
  | .box var => .branch "Box'" [var.tree]
  | .boxGet var => .branch "BoxGet'" [var.tree]
  | .boxSet var value => .branch "BoxSet'" [var.tree, tree value]
  | .lambda params body => .branch "Lambda'" [paramsTree params, tree body]
  | .apply operator args kind =>
    .branch "Applic'" [tree operator, .branch "Args" (trees args), kind.tree]

/-- The display trees of some analyzed expressions. -/
def trees : List Expr → List Tree
  | [] => []
  | e :: rest => tree e :: trees rest

end

end Expr

end Analyzed

end StageTree
