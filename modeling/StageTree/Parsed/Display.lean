import StageTree.Parsed.Basic
import StageTree.Sexpr.Display

/-!
# Showing Parsed Expressions

The display tree of a parsed expression: a branch named for the form, over its parts in the
order in which the form writes them. A constant is shown over the tree of its reader value.

## Main definitions

* `Parsed.varTree`, `Parsed.LambdaKind.tree`: The leaves of variables and of lambda kinds.
* `Parsed.Expr.tree`: The display tree of a parsed expression.
-/

namespace StageTree

namespace Parsed

/-- The leaf of a variable. -/
def varTree (var : VarName) : Tree := .leaf ("var " ++ var.text)

/-- The leaf of a lambda kind. -/
def LambdaKind.tree : LambdaKind → Tree
  | .simple => .leaf "Simple"
  | .optional rest => .leaf ("opt " ++ rest)

namespace Expr

mutual

/-- The display tree of a parsed expression. -/
def tree : Expr → Tree
  | .const value => .branch "Const" [value.tree]
  | .get var => .branch "VarGet" [varTree var]
  | .cond test thenBranch elseBranch =>
    .branch "If" [tree test, tree thenBranch, tree elseBranch]
  | .seq exprs => .branch "Seq" (trees exprs)
  | .disj exprs => .branch "Or" (trees exprs)
  | .set var value => .branch "VarSet" [varTree var, tree value]
  | .define var value => .branch "VarDef" [varTree var, tree value]
  | .lambda params kind body => .branch "Lambda" [paramsTree params, kind.tree, tree body]
  | .apply operator args => .branch "Applic" [tree operator, .branch "Args" (trees args)]

/-- The display trees of some parsed expressions. -/
def trees : List Expr → List Tree
  | [] => []
  | e :: rest => tree e :: trees rest

end

end Expr

end Parsed

end StageTree
