import StageTree.Sexpr.Basic
import StageTree.VarName

/-!
# Parsed Expressions

What the tag parser makes of reader values: expressions whose variables are names.

## Main definitions

* `Parsed.LambdaKind`: Whether a lambda expression takes a fixed number of arguments.
* `Parsed.Expr`: A parsed expression.
* `Parsed.Expr.nesting`: The room that going through an expression takes.
-/

namespace StageTree

namespace Parsed

/-- How a lambda expression takes its arguments. -/
inductive LambdaKind where
  /-- As many as it has parameters. -/
  | simple
  /-- At least as many, and the others as a list under a name of its own. -/
  | optional (rest : Text)
  deriving DecidableEq

/-- A parsed expression. -/
inductive Expr where
  | const (value : Sexpr)
  | get (var : VarName)
  | cond (test thenBranch elseBranch : Expr)
  | seq (exprs : List Expr)
  | disj (exprs : List Expr)
  | set (var : VarName) (value : Expr)
  | define (var : VarName) (value : Expr)
  | lambda (params : List Text) (kind : LambdaKind) (body : Expr)
  | apply (operator : Expr) (args : List Expr)

namespace Expr

mutual

/-- The room that going through an expression takes: one unit for the expression itself, and
    what its deepest part takes from where the part is entered. -/
def nesting : Expr → Nat
  | .const value => value.nesting + 1
  | .get _ => 1
  | .cond test thenBranch elseBranch =>
    max (nesting test) (max (nesting thenBranch) (nesting elseBranch)) + 1
  | .seq exprs => max 1 (nestingOfAll exprs)
  | .disj exprs => max 1 (nestingOfAll exprs)
  | .set _ value => nesting value + 1
  | .define _ value => nesting value + 1
  | .lambda _ _ body => nesting body + 1
  | .apply operator args => max (nesting operator + 1) (nestingOfAll args)

/-- The room that going through the expressions of a list takes. -/
def nestingOfAll : List Expr → Nat
  | [] => 0
  | e :: rest => max (nesting e + listStep) (nestingOfAll rest)

end

end Expr

end Parsed

end StageTree
