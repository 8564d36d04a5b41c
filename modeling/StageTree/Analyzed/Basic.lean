import StageTree.Sexpr.Basic
import StageTree.VarName

/-!
# Analyzed Expressions

What the semantic analyzer makes of parsed expressions: every variable has its lexical
address, captured variables that are assigned to live in boxes, and every application is
known to be a tail call or not.

## Main definitions

* `Analyzed.Address`: Where a variable lives.
* `Analyzed.Var`: A variable with its address.
* `Analyzed.CallKind`: Whether an application is a tail call.
* `Analyzed.Expr`: An analyzed expression.
* `Analyzed.Expr.nesting`: The room that going through an expression takes.
-/

namespace StageTree

namespace Analyzed

/-- Where a variable lives. -/
inductive Address where
  /-- At top level. -/
  | free
  /-- Among the parameters of the innermost lambda expression. -/
  | param (minor : Nat)
  /-- Among the parameters of a lambda expression further out. -/
  | bound (major minor : Nat)
  deriving DecidableEq

/-- A variable with its address. -/
structure Var where
  name : VarName
  address : Address
  deriving DecidableEq

/-- Whether an application is a tail call. -/
inductive CallKind where
  | tail
  /-- The application is no tail call. -/
  | nonTail
  deriving DecidableEq

/-- The word for a kind of application. -/
def CallKind.text : CallKind → String
  | .tail => "Tail_Call"
  | .nonTail => "Non_Tail_Call"

/-- The kind of application that a word stands for. -/
def CallKind.ofText? (text : Text) : Option CallKind :=
  if text = CallKind.tail.text then some .tail
  else if text = CallKind.nonTail.text then some .nonTail
  else none

/-- An analyzed expression. -/
inductive Expr where
  | const (value : Sexpr)
  | get (var : Var)
  | cond (test thenBranch elseBranch : Expr)
  | seq (exprs : List Expr)
  | disj (exprs : List Expr)
  | set (var : Var) (value : Expr)
  | define (var : Var) (value : Expr)
  /-- A new box that holds the value of a variable. -/
  | box (var : Var)
  /-- The content of the box that a variable holds. -/
  | boxGet (var : Var)
  /-- An assignment to the box that a variable holds. -/
  | boxSet (var : Var) (value : Expr)
  | lambda (params : List Text) (body : Expr)
  | apply (operator : Expr) (args : List Expr) (kind : CallKind)

namespace Expr

mutual

/-- The room that going through an expression takes: one unit for the expression itself, and
    what its deepest part takes from where the part is entered. -/
def nesting : Expr → Nat
  | .const value => value.nesting + 1
  | .get _ | .box _ | .boxGet _ => 1
  | .cond test thenBranch elseBranch =>
    max (nesting test) (max (nesting thenBranch) (nesting elseBranch)) + 1
  | .seq exprs => max 1 (nestingOfAll exprs)
  | .disj exprs => max 1 (nestingOfAll exprs)
  | .set _ value => nesting value + 1
  | .define _ value => nesting value + 1
  | .boxSet _ value => nesting value + 1
  | .lambda _ body => nesting body + 1
  | .apply operator args _ => max (nesting operator + 1) (nestingOfAll args)

/-- The room that going through the expressions of a list takes. -/
def nestingOfAll : List Expr → Nat
  | [] => 0
  | e :: rest => max (nesting e + listStep) (nestingOfAll rest)

end

end Expr

end Analyzed

end StageTree
