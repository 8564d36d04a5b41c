import StageTree.Analyzed.Display
import StageTree.Parsed.Display
import StageTree.Stage
import StageTree.Trouble
import StageTree.Wire.Analyzed

/-!
# Nodes of a Stage

What is common to the stages: each has a type of nodes, which are shown as trees, nest and
have a wire form.

## Main definitions

* `Stage.Node`: The type of a stage's nodes.
* `Stage.tree`, `Stage.nesting`: The display tree of a node, and the room it takes.
* `Wire.stageNode`: The node of a document.
* `Stage.readNode`: The node of a document that stands at a path.
-/

namespace StageTree

/-- The nodes of a stage. -/
abbrev Stage.Node : Stage → Type
  | .reader => Sexpr
  | .tagParser => Parsed.Expr
  | .semanticAnalyzer => Analyzed.Expr

/-- The display tree of a node. -/
def Stage.tree : (stage : Stage) → stage.Node → Tree
  | .reader, node => Sexpr.tree node
  | .tagParser, node => Parsed.Expr.tree node
  | .semanticAnalyzer, node => Analyzed.Expr.tree node

/-- The room that going through a node takes. -/
def Stage.nesting : (stage : Stage) → stage.Node → Nat
  | .reader, node => Sexpr.nesting node
  | .tagParser, node => Parsed.Expr.nesting node
  | .semanticAnalyzer, node => Analyzed.Expr.nesting node

/-- Read a node of a stage. -/
def Wire.stageNode : (stage : Stage) → Nat → Json → Wire.Reading stage.Node
  | .reader, room, j => Wire.sexpr room j
  | .tagParser, room, j => Wire.parsed room j
  | .semanticAnalyzer, room, j => Wire.analyzed room j

/-- Read a node of a stage from a document that stands at a path. -/
def Stage.readNode (stage : Stage) (start : Text) (j : Json) : Except Trouble stage.Node :=
  match Wire.stageNode stage nestingLimit j with
  | .ok node => .ok node
  | .error (.defective d) => .error (.failure (d.failure start))
  | .error .tooDeep => .error .outOfRoom

end StageTree
