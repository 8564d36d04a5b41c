import StageTree.Tree.Basic

/-!
# Trees as Indented Text

A tree on lines of text, one line for each node, every level indented further than the one
above it. A node's attributes follow its name in brackets, and a branch without children is
marked, so that it is not mistaken for a leaf.

The indentation of a level is the product of the level and the size of a step. Both may be
negative, and a product that is not positive indents nothing.

## Main definitions

* `Tree.line`: The line of a node, without its indentation.
* `Tree.text`, `Tree.text?`: The text of a tree, and the same within the printing limit.
-/

namespace StageTree

namespace Tree

/-- Attributes after a name. -/
def attributeText : Option (List (Text × Text)) → Text
  | none | some [] => ""
  | some attributes =>
    " [" ++ Text.intercalate ", " (attributes.map fun (key, value) => key ++ "=" ++ value) ++ "]"

/-- The mark of a branch without children. -/
def emptyMark : Option (List Tree) → Text
  | some [] => " (empty)"
  | _ => ""

/-- The line of the root of a tree, without its indentation. -/
def line (t : Tree) : Text := t.name ++ attributeText t.attributes ++ emptyMark t.children

/-- The blanks before a line at a level. -/
def indentation (level step : Int) : Text :=
  .plain (String.ofList (List.replicate (level * step).toNat ' '))

mutual

/-- The text of a tree whose root is at a level: the line of the root, and below it the texts of
    the children, each of which is one text with line ends of its own. -/
def text (level step : Int) : Tree → Text
  | .node name attributes none => indentation level step ++ line (.node name attributes none)
  | .node name attributes (some children) =>
    Text.intercalate "\n" ((indentation level step ++ line (.node name attributes (some children)))
      :: textsOfAll (level + 1) step children)

/-- The texts of some trees at a level. -/
def textsOfAll (level step : Int) : List Tree → List Text
  | [] => []
  | t :: rest => text level step t :: textsOfAll level step rest

end

/-- The text of a tree, if it has room: printing takes one unit for each level. -/
def text? (level step : Int) (t : Tree) : Except TooDeep Text :=
  if t.height ≤ printingLimit then .ok (t.text level step) else .error .tooDeep

/-- The level at which a tree is printed by itself. -/
def rootLevel : Int := 0

/-- The step by which a tree is indented unless something else is asked for. -/
def usualStep : Int := 2

end Tree

end StageTree
