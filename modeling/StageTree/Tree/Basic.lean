import StageTree.Json.Basic
import StageTree.Nesting

/-!
# Display Trees

What every stage is shown as: a tree of labelled nodes. A node has a name, may have
attributes, and is either a leaf or a branch. A branch without children is not a leaf, and
attributes that are there but empty are not the same as none.

A tree is turned into data for other programs as an object with the name, the attributes if
there are any, and the children if it is a branch.

## Main definitions

* `Tree`: A display tree.
* `Tree.leaf`, `Tree.branch`: Nodes without attributes.
* `Tree.labelled?`: A node with a checked name.
* `Tree.size`, `Tree.height`: How many nodes a tree has, and how many levels.
* `Tree.toJson`, `Tree.toJson?`: A tree as data, and the same within the nesting limit.
* `Tree.same`, `Tree.hashForm`: Equality that overlooks the order of attributes, and the form
  that equal trees share.
-/

namespace StageTree

/-- A display tree. -/
inductive Tree where
  /-- A node: a leaf if it has no children at all, and a branch otherwise. -/
  | node (name : Text) (attributes : Option (List (Text × Text)))
      (children : Option (List Tree))

namespace Tree

/-- The name of the root. -/
def name : Tree → Text
  | .node name _ _ => name

/-- The attributes of the root. -/
def attributes : Tree → Option (List (Text × Text))
  | .node _ attributes _ => attributes

/-- The children of the root. -/
def children : Tree → Option (List Tree)
  | .node _ _ children => children

/-- A leaf without attributes. -/
def leaf (name : Text) : Tree := .node name none none

/-- A leaf with attributes. -/
def taggedLeaf (name : Text) (attributes : List (Text × Text)) : Tree :=
  .node name (some attributes) none

/-- A branch without attributes. -/
def branch (name : Text) (children : List Tree) : Tree := .node name none (some children)

/-- A node with a name, if the name is not empty. -/
def labelled? (name : Text) (attributes : Option (List (Text × Text)))
    (children : Option (List Tree)) : Option Tree :=
  if name = "" then none else some (.node name attributes children)

/-- Whether a tree is a leaf. -/
def isLeaf (t : Tree) : Bool := t.children.isNone

mutual

/-- How many nodes a tree has. -/
def size : Tree → Nat
  | .node _ _ none => 1
  | .node _ _ (some children) => sizeOfAll children + 1

/-- How many nodes some trees have together. -/
def sizeOfAll : List Tree → Nat
  | [] => 0
  | t :: rest => size t + sizeOfAll rest

end

mutual

/-- How many levels a tree has. -/
def height : Tree → Nat
  | .node _ _ none => 1
  | .node _ _ (some children) => heightOfAll children + 1

/-- How many levels the highest of some trees has. -/
def heightOfAll : List Tree → Nat
  | [] => 0
  | t :: rest => max (height t) (heightOfAll rest)

end

/-! ## Trees as data -/

/-- The member that holds the attributes, if there are any. -/
def attributeMembers : Option (List (Text × Text)) → List (Text × Json)
  | none | some [] => []
  | some attributes => [("attributes", .obj (attributes.map fun (k, v) => (k, .str v)))]

mutual

/-- A tree as data. -/
def toJson : Tree → Json
  | .node name attributes none => .obj (("name", .str name) :: attributeMembers attributes)
  | .node name attributes (some children) =>
    .obj (("name", .str name) :: (attributeMembers attributes
      ++ [(.plain "children", .arr (toJsonAll children))]))

/-- Some trees as data. -/
def toJsonAll : List Tree → List Json
  | [] => []
  | t :: rest => toJson t :: toJsonAll rest

end

/-- The room that turning a tree into data takes for each of its levels. -/
def dataStep : Nat := 2

/-- A tree as data, if it has room. -/
def toJson? (t : Tree) : Except TooDeep Json :=
  if dataStep * t.height ≤ nestingLimit then .ok t.toJson else .error .tooDeep

/-! ## Equality -/

/-- Whether two rows of attributes with distinct keys hold the same, in any order. -/
def sameAttributes (a b : List (Text × Text)) : Bool :=
  -- With distinct keys and equal lengths, one inclusion is enough.
  a.length == b.length && a.all fun (key, value) => b.lookup key == some value

mutual

/-- Whether two trees are equal but for the order of attributes. -/
def same : Tree → Tree → Bool
  | .node a attributesA childrenA, .node b attributesB childrenB =>
    a == b
      && (match attributesA, attributesB with
        | none, none => true
        | some x, some y => sameAttributes x y
        | _, _ => false)
      && (match childrenA, childrenB with
        | none, none => true
        | some x, some y => sameAll x y
        | _, _ => false)

/-- Whether two rows of trees are equal, tree by tree. -/
def sameAll : List Tree → List Tree → Bool
  | [], [] => true
  | x :: xs, y :: ys => same x y && sameAll xs ys
  | _, _ => false

end

/-- Whether one attribute stands before another, or is the same: by key, and then by value. -/
def attributeLE (a b : Text × Text) : Bool :=
  a.1 < b.1 || (a.1 == b.1 && (a.2 < b.2 || a.2 == b.2))

/-- Attributes in order, and none if there are none. -/
def hashAttributes : Option (List (Text × Text)) → Option (List (Text × Text))
  | none | some [] => none
  | some attributes => some (attributes.mergeSort attributeLE)

mutual

/-- What the hash of a tree is taken of: everything, with the attributes in order. Trees that
    are equal but for the order of attributes share this form. -/
def hashForm : Tree → Tree
  | .node name attributes none => .node name (hashAttributes attributes) none
  | .node name attributes (some children) =>
    .node name (hashAttributes attributes) (some (hashFormAll children))

/-- What the hashes of some trees are taken of. -/
def hashFormAll : List Tree → List Tree
  | [] => []
  | t :: rest => hashForm t :: hashFormAll rest

end

mutual

/-- Whether two trees are identical, the order of attributes included. -/
def identical : Tree → Tree → Bool
  | .node a attributesA none, .node b attributesB none => a == b && attributesA == attributesB
  | .node a attributesA (some xs), .node b attributesB (some ys) =>
    a == b && attributesA == attributesB && identicalAll xs ys
  | _, _ => false

/-- Whether two rows of trees are identical. -/
def identicalAll : List Tree → List Tree → Bool
  | [], [] => true
  | x :: xs, y :: ys => identical x y && identicalAll xs ys
  | _, _ => false

end

end Tree

end StageTree
