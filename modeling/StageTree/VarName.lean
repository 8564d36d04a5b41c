import StageTree.Tree.Basic

/-!
# Names of Variables and Parameters

A variable has a name that is not empty. Parameters are only listed, and their names are kept
as they are.

## Main definitions

* `VarName`: The name of a variable.
* `VarName.ofText?`: The name that a text is.
* `paramsTree`: The display tree of a parameter list.
-/

namespace StageTree

/-- The name of a variable. -/
structure VarName where
  /-- The name as written. -/
  text : Text
  /-- A name has at least one character. -/
  nonempty : text ≠ ""
  deriving DecidableEq

/-- The name that a text is, unless it is empty. -/
def VarName.ofText? (text : Text) : Option VarName :=
  if h : text = "" then none else some ⟨text, h⟩

/-- The leaf of a parameter. -/
def paramLeaf (name : Text) : Tree := .leaf ("\"" ++ name ++ "\"")

/-- The display tree of a parameter list. -/
def paramsTree (params : List Text) : Tree := .branch "Params" (params.map paramLeaf)

end StageTree
