import StageTree.Term.Literal

/-!
# Checked Construction

Making terms and trees out of parts that come from outside, with the checks that keep what is
made meaningful: names are not empty, indices are not negative, and the words for the kinds
of applications are known.

## Main definitions

* `Invalid`: What is wrong with the parts.
* `VarName.checked`, `Analyzed.Address.checkedParam`, `Analyzed.Address.checkedBound`,
  `Analyzed.CallKind.ofTerm`, `Tree.checked`: What is made of parts that are in order.
-/

namespace StageTree

/-- What is wrong with the parts that something is to be made of. -/
inductive Invalid where
  /-- The name of a variable is empty. -/
  | emptyVarName
  /-- The index of a parameter is negative. -/
  | negativeParam (minor : Int)
  /-- An index of a bound variable is negative. -/
  | negativeBound (major minor : Int)
  /-- No kind of application goes by what is given. -/
  | unknownCall (given : String)
  /-- The name of a tree's node is empty. -/
  | emptyTreeName
  deriving DecidableEq

/-- The message about parts that are not in order. -/
def Invalid.message : Invalid → String
  | .emptyVarName => "Variable name must be a non-empty string"
  | .negativeParam minor =>
    "Param minor index must be non-negative, got " ++ integerText minor
  | .negativeBound major minor =>
    "Bound indices must be non-negative, got major=" ++ integerText major ++ ", minor="
      ++ integerText minor
  | .unknownCall given => given ++ " is not a valid ApplicKind"
  | .emptyTreeName => "TreeNode name must be a non-empty string"

/-- The name of a variable. -/
def VarName.checked (text : Text) : Except Invalid VarName :=
  match VarName.ofText? text with
  | some name => .ok name
  | none => .error .emptyVarName

namespace Analyzed

/-- The address of a parameter. -/
def Address.checkedParam (minor : Int) : Except Invalid Address :=
  if minor < 0 then .error (.negativeParam minor) else .ok (.param minor.toNat)

/-- The address of a bound variable. -/
def Address.checkedBound (major minor : Int) : Except Invalid Address :=
  if major < 0 || minor < 0 then .error (.negativeBound major minor)
  else .ok (.bound major.toNat minor.toNat)

/-- The kind of application that a term is, or that a word stands for. -/
def CallKind.ofTerm : Term → Except Invalid CallKind
  | .callKind kind => .ok kind
  | t =>
    let known := match t with
      | .str word => CallKind.ofText? word
      | _ => none
    match known with
    | some kind => .ok kind
    | none => .error (.unknownCall t.literal)

end Analyzed

/-- A node of a display tree. -/
def Tree.checked (name : Text) (attributes : Option (List (Text × Text)))
    (children : Option (List Tree)) : Except Invalid Tree :=
  match Tree.labelled? name attributes children with
  | some t => .ok t
  | none => .error .emptyTreeName

end StageTree
