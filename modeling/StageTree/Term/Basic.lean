import StageTree.Node

/-!
# Terms

Whatever may be handed in to be shown: nodes of any stage, and things that are no nodes.

A term is like a node of some stage, except that where a node has a part that must be an
expression, a reader value, a variable, a lambda kind, a kind of application or an address, a
term may have any term. Texts, numbers, names and indices are what they are in nodes.

## Main definitions

* `Term`: A node of any stage whose parts may be anything, or something that is no node.
* `Term.kindName`: The name of a term's kind, by which messages call it.
* `Sexpr.toTerm`, `Parsed.Expr.toTerm`, `Analyzed.Expr.toTerm`: Nodes as terms.
* `Term.chain`: The chain of pairs of some terms.
-/

namespace StageTree

/-- Something that may be handed in to be shown. -/
inductive Term where
  | none
  | bool (value : Bool)
  | int (value : Int)
  | float (value : Binary64)
  | str (value : Text)
  | tuple (items : List Term)
  | list (items : List Term)
  | dict (entries : List (Text × Term))
  /-- An object without any content, which equals only itself. -/
  | object
  | tree (value : Tree)
  | callKind (value : Analyzed.CallKind)
  | atom (value : Atom)
  | vector (elements : List Term)
  | pair (car cdr : Term)
  | parsedVar (name : VarName)
  | lambdaKind (value : Parsed.LambdaKind)
  | parsedConst (value : Term)
  | parsedGet (var : Term)
  | parsedCond (test thenBranch elseBranch : Term)
  | parsedSeq (exprs : List Term)
  | parsedDisj (exprs : List Term)
  | parsedSet (var value : Term)
  | parsedDefine (var value : Term)
  | parsedLambda (params : List Text) (kind body : Term)
  | parsedApply (operator : Term) (args : List Term)
  | address (value : Analyzed.Address)
  | analyzedVar (name : VarName) (address : Term)
  | analyzedConst (value : Term)
  | analyzedGet (var : Term)
  | analyzedCond (test thenBranch elseBranch : Term)
  | analyzedSeq (exprs : List Term)
  | analyzedDisj (exprs : List Term)
  | analyzedSet (var value : Term)
  | analyzedDefine (var value : Term)
  /-- A new box. -/
  | analyzedBox (var : Term)
  /-- The content of a box. -/
  | analyzedBoxGet (var : Term)
  | analyzedBoxSet (var value : Term)
  | analyzedLambda (params : List Text) (body : Term)
  | analyzedApply (operator : Term) (args : List Term) (kind : Term)

/-- The name of an atom's kind. -/
def Atom.kindName : Atom → String
  | .void => "SExprVoid"
  | .nil => "SExprNil"
  | .boolean _ => "SExprBoolean"
  | .char _ => "SExprChar"
  | .string _ => "SExprString"
  | .symbol _ => "SExprSymbol"
  | .rational _ _ => "SExprRational"
  | .float _ => "SExprFloat"

/-- The name of a lambda kind's kind. -/
def Parsed.LambdaKind.kindName : Parsed.LambdaKind → String
  | .simple => "LambdaSimple"
  | .optional _ => "LambdaOptional"

/-- The name of an address's kind. -/
def Analyzed.Address.kindName : Analyzed.Address → String
  | .free => "FreeAddress"
  | .param _ => "ParamAddress"
  | .bound _ _ => "BoundAddress"

namespace Term

/-- The name of a term's kind. -/
def kindName : Term → String
  | .none => "NoneType"
  | .bool _ => "bool"
  | .int _ => "int"
  | .float _ => "float"
  | .str _ => "str"
  | .tuple _ => "tuple"
  | .list _ => "list"
  | .dict _ => "dict"
  | .object => "object"
  | .tree _ => "TreeNode"
  | .callKind _ => "ApplicKind"
  | .atom value => value.kindName
  | .vector _ => "SExprVector"
  | .pair _ _ => "SExprPair"
  | .parsedVar _ => "ParsedVar"
  | .lambdaKind value => value.kindName
  | .parsedConst _ => "ParsedConst"
  | .parsedGet _ => "ParsedVarGet"
  | .parsedCond _ _ _ => "ParsedIf"
  | .parsedSeq _ => "ParsedSeq"
  | .parsedDisj _ => "ParsedOr"
  | .parsedSet _ _ => "ParsedVarSet"
  | .parsedDefine _ _ => "ParsedVarDef"
  | .parsedLambda _ _ _ => "ParsedLambda"
  | .parsedApply _ _ => "ParsedApplic"
  | .address value => value.kindName
  | .analyzedVar _ _ => "AnalyzedVar"
  | .analyzedConst _ => "AnalyzedConst"
  | .analyzedGet _ => "AnalyzedVarGet"
  | .analyzedCond _ _ _ => "AnalyzedIf"
  | .analyzedSeq _ => "AnalyzedSeq"
  | .analyzedDisj _ => "AnalyzedOr"
  | .analyzedSet _ _ => "AnalyzedVarSet"
  | .analyzedDefine _ _ => "AnalyzedVarDef"
  | .analyzedBox _ => "AnalyzedBox"
  | .analyzedBoxGet _ => "AnalyzedBoxGet"
  | .analyzedBoxSet _ _ => "AnalyzedBoxSet"
  | .analyzedLambda _ _ => "AnalyzedLambda"
  | .analyzedApply _ _ _ => "AnalyzedApplic"

/-- The chain of pairs that holds some terms and ends in a tail, the empty list if none is
    given. -/
def chain (items : List Term) (tail : Option Term) : Term :=
  items.foldr pair (tail.getD (.atom .nil))

end Term

/-! ## Nodes as terms -/

mutual

/-- A reader value as a term. -/
def Sexpr.toTerm : Sexpr → Term
  | .atom a => .atom a
  | .vector elements => .vector (Sexpr.toTerms elements)
  | .pair car cdr => .pair car.toTerm cdr.toTerm

/-- Some reader values as terms. -/
def Sexpr.toTerms : List Sexpr → List Term
  | [] => []
  | element :: rest => element.toTerm :: Sexpr.toTerms rest

end

namespace Parsed.Expr

mutual

/-- A parsed expression as a term. -/
def toTerm : Expr → Term
  | .const value => .parsedConst value.toTerm
  | .get var => .parsedGet (.parsedVar var)
  | .cond test thenBranch elseBranch =>
    .parsedCond (toTerm test) (toTerm thenBranch) (toTerm elseBranch)
  | .seq exprs => .parsedSeq (toTerms exprs)
  | .disj exprs => .parsedDisj (toTerms exprs)
  | .set var value => .parsedSet (.parsedVar var) (toTerm value)
  | .define var value => .parsedDefine (.parsedVar var) (toTerm value)
  | .lambda params kind body => .parsedLambda params (.lambdaKind kind) (toTerm body)
  | .apply operator args => .parsedApply (toTerm operator) (toTerms args)

/-- Some parsed expressions as terms. -/
def toTerms : List Expr → List Term
  | [] => []
  | e :: rest => toTerm e :: toTerms rest

end

end Parsed.Expr

/-- An analyzed variable as a term. -/
def Analyzed.Var.toTerm (var : Analyzed.Var) : Term :=
  .analyzedVar var.name (.address var.address)

namespace Analyzed.Expr

mutual

/-- An analyzed expression as a term. -/
def toTerm : Expr → Term
  | .const value => .analyzedConst value.toTerm
  | .get var => .analyzedGet var.toTerm
  | .cond test thenBranch elseBranch =>
    .analyzedCond (toTerm test) (toTerm thenBranch) (toTerm elseBranch)
  | .seq exprs => .analyzedSeq (toTerms exprs)
  | .disj exprs => .analyzedDisj (toTerms exprs)
  | .set var value => .analyzedSet var.toTerm (toTerm value)
  | .define var value => .analyzedDefine var.toTerm (toTerm value)
  | .box var => .analyzedBox var.toTerm
  | .boxGet var => .analyzedBoxGet var.toTerm
  | .boxSet var value => .analyzedBoxSet var.toTerm (toTerm value)
  | .lambda params body => .analyzedLambda params (toTerm body)
  | .apply operator args kind =>
    .analyzedApply (toTerm operator) (toTerms args) (.callKind kind)

/-- Some analyzed expressions as terms. -/
def toTerms : List Expr → List Term
  | [] => []
  | e :: rest => toTerm e :: toTerms rest

end

end Analyzed.Expr

/-- A node of a stage as a term. -/
def Stage.toTerm : (stage : Stage) → stage.Node → Term
  | .reader, node => Sexpr.toTerm node
  | .tagParser, node => Parsed.Expr.toTerm node
  | .semanticAnalyzer, node => Analyzed.Expr.toTerm node

end StageTree
