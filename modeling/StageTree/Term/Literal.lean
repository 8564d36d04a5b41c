import StageTree.Json.Literal
import StageTree.Term.Basic

/-!
# Terms in Messages

How a message shows a term: on one line, and whole. Numbers, texts, rows and dictionaries are
shown as in documents, except that a tuple stands in round brackets, with a comma after a
single item. Everything else is shown as what makes it: the name of its kind, and its parts by
name.

## Main definitions

* `made`: Something that is made of named parts.
* `Tree.literal`: A display tree, whole.
* `Term.literal`: A term, whole.
-/

namespace StageTree

/-- Something that is made of named parts. -/
def made (kind : String) (parts : List (String × String)) : String :=
  kind ++ "(" ++ ", ".intercalate (parts.map fun (name, text) => name ++ "=" ++ text) ++ ")"

/-- A tuple of items that are shown already. A single item needs a comma to be one. -/
def tupleLiteral : List String → String
  | [item] => "(" ++ item ++ ",)"
  | items => "(" ++ ", ".intercalate items ++ ")"

/-- A list of items that are shown already. -/
def listLiteral (items : List String) : String := "[" ++ ", ".intercalate items ++ "]"

/-- A dictionary of entries that are shown already. -/
def dictLiteral (entries : List String) : String :=
  "\x7b" ++ ", ".intercalate entries ++ "\x7d"

/-- A tuple of texts. -/
def namesLiteral (names : List Text) : String := tupleLiteral (names.map quote)

/-- Attributes, or that there are none. -/
def attributesLiteral : Option (List (Text × Text)) → String
  | none => "None"
  | some attributes =>
    dictLiteral (attributes.map fun (key, value) => quote key ++ ": " ++ quote value)

namespace Tree

mutual

/-- A display tree on one line. -/
def literal : Tree → String
  | .node name attributes none =>
    made "TreeNode" [("name", quote name), ("attributes", attributesLiteral attributes),
      ("children", "None")]
  | .node name attributes (some children) =>
    made "TreeNode" [("name", quote name), ("attributes", attributesLiteral attributes),
      ("children", tupleLiteral (literals children))]

/-- Some display trees, each on one line. -/
def literals : List Tree → List String
  | [] => []
  | t :: rest => literal t :: literals rest

end

end Tree

/-- A kind of application, by its name and its word. -/
def Analyzed.CallKind.literal (kind : Analyzed.CallKind) : String :=
  let name := match kind with
    | .tail => "TAIL_CALL"
    | .nonTail => "NON_TAIL_CALL"
  "<ApplicKind." ++ name ++ ": " ++ quote kind.text ++ ">"

/-- The parts of an atom. -/
def Atom.parts : Atom → List (String × String)
  | .void | .nil => []
  | .boolean value => [("value", (Json.bool value).literal)]
  | .char text | .string text | .symbol text => [("value", quote text)]
  | .rational numerator denominator =>
    [("numerator", integerText numerator), ("denominator", integerText denominator)]
  | .float value => [("value", value.text)]

/-- The parts of a lambda kind. -/
def Parsed.LambdaKind.parts : Parsed.LambdaKind → List (String × String)
  | .simple => []
  | .optional rest => [("rest", quote rest)]

/-- The parts of an address. -/
def Analyzed.Address.parts : Analyzed.Address → List (String × String)
  | .free => []
  | .param minor => [("minor", integerText minor)]
  | .bound major minor => [("major", integerText major), ("minor", integerText minor)]

namespace Term

mutual

/-- A term on one line. -/
def literal : Term → String
  | .none => "None"
  | .bool value => (Json.bool value).literal
  | .int value => integerText value
  | .float value => value.text
  | .str value => quote value
  | .tuple items => tupleLiteral (literals items)
  | .list items => listLiteral (literals items)
  | .dict entries => dictLiteral (entryLiterals entries)
  | .object => "<object object>"
  | .tree value => value.literal
  | .callKind value => value.literal
  | .atom value => made value.kindName value.parts
  | .vector elements => made "SExprVector" [("elements", tupleLiteral (literals elements))]
  | .pair car cdr => made "SExprPair" [("car", literal car), ("cdr", literal cdr)]
  | .parsedVar name => made "ParsedVar" [("name", quote name.text)]
  | .lambdaKind value => made value.kindName value.parts
  | .parsedConst value => made "ParsedConst" [("sexpr", literal value)]
  | .parsedGet var => made "ParsedVarGet" [("var", literal var)]
  | .parsedCond test thenBranch elseBranch =>
    made "ParsedIf" [("test", literal test), ("then_branch", literal thenBranch),
      ("else_branch", literal elseBranch)]
  | .parsedSeq exprs => made "ParsedSeq" [("exprs", tupleLiteral (literals exprs))]
  | .parsedDisj exprs => made "ParsedOr" [("exprs", tupleLiteral (literals exprs))]
  | .parsedSet var value =>
    made "ParsedVarSet" [("var", literal var), ("value", literal value)]
  | .parsedDefine var value =>
    made "ParsedVarDef" [("var", literal var), ("value", literal value)]
  | .parsedLambda params kind body =>
    made "ParsedLambda" [("params", namesLiteral params), ("kind", literal kind),
      ("body", literal body)]
  | .parsedApply operator args =>
    made "ParsedApplic" [("operator", literal operator),
      ("args", tupleLiteral (literals args))]
  | .address value => made value.kindName value.parts
  | .analyzedVar name home =>
    made "AnalyzedVar" [("name", quote name.text), ("address", literal home)]
  | .analyzedConst value => made "AnalyzedConst" [("sexpr", literal value)]
  | .analyzedGet var => made "AnalyzedVarGet" [("var", literal var)]
  | .analyzedCond test thenBranch elseBranch =>
    made "AnalyzedIf" [("test", literal test), ("then_branch", literal thenBranch),
      ("else_branch", literal elseBranch)]
  | .analyzedSeq exprs => made "AnalyzedSeq" [("exprs", tupleLiteral (literals exprs))]
  | .analyzedDisj exprs => made "AnalyzedOr" [("exprs", tupleLiteral (literals exprs))]
  | .analyzedSet var value =>
    made "AnalyzedVarSet" [("var", literal var), ("value", literal value)]
  | .analyzedDefine var value =>
    made "AnalyzedVarDef" [("var", literal var), ("value", literal value)]
  | .analyzedBox var => made "AnalyzedBox" [("var", literal var)]
  | .analyzedBoxGet var => made "AnalyzedBoxGet" [("var", literal var)]
  | .analyzedBoxSet var value =>
    made "AnalyzedBoxSet" [("var", literal var), ("value", literal value)]
  | .analyzedLambda params body =>
    made "AnalyzedLambda" [("params", namesLiteral params), ("body", literal body)]
  | .analyzedApply operator args kind =>
    made "AnalyzedApplic" [("operator", literal operator),
      ("args", tupleLiteral (literals args)), ("kind", literal kind)]

/-- Some terms, each on one line. -/
def literals : List Term → List String
  | [] => []
  | t :: rest => literal t :: literals rest

/-- Some entries, each on one line. -/
def entryLiterals : List (Text × Term) → List String
  | [] => []
  | (key, value) :: rest => (quote key ++ ": " ++ literal value) :: entryLiterals rest

end

end Term

end StageTree
