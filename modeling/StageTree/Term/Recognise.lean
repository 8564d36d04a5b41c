import StageTree.Failure
import StageTree.Term.Basic

/-!
# Recognising Nodes

Which terms are nodes of a stage. A term is gone through in the order in which it is shown,
and the first part that does not belong where it stands is the one that is reported: by the
name of its kind, with the stage whose part it should have been and a list of what could
stand there.

A reader value inside a constant belongs to the reader, whatever the stage of the expression
around it.

Going through a term takes room as reading a document does.

## Main definitions

* `Place`: What must stand at a place.
* `Misfit`: A term that does not belong where it stands.
* `Term.sexprFrom`, `Term.parsedFrom`, `Term.analyzedFrom`: One level of a node.
* `Term.sexpr?`, `Term.parsed?`, `Term.analyzed?`: The nodes that terms are.
* `Term.node?`: The node of a stage that a term is.
-/

namespace StageTree

/-- What must stand at a place. -/
inductive Place where
  | readerValue
  | parsedExpression
  | parsedVariable
  | lambdaKind
  | analyzedExpression
  | analyzedVariable
  | callKind
  | lexicalAddress
  deriving DecidableEq

namespace Place

/-- The stage whose part must stand at a place. -/
def stage : Place → Stage
  | .readerValue => .reader
  | .parsedExpression | .parsedVariable | .lambdaKind => .tagParser
  | .analyzedExpression | .analyzedVariable | .callKind | .lexicalAddress => .semanticAnalyzer

/-- What could stand at a place. -/
def expected : Place → String
  | .readerValue =>
    "a reader value (void, nil, boolean, char, string, symbol, number, vector or pair)"
  | .parsedExpression =>
    "a parsed expression (Const, VarGet, If, Seq, Or, VarSet, VarDef, Lambda or Applic)"
  | .parsedVariable => "a parsed variable (ParsedVar)"
  | .lambdaKind => "a lambda kind (LambdaSimple or LambdaOptional)"
  | .analyzedExpression =>
    "an analyzed expression (Const, VarGet, If, Seq, Or, VarSet, VarDef, " ++
      "Box, BoxGet, BoxSet, Lambda or Applic)"
  | .analyzedVariable => "an analyzed variable (AnalyzedVar)"
  | .callKind => "an application kind (ApplicKind.TAIL_CALL or ApplicKind.NON_TAIL_CALL)"
  | .lexicalAddress => "a lexical address (FreeAddress, ParamAddress or BoundAddress)"

end Place

/-- Why a term is not a node of a stage. -/
inductive Misfit where
  /-- A term of this kind stands at a place where it does not belong. -/
  | unknown (place : Place) (kindName : String)
  /-- The term takes more room than there is. -/
  | tooDeep
  deriving DecidableEq

/-- The failure that reports a term of some kind at a place where it does not belong. -/
def Place.failure (place : Place) (kindName : String) : Failure :=
  .unknownNode place.stage.name kindName (some place.expected)

/-- The result of recognising a term. -/
abbrev Recognised (α : Type) := Except Misfit α

/-- Terms recognised one after the other. -/
def recogniseAll {α : Type} (recognise : Term → Recognised α) : List Term → Recognised (List α)
  | [] => .ok []
  | t :: rest => do
    let first ← recognise t
    let others ← recogniseAll recognise rest
    pure (first :: others)

namespace Term

/-- A term that does not belong at a place. -/
def misfit {α : Type} (place : Place) (t : Term) : Recognised α :=
  .error (.unknown place t.kindName)

/-- The reader value that a term is, given how its parts and the elements of a list are
    recognised. -/
def sexprFrom (part element : Term → Recognised Sexpr) : Term → Recognised Sexpr
  | .atom a => .ok (.atom a)
  | .vector elements => return .vector (← recogniseAll element elements)
  | .pair car cdr => return .pair (← part car) (← part cdr)
  | t => misfit .readerValue t

/-- The reader value that a term is. The elements of a list are two units of room further down
    than the other parts. -/
def sexpr? (room : Nat) (t : Term) : Recognised Sexpr :=
  match room with
  | 0 => .error .tooDeep
  | room + 1 =>
    let element : Term → Recognised Sexpr := match room with
      | room + 2 => sexpr? room
      | _ => fun _ => .error .tooDeep
    sexprFrom (sexpr? room) element t

/-- The parsed variable that a term is. -/
def parsedVar? : Term → Recognised VarName
  | .parsedVar name => .ok name
  | t => misfit .parsedVariable t

/-- The lambda kind that a term is. -/
def lambdaKind? : Term → Recognised Parsed.LambdaKind
  | .lambdaKind kind => .ok kind
  | t => misfit .lambdaKind t

/-- The parsed expression that a term is, given how reader values, its parts and the
    expressions of a list are recognised. -/
def parsedFrom (value : Term → Recognised Sexpr) (part element : Term → Recognised Parsed.Expr) :
    Term → Recognised Parsed.Expr
  | .parsedConst s => return .const (← value s)
  | .parsedGet var => return .get (← parsedVar? var)
  | .parsedCond test thenBranch elseBranch =>
    return .cond (← part test) (← part thenBranch) (← part elseBranch)
  | .parsedSeq exprs => return .seq (← recogniseAll element exprs)
  | .parsedDisj exprs => return .disj (← recogniseAll element exprs)
  | .parsedSet var e => return .set (← parsedVar? var) (← part e)
  | .parsedDefine var e => return .define (← parsedVar? var) (← part e)
  | .parsedLambda params kind body =>
    return .lambda params (← lambdaKind? kind) (← part body)
  | .parsedApply operator args =>
    return .apply (← part operator) (← recogniseAll element args)
  | t => misfit .parsedExpression t

/-- The parsed expression that a term is. -/
def parsed? (room : Nat) (t : Term) : Recognised Parsed.Expr :=
  match room with
  | 0 => .error .tooDeep
  | room + 1 =>
    let element : Term → Recognised Parsed.Expr := match room with
      | room + 2 => parsed? room
      | _ => fun _ => .error .tooDeep
    parsedFrom (sexpr? room) (parsed? room) element t

/-- The lexical address that a term is. -/
def address? : Term → Recognised Analyzed.Address
  | .address home => .ok home
  | t => misfit .lexicalAddress t

/-- The analyzed variable that a term is. -/
def analyzedVar? : Term → Recognised Analyzed.Var
  | .analyzedVar name home => return ⟨name, ← address? home⟩
  | t => misfit .analyzedVariable t

/-- The kind of application that a term is. -/
def callKind? : Term → Recognised Analyzed.CallKind
  | .callKind kind => .ok kind
  | t => misfit .callKind t

/-- The analyzed expression that a term is, given how reader values, its parts and the
    expressions of a list are recognised. -/
def analyzedFrom (value : Term → Recognised Sexpr)
    (part element : Term → Recognised Analyzed.Expr) : Term → Recognised Analyzed.Expr
  | .analyzedConst s => return .const (← value s)
  | .analyzedGet var => return .get (← analyzedVar? var)
  | .analyzedCond test thenBranch elseBranch =>
    return .cond (← part test) (← part thenBranch) (← part elseBranch)
  | .analyzedSeq exprs => return .seq (← recogniseAll element exprs)
  | .analyzedDisj exprs => return .disj (← recogniseAll element exprs)
  | .analyzedSet var e => return .set (← analyzedVar? var) (← part e)
  | .analyzedDefine var e => return .define (← analyzedVar? var) (← part e)
  | .analyzedBox var => return .box (← analyzedVar? var)
  | .analyzedBoxGet var => return .boxGet (← analyzedVar? var)
  | .analyzedBoxSet var e => return .boxSet (← analyzedVar? var) (← part e)
  | .analyzedLambda params body => return .lambda params (← part body)
  | .analyzedApply operator args kind =>
    return .apply (← part operator) (← recogniseAll element args) (← callKind? kind)
  | t => misfit .analyzedExpression t

/-- The analyzed expression that a term is. -/
def analyzed? (room : Nat) (t : Term) : Recognised Analyzed.Expr :=
  match room with
  | 0 => .error .tooDeep
  | room + 1 =>
    let element : Term → Recognised Analyzed.Expr := match room with
      | room + 2 => analyzed? room
      | _ => fun _ => .error .tooDeep
    analyzedFrom (sexpr? room) (analyzed? room) element t

/-- The node of a stage that a term is. -/
def node? : (stage : Stage) → (room : Nat) → Term → Recognised stage.Node
  | .reader, room, t => sexpr? room t
  | .tagParser, room, t => parsed? room t
  | .semanticAnalyzer, room, t => analyzed? room t

end Term

end StageTree
