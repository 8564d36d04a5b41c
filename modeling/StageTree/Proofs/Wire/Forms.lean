import Mathlib.Data.List.Forall2
import StageTree.Wire.Analyzed

/-!
# The Wire Forms

What a document means, as relations between documents and nodes. They are the format itself,
apart from any way to read it: there is no room, no order in which the members of an object
are looked at, and nothing is said of documents that mean nothing.

A relation only speaks of the parts of a document that belong to the form. An object may have
other members, and the members may stand in any order.

The numbers of a document are told apart here as they are in `Json`: truth values are not
numbers, and a number with a fraction or a power of ten is not an integer, whatever its value.

## Main definitions

* `Tagged`, `HasValue`, `HasField`, `IsList`: The parts of a node.
* `Denotes`: The reader value that a document denotes.
* `NamesForm`, `VarForm`, `LambdaKindForm`: The parts of parsed expressions.
* `ParsedForm`: The wire form of a parsed expression.
* `AddressForm`, `AnalyzedVarForm`, `CallForm`: The parts of analyzed expressions.
* `AnalyzedForm`: The wire form of an analyzed expression.
-/

namespace StageTree

namespace Wire

/-! ## The parts of nodes -/

/-- The document is an object with this tag. -/
def Tagged (j : Json) (tag : Text) : Prop := partAt? j [.key "type"] = some (.str tag)

/-- The document is an object with this value. -/
def HasValue (j value : Json) : Prop := partAt? j [.key "value"] = some value

/-- The document is an object whose value is an object with this member. -/
def HasField (j : Json) (key : Text) (part : Json) : Prop :=
  partAt? j [.key "value", .key key] = some part

/-- The document is a list of these items. -/
def IsList (j : Json) (items : List Json) : Prop := Tagged j "OcamlList" ∧ HasValue j (.arr items)

/-! ## Reader values -/

/-- The reader value that a document denotes. -/
inductive Denotes : Json → Sexpr → Prop where
  /-- A truth value stands for itself. -/
  | boolean (value : Bool) : Denotes (.bool value) (.atom (.boolean value))
  /-- A number with a fraction or a power of ten stands for itself. -/
  | float (value : Binary64) : Denotes (.float value) (.atom (.float value))
  /-- A whole number denotes the nearest double, if that is finite. -/
  | integer {n : Int} (hfinite : (Binary64.ofInt n).isInfinite = false) :
    Denotes (.int n) (.atom (.float (Binary64.ofInt n)))
  /-- The unspecified value needs nothing but its tag. -/
  | void {j : Json} (htag : Tagged j "ScmVoid") : Denotes j (.atom .void)
  /-- The empty list needs nothing but its tag. -/
  | nil {j : Json} (htag : Tagged j "ScmNil") : Denotes j (.atom .nil)
  /-- A fraction has two integers, and is taken as it is written. -/
  | rational {j : Json} {numerator denominator : Int} (htag : Tagged j "ScmRational")
    (hnum : HasField j "numerator" (.int numerator))
    (hden : HasField j "denominator" (.int denominator)) :
    Denotes j (.atom (.rational numerator denominator))
  /-- A character is given by a text. -/
  | char {j : Json} {text : Text} (htag : Tagged j "ScmChar") (hvalue : HasValue j (.str text)) :
    Denotes j (.atom (.char text))
  /-- A text is given by itself. -/
  | string {j : Json} {text : Text} (htag : Tagged j "ScmString")
    (hvalue : HasValue j (.str text)) : Denotes j (.atom (.string text))
  /-- A symbol is given by its text. -/
  | symbol {j : Json} {text : Text} (htag : Tagged j "ScmSymbol")
    (hvalue : HasValue j (.str text)) : Denotes j (.atom (.symbol text))
  /-- A list denotes the vector of what its items denote. -/
  | vector {j : Json} {items : List Json} {elements : List Sexpr} (hlist : IsList j items)
    (helements : List.Forall₂ Denotes items elements) : Denotes j (.vector elements)
  /-- A pair has two parts. -/
  | pair {j a d : Json} {car cdr : Sexpr} (htag : Tagged j "ScmPair")
    (ha : HasField j "car" a) (hd : HasField j "cdr" d)
    (hcar : Denotes a car) (hcdr : Denotes d cdr) : Denotes j (.pair car cdr)

/-! ## Parsed expressions -/

/-- The parameters of a lambda expression are an array of texts, or a list of texts. -/
def NamesForm (j : Json) (names : List Text) : Prop :=
  j = .arr (names.map .str) ∨ IsList j (names.map .str)

/-- A variable has a name, which is not empty. -/
def VarForm (j : Json) (var : VarName) : Prop :=
  Tagged j "ScmVar" ∧ HasField j "name" (.str var.text)

/-- The kinds of lambda expressions. -/
inductive LambdaKindForm : Json → Parsed.LambdaKind → Prop where
  /-- A fixed number of arguments needs nothing but the tag. -/
  | simple {j : Json} (htag : Tagged j "LambdaSimple") : LambdaKindForm j .simple
  /-- The list of further arguments has a name. -/
  | optional {j : Json} {rest : Text} (htag : Tagged j "LambdaOpt")
    (hopt : HasField j "opt" (.str rest)) : LambdaKindForm j (.optional rest)

/-- The wire form of a parsed expression. -/
inductive ParsedForm : Json → Parsed.Expr → Prop where
  | const {j s : Json} {value : Sexpr} (htag : Tagged j "ScmConst") (hs : HasField j "sexpr" s)
    (hvalue : Denotes s value) : ParsedForm j (.const value)
  | get {j v : Json} {var : VarName} (htag : Tagged j "ScmVarGet") (hv : HasField j "var" v)
    (hvar : VarForm v var) : ParsedForm j (.get var)
  | cond {j t a b : Json} {test thenBranch elseBranch : Parsed.Expr} (htag : Tagged j "ScmIf")
    (ht : HasField j "test" t) (ha : HasField j "dit" a) (hb : HasField j "dif" b)
    (htest : ParsedForm t test) (hthen : ParsedForm a thenBranch)
    (helse : ParsedForm b elseBranch) : ParsedForm j (.cond test thenBranch elseBranch)
  | seq {j l : Json} {items : List Json} {exprs : List Parsed.Expr} (htag : Tagged j "ScmSeq")
    (hl : HasField j "exprs" l) (hlist : IsList l items)
    (hexprs : List.Forall₂ ParsedForm items exprs) : ParsedForm j (.seq exprs)
  | disj {j l : Json} {items : List Json} {exprs : List Parsed.Expr} (htag : Tagged j "ScmOr")
    (hl : HasField j "exprs" l) (hlist : IsList l items)
    (hexprs : List.Forall₂ ParsedForm items exprs) : ParsedForm j (.disj exprs)
  | set {j v e : Json} {var : VarName} {value : Parsed.Expr} (htag : Tagged j "ScmVarSet")
    (hv : HasField j "var" v) (he : HasField j "val" e) (hvar : VarForm v var)
    (hvalue : ParsedForm e value) : ParsedForm j (.set var value)
  | define {j v e : Json} {var : VarName} {value : Parsed.Expr} (htag : Tagged j "ScmVarDef")
    (hv : HasField j "var" v) (he : HasField j "val" e) (hvar : VarForm v var)
    (hvalue : ParsedForm e value) : ParsedForm j (.define var value)
  | lambda {j p k b : Json} {params : List Text} {kind : Parsed.LambdaKind}
    {body : Parsed.Expr} (htag : Tagged j "ScmLambda") (hp : HasField j "params" p)
    (hk : HasField j "kind" k) (hb : HasField j "body" b) (hparams : NamesForm p params)
    (hkind : LambdaKindForm k kind) (hbody : ParsedForm b body) :
    ParsedForm j (.lambda params kind body)
  | apply {j o l : Json} {items : List Json} {operator : Parsed.Expr} {args : List Parsed.Expr}
    (htag : Tagged j "ScmApplic") (ho : HasField j "applicative" o) (hl : HasField j "params" l)
    (hoperator : ParsedForm o operator) (hlist : IsList l items)
    (hargs : List.Forall₂ ParsedForm items args) : ParsedForm j (.apply operator args)

/-! ## Analyzed expressions -/

/-- The wire form of a lexical address. Indices are integers that are not negative. -/
inductive AddressForm : Json → Analyzed.Address → Prop where
  | free {j : Json} (htag : Tagged j "Free") : AddressForm j .free
  | param {j : Json} {minor : Nat} (htag : Tagged j "Param")
    (hminor : HasField j "minor" (.int minor)) : AddressForm j (.param minor)
  | bound {j : Json} {major minor : Nat} (htag : Tagged j "Bound")
    (hmajor : HasField j "major" (.int major)) (hminor : HasField j "minor" (.int minor)) :
    AddressForm j (.bound major minor)

/-- A variable has a name, which is not empty, and an address. -/
inductive AnalyzedVarForm : Json → Analyzed.Var → Prop where
  | var {j a : Json} {name : VarName} {address : Analyzed.Address}
    (htag : Tagged j "ScmVarTag") (hname : HasField j "name" (.str name.text))
    (ha : HasField j "lexical_address" a) (haddress : AddressForm a address) :
    AnalyzedVarForm j ⟨name, address⟩

/-- The wire form of a kind of application. -/
inductive CallForm : Json → Analyzed.CallKind → Prop where
  | tail {j : Json} (htag : Tagged j "AppKind") (hvalue : HasValue j (.str "Tail_Call")) :
    CallForm j .tail
  | nonTail {j : Json} (htag : Tagged j "AppKind") (hvalue : HasValue j (.str "Non_Tail_Call")) :
    CallForm j .nonTail

/-- The wire form of an analyzed expression. -/
inductive AnalyzedForm : Json → Analyzed.Expr → Prop where
  | const {j s : Json} {value : Sexpr} (htag : Tagged j "ScmConst") (hs : HasField j "sexpr" s)
    (hvalue : Denotes s value) : AnalyzedForm j (.const value)
  | get {j v : Json} {var : Analyzed.Var} (htag : Tagged j "ScmVarGetTag")
    (hv : HasField j "var" v) (hvar : AnalyzedVarForm v var) : AnalyzedForm j (.get var)
  | cond {j t a b : Json} {test thenBranch elseBranch : Analyzed.Expr}
    (htag : Tagged j "ScmIfTag") (ht : HasField j "test" t) (ha : HasField j "dit" a)
    (hb : HasField j "dif" b) (htest : AnalyzedForm t test) (hthen : AnalyzedForm a thenBranch)
    (helse : AnalyzedForm b elseBranch) : AnalyzedForm j (.cond test thenBranch elseBranch)
  | seq {j l : Json} {items : List Json} {exprs : List Analyzed.Expr}
    (htag : Tagged j "ScmSeqTag") (hl : HasField j "exprs" l) (hlist : IsList l items)
    (hexprs : List.Forall₂ AnalyzedForm items exprs) : AnalyzedForm j (.seq exprs)
  | disj {j l : Json} {items : List Json} {exprs : List Analyzed.Expr}
    (htag : Tagged j "ScmOrTag") (hl : HasField j "exprs" l) (hlist : IsList l items)
    (hexprs : List.Forall₂ AnalyzedForm items exprs) : AnalyzedForm j (.disj exprs)
  | set {j v e : Json} {var : Analyzed.Var} {value : Analyzed.Expr}
    (htag : Tagged j "ScmVarSetTag") (hv : HasField j "var" v) (he : HasField j "val" e)
    (hvar : AnalyzedVarForm v var) (hvalue : AnalyzedForm e value) :
    AnalyzedForm j (.set var value)
  | define {j v e : Json} {var : Analyzed.Var} {value : Analyzed.Expr}
    (htag : Tagged j "ScmVarDefTag") (hv : HasField j "var" v) (he : HasField j "val" e)
    (hvar : AnalyzedVarForm v var) (hvalue : AnalyzedForm e value) :
    AnalyzedForm j (.define var value)
  | box {j v : Json} {var : Analyzed.Var} (htag : Tagged j "ScmBoxTag")
    (hv : HasField j "var" v) (hvar : AnalyzedVarForm v var) : AnalyzedForm j (.box var)
  | boxGet {j v : Json} {var : Analyzed.Var} (htag : Tagged j "ScmBoxGetTag")
    (hv : HasField j "var" v) (hvar : AnalyzedVarForm v var) : AnalyzedForm j (.boxGet var)
  | boxSet {j v e : Json} {var : Analyzed.Var} {value : Analyzed.Expr}
    (htag : Tagged j "ScmBoxSetTag") (hv : HasField j "var" v) (he : HasField j "val" e)
    (hvar : AnalyzedVarForm v var) (hvalue : AnalyzedForm e value) :
    AnalyzedForm j (.boxSet var value)
  | lambda {j p b : Json} {params : List Text} {body : Analyzed.Expr}
    (htag : Tagged j "ScmLambdaTag") (hp : HasField j "params" p) (hb : HasField j "body" b)
    (hparams : NamesForm p params) (hbody : AnalyzedForm b body) :
    AnalyzedForm j (.lambda params body)
  | apply {j o l k : Json} {items : List Json} {operator : Analyzed.Expr}
    {args : List Analyzed.Expr} {kind : Analyzed.CallKind} (htag : Tagged j "ScmApplicTag")
    (ho : HasField j "applicative" o) (hl : HasField j "params" l) (hk : HasField j "kind" k)
    (hoperator : AnalyzedForm o operator) (hlist : IsList l items)
    (hargs : List.Forall₂ AnalyzedForm items args) (hkind : CallForm k kind) :
    AnalyzedForm j (.apply operator args kind)

end Wire

end StageTree
