import StageTree.Proofs.Tree.Same

/-!
# Expressions That Look Alike

What the display tree of an expression keeps of it. Everything but its constants can be read
off: the headings of branches tell the kinds of expressions apart, and variables, parameter
lists, lambda kinds, addresses and kinds of applications each have trees of their own. Of a
constant the tree keeps what the tree of its value keeps.

Two expressions are alike up to a relation if they are built in the same way, from the same
parts, around constants whose values are related. Up to equality this is equality, so the
relation on constants is the only freedom there is.

Parsed and analyzed expressions are taken apart in the same way, so that what is proved by
induction is proved once: a relation that holds of two expressions exactly if it holds of their
parts is determined by what it says of constants. Being alike, being equal and having equal trees
are such relations.

## Main definitions

* `Anatomy`: Expressions taken apart, and `Anatomy.Matches`, expressions that match part by part.
* `Parsed.Expr.Alike`, `Analyzed.Expr.Alike`: Expressions that are the same but for related
  constants.

## Theorems

* `Anatomy.iff_of_matches`: Relations that go from part to part are the same if they relate
  constants in the same way.
* `Parsed.Expr.alike_iff`, `Parsed.Expr.eq_iff`, `Parsed.Expr.same_iff`, and the same for analyzed
  expressions: Being alike, equality and equality of trees go from part to part.
* `trees_tell_apart`: Expressions have equal trees if and only if they are alike up to the trees
  of their constants.
-/

namespace StageTree

/-- The trees of two reader values are equal. -/
def SameTree (s t : Sexpr) : Prop := s.tree.same t.tree = true

/-! ## Expressions taken apart -/

/-- Expressions taken apart: into a heading for the kind, what an expression has besides values and
    expressions, the values in it, and the expressions in it. -/
structure Anatomy (E : Type) where
  Own : Type
  heading : E → Text
  own : E → Own
  constants : E → List Sexpr
  parts : E → List E
  /-- What is true of an expression if it is true of its parts is true of all expressions. -/
  induct {motive : E → Prop} (step : ∀ e, (∀ part ∈ parts e, motive part) → motive e) (e : E) :
    motive e

/-- Expressions match if they are of the same kind and have the same, but for the values and the
    expressions in them, and these are related one by one. -/
@[mk_iff]
structure Anatomy.Matches {E : Type} (A : Anatomy E) (R : Sexpr → Sexpr → Prop)
    (P : E → E → Prop) (e f : E) : Prop where
  heading : A.heading e = A.heading f
  own : A.own e = A.own f
  constants : List.Forall₂ R (A.constants e) (A.constants f)
  parts : List.Forall₂ P (A.parts e) (A.parts f)

/-- Relations that both hold exactly of expressions that match part by part are the same. -/
theorem Anatomy.iff_of_matches {E : Type} (A : Anatomy E) {R : Sexpr → Sexpr → Prop}
    {P Q : E → E → Prop} (hP : ∀ e f, P e f ↔ A.Matches R P e f)
    (hQ : ∀ e f, Q e f ↔ A.Matches R Q e f) (e f : E) : P e f ↔ Q e f := by
  -- Both relations hold of the parts alike by the induction, and the rest of a match is the same.
  induction e using A.induct generalizing f with
  | step e ih => rw [hP, hQ, matches_iff, matches_iff, forall₂_congr_of_mem ih]

/-! ## Parsed expressions -/

namespace Parsed.Expr

/-- Parsed expressions that are the same but for constants, whose values are related. -/
inductive Alike (R : Sexpr → Sexpr → Prop) : Expr → Expr → Prop where
  | const {s t : Sexpr} (h : R s t) : Alike R (.const s) (.const t)
  | get (var : VarName) : Alike R (.get var) (.get var)
  | cond {test test' a a' b b' : Expr} (htest : Alike R test test') (ha : Alike R a a')
    (hb : Alike R b b') : Alike R (.cond test a b) (.cond test' a' b')
  | seq {es fs : List Expr} (h : List.Forall₂ (Alike R) es fs) : Alike R (.seq es) (.seq fs)
  | disj {es fs : List Expr} (h : List.Forall₂ (Alike R) es fs) : Alike R (.disj es) (.disj fs)
  | set (var : VarName) {e f : Expr} (h : Alike R e f) : Alike R (.set var e) (.set var f)
  | define (var : VarName) {e f : Expr} (h : Alike R e f) :
    Alike R (.define var e) (.define var f)
  | lambda (params : List Text) (kind : LambdaKind) {e f : Expr} (h : Alike R e f) :
    Alike R (.lambda params kind e) (.lambda params kind f)
  | apply {e f : Expr} {es fs : List Expr} (h : Alike R e f)
    (hs : List.Forall₂ (Alike R) es fs) : Alike R (.apply e es) (.apply f fs)

/-- The heading of an expression's tree. -/
def heading : Expr → Text
  | .const _ => "Const"
  | .get _ => "VarGet"
  | .cond _ _ _ => "If"
  | .seq _ => "Seq"
  | .disj _ => "Or"
  | .set _ _ => "VarSet"
  | .define _ _ => "VarDef"
  | .lambda _ _ _ => "Lambda"
  | .apply _ _ => "Applic"

/-- What a parsed expression has besides values and expressions. -/
inductive Own where
  | nothing
  | var (v : VarName)
  | lambda (params : List Text) (kind : LambdaKind)

def own : Expr → Own
  | .get var | .set var _ | .define var _ => .var var
  | .lambda params kind _ => .lambda params kind
  | _ => .nothing

def constants : Expr → List Sexpr
  | .const value => [value]
  | _ => []

def parts : Expr → List Expr
  | .const _ | .get _ => []
  | .cond test thenBranch elseBranch => [test, thenBranch, elseBranch]
  | .seq exprs | .disj exprs => exprs
  | .set _ value | .define _ value => [value]
  | .lambda _ _ body => [body]
  | .apply operator args => operator :: args

/-- Parsed expressions taken apart. -/
def anatomy : Anatomy Expr where
  Own := Own
  heading := heading
  own := own
  constants := constants
  parts := parts
  induct step e := by
    induction e with
    | const _ | get _ => exact step _ (by simp [parts])
    | seq _ ih | disj _ ih => exact step _ ih
    | cond _ _ _ htest hthen helse => exact step _ (by simp [parts, htest, hthen, helse])
    | set _ _ ih | define _ _ ih | lambda _ _ _ ih => exact step _ (by simp [parts, ih])
    | apply _ _ ih ihs => exact step _ (List.forall_mem_cons.2 ⟨ih, ihs⟩)

variable {R : Sexpr → Sexpr → Prop}

/-- Being alike goes from part to part. -/
theorem alike_iff (e f : Expr) : Alike R e f ↔ anatomy.Matches R (Alike R) e f := by
  rw [Anatomy.matches_iff]
  constructor
  · intro h
    -- Each rule relates expressions of one kind, whose parts are those of the rule.
    cases h <;> simp_all [anatomy, heading, own, constants, parts]
  · intro h
    -- Expressions of different kinds have different headings.
    cases e <;> cases f <;> simp [anatomy, heading, own, constants, parts] at h
    case const.const => exact .const h
    case get.get => exact h ▸ .get _
    case cond.cond => exact .cond h.1 h.2.1 h.2.2
    case seq.seq => exact .seq h
    case disj.disj => exact .disj h
    case set.set => exact h.1 ▸ .set _ h.2
    case define.define => exact h.1 ▸ .define _ h.2
    case lambda.lambda => exact h.1.1 ▸ h.1.2 ▸ .lambda _ _ h.2
    case apply.apply => exact .apply h.1 h.2

/-- Equality goes from part to part. -/
theorem eq_iff (e f : Expr) : e = f ↔ anatomy.Matches (· = ·) (· = ·) e f := by
  -- Rows that are equal one by one are equal, so this is injectivity of the constructors.
  rw [Anatomy.matches_iff, List.forall₂_eq_eq_eq, List.forall₂_eq_eq_eq]
  cases e <;> cases f <;> simp [anatomy, heading, own, constants, parts, and_assoc]

/-- Equality of trees goes from part to part: the heading tells the kind, and the children of a
    branch are the trees of the parts. -/
theorem same_iff (e f : Expr) : e.tree.same f.tree = true ↔
    anatomy.Matches SameTree (fun e f => e.tree.same f.tree = true) e f := by
  rw [Anatomy.matches_iff]
  cases e <;> cases f <;>
    simp [anatomy, heading, own, constants, parts, tree, trees_eq, Tree.same_branch, same_varTree,
      same_paramsTree, LambdaKind.same_tree, SameTree, and_assoc]

end Parsed.Expr

/-! ## Analyzed expressions -/

namespace Analyzed.Expr

/-- Analyzed expressions that are the same but for constants, whose values are related. -/
inductive Alike (R : Sexpr → Sexpr → Prop) : Expr → Expr → Prop where
  | const {s t : Sexpr} (h : R s t) : Alike R (.const s) (.const t)
  | get (var : Var) : Alike R (.get var) (.get var)
  | cond {test test' a a' b b' : Expr} (htest : Alike R test test') (ha : Alike R a a')
    (hb : Alike R b b') : Alike R (.cond test a b) (.cond test' a' b')
  | seq {es fs : List Expr} (h : List.Forall₂ (Alike R) es fs) : Alike R (.seq es) (.seq fs)
  | disj {es fs : List Expr} (h : List.Forall₂ (Alike R) es fs) : Alike R (.disj es) (.disj fs)
  | set (var : Var) {e f : Expr} (h : Alike R e f) : Alike R (.set var e) (.set var f)
  | define (var : Var) {e f : Expr} (h : Alike R e f) :
    Alike R (.define var e) (.define var f)
  | box (var : Var) : Alike R (.box var) (.box var)
  | boxGet (var : Var) : Alike R (.boxGet var) (.boxGet var)
  | boxSet (var : Var) {e f : Expr} (h : Alike R e f) :
    Alike R (.boxSet var e) (.boxSet var f)
  | lambda (params : List Text) {e f : Expr} (h : Alike R e f) :
    Alike R (.lambda params e) (.lambda params f)
  | apply {e f : Expr} {es fs : List Expr} (kind : CallKind) (h : Alike R e f)
    (hs : List.Forall₂ (Alike R) es fs) : Alike R (.apply e es kind) (.apply f fs kind)

/-- The heading of an expression's tree. -/
def heading : Expr → Text
  | .const _ => "Const'"
  | .get _ => "VarGet'"
  | .cond _ _ _ => "If'"
  | .seq _ => "Seq'"
  | .disj _ => "Or'"
  | .set _ _ => "VarSet'"
  | .define _ _ => "VarDef'"
  | .box _ => "Box'"
  | .boxGet _ => "BoxGet'"
  | .boxSet _ _ => "BoxSet'"
  | .lambda _ _ => "Lambda'"
  | .apply _ _ _ => "Applic'"

/-- What an analyzed expression has besides values and expressions. -/
inductive Own where
  | nothing
  | var (v : Var)
  | lambda (params : List Text)
  | apply (kind : CallKind)

def own : Expr → Own
  | .get var | .set var _ | .define var _ | .box var | .boxGet var | .boxSet var _ => .var var
  | .lambda params _ => .lambda params
  | .apply _ _ kind => .apply kind
  | _ => .nothing

def constants : Expr → List Sexpr
  | .const value => [value]
  | _ => []

def parts : Expr → List Expr
  | .const _ | .get _ | .box _ | .boxGet _ => []
  | .cond test thenBranch elseBranch => [test, thenBranch, elseBranch]
  | .seq exprs | .disj exprs => exprs
  | .set _ value | .define _ value | .boxSet _ value => [value]
  | .lambda _ body => [body]
  | .apply operator args _ => operator :: args

/-- Analyzed expressions taken apart. -/
def anatomy : Anatomy Expr where
  Own := Own
  heading := heading
  own := own
  constants := constants
  parts := parts
  induct step e := by
    induction e with
    | const _ | get _ | box _ | boxGet _ => exact step _ (by simp [parts])
    | seq _ ih | disj _ ih => exact step _ ih
    | cond _ _ _ htest hthen helse => exact step _ (by simp [parts, htest, hthen, helse])
    | set _ _ ih | define _ _ ih | boxSet _ _ ih | lambda _ _ ih =>
        exact step _ (by simp [parts, ih])
    | apply _ _ _ ih ihs => exact step _ (List.forall_mem_cons.2 ⟨ih, ihs⟩)

variable {R : Sexpr → Sexpr → Prop}

/-- Being alike goes from part to part. -/
theorem alike_iff (e f : Expr) : Alike R e f ↔ anatomy.Matches R (Alike R) e f := by
  rw [Anatomy.matches_iff]
  constructor
  · intro h
    cases h <;> simp_all [anatomy, heading, own, constants, parts]
  · intro h
    -- Of the hundred and forty-four pairs of kinds those with different headings are left out.
    cases e <;> cases f <;> simp [anatomy, heading, own, constants, parts] at h
    case const.const => exact .const h
    case get.get | box.box | boxGet.boxGet => subst h; constructor
    case cond.cond => exact .cond h.1 h.2.1 h.2.2
    case seq.seq => exact .seq h
    case disj.disj => exact .disj h
    case set.set => exact h.1 ▸ .set _ h.2
    case define.define => exact h.1 ▸ .define _ h.2
    case boxSet.boxSet => exact h.1 ▸ .boxSet _ h.2
    case lambda.lambda => exact h.1 ▸ .lambda _ h.2
    case apply.apply => exact h.1 ▸ .apply _ h.2.1 h.2.2

/-- Equality goes from part to part. -/
theorem eq_iff (e f : Expr) : e = f ↔ anatomy.Matches (· = ·) (· = ·) e f := by
  rw [Anatomy.matches_iff, List.forall₂_eq_eq_eq, List.forall₂_eq_eq_eq]
  cases e <;> cases f <;> simp [anatomy, heading, own, constants, parts, and_left_comm, and_comm]

/-- Equality of trees goes from part to part: the heading tells the kind, and the children of a
    branch are the trees of the parts. -/
theorem same_iff (e f : Expr) : e.tree.same f.tree = true ↔
    anatomy.Matches SameTree (fun e f => e.tree.same f.tree = true) e f := by
  rw [Anatomy.matches_iff]
  cases e <;> cases f <;>
    simp [anatomy, heading, own, constants, parts, tree, trees_eq, Tree.same_branch, Var.same_tree,
      same_paramsTree, CallKind.same_tree, SameTree, and_left_comm, and_comm]

end Analyzed.Expr

/-! ## What trees tell -/

/-- Nothing of an expression is lost in its tree but what is lost of its constants: two
    expressions have equal trees if and only if they are the same but for constants whose
    trees are equal. If the constants are the same too, they are the same expression. -/
theorem trees_tell_apart :
    (∀ a b : Parsed.Expr, (a.tree.same b.tree = true ↔ a.Alike SameTree b) ∧
      (a.Alike (· = ·) b ↔ a = b)) ∧
    ∀ a b : Analyzed.Expr, (a.tree.same b.tree = true ↔ a.Alike SameTree b) ∧
      (a.Alike (· = ·) b ↔ a = b) := by
  refine ⟨fun a b => ⟨?_, ?_⟩, fun a b => ⟨?_, ?_⟩⟩
  · exact Parsed.Expr.anatomy.iff_of_matches Parsed.Expr.same_iff Parsed.Expr.alike_iff a b
  · exact Parsed.Expr.anatomy.iff_of_matches Parsed.Expr.alike_iff Parsed.Expr.eq_iff a b
  · exact Analyzed.Expr.anatomy.iff_of_matches Analyzed.Expr.same_iff Analyzed.Expr.alike_iff a b
  · exact Analyzed.Expr.anatomy.iff_of_matches Analyzed.Expr.alike_iff Analyzed.Expr.eq_iff a b

end StageTree
