import StageTree.Proofs.Shown

/-!
# Erasing What the Analyzer Found Out

The semantic analyzer keeps the expressions of the tag parser and adds to them: addresses of
variables, kinds of applications, and boxes. Without boxes the additions can be erased again, and
what remains is a parsed expression. It has only simple lambda expressions, since the analyzer
does not tell the kinds apart.

The same can be done to display trees, without looking at the expression that they show: primes
are taken off, variables become leaves, the kind of an application goes, and a lambda expression
gets the leaf of a simple one. The two views of a program are in step if both ways of erasing lead
to the same tree.

Trees are rewritten by the names of their nodes, and names are free text in some places. So the
rewriting never goes where one could be mistaken: it leaves constants and parameter lists as they
are and takes no more of a variable than its name.

## Main definitions

* `Analyzed.Expr.hasBox`: There is a box somewhere in an expression.
* `Analyzed.Expr.erase?`: The parsed expression that is left of an analyzed one.
* `Tree.parsedView`: The tree of an analyzed expression as one of a parsed expression.
* `Analyzed.Expr.InStep`: The views of an analyzed expression and of a parsed one are in step.

## Theorems

* `Analyzed.Expr.exists_inStep`: An expression without boxes is in step with what is left of it.
* `Session.toOption_showTerm`: A node is shown exactly if there is room for it.
* `Session.analyzed_view_refines_parsed`: The tree of an analyzed expression without boxes is the
  tree of the parsed expression that is left of it, but for what can be taken off. One of the two
  is shown exactly if the other is.
-/

namespace StageTree

/-! ## Expressions -/

namespace Analyzed.Expr

mutual

/-- Whether there is a box somewhere in an expression: a new one, or one that is read or assigned
    to. -/
def hasBox : Expr → Bool
  | .const _ | .get _ => false
  | .cond test thenBranch elseBranch => hasBox test || hasBox thenBranch || hasBox elseBranch
  | .seq exprs | .disj exprs => anyHasBox exprs
  | .set _ value | .define _ value => hasBox value
  | .box _ | .boxGet _ | .boxSet _ _ => true
  | .lambda _ body => hasBox body
  | .apply operator args _ => hasBox operator || anyHasBox args

/-- Whether there is a box in one of some expressions. -/
def anyHasBox : List Expr → Bool
  | [] => false
  | e :: rest => hasBox e || anyHasBox rest

end

mutual

/-- The parsed expression that is left of an analyzed one without addresses and kinds of
    applications. Nothing parsed is like a box. -/
def erase? : Expr → Option Parsed.Expr
  | .const value => some (.const value)
  | .get var => some (.get var.name)
  | .cond test thenBranch elseBranch => do
    let first ← erase? test
    let second ← erase? thenBranch
    let third ← erase? elseBranch
    pure (.cond first second third)
  | .seq exprs => (eraseAll? exprs).map .seq
  | .disj exprs => (eraseAll? exprs).map .disj
  | .set var value => (erase? value).map (.set var.name)
  | .define var value => (erase? value).map (.define var.name)
  | .box _ | .boxGet _ | .boxSet _ _ => none
  | .lambda params body => (erase? body).map (.lambda params .simple)
  | .apply operator args _ => do
    let first ← erase? operator
    let others ← eraseAll? args
    pure (.apply first others)

/-- What is left of some expressions. -/
def eraseAll? : List Expr → Option (List Parsed.Expr)
  | [] => some []
  | e :: rest => do
    let first ← erase? e
    let others ← eraseAll? rest
    pure (first :: others)

end

end Analyzed.Expr

/-! ## Trees -/

namespace Tree

/-- A name without the prime at its end, if it has one. -/
def unprime (name : Text) : Text :=
  if name.points.getLast? = some (.char '\x27') then .ofPoints name.points.dropLast else name

/-- The names of the branches that are left as they are, but for the prime. -/
def untouched : List Text := ["Const'", "Params"]

/-- The children of a branch with a name, once they are rewritten: an application is without its
    kind, and a lambda expression has one. -/
def rearrange (name : Text) (children : List Tree) : List Tree :=
  if name = "Applic'" then children.dropLast
  else if name = "Lambda'" then children.take 1 ++ Parsed.LambdaKind.simple.tree :: children.drop 1
  else children

mutual

/-- The tree of an analyzed expression as one of a parsed expression. -/
def parsedView : Tree → Tree
  | .node name attributes none => .node name attributes none
  | .node name attributes (some children) =>
    if name = variableHeading then
      .leaf ("var " ++ ((children.head?).map Tree.name).getD "")
    else if name ∈ untouched then .node (unprime name) attributes (some children)
    else .node (unprime name) attributes (some (rearrange name (parsedViews children)))

/-- The trees of some analyzed expressions as those of parsed expressions. -/
def parsedViews : List Tree → List Tree
  | [] => []
  | t :: rest => parsedView t :: parsedViews rest

end

theorem parsedViews_eq (ts : List Tree) : parsedViews ts = ts.map parsedView := by
  induction ts with
  | nil => rfl
  | cons t rest ih => rw [parsedViews, ih, List.map_cons]

/-- A constant or a parameter list is left as it is, but for the prime. -/
theorem parsedView_untouched {name : Text} (h : name ∈ untouched) (children : List Tree) :
    (branch name children).parsedView = .branch (unprime name) children := by
  -- A name that is left alone is not the one of a variable.
  have hother : name ≠ variableHeading := by
    rintro rfl
    exact absurd h (by decide)
  rw [branch, parsedView, if_neg hother, if_pos h]
  rfl

/-- Any other branch is rewritten below, and then its children are arranged. -/
theorem parsedView_branch {name : Text} (h : name ∉ variableHeading :: untouched)
    (children : List Tree) : (branch name children).parsedView =
      .branch (unprime name) (rearrange name (children.map parsedView)) := by
  rw [List.mem_cons, not_or] at h
  rw [branch, parsedView, if_neg h.1, if_neg h.2, parsedViews_eq]
  rfl

/-- A parameter list has no prime to lose, so it stays as it is. -/
theorem parsedView_paramsTree (params : List Text) :
    (paramsTree params).parsedView = paramsTree params :=
  parsedView_untouched (by decide) _

end Tree

/-! ## Both ways -/

namespace Analyzed.Expr

open StageTree.Tree (branch parsedView parsedView_branch parsedView_untouched parsedView_paramsTree)

/-- What is left of an analyzed expression is a parsed one, whose tree is what is left of the
    tree. It takes as much room. -/
structure InStep (e : Expr) (p : Parsed.Expr) : Prop where
  erased : e.erase? = some p
  view : e.tree.parsedView = p.tree
  nesting : p.nesting = e.nesting

/-- The same for rows of expressions. -/
structure AllInStep (es : List Expr) (ps : List Parsed.Expr) : Prop where
  erased : eraseAll? es = some ps
  views : (trees es).map parsedView = Parsed.Expr.trees ps
  nesting : Parsed.Expr.nestingOfAll ps = nestingOfAll es

/-- Rows are in step if their expressions are. -/
theorem exists_allInStep {es : List Expr} (h : anyHasBox es = false)
    (hes : ∀ e ∈ es, e.hasBox = false → ∃ p, InStep e p) : ∃ ps, AllInStep es ps := by
  induction es with
  | nil => exact ⟨[], rfl, rfl, rfl⟩
  | cons e rest ih =>
      rw [anyHasBox, Bool.or_eq_false_iff] at h
      rcases List.forall_mem_cons.1 hes with ⟨hfirst, hothers⟩
      rcases hfirst h.1 with ⟨p, hp⟩
      rcases ih h.2 hothers with ⟨ps, hps⟩
      refine ⟨p :: ps, ?_, ?_, ?_⟩
      · rw [eraseAll?, hp.erased, hps.erased]
        rfl
      · rw [trees, List.map_cons, hp.view, hps.views, Parsed.Expr.trees]
      · rw [Parsed.Expr.nestingOfAll, hp.nesting, hps.nesting, nestingOfAll]

/-- An expression without boxes is in step with what is left of it. -/
theorem exists_inStep {e : Expr} (h : e.hasBox = false) : ∃ p, InStep e p := by
  induction e with
  | const value =>
      exact ⟨.const value, rfl, parsedView_untouched (by decide) _, rfl⟩
  -- A variable becomes a leaf, as the rewriting goes no further than its name.
  | get var =>
      exact ⟨.get var.name, rfl, parsedView_branch (by decide) _, rfl⟩
  | cond test thenBranch elseBranch iht iha ihb =>
      simp only [hasBox, Bool.or_eq_false_iff] at h
      rcases iht h.1.1 with ⟨first, hfirst⟩
      rcases iha h.1.2 with ⟨second, hsecond⟩
      rcases ihb h.2 with ⟨third, hthird⟩
      refine ⟨.cond first second third, ?_, ?_, ?_⟩
      · rw [erase?, hfirst.erased, hsecond.erased, hthird.erased]
        rfl
      · rw [tree, parsedView_branch (by decide)]
        simp only [List.map_cons, List.map_nil, hfirst.view, hsecond.view, hthird.view]
        rfl
      · rw [Parsed.Expr.nesting, hfirst.nesting, hsecond.nesting, hthird.nesting, nesting]
  | seq exprs ih | disj exprs ih =>
      rw [hasBox] at h
      rcases exists_allInStep h ih with ⟨ps, hps⟩
      refine ⟨_, by rw [erase?, hps.erased]; rfl, ?_, ?_⟩
      · rw [tree, parsedView_branch (by decide), hps.views]
        rfl
      · rw [Parsed.Expr.nesting, hps.nesting, nesting]
  | set var value ih | define var value ih =>
      rw [hasBox] at h
      rcases ih h with ⟨p, hp⟩
      refine ⟨_, by rw [erase?, hp.erased]; rfl, ?_, ?_⟩
      · rw [tree, parsedView_branch (by decide)]
        simp only [List.map_cons, List.map_nil, hp.view]
        rfl
      · rw [Parsed.Expr.nesting, hp.nesting, nesting]
  -- With a box in it the expression is not among those that can be erased.
  | box var | boxGet var => cases h
  | boxSet var value => cases h
  | lambda params body ih =>
      rw [hasBox] at h
      rcases ih h with ⟨p, hp⟩
      -- The parameters are not touched, and the leaf of a simple kind comes after them.
      refine ⟨.lambda params .simple p, by rw [erase?, hp.erased]; rfl, ?_, ?_⟩
      · rw [tree, parsedView_branch (by decide)]
        simp only [List.map_cons, List.map_nil, parsedView_paramsTree, hp.view]
        rfl
      · rw [Parsed.Expr.nesting, hp.nesting, nesting]
  | apply operator args kind ihop ihargs =>
      rw [hasBox, Bool.or_eq_false_iff] at h
      rcases ihop h.1 with ⟨first, hfirst⟩
      rcases exists_allInStep h.2 ihargs with ⟨others, hothers⟩
      refine ⟨.apply first others, ?_, ?_, ?_⟩
      · rw [erase?, hfirst.erased, hothers.erased]
        rfl
      · -- The arguments stand under a name of their own, which has no prime.
        have hargs : (branch "Args" (trees args)).parsedView =
            .branch "Args" (Parsed.Expr.trees others) := by
          rw [parsedView_branch (by decide), hothers.views]
          rfl
        rw [tree, parsedView_branch (by decide)]
        simp only [List.map_cons, List.map_nil, hfirst.view, hargs]
        rfl
      · rw [Parsed.Expr.nesting, hfirst.nesting, hothers.nesting, nesting]

end Analyzed.Expr

/-! ## What is shown -/

namespace Session

variable {stage : Stage}

/-- A term is a node in one way. -/
theorem toTerm_injective {a b : stage.Node} (h : stage.toTerm a = stage.toTerm b) : a = b := by
  -- The term is recognised with room for both nodes, and only as one of them.
  have ha : (stage.toTerm a).node? stage (max (stage.nesting a) (stage.nesting b)) = .ok a :=
    Term.node?_eq_ok_iff.2 ⟨rfl, Nat.le_max_left _ _⟩
  have hb : (stage.toTerm a).node? stage (max (stage.nesting a) (stage.nesting b)) = .ok b :=
    Term.node?_eq_ok_iff.2 ⟨h, Nat.le_max_right _ _⟩
  exact Except.ok.inj (ha.symm.trans hb)

/-- The term of a node is recognised only if there is room for the node. -/
theorem nesting_le_of_node? {room : Nat} {node other : stage.Node}
    (h : (stage.toTerm node).node? stage room = .ok other) : stage.nesting node ≤ room := by
  rcases Term.node?_eq_ok_iff.1 h with ⟨hterm, hneed⟩
  rw [toTerm_injective hterm]
  exact hneed

/-- A node is shown exactly if there is room for it. -/
theorem toOption_showTerm (stage : Stage) (node : stage.Node) :
    (showTerm stage (stage.toTerm node)).result.toOption =
      if stage.nesting node ≤ nestingLimit then some (stage.tree node) else none := by
  by_cases hroom : stage.nesting node ≤ nestingLimit
  · rw [showTerm_toTerm hroom, if_pos hroom]
    rfl
  · rw [if_neg hroom]
    cases hresult : (showTerm stage (stage.toTerm node)).result with
    | error trouble => rfl
    | ok t =>
        rcases showTerm_eq_ok hresult with ⟨other, hother⟩
        -- A tree would have come from a node that there is no room for.
        exact absurd (nesting_le_of_node? hother) hroom

/-- An analyzed expression without boxes leaves a parsed expression when it is erased. The tree of
    the one is the tree of the other, once the tree is rewritten; and where the expressions are
    handed in, one of them is shown exactly if the other is. -/
theorem analyzed_view_refines_parsed {e : Analyzed.Expr} (h : e.hasBox = false) :
    ∃ p, e.erase? = some p ∧ e.tree.parsedView = p.tree ∧
      (showTerm .tagParser p.toTerm).result.toOption =
        (showTerm .semanticAnalyzer e.toTerm).result.toOption.map Tree.parsedView := by
  rcases Analyzed.Expr.exists_inStep h with ⟨p, hp⟩
  have hparsed : (showTerm .tagParser p.toTerm).result.toOption =
      if p.nesting ≤ nestingLimit then some p.tree else none := toOption_showTerm .tagParser p
  have hanalyzed : (showTerm .semanticAnalyzer e.toTerm).result.toOption =
      if e.nesting ≤ nestingLimit then some e.tree else none :=
    toOption_showTerm .semanticAnalyzer e
  refine ⟨p, hp.erased, hp.view, ?_⟩
  rw [hparsed, hanalyzed, apply_ite (Option.map Tree.parsedView), hp.nesting, ← hp.view]
  rfl

/-- A lambda expression in whose names, parameters and constants primes stand. -/
def primedNames : Analyzed.Expr :=
  .lambda ["x'"] (.apply (.get ⟨⟨"f'", by decide⟩, .bound 1 0⟩)
    [.const (.atom (.symbol "Applic'")), .get ⟨⟨"x'", by decide⟩, .param 0⟩] .tail)

theorem primed_names_refined : primedNames.hasBox = false ∧
    ∃ p, primedNames.erase? = some p ∧ primedNames.tree.parsedView = p.tree ∧
      (showTerm .tagParser p.toTerm).result.toOption =
        (showTerm .semanticAnalyzer primedNames.toTerm).result.toOption.map Tree.parsedView :=
  ⟨rfl, analyzed_view_refines_parsed rfl⟩

example : primedNames.tree.parsedView =
    .branch "Lambda" [.branch "Params" [.leaf "\"x'\""], .leaf "Simple",
      .branch "Applic" [.branch "VarGet" [.leaf "var f'"],
        .branch "Args" [.branch "Const" [.leaf "'Applic'"],
          .branch "VarGet" [.leaf "var x'"]]]] := rfl

end Session

end StageTree
