import StageTree.Proofs.Erasure
import StageTree.Proofs.Tree.Preorder

/-!
# The Order of the Source

A display tree keeps the order of the value that it shows. Reading the value depth first, a part
before what stands inside it and its fields in the order of their declaration, one meets texts: the
labels of atoms, names, addresses, kinds. From left to right the leaves of the tree are these texts,
so that nothing is dropped, repeated or moved.

The reading is that of `Term.visits`, which knows nothing of trees. Every form of a stage lays out
its children by itself, and what has to be seen of each form is that it lays them out as its fields
are declared. `Listed` compares a row of trees with a row of visits, and is put together as rows
are: `Listed.append` for one after the other, `Listed.under` for a branch over some.

The tree has a node for every part of the value. Some forms add nodes of their own, and these are
all: a lambda expression groups its parameters and shows each of them, an application groups its
arguments, and an analyzed variable shows its name under itself.

## Main definitions

* `Tree.leafNames`: The names of a tree's leaves, from left to right.
* `Term.words`: The texts that a term itself has.
* `Term.weight`: How many nodes showing a term takes, apart from what stands inside it.
* `Listed`: Some trees show what is met in some visits.

## Theorems

* `Listed.append`, `Listed.map`, `Listed.under`, `Listed.grouped`: Rows and branches.
* `Sexpr.listed`, `Parsed.Expr.listed`, `Analyzed.Expr.listed`: The trees of the stages.
* `sum_weight_eq`: What the nodes of a tree are.
* `Session.leaves_in_source_order`: The leaves of a node's tree are its texts in their order, and
  the nodes of the tree are counted.
-/

namespace StageTree

/-! ## Leaves and texts -/

namespace Tree

mutual

/-- The names of a tree's leaves, from left to right. A branch without children is no leaf. -/
def leafNames : Tree → List Text
  | .node name _ none => [name]
  | .node _ _ (some children) => leafNamesOfAll children

/-- The names of the leaves of some trees. -/
def leafNamesOfAll : List Tree → List Text
  | [] => []
  | t :: rest => leafNames t ++ leafNamesOfAll rest

end

theorem leafNamesOfAll_eq (ts : List Tree) : leafNamesOfAll ts = ts.flatMap leafNames := by
  induction ts with
  | nil => rfl
  | cons t rest ih => rw [leafNamesOfAll, ih, List.flatMap_cons]

/-- The leaves of a branch are those of its children. -/
theorem leafNames_branch (name : Text) (children : List Tree) :
    (branch name children).leafNames = children.flatMap leafNames := by
  rw [branch, leafNames, leafNamesOfAll_eq]

theorem size_branch (name : Text) (children : List Tree) :
    (branch name children).size = (children.map size).sum + 1 := by
  rw [branch, size, sizeOfAll_eq]

end Tree

namespace Term

/-- The texts that a term itself has, without those of what stands inside it. They are declared
    before everything that stands inside. -/
def words : Term → List Text
  | .atom a => [a.label]
  | .parsedVar name => ["var " ++ name.text]
  | .lambdaKind .simple => ["Simple"]
  | .lambdaKind (.optional rest) => ["opt " ++ rest]
  | .parsedLambda params _ _ | .analyzedLambda params _ =>
    params.map fun param => "\"" ++ param ++ "\""
  | .analyzedVar name _ => [name.text]
  | .address .free => ["Free"]
  | .address (.param minor) => ["Param(" ++ integerText minor ++ ")"]
  | .address (.bound major minor) =>
    ["Bound(" ++ integerText major ++ "," ++ integerText minor ++ ")"]
  | .callKind kind => [kind.text]
  | _ => []

/-- The term is a lambda expression. -/
def isLambda : Term → Bool
  | .parsedLambda _ _ _ | .analyzedLambda _ _ => true
  | _ => false

/-- The term is an application. -/
def isApplication : Term → Bool
  | .parsedApply _ _ | .analyzedApply _ _ _ => true
  | _ => false

/-- The term is a variable with an address. -/
def isAnalyzedVar : Term → Bool
  | .analyzedVar _ _ => true
  | _ => false

/-- The parameters of a lambda expression. -/
def params : Term → List Text
  | .parsedLambda params _ _ | .analyzedLambda params _ => params
  | _ => []

/-- How many nodes showing a term takes, apart from what stands inside it: those that its form
    adds, and one for the term. -/
def weight (t : Term) : Nat :=
  t.params.length + t.isLambda.toNat + t.isApplication.toNat + t.isAnalyzedVar.toNat + 1

end Term

/-- What the nodes of a tree are: one for each visit, and those that some forms add. -/
theorem sum_weight_eq (vs : List Visit) : (vs.map fun v => v.term.weight).sum =
    vs.length + vs.countP (fun v => v.term.isLambda) + vs.countP (fun v => v.term.isApplication)
      + (vs.flatMap fun v => v.term.params).length + vs.countP (fun v => v.term.isAnalyzedVar) := by
  -- What is counted is either there once or not at all.
  have hone (b : Bool) : (if b = true then 1 else 0) = b.toNat := by cases b <;> rfl
  induction vs with
  | nil => rfl
  | cons v rest ih =>
      rw [List.map_cons, List.sum_cons, ih, Term.weight]
      simp only [List.length_cons, List.countP_cons, hone, List.flatMap_cons, List.length_append]
      omega

/-! ## Rows of trees and of visits -/

/-- Some trees show what is met in some visits: their leaves are the texts of the visits in the
    same order, and there are as many nodes as the visits take. -/
structure Listed (ts : List Tree) (vs : List Visit) : Prop where
  words : ts.flatMap Tree.leafNames = vs.flatMap fun v => v.term.words
  nodes : (ts.map Tree.size).sum = (vs.map fun v => v.term.weight).sum

namespace Listed

variable {α : Type} {ts us : List Tree} {vs ws : List Visit} {v : Visit} {t : Tree}

theorem nil : Listed [] [] := ⟨rfl, rfl⟩

/-- One row after another. -/
theorem append (h : Listed ts vs) (h' : Listed us ws) : Listed (ts ++ us) (vs ++ ws) := by
  constructor
  · rw [List.flatMap_append, List.flatMap_append, h.words, h'.words]
  · rw [List.map_append, List.map_append, List.sum_append, List.sum_append, h.nodes, h'.nodes]

theorem cons (h : Listed [t] vs) (h' : Listed us ws) : Listed (t :: us) (vs ++ ws) := h.append h'

/-- The trees of the values in a list. -/
theorem map {tree : α → Tree} {visits : α → List Visit} {as : List α}
    (h : ∀ a ∈ as, Listed [tree a] (visits a)) : Listed (as.map tree) (as.flatMap visits) := by
  induction as with
  | nil => exact nil
  | cons a rest ih =>
      rcases List.forall_mem_cons.1 h with ⟨hfirst, hothers⟩
      rw [List.map_cons, List.flatMap_cons]
      exact hfirst.cons (ih hothers)

/-- A branch over the texts of a term and over what stands inside it. -/
theorem under (name : Text) (own : List Tree)
    (hwords : own.flatMap Tree.leafNames = v.term.words)
    (hnodes : (own.map Tree.size).sum + 1 = v.term.weight) (h : Listed ts vs) :
    Listed [.branch name (own ++ ts)] (v :: vs) := by
  constructor
  · rw [List.flatMap_singleton, Tree.leafNames_branch, List.flatMap_append, hwords, h.words,
      List.flatMap_cons]
  · rw [List.map_singleton, List.sum_singleton, Tree.size_branch, List.map_append, List.sum_append,
      h.nodes, List.map_cons, List.sum_cons, ← hnodes]
    omega

/-- A branch over what stands inside a term that has no texts of its own. -/
theorem branch (name : Text) (hwords : v.term.words = []) (hnodes : v.term.weight = 1)
    (h : Listed ts vs) : Listed [.branch name ts] (v :: vs) :=
  h.under name [] hwords.symm hnodes.symm

/-- A branch that has some of what stands inside a term in a group. -/
theorem grouped (name group : Text) (before after : List Tree) (hwords : v.term.words = [])
    (hnodes : v.term.weight = 2) (h : Listed (before ++ ts ++ after) vs) :
    Listed [.branch name (before ++ .branch group ts :: after)] (v :: vs) := by
  -- Grouping some of the children changes neither their order nor their leaves.
  have hall := h.words
  have hsum := h.nodes
  simp only [List.flatMap_append, List.map_append, List.sum_append] at hall hsum
  constructor
  · rw [List.flatMap_singleton, Tree.leafNames_branch, List.flatMap_append, List.flatMap_cons,
      Tree.leafNames_branch, ← List.append_assoc, hall, List.flatMap_cons, hwords, List.nil_append]
  · rw [List.map_singleton, List.sum_singleton, Tree.size_branch, List.map_append, List.sum_append,
      List.map_cons, List.sum_cons, Tree.size_branch, List.map_cons, List.sum_cons, hnodes, ← hsum]
    omega

/-- A leaf that shows a term inside which nothing stands. -/
theorem leaf (hwords : t.leafNames = v.term.words) (hnodes : t.size = v.term.weight) :
    Listed [t] [v] := by
  constructor
  · rw [List.flatMap_singleton, hwords, List.flatMap_singleton]
  · rw [List.map_singleton, List.sum_singleton, hnodes, List.map_singleton, List.sum_singleton]

end Listed

/-! ## The trees of the stages -/

variable (need : Nat) (place : Place)

/-- Parameters are shown in quotes, in their order. -/
theorem leafNames_paramsTree (params : List Text) :
    (paramsTree params).leafNames = params.map fun param : Text => "\"" ++ param ++ "\"" := by
  rw [paramsTree, Tree.leafNames_branch, List.flatMap_map, List.map_eq_flatMap]
  rfl

/-- A group of parameters has a node for each, and one for itself. -/
theorem size_paramsTree (params : List Text) : (paramsTree params).size = params.length + 1 := by
  have hleaf : params.map (Tree.size ∘ paramLeaf) = params.map fun _ => 1 := rfl
  rw [paramsTree, Tree.size_branch, List.map_map, hleaf, List.map_const', List.sum_replicate_nat,
    Nat.mul_one]

/-- A lambda expression has its parameters under itself, before everything else. -/
theorem Listed.lambda {ts : List Tree} {vs : List Visit} {v : Visit} (name : Text)
    (params : List Text)
    (hwords : v.term.words = params.map fun param : Text => "\"" ++ param ++ "\"")
    (hnodes : v.term.weight = params.length + 2) (h : Listed ts vs) :
    Listed [.branch name (paramsTree params :: ts)] (v :: vs) := by
  refine h.under name [paramsTree params] ?_ ?_
  · rw [List.flatMap_singleton, leafNames_paramsTree, hwords]
  · rw [List.map_singleton, List.sum_singleton, size_paramsTree, hnodes]

theorem Parsed.listed_var (var : VarName) :
    Listed [varTree var] (Term.visits need place (.parsedVar var)) := by
  rw [Term.visits_eq]
  exact .leaf rfl rfl

theorem Parsed.LambdaKind.listed (kind : LambdaKind) :
    Listed [kind.tree] (Term.visits need place (.lambdaKind kind)) := by
  rw [Term.visits_eq]
  cases kind <;> exact .leaf rfl rfl

theorem Analyzed.Address.listed (home : Address) :
    Listed [home.tree] (Term.visits need place (.address home)) := by
  rw [Term.visits_eq]
  cases home <;> exact .leaf rfl rfl

/-- A variable has its name under itself, before its address. -/
theorem Analyzed.Var.listed (var : Var) : Listed [var.tree] (var.toTerm.visits need place) := by
  rw [toTerm, Term.visits_eq, Term.fields, List.flatMap_singleton]
  exact .under "var'" [.leaf var.name.text] rfl rfl (var.address.listed _ _)

theorem Analyzed.CallKind.listed (kind : CallKind) :
    Listed [kind.tree] (Term.visits need place (.callKind kind)) := by
  rw [Term.visits_eq]
  exact .leaf rfl rfl

/-- The tree of a reader value lists what is met in it. -/
theorem Sexpr.listed (s : Sexpr) : Listed [s.tree] (s.toTerm.visits need place) := by
  induction s generalizing need place with
  | atom a =>
      rw [Sexpr.toTerm, Term.visits_eq]
      exact .leaf rfl rfl
  | vector elements ih =>
      rw [Sexpr.toTerm, toTerms_eq, Term.visits_eq, Term.fields, Term.flatMap_items,
        List.flatMap_map, tree, trees_eq]
      -- The two equations of a form, on its texts and on its number of nodes, hold by computation.
      exact .branch "Vector" rfl rfl (.map fun element helement => ih element helement _ _)
  | pair car cdr ihcar ihcdr =>
      rw [Sexpr.toTerm, Term.visits_eq, Term.fields, List.flatMap_cons, List.flatMap_singleton,
        tree]
      exact .branch "Pair" rfl rfl ((ihcar _ _).cons (ihcdr _ _))

/-- The tree of an expression of the second stage lists what is met in it. -/
theorem Parsed.Expr.listed (e : Parsed.Expr) : Listed [e.tree] (e.toTerm.visits need place) := by
  induction e generalizing need place with
  | const value =>
      rw [toTerm, Term.visits_eq, Term.fields, List.flatMap_singleton]
      exact .branch "Const" rfl rfl (value.listed _ _)
  | get var =>
      rw [toTerm, Term.visits_eq, Term.fields, List.flatMap_singleton]
      exact .branch "VarGet" rfl rfl (Parsed.listed_var _ _ var)
  | cond test thenBranch elseBranch iht iha ihb =>
      rw [toTerm, Term.visits_eq, Term.fields, List.flatMap_cons, List.flatMap_cons,
        List.flatMap_singleton]
      exact .branch "If" rfl rfl ((iht _ _).cons ((iha _ _).cons (ihb _ _)))
  | seq exprs ih | disj exprs ih =>
      rw [toTerm, toTerms_eq, Term.visits_eq, Term.fields, Term.flatMap_items, List.flatMap_map,
        tree, trees_eq]
      exact .branch _ rfl rfl (.map fun e he => ih e he _ _)
  | set var value ih | define var value ih =>
      rw [toTerm, Term.visits_eq, Term.fields, List.flatMap_cons, List.flatMap_singleton]
      exact .branch _ rfl rfl ((Parsed.listed_var _ _ var).cons (ih _ _))
  | lambda params kind body ih =>
      rw [toTerm, Term.visits_eq, Term.fields, List.flatMap_cons, List.flatMap_singleton]
      exact .lambda "Lambda" params rfl rfl ((kind.listed _ _).cons (ih _ _))
  | apply operator args ihoperator ihargs =>
      rw [toTerm, toTerms_eq, Term.visits_eq, Term.fields, List.flatMap_cons, Term.flatMap_items,
        List.flatMap_map, tree, trees_eq]
      -- The operator stands in front of the group, and nothing behind it.
      refine .grouped "Applic" "Args" [_] [] rfl rfl ?_
      rw [List.append_nil]
      exact (ihoperator _ _).append (.map fun e he => ihargs e he _ _)

/-- The tree of an expression of the third stage lists what is met in it. -/
theorem Analyzed.Expr.listed (e : Analyzed.Expr) :
    Listed [e.tree] (e.toTerm.visits need place) := by
  induction e generalizing need place with
  | const value =>
      rw [toTerm, Term.visits_eq, Term.fields, List.flatMap_singleton]
      exact .branch "Const'" rfl rfl (value.listed _ _)
  | get var | box var | boxGet var =>
      rw [toTerm, Term.visits_eq, Term.fields, List.flatMap_singleton]
      exact .branch _ rfl rfl (var.listed _ _)
  | cond test thenBranch elseBranch iht iha ihb =>
      rw [toTerm, Term.visits_eq, Term.fields, List.flatMap_cons, List.flatMap_cons,
        List.flatMap_singleton]
      exact .branch "If'" rfl rfl ((iht _ _).cons ((iha _ _).cons (ihb _ _)))
  | seq exprs ih | disj exprs ih =>
      rw [toTerm, toTerms_eq, Term.visits_eq, Term.fields, Term.flatMap_items, List.flatMap_map,
        tree, trees_eq]
      exact .branch _ rfl rfl (.map fun e he => ih e he _ _)
  | set var value ih | define var value ih | boxSet var value ih =>
      rw [toTerm, Term.visits_eq, Term.fields, List.flatMap_cons, List.flatMap_singleton]
      exact .branch _ rfl rfl ((var.listed _ _).cons (ih _ _))
  | lambda params body ih =>
      rw [toTerm, Term.visits_eq, Term.fields, List.flatMap_singleton]
      exact .lambda "Lambda'" params rfl rfl (ih _ _)
  | apply operator args kind ihoperator ihargs =>
      rw [toTerm, toTerms_eq, Term.visits_eq, Term.fields, List.flatMap_cons, List.flatMap_append,
        Term.flatMap_items, List.flatMap_map, List.flatMap_singleton, tree, trees_eq]
      -- Behind the group of arguments stands the kind of the call.
      refine .grouped "Applic'" "Args" [_] [_] rfl rfl ?_
      rw [List.append_assoc]
      exact (ihoperator _ _).append
        ((Listed.map fun e he => ihargs e he _ _).append (kind.listed _ _))

/-! ## What is shown -/

/-- The tree of a node lists what is met in it, whatever the stage. -/
theorem Stage.listed (stage : Stage) (node : stage.Node) :
    Listed [stage.tree node] (stage.visits (stage.toTerm node)) := by
  cases stage with
  | reader => exact Sexpr.listed _ _ node
  | tagParser => exact Parsed.Expr.listed _ _ node
  | semanticAnalyzer => exact Analyzed.Expr.listed _ _ node

/-- The leaves of a node's tree are the texts that are met when the node is gone through depth
    first, in the same order. The tree has one node for each visit, a group of parameters for each
    lambda expression, a group of arguments for each application, and a leaf for each parameter and
    for the name of each analyzed variable. It is what is shown of the node, as long as there is
    room for it. -/
theorem Session.leaves_in_source_order (stage : Stage) (node : stage.Node) :
    let visits := stage.visits (stage.toTerm node)
    (stage.tree node).leafNames = visits.flatMap (fun v => v.term.words) ∧
    (stage.tree node).size =
      visits.length + visits.countP (fun v => v.term.isLambda)
        + visits.countP (fun v => v.term.isApplication)
        + (visits.flatMap fun v => v.term.params).length
        + visits.countP (fun v => v.term.isAnalyzedVar) ∧
    (showTerm stage (stage.toTerm node)).result.toOption =
      if stage.nesting node ≤ nestingLimit then some (stage.tree node) else none := by
  -- The words and the weights are those that the tree was found to list.
  have hlisted := stage.listed node
  refine ⟨?_, ?_, toOption_showTerm stage node⟩
  · rw [← hlisted.words, List.flatMap_singleton]
  · rw [← sum_weight_eq, ← hlisted.nodes, List.map_singleton, List.sum_singleton]

/-- The kind of an application comes after its arguments, and an argument list without any is no
    leaf. -/
example : (Analyzed.Expr.apply (.get ⟨⟨"f", by decide⟩, .bound 1 0⟩)
    [.apply (.const (.atom .nil)) [] .nonTail] .tail).tree.leafNames =
      ["f", "Bound(1,0)", "'()", "Non_Tail_Call", "Tail_Call"] := rfl

end StageTree
