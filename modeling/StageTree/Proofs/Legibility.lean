import StageTree.Command.Run
import StageTree.Proofs.Tree.Legible

/-!
# The Trees of Nodes Are Legible

Every label that stands where a branch could stand is plain. Atoms begin with a mark of their
own or with a numeral character, parameters with a quotation mark, and the other leaves with a
word that names no branch. So the tree of every node is legible, and its indented text
determines it: the text never has to be escaped to be unambiguous.

The command prints a notice where there is no tree. No tree's text is that notice, because no
root opens with a parenthesis.

## Main definitions

* `reservedLeads`: The characters with which a plain label does not begin.

## Theorems

* `isPlain_of_lead`: A label that begins with no reserved character is plain.
* `Atom.isPlain_label`: The labels of atoms are plain.
* `Sexpr.legible_tree`, `Parsed.Expr.legible_tree`, `Analyzed.Expr.legible_tree`: The trees of
  the stages are legible.
* `Stage.legible_tree`: The same for all stages.
* `Stage.text_determines_tree`: The text of a node's tree determines the tree, and is not the
  notice that there is none.
-/

namespace StageTree

open StageTree.Tree (Opens IsPlain Legible firstWord headings variableHeading OneLined)

/-- The characters with which a plain label does not begin: a blank, a parenthesis and the
    first letters of branches. -/
def reservedLeads : List Char := [' ', '(', 'V', 'P', 'C', 'I', 'S', 'O', 'L', 'A', 'B', 'v']

/-- The names of branches begin with reserved characters. -/
theorem mem_reservedLeads {heading : Text} (h : heading ∈ variableHeading :: headings)
    {c : CodePoint} (hc : heading.points.head? = some c) : c ∈ reservedLeads.map .char := by
  have hlead : ∀ name ∈ variableHeading :: headings,
      name.points.head?.any ((reservedLeads.map .char).contains ·) = true := by decide
  have hheading := hlead heading h
  rw [hc, Option.any_some, List.contains_iff_mem] at hheading
  exact hheading

/-- A label that begins with no reserved character is plain. -/
theorem isPlain_of_lead {label : Text} {c : CodePoint} (hc : label.points.head? = some c)
    (hres : c ∉ reservedLeads.map .char) : IsPlain label := by
  rcases List.head?_eq_some_iff.1 hc with ⟨rest, hrest⟩
  have hblank : c ≠ .char ' ' := fun heq => hres (heq ▸ List.mem_cons_self)
  have hparen : c ≠ .char '(' := fun heq => hres (heq ▸ List.mem_cons_of_mem _ List.mem_cons_self)
  refine ⟨⟨c, rest, hrest, hblank, hparen⟩, fun heading hheading hword => hres ?_⟩
  -- The first word begins with the label's first letter, and the heading with a reserved one.
  rw [firstWord, hrest, List.takeWhile_cons_of_pos (by rw [bne_iff_ne]; exact hblank)] at hword
  refine mem_reservedLeads hheading ?_
  rw [← hword, List.head?_cons]

/-- A label that begins like a number is plain. -/
theorem isPlain_of_numeral {label : String}
    (h : ∃ c rest, label.toList = c :: rest ∧ isNumeralChar c = true) : IsPlain label := by
  rcases h with ⟨c, rest, hlabel, hc⟩
  refine isPlain_of_lead (c := .char c) ?_ (fun hres => ?_)
  · rw [Text.points_plain, hlabel, List.map_cons, List.head?_cons]
  · rcases List.mem_map.1 hres with ⟨lead, hlead, heq⟩
    -- No number begins with a reserved character.
    have hnone : reservedLeads.all (fun c => !isNumeralChar c) = true := by decide
    have hreserved := List.all_eq_true.1 hnone lead hlead
    rw [CodePoint.char.inj heq, hc] at hreserved
    exact Bool.false_ne_true hreserved

/-- A label that begins with a mark of its own is plain, whatever follows the mark. -/
theorem isPlain_append {mark : Text} {c : CodePoint} (hc : mark.points.head? = some c)
    (hres : c ∉ reservedLeads.map .char) (more : Text) : IsPlain (mark ++ more) := by
  refine isPlain_of_lead ?_ hres
  rcases List.head?_eq_some_iff.1 hc with ⟨rest, hrest⟩
  rw [Text.points_append, hrest, List.cons_append, List.head?_cons]

/-- A label is plain if its first word opens well and names no branch. -/
theorem isPlain_of_word {label : Text} (word : Text) (hword : firstWord label = word.points)
    {c : CodePoint} (hc : word.points.head? = some c) (hparen : c ≠ .char '(')
    (h : word ∉ variableHeading :: headings) : IsPlain label := by
  rcases List.head?_eq_some_iff.1 hc with ⟨rest, hrest⟩
  rw [hrest] at hword
  refine ⟨?_, fun heading hheading heq => h ?_⟩
  · have hmem : c ∈ firstWord label := by
      rw [hword]
      exact List.mem_cons_self
    -- What belongs to the first word is no blank.
    have hblank : (c != .char ' ') = true := List.all_eq_true.1 List.all_takeWhile c hmem
    rcases List.takeWhile_prefix (l := label.points) (· != .char ' ') with ⟨others, hothers⟩
    refine ⟨c, rest ++ others, ?_, bne_iff_ne.1 hblank, hparen⟩
    rw [← hothers, ← List.cons_append, ← hword]
    rfl
  · rw [hword, ← hrest] at heq
    rw [Text.points_injective heq]
    exact hheading

/-- A branch over the trees of a list is legible if these are. -/
theorem legible_branch_map {α : Type} {parts : List α} {tree : α → Tree}
    (h : ∀ part ∈ parts, Legible (tree part)) {heading : Text}
    (hheading : heading ∈ headings) : Legible (.branch heading (parts.map tree)) := by
  refine Legible.branch hheading (fun t ht => ?_)
  rcases List.mem_map.1 ht with ⟨part, hpart, rfl⟩
  exact h part hpart

/-! ## Reader values -/

/-- The label of a rational number begins like a number. -/
theorem rationalLabel_lead (numerator denominator : Int) :
    ∃ c rest, (rationalLabel numerator denominator).toList = c :: rest ∧
      isNumeralChar c = true := by
  rw [rationalLabel]
  split
  · exact ⟨'0', [], by rfl, by decide⟩
  · split
    · exact integerText_lead numerator
    · split
      · exact integerText_lead (-numerator)
      · rcases integerText_lead numerator with ⟨c, rest, hlead, hc⟩
        refine ⟨c, rest ++ "/".toList ++ (integerText denominator).toList, ?_, hc⟩
        rw [String.toList_append, String.toList_append, hlead, List.cons_append,
          List.cons_append]

theorem Binary64.label_lead (x : Binary64) :
    ∃ c rest, x.label.toList = c :: rest ∧ isNumeralChar c = true := by
  rw [label]
  split
  · exact integerText_lead _
  · exact x.text_lead

/-- The labels of atoms are plain: each begins with a mark of its own or like a number. -/
theorem Atom.isPlain_label (a : Atom) : IsPlain a.label := by
  cases a with
  | void => exact isPlain_of_lead rfl (by decide)
  | nil => exact isPlain_of_lead rfl (by decide)
  | boolean value => cases value <;> exact isPlain_of_lead rfl (by decide)
  | char text => exact isPlain_append rfl (by decide) _
  | string text =>
      rw [label, Text.append_assoc]
      exact isPlain_append rfl (by decide) _
  | symbol text => exact isPlain_append rfl (by decide) _
  | rational numerator denominator =>
      exact isPlain_of_numeral (rationalLabel_lead numerator denominator)
  | float value => exact isPlain_of_numeral value.label_lead

/-- Trees of reader values are legible. -/
theorem Sexpr.legible_tree (s : Sexpr) : Legible s.tree := by
  induction s with
  | atom a => exact Legible.leaf a.isPlain_label
  | vector elements ih =>
      rw [tree, trees_eq]
      exact legible_branch_map ih (by decide)
  | pair car cdr ihcar ihcdr =>
      rw [tree]
      refine Legible.branch (by decide) ?_
      exact List.forall_mem_cons.2 ⟨ihcar, List.forall_mem_singleton.2 ihcdr⟩

/-! ## Expressions -/

/-- A group of parameters is legible, as its leaves begin with a quote. -/
theorem legible_paramsTree (params : List Text) : Legible (paramsTree params) := by
  refine legible_branch_map (fun name _ => Legible.leaf ?_) (by decide)
  rw [Text.append_assoc]
  exact isPlain_append rfl (by decide) _

theorem Parsed.legible_varTree (var : VarName) : Legible (varTree var) := by
  refine Legible.leaf (isPlain_of_word "var" ?_ rfl (by decide) (by decide))
  rw [firstWord, Text.points_append]
  rfl

theorem Parsed.LambdaKind.legible_tree (kind : LambdaKind) : Legible kind.tree := by
  cases kind with
  | simple =>
      exact Legible.leaf (isPlain_of_word "Simple" rfl rfl (by decide) (by decide))
  | optional rest =>
      refine Legible.leaf (isPlain_of_word "opt" ?_ rfl (by decide) (by decide))
      rw [firstWord, Text.points_append]
      rfl

/-- Trees of parsed expressions are legible. -/
theorem Parsed.Expr.legible_tree (e : Parsed.Expr) : Legible e.tree := by
  -- A tree is legible if its name is and its children are, so each case lists the children.
  induction e with
  | const value =>
      exact Legible.branch (by decide) (List.forall_mem_singleton.2 value.legible_tree)
  | get var => exact Legible.branch (by decide) (List.forall_mem_singleton.2 (legible_varTree var))
  | cond test thenBranch elseBranch iht iha ihb =>
      rw [tree]
      refine Legible.branch (by decide) (List.forall_mem_cons.2 ⟨iht, ?_⟩)
      exact List.forall_mem_cons.2 ⟨iha, List.forall_mem_singleton.2 ihb⟩
  | seq exprs ih | disj exprs ih =>
      rw [tree, trees_eq]
      exact legible_branch_map ih (by decide)
  | set var value ih | define var value ih =>
      rw [tree]
      refine Legible.branch (by decide) (List.forall_mem_cons.2 ⟨legible_varTree var, ?_⟩)
      exact List.forall_mem_singleton.2 ih
  | lambda params kind body ih =>
      rw [tree]
      refine Legible.branch (by decide) (List.forall_mem_cons.2 ⟨legible_paramsTree params, ?_⟩)
      exact List.forall_mem_cons.2 ⟨kind.legible_tree, List.forall_mem_singleton.2 ih⟩
  | apply operator args ihop ihargs =>
      rw [tree, trees_eq]
      refine Legible.branch (by decide) (List.forall_mem_cons.2 ⟨ihop, ?_⟩)
      exact List.forall_mem_singleton.2 (legible_branch_map ihargs (by decide))

theorem Analyzed.CallKind.legible_tree (kind : CallKind) : Legible kind.tree := by
  cases kind with
  | tail =>
      exact Legible.leaf (isPlain_of_word "Tail_Call" rfl rfl (by decide) (by decide))
  | nonTail =>
      exact Legible.leaf (isPlain_of_word "Non_Tail_Call" rfl rfl (by decide) (by decide))

/-- Trees of analyzed expressions are legible. -/
theorem Analyzed.Expr.legible_tree (e : Analyzed.Expr) : Legible e.tree := by
  induction e with
  | const value =>
      exact Legible.branch (by decide) (List.forall_mem_singleton.2 value.legible_tree)
  | get var | box var | boxGet var =>
      exact Legible.branch (by decide) (List.forall_mem_singleton.2 (Legible.ofVar var))
  | cond test thenBranch elseBranch iht iha ihb =>
      rw [tree]
      refine Legible.branch (by decide) (List.forall_mem_cons.2 ⟨iht, ?_⟩)
      exact List.forall_mem_cons.2 ⟨iha, List.forall_mem_singleton.2 ihb⟩
  | seq exprs ih | disj exprs ih =>
      rw [tree, trees_eq]
      exact legible_branch_map ih (by decide)
  | set var value ih | define var value ih | boxSet var value ih =>
      rw [tree]
      refine Legible.branch (by decide) (List.forall_mem_cons.2 ⟨Legible.ofVar var, ?_⟩)
      exact List.forall_mem_singleton.2 ih
  | lambda params body ih =>
      rw [tree]
      refine Legible.branch (by decide) (List.forall_mem_cons.2 ⟨legible_paramsTree params, ?_⟩)
      exact List.forall_mem_singleton.2 ih
  | apply operator args kind ihop ihargs =>
      rw [tree, trees_eq]
      refine Legible.branch (by decide) (List.forall_mem_cons.2 ⟨ihop, ?_⟩)
      refine List.forall_mem_cons.2 ⟨legible_branch_map ihargs (by decide), ?_⟩
      exact List.forall_mem_singleton.2 kind.legible_tree

/-! ## Nodes -/

/-- The trees of all stages are legible. -/
theorem Stage.legible_tree (stage : Stage) (node : stage.Node) : Legible (stage.tree node) := by
  cases stage with
  | reader => exact Sexpr.legible_tree node
  | tagParser => exact Parsed.Expr.legible_tree node
  | semanticAnalyzer => exact Analyzed.Expr.legible_tree node

/-- The text of a tree begins with the label of its root. -/
theorem Tree.opens_text {t : Tree} (h : Opens t.line) (step : Int) :
    Opens (t.text rootLevel step) := by
  rcases h with ⟨c, rest, hline, hne⟩
  have hfirst : ∀ more : List Text, ∃ others,
      (Text.intercalate "\n" (t.line :: more)).points = t.line.points ++ others := by
    intro more
    rcases more with _ | ⟨next, others⟩
    · exact ⟨[], by rw [Text.intercalate_singleton, List.append_nil]⟩
    · exact ⟨_, by rw [Text.intercalate_cons_cons, Text.append_assoc, Text.points_append]⟩
  -- The root is not indented, so the text begins with its line.
  have hroot : indentation rootLevel step ++ t.line = t.line := by
    rw [indentation, rootLevel, Int.zero_mul]
    exact Text.empty_append t.line
  rw [text_eq_lines, lines_eq, hroot]
  rcases hfirst ((t.children.getD []).flatMap (lines (rootLevel + 1) step)) with ⟨others, hothers⟩
  refine ⟨c, rest ++ others, ?_, hne⟩
  rw [hothers, hline, List.cons_append]

/-- A tree is not shown as the notice that there is none. -/
theorem Command.render_ne_notice {t : Tree} (h : Opens t.line) :
    render .text (some t) ≠ .ok "(no forms)\n" := by
  intro hrender
  rw [render, Tree.text?] at hrender
  split at hrender
  · have hline : onLine (t.text Tree.rootLevel Tree.usualStep) = "(no forms)\n" :=
      Except.ok.inj hrender
    -- The notice begins with a parenthesis, and no line of a root does.
    rcases Tree.opens_text h Tree.usualStep with ⟨c, rest, htext, _, hparen⟩
    have hhead := congrArg (fun text => text.points.head?) hline
    simp only [onLine, Text.points_append, htext, List.cons_append, List.head?_cons] at hhead
    exact hparen (Option.some.inj hhead)
  · cases hrender

/-- The text of a node's tree determines the tree: which nodes are leaves and which are
    branches without children, how deep each stands and how many children it has. It is never
    the notice that is printed when there is no tree. -/
theorem Stage.text_determines_tree (stage : Stage) :
    (∀ a b : stage.Node, OneLined (stage.tree a) → OneLined (stage.tree b) →
      ∀ step : Int, 1 ≤ step →
        (stage.tree a).text Tree.rootLevel step = (stage.tree b).text Tree.rootLevel step →
        stage.tree a = stage.tree b) ∧
    ∀ shown : Option stage.Node,
      Command.render .text (shown.map stage.tree) = .ok "(no forms)\n" ↔ shown = none := by
  constructor
  · intro a b ha hb step hstep h
    exact (stage.legible_tree a).eq_of_text_eq hstep (stage.legible_tree b) ha hb h
  · intro shown
    cases shown with
    | none =>
        refine iff_of_true ?_ rfl
        rfl
    | some node =>
        -- The notice begins with a parenthesis, and no tree does.
        refine iff_of_false ?_ (by simp only [reduceCtorEq, not_false_eq_true])
        exact Command.render_ne_notice (stage.legible_tree node).opens

end StageTree
