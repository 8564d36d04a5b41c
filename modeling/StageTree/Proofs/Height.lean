import StageTree.Node
import StageTree.Proofs.Induction
import StageTree.Proofs.Wire.Refusals
import StageTree.Proofs.Wire.Sound

/-!
# How High Trees Are

How many levels the tree of a node has, compared with the room that the node takes and with the
depth of the document that it was read from.

A level of a tree is paid for by a level of the node, but at the ends of a node the tree may go
further down: a variable is a leaf of its own, and an analyzed variable a branch over two more.
So a tree may be two levels higher than its node takes room, and not more.

A document is deeper: each level of a node is an object within an object. Turning a tree into
data takes two units for each level, so the data of a tree takes hardly more room than the
document of its node is deep.

## Theorems

* `heightOfAll_map_le`: The trees of the values in a list.
* `data_branch_le`, `Wire.HasField.data_le`, `data_items_le`: What a level takes of a tree's data,
  and where a document pays for it.
* `Stage.height_tree_le`: How high the tree of a node is, by the room that the node takes.
* `Stage.data_tree_le`: What room the data of a tree takes, by the depth of the document.
-/

namespace StageTree

open StageTree.Tree Wire

variable {α : Type}

/-! ## By the room that nodes take -/

theorem le_deepest (need : α → Nat) {a : α} {as : List α} (h : a ∈ as) :
    need a ≤ deepest need as := by
  induction h with
  | head => exact Nat.le_max_left _ _
  | tail _ _ ih => exact Nat.le_trans ih (Nat.le_max_right _ _)

/-- A row of trees is no higher than all of them are. -/
theorem heightOfAll_le {ts : List Tree} {n : Nat} (h : ∀ t ∈ ts, t.height ≤ n) :
    heightOfAll ts ≤ n := by
  induction ts with
  | nil => exact Nat.zero_le n
  | cons t rest ih =>
      rcases List.forall_mem_cons.1 h with ⟨ht, hrest⟩
      exact Nat.max_le.2 ⟨ht, ih hrest⟩

/-- The trees of the values in a list, if the tree of each is not much higher than the value
    takes room. Entering the list takes room, and the trees need less of it. -/
theorem heightOfAll_map_le (more : Nat) {tree : α → Tree} {need : α → Nat} {as : List α}
    (h : ∀ a ∈ as, (tree a).height ≤ need a + more) :
    heightOfAll (as.map tree) + listStep ≤
      max listStep (deepest (fun a => need a + listStep) as + more) := by
  have hall : heightOfAll (as.map tree) ≤
      deepest (fun a => need a + listStep) as + more - listStep := by
    refine heightOfAll_le fun t ht => ?_
    rcases List.mem_map.1 ht with ⟨a, ha, rfl⟩
    have hheight := h a ha
    have hneed : need a + listStep ≤ deepest (fun a => need a + listStep) as :=
      le_deepest (fun a => need a + listStep) ha
    omega
  omega

theorem height_paramsTree_le (params : List Text) : (paramsTree params).height ≤ 2 := by
  have hparams : heightOfAll (params.map paramLeaf) ≤ 1 := by
    refine heightOfAll_le fun t ht => ?_
    rcases List.mem_map.1 ht with ⟨param, _, rfl⟩
    exact Nat.le_refl 1
  exact Nat.succ_le_succ hparams

/-- The tree of a reader value is no higher than the value takes room. -/
theorem Sexpr.height_tree_le (s : Sexpr) : s.tree.height ≤ s.nesting := by
  induction s with
  | atom a => exact Nat.le_refl 1
  | vector elements ih =>
      have helements := heightOfAll_map_le 0 ih
      rw [tree, trees_eq, branch, height, nesting, nestingOfElements_eq]
      rw [listStep] at *
      omega
  | pair car cdr ihcar ihcdr =>
      simp only [tree, branch, height, heightOfAll, nesting]
      omega

/-- The tree of a parsed expression may be one level higher, for a variable stands at its end. -/
theorem Parsed.Expr.height_tree_le (e : Parsed.Expr) : e.tree.height ≤ e.nesting + 1 := by
  induction e with
  | const value =>
      have hvalue := value.height_tree_le
      simp only [tree, branch, height, heightOfAll, nesting]
      omega
  | get var => exact Nat.le_refl 2
  | cond test thenBranch elseBranch ihtest ihthen ihelse =>
      simp only [tree, branch, height, heightOfAll, nesting]
      omega
  | seq exprs ih | disj exprs ih =>
      have hexprs := heightOfAll_map_le 1 ih
      rw [tree, trees_eq, branch, height, nesting, parsed_nestingOfAll_eq]
      rw [listStep] at *
      omega
  | set var value ih | define var value ih =>
      simp only [tree, varTree, branch, leaf, height, heightOfAll, nesting]
      omega
  | lambda params kind body ih =>
      have hparams := height_paramsTree_le params
      have hkind : kind.tree.height = 1 := by cases kind <;> rfl
      -- The parameters are two levels high, and the body takes room enough for both.
      have hbody := parsed_nesting_pos body
      simp only [tree, branch, height, heightOfAll, nesting]
      omega
  | apply operator args ihoperator ihargs =>
      -- Arguments are a level further down in the tree, and three units further in room.
      have hargs := heightOfAll_map_le 1 ihargs
      simp only [tree, trees_eq, branch, height, heightOfAll, nesting, parsed_nestingOfAll_eq]
      rw [listStep] at *
      omega

theorem Analyzed.Var.height_tree (var : Analyzed.Var) : var.tree.height = 2 := by
  rcases var with ⟨name, address⟩
  cases address <;> rfl

/-- The tree of an analyzed expression may be two levels higher, for a variable at its end has two
    below it. -/
theorem Analyzed.Expr.height_tree_le (e : Analyzed.Expr) : e.tree.height ≤ e.nesting + 2 := by
  induction e with
  | const value =>
      have hvalue := value.height_tree_le
      simp only [tree, branch, height, heightOfAll, nesting]
      omega
  | get var | box var | boxGet var =>
      have hvar := var.height_tree
      simp only [tree, branch, height, heightOfAll, nesting]
      omega
  | cond test thenBranch elseBranch ihtest ihthen ihelse =>
      simp only [tree, branch, height, heightOfAll, nesting]
      omega
  | seq exprs ih | disj exprs ih =>
      have hexprs := heightOfAll_map_le 2 ih
      rw [tree, trees_eq, branch, height, nesting, analyzed_nestingOfAll_eq]
      rw [listStep] at *
      omega
  | set var value ih | define var value ih | boxSet var value ih =>
      have hvar := var.height_tree
      simp only [tree, branch, height, heightOfAll, nesting]
      omega
  | lambda params body ih =>
      have hparams := height_paramsTree_le params
      have hbody := analyzed_nesting_pos body
      simp only [tree, branch, height, heightOfAll, nesting]
      omega
  | apply operator args kind ihoperator ihargs =>
      have hargs := heightOfAll_map_le 2 ihargs
      simp only [tree, trees_eq, CallKind.tree, branch, leaf, height, heightOfAll, nesting,
        analyzed_nestingOfAll_eq]
      rw [listStep] at *
      omega

/-- The tree of a node is at most two levels higher than the node takes room. -/
theorem Stage.height_tree_le (stage : Stage) (node : stage.Node) :
    (stage.tree node).height ≤ stage.nesting node + 2 := by
  cases stage with
  | reader => exact Nat.le_add_right_of_le (Sexpr.height_tree_le node)
  | tagParser => exact Nat.le_succ_of_le (Parsed.Expr.height_tree_le node)
  | semanticAnalyzer => exact Analyzed.Expr.height_tree_le node

/-! ## By the depth of documents -/

/-- What holds of the data of each tree holds of that of the row. -/
theorem data_all_le {ts : List Tree} {n : Nat} (h : ∀ t ∈ ts, dataStep * t.height ≤ n) :
    dataStep * heightOfAll ts ≤ n := by
  -- The bound is divided by the step, since heights are compared one by one.
  have hall : heightOfAll ts ≤ n / dataStep := by
    refine heightOfAll_le fun t ht => ?_
    rw [Nat.le_div_iff_mul_le (by decide), Nat.mul_comm]
    exact h t ht
  rw [Nat.le_div_iff_mul_le (by decide), Nat.mul_comm] at hall
  exact hall

/-- Every value of a list comes from one of its items. -/
theorem exists_item_of_mem {ι : Type} {R : ι → α → Prop} {items : List ι} {as : List α}
    (h : List.Forall₂ R items as) {a : α} (ha : a ∈ as) : ∃ item ∈ items, R item a := by
  induction h with
  | nil => cases ha
  | cons hfirst _ ih =>
      rcases List.mem_cons.1 ha with rfl | ha
      · exact ⟨_, List.mem_cons_self, hfirst⟩
      · rcases ih ha with ⟨item, hitem, hR⟩
        exact ⟨item, List.mem_cons_of_mem _ hitem, hR⟩

/-- A level of a tree takes as much room as two levels of a document. -/
theorem data_branch_le {name : Text} {children : List Tree} {n : Nat}
    (h : ∀ t ∈ children, dataStep * t.height ≤ n + 1) :
    dataStep * (branch name children).height ≤ n + 3 := by
  have hchildren := data_all_le h
  rw [branch, height]
  rw [dataStep] at *
  omega

/-- A leaf takes no more data than any document allows for. -/
theorem data_leaf_le (name : Text) (n : Nat) : dataStep * (leaf name).height ≤ n + 3 :=
  Nat.le_trans (show dataStep * 1 ≤ 3 by decide) (Nat.le_add_left 3 n)

/-- What takes two levels of a tree takes a document, whatever the document is. -/
theorem data_le_of_height {t : Tree} {n : Nat} (h : t.height ≤ 2) (hn : 1 ≤ n) :
    dataStep * t.height ≤ n + 3 := by
  rw [dataStep]
  omega

/-- A field stands two levels further down in a document. -/
theorem Wire.HasField.data_le {j e : Json} {key : Text} {t : Tree} (hfield : HasField j key e)
    (h : dataStep * t.height ≤ e.nesting + 3) : dataStep * t.height ≤ j.nesting + 1 := by
  have hnesting := hfield.nesting_le
  omega

-- A value of a list has the form of one of its items, which stands two levels further down.
theorem data_items_le {Form : Json → α → Prop} {tree : α → Tree} {l : Json} {items : List Json}
    {as : List α} (hlist : IsList l items) (has : List.Forall₂ Form items as)
    (h : ∀ a ∈ as, ∀ j, Form j a → dataStep * (tree a).height ≤ j.nesting + 3) :
    ∀ t ∈ as.map tree, dataStep * t.height ≤ l.nesting + 1 := by
  intro t ht
  rcases List.mem_map.1 ht with ⟨a, ha, rfl⟩
  rcases exists_item_of_mem has ha with ⟨item, hitem, hform⟩
  have hdata := h a ha item hform
  have hnesting := hlist.nesting_le hitem
  omega

/-- The values of a list that is a field may be the children themselves. -/
theorem data_listField_le {Form : Json → α → Prop} {tree : α → Tree} {j l : Json}
    {key name : Text} {items : List Json} {as : List α} (hl : HasField j key l)
    (hlist : IsList l items) (has : List.Forall₂ Form items as)
    (h : ∀ a ∈ as, ∀ j, Form j a → dataStep * (tree a).height ≤ j.nesting + 3) :
    dataStep * (branch name (as.map tree)).height ≤ j.nesting + 3 := by
  refine data_branch_le fun t ht => ?_
  have hdata := data_items_le hlist has h t ht
  have hnesting := hl.nesting_le
  omega

/-- A document with a tag is an object. -/
theorem Wire.Tagged.nesting_pos {j : Json} {tag : Text} (h : Tagged j tag) : 1 ≤ j.nesting :=
  Nat.lt_of_le_of_lt (Nat.zero_le _) (nesting_lt_of_step (partAt?_step.1 h))

/-- The tree of an analyzed variable, by the document of the variable. -/
theorem Wire.AnalyzedVarForm.data_le {j : Json} {var : Analyzed.Var}
    (h : AnalyzedVarForm j var) : dataStep * var.tree.height ≤ j.nesting + 3 := by
  rcases h with ⟨htag, _, _, _⟩
  exact data_le_of_height (Nat.le_of_eq (Analyzed.Var.height_tree _)) htag.nesting_pos

/-- The tree of parameters, by the document of the names. -/
theorem Wire.NamesForm.data_le {j : Json} {params : List Text} (h : NamesForm j params) :
    dataStep * (paramsTree params).height ≤ j.nesting + 3 := by
  refine data_le_of_height (height_paramsTree_le params) ?_
  rcases h with rfl | hlist
  · exact Nat.succ_pos _
  · exact Tagged.nesting_pos hlist.1

theorem data_kind_le (kind : Parsed.LambdaKind) (n : Nat) :
    dataStep * kind.tree.height ≤ n + 3 := by
  cases kind with
  | simple => exact data_leaf_le _ n
  | optional rest => exact data_leaf_le _ n

/-- The data of a reader value's tree, by a document that denotes the value. -/
theorem Sexpr.data_tree_le (s : Sexpr) :
    ∀ j, Denotes j s → dataStep * s.tree.height ≤ j.nesting + 3 := by
  -- The document of a value is taken apart along with the value.
  induction s with
  | atom a =>
      intro j _
      exact Nat.le_trans (show dataStep * 1 ≤ 3 by decide) (Nat.le_add_left 3 _)
  | vector elements ih =>
      intro j h
      cases h with
      | vector hlist helements =>
          rw [tree, trees_eq]
          exact data_branch_le (data_items_le hlist helements ih)
  | pair car cdr ihcar ihcdr =>
      intro j h
      cases h with
      | pair htag ha hd hcar hcdr =>
          rw [tree]
          exact data_branch_le (List.forall_mem_cons.2 ⟨ha.data_le (ihcar _ hcar),
            List.forall_mem_singleton.2 (hd.data_le (ihcdr _ hcdr))⟩)

/-- The data of a parsed expression's tree, by a document of the expression. -/
theorem Parsed.Expr.data_tree_le (e : Parsed.Expr) :
    ∀ j, ParsedForm j e → dataStep * e.tree.height ≤ j.nesting + 3 := by
  induction e with
  | const value =>
      intro j h
      cases h with
      | const _ hs hvalue =>
          rw [tree]
          exact data_branch_le (List.forall_mem_singleton.2
            (hs.data_le (value.data_tree_le _ hvalue)))
  | get var =>
      intro j h
      cases h with
      | get _ hv _ =>
          rw [tree]
          exact data_branch_le (List.forall_mem_singleton.2 (hv.data_le (data_leaf_le _ _)))
  | cond test thenBranch elseBranch ihtest ihthen ihelse =>
      intro j h
      cases h with
      | cond _ ht ha hb htest hthen helse =>
          rw [tree]
          exact data_branch_le (List.forall_mem_cons.2 ⟨ht.data_le (ihtest _ htest),
            List.forall_mem_cons.2 ⟨ha.data_le (ihthen _ hthen),
              List.forall_mem_singleton.2 (hb.data_le (ihelse _ helse))⟩⟩)
  | seq exprs ih | disj exprs ih =>
      intro j h
      cases h
      rename_i hlist _ hl hexprs
      rw [tree, trees_eq]
      exact data_listField_le hl hlist hexprs ih
  | set var value ih | define var value ih =>
      intro j h
      cases h
      rename_i hv he _ hvalue
      rw [tree]
      exact data_branch_le (List.forall_mem_cons.2 ⟨hv.data_le (data_leaf_le _ _),
        List.forall_mem_singleton.2 (he.data_le (ih _ hvalue))⟩)
  | lambda params kind body ih =>
      intro j h
      cases h with
      | lambda _ hp hk hb hparams _ hbody =>
          rw [tree]
          exact data_branch_le (List.forall_mem_cons.2 ⟨hp.data_le hparams.data_le,
            List.forall_mem_cons.2 ⟨hk.data_le (data_kind_le kind _),
              List.forall_mem_singleton.2 (hb.data_le (ih _ hbody))⟩⟩)
  | apply operator args ihoperator ihargs =>
      intro j h
      cases h with
      | apply _ ho hl hoperator hlist hargs =>
          rw [tree, trees_eq]
          exact data_branch_le (List.forall_mem_cons.2 ⟨ho.data_le (ihoperator _ hoperator),
            List.forall_mem_singleton.2
              (hl.data_le (data_branch_le (data_items_le hlist hargs ihargs)))⟩)

/-- The data of an analyzed expression's tree, by a document of the expression. -/
theorem Analyzed.Expr.data_tree_le (e : Analyzed.Expr) :
    ∀ j, AnalyzedForm j e → dataStep * e.tree.height ≤ j.nesting + 3 := by
  induction e with
  | const value =>
      intro j h
      cases h with
      | const _ hs hvalue =>
          rw [tree]
          exact data_branch_le (List.forall_mem_singleton.2
            (hs.data_le (value.data_tree_le _ hvalue)))
  | get var | box var | boxGet var =>
      intro j h
      cases h
      rename_i hv hvar
      rw [tree]
      exact data_branch_le (List.forall_mem_singleton.2 (hv.data_le hvar.data_le))
  | cond test thenBranch elseBranch ihtest ihthen ihelse =>
      intro j h
      cases h with
      | cond _ ht ha hb htest hthen helse =>
          rw [tree]
          exact data_branch_le (List.forall_mem_cons.2 ⟨ht.data_le (ihtest _ htest),
            List.forall_mem_cons.2 ⟨ha.data_le (ihthen _ hthen),
              List.forall_mem_singleton.2 (hb.data_le (ihelse _ helse))⟩⟩)
  | seq exprs ih | disj exprs ih =>
      intro j h
      cases h
      rename_i hlist _ hl hexprs
      rw [tree, trees_eq]
      exact data_listField_le hl hlist hexprs ih
  | set var value ih | define var value ih | boxSet var value ih =>
      intro j h
      cases h
      rename_i hv he hvar hvalue
      rw [tree]
      exact data_branch_le (List.forall_mem_cons.2 ⟨hv.data_le hvar.data_le,
        List.forall_mem_singleton.2 (he.data_le (ih _ hvalue))⟩)
  | lambda params body ih =>
      intro j h
      cases h with
      | lambda _ hp hb hparams hbody =>
          rw [tree]
          exact data_branch_le (List.forall_mem_cons.2 ⟨hp.data_le hparams.data_le,
            List.forall_mem_singleton.2 (hb.data_le (ih _ hbody))⟩)
  | apply operator args kind ihoperator ihargs =>
      intro j h
      cases h with
      | apply _ ho hl hk hoperator hlist hargs _ =>
          rw [tree, trees_eq]
          exact data_branch_le (List.forall_mem_cons.2 ⟨ho.data_le (ihoperator _ hoperator),
            List.forall_mem_cons.2
              ⟨hl.data_le (data_branch_le (data_items_le hlist hargs ihargs)),
                List.forall_mem_singleton.2 (hk.data_le (data_leaf_le _ _))⟩⟩)

/-- The data of a tree takes at most three units more than the document of its node is deep. -/
theorem Stage.data_tree_le {stage : Stage} {room : Nat} {j : Json} {node : stage.Node}
    (h : stageNode stage room j = .ok node) :
    dataStep * (stage.tree node).height ≤ j.nesting + 3 := by
  cases stage with
  | reader => exact Sexpr.data_tree_le node j (sexpr_sound room j node h)
  | tagParser => exact Parsed.Expr.data_tree_le node j (parsed_sound room j node h)
  | semanticAnalyzer => exact Analyzed.Expr.data_tree_le node j (analyzed_sound room j node h)

end StageTree
