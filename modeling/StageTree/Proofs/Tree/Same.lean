import Mathlib.Data.List.Forall2
import StageTree.Proofs.Induction
import StageTree.Proofs.Number.Digits

/-!
# Equality of Trees

When two display trees are equal. Equality overlooks the order of attributes, but the trees of
stages have attributes only at addresses, where they stand in a fixed order. Everywhere else it
is equality of labels and, child by child, of the children.

The parts that the nodes of stages are made of are compared here once, and what is proved of
nodes is put together from these.

## Theorems

* `Tree.same_leaf`, `Tree.same_branch`: Leaves and branches.
* `Tree.forall₂_same_map`: Rows of trees of parts.
* `same_paramsTree`: Parameter lists.
* `Analyzed.Address.same_tree`, `Analyzed.Var.same_tree`, `Analyzed.CallKind.same_tree`: The
  parts of analyzed expressions.
* `Parsed.same_varTree`, `Parsed.LambdaKind.same_tree`: The parts of parsed expressions.
-/

namespace StageTree

/-- Rows are related in the same way if their elements are. -/
theorem forall₂_congr_of_mem {α β : Type} {R S : α → β → Prop} {as : List α} {bs : List β}
    (h : ∀ a ∈ as, ∀ b, R a b ↔ S a b) : List.Forall₂ R as bs ↔ List.Forall₂ S as bs := by
  induction as generalizing bs with
  | nil => rw [List.forall₂_nil_left_iff, List.forall₂_nil_left_iff]
  | cons a as ih =>
      rcases List.forall_mem_cons.1 h with ⟨ha, has⟩
      simp only [List.forall₂_cons_left_iff, ha, ih has]

theorem exists_forall₂ {α β : Type} {R : α → β → Prop} {as : List α} (h : ∀ a ∈ as, ∃ b, R a b) :
    ∃ bs, List.Forall₂ R as bs := by
  induction as with
  | nil => exact ⟨[], .nil⟩
  | cons a as ih =>
      rcases List.forall_mem_cons.1 h with ⟨⟨b, hb⟩, has⟩
      rcases ih has with ⟨bs, hbs⟩
      exact ⟨b :: bs, .cons hb hbs⟩

namespace Tree

variable {a b : Text} {t u : Tree} {ts us : List Tree}

/-! ## Leaves and branches -/

/-- Rows are the same if they are so tree by tree. -/
theorem sameAll_iff : sameAll ts us = true ↔ List.Forall₂ (fun t u => t.same u = true) ts us := by
  induction ts generalizing us with
  | nil =>
      cases us with
      | nil => exact iff_of_true rfl .nil
      | cons u us => exact iff_of_false nofun nofun
  | cons t ts ih =>
      cases us with
      | nil => exact iff_of_false nofun nofun
      | cons u us => rw [sameAll, Bool.and_eq_true, ih, List.forall₂_cons]

/-- Leaves without attributes are the same exactly if their names are. -/
theorem same_leaf : (leaf a).same (leaf b) = true ↔ a = b := by
  simp only [leaf, same, Bool.and_true, beq_iff_eq]

/-- Branches without attributes are the same exactly if their names and rows are. -/
theorem same_branch : (branch a ts).same (branch b us) = true ↔
    a = b ∧ List.Forall₂ (fun t u => t.same u = true) ts us := by
  simp only [branch, same, Bool.and_true, Bool.and_eq_true, beq_iff_eq, sameAll_iff]

/-- Leaves with attributes are the same if their attributes are, in any order. -/
theorem same_taggedLeaf {x y : List (Text × Text)} :
    (taggedLeaf a x).same (taggedLeaf b y) = true ↔ a = b ∧ sameAttributes x y = true := by
  simp only [taggedLeaf, same, Bool.and_true, Bool.and_eq_true, beq_iff_eq]

theorem not_same_leaf_branch : ¬(leaf a).same (branch b us) = true := by
  simp only [leaf, branch, same, Bool.and_false, Bool.false_eq_true, not_false_eq_true]

theorem not_same_branch_leaf : ¬(branch a ts).same (leaf b) = true := by
  simp only [leaf, branch, same, Bool.and_false, Bool.false_eq_true, not_false_eq_true]

/-- Rows of trees of parts are equal if and only if the parts are related, when this is so for
    every part. -/
theorem forall₂_same_map {α β : Type} {f : α → Tree} {g : β → Tree} {R : α → β → Prop}
    {as : List α} {bs : List β}
    (h : ∀ a ∈ as, ∀ b, (f a).same (g b) = true ↔ R a b) :
    List.Forall₂ (fun t u => t.same u = true) (as.map f) (bs.map g) ↔ List.Forall₂ R as bs := by
  rw [List.forall₂_map_left_iff, List.forall₂_map_right_iff]
  exact forall₂_congr_of_mem h

end Tree

/-! ## Parts of expressions -/

/-- Parameter lists are told apart by their trees. -/
theorem same_paramsTree {xs ys : List Text} :
    (paramsTree xs).same (paramsTree ys) = true ↔ xs = ys := by
  have hleaf : ∀ x ∈ xs, ∀ y, (paramLeaf x).same (paramLeaf y) = true ↔ x = y := by
    intro x _ y
    rw [paramLeaf, paramLeaf, Tree.same_leaf, Text.append_left_inj, Text.append_right_inj]
  rw [paramsTree, paramsTree, Tree.same_branch, Tree.forall₂_same_map hleaf,
    List.forall₂_eq_eq_eq]
  exact and_iff_right rfl

namespace Parsed

/-- Variables of the second stage have the same tree only if they are one. -/
theorem same_varTree {v w : VarName} : (varTree v).same (varTree w) = true ↔ v = w := by
  rw [varTree, varTree, Tree.same_leaf, Text.append_right_inj, VarName.mk.injEq]

-- The two kinds begin with different letters, so a rest name cannot make one look like the
-- other.
theorem LambdaKind.same_tree {k l : LambdaKind} : k.tree.same l.tree = true ↔ k = l := by
  -- The first letters tell the two kinds apart.
  have hne (rest : Text) : "Simple" ≠ "opt " ++ rest := by
    intro h
    have hlead := congrArg (fun text : Text => text.points.head?) h
    rw [Text.points_append] at hlead
    exact absurd hlead (by simp)
  cases k with
  | simple =>
      cases l with
      | simple => exact iff_of_true (Tree.same_leaf.2 rfl) rfl
      | optional rest => exact iff_of_false (fun h => hne rest (Tree.same_leaf.1 h)) nofun
  | optional rest =>
      cases l with
      | simple => exact iff_of_false (fun h => hne rest (Tree.same_leaf.1 h).symm) nofun
      | optional other =>
          rw [tree, tree, Tree.same_leaf, Text.append_right_inj, LambdaKind.optional.injEq]

end Parsed

namespace Analyzed

theorem integerText_natCast_inj {m n : Nat} :
    integerText (m : Int) = integerText (n : Int) ↔ m = n :=
  ⟨fun h => Int.ofNat.inj (integerText_injective h), fun h => h ▸ rfl⟩

/-- The tree of an address is the same as itself, for its keys differ. -/
theorem Address.same_self (a : Address) : a.tree.same a.tree = true := by
  cases a <;> simp [tree, Tree.same_taggedLeaf, Tree.sameAttributes, List.lookup_cons]

/-- Addresses are told apart by their attributes, the first of which tells their kinds. -/
theorem Address.same_tree {a b : Address} : a.tree.same b.tree = true ↔ a = b := by
  refine ⟨fun h => ?_, fun h => h ▸ same_self a⟩
  cases a with
  | free =>
      cases b with
      | free => rfl
      | _ => simp [tree, Tree.same_taggedLeaf, Tree.sameAttributes] at h
  -- Free addresses have no attributes, those in the innermost frame one, and the others two.
  | param n =>
      cases b with
      | param k =>
          simp only [tree, Tree.same_taggedLeaf] at h
          have hminor : integerText k = integerText n := by
            simpa [Tree.sameAttributes, List.lookup_cons] using h.2
          rw [integerText_natCast_inj.1 hminor]
      | _ => simp [tree, Tree.same_taggedLeaf, Tree.sameAttributes, List.lookup_cons] at h
  | bound m n =>
      cases b with
      | bound j k =>
          simp only [tree, Tree.same_taggedLeaf] at h
          have hindices : integerText j = integerText m ∧ integerText k = integerText n := by
            simpa [Tree.sameAttributes, List.lookup_cons] using h.2
          rw [integerText_natCast_inj.1 hindices.1, integerText_natCast_inj.1 hindices.2]
      | _ => simp [tree, Tree.same_taggedLeaf, Tree.sameAttributes, List.lookup_cons] at h

/-- Variables of the third stage have the same tree only if they are one. -/
theorem Var.same_tree {v w : Var} : v.tree.same w.tree = true ↔ v = w := by
  rw [tree, tree, Tree.same_branch, List.forall₂_cons, List.forall₂_cons, Tree.same_leaf,
    Address.same_tree]
  rcases v with ⟨⟨nameV, _⟩, addressV⟩
  rcases w with ⟨⟨nameW, _⟩, addressW⟩
  simp only [List.Forall₂.nil, true_and, and_true, Var.mk.injEq, VarName.mk.injEq]

theorem CallKind.same_tree {k l : CallKind} : k.tree.same l.tree = true ↔ k = l := by
  cases k <;> cases l <;> decide

end Analyzed

end StageTree
