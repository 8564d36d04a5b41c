import Mathlib.Data.List.Lex
import Mathlib.Data.List.Perm.Subperm
import Mathlib.Data.Prod.Lex
import StageTree.Proofs.Tree.Data

/-!
# Hashing Trees

Equal trees hash alike. The hash of a tree is taken of a form of it, with attributes in order and
none where they are empty, so the form is all that matters here. Order is what equality overlooks
and what the form does away with: rows of attributes with distinct keys are equal exactly if they
are permutations of each other, and that is so exactly if they are the same in order.

The form overlooks one thing that equality does not. Attributes that are there but empty are no
different from none, so trees of the same form are equal when plain.

## Theorems

* `Tree.sorted_eq_iff`: Rows are the same in order exactly if they are permutations of each other.
* `Tree.sameAttributes_iff_perm`: Equality of attributes as permutation.
* `Tree.hashForm_eq_iff`: Trees share their form exactly if they are equal when plain.
* `Tree.identical_iff`: The comparison of forms decides whether they are the same.
* `Tree.equal_trees_hash_alike`: Equal trees share their form, and trees that share it are equal
  but for attributes that are empty.
-/

namespace StageTree

namespace Tree

variable {t u : Tree} {x y : List (Text × Text)} {a b : Option (List (Text × Text))}

/-! ## Attributes in order -/

/-- What an attribute is put in order by. -/
def attributeCodes (entry : Text × Text) : List Nat ×ₗ List Nat :=
  toLex (entry.1.codes, entry.2.codes)

/-- Attributes with the same codes are the same. -/
theorem attributeCodes_injective : Function.Injective attributeCodes := by
  intro e f h
  rcases Prod.mk.inj (toLex.injective h) with ⟨hkey, hvalue⟩
  exact Prod.ext (Text.codes_injective hkey) (Text.codes_injective hvalue)

theorem attributeLE_iff {e f : Text × Text} :
    attributeLE e f = true ↔ attributeCodes e ≤ attributeCodes f := by
  have hcodes {a b : Text} : a.codes = b.codes ↔ a = b :=
    ⟨Text.codes_injective, congrArg Text.codes⟩
  rw [attributeCodes, attributeCodes, Prod.Lex.toLex_le_toLex, le_iff_lt_or_eq (a := e.2.codes)]
  simp only [attributeLE, Bool.or_eq_true, Bool.and_eq_true, decide_eq_true_eq, beq_iff_eq, hcodes]
  rfl

theorem pairwise_sorted (row : List (Text × Text)) :
    (row.mergeSort attributeLE).Pairwise fun e f => attributeLE e f = true := by
  refine List.pairwise_mergeSort (fun e f g => ?_) (fun e f => ?_) row
  · simp only [attributeLE_iff]
    exact le_trans
  · rw [Bool.or_eq_true, attributeLE_iff, attributeLE_iff]
    exact le_total _ _

/-- Rows are the same in order exactly if they are permutations of each other. -/
theorem sorted_eq_iff : x.mergeSort attributeLE = y.mergeSort attributeLE ↔ x.Perm y := by
  have hperm (row : List (Text × Text)) := List.mergeSort_perm row attributeLE
  constructor
  · intro h
    exact (hperm x).symm.trans (h ▸ hperm y)
  · intro h
    -- There is only one way to put a row in order.
    refine List.Perm.eq_of_pairwise (fun e f _ _ hef hfe => ?_) (pairwise_sorted x)
      (pairwise_sorted y) ((hperm x).trans (h.trans (hperm y).symm))
    exact attributeCodes_injective (le_antisymm (attributeLE_iff.1 hef) (attributeLE_iff.1 hfe))

/-- Attributes with distinct keys are equal exactly if they are permutations of each other. -/
theorem sameAttributes_iff_perm (hx : (x.map Prod.fst).Nodup) :
    sameAttributes x y = true ↔ x.Perm y := by
  simp only [sameAttributes, Bool.and_eq_true, beq_iff_eq, List.all_eq_true]
  constructor
  · rintro ⟨hlength, hall⟩
    -- Entries are not repeated, so as many of them that are all found are a permutation.
    have hsubset : x ⊆ y := fun entry hentry => mem_of_lookup (hall entry hentry)
    exact (List.subperm_of_subset (List.Nodup.of_map _ hx) hsubset).perm_of_length_le hlength.ge
  · intro h
    have hy : (y.map Prod.fst).Nodup := (h.map Prod.fst).nodup_iff.1 hx
    exact ⟨h.length_eq, fun entry hentry => lookup_of_mem hy (h.mem_iff.1 hentry)⟩

/-- Equal attributes are both empty or neither of them is. -/
theorem rel_plainAttributes (h : Option.Rel (fun x y => sameAttributes x y = true) a b) :
    Option.Rel (fun x y => sameAttributes x y = true) (plainAttributes a) (plainAttributes b) := by
  cases h with
  | none => exact .none
  | @some x y h =>
      cases x with
      | nil =>
          cases y with
          | nil => exact .none
          | cons entry rest => cases h
      | cons first others =>
          cases y with
          | nil => simp [sameAttributes] at h
          | cons entry rest => exact .some h

theorem hashAttributes_eq (a : Option (List (Text × Text))) :
    hashAttributes a = (plainAttributes a).map (List.mergeSort · attributeLE) := by
  rcases a with _ | _ | ⟨_, _⟩ <;> rfl

theorem hashAttributes_eq_iff (ha : ∀ row ∈ a, (row.map Prod.fst).Nodup) :
    hashAttributes a = hashAttributes b ↔
      Option.Rel (fun x y => sameAttributes x y = true) (plainAttributes a)
        (plainAttributes b) := by
  rw [hashAttributes_eq, hashAttributes_eq]
  cases hx : plainAttributes a with
  | none => cases plainAttributes b <;> simp
  | some x =>
      have hkeys := ha x (mem_plainAttributes hx)
      cases plainAttributes b with
      | none => simp
      | some y => simp [sorted_eq_iff, sameAttributes_iff_perm hkeys]

/-! ## The form of a tree -/

theorem hashFormAll_eq (ts : List Tree) : hashFormAll ts = ts.map hashForm := by
  induction ts with
  | nil => rfl
  | cons t rest ih => rw [hashFormAll, ih, List.map_cons]

theorem hashForm_eq (t : Tree) : t.hashForm =
    .node t.name (hashAttributes t.attributes) (t.children.map (List.map hashForm)) := by
  rcases t with ⟨name, attributes, children⟩
  cases children with
  | none => rfl
  | some ts => rw [hashForm, hashFormAll_eq]; rfl

theorem Keyed.attributes (h : Keyed t) : ∀ row ∈ t.attributes, (row.map Prod.fst).Nodup := by
  cases h with
  | node hkeys _ => exact hkeys

/-- The children of a tree with single keys are such trees, too. -/
theorem Keyed.children (h : Keyed t) : ∀ ts ∈ t.children, ∀ child ∈ ts, Keyed child := by
  cases h with
  | node _ h => exact h

/-- Children share their forms exactly if they are equal when plain, given that this is so for each
    of the first ones. -/
theorem map_hashForm_eq_iff {c d : Option (List Tree)}
    (h : ∀ ts ∈ c, ∀ t ∈ ts, ∀ u : Tree,
      t.hashForm = u.hashForm ↔ t.plain.same u.plain = true) :
    c.map (List.map hashForm) = d.map (List.map hashForm) ↔
      Option.Rel (List.Forall₂ fun t u => t.same u = true) (c.map (List.map plain))
        (d.map (List.map plain)) := by
  cases c with
  | none => cases d <;> simp
  | some ts =>
      cases d with
      | none => simp
      | some us => simp [map_eq_map_iff, forall₂_same_map fun t ht u => (h ts rfl t ht u).symm]

/-- Trees share their form exactly if they are equal when plain. -/
theorem hashForm_eq_iff (ht : Keyed t) :
    t.hashForm = u.hashForm ↔ t.plain.same u.plain = true := by
  -- A node is compared part by part on both sides. Only the first tree need be keyed, since a
  -- permutation of its attributes has distinct keys too.
  induction t using induct_children generalizing u with
  | step t ih =>
      have hchildren := map_hashForm_eq_iff (c := t.children) (d := u.children)
        fun ts hts child hchild other => ih ts hts child hchild (ht.children ts hts child hchild)
      rw [hashForm_eq, hashForm_eq, node.injEq, same_iff, name_plain, name_plain,
        attributes_plain, attributes_plain, children_plain, children_plain,
        hashAttributes_eq_iff ht.attributes, hchildren]

/-- Equal trees are equal when plain. -/
theorem same_plain (h : t.same u = true) : t.plain.same u.plain = true := by
  induction t using induct_children generalizing u with
  | step t ih =>
      rcases same_iff.1 h with ⟨hname, hattributes, hchildren⟩
      refine same_iff.2 ⟨by rw [name_plain, name_plain, hname], ?_, ?_⟩
      · rw [attributes_plain, attributes_plain]
        exact rel_plainAttributes hattributes
      · rw [children_plain, children_plain]
        -- The children are named, so that the induction hypothesis still speaks of those of the
        -- node.
        generalize hts : t.children = c, u.children = d at hchildren
        cases hchildren with
        | none => exact .none
        | @some ts us hall =>
            have hplain : ∀ child ∈ ts, ∀ other : Tree,
                child.same other = true → child.plain.same other.plain = true :=
              fun child hchild other => ih ts hts child hchild
            refine .some ((forall₂_same_map fun _ _ _ => Iff.rfl).2 ?_)
            exact ((List.forall₂_and_left ts us).2 ⟨hplain, hall⟩).imp fun _ _ h => h.1 _ h.2

/-! ## Comparing forms -/

theorem identicalAll_iff {ts us : List Tree}
    (h : ∀ t ∈ ts, ∀ u, t.identical u = true ↔ t = u) :
    identicalAll ts us = true ↔ ts = us := by
  induction ts generalizing us with
  | nil =>
      cases us with
      | nil => exact iff_of_true rfl rfl
      | cons u us => exact iff_of_false nofun nofun
  | cons t ts ih =>
      rcases List.forall_mem_cons.1 h with ⟨ht, hts⟩
      cases us with
      | nil => exact iff_of_false nofun nofun
      | cons u us => rw [identicalAll, Bool.and_eq_true, ht, ih hts, List.cons.injEq]

/-- Trees are identical exactly if they are equal. -/
theorem identical_iff : t.identical u = true ↔ t = u := by
  induction t generalizing u with
  | leaf name attributes =>
      rcases u with ⟨other, others, us⟩
      cases us with
      | none => simp [identical]
      | some us => simp [identical]
  | branch name attributes ts ih =>
      rcases u with ⟨other, others, us⟩
      cases us with
      | none => simp [identical]
      | some us =>
          simp [identical, identicalAll_iff fun t ht u => ih t ht, and_assoc]

/-- Trees that are equal share the form that their hashes are taken of. Trees share it exactly if
    they are equal once attributes that are empty are left out, and the hashes of trees in memory
    are taken of nothing else. -/
theorem equal_trees_hash_alike (ht : t.Keyed) (u : Tree) :
    (t.same u = true → t.hashForm = u.hashForm) ∧
    (t.hashForm = u.hashForm ↔ t.plain.same u.plain = true) ∧
    ((Term.tree t).sameHash (.tree u) = true ↔ t.hashForm = u.hashForm) :=
  ⟨fun h => (hashForm_eq_iff ht).2 (same_plain h), hashForm_eq_iff ht, identical_iff⟩

/-- A tree with attributes at two levels, in an order that is to be told, and with a leaf that has
    empty ones. -/
def orderly (order : List (Text × Text) → List (Text × Text)) : Tree :=
  .node "a" (some (order [("k", "1"), ("l", "2")]))
    (some [.node "b" (some (order [("x", "3"), ("y", "4")])) (some []), .node "c" (some []) none])

/-- The tree hashes like the one with both rows of attributes the other way round, which is equal
    to it, and like the plain one, which is not. -/
theorem reversed_attributes_hash_alike :
    (orderly id).Keyed ∧
      (orderly id).same (orderly List.reverse) = true ∧
      (orderly id).hashForm = (orderly List.reverse).hashForm ∧
      (orderly id).same (orderly id).plain = false ∧
      (orderly id).hashForm = (orderly id).plain.hashForm := by
  -- Only the keys of one row could clash, and they differ.
  have hkeyed : (orderly id).Keyed := by
    refine .node (fun row hrow => ?_) fun ts hts t ht => ?_
    · cases hrow
      decide
    · cases hts
      simp only [List.mem_cons, List.not_mem_nil, or_false] at ht
      rcases ht with rfl | rfl
      · exact .node (by simp) (by simp)
      · exact .node (by simp) nofun
  have hsame : (orderly id).same (orderly List.reverse) = true := by decide
  exact ⟨hkeyed, hsame, (equal_trees_hash_alike hkeyed _).1 hsame, by decide,
    (equal_trees_hash_alike hkeyed _).2.1.2 (by decide)⟩

end Tree

end StageTree
