import StageTree.Proofs.Legibility
import StageTree.Proofs.Response
import StageTree.Proofs.Term.Visits
import StageTree.Proofs.Wire.Exact
import StageTree.Term.Checked

/-!
# What Is Read Can Be Shown

Reading and showing agree. A node that was read is recognised where it is handed in to be
shown, there is room for it, and no label of its tree is empty. So after a response has been
read nothing can fail any more, and what keeps a response from being read is a defect of it or
its depth.

Three kinds of checks meet here. The readers ask that names are not empty, that indices are
not negative and that a kind of application is known; the values that they make ask for the
same (`Term.Checked`), and a tree asks for a name at every node. The readers ask first, and as
they ask for no less, the checks of the values never get to refuse anything.

## Main definitions

* `Tree.rebuilt`: A tree, made once more node by node, with the check of every name.

## Theorems

* `Tree.Legible.rebuilt`: The check of names passes all trees that stages show.
* `Wire.varName_iff_checked`, `Wire.index_iff_checked`, `Wire.callWord_iff_ofTerm`: The readers
  and the checks of the values agree.
* `Stage.nesting_le_of_mem_read`: There is room for what was read.
* `Session.nodes_read_are_shown`: What is read can be shown.
-/

namespace StageTree

/-! ## Trees made node by node -/

namespace Tree

mutual

/-- A tree, made once more from the leaves up, with the check of every name. -/
def rebuilt : Tree → Except Invalid Tree
  | .node name attributes none => checked name attributes none
  | .node name attributes (some children) => do
    let parts ← rebuiltAll children
    checked name attributes (some parts)

/-- Some trees, made once more. -/
def rebuiltAll : List Tree → Except Invalid (List Tree)
  | [] => .ok []
  | t :: rest => do
    let first ← rebuilt t
    let others ← rebuiltAll rest
    pure (first :: others)

end

theorem rebuiltAll_eq_ok {ts : List Tree} (h : ∀ t ∈ ts, t.rebuilt = .ok t) :
    rebuiltAll ts = .ok ts := by
  induction ts with
  | nil => rfl
  | cons t rest ih =>
      rcases List.forall_mem_cons.1 h with ⟨ht, hrest⟩
      rw [rebuiltAll, ht, ih hrest]
      rfl

/-- The check of a node asks for nothing but a name. -/
theorem checked_of_ne_empty {name : Text} (h : name ≠ "")
    (attributes : Option (List (Text × Text))) (children : Option (List Tree)) :
    checked name attributes children = .ok (.node name attributes children) := by
  unfold checked labelled?
  rw [if_neg h]

theorem Opens.ne_empty {text : Text} (h : Opens text) : text ≠ "" := by
  rcases h with ⟨c, rest, htext, _⟩
  rintro rfl
  cases htext

theorem rebuilt_leaf {name : Text} (h : name ≠ "") : (leaf name).rebuilt = .ok (leaf name) :=
  checked_of_ne_empty h none none

/-- A branch with a name is made again once its children are. -/
theorem rebuilt_branch {name : Text} {children : List Tree} (h : name ≠ "")
    (hchildren : ∀ t ∈ children, t.rebuilt = .ok t) :
    (branch name children).rebuilt = .ok (branch name children) := by
  rw [branch, rebuilt, rebuiltAll_eq_ok hchildren]
  exact checked_of_ne_empty h none (some children)

/-- Every address is shown under a name. -/
theorem name_address_ne_empty (home : Analyzed.Address) : home.tree.name ≠ "" := by
  intro hempty
  -- An index may be anything, so the name is not computed; its length is seen to be positive.
  have hlength := congrArg Text.length hempty
  simp only [Text.length, Text.points_plain, List.length_map] at hlength
  cases home with
  | free => exact absurd hlength (by decide)
  | param minor => simp [Analyzed.Address.tree, taggedLeaf, name] at hlength
  | bound major minor => simp [Analyzed.Address.tree, taggedLeaf, name] at hlength

theorem rebuilt_address (home : Analyzed.Address) : home.tree.rebuilt = .ok home.tree := by
  have hname := name_address_ne_empty home
  cases home <;> exact checked_of_ne_empty hname _ none

/-- The check of names passes all trees that stages show. -/
theorem Legible.rebuilt {t : Tree} (h : Legible t) : t.rebuilt = .ok t := by
  induction h with
  | leaf hlabel => exact rebuilt_leaf hlabel.opens.ne_empty
  | branch hheading _ ih => exact rebuilt_branch (opens_heading hheading).ne_empty ih
  | ofVar var =>
      refine rebuilt_branch (by decide) (List.forall_mem_cons.2 ⟨?_, ?_⟩)
      · exact rebuilt_leaf var.name.nonempty
      · exact List.forall_mem_singleton.2 (rebuilt_address var.address)

end Tree

/-! ## The checks of the readers -/

namespace Wire

/-- A name is read exactly if the check of names lets it pass. -/
theorem varName_iff_checked {room : Nat} {name : Text} {var : VarName} :
    varName room (.str name) = .ok var ↔ VarName.checked name = .ok var := by
  rw [varName_eq_ok, Json.str.injEq, ← ofText?_eq_some, VarName.checked]
  cases VarName.ofText? name with
  | none => simp only [reduceCtorEq]
  | some other => rw [Option.some.injEq, Except.ok.injEq]

/-- An index is read exactly if the check of a parameter address lets it pass. -/
theorem index_iff_checked {room : Nat} {n : Int} {minor : Nat} :
    index room (.int n) = .ok minor ↔ Analyzed.Address.checkedParam n = .ok (.param minor) := by
  rw [index_eq_ok, Json.int.injEq, Analyzed.Address.checkedParam]
  split
  · rename_i hnegative
    refine iff_of_false ?_ (by simp only [reduceCtorEq, not_false_eq_true])
    omega
  · rw [Except.ok.injEq, Analyzed.Address.param.injEq]
    omega

/-- Two indexes are read exactly if the check of a bound address lets them pass. -/
theorem indices_iff_checked {room : Nat} {m n : Int} {major minor : Nat} :
    (index room (.int m) = .ok major ∧ index room (.int n) = .ok minor) ↔
      Analyzed.Address.checkedBound m n = .ok (.bound major minor) := by
  rw [index_eq_ok, index_eq_ok, Json.int.injEq, Json.int.injEq, Analyzed.Address.checkedBound]
  split
  · rename_i hnegative
    simp only [Bool.or_eq_true, decide_eq_true_eq] at hnegative
    refine iff_of_false ?_ (by simp only [reduceCtorEq, not_false_eq_true])
    omega
  · rename_i hnegative
    simp only [Bool.or_eq_true, decide_eq_true_eq] at hnegative
    rw [Except.ok.injEq, Analyzed.Address.bound.injEq]
    omega

/-- A word for a kind of call is read exactly if the check lets it pass. -/
theorem callWord_iff_ofTerm {room : Nat} {word : Text} {kind : Analyzed.CallKind} :
    callWord room (.str word) = .ok kind ↔ Analyzed.CallKind.ofTerm (.str word) = .ok kind := by
  rw [callWord_eq_ok, Json.str.injEq, ← callOfText?_eq_some]
  simp only [Analyzed.CallKind.ofTerm]
  cases Analyzed.CallKind.ofText? word with
  | none => simp only [reduceCtorEq]
  | some other => rw [Option.some.injEq, Except.ok.injEq]

/-- A whole number is read if and only if it has a nearest double. -/
theorem wholeNumber_eq_ok {room : Nat} {n : Int} {s : Sexpr} :
    wholeNumber room n = .ok s ↔
      (Binary64.ofInt n).isInfinite = false ∧ s = .atom (.float (Binary64.ofInt n)) := by
  unfold wholeNumber
  cases hinfinite : (Binary64.ofInt n).isInfinite with
  | true =>
      simp only [hinfinite, if_true]
      have hnot : ¬(true = false ∧ s = .atom (.float (Binary64.ofInt n))) := fun h => nomatch h.1
      exact iff_of_false (reject_ne_ok _ _ _) hnot
  | false =>
      simp only [hinfinite, Bool.false_eq_true, if_false, Except.ok.injEq, true_and]
      exact eq_comm

end Wire

/-! ## Nodes that were read -/

namespace Stage

open Wire

/-- There is room for what was read. -/
theorem nesting_le_of_stageNode {stage : Stage} {room : Nat} {j : Json} {node : stage.Node}
    (h : stageNode stage room j = .ok node) : stage.nesting node ≤ room := by
  cases stage with
  | reader =>
      have hreads := readsExactly sexpr_sound sexpr_inRoom sexpr_refuses
      exact ((hreads.ok_iff room j node).1 h).2
  | tagParser =>
      have hreads := readsExactly parsed_sound parsed_inRoom parsed_refuses
      exact ((hreads.ok_iff room j node).1 h).2
  | semanticAnalyzer =>
      have hreads := readsExactly analyzed_sound analyzed_inRoom analyzed_refuses
      exact ((hreads.ok_iff room j node).1 h).2

/-- There is room for every node of a response. -/
theorem nesting_le_of_mem_read {stage : Stage} {j : Json} {nodes : List stage.Node}
    (h : stage.readNodes j = .nodes nodes) {node : stage.Node} (hnode : node ∈ nodes) :
    stage.nesting node ≤ nestingLimit := by
  unfold readNodes at h
  split at h
  · split at h
    · rename_i hread
      cases h
      -- Each node was read within the limit, from the item at its index.
      have hall := (itemsFrom_eq_ok.1 hread).imp fun _ _ => nesting_le_of_stageNode
      rcases List.mem_iff_getElem.1 hnode with ⟨i, hi, rfl⟩
      exact (List.forall₂_iff_get.1 hall).2 i (by rw [hall.length_eq]; exact hi) hi
    · cases h
    · cases h
  · split at h <;> cases h

/-- Only a deep response is too deep. -/
theorem deep_of_readNodes {stage : Stage} {j : Json}
    (h : stage.readNodes j = .tooDeep ∨ stage.readNodes j = .outOfRoom) :
    2 * nestingLimit < 3 * j.nesting := by
  unfold readNodes at h
  split at h
  · rename_i items
    have hitems : Refuses (2 * nestingLimit < 3 * (Json.arr items).nesting) (.arr items)
        (itemsFrom (stageNode stage nestingLimit) 0 items) := by
      refine itemsFrom_refuses (fun item hitem => ?_) [] items rfl
      refine (stageNode_refuses stage nestingLimit item).mono fun hdeep => ?_
      -- An item is one level less deep than the array.
      have hle := Json.nesting_le_of_mem_items hitem
      rw [Json.nesting]
      omega
    split at h
    · simp only [reduceCtorEq, or_self] at h
    · simp only [reduceCtorEq, or_self] at h
    · rename_i hread
      rw [hread] at hitems
      exact hitems
  · split at h
    · simp only [reduceCtorEq, or_self] at h
    · rename_i hlimit
      omega

theorem readNodes_of_ok {stage : Stage} {j : Json} {nodes : List stage.Node}
    (h : (stage.readResponse j).result = .ok nodes) : stage.readNodes j = .nodes nodes := by
  -- Only the first refusal counts, and it is the one that reading the nodes ends with.
  rw [result_readResponse] at h
  cases hread : stage.readNodes j with
  | nodes ns =>
      rw [hread] at h
      cases h
      rfl
  | _ =>
      rw [hread] at h
      cases h

/-- What keeps a response from being read is a defect of it or its depth. -/
theorem readResponse_eq_error {stage : Stage} {j : Json} {trouble : Trouble}
    (h : (stage.readResponse j).result = .error trouble) :
    (∃ d, Located j d ∧ trouble = .failure (d.failure responseRoot)) ∨
      2 * nestingLimit < 3 * j.nesting ∧
        (trouble = .failure (.nesting stage.name "decoding") ∨ trouble = .outOfRoom) := by
  rw [result_readResponse] at h
  cases hread : stage.readNodes j with
  | nodes ns =>
      rw [hread] at h
      cases h
  | defective d =>
      rw [hread] at h
      cases h
      exact Or.inl ⟨d, readNodes_located hread, rfl⟩
  | tooDeep =>
      rw [hread] at h
      cases h
      exact Or.inr ⟨deep_of_readNodes (Or.inl hread), Or.inl rfl⟩
  | outOfRoom =>
      rw [hread] at h
      cases h
      exact Or.inr ⟨deep_of_readNodes (Or.inr hread), Or.inr rfl⟩

end Stage

namespace Session

open Wire

variable {stage : Stage}

theorem showNode_of_le {node : stage.Node} (h : stage.nesting node ≤ nestingLimit) :
    showNode stage node = pure (stage.tree node) := if_pos h

/-- A node that there is room for is shown as its tree where it is handed in, too. -/
theorem showTerm_toTerm {node : stage.Node} (h : stage.nesting node ≤ nestingLimit) :
    showTerm stage (stage.toTerm node) = pure (stage.tree node) :=
  showTerm_of_ok (Term.node?_eq_ok_iff.2 ⟨rfl, h⟩)

/-- Showing a response fails only where reading it does. -/
theorem result_showResponse (stage : Stage) (j : Json) :
    (showResponse stage j).result =
      (stage.readResponse j).result.map fun nodes => nodes.getLast?.map stage.tree := by
  unfold showResponse
  simp only [bind, Traced.andThen]
  cases hread : (stage.readResponse j).result with
  | error trouble => rfl
  | ok nodes =>
      -- Of all the nodes only the last one is shown, and there is room for it.
      have hroom : ∀ node ∈ nodes, stage.nesting node ≤ nestingLimit :=
        fun _ => Stage.nesting_le_of_mem_read (Stage.readNodes_of_ok hread)
      cases hlast : nodes.getLast? with
      | none => simp [Traced.log, Traced.event, hlast, Except.map, pure]
      | some node =>
          have hnode := showNode_of_le (hroom node (List.mem_of_getLast? hlast))
          simp [Traced.log, Traced.event, hlast, hnode, Except.map, pure]

/-- What was read can be shown. Every node of a response is shown as its tree, whose names all
    pass the check that none is empty. What keeps a response from being read is reported as a
    defect of it, unless the response is deep, and nothing else keeps its last node from being
    shown. The checks of names, indices, kinds of applications and sizes of numbers that
    readers make are those that the values make, so the values have nothing left to refuse. -/
theorem nodes_read_are_shown (stage : Stage) (j : Json) :
    (∀ nodes, (stage.readResponse j).result = .ok nodes → ∀ node ∈ nodes,
      showTerm stage (stage.toTerm node) = pure (stage.tree node) ∧
        (stage.tree node).rebuilt = .ok (stage.tree node)) ∧
    (∀ trouble, (stage.readResponse j).result = .error trouble →
      (∃ d, Located j d ∧ trouble = .failure (d.failure Stage.responseRoot)) ∨
        2 * nestingLimit < 3 * j.nesting ∧
          (trouble = .failure (.nesting stage.name "decoding") ∨ trouble = .outOfRoom)) ∧
    (showResponse stage j).result =
      (stage.readResponse j).result.map (fun nodes => nodes.getLast?.map stage.tree) ∧
    (∀ room name var, varName room (.str name) = .ok var ↔ VarName.checked name = .ok var) ∧
    (∀ room n minor, index room (.int n) = .ok minor ↔
      Analyzed.Address.checkedParam n = .ok (.param minor)) ∧
    (∀ room m n major minor,
      (index room (.int m) = .ok major ∧ index room (.int n) = .ok minor) ↔
        Analyzed.Address.checkedBound m n = .ok (.bound major minor)) ∧
    (∀ room word kind, callWord room (.str word) = .ok kind ↔
      Analyzed.CallKind.ofTerm (.str word) = .ok kind) ∧
    ∀ room n s, wholeNumber room n = .ok s ↔
      (Binary64.ofInt n).isInfinite = false ∧ s = .atom (.float (Binary64.ofInt n)) := by
  refine ⟨?_, fun _ => Stage.readResponse_eq_error, result_showResponse stage j,
    fun _ _ _ => varName_iff_checked, fun _ _ _ => index_iff_checked,
    fun _ _ _ _ _ => indices_iff_checked, fun _ _ _ => callWord_iff_ofTerm,
    fun _ _ _ => wholeNumber_eq_ok⟩
  intro nodes hread node hnode
  have hroom := Stage.nesting_le_of_mem_read (Stage.readNodes_of_ok hread) hnode
  exact ⟨showTerm_toTerm hroom, (stage.legible_tree node).rebuilt⟩

end Session

end StageTree
