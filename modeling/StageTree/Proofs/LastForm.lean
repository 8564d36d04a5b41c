import StageTree.Proofs.Depth
import StageTree.Proofs.FirstFailure

/-!
# The Last Form of a Response

Only the last form of a response is shown, but every form is read. What showing comes to is thus
a matter of the last document alone, as long as all documents in front of it are nodes: it is the
tree that the document has by itself, or the defect that it has by itself. Of the documents in
front there is no trace but their number, which is the index in the path of a defect.

A document that is no node keeps anything from being shown, wherever it stands, and nothing at all
is shown exactly if there are no documents.

## Main definitions

* `Stage.Accepts`: Documents that are nodes by themselves.
* `Session.showAlone`: What showing a document by itself comes to.
* `Session.shownLast`: What showing a document behind others comes to.

## Theorems

* `Session.shownLast_eq`, `Session.showAlone_eq`: What both come to, by how the document is read.
* `Session.last_form_is_shown`: The last document decides what is shown, and all of them decide
  whether anything is.
-/

namespace StageTree

open Wire

/-! ## Documents by themselves -/

namespace Stage

variable {stage : Stage} {j : Json} {front : List Json}

/-- A document is a node of the stage by itself, wherever it stands. -/
def Accepts (stage : Stage) (j : Json) : Prop := ∃ start node, stage.readNode start j = .ok node

/-- Where a document stands does not matter to whether it is a node. -/
theorem accepts_iff : stage.Accepts j ↔ ∃ node, stageNode stage nestingLimit j = .ok node := by
  constructor
  · rintro ⟨start, node, h⟩
    exact ⟨node, readNode_eq_ok.1 h⟩
  · rintro ⟨node, h⟩
    exact ⟨responseRoot, node, readNode_eq_ok.2 h⟩

/-- Documents that are accepted have nodes. -/
theorem exists_nodes (h : ∀ item ∈ front, stage.Accepts item) : ∃ nodes,
    List.Forall₂ (fun item node => stageNode stage nestingLimit item = .ok node) front nodes :=
  exists_forall₂ fun item hitem => accepts_iff.1 (h item hitem)

/-- Behind nodes, a document is read as it is read by itself, at the index that counts them. -/
theorem readNodes_concat {nodes : List stage.Node}
    (hfront : List.Forall₂ (fun item node => stageNode stage nestingLimit item = .ok node)
      front nodes) (last : Json) :
    stage.readNodes (.arr (front ++ [last])) =
      match stageNode stage nestingLimit last with
      | .ok node => .nodes (nodes ++ [node])
      | .error (.defective d) => .defective { d with steps := .index front.length :: d.steps }
      | .error .tooDeep => .tooDeep := by
  -- The index of the last document counts those in front.
  rw [readNodes, itemsFrom_append hfront, itemsFrom, Nat.zero_add]
  cases stageNode stage nestingLimit last with
  | ok node => rfl
  | error refusal => cases refusal <;> rfl

end Stage

/-! ## The last document -/

namespace Session

variable {stage : Stage} {front items : List Json} {j last : Json}

/-- What showing a document by itself comes to, if it stands at a path. -/
def showAlone (stage : Stage) (start : Text) (j : Json) : Except Trouble Tree := do
  let node ← stage.readNode start j
  (showNode stage node).result

/-- What showing a response comes to that has some documents in front of a last one. -/
def shownLast (stage : Stage) (front : List Json) (last : Json) : Except Trouble (Option Tree) :=
  (showResponse stage (.arr (front ++ [last]))).result

/-- Showing a document by itself comes to what reading it comes to. -/
theorem showAlone_eq (stage : Stage) (start : Text) (j : Json) :
    showAlone stage start j =
      match stageNode stage nestingLimit j with
      | .ok node => .ok (stage.tree node)
      | .error (.defective d) => .error (.failure (d.failure start))
      | .error .tooDeep => .error .outOfRoom := by
  rw [showAlone, Stage.readNode]
  cases hread : stageNode stage nestingLimit j with
  | ok node =>
      -- There is room to show a node that there was room to read.
      have hshown := showNode_of_le (Stage.nesting_le_of_stageNode hread)
      exact congrArg Traced.result hshown
  | error refusal => cases refusal <;> rfl

/-- Showing the last of some documents comes to what reading it comes to. -/
theorem shownLast_eq (hfront : ∀ item ∈ front, stage.Accepts item) (last : Json) :
    shownLast stage front last =
      match stageNode stage nestingLimit last with
      | .ok node => .ok (some (stage.tree node))
      | .error (.defective d) =>
        .error (.failure (Defect.failure Stage.responseRoot
          { d with steps := .index front.length :: d.steps }))
      | .error .tooDeep => .error (.failure (.nesting stage.name "decoding")) := by
  rcases Stage.exists_nodes hfront with ⟨nodes, hnodes⟩
  rw [shownLast, result_showResponse, Stage.result_readResponse, Stage.readNodes_concat hnodes]
  cases stageNode stage nestingLimit last with
  | ok node =>
      simp only [Stage.ResponseReading.result, Except.map, List.getLast?_concat, Option.map_some]
  | error refusal => cases refusal <;> rfl

/-- A response that was shown has nodes only. -/
theorem accepts_of_showResponse {shown : Option Tree}
    (h : (showResponse stage (.arr items)).result = .ok shown) :
    ∀ item ∈ items, stage.Accepts item := by
  rcases exists_nodes_of_showResponse h with ⟨_, nodes, harr, hall, -⟩
  cases harr
  intro item hitem
  rcases exists_item_of_mem hall.flip hitem with ⟨node, -, hnode⟩
  exact Stage.accepts_iff.2 ⟨node, hnode⟩

/-- Nothing is shown exactly of an empty array. -/
theorem showResponse_eq_none : (showResponse stage j).result = .ok none ↔ j = .arr [] := by
  constructor
  · intro h
    rcases exists_nodes_of_showResponse h with ⟨items, nodes, rfl, hall, hlast⟩
    -- There is no last node, so there are no nodes and no items.
    have hnodes : nodes = [] := List.getLast?_eq_none_iff.1 (Option.map_eq_none_iff.1 hlast.symm)
    subst hnodes
    cases hall
    rfl
  · rintro rfl
    rfl

/-- What stands in front of the last document of a response, if it is all nodes, does not matter
    to what is shown: the tree of the last document by itself, or its defect by itself at an index
    that is the number of documents in front, or a report of its depth if it is deep. Where any
    document is no node there is no tree, and nothing is shown exactly if the response is an empty
    array. -/
theorem last_form_is_shown (stage : Stage) :
    (∀ last,
      (∃ tree, (∀ start, showAlone stage start last = .ok tree) ∧
        ∀ front, (∀ item ∈ front, stage.Accepts item) →
          shownLast stage front last = .ok (some tree)) ∨
      (∃ message steps received expected,
        (∀ start, showAlone stage start last =
          .error (.failure (.decode message (pathText start steps) received expected))) ∧
        ∀ front, (∀ item ∈ front, stage.Accepts item) →
          shownLast stage front last = .error (.failure (.decode message
            (pathText Stage.responseRoot (.index front.length :: steps)) received expected))) ∨
      (2 * nestingLimit < 3 * last.nesting + 2 ∧
        (∀ start, showAlone stage start last = .error .outOfRoom) ∧
        ∀ front, (∀ item ∈ front, stage.Accepts item) →
          shownLast stage front last = .error (.failure (.nesting stage.name "decoding")))) ∧
    (∀ items, (∃ item ∈ items, ¬stage.Accepts item) →
      ∃ trouble, (showResponse stage (.arr items)).result = .error trouble) ∧
    ∀ j, (showResponse stage j).result = .ok none ↔ j = .arr [] := by
  refine ⟨fun last => ?_, ?_, fun j => showResponse_eq_none⟩
  · have halone := (showAlone_eq stage · last)
    have hlast (front : List Json) (hfront : ∀ item ∈ front, stage.Accepts item) :=
      shownLast_eq hfront last
    have hdeep := Stage.stageNode_refuses stage nestingLimit last
    -- Both are settled by one reading of the document.
    generalize stageNode stage nestingLimit last = reading at halone hlast hdeep
    match reading with
    | .ok node => exact .inl ⟨_, halone, hlast⟩
    | .error (.defective d) => exact .inr (.inl ⟨_, _, _, _, halone, hlast⟩)
    | .error .tooDeep => exact .inr (.inr ⟨hdeep, halone, hlast⟩)
  · rintro items ⟨item, hitem, hno⟩
    cases hresult : (showResponse stage (.arr items)).result with
    | error trouble => exact ⟨trouble, rfl⟩
    | ok shown => exact absurd (accepts_of_showResponse hresult item hitem) hno

/-- Behind two empty lists, a list is shown as it is shown without them, and what is no node fails
    at another index. In front of a list it fails too. -/
theorem shown_behind_empty_lists :
    (∀ item ∈ [nilNode, nilNode], Stage.reader.Accepts item) ∧
      shownLast .reader [nilNode, nilNode] (nilChain 1) = .ok (some (nils 1).tree) ∧
      (∃ message received expected,
        shownLast .reader [] .null =
          .error (.failure (.decode message "$[0]" received expected)) ∧
        shownLast .reader [nilNode, nilNode] .null =
          .error (.failure (.decode message "$[2]" received expected))) ∧
      ∃ trouble, (showResponse .reader (.arr [.null, nilChain 1])).result = .error trouble := by
  have hnil : Stage.reader.Accepts nilNode := ⟨Stage.responseRoot, .nil, rfl⟩
  have hfront : ∀ item ∈ [nilNode, nilNode], Stage.reader.Accepts item :=
    List.forall_mem_cons.2 ⟨hnil, List.forall_mem_cons.2 ⟨hnil, List.forall_mem_nil _⟩⟩
  have hnull : ¬Stage.reader.Accepts .null := by
    rintro ⟨start, node, h⟩
    cases h
  rcases last_form_is_shown .reader with ⟨hlast, hany, -⟩
  refine ⟨hfront, ?_, ⟨_, _, _, rfl, rfl⟩, hany _ ⟨.null, List.mem_cons_self, hnull⟩⟩
  have hshown : shownLast .reader [] (nilChain 1) = .ok (some (nils 1).tree) :=
    showResponse_nilChain (by decide)
  -- Only the first of the three cases agrees with what is shown without the empty lists.
  rcases hlast (nilChain 1) with ⟨_, _, h⟩ | ⟨_, _, _, _, _, h⟩ | ⟨_, _, h⟩
  · rw [h _ hfront, ← h [] nofun, hshown]
  · cases (h [] nofun).symm.trans hshown
  · cases (h [] nofun).symm.trans hshown

end Session

end StageTree
