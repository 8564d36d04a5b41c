import StageTree.Proofs.Response
import StageTree.Proofs.Tree.Legible
import StageTree.Proofs.Tree.Same
import StageTree.Proofs.Wire.InOrder

/-!
# The First Failure of a Response

A response whose reading fails is blamed on the first node that cannot be read, and on the first
defect of that node. What comes later has no part in it: whatever follows the node in the
response, the failure is the same, and so is what is logged.

The path of the failure tells which node it is. The index in it ends at a bracket, so no index
is taken for another one that it begins with.

## Theorems

* `Wire.itemsFrom_append`: Items that can be read only shift the index of those that follow.
* `Wire.exists_of_itemsFrom_defective`, `Wire.itemsFrom_of_defective`: Which item a reading of
  items ends at, and that what follows it does not matter.
* `Stage.first_defect_is_reported`: What a failure says of what stands in front of it.
-/

namespace StageTree

namespace Wire

variable {α : Type} {read : Json → Reading α}

/-- Behind an item that is read the others are read. -/
theorem itemsFrom_cons_of_ok {i : Nat} {first : Json} {a : α} (h : read first = .ok a)
    (others : List Json) :
    itemsFrom read i (first :: others) =
      itemsFrom read (i + 1) others >>= fun as => pure (a :: as) := by
  rw [itemsFrom, h]
  rfl

-- By induction on the items in front, which are what the index counts.
theorem itemsFrom_append {i : Nat} {front : List Json} {as : List α}
    (hfront : List.Forall₂ (fun item a => read item = .ok a) front as) (rest : List Json) :
    itemsFrom read i (front ++ rest) =
      itemsFrom read (i + front.length) rest >>= fun bs => pure (as ++ bs) := by
  induction hfront generalizing i with
  | nil =>
      rw [List.nil_append, List.length_nil, Nat.add_zero]
      cases itemsFrom read i rest <;> rfl
  | cons hfirst _ ih =>
      rw [List.cons_append, itemsFrom_cons_of_ok hfirst, ih, List.length_cons,
        Nat.add_right_comm, Nat.add_assoc]
      cases itemsFrom read _ rest <;> rfl

/-- What follows the first item that cannot be read is not looked at. -/
theorem itemsFrom_of_defective {i : Nat} {front : List Json} {item : Json} {inner : Defect}
    (hfront : ∀ other ∈ front, ∃ a, read other = .ok a)
    (hitem : read item = .error (.defective inner)) (rest : List Json) :
    itemsFrom read i (front ++ item :: rest) =
      .error (.defective { inner with steps := .index (i + front.length) :: inner.steps }) := by
  rcases exists_forall₂ hfront with ⟨as, has⟩
  rw [itemsFrom_append has, itemsFrom, hitem]
  rfl

-- By induction on the items, as they are read.
theorem exists_of_itemsFrom_defective {i : Nat} {items : List Json} {d : Defect}
    (h : itemsFrom read i items = .error (.defective d)) :
    ∃ front item rest inner, items = front ++ item :: rest ∧
      (∀ other ∈ front, ∃ a, read other = .ok a) ∧ read item = .error (.defective inner) ∧
      d = { inner with steps := .index (i + front.length) :: inner.steps } := by
  induction items generalizing i with
  | nil => cases h
  | cons first others ih =>
      cases hfirst : read first with
      | error refusal =>
          rw [itemsFrom, hfirst] at h
          cases refusal with
          | tooDeep => cases h
          | defective inner =>
              cases h
              -- This item is the first one, with nothing in front.
              exact ⟨[], first, others, inner, rfl, List.forall_mem_nil _, hfirst, rfl⟩
      | ok a =>
          rw [itemsFrom_cons_of_ok hfirst] at h
          cases hothers : itemsFrom read (i + 1) others with
          | ok as =>
              rw [hothers] at h
              cases h
          | error refusal =>
              rw [hothers] at h
              cases h
              rcases ih hothers with ⟨front, item, rest, inner, rfl, hfront, hitem, rfl⟩
              refine ⟨first :: front, item, rest, inner, rfl, ?_, hitem, ?_⟩
              · exact List.forall_mem_cons.2 ⟨⟨a, hfirst⟩, hfront⟩
              · rw [List.length_cons, Nat.add_right_comm, Nat.add_assoc]

/-- The index that a path goes on with is told by the path. -/
theorem index_text_inj {start rest suffix : Text} {i k : Nat}
    (h : start ++ (Step.index i).text ++ rest = start ++ (Step.index k).text ++ suffix) :
    i = k ∧ rest = suffix := by
  have hlist := congrArg Text.points h
  -- Behind the bracket come digits, and what ends them is no digit.
  simp only [Step.text, Text.points_append, List.append_assoc] at hlist
  rcases Tree.integerText_append_inj (by decide)
    (List.append_cancel_left (List.append_cancel_left hlist)) with ⟨hindex, hrest⟩
  exact ⟨Analyzed.integerText_natCast_inj.1 hindex, Text.points_injective hrest⟩

end Wire

namespace Stage

open Wire

variable {stage : Stage} {items : List Json} {d : Defect}

/-- A defect of a response is one of its items. -/
theorem readNodes_eq_defective :
    stage.readNodes (.arr items) = .defective d ↔
      itemsFrom (stageNode stage nestingLimit) 0 items = .error (.defective d) := by
  rw [readNodes]
  split
  · rename_i hread
    rw [hread]
    exact ⟨nofun, nofun⟩
  · rename_i hread
    rw [hread]
    exact ⟨fun h => by cases h; rfl, fun h => by cases h; rfl⟩
  · rename_i hread
    rw [hread]
    exact ⟨nofun, nofun⟩

/-- A failure of a response is the one of the first node that cannot be read, and of the first
    defect in it. The nodes in front of it are read by themselves, and so are the parts of it
    that stand in front of the place where the defect comes up. The nodes after it do not
    matter: with others in their place, reading fails in the same way. -/
theorem first_defect_is_reported {i : Nat} {message path suffix : Text}
    {received expected : Option Text}
    (h : (stage.readResponse (.arr items)).result =
      .error (.failure (.decode message path received expected)))
    (hpath : path = responseRoot ++ (Step.index i).text ++ suffix) :
    (∀ other ∈ items.take i, ∃ node, ∀ start, stage.readNode start other = .ok node) ∧
    (∃ item d, items[i]? = some item ∧
      stageNode stage nestingLimit item = .error (.defective d) ∧
      Failure.decode message path received expected =
        d.failure (responseRoot ++ (Step.index i).text) ∧
      ∀ steps inner part, Part (.node stage) item steps inner part →
        Precedes (.node stage) item steps d.due → inner.Reads part) ∧
    ∀ rest, stage.readResponse (.arr (items.take (i + 1) ++ rest)) =
      stage.readResponse (.arr items) := by
  rcases readResponse_eq_decode h with ⟨d, hdefective, hfailure⟩
  rcases exists_of_itemsFrom_defective (readNodes_eq_defective.1 hdefective) with
    ⟨front, item, others, inner, rfl, hfront, hitem, rfl⟩
  rw [Nat.zero_add] at hfailure
  have hinner := hfailure
  rw [Defect.failure, pathText_cons] at hinner
  -- The index in the path counts the nodes in front.
  have hi : front.length = i := by
    rw [Failure.decode.injEq] at hinner
    exact (index_text_inj (hinner.2.1.symm.trans hpath)).1
  subst hi
  refine ⟨?_, ⟨item, inner, ?_, hitem, hinner, ?_⟩, fun rest => ?_⟩
  · rw [List.take_left]
    intro other hother
    rcases hfront other hother with ⟨node, hnode⟩
    exact ⟨node, fun start => readNode_eq_ok.2 hnode⟩
  · rw [List.getElem?_append_right (Nat.le_refl _), Nat.sub_self]
    rfl
  · have horder := stageNode_inOrder stage (Nat.le_refl nestingLimit) item
    rw [hitem] at horder
    exact horder
  · rw [List.take_length_add_append, List.take_succ_cons, List.take_zero, List.append_assoc]
    have hother := readNodes_eq_defective.2 (itemsFrom_of_defective hfront hitem rest)
    rw [List.singleton_append, readResponse, readResponse, hother, hdefective]

/-- A pair without a second part stands behind the empty list: whatever takes the place of the
    last node, the pair is blamed, and its first part is read by itself. -/
theorem pair_without_cdr_is_reported :
    let pair := .obj [("type", .str "ScmPair"),
      ("value", .obj [("car", .obj [("type", .str "ScmNil")])])]
    let items := [.obj [("type", .str "ScmNil")], pair, .null]
    (Stage.reader.readResponse (.arr items)).result = .error (.failure (.decode
      "Missing field 'cdr'" "$[1].value" (some "\x7b'car': \x7b'type': 'ScmNil'\x7d\x7d") none)) ∧
    (Role.node .reader).Reads (.obj [("type", .str "ScmNil")]) ∧
    ∀ rest, Stage.reader.readResponse (.arr (items.take 2 ++ rest)) =
      Stage.reader.readResponse (.arr items) := by
  intro pair items
  have hresult : (Stage.reader.readResponse (.arr items)).result = .error (.failure (.decode
      "Missing field 'cdr'" "$[1].value" (some "\x7b'car': \x7b'type': 'ScmNil'\x7d\x7d") none)) :=
    rfl
  have hpath : "$[1].value" = responseRoot ++ (Step.index 1).text ++ ".value" := rfl
  rcases first_defect_is_reported hresult hpath with ⟨_, ⟨item, d, hitem, hd, _, hparts⟩, hrest⟩
  refine ⟨hresult, ?_, hrest⟩
  cases hitem
  cases hd
  -- The first part stands in the slot in front of the one that the defect comes up in.
  exact hparts [.key "value", .key "car"] (.node .reader) _
    (.slot (s := .field "car" (.node .reader)) List.mem_cons_self rfl (.whole _ _))
    (.apart (s := .field "car" (.node .reader)) (t := .field "cdr" (.node .reader))
      (List.Sublist.refl _) [] [])

end Stage

end StageTree
