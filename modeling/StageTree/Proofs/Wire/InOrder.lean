import StageTree.Proofs.Wire.FirstDefect

/-!
# Readers Go in Order

Every reader goes along the slots of what it reads, so it reports the first defect. There is
one case for each tag of a node: the fields that its reader reads are the slots that the format
has, and they are read one after the other.

An element with no parts has no slots, and its only defect is its own. The readers that go down
into a value are given the readers for the parts of a node. That these go in order is an
assumption about the node's reader, and the induction on the room discharges it.

## Theorems

* `sexprNode_advances`, `parsedNode_advances`, `analyzedNode_advances`: One node, given its parts.
* `stageNode_inOrder`: Nodes of a stage.
-/

namespace StageTree

namespace Wire

variable {α : Type} {room : Nat} {j : Json}

/-! ## The slots of an element -/

-- Only bare parameter lists have slots without a tag.
theorem Role.slots_eq {role : Role} (h : role ≠ .parameters ∨ ∀ items, j ≠ .arr items) :
    role.slots j = (tag? j).elim [] fun tag => role.slotsOfTag j tag := by
  unfold slots
  split
  · rcases h with hrole | hj
    · exact absurd rfl hrole
    · exact absurd rfl (hj _)
  · rfl

/-- The tag of a node is the one that is read. -/
theorem IsNode.tag?_eq {node : Node} (hnode : IsNode j node) : tag? j = some node.tag := by
  unfold tag?
  rw [hnode.tag]

/-- The parts of a node are those of its tag. -/
theorem IsNode.slots_eq {node : Node} (hnode : IsNode j node) (role : Role) :
    role.slots j = role.slotsOfTag j node.tag := by
  have hobj : ∀ items, j ≠ .arr items := by
    intro items hitems
    -- A node is an object, and no array.
    cases hnode.members.symm.trans hitems
  rw [Role.slots_eq (Or.inr hobj), hnode.tag?_eq]
  rfl

/-- What is read as a node goes along the slots of its tag. -/
theorem advances_node {role : Role} {f : Node → Reading α}
    (hf : ∀ node, IsNode j node → Advances (role.slotsOfTag j node.tag) j (f node)) :
    Advances (role.slots j) j (nodeOf room j >>= f) := by
  refine advances_nodeOf fun node hnode => ?_
  rw [hnode.slots_eq]
  exact hf node hnode

/-- What is read as a list goes along its items. -/
theorem advances_list (role : Role) {item : Role} {read : Json → Reading α}
    (hread : ∀ part, InOrder item part (read part))
    (hslots : ∀ tag, role.slotsOfTag j tag = Slot.listItems item j)
    (hrole : role ≠ .parameters ∨ ∀ items, j ≠ .arr items) :
    Advances (role.slots j) j (onList room read j) := by
  rw [Role.slots_eq hrole]
  cases tag? j with
  | none => exact advances_nil _
  | some tag =>
      rw [Option.elim_some, hslots]
      exact advances_onList hread

/-! ## Elements with no parts -/

theorem inOrder_leaf {role : Role} (hroom : room ≤ nestingLimit) (hrole : role ≠ .parameters)
    (hleaf : ∀ tag, role.slotsOfTag j tag = []) : InOrder role j (role.read room j) := by
  refine inOrder_of_advances hroom ?_
  have hslots : role.slots j = [] := by
    rw [Role.slots_eq (Or.inl hrole)]
    cases tag? j with
    | none => rfl
    | some tag => exact hleaf tag
  rw [hslots]
  exact advances_nil _

section Small

variable (hroom : room ≤ nestingLimit)

include hroom

theorem text_inOrder (j : Json) : InOrder .text j (text room j) :=
  @inOrder_leaf room j .text hroom nofun fun _ => rfl

theorem varName_inOrder (j : Json) : InOrder .name j (varName room j) :=
  @inOrder_leaf room j .name hroom nofun fun _ => rfl

theorem integer_inOrder (j : Json) : InOrder .integer j (integer room j) :=
  @inOrder_leaf room j .integer hroom nofun fun _ => rfl

theorem index_inOrder (j : Json) : InOrder .index j (index room j) :=
  @inOrder_leaf room j .index hroom nofun fun _ => rfl

theorem callWord_inOrder (j : Json) : InOrder .callWord j (callWord room j) :=
  @inOrder_leaf room j .callWord hroom nofun fun _ => rfl

/-! ## Parts of expressions -/

theorem names_inOrder (j : Json) : InOrder .parameters j (names room j) := by
  refine @inOrder_of_advances room j .parameters hroom ?_
  cases j with
  -- Parameters stand in a bare array or in a list with a tag.
  | arr items => exact advances_items fun item _ => text_inOrder hroom item
  | _ => exact advances_list .parameters (text_inOrder hroom) (fun _ => rfl) (Or.inr nofun)

/-- Variables of the second stage are read in order. -/
theorem parsedVar_inOrder (j : Json) : InOrder .parsedVariable j (parsedVar room j) := by
  refine @inOrder_of_advances room j .parsedVariable hroom (advances_node fun node hnode => ?_)
  split
  · exact advances_only (advances_field hnode (varName_inOrder hroom) "name")
  · exact advances_reject rfl

/-- Kinds of parameter lists are read in order. -/
theorem lambdaKind_inOrder (j : Json) : InOrder .lambdaKind j (lambdaKind room j) := by
  refine @inOrder_of_advances room j .lambdaKind hroom (advances_node fun node hnode => ?_)
  change Advances (lambdaKindSlots node.tag) j _
  split
  · rename_i htag
    rw [htag]
    exact advances_nil _
  · rename_i htag
    rw [htag]
    exact advances_last (advances_field hnode (text_inOrder hroom) "opt")
  · exact advances_reject rfl

/-- Addresses are read in order: the major index before the minor one. -/
theorem address_inOrder (j : Json) : InOrder .address j (address room j) := by
  refine @inOrder_of_advances room j .address hroom (advances_node fun node hnode => ?_)
  have hindex (key : Text) :
      (Slot.field key .index).Advances j (onField room node key (index room)) :=
    advances_field hnode (index_inOrder hroom) key
  change Advances (addressSlots node.tag) j _
  split
  · rename_i htag
    rw [htag]
    exact advances_nil _
  · rename_i htag
    rw [htag]
    exact advances_last (hindex "minor")
  · rename_i htag
    rw [htag]
    exact advances_cons (hindex "major") fun _ _ => advances_last (hindex "minor")
  · exact advances_reject rfl

/-- Variables of the third stage are read in order: the name before the address. -/
theorem analyzedVar_inOrder (j : Json) : InOrder .analyzedVariable j (analyzedVar room j) := by
  refine @inOrder_of_advances room j .analyzedVariable hroom (advances_node fun node hnode => ?_)
  split
  · refine advances_cons (advances_field hnode (varName_inOrder hroom) "name") fun _ _ => ?_
    exact advances_last (advances_field hnode (address_inOrder hroom) "lexical_address")
  · exact advances_reject rfl

/-- Kinds of calls are read in order. -/
theorem callKind_inOrder (j : Json) : InOrder .callKind j (callKind room j) := by
  refine @inOrder_of_advances room j .callKind hroom (advances_node fun node hnode => ?_)
  split
  · exact advances_only (advances_value hnode (callWord_inOrder hroom))
  · exact advances_reject rfl

end Small

/-! ## Nodes of the stages -/

theorem list_inOrder {stage : Stage} (hroom : room ≤ nestingLimit)
    (hitem : ∀ item, InOrder (.node stage) item (readItem (stageNode stage) room item))
    (j : Json) : InOrder (.list stage) j (onList room (readItem (stageNode stage) room) j) :=
  @inOrder_of_advances room j (.list stage) hroom
    (advances_list (.list stage) hitem (fun _ => rfl) (Or.inl nofun))

/-- Nodes of a stage are read in order, if they are whenever their parts and the items of their
    lists are. -/
theorem stageNode_inOrder_of_step {stage : Stage}
    (hstep : ∀ room ≤ nestingLimit,
      (∀ part, InOrder (.node stage) part (stageNode stage room part)) →
      (∀ item, InOrder (.node stage) item (readItem (stageNode stage) room item)) →
      ∀ j, Advances ((Role.node stage).slots j) j (stageNode stage (room + 1) j))
    (hroom : room ≤ nestingLimit) (j : Json) :
    InOrder (.node stage) j (stageNode stage room j) := by
  induction room using Nat.strongRecOn generalizing j with
  | _ room ih =>
    cases room with
    | zero => cases stage <;> trivial
    | succ room =>
        -- Parts have one unit of room less, and items of lists three units less or none at all.
        have hpart := ih room (Nat.lt_succ_self room) (by omega)
        refine @inOrder_of_advances (room + 1) j (.node stage) hroom
          (hstep room (by omega) hpart ?_ j)
        intro item
        rcases readItem_cases (stageNode stage) room with ⟨below, rfl, hread⟩ | ⟨_, hread⟩
        · rw [hread]
          exact ih below (by omega) (by omega) item
        · rw [hread]
          trivial

section Node

variable {node : Node} (hnode : IsNode j node) (hroom : room ≤ nestingLimit)

include hnode hroom

-- One case for each tag. The fields are read in the order of the slots.
theorem sexprNode_advances {part element : Json → Reading Sexpr}
    (hpart : ∀ j, InOrder (.node .reader) j (part j))
    (helement : ∀ j, InOrder (.node .reader) j (element j)) :
    Advances (sexprSlots j node.tag) j (sexprNode room part element node) := by
  have hinteger (key : Text) :
      (Slot.field key .integer).Advances j (onField room node key (integer room)) :=
    advances_field hnode (integer_inOrder hroom) key
  have htext : (Slot.value .text).Advances j (onValue room node (text room)) :=
    advances_value hnode (text_inOrder hroom)
  unfold sexprNode
  split
  · rename_i htag
    rw [htag]
    exact advances_nil _
  · rename_i htag
    rw [htag]
    exact advances_nil _
  · rename_i htag
    rw [htag]
    exact advances_cons (hinteger "numerator") fun _ _ => advances_last (hinteger "denominator")
  · rename_i htag
    rw [htag]
    exact advances_last htext
  · rename_i htag
    rw [htag]
    exact advances_last htext
  · rename_i htag
    rw [htag]
    exact advances_last htext
  · rename_i htag
    rw [htag, hnode.whole]
    exact Ends.map (advances_onList helement)
  · rename_i htag
    rw [htag]
    refine advances_cons (advances_field hnode hpart "car") fun _ _ => ?_
    exact advances_last (advances_field hnode hpart "cdr")
  · rw [hnode.whole]
    exact advances_reject rfl

end Node

/-- Values are read in the order in which they are written. -/
theorem sexpr_inOrder (hroom : room ≤ nestingLimit) (j : Json) :
    InOrder (.node .reader) j (sexpr room j) := by
  refine @stageNode_inOrder_of_step room .reader ?_ hroom j
  intro room hroom hpart helement j
  change Advances _ j (sexpr (room + 1) j)
  rcases sexpr_succ_cases room j with ⟨_, rfl, _⟩ | ⟨_, rfl, _⟩ | ⟨_, rfl, _⟩ | hnode
  -- Bare truth values and numbers have no parts.
  · exact advances_nil _
  · exact advances_nil _
  · exact advances_nil _
  · rw [hnode]
    exact advances_node fun node hnode => sexprNode_advances hnode hroom hpart helement

section Node

variable {node : Node} (hnode : IsNode j node) (hroom : room ≤ nestingLimit)

include hnode hroom

-- The cases are those of the tags again. A constant is read in order by what is known of reader
-- values.
theorem parsedNode_advances {part element : Json → Reading Parsed.Expr}
    (hpart : ∀ j, InOrder (.node .tagParser) j (part j))
    (helement : ∀ j, InOrder (.list .tagParser) j (onList room element j)) :
    Advances (parsedSlots node.tag) j (parsedNode room part element node) := by
  have hexpr (key : Text) :
      (Slot.field key (.node .tagParser)).Advances j (onField room node key part) :=
    advances_field hnode hpart key
  have hexprs (key : Text) :
      (Slot.field key (.list .tagParser)).Advances j
        (onField room node key (onList room element)) :=
    advances_field hnode helement key
  have hvar : (Slot.field "var" .parsedVariable).Advances j
      (onField room node "var" (parsedVar room)) :=
    advances_field hnode (parsedVar_inOrder hroom) "var"
  unfold parsedNode
  split
  · rename_i htag
    rw [htag]
    exact advances_last (advances_field hnode (sexpr_inOrder hroom) "sexpr")
  · rename_i htag
    rw [htag]
    exact advances_last hvar
  · rename_i htag
    rw [htag]
    exact advances_cons (hexpr "test") fun _ _ => advances_cons (hexpr "dit") fun _ _ =>
      advances_last (hexpr "dif")
  · rename_i htag
    rw [htag]
    exact advances_last (hexprs "exprs")
  · rename_i htag
    rw [htag]
    exact advances_last (hexprs "exprs")
  · rename_i htag
    rw [htag]
    exact advances_cons hvar fun _ _ => advances_last (hexpr "val")
  · rename_i htag
    rw [htag]
    exact advances_cons hvar fun _ _ => advances_last (hexpr "val")
  · rename_i htag
    rw [htag]
    refine advances_cons (advances_field hnode (names_inOrder hroom) "params") fun _ _ => ?_
    refine advances_cons (advances_field hnode (lambdaKind_inOrder hroom) "kind") fun _ _ => ?_
    exact advances_last (hexpr "body")
  · rename_i htag
    rw [htag]
    exact advances_cons (hexpr "applicative") fun _ _ => advances_last (hexprs "params")
  · rw [hnode.whole]
    exact advances_reject rfl

/-- Nodes of the third stage read their parts one after the other, in the order of their slots. -/
theorem analyzedNode_advances {part element : Json → Reading Analyzed.Expr}
    (hpart : ∀ j, InOrder (.node .semanticAnalyzer) j (part j))
    (helement : ∀ j, InOrder (.list .semanticAnalyzer) j (onList room element j)) :
    Advances (analyzedSlots node.tag) j (analyzedNode room part element node) := by
  have hexpr (key : Text) :
      (Slot.field key (.node .semanticAnalyzer)).Advances j (onField room node key part) :=
    advances_field hnode hpart key
  have hexprs (key : Text) :
      (Slot.field key (.list .semanticAnalyzer)).Advances j
        (onField room node key (onList room element)) :=
    advances_field hnode helement key
  have hvar : (Slot.field "var" .analyzedVariable).Advances j
      (onField room node "var" (analyzedVar room)) :=
    advances_field hnode (analyzedVar_inOrder hroom) "var"
  unfold analyzedNode
  split
  · rename_i htag
    rw [htag]
    exact advances_last (advances_field hnode (sexpr_inOrder hroom) "sexpr")
  · rename_i htag
    rw [htag]
    exact advances_last hvar
  · rename_i htag
    rw [htag]
    exact advances_last hvar
  · rename_i htag
    rw [htag]
    exact advances_last hvar
  · rename_i htag
    rw [htag]
    exact advances_cons (hexpr "test") fun _ _ => advances_cons (hexpr "dit") fun _ _ =>
      advances_last (hexpr "dif")
  · rename_i htag
    rw [htag]
    exact advances_last (hexprs "exprs")
  · rename_i htag
    rw [htag]
    exact advances_last (hexprs "exprs")
  · rename_i htag
    rw [htag]
    exact advances_cons hvar fun _ _ => advances_last (hexpr "val")
  · rename_i htag
    rw [htag]
    exact advances_cons hvar fun _ _ => advances_last (hexpr "val")
  · rename_i htag
    rw [htag]
    exact advances_cons hvar fun _ _ => advances_last (hexpr "val")
  · rename_i htag
    rw [htag]
    refine advances_cons (advances_field hnode (names_inOrder hroom) "params") fun _ _ => ?_
    exact advances_last (hexpr "body")
  · rename_i htag
    rw [htag]
    refine advances_cons (hexpr "applicative") fun _ _ => ?_
    refine advances_cons (hexprs "params") fun _ _ => ?_
    exact advances_last (advances_field hnode (callKind_inOrder hroom) "kind")
  · rw [hnode.whole]
    exact advances_reject rfl

end Node

/-- Expressions of the second stage are read in the order in which they are written. -/
theorem parsed_inOrder (hroom : room ≤ nestingLimit) (j : Json) :
    InOrder (.node .tagParser) j (parsed room j) := by
  refine @stageNode_inOrder_of_step room .tagParser ?_ hroom j
  intro room hroom hpart helement j
  change Advances _ j (parsed (room + 1) j)
  rw [parsed_succ]
  exact advances_node fun node hnode =>
    parsedNode_advances hnode hroom hpart (list_inOrder hroom helement)

/-- Expressions of the third stage are read in the order in which they are written. -/
theorem analyzed_inOrder (hroom : room ≤ nestingLimit) (j : Json) :
    InOrder (.node .semanticAnalyzer) j (analyzed room j) := by
  refine @stageNode_inOrder_of_step room .semanticAnalyzer ?_ hroom j
  intro room hroom hpart helement j
  change Advances _ j (analyzed (room + 1) j)
  rw [analyzed_succ]
  exact advances_node fun node hnode =>
    analyzedNode_advances hnode hroom hpart (list_inOrder hroom helement)

/-- Every stage reads its nodes in the order in which they are written. -/
theorem stageNode_inOrder (stage : Stage) (hroom : room ≤ nestingLimit) (j : Json) :
    InOrder (.node stage) j (stageNode stage room j) := by
  cases stage with
  | reader => exact sexpr_inOrder hroom j
  | tagParser => exact parsed_inOrder hroom j
  | semanticAnalyzer => exact analyzed_inOrder hroom j

end Wire

end StageTree
