import StageTree.Proofs.Height
import StageTree.Proofs.Shown

/-!
# Deep Responses

What becomes of responses that nest deeply. Where nodes are read and shown, depth is looked out
for: a node that is too deep is reported as such. Two places are left over.

A response that is no array is shown in the message about it. It may be too deep for that, and
then nothing reports its depth.

A tree that was shown is put out as text or as data, and each takes room for the levels of the
tree. There was room for the node, and so there is for the text. Data takes more room, and
there is none left as soon as the tree has more levels than half of it. For that the response
must be deep: none that is two levels below the limit is too deep for the data of its tree.

## Main definitions

* `Wire.nilChain`: Documents of any depth.

## Theorems

* `Session.depth_is_reported`: How showing a response can fail.
* `Session.shown_tree_puts_out`: When a tree that was shown has a text, and when it has data.
* `Session.showResponse_nilChain`: The trees of a family of documents.
-/

namespace StageTree

open StageTree.Tree Wire

/-! ## What responses are -/

namespace Stage

variable {stage : Stage} {j : Json}

/-- A response that is no array has no nodes, and is shown in the message if it can be. -/
theorem readNodes_of_not_array (h : ∀ items, j ≠ .arr items) :
    stage.readNodes j =
      if j.nesting ≤ nestingLimit then .defective ⟨[], .notNodes, j⟩ else .outOfRoom := by
  cases j with
  | arr items => exact absurd rfl (h items)
  | _ => rfl

/-- The nodes of a response are those of its items. -/
theorem readNodes_eq_nodes {nodes : List stage.Node} :
    stage.readNodes j = .nodes nodes ↔ ∃ items, j = .arr items ∧
      List.Forall₂ (fun item node => stageNode stage nestingLimit item = .ok node)
        items nodes := by
  constructor
  · intro h
    -- The items of an array are read one by one, and whatever else there is has no nodes.
    by_cases harray : ∃ items, j = .arr items
    · rcases harray with ⟨items, rfl⟩
      refine ⟨items, rfl, ?_⟩
      rw [readNodes] at h
      split at h
      · rename_i hread
        cases h
        exact itemsFrom_eq_ok.1 hread
      · cases h
      · cases h
    · rw [readNodes_of_not_array (not_exists.1 harray)] at h
      split at h <;> cases h
  · rintro ⟨items, rfl, h⟩
    rw [readNodes, itemsFrom_eq_ok.2 h]

/-- Only a response that is no array is too deep to be shown. -/
theorem readNodes_eq_outOfRoom :
    stage.readNodes j = .outOfRoom ↔ (∀ items, j ≠ .arr items) ∧ nestingLimit < j.nesting := by
  constructor
  · intro h
    by_cases harray : ∃ items, j = .arr items
    · rcases harray with ⟨items, rfl⟩
      rw [readNodes] at h
      split at h <;> cases h
    · have hno := not_exists.1 harray
      rw [readNodes_of_not_array hno] at h
      split at h
      · cases h
      · rename_i hdeep
        exact ⟨hno, Nat.not_le.1 hdeep⟩
  · rintro ⟨hno, hdeep⟩
    rw [readNodes_of_not_array hno, if_neg (Nat.not_le.2 hdeep)]

end Stage

/-! ## Deep documents -/

namespace Wire

/-- The document of the empty list. -/
def nilNode : Json := .obj [("type", .str "ScmNil")]

/-- The document of a list that holds the empty list some times. -/
def nilChain : Nat → Json
  | 0 => nilNode
  | n + 1 =>
    .obj [("type", .str "ScmPair"), ("value", .obj [("car", nilNode), ("cdr", nilChain n)])]

/-- The list that holds the empty list some times. -/
def nils (n : Nat) : Sexpr := .ofList (List.replicate n .nil) .nil

theorem nilChain_denotes (n : Nat) : Denotes (nilChain n) (nils n) := by
  induction n with
  | zero => exact .nil rfl
  | succ n ih => exact .pair rfl rfl rfl (.nil rfl) ih

theorem nesting_nilChain (n : Nat) : (nilChain n).nesting = 2 * n + 1 := by
  induction n with
  | zero => rfl
  | succ n ih =>
      -- A pair nests two levels deeper: its own object, and the one with its two parts.
      simp only [nilChain, Json.nesting, Json.nestingOfMembers, ih, nilNode]
      omega

theorem nesting_nils (n : Nat) : (nils n).nesting = n + 1 := by
  induction n with
  | zero => rfl
  | succ n ih =>
      change max 1 (nils n).nesting + 1 = n + 1 + 1
      omega

theorem height_nils (n : Nat) : (nils n).tree.height = n + 1 := by
  induction n with
  | zero => rfl
  | succ n ih =>
      -- A pair is one line above its children, so the height grows half as fast as the nesting.
      change max 1 (max (nils n).tree.height 0) + 1 = n + 1 + 1
      omega

end Wire

/-! ## Responses that are not shown -/

namespace Session

variable {stage : Stage} {j : Json} {t : Tree}

/-- Showing a response fails for a defect of it or for its depth, and both are reported. Only
    the depth of a response that is no array, and too deep to be shown, is not. -/
theorem depth_is_reported (stage : Stage) (j : Json) :
    (∀ trouble, (showResponse stage j).result = .error trouble → trouble ≠ .outOfRoom →
      (∃ d, Located j d ∧ trouble = .failure (d.failure Stage.responseRoot)) ∨
        trouble = .failure (.nesting stage.name "decoding")) ∧
    ((showResponse stage j).result = .error .outOfRoom ↔
      (∀ items, j ≠ .arr items) ∧ nestingLimit < j.nesting) := by
  -- Showing nodes does not fail, so what fails is reading them.
  have hfails (trouble : Trouble) : (showResponse stage j).result = .error trouble ↔
      (stage.readResponse j).result = .error trouble := by
    rw [result_showResponse]
    cases (stage.readResponse j).result with
    | ok nodes => exact ⟨nofun, nofun⟩
    | error other => rw [Except.map, Except.error.injEq, Except.error.injEq]
  refine ⟨fun trouble h hreported => ?_, ?_⟩
  · rcases Stage.readResponse_eq_error ((hfails trouble).1 h) with hdefect | ⟨_, hdeep | hdeep⟩
    · exact Or.inl hdefect
    · exact Or.inr hdeep
    · exact absurd hdeep hreported
  · rw [hfails, Stage.result_readResponse, ← Stage.readNodes_eq_outOfRoom]
    cases stage.readNodes j with
    | outOfRoom => exact iff_of_true rfl rfl
    | _ => exact iff_of_false nofun nofun

/-- A list of fifteen hundred empty lists that is not in an array is too deep for the message
    that it is in none. -/
theorem deep_list_is_not_reported :
    (showResponse .reader (nilChain 1500)).result = .error .outOfRoom := by
  have hno : ∀ items, nilChain 1500 ≠ .arr items := nofun
  -- The nesting is computed by the lemma on the whole family, not by evaluation.
  have hdeep : nestingLimit < (nilChain 1500).nesting := by
    rw [nesting_nilChain]
    decide
  rw [result_showResponse, Stage.result_readResponse,
    Stage.readNodes_eq_outOfRoom.2 ⟨hno, hdeep⟩]
  rfl

/-! ## Trees that were shown -/

/-- A response that was shown is an array of nodes, and the last one is what was shown of it. -/
theorem exists_nodes_of_showResponse {shown : Option Tree}
    (h : (showResponse stage j).result = .ok shown) :
    ∃ items nodes, j = .arr items ∧
      List.Forall₂ (fun item node => stageNode stage nestingLimit item = .ok node) items nodes ∧
      shown = nodes.getLast?.map stage.tree := by
  rw [result_showResponse] at h
  cases hread : (stage.readResponse j).result with
  | error trouble =>
      rw [hread] at h
      cases h
  | ok nodes =>
      rw [hread] at h
      rcases Stage.readNodes_eq_nodes.1 (Stage.readNodes_of_ok hread) with ⟨items, rfl, hall⟩
      exact ⟨items, nodes, rfl, hall, (Except.ok.inj h).symm⟩

/-- A tree that was shown is the tree of a node that was read. -/
theorem exists_of_showResponse (h : (showResponse stage j).result = .ok (some t)) :
    ∃ items item node, j = .arr items ∧ item ∈ items ∧
      stageNode stage nestingLimit item = .ok node ∧ t = stage.tree node := by
  rcases exists_nodes_of_showResponse h with ⟨items, nodes, rfl, hall, hlast⟩
  rcases Option.map_eq_some_iff.1 hlast.symm with ⟨node, hnode, rfl⟩
  rcases exists_item_of_mem hall (List.mem_of_getLast? hnode) with ⟨item, hitem, hread⟩
  exact ⟨items, item, node, rfl, hitem, hread, rfl⟩

/-- The list of a document in the family is shown as long as there is room for its pairs. -/
theorem showResponse_nilChain {n : Nat} (h : n < nestingLimit) :
    (showResponse .reader (.arr [nilChain n])).result = .ok (some (nils n).tree) := by
  -- Reading takes one unit of room for a pair, and a document denotes one value only.
  have hread : stageNode .reader nestingLimit (nilChain n) = .ok (nils n) := by
    refine (sexpr_inRoom nestingLimit _ _ (nilChain_denotes n)).trans (inRoom_of_le ?_ _)
    rw [nesting_nils]
    exact h
  have hnodes : Stage.reader.readNodes (.arr [nilChain n]) = .nodes [nils n] :=
    Stage.readNodes_eq_nodes.2 ⟨_, rfl, .cons hread .nil⟩
  rw [result_showResponse, Stage.result_readResponse, hnodes]
  rfl

/-- A tree that was shown has a text, at whatever level and with whatever indentation. It has
    data too, unless it has more levels than there is room for at two units each, and then the
    response is hardly below the limit itself. -/
theorem shown_tree_puts_out (h : (showResponse stage j).result = .ok (some t)) :
    (∀ level step, t.text? level step = .ok (t.text level step)) ∧
    (t.toJson? = .ok t.toJson ∨
      t.toJson? = .error .tooDeep ∧ nestingLimit < dataStep * t.height ∧
        nestingLimit < j.nesting + 2) := by
  rcases exists_of_showResponse h with ⟨items, item, node, rfl, hitem, hread, rfl⟩
  -- The tree is hardly higher than the response nests, and there was room to read that.
  have hheight := stage.height_tree_le node
  have hroom := Stage.nesting_le_of_stageNode hread
  refine ⟨fun level step => if_pos ?_, ?_⟩
  · rw [printingLimit]
    omega
  · by_cases hdata : dataStep * (stage.tree node).height ≤ nestingLimit
    · exact Or.inl (if_pos hdata)
    · -- Data take twice the room for a level, which is more than reading took.
      have hlevels := Stage.data_tree_le hread
      have hnesting := Json.nesting_le_of_mem_items hitem
      refine Or.inr ⟨if_neg hdata, Nat.not_le.1 hdata, ?_⟩
      rw [Json.nesting]
      omega

/-- A short list has both. -/
theorem short_list_puts_out :
    (showResponse .reader (.arr [nilChain 1])).result = .ok (some (nils 1).tree) ∧
    (nils 1).tree.text? rootLevel usualStep = .ok "Pair\n  '()\n  '()" ∧
    (nils 1).tree.toJson? = .ok (nils 1).tree.toJson := by
  have hshown := showResponse_nilChain (n := 1) (by decide)
  rcases shown_tree_puts_out hshown with ⟨htext, hdata⟩
  refine ⟨hshown, (htext rootLevel usualStep).trans rfl, hdata.resolve_right ?_⟩
  -- There is room for the data of a list this short.
  rintro ⟨_, hlevels, _⟩
  exact absurd hlevels (by decide)

/-- A list of seven hundred empty lists is shown and has a text, but it has no data. -/
theorem long_list_has_no_data :
    (showResponse .reader (.arr [nilChain 700])).result = .ok (some (nils 700).tree) ∧
    (∀ level step, (nils 700).tree.text? level step = .ok ((nils 700).tree.text level step)) ∧
    (nils 700).tree.toJson? = .error .tooDeep := by
  refine ⟨showResponse_nilChain (by decide), fun level step => if_pos ?_, if_neg ?_⟩
  · rw [height_nils]
    decide
  · rw [height_nils]
    decide

end Session

end StageTree
