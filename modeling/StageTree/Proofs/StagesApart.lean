import StageTree.Proofs.Depth

/-!
# Stages Are Kept Apart

No response is mistaken for one of another stage. Each stage has its own tags, and constants are
the one tag that two stages share. A constant has the same wire form in both, so it is read as
the same value or refused for the same defect, and it is shown the same but for the name of the
root.

Bare JSON values are reader values. Expressions are always nodes.

## Main definitions

* `Stage.tags`: The tags of a stage's nodes, which its vocabulary names.
* `Stage.RefusesWhole`: A stage refuses a document as a whole.

## Theorems

* `Stage.shared_tag`: The tag that two stages share is that of constants.
* `Stage.const_of_read_twice`: What two stages read is a constant.
* `Stage.refusesWhole_of_read`: The stages of expressions refuse all reader values.
* `Stage.const_read_alike`: Constants are read alike.
* `Session.stages_kept_apart`: What two stages have in common.
-/

namespace StageTree

namespace Stage

open Wire

variable {stage : Stage} {room : Nat} {j : Json} {tag : Text}

/-! ## Tags -/

/-- The tags of the nodes of a stage. -/
def tags : Stage → List Text
  | .reader =>
    ["ScmVoid", "ScmNil", "ScmRational", "ScmChar", "ScmString", "ScmSymbol", "OcamlList",
      "ScmPair"]
  | .tagParser =>
    ["ScmConst", "ScmVarGet", "ScmIf", "ScmSeq", "ScmOr", "ScmVarSet", "ScmVarDef", "ScmLambda",
      "ScmApplic"]
  | .semanticAnalyzer =>
    ["ScmConst", "ScmVarGetTag", "ScmBoxTag", "ScmBoxGetTag", "ScmIfTag", "ScmSeqTag",
      "ScmOrTag", "ScmVarSetTag", "ScmVarDefTag", "ScmBoxSetTag", "ScmLambdaTag",
      "ScmApplicTag"]

/-- The vocabulary of the tags of a stage. -/
def vocabulary : Stage → Vocabulary
  | .reader => .readerValue
  | .tagParser => .parsedExpression
  | .semanticAnalyzer => .analyzedExpression

/-- The only tag that two stages share is that of constants. -/
theorem shared_tag {s t : Stage} (hne : s ≠ t) (hs : tag ∈ s.tags) (ht : tag ∈ t.tags) :
    tag = "ScmConst" ∧ s ≠ .reader := by
  -- The lists are short, so all their tags are compared.
  have hall : ∀ tag ∈ s.tags, tag ∈ t.tags → tag = "ScmConst" ∧ s ≠ .reader := by
    cases s <;> cases t <;> first | exact absurd rfl hne | decide
  exact hall tag hs ht

/-- The reader refuses nodes with a tag that is none of its own. -/
theorem sexprNode_of_unknown {part element : Json → Reading Sexpr} {node : Wire.Node}
    (h : node.tag ∉ reader.tags) : sexprNode room part element node =
      reject room (.unknownTag .readerValue node.tag) node.whole := by
  simp only [tags, List.mem_cons, List.not_mem_nil, not_or] at h
  unfold sexprNode
  split <;> simp_all

/-- The tag parser refuses nodes with a tag that is none of its own. -/
theorem parsedNode_of_unknown {part element : Json → Reading Parsed.Expr} {node : Wire.Node}
    (h : node.tag ∉ tagParser.tags) : parsedNode room part element node =
      reject room (.unknownTag .parsedExpression node.tag) node.whole := by
  simp only [tags, List.mem_cons, List.not_mem_nil, not_or] at h
  unfold parsedNode
  split <;> simp_all

/-- The semantic analyzer refuses nodes with a tag that is none of its own. -/
theorem analyzedNode_of_unknown {part element : Json → Reading Analyzed.Expr}
    {node : Wire.Node} (h : node.tag ∉ semanticAnalyzer.tags) :
    analyzedNode room part element node =
      reject room (.unknownTag .analyzedExpression node.tag) node.whole := by
  simp only [tags, List.mem_cons, List.not_mem_nil, not_or] at h
  unfold analyzedNode
  split <;> simp_all

/-! ## What is read by tags -/

/-- A node with a tag of no node of the stage is refused for its tag. -/
theorem stageNode_of_unknown (stage : Stage) (htag : Tagged j tag) (h : tag ∉ stage.tags) :
    stageNode stage (room + 1) j = reject room (.unknownTag stage.vocabulary tag) j := by
  rcases exists_node htag with ⟨members, hnode, hread⟩
  cases stage with
  -- The tag is looked at after the node is recognised, so the refusal is about the whole node.
  | reader => exact (sexpr_succ hnode).trans (sexprNode_of_unknown h)
  | tagParser =>
      change parsed (room + 1) j = _
      rw [parsed_succ, hread, ok_bind, parsedNode_of_unknown h]
      rfl
  | semanticAnalyzer =>
      change analyzed (room + 1) j = _
      rw [analyzed_succ, hread, ok_bind, analyzedNode_of_unknown h]
      rfl

/-- Expressions are always nodes. -/
theorem stageNode_of_bare (hstage : stage ≠ .reader) (h : ∀ members, j ≠ .obj members) :
    stageNode stage (room + 1) j = reject room .notObject j := by
  have hnode {α : Type} (f : Wire.Node → Reading α) :
      (nodeOf room j >>= f) = reject room .notObject j := by
    have hmembers : membersOf room j = reject room .notObject j := by
      cases j with
      | obj members => exact absurd rfl (h members)
      | _ => rfl
    unfold nodeOf tagOf
    rw [hmembers]
    unfold reject
    split <;> rfl
  cases stage with
  | reader => exact absurd rfl hstage
  | tagParser => exact (parsed_succ room j).trans (hnode _)
  | semanticAnalyzer => exact (analyzed_succ room j).trans (hnode _)

-- The form of what was read has the tag, one case for each rule of the form. The bare values are
-- forms of the reader's that have none.
/-- What a stage reads is a node with one of its tags, unless it is a bare value. -/
theorem tag_of_stageNode {node : stage.Node} (h : stageNode stage room j = .ok node) :
    (stage = .reader ∧ ∀ members, j ≠ .obj members) ∨ ∃ tag ∈ stage.tags, Tagged j tag := by
  cases stage with
  | reader =>
      cases sexpr_sound room j node h with
      | boolean => exact .inl ⟨rfl, fun _ => nofun⟩
      | float => exact .inl ⟨rfl, fun _ => nofun⟩
      | integer => exact .inl ⟨rfl, fun _ => nofun⟩
      | vector hlist =>
          refine .inr ⟨_, ?_, hlist.1⟩
          decide
      | _ =>
          refine .inr ⟨_, ?_, ‹Tagged _ _›⟩
          decide
  | tagParser =>
      right
      cases parsed_sound room j node h <;> refine ⟨_, ?_, ‹Tagged _ _›⟩ <;> decide
  | semanticAnalyzer =>
      right
      cases analyzed_sound room j node h <;> refine ⟨_, ?_, ‹Tagged _ _›⟩ <;> decide

/-- A document has one tag at most. -/
theorem tagged_unique {other : Text} (h : Tagged j tag) (hother : Tagged j other) :
    tag = other := by
  unfold Tagged at h hother
  rw [h] at hother
  cases hother
  rfl

/-- Only objects have tags. -/
theorem not_tagged_of_bare (h : ∀ members, j ≠ .obj members) : ¬Tagged j tag := by
  intro htag
  rcases exists_node htag with ⟨members, hnode, -⟩
  exact h members hnode.members

theorem eq_of_ne_reader (h : stage ≠ .reader) : stage = .tagParser ∨ stage = .semanticAnalyzer := by
  cases stage with
  | reader => exact absurd rfl h
  | tagParser => exact .inl rfl
  | semanticAnalyzer => exact .inr rfl

/-- What two stages read is a constant, and neither of them is the reader. -/
theorem const_of_read_twice {s t : Stage} (hne : s ≠ t) {node : s.Node} {other : t.Node}
    {rest : Nat} (hs : stageNode s room j = .ok node) (ht : stageNode t rest j = .ok other) :
    Tagged j "ScmConst" ∧ s ≠ .reader ∧ t ≠ .reader := by
  rcases tag_of_stageNode hs with ⟨rfl, hbare⟩ | ⟨tag, hmem, htag⟩
  · -- A bare value is read by the reader only, and the other stage needs a tag.
    rcases tag_of_stageNode ht with ⟨rfl, -⟩ | ⟨_, -, htag⟩
    · exact absurd rfl hne
    · exact absurd htag (not_tagged_of_bare hbare)
  · -- The document has one tag only, and that is a tag of both stages.
    rcases tag_of_stageNode ht with ⟨-, hbare⟩ | ⟨other, hmem', htag'⟩
    · exact absurd htag (not_tagged_of_bare hbare)
    · cases tagged_unique htag htag'
      rcases shared_tag hne hmem hmem' with ⟨rfl, hs⟩
      exact ⟨htag, hs, (shared_tag hne.symm hmem' hmem).2⟩

/-! ## Refusals of whole documents -/

/-- A stage refuses a document as a whole, wherever it stands: the document is no object, or its
    tag is none of the stage's. The report shows the document, so the room for that must do. -/
def RefusesWhole (stage : Stage) (j : Json) : Prop :=
  ∃ problem,
    (problem = .notObject ∨
      ∃ tag, Tagged j tag ∧ problem = .unknownTag stage.vocabulary tag) ∧
    ∀ start, stage.readNode start j =
      if j.nesting < nestingLimit then
        .error (.failure (Defect.failure start ⟨[], problem, j⟩))
      else .error .outOfRoom

/-- What is refused as a whole is reported with the document, if there is room to show it. -/
theorem readNode_of_reject {problem : Problem} (hroom : room + 1 = nestingLimit)
    (h : stageNode stage (room + 1) j = reject room problem j) (start : Text) :
    stage.readNode start j =
      if j.nesting < nestingLimit then
        .error (.failure (Defect.failure start ⟨[], problem, j⟩))
      else .error .outOfRoom := by
  unfold readNode
  rw [← hroom, h, reject]
  by_cases hshown : j.nesting ≤ room
  · rw [if_pos hshown, if_pos (Nat.lt_succ_of_le hshown)]
  · rw [if_neg hshown, if_neg (by omega)]

/-- The stages of expressions refuse all reader values. -/
theorem refusesWhole_of_read (hstage : stage ≠ .reader) {value : Sexpr}
    (h : sexpr nestingLimit j = .ok value) : stage.RefusesWhole j := by
  -- The node itself takes one unit, and what is left is for showing it.
  have hroom : 984 + 1 = nestingLimit := rfl
  by_cases hbare : ∀ members, j ≠ .obj members
  · exact ⟨.notObject, .inl rfl, readNode_of_reject hroom (stageNode_of_bare hstage hbare)⟩
  · have hread : stageNode .reader nestingLimit j = .ok value := h
    rcases tag_of_stageNode hread with ⟨-, hnone⟩ | ⟨tag, hmem, htag⟩
    · exact absurd hnone hbare
    · have hunknown : tag ∉ stage.tags := fun hmem' => (shared_tag hstage.symm hmem hmem').2 rfl
      exact ⟨_, .inr ⟨tag, htag, rfl⟩,
        readNode_of_reject hroom (stageNode_of_unknown stage htag hunknown)⟩

/-! ## Constants -/

/-- Both stages of expressions read a constant by reading its value. -/
theorem const_read (htag : Tagged j "ScmConst") (room : Nat) : ∃ reading : Reading Sexpr,
    parsed (room + 1) j = reading.map .const ∧ analyzed (room + 1) j = reading.map .const := by
  rcases exists_node htag with ⟨members, -, hread⟩
  refine ⟨onField room ⟨j, "ScmConst", members⟩ "sexpr" (sexpr room), ?_, ?_⟩
  · rw [parsed_succ, hread, ok_bind]
    rfl
  · rw [analyzed_succ, hread, ok_bind]
    rfl

/-- Constants are read alike, as the same value or with the same trouble. -/
theorem const_read_alike (htag : Tagged j "ScmConst") (start : Text) :
    (∃ value, tagParser.readNode start j = .ok (.const value) ∧
      semanticAnalyzer.readNode start j = .ok (.const value)) ∨
    ∃ trouble, tagParser.readNode start j = .error trouble ∧
      semanticAnalyzer.readNode start j = .error trouble := by
  rcases const_read htag 984 with ⟨reading, hparsed, hanalyzed⟩
  unfold readNode
  change parsed nestingLimit j = _ at hparsed
  change analyzed nestingLimit j = _ at hanalyzed
  simp only [stageNode, hparsed, hanalyzed]
  cases reading with
  | ok value => exact .inl ⟨value, rfl, rfl⟩
  | error refusal =>
      cases refusal with
      | defective d => exact .inr ⟨.failure (d.failure start), rfl, rfl⟩
      | tooDeep => exact .inr ⟨.outOfRoom, rfl, rfl⟩

end Stage

namespace Session

open Wire

variable {j : Json}

/-- A list of nodes that two stages read is a list of constants, and the same ones. -/
theorem consts_of_read_twice {items : List Json} {es : List Parsed.Expr}
    {as : List Analyzed.Expr}
    (hes : List.Forall₂ (stageNode .tagParser nestingLimit · = .ok ·) items es)
    (has : List.Forall₂ (stageNode .semanticAnalyzer nestingLimit · = .ok ·) items as) :
    (∀ item ∈ items, Tagged item "ScmConst") ∧
      ∃ values : List Sexpr, es = values.map .const ∧ as = values.map .const := by
  induction hes generalizing as with
  | nil =>
      cases has
      exact ⟨nofun, [], rfl, rfl⟩
  | @cons item e items es he _ ih =>
      cases has with
      | @cons _ a _ as ha hrest =>
        rcases ih hrest with ⟨htags, values, rfl, rfl⟩
        have hne : Stage.tagParser ≠ .semanticAnalyzer := nofun
        have hconst : Tagged item "ScmConst" := (Stage.const_of_read_twice hne he ha).1
        rcases Stage.const_read hconst 984 with ⟨reading, hparsed, hanalyzed⟩
        -- The value is read once, so the two constants cannot differ.
        cases reading with
        | error refusal => cases he.symm.trans hparsed
        | ok value =>
            cases he.symm.trans hparsed
            cases ha.symm.trans hanalyzed
            exact ⟨List.forall_mem_cons.2 ⟨hconst, htags⟩, value :: values, rfl, rfl⟩

/-- A response that both stages of expressions read is empty, or shown as two trees that differ
    only in the name of the root. -/
theorem shown_twice {es : List Parsed.Expr} {as : List Analyzed.Expr}
    (hes : (Stage.tagParser.readResponse j).result = .ok es)
    (has : (Stage.semanticAnalyzer.readResponse j).result = .ok as) :
    j = .arr [] ∨ ∃ items value, j = .arr items ∧ (∀ item ∈ items, Tagged item "ScmConst") ∧
      (showResponse .tagParser j).result = .ok (some (.branch "Const" [Sexpr.tree value])) ∧
      (showResponse .semanticAnalyzer j).result =
        .ok (some (.branch "Const'" [Sexpr.tree value])) := by
  rcases Stage.readNodes_eq_nodes.1 (Stage.readNodes_of_ok hes) with ⟨items, rfl, hparsed⟩
  rcases Stage.readNodes_eq_nodes.1 (Stage.readNodes_of_ok has) with ⟨_, ⟨rfl⟩, hanalyzed⟩
  rcases consts_of_read_twice hparsed hanalyzed with ⟨htags, values, rfl, rfl⟩
  -- Of the list only the last constant is shown.
  cases hlast : values.getLast? with
  | none =>
      rw [List.getLast?_eq_none_iff] at hlast
      subst hlast
      cases hparsed
      exact .inl rfl
  | some value =>
      refine .inr ⟨items, value, rfl, htags, ?_, ?_⟩
      · rw [result_showResponse, hes, Except.map, List.getLast?_map, hlast]
        rfl
      · rw [result_showResponse, has, Except.map, List.getLast?_map, hlast]
        rfl

/-- What two stages have in common. What the reader reads, the other two refuse as a whole. What
    these two both read are constants, and constants they read alike, value or trouble. So a
    response with nodes in two stages is empty, or a list of constants and no response of the
    reader's, and the two trees that it is shown as differ only in the name of the root. -/
theorem stages_kept_apart :
    (∀ start j value, Stage.reader.readNode start j = .ok value →
      Stage.tagParser.RefusesWhole j ∧ Stage.semanticAnalyzer.RefusesWhole j) ∧
    (∀ start j e a, Stage.tagParser.readNode start j = .ok e →
      Stage.semanticAnalyzer.readNode start j = .ok a → Tagged j "ScmConst") ∧
    (∀ start j, Tagged j "ScmConst" →
      (∃ value, Stage.tagParser.readNode start j = .ok (.const value) ∧
        Stage.semanticAnalyzer.readNode start j = .ok (.const value)) ∨
      ∃ trouble, Stage.tagParser.readNode start j = .error trouble ∧
        Stage.semanticAnalyzer.readNode start j = .error trouble) ∧
    ∀ (s t : Stage) (j : Json) (nodes : List s.Node) (others : List t.Node), s ≠ t →
      (s.readResponse j).result = .ok nodes → (t.readResponse j).result = .ok others →
      j = .arr [] ∨
        (s = .tagParser ∧ t = .semanticAnalyzer ∨ s = .semanticAnalyzer ∧ t = .tagParser) ∧
        ∃ items value, j = .arr items ∧ (∀ item ∈ items, Tagged item "ScmConst") ∧
          (showResponse .tagParser j).result =
            .ok (some (.branch "Const" [Sexpr.tree value])) ∧
          (showResponse .semanticAnalyzer j).result =
            .ok (some (.branch "Const'" [Sexpr.tree value])) := by
  refine ⟨?_, ?_, fun start j htag => Stage.const_read_alike htag start, ?_⟩
  · intro start j value h
    have hread := Stage.readNode_eq_ok.1 h
    exact ⟨Stage.refusesWhole_of_read nofun hread, Stage.refusesWhole_of_read nofun hread⟩
  · intro start j e a he ha
    have hne : Stage.tagParser ≠ .semanticAnalyzer := nofun
    exact (Stage.const_of_read_twice hne (Stage.readNode_eq_ok.1 he)
      (Stage.readNode_eq_ok.1 ha)).1
  · intro s t j nodes others hne hs ht
    rcases Stage.readNodes_eq_nodes.1 (Stage.readNodes_of_ok hs) with ⟨items, rfl, hfirst⟩
    rcases Stage.readNodes_eq_nodes.1 (Stage.readNodes_of_ok ht) with ⟨_, ⟨rfl⟩, hsecond⟩
    cases hfirst with
    | nil => exact .inl rfl
    | cons hfirst =>
        cases hsecond with
        | cons hsecond =>
            -- The first item says which stages these can be.
            rcases Stage.const_of_read_twice hne hfirst hsecond with ⟨-, hs', ht'⟩
            rcases Stage.eq_of_ne_reader hs' with rfl | rfl
            · rcases Stage.eq_of_ne_reader ht' with rfl | rfl
              · exact absurd rfl hne
              · exact (shown_twice hs ht).imp id fun h => ⟨.inl ⟨rfl, rfl⟩, h⟩
            · rcases Stage.eq_of_ne_reader ht' with rfl | rfl
              · exact (shown_twice ht hs).imp id fun h => ⟨.inr ⟨rfl, rfl⟩, h⟩
              · exact absurd rfl hne

/-- A response with the constant of the empty list. -/
def quotedNil : Json :=
  .arr [.obj [("type", .str "ScmConst"), ("value", .obj [("sexpr", nilNode)])]]

/-- It has nodes in two stages, and is shown in both. -/
theorem quotedNil_shown_twice :
    (showResponse .tagParser quotedNil).result = .ok (some (.branch "Const" [.leaf "'()"])) ∧
    (showResponse .semanticAnalyzer quotedNil).result =
      .ok (some (.branch "Const'" [.leaf "'()"])) := by
  rcases stages_kept_apart.2.2.2 .tagParser .semanticAnalyzer quotedNil [.const (.atom .nil)]
    [.const (.atom .nil)] nofun rfl rfl with hempty | ⟨-, _, value, -, -, hparsed, hanalyzed⟩
  · cases hempty
  · have hshown : (showResponse .tagParser quotedNil).result =
        .ok (some (.branch "Const" [.leaf "'()"])) := rfl
    have htree : value.tree = .leaf "'()" := by
      rw [hparsed] at hshown
      simpa [Tree.branch] using hshown
    exact ⟨hshown, htree ▸ hanalyzed⟩

end Session

end StageTree
