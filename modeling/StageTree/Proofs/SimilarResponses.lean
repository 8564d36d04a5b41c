import StageTree.Proofs.Depth
import StageTree.Proofs.Wire.Steady

/-!
# Similar Responses

What is read of a response does not depend on the order of the members of its objects, nor on
members that belong to no wire form. Two responses that differ in nothing else have the same
nodes, or they fail with the same message about the same place.

A failure shows the element at that place, and there two similar responses may look different.
Showing takes room, so a response with a very deep member that is never read may be given up for
its depth where a similar one fails with a message about the object around the member. It takes
a deep response for that, and no response that has nodes can become one that is given up.

## Main definitions

* `Stage.GivenUp`: A response is too deep to be read or shown.

## Theorems

* `Wire.stageNode_steady`: The readers of all stages are steady.
* `Stage.similar_responses_agree`: Similar responses are read alike.
-/

namespace StageTree

namespace Wire

theorem stageNode_steady (stage : Stage) (room : Nat) : Steady (stageNode stage room) := by
  cases stage with
  | reader => exact sexpr_steady room
  | tagParser => exact parsed_steady room
  | semanticAnalyzer => exact analyzed_steady room

end Wire

namespace Stage

open Wire

variable {stage : Stage} {j k : Json}

/-- A response is too deep to be read or shown, and is in fact deep. -/
structure GivenUp (stage : Stage) (j : Json) : Prop where
  result : (stage.readResponse j).result = .error (.failure (.nesting stage.name "decoding")) ∨
    (stage.readResponse j).result = .error .outOfRoom
  deep : 2 * nestingLimit < 3 * j.nesting

/-- A response as a reading: its items, or the complaint that it has none. -/
def asReading (stage : Stage) : Json → Reading (List stage.Node)
  | .arr items => itemsFrom (stageNode stage nestingLimit) 0 items
  | j => reject nestingLimit .notNodes j

/-- Similar responses are read alike, as a whole. -/
theorem asReading_steady (stage : Stage) : Steady stage.asReading := by
  intro j k h
  cases h.seen with
  | same => exact .refl _
  | items hitems => exact itemsFrom_agree (stageNode_steady stage nestingLimit) hitems 0
  | members => exact agree_reject _ _ _

/-- What reading a response comes to, by what it is as a reading. -/
theorem result_of_asReading (stage : Stage) (j : Json) :
    (∃ nodes, stage.asReading j = .ok nodes ∧ (stage.readResponse j).result = .ok nodes) ∨
    (∃ d, stage.asReading j = .error (.defective d) ∧
      (stage.readResponse j).result = .error (.failure (d.failure responseRoot))) ∨
    (stage.asReading j = .error .tooDeep ∧ GivenUp stage j) := by
  have hresult := result_readResponse stage j
  by_cases harray : ∃ items, j = .arr items
  · rcases harray with ⟨items, rfl⟩
    rw [readNodes] at hresult
    rw [asReading]
    split at hresult
    · rename_i nodes hread
      exact .inl ⟨nodes, hread, hresult⟩
    · rename_i d hread
      exact .inr (.inl ⟨d, hread, hresult⟩)
    · rename_i hread
      -- That it ran out of room while reading means that it is deep.
      have hdeep : stage.readNodes (.arr items) = .tooDeep := by rw [readNodes, hread]
      exact .inr (.inr ⟨hread, .inl hresult, deep_of_readNodes (.inl hdeep)⟩)
  · have hno := not_exists.1 harray
    have hreading : stage.asReading j = reject nestingLimit .notNodes j := by
      cases j with
      | arr items => exact absurd rfl (hno items)
      | _ => rfl
    rw [readNodes_of_not_array hno] at hresult
    -- A response that is no array is shown, and that takes room.
    by_cases hroom : j.nesting ≤ nestingLimit
    · rw [if_pos hroom] at hresult
      rw [hreading, reject, if_pos hroom]
      exact .inr (.inl ⟨_, rfl, hresult⟩)
    · rw [if_neg hroom] at hresult
      rw [hreading, reject, if_neg hroom]
      have hdeep : 2 * nestingLimit < 3 * j.nesting := by omega
      exact .inr (.inr ⟨rfl, .inr hresult, hdeep⟩)

/-- Nodes that are read are the result. -/
theorem result_of_ok {nodes : List stage.Node} (h : stage.asReading j = .ok nodes) :
    (stage.readResponse j).result = .ok nodes := by
  rcases stage.result_of_asReading j with ⟨_, hj, hresult⟩ | ⟨_, hj, -⟩ | ⟨hj, -⟩
  · cases h.symm.trans hj
    exact hresult
  · cases h.symm.trans hj
  · cases h.symm.trans hj

/-- A defect that is found is the result. -/
theorem result_of_defective {d : Defect} (h : stage.asReading j = .error (.defective d)) :
    (stage.readResponse j).result = .error (.failure (d.failure responseRoot)) := by
  rcases stage.result_of_asReading j with ⟨_, hj, -⟩ | ⟨_, hj, hresult⟩ | ⟨hj, -⟩
  · cases h.symm.trans hj
  · cases h.symm.trans hj
    exact hresult
  · cases h.symm.trans hj

/-- A response without room is given up. -/
theorem givenUp_of_tooDeep (h : stage.asReading j = .error .tooDeep) : GivenUp stage j := by
  rcases stage.result_of_asReading j with ⟨_, hj, -⟩ | ⟨_, hj, -⟩ | ⟨-, hdeep⟩
  · cases h.symm.trans hj
  · cases h.symm.trans hj
  · exact hdeep

/-- A response that is refused has no nodes, for whatever reason that is. -/
theorem no_nodes_of_error {refusal : Refusal} (h : stage.asReading j = .error refusal)
    (nodes : List stage.Node) : (stage.readResponse j).result ≠ .ok nodes := by
  intro hread
  rcases stage.result_of_asReading j with ⟨_, hj, -⟩ | ⟨_, -, hresult⟩ | ⟨-, hdeep⟩
  · cases h.symm.trans hj
  · cases hread.symm.trans hresult
  · rcases hdeep.result with hresult | hresult
    · cases hread.symm.trans hresult
    · cases hread.symm.trans hresult

/-- Similar responses have the same nodes, or they fail with the same message about the same
    place. Otherwise neither has nodes, and one of the two is given up for its depth. -/
theorem similar_responses_agree (stage : Stage) {j k : Json} (h : Wire.Similar j k) :
    (∃ nodes, (stage.readResponse j).result = .ok nodes ∧
      (stage.readResponse k).result = .ok nodes) ∨
    (∃ message path expected received other,
      (stage.readResponse j).result =
        .error (.failure (.decode message path received expected)) ∧
      (stage.readResponse k).result =
        .error (.failure (.decode message path other expected))) ∨
    ((∀ nodes, (stage.readResponse j).result ≠ .ok nodes ∧
      (stage.readResponse k).result ≠ .ok nodes) ∧ (GivenUp stage j ∨ GivenUp stage k)) := by
  have hagree := stage.asReading_steady j k h
  -- The readings are named, so that agreement can be taken apart while their results stay known.
  generalize hj : stage.asReading j = first, hk : stage.asReading k = second at hagree
  cases hagree with
  | ok hnodes =>
      subst hnodes
      exact .inl ⟨_, result_of_ok hj, result_of_ok hk⟩
  | refused halike =>
      cases halike with
      | @defective d e hsteps hproblem =>
          -- The same problem in the same place makes for the same message and path.
          have hfirst := result_of_defective hj
          have hsecond := result_of_defective hk
          rw [Defect.failure] at hfirst
          rw [Defect.failure, ← hsteps, ← hproblem] at hsecond
          exact .inr (.inl ⟨_, _, _, _, _, hfirst, hsecond⟩)
      -- A response that is given up has no nodes, and the other one is refused, too.
      | deepLeft =>
          exact .inr (.inr ⟨fun nodes => ⟨no_nodes_of_error hj nodes, no_nodes_of_error hk nodes⟩,
            .inl (givenUp_of_tooDeep hj)⟩)
      | deepRight =>
          exact .inr (.inr ⟨fun nodes => ⟨no_nodes_of_error hj nodes, no_nodes_of_error hk nodes⟩,
            .inr (givenUp_of_tooDeep hk)⟩)

/-- A list with one pair that has no second part. -/
def halfPair : Json :=
  .arr [.obj [("type", .str "ScmPair"), ("value", .obj [("car", nilNode)])]]

/-- The same pair with its members in another order, and with a member that is not read. -/
def halfPairNoted : Json :=
  .arr [.obj [("value", .obj [("note", .null), ("car", nilNode)]), ("type", .str "ScmPair")]]

/-- The message about the part that one pair lacks is the message about the other pair. -/
theorem halfPairs_agree : Wire.Similar halfPair halfPairNoted ∧ ∃ received other,
    (reader.readResponse halfPair).result =
      .error (.failure (.decode "Missing field 'cdr'" "$[0].value" received none)) ∧
    (reader.readResponse halfPairNoted).result =
      .error (.failure (.decode "Missing field 'cdr'" "$[0].value" other none)) := by
  have hvalue : Wire.Similar (.obj [("car", nilNode)])
      (.obj [("note", .null), ("car", nilNode)]) :=
    .symm (.unread .null _ (by decide))
  have hsimilar : Wire.Similar halfPair halfPairNoted := by
    refine .item [] [] (.trans (.member [("type", .str "ScmPair")] [] "value" hvalue) ?_)
    exact .reorder (by decide) (.swap _ _ _)
  have hplain : ∃ received, (reader.readResponse halfPair).result =
      .error (.failure (.decode "Missing field 'cdr'" "$[0].value" received none)) := ⟨_, rfl⟩
  rcases hplain with ⟨received, hplain⟩
  refine ⟨hsimilar, ?_⟩
  rcases similar_responses_agree .reader hsimilar with ⟨nodes, hnodes, -⟩ |
    ⟨message, path, expected, shown, other, hfirst, hsecond⟩ | ⟨-, hfirst | hsecond⟩
  · rw [hplain] at hnodes
    cases hnodes
  · rw [hplain] at hfirst
    cases hfirst
    exact ⟨_, other, hplain, hsecond⟩
  · exact absurd hfirst.deep (by decide)
  · exact absurd hsecond.deep (by decide)

end Stage

end StageTree
