import StageTree.Proofs.Json.Nesting
import StageTree.Proofs.Wire.Room

/-!
# Refusals

What a reader says about a document that it does not read. A defect is where its steps lead:
following them from the document gives the very element that the report shows. And a document
is refused for its depth only if it is deep.

Both are said of a reading as a whole (`Refuses`), by what is to be shown of each refusal, and
proved along the steps of the readers. How deep a document must be for a refusal is left open
while a node is read, because it differs from level to level. All that a step has to know is
that too little room to show an element is a sign of a deep document, and what holds of an
element holds of the parts that nest less.

Lists decide how deep is deep. Two levels of a document lead from a list to an element of it,
and take three units of room; no other way down takes as much.

## Main definitions

* `Problem.Suits`: A size that is reported is the one of the element.
* `Located`: A defect is where its steps lead.
* `Refuses`: What is refused has a defect or is deep.

## Theorems

* `onField_refuses`, `onList_refuses`: Reading the parts of a node.
* `sexpr_refuses`, `parsed_refuses`, `analyzed_refuses`: The readers, with the depth.
-/

namespace StageTree

namespace Wire

variable {α β : Type} {room : Nat} {j : Json} {deep : Prop}

/-! ## The parts of a document -/

-- A step leads to a member or an item, which nests less than the document it is in.
theorem nesting_lt_of_step {step : Step} {part : Json} (h : stepInto? j step = some part) :
    part.nesting < j.nesting := by
  cases step with
  | key key =>
      rcases stepInto?_key.1 h with ⟨members, rfl, hlookup⟩
      exact Nat.lt_succ_of_le (Json.nesting_le_of_lookup hlookup)
  | index i =>
      cases j with
      | arr items => exact Nat.lt_succ_of_le (Json.nesting_le_of_mem_items (List.mem_of_getElem? h))
      | _ => exact absurd h (by simp only [stepInto?, reduceCtorEq, not_false_eq_true])

/-- A field stands two levels below its node, since it is a member of the value. -/
theorem HasField.nesting_le {key : Text} {part : Json} (h : HasField j key part) :
    part.nesting + 2 ≤ j.nesting := by
  rcases hasField_iff.1 h with ⟨value, hvalue, hstep⟩
  have hpart := nesting_lt_of_step hstep
  have hwhole := nesting_lt_of_step (partAt?_step.1 hvalue)
  omega

/-- An item stands two levels below its list, since it is an item of the value. -/
theorem IsList.nesting_le {items : List Json} (h : IsList j items) {item : Json}
    (hitem : item ∈ items) : item.nesting + 2 ≤ j.nesting := by
  have hwhole := nesting_lt_of_step (partAt?_step.1 h.2)
  have hpart := Json.nesting_le_of_mem_items hitem
  rw [Json.nesting] at hwhole
  omega

/-! ## Justified refusals -/

/-- A size that is reported is the one of the element, which is a whole number past all
    doubles. -/
def Problem.Suits (found : Json) : Problem → Prop
  | .hugeInteger bits =>
    ∃ n, found = .int n ∧ (Binary64.ofInt n).isInfinite = true ∧ bits = bitLength n
  | _ => True

/-- The defect is where its steps lead. -/
structure Located (j : Json) (d : Defect) : Prop where
  /-- The steps lead to the element. -/
  found : partAt? j d.steps = some d.found
  /-- The problem is one of the element. -/
  suits : d.problem.Suits d.found

/-- What is refused has a defect where it says, or is deep. -/
def Refuses (deep : Prop) (j : Json) : Reading α → Prop
  | .ok _ => True
  | .error (.defective d) => Located j d
  | .error .tooDeep => deep

-- What goes on after a part is refused for the part, or for what comes after it. Both are said of
-- the same document, so the steps of defects stay as they are.
theorem refuses_bind {reading : Reading α} {f : α → Reading β} (h : Refuses deep j reading)
    (hf : ∀ a, reading = .ok a → Refuses deep j (f a)) : Refuses deep j (reading >>= f) := by
  cases reading with
  | ok a => exact hf a rfl
  | error refusal => cases refusal <;> exact h

/-- Making a value of what was read refuses nothing. -/
theorem refuses_map {reading : Reading α} {f : α → β} (h : Refuses deep j reading) :
    Refuses deep j (reading >>= fun a => pure (f a)) :=
  refuses_bind h fun _ _ => trivial

/-- What accounts for a refusal may be weakened. -/
theorem Refuses.mono {reading : Reading α} {deeper : Prop} (h : Refuses deep j reading)
    (hdeep : deep → deeper) : Refuses deeper j reading := by
  cases reading with
  | ok a => trivial
  | error refusal =>
      cases refusal with
      | defective d => exact h
      | tooDeep => exact hdeep h

-- The step goes in front of the steps to a defect, and leads to where these start.
theorem refuses_within {reading : Reading α} {step : Step} {part : Json}
    (hstep : stepInto? j step = some part) (h : Refuses deep part reading) :
    Refuses deep j (within step reading) := by
  cases reading with
  | ok a => trivial
  | error refusal =>
      cases refusal with
      | defective d =>
          refine ⟨?_, h.suits⟩
          rw [partAt?, hstep, Option.bind_some]
          exact h.found
      | tooDeep => exact h

-- An element that is refused where it stands is its own defect, after no steps at all.
theorem refuses_reject {problem : Problem} (hsuits : problem.Suits j)
    (hroom : room < j.nesting → deep) : Refuses deep j (reject room problem j : Reading α) := by
  unfold reject
  split
  · exact ⟨rfl, hsuits⟩
  · rename_i hshort
    exact hroom (Nat.not_le.1 hshort)

/-! ## The parts of nodes -/

section Parts

variable (hroom : room < j.nesting → deep)

include hroom

theorem membersOf_refuses : Refuses deep j (membersOf room j) := by
  cases j with
  | obj members => trivial
  | _ => exact refuses_reject trivial hroom

theorem nodeOf_refuses : Refuses deep j (nodeOf room j) := by
  refine refuses_bind (refuses_bind (membersOf_refuses hroom) fun members _ => ?_)
    fun _ _ => trivial
  split
  · trivial
  · exact refuses_reject trivial hroom

/-- Where there is too little room to show a part, there is too little to show the whole. -/
theorem deep_of_part {part : Json} (hpart : part.nesting ≤ j.nesting) :
    room < part.nesting → deep :=
  fun h => hroom (Nat.lt_of_lt_of_le h hpart)

variable {node : Node} (hnode : IsNode j node) {read : Json → Reading α}

include hnode

/-- A value that is missing is reported at the node, and one that is there at the value. -/
theorem onValue_refuses (hread : ∀ value, HasValue j value → (room < value.nesting → deep) →
      Refuses deep value (read value)) :
    Refuses deep j (onValue room node read) := by
  unfold onValue
  split
  · rename_i value hlookup
    have hvalue := hnode.hasValue_iff.2 hlookup
    have hstep := partAt?_step.1 hvalue
    have hdeep := deep_of_part hroom (Nat.le_of_lt (nesting_lt_of_step hstep))
    exact refuses_within hstep (hread value hvalue hdeep)
  · rw [hnode.whole]
    exact refuses_reject trivial hroom

-- A field can fail in four places: the node has no value, the value is no object, the object
-- lacks the member, or the member is refused by its own reader.
theorem onField_refuses {key : Text} (hread : ∀ part, HasField j key part →
      (room < part.nesting → deep) → Refuses deep part (read part)) :
    Refuses deep j (onField room node key read) := by
  refine onValue_refuses hroom hnode fun value hvalue hdeep => ?_
  refine refuses_bind (membersOf_refuses hdeep) fun members hmembers => ?_
  -- The key is looked up in an object, for nothing else has members.
  have hobj : value = .obj members := by
    cases value with
    | obj _ =>
        cases hmembers
        rfl
    | _ => exact absurd hmembers (reject_ne_ok _ _ _)
  split
  · rename_i part hlookup
    have hstep : stepInto? value (.key key) = some part := stepInto?_key.2 ⟨members, hobj, hlookup⟩
    refine refuses_within hstep (hread part (hasField_iff.2 ⟨value, hvalue, hstep⟩) ?_)
    exact deep_of_part hdeep (Nat.le_of_lt (nesting_lt_of_step hstep))
  · exact refuses_reject trivial hdeep

end Parts

/-! ## Lists -/

-- By induction on the items that are left. Those in front are what the index counts, and they
-- are what makes the step to the next item lead to it.
theorem itemsFrom_refuses {read : Json → Reading α} {items : List Json}
    (hread : ∀ item ∈ items, Refuses deep item (read item)) (front rest : List Json)
    (hitems : items = front ++ rest) :
    Refuses deep (.arr items) (itemsFrom read front.length rest) := by
  induction rest generalizing front with
  | nil => trivial
  | cons item rest ih =>
      have hmem : item ∈ items := by
        rw [hitems]
        exact List.mem_append_right _ List.mem_cons_self
      have hstep : stepInto? (.arr items) (.index front.length) = some item := by
        rw [stepInto?, hitems, List.getElem?_append_right (Nat.le_refl _), Nat.sub_self]
        rfl
      -- The item that is read goes to those in front of the rest.
      have hothers := ih (front ++ [item]) (by rw [hitems, List.append_assoc]; rfl)
      rw [List.length_append] at hothers
      exact refuses_bind (refuses_within hstep (hread item hmem)) fun _ _ => refuses_map hothers

/-- The items of an array are refused where they stand in it. -/
theorem onItems_refuses {read : Json → Reading α} (hroom : room < j.nesting → deep)
    (hread : ∀ items, j = .arr items → ∀ item ∈ items, Refuses deep item (read item)) :
    Refuses deep j (onItems room read j) := by
  cases j with
  | arr items => exact itemsFrom_refuses (hread items rfl) [] items rfl
  | _ => exact refuses_reject trivial hroom

/-- A list is refused for what it is, or for one of its items. -/
theorem onList_refuses {read : Json → Reading α} (hroom : room < j.nesting → deep)
    (hread : ∀ items, IsList j items → ∀ item ∈ items, Refuses deep item (read item)) :
    Refuses deep j (onList room read j) := by
  refine refuses_bind (nodeOf_refuses hroom) fun node hnode => ?_
  rw [nodeOf_eq_ok] at hnode
  split
  · rename_i htag
    refine onValue_refuses hroom hnode fun value hvalue hdeep => ?_
    refine onItems_refuses hdeep fun items hitems => ?_
    refine hread items ⟨?_, hitems ▸ hvalue⟩
    have hlist := hnode.tag
    rw [htag] at hlist
    exact hlist
  · exact refuses_reject trivial hroom

/-! ## What takes no room of its own -/

section Leaves

variable (hroom : room < j.nesting → deep)

include hroom

theorem text_refuses : Refuses deep j (text room j) := by
  cases j with
  | str value => trivial
  | _ => exact refuses_reject trivial hroom

theorem integer_refuses : Refuses deep j (integer room j) := by
  cases j with
  | int value => trivial
  | _ => exact refuses_reject trivial hroom

theorem index_refuses : Refuses deep j (index room j) := by
  refine refuses_bind (integer_refuses hroom) fun n _ => ?_
  split
  · exact refuses_reject trivial hroom
  · trivial

-- The two shapes of parameter lists differ in their paths: the items of a list stand in its
-- value, and those of a bare array in the document itself.
theorem names_refuses : Refuses deep j (names room j) := by
  have hlist : Refuses deep j (onList room (text room) j) :=
    onList_refuses hroom fun items hitems item hitem =>
      text_refuses (deep_of_part hroom (by have := hitems.nesting_le hitem; omega))
  cases j with
  | arr items =>
      refine itemsFrom_refuses (fun item hitem => ?_) [] items rfl
      exact text_refuses
        (deep_of_part hroom (Nat.le_succ_of_le (Json.nesting_le_of_mem_items hitem)))
  | _ => exact hlist

theorem varName_refuses : Refuses deep j (varName room j) := by
  refine refuses_bind (text_refuses hroom) fun name _ => ?_
  split
  · trivial
  · exact refuses_reject trivial hroom

theorem parsedVar_refuses : Refuses deep j (parsedVar room j) := by
  refine refuses_bind (nodeOf_refuses hroom) fun node hnode => ?_
  rw [nodeOf_eq_ok] at hnode
  split
  · exact onField_refuses hroom hnode fun _ _ => varName_refuses
  · exact refuses_reject trivial hroom

theorem lambdaKind_refuses : Refuses deep j (lambdaKind room j) := by
  refine refuses_bind (nodeOf_refuses hroom) fun node hnode => ?_
  rw [nodeOf_eq_ok] at hnode
  split
  · trivial
  · exact refuses_map (onField_refuses hroom hnode fun _ _ => text_refuses)
  · exact refuses_reject trivial hroom

theorem address_refuses : Refuses deep j (address room j) := by
  refine refuses_bind (nodeOf_refuses hroom) fun node hnode => ?_
  rw [nodeOf_eq_ok] at hnode
  have hindex (key : Text) : Refuses deep j (onField room node key (index room)) :=
    onField_refuses hroom hnode fun _ _ => index_refuses
  split
  · trivial
  · exact refuses_map (hindex "minor")
  · exact refuses_bind (hindex "major") fun _ _ => refuses_map (hindex "minor")
  · exact refuses_reject trivial hroom

theorem analyzedVar_refuses : Refuses deep j (analyzedVar room j) := by
  refine refuses_bind (nodeOf_refuses hroom) fun node hnode => ?_
  rw [nodeOf_eq_ok] at hnode
  split
  · refine refuses_bind (onField_refuses hroom hnode fun _ _ => varName_refuses) fun _ _ => ?_
    exact refuses_map (onField_refuses hroom hnode fun _ _ => address_refuses)
  · exact refuses_reject trivial hroom

theorem callWord_refuses : Refuses deep j (callWord room j) := by
  unfold callWord
  split
  · split
    · trivial
    · exact refuses_reject trivial hroom
  · exact refuses_reject trivial hroom

theorem callKind_refuses : Refuses deep j (callKind room j) := by
  refine refuses_bind (nodeOf_refuses hroom) fun node hnode => ?_
  rw [nodeOf_eq_ok] at hnode
  split
  · exact onValue_refuses hroom hnode fun _ _ => callWord_refuses
  · exact refuses_reject trivial hroom

end Leaves

/-! ## Readers that go down -/

/-- The readers of all stages refuse only what is deep, if their nodes do so given that their
    parts do. The parts of a node nest less by two at least. -/
theorem refuses_of_step {read : Nat → Json → Reading α}
    (hzero : ∀ j, read 0 j = .error .tooDeep)
    (hstep : ∀ (room : Nat) (j : Json) (deep : Prop), (2 * room < 3 * j.nesting → deep) →
      (∀ part, part.nesting + 2 ≤ j.nesting → Refuses deep part (read room part)) →
      (∀ item, item.nesting + 2 ≤ j.nesting → Refuses deep item (readItem read room item)) →
      Refuses deep j (read (room + 1) j))
    (room : Nat) (j : Json) : Refuses (2 * room < 3 * j.nesting + 2) j (read room j) := by
  induction room using Nat.strongRecOn generalizing j with
  | _ room ih =>
    cases room with
    | zero =>
        rw [hzero]
        exact Nat.zero_lt_succ _
    | succ room =>
        refine hstep room j _ (fun h => by omega) (fun part hpart => ?_) fun item hitem => ?_
        · exact (ih room (Nat.lt_succ_self room) part).mono fun h => by omega
        · -- The two units that an item costs are those that its two levels allow for.
          rcases readItem_cases read room with ⟨below, rfl, hread⟩ | ⟨hshort, hread⟩
          · rw [hread]
            exact (ih below (by omega) item).mono fun h => by omega
          · rw [hread]
            change 2 * (room + 1) < 3 * j.nesting + 2
            omega

-- A whole number takes no room to be shown, so it is never too deep.
theorem wholeNumber_refuses (n : Int) : Refuses deep (.int n) (wholeNumber room n) := by
  unfold wholeNumber
  by_cases hinfinite : (Binary64.ofInt n).isInfinite = true
  · simp only [hinfinite, if_true]
    exact refuses_reject ⟨n, rfl, hinfinite, rfl⟩ fun h => absurd h (Nat.not_lt_zero room)
  · simp only [hinfinite]
    trivial

section Nodes

variable (hroom : room < j.nesting → deep) {node : Node} (hnode : IsNode j node)

include hroom hnode

/-- A field with a list in it is refused for what it is, or for one of the items. -/
theorem listField_refuses {read : Json → Reading α}
    (hread : ∀ item, item.nesting + 2 ≤ j.nesting → Refuses deep item (read item))
    (key : Text) : Refuses deep j (onField room node key (onList room read)) := by
  refine onField_refuses hroom hnode fun part hpart hdeep => ?_
  refine onList_refuses hdeep fun items hitems item hitem => hread item ?_
  have hpart := hpart.nesting_le
  have hitem := hitems.nesting_le hitem
  omega

-- The fields that the tags share are settled first; then every case is put together from them.
theorem sexprNode_refuses {part element : Json → Reading Sexpr}
    (hpart : ∀ p, p.nesting + 2 ≤ j.nesting → Refuses deep p (part p))
    (helement : ∀ p, p.nesting + 2 ≤ j.nesting → Refuses deep p (element p)) :
    Refuses deep j (sexprNode room part element node) := by
  have htext : Refuses deep j (onValue room node (text room)) :=
    onValue_refuses hroom hnode fun _ _ => text_refuses
  have hinteger (key : Text) : Refuses deep j (onField room node key (integer room)) :=
    onField_refuses hroom hnode fun _ _ => integer_refuses
  have hfield (key : Text) : Refuses deep j (onField room node key part) :=
    onField_refuses hroom hnode fun p hp _ => hpart p hp.nesting_le
  unfold sexprNode
  split
  · trivial
  · trivial
  · exact refuses_bind (hinteger _) fun _ _ => refuses_map (hinteger _)
  · exact refuses_map htext
  · exact refuses_map htext
  · exact refuses_map htext
  · rw [hnode.whole]
    refine refuses_map (onList_refuses hroom fun items hitems item hitem => ?_)
    exact helement item (hitems.nesting_le hitem)
  · exact refuses_bind (hfield _) fun _ _ => refuses_map (hfield _)
  · rw [hnode.whole]
    exact refuses_reject trivial hroom

/-- Nodes of the second stage are refused for their tags or for one of their parts. -/
theorem parsedNode_refuses {part element : Json → Reading Parsed.Expr}
    (hsexpr : ∀ p, p.nesting + 2 ≤ j.nesting → Refuses deep p (sexpr room p))
    (hpart : ∀ p, p.nesting + 2 ≤ j.nesting → Refuses deep p (part p))
    (helement : ∀ p, p.nesting + 2 ≤ j.nesting → Refuses deep p (element p)) :
    Refuses deep j (parsedNode room part element node) := by
  have hconst : Refuses deep j (onField room node "sexpr" (sexpr room)) :=
    onField_refuses hroom hnode fun p hp _ => hsexpr p hp.nesting_le
  have hvar : Refuses deep j (onField room node "var" (parsedVar room)) :=
    onField_refuses hroom hnode fun _ _ => parsedVar_refuses
  have hfield (key : Text) : Refuses deep j (onField room node key part) :=
    onField_refuses hroom hnode fun p hp _ => hpart p hp.nesting_le
  have hlist := listField_refuses hroom hnode helement
  unfold parsedNode
  split
  · exact refuses_map hconst
  · exact refuses_map hvar
  · exact refuses_bind (hfield _) fun _ _ => refuses_bind (hfield _) fun _ _ =>
      refuses_map (hfield _)
  · exact refuses_map (hlist _)
  · exact refuses_map (hlist _)
  · exact refuses_bind hvar fun _ _ => refuses_map (hfield _)
  · exact refuses_bind hvar fun _ _ => refuses_map (hfield _)
  · refine refuses_bind (onField_refuses hroom hnode fun _ _ => names_refuses) fun _ _ => ?_
    refine refuses_bind (onField_refuses hroom hnode fun _ _ => lambdaKind_refuses) fun _ _ => ?_
    exact refuses_map (hfield _)
  · exact refuses_bind (hfield _) fun _ _ => refuses_map (hlist _)
  · rw [hnode.whole]
    exact refuses_reject trivial hroom

/-- Nodes of the third stage are refused for their tags or for one of their parts. -/
theorem analyzedNode_refuses {part element : Json → Reading Analyzed.Expr}
    (hsexpr : ∀ p, p.nesting + 2 ≤ j.nesting → Refuses deep p (sexpr room p))
    (hpart : ∀ p, p.nesting + 2 ≤ j.nesting → Refuses deep p (part p))
    (helement : ∀ p, p.nesting + 2 ≤ j.nesting → Refuses deep p (element p)) :
    Refuses deep j (analyzedNode room part element node) := by
  have hconst : Refuses deep j (onField room node "sexpr" (sexpr room)) :=
    onField_refuses hroom hnode fun p hp _ => hsexpr p hp.nesting_le
  have hvar : Refuses deep j (onField room node "var" (analyzedVar room)) :=
    onField_refuses hroom hnode fun _ _ => analyzedVar_refuses
  have hfield (key : Text) : Refuses deep j (onField room node key part) :=
    onField_refuses hroom hnode fun p hp _ => hpart p hp.nesting_le
  have hlist := listField_refuses hroom hnode helement
  unfold analyzedNode
  split
  · exact refuses_map hconst
  · exact refuses_map hvar
  · exact refuses_map hvar
  · exact refuses_map hvar
  · exact refuses_bind (hfield _) fun _ _ => refuses_bind (hfield _) fun _ _ =>
      refuses_map (hfield _)
  · exact refuses_map (hlist _)
  · exact refuses_map (hlist _)
  · exact refuses_bind hvar fun _ _ => refuses_map (hfield _)
  · exact refuses_bind hvar fun _ _ => refuses_map (hfield _)
  · exact refuses_bind hvar fun _ _ => refuses_map (hfield _)
  · refine refuses_bind (onField_refuses hroom hnode fun _ _ => names_refuses) fun _ _ => ?_
    exact refuses_map (hfield _)
  · refine refuses_bind (hfield _) fun _ _ => refuses_bind (hlist _) fun _ _ => ?_
    exact refuses_map (onField_refuses hroom hnode fun _ _ => callKind_refuses)
  · rw [hnode.whole]
    exact refuses_reject trivial hroom

end Nodes

/-- A value is refused at an element of it, or because it nests deeper than there is room for. -/
theorem sexpr_refuses (room : Nat) (j : Json) :
    Refuses (2 * room < 3 * j.nesting + 2) j (sexpr room j) := by
  refine refuses_of_step (fun _ => rfl) ?_ room j
  intro room j deep hdeep hpart helement
  have hroom : room < j.nesting → deep := fun h => hdeep (by omega)
  rcases sexpr_succ_cases room j with ⟨_, rfl, hs⟩ | ⟨_, rfl, hs⟩ | ⟨_, rfl, hs⟩ | hs
  · rw [hs]
    trivial
  · rw [hs]
    exact wholeNumber_refuses _
  · rw [hs]
    trivial
  · rw [hs]
    refine refuses_bind (nodeOf_refuses hroom) fun node hnode => ?_
    exact sexprNode_refuses hroom (nodeOf_eq_ok.1 hnode) hpart helement

/-- Constants are no deeper to read than what they stand in. -/
theorem sexpr_refuses_part {deep : Prop} (hdeep : 2 * room < 3 * j.nesting → deep) (part : Json)
    (hpart : part.nesting + 2 ≤ j.nesting) : Refuses deep part (sexpr room part) :=
  (sexpr_refuses room part).mono fun h => hdeep (by omega)

/-- An expression of the second stage is refused at an element of it, or because of its depth. -/
theorem parsed_refuses (room : Nat) (j : Json) :
    Refuses (2 * room < 3 * j.nesting + 2) j (parsed room j) := by
  refine refuses_of_step (fun _ => rfl) ?_ room j
  intro room j deep hdeep hpart helement
  have hroom : room < j.nesting → deep := fun h => hdeep (by omega)
  rw [parsed_succ]
  refine refuses_bind (nodeOf_refuses hroom) fun node hnode => ?_
  rw [nodeOf_eq_ok] at hnode
  exact parsedNode_refuses hroom hnode (sexpr_refuses_part hdeep) hpart helement

/-- An expression of the third stage is refused at an element of it, or because of its depth. -/
theorem analyzed_refuses (room : Nat) (j : Json) :
    Refuses (2 * room < 3 * j.nesting + 2) j (analyzed room j) := by
  refine refuses_of_step (fun _ => rfl) ?_ room j
  intro room j deep hdeep hpart helement
  have hroom : room < j.nesting → deep := fun h => hdeep (by omega)
  rw [analyzed_succ]
  refine refuses_bind (nodeOf_refuses hroom) fun node hnode => ?_
  rw [nodeOf_eq_ok] at hnode
  exact analyzedNode_refuses hroom hnode (sexpr_refuses_part hdeep) hpart helement

end Wire

end StageTree
