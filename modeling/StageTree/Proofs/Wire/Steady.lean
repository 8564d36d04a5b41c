import StageTree.Proofs.Wire.Room
import StageTree.Proofs.Wire.Similar

/-!
# Steady Readers

Readings of similar documents agree. A reader goes down into two similar documents along the
same steps, finds the same tags and texts, and so comes to the same result or to the same problem
in the same place.

Only what a refusal shows may differ, because the elements that are shown are similar and not
equal. Showing an element takes room, so one of two readings may be given up for depth where the
other is refused. For this reason agreement leaves open how a reading goes on whose counterpart
was given up (`Refusal.Alike`). Readings that give a result give the same one.

## Main definitions

* `Agree`: Two readings with related results or the same refusal.
* `Steady`: A reader whose readings of similar documents agree.

## Theorems

* `agree_bind`: Agreeing readings go on to agreeing readings.
* `onField_agree`, `onList_steady`: Reading the parts of a node.
* `steady_of_step`: From the parts of documents to whole documents.
* `sexpr_steady`, `parsed_steady`, `analyzed_steady`: The readers.
-/

namespace StageTree

namespace Wire

variable {α β γ δ : Type} {room : Nat} {j k : Json}

/-! ## Agreeing readings -/

/-- Refusals with the same problem in the same place. What is shown of the place may be too
    deep in one of two documents only. -/
inductive Refusal.Alike : Refusal → Refusal → Prop where
  | defective {d e : Defect} (hsteps : d.steps = e.steps) (hproblem : d.problem = e.problem) :
    Alike (.defective d) (.defective e)
  | deepLeft (refusal : Refusal) : Alike .tooDeep refusal
  | deepRight (refusal : Refusal) : Alike refusal .tooDeep

/-- Two readings with related results, or refused for the same problem in the same place. -/
inductive Agree (R : α → β → Prop) : Reading α → Reading β → Prop where
  | ok {a : α} {b : β} (h : R a b) : Agree R (.ok a) (.ok b)
  | refused {first second : Refusal} (h : first.Alike second) :
    Agree R (.error first) (.error second)

/-- Every reading agrees with itself. -/
theorem Agree.refl (reading : Reading α) : Agree Eq reading reading := by
  cases reading with
  | ok a => exact .ok rfl
  | error refusal =>
      cases refusal with
      | defective d => exact .refused (.defective rfl rfl)
      | tooDeep => exact .refused (.deepLeft _)

section Combination

variable {R : α → β → Prop} {S : γ → δ → Prop} {first : Reading α} {second : Reading β}

/-- Agreeing readings go on to agreeing readings. -/
theorem agree_bind {f : α → Reading γ} {g : β → Reading δ} (h : Agree R first second)
    (hfg : ∀ a b, R a b → Agree S (f a) (g b)) : Agree S (first >>= f) (second >>= g) := by
  cases h with
  | ok h => exact hfg _ _ h
  | refused h => exact .refused h

/-- What is made of equal results is equal. -/
theorem agree_map {first second : Reading α} (f : α → β) (h : Agree Eq first second) :
    Agree Eq (first >>= fun a => pure (f a)) (second >>= fun a => pure (f a)) :=
  agree_bind h fun _ _ h => .ok (congrArg f h)

/-- Entering the same step keeps readings in agreement. -/
theorem agree_within (step : Step) (h : Agree R first second) :
    Agree R (within step first) (within step second) := by
  cases h with
  | ok h => exact .ok h
  | @refused refusal other h =>
      cases h with
      | defective hsteps hproblem =>
          exact .refused (.defective (congrArg (step :: ·) hsteps) hproblem)
      -- A reading that ran out of room agrees with everything.
      | deepLeft => cases other <;> exact .refused (.deepLeft _)
      | deepRight => cases refusal <;> exact .refused (.deepRight _)

/-- Elements that are refused for the same problem are refused alike, whether there is room to
    show them or not. -/
theorem agree_reject (problem : Problem) (j k : Json) :
    Agree R (reject room problem j) (reject room problem k) := by
  unfold reject
  split <;> split
  · exact .refused (.defective rfl rfl)
  · exact .refused (.deepRight _)
  · exact .refused (.deepLeft _)
  · exact .refused (.deepLeft _)

end Combination

/-- A reader whose readings of similar documents agree. -/
def Steady (read : Json → Reading α) : Prop := ∀ j k, Similar j k → Agree Eq (read j) (read k)

/-! ## The parts of nodes -/

/-- Nodes that no reader can tell apart. -/
structure NodesAlike (n m : Node) : Prop where
  whole : Similar n.whole m.whole
  tag : n.tag = m.tag
  members : MembersAlike n.members m.members

/-- Similar documents are objects or no objects together, with members alike. -/
theorem membersOf_agree (h : Similar j k) :
    Agree MembersAlike (membersOf room j) (membersOf room k) := by
  cases h.seen with
  | same =>
      cases j with
      | obj members => exact .ok (.refl members)
      | _ => exact agree_reject _ _ _
  | items => exact agree_reject _ _ _
  | members hmembers => exact .ok hmembers

/-- Similar documents are nodes together, of one tag and with members alike. -/
theorem nodeOf_agree (h : Similar j k) : Agree NodesAlike (nodeOf room j) (nodeOf room k) := by
  -- The tag is a text, so in similar documents it is the same.
  have htag : Agree (fun n m => n.1 = m.1 ∧ MembersAlike n.2 m.2) (tagOf room j)
      (tagOf room k) := by
    refine agree_bind (membersOf_agree h) fun members others hmembers => ?_
    have htype := hmembers "type" (by decide)
    generalize members.lookup (.plain "type") = a, others.lookup (.plain "type") = b at htype
    cases htype with
    | none => exact agree_reject _ _ _
    | @some tag other htype =>
        cases htype.seen with
        | same =>
            cases tag with
            | str tag => exact .ok ⟨rfl, hmembers⟩
            | _ => exact agree_reject _ _ _
        | items => exact agree_reject _ _ _
        | members => exact agree_reject _ _ _
  exact agree_bind htag fun _ _ hnode => .ok ⟨h, hnode.1, hnode.2⟩

section Node

variable {n m : Node} (hnode : NodesAlike n m) {read : Json → Reading α} (hread : Steady read)

include hread in
/-- Members that the readers look at are read alike. -/
theorem onMember_steady {key : Text} (hkey : key ∈ readKeys) :
    Steady (onMember room key read) := by
  intro j k h
  refine agree_bind (membersOf_agree h) fun members others hmembers => ?_
  have hpart := hmembers key hkey
  generalize members.lookup key = a, others.lookup key = b at hpart
  cases hpart with
  | none => exact agree_reject _ _ _
  | some hpart => exact agree_within _ (hread _ _ hpart)

include hnode hread

/-- Nodes that are alike have values that are read alike. -/
-- The lookups are generalized before the case split, since both sides of the goal mention them.
theorem onValue_agree : Agree Eq (onValue room n read) (onValue room m read) := by
  have hvalue := hnode.members "value" (by decide)
  unfold onValue
  generalize n.members.lookup (.plain "value") = a, m.members.lookup (.plain "value") = b at hvalue
  cases hvalue with
  | none =>
      rw [hnode.tag]
      exact agree_reject _ _ _
  | some hvalue => exact agree_within _ (hread _ _ hvalue)

/-- Nodes that are alike have fields that are read alike. -/
theorem onField_agree {key : Text} (hkey : key ∈ readKeys) :
    Agree Eq (onField room n key read) (onField room m key read) :=
  onValue_agree hnode (onMember_steady hread hkey)

end Node

/-! ## Lists -/

section Lists

variable {read : Json → Reading α} (hread : Steady read)

include hread

-- By induction on the items, with the index that they start at left free.
theorem itemsFrom_agree {items others : List Json} (h : List.Forall₂ Similar items others)
    (i : Nat) : Agree Eq (itemsFrom read i items) (itemsFrom read i others) := by
  induction h generalizing i with
  | nil => exact .ok rfl
  | cons hfirst _ ih =>
      refine agree_bind (agree_within _ (hread _ _ hfirst)) fun first _ hfirst => ?_
      rw [← hfirst]
      exact agree_map (first :: ·) (ih (i + 1))

/-- Items are read alike if they are similar one by one. -/
theorem onItems_steady : Steady (onItems room read) := by
  intro j k h
  cases h.seen with
  -- Similar documents are the same, or both arrays, or both objects.
  | same => exact .refl _
  | items hitems => exact itemsFrom_agree hread hitems 0
  | members => exact agree_reject _ _ _

/-- Lists in similar documents are read alike. -/
theorem onList_steady : Steady (onList room read) := by
  intro j k h
  refine agree_bind (nodeOf_agree h) fun n m hnode => ?_
  rw [hnode.tag]
  split
  · exact onValue_agree hnode (onItems_steady hread)
  · exact agree_reject _ _ _

end Lists

/-! ## What takes no room of its own -/

-- Texts and numbers have nothing in them that could differ.
theorem text_steady : Steady (text room) := by
  intro j k h
  cases h.seen with
  | same => exact .refl _
  | items => exact agree_reject _ _ _
  | members => exact agree_reject _ _ _

theorem integer_steady : Steady (integer room) := by
  intro j k h
  cases h.seen with
  | same => exact .refl _
  | items => exact agree_reject _ _ _
  | members => exact agree_reject _ _ _

theorem index_steady : Steady (index room) := by
  intro j k h
  refine agree_bind (integer_steady j k h) fun n _ hn => ?_
  rw [← hn]
  split
  · exact agree_reject _ _ _
  · exact .refl _

theorem names_steady : Steady (names room) := by
  intro j k h
  cases h.seen with
  | same => exact .refl _
  | items hitems => exact itemsFrom_agree text_steady hitems 0
  | members => exact onList_steady text_steady _ _ h

theorem varName_steady : Steady (varName room) := by
  intro j k h
  refine agree_bind (text_steady j k h) fun name _ hname => ?_
  rw [← hname]
  split
  · exact .refl _
  · exact agree_reject _ _ _

theorem parsedVar_steady : Steady (parsedVar room) := by
  intro j k h
  refine agree_bind (nodeOf_agree h) fun n m hnode => ?_
  rw [hnode.tag]
  split
  · exact onField_agree hnode varName_steady (by decide)
  · exact agree_reject _ _ _

theorem lambdaKind_steady : Steady (lambdaKind room) := by
  intro j k h
  refine agree_bind (nodeOf_agree h) fun n m hnode => ?_
  rw [hnode.tag]
  split
  · exact .refl _
  · exact agree_map _ (onField_agree hnode text_steady (by decide))
  · exact agree_reject _ _ _

theorem address_steady : Steady (address room) := by
  intro j k h
  refine agree_bind (nodeOf_agree h) fun n m hnode => ?_
  rw [hnode.tag]
  have hindex (key : Text) (hkey : key ∈ readKeys) :
      Agree Eq (onField room n key (index room)) (onField room m key (index room)) :=
    onField_agree hnode index_steady hkey
  split
  · exact .refl _
  · exact agree_map _ (hindex "minor" (by decide))
  · refine agree_bind (hindex "major" (by decide)) fun major _ hmajor => ?_
    rw [← hmajor]
    exact agree_map _ (hindex "minor" (by decide))
  · exact agree_reject _ _ _

theorem analyzedVar_steady : Steady (analyzedVar room) := by
  intro j k h
  refine agree_bind (nodeOf_agree h) fun n m hnode => ?_
  rw [hnode.tag]
  split
  · refine agree_bind (onField_agree hnode varName_steady (by decide)) fun name _ hname => ?_
    rw [← hname]
    exact agree_map _ (onField_agree hnode address_steady (by decide))
  · exact agree_reject _ _ _

theorem callWord_steady : Steady (callWord room) := by
  intro j k h
  cases h.seen with
  | same => exact .refl _
  | items => exact agree_reject _ _ _
  | members => exact agree_reject _ _ _

theorem callKind_steady : Steady (callKind room) := by
  intro j k h
  refine agree_bind (nodeOf_agree h) fun n m hnode => ?_
  rw [hnode.tag]
  split
  · exact onValue_agree hnode callWord_steady
  · exact agree_reject _ _ _

/-! ## Nodes -/

section Nodes

variable {n m : Node} (hnode : NodesAlike n m)

include hnode

/-- What is read from nodes that are alike is one value, tag by tag. -/
theorem sexprNode_agree {part element : Json → Reading Sexpr} (hpart : Steady part)
    (helement : Steady element) :
    Agree Eq (sexprNode room part element n) (sexprNode room part element m) := by
  have htext : Agree Eq (onValue room n (text room)) (onValue room m (text room)) :=
    onValue_agree hnode text_steady
  unfold sexprNode
  rw [hnode.tag]
  split
  · exact .refl _
  · exact .refl _
  · refine agree_bind (onField_agree hnode integer_steady (by decide)) fun _ _ hnum => ?_
    rw [← hnum]
    exact agree_map _ (onField_agree hnode integer_steady (by decide))
  · exact agree_map _ htext
  · exact agree_map _ htext
  · exact agree_map _ htext
  · exact agree_map _ (onList_steady helement _ _ hnode.whole)
  · refine agree_bind (onField_agree hnode hpart (by decide)) fun _ _ hcar => ?_
    rw [← hcar]
    exact agree_map _ (onField_agree hnode hpart (by decide))
  · exact agree_reject _ _ _

/-- The expressions of the second stage that nodes alike stand for are one, tag by tag. -/
theorem parsedNode_agree {part element : Json → Reading Parsed.Expr}
    (hsexpr : Steady (sexpr room)) (hpart : Steady part) (helement : Steady element) :
    Agree Eq (parsedNode room part element n) (parsedNode room part element m) := by
  have hfield (key : Text) (hkey : key ∈ readKeys) :
      Agree Eq (onField room n key part) (onField room m key part) :=
    onField_agree hnode hpart hkey
  have hlist (key : Text) (hkey : key ∈ readKeys) :
      Agree Eq (onField room n key (onList room element))
        (onField room m key (onList room element)) :=
    onField_agree hnode (onList_steady helement) hkey
  have hvar : Agree Eq (onField room n "var" (parsedVar room))
      (onField room m "var" (parsedVar room)) :=
    onField_agree hnode parsedVar_steady (by decide)
  unfold parsedNode
  rw [hnode.tag]
  split
  · exact agree_map _ (onField_agree hnode hsexpr (by decide))
  · exact agree_map _ hvar
  · refine agree_bind (hfield "test" (by decide)) fun _ _ htest => ?_
    refine agree_bind (hfield "dit" (by decide)) fun _ _ hthen => ?_
    rw [← htest, ← hthen]
    exact agree_map _ (hfield "dif" (by decide))
  · exact agree_map _ (hlist "exprs" (by decide))
  · exact agree_map _ (hlist "exprs" (by decide))
  · refine agree_bind hvar fun _ _ hvar => ?_
    rw [← hvar]
    exact agree_map _ (hfield "val" (by decide))
  · refine agree_bind hvar fun _ _ hvar => ?_
    rw [← hvar]
    exact agree_map _ (hfield "val" (by decide))
  · refine agree_bind (onField_agree hnode names_steady (by decide)) fun _ _ hparams => ?_
    refine agree_bind (onField_agree hnode lambdaKind_steady (by decide)) fun _ _ hkind => ?_
    rw [← hparams, ← hkind]
    exact agree_map _ (hfield "body" (by decide))
  · refine agree_bind (hfield "applicative" (by decide)) fun _ _ hoperator => ?_
    rw [← hoperator]
    exact agree_map _ (hlist "params" (by decide))
  · exact agree_reject _ _ _

/-- The expressions of the third stage that nodes alike stand for are one, tag by tag. -/
theorem analyzedNode_agree {part element : Json → Reading Analyzed.Expr}
    (hsexpr : Steady (sexpr room)) (hpart : Steady part) (helement : Steady element) :
    Agree Eq (analyzedNode room part element n) (analyzedNode room part element m) := by
  have hfield (key : Text) (hkey : key ∈ readKeys) :
      Agree Eq (onField room n key part) (onField room m key part) :=
    onField_agree hnode hpart hkey
  have hlist (key : Text) (hkey : key ∈ readKeys) :
      Agree Eq (onField room n key (onList room element))
        (onField room m key (onList room element)) :=
    onField_agree hnode (onList_steady helement) hkey
  have hvar : Agree Eq (onField room n "var" (analyzedVar room))
      (onField room m "var" (analyzedVar room)) :=
    onField_agree hnode analyzedVar_steady (by decide)
  unfold analyzedNode
  rw [hnode.tag]
  split
  · exact agree_map _ (onField_agree hnode hsexpr (by decide))
  · exact agree_map _ hvar
  · exact agree_map _ hvar
  · exact agree_map _ hvar
  · refine agree_bind (hfield "test" (by decide)) fun _ _ htest => ?_
    refine agree_bind (hfield "dit" (by decide)) fun _ _ hthen => ?_
    rw [← htest, ← hthen]
    exact agree_map _ (hfield "dif" (by decide))
  · exact agree_map _ (hlist "exprs" (by decide))
  · exact agree_map _ (hlist "exprs" (by decide))
  · refine agree_bind hvar fun _ _ hvar => ?_
    rw [← hvar]
    exact agree_map _ (hfield "val" (by decide))
  · refine agree_bind hvar fun _ _ hvar => ?_
    rw [← hvar]
    exact agree_map _ (hfield "val" (by decide))
  · refine agree_bind hvar fun _ _ hvar => ?_
    rw [← hvar]
    exact agree_map _ (hfield "val" (by decide))
  · refine agree_bind (onField_agree hnode names_steady (by decide)) fun _ _ hparams => ?_
    rw [← hparams]
    exact agree_map _ (hfield "body" (by decide))
  · refine agree_bind (hfield "applicative" (by decide)) fun _ _ hoperator => ?_
    refine agree_bind (hlist "params" (by decide)) fun _ _ hargs => ?_
    rw [← hoperator, ← hargs]
    exact agree_map _ (onField_agree hnode callKind_steady (by decide))
  · exact agree_reject _ _ _

end Nodes

/-! ## Readers -/

/-- A reader that is steady where there is less room is steady, if it is so of a whole given that
    it is of the parts. -/
theorem steady_of_step {read : Nat → Json → Reading α} (hzero : ∀ j, read 0 j = .error .tooDeep)
    (hstep : ∀ room, Steady (read room) → Steady (readItem read room) → Steady (read (room + 1)))
    (room : Nat) : Steady (read room) := by
  induction room using Nat.strongRecOn with
  | _ room ih =>
    cases room with
    | zero =>
        intro j k _
        rw [hzero, hzero]
        exact .refl _
    | succ room =>
        -- Parts are read with one unit less, and items of lists with three units less.
        refine hstep room (ih room (Nat.lt_succ_self room)) fun j k h => ?_
        rcases readItem_cases read room with ⟨below, rfl, hread⟩ | ⟨_, hread⟩
        · rw [hread]
          exact ih below (by omega) j k h
        · rw [hread, hread]
          exact .refl _

/-- Nothing nests in an atom that stands for itself, so a document in which something nests is
    read as a node. -/
theorem sexpr_succ_of_nesting_pos (h : 0 < j.nesting) :
    sexpr (room + 1) j = nodeOf room j >>= sexprNode room (sexpr room) (readItem sexpr room) := by
  rcases sexpr_succ_cases room j with ⟨_, rfl, _⟩ | ⟨_, rfl, _⟩ | ⟨_, rfl, _⟩ | hnode
  · simp [Json.nesting] at h
  · simp [Json.nesting] at h
  · simp [Json.nesting] at h
  · exact hnode

/-- Similar documents are read as the same value, or refused for the same problem. -/
theorem sexpr_steady (room : Nat) : Steady (sexpr room) := by
  refine steady_of_step (fun _ => rfl) (fun room hpart helement j k h => ?_) room
  have hnode : Agree Eq (nodeOf room j >>= sexprNode room (sexpr room) (readItem sexpr room))
      (nodeOf room k >>= sexprNode room (sexpr room) (readItem sexpr room)) :=
    agree_bind (nodeOf_agree h) fun _ _ hnode => sexprNode_agree hnode hpart helement
  have hread (l : Json) (hl : 0 < l.nesting) : sexpr (room + 1) l =
      nodeOf room l >>= sexprNode room (sexpr room) (readItem sexpr room) :=
    sexpr_succ_of_nesting_pos hl
  cases h.seen with
  | same => exact .refl _
  | @items items others =>
      -- Arrays and objects are no bare values, so both are read as nodes.
      rw [hread (.arr items) (Nat.succ_pos _), hread (.arr others) (Nat.succ_pos _)]
      exact hnode
  | @members members others =>
      rw [hread (.obj members) (Nat.succ_pos _), hread (.obj others) (Nat.succ_pos _)]
      exact hnode

/-- Similar documents are read as the same expression of the second stage. -/
theorem parsed_steady (room : Nat) : Steady (parsed room) := by
  refine steady_of_step (fun _ => rfl) (fun room hpart helement j k h => ?_) room
  rw [parsed_succ, parsed_succ]
  exact agree_bind (nodeOf_agree h) fun _ _ hnode =>
    parsedNode_agree hnode (sexpr_steady room) hpart helement

/-- Similar documents are read as the same expression of the third stage. -/
theorem analyzed_steady (room : Nat) : Steady (analyzed room) := by
  refine steady_of_step (fun _ => rfl) (fun room hpart helement j k h => ?_) room
  rw [analyzed_succ, analyzed_succ]
  exact agree_bind (nodeOf_agree h) fun _ _ hnode =>
    analyzedNode_agree hnode (sexpr_steady room) hpart helement

end Wire

end StageTree
