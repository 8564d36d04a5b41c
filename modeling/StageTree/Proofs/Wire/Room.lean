import StageTree.Proofs.Wire.Reading

/-!
# Room for Reading

What has a form is read if there is room for it, and found too deep if there is not. How much
room it takes is the nesting of the value that is read, so the two cases are put into one
equation: reading gives the value, in the room that the value takes (`inRoom`).

Equations of this kind are easy to combine. Going down to a part changes nothing, and reading
one part after another takes the room of the one that takes more. What is left of the proofs
about the three readers is to follow the forms.

## Main definitions

* `inRoom`: A value that takes some room.
* `readItem`: How the items of lists are read.
* `ReadsInRoom`: A reader reads what has the form in the room that it takes.

## Theorems

* `inRoom_bind`, `onField_inRoom`, `onList_inRoom`: Reading the parts of a node.
* `readsInRoom_of_step`: From the parts of values to whole values.
* `sexpr_step`, `parsed_step`, `analyzed_step`: One level of a document.
* `sexpr_inRoom`, `parsed_inRoom`, `analyzed_inRoom`: What has a form is read, in the room that
  it takes.
-/

namespace StageTree

namespace Wire

variable {α β : Type} {room : Nat} {j : Json}

/-! ## Values that take room -/

/-- A value that takes some room: what there is to read if there is that much. -/
def inRoom (need room : Nat) (a : α) : Reading α :=
  if need ≤ room then .ok a else .error .tooDeep

theorem inRoom_of_le {need : Nat} (h : need ≤ room) (a : α) : inRoom need room a = .ok a :=
  if_pos h

theorem inRoom_of_lt {need : Nat} (h : room < need) (a : α) :
    inRoom need room a = .error .tooDeep :=
  if_neg (Nat.not_le.2 h)

/-- A unit of need and a unit of room go against each other. -/
theorem inRoom_succ (need : Nat) (a : α) : inRoom (need + 1) (room + 1) a = inRoom need room a := by
  unfold inRoom
  simp only [Nat.add_le_add_iff_right]

/-- Where there is room for one level at all, a value that takes at least one takes no more. -/
theorem inRoom_max_one (need : Nat) (a : α) :
    inRoom (max 1 need) (room + 1) a = inRoom need (room + 1) a := by
  unfold inRoom
  have h : max 1 need ≤ room + 1 ↔ need ≤ room + 1 := by omega
  simp only [h]

/-- Running out of room is reported in the same way from further out. -/
theorem within_inRoom (step : Step) (need : Nat) (a : α) :
    within step (inRoom need room a) = inRoom need room a := by
  unfold inRoom
  split <;> rfl

/-- Reading one part after another takes the room of the one that takes more. -/
theorem inRoom_bind {m n : Nat} {a : α} {b : β} {f : α → Reading β}
    (hf : f a = inRoom n room b) : (inRoom m room a >>= f) = inRoom (max m n) room b := by
  by_cases hm : m ≤ room
  · rw [inRoom_of_le hm, ok_bind, hf]
    unfold inRoom
    simp only [Nat.max_le, hm, true_and]
  · rw [inRoom_of_lt (Nat.not_le.1 hm), inRoom_of_lt (by omega)]
    rfl

/-- Making a value of a part takes no more room. -/
theorem inRoom_map {need : Nat} {a : α} {b : β} {f : α → Reading β} (hf : f a = .ok b) :
    (inRoom need room a >>= f) = inRoom need room b := by
  rw [inRoom_bind (hf.trans (inRoom_of_le (Nat.zero_le room) b).symm), Nat.max_zero]

theorem bind_of_ok {reading : Reading α} {a : α} (h : reading = .ok a) (f : α → Reading β) :
    (reading >>= f) = f a := by rw [h, ok_bind]

/-! ## Parts -/

theorem onField_inRoom {node : Node} (hnode : IsNode j node) {key : Text} {part : Json}
    (hpart : HasField j key part) {need rest : Nat} {a : α} {read : Json → Reading α}
    (hread : read part = inRoom need room a) :
    onField rest node key read = inRoom need room a := by
  rw [onField_of_hasField hnode hpart, hread, within_inRoom, within_inRoom]

/-- How the items of a list are read: two units of room further down than other parts. -/
def readItem (read : Nat → Json → Reading α) : Nat → Json → Reading α
  | room + 2 => read room
  | _ => fun _ => .error .tooDeep

/-- An item is read two units further down, or there are less than two units. -/
theorem readItem_cases (read : Nat → Json → Reading α) (room : Nat) :
    (∃ below, room = below + 2 ∧ readItem read room = read below) ∨
    (room < 2 ∧ ∀ j, readItem read room j = .error .tooDeep) := by
  by_cases hshort : room < 2
  · refine Or.inr ⟨hshort, fun j => ?_⟩
    unfold readItem
    split
    · omega
    · rfl
  · refine Or.inl ⟨room - 2, by omega, ?_⟩
    rw [show room = room - 2 + 2 by omega]
    rfl

/-- An item needs the room of its value and that of a step into a list. -/
theorem readItem_inRoom {read : Nat → Json → Reading α} {need : Nat} {a : α}
    (hread : ∀ below ≤ room, read below j = inRoom need below a) :
    readItem read room j = inRoom (need + listStep) (room + 1) a := by
  rcases readItem_cases read room with ⟨below, rfl, hitem⟩ | ⟨hshort, hitem⟩
  · rw [hitem, hread below (by omega)]
    exact ((inRoom_succ _ _).trans ((inRoom_succ _ _).trans (inRoom_succ _ _))).symm
  · -- With less than two units there is no room for any value that stands in a list.
    rw [hitem, inRoom_of_lt (by rw [listStep]; omega)]

/-- A reader reads what has the form in the room that it takes. -/
def ReadsInRoom (read : Json → Reading α) (Form : Json → α → Prop) (need : α → Nat)
    (room : Nat) : Prop :=
  ∀ j a, Form j a → read j = inRoom (need a) room a

/-- A reader reads what has the form in the room that it takes, if it does so of a value given
    that it does of the value's parts. -/
theorem readsInRoom_of_step {read : Nat → Json → Reading α} {Form : Json → α → Prop}
    {nesting : α → Nat} (hzero : ∀ j, read 0 j = .error .tooDeep) (hpos : ∀ a, 0 < nesting a)
    (hstep : ∀ room, ReadsInRoom (read room) Form nesting room →
      ReadsInRoom (readItem read room) Form (fun a => nesting a + listStep) (room + 1) →
      ReadsInRoom (read (room + 1)) Form nesting (room + 1))
    (room : Nat) : ReadsInRoom (read room) Form nesting room := by
  -- Items are read with less room by three levels, hence the strong induction.
  induction room using Nat.strongRecOn with
  | _ room ih =>
    cases room with
    | zero =>
        intro j a _
        rw [hzero, inRoom_of_lt (hpos a)]
    | succ room =>
        refine hstep room (ih room (Nat.lt_succ_self room)) fun j a h => ?_
        exact readItem_inRoom fun below hbelow => ih below (Nat.lt_succ_of_le hbelow) j a h

/-- The room that the deepest of some values takes. -/
def deepest (need : α → Nat) (as : List α) : Nat := as.foldr (fun a n => max (need a) n) 0

-- By induction along the list: the first item takes its room, the others take theirs, and
-- putting them together takes none.
theorem itemsFrom_inRoom {read : Json → Reading α} {Form : Json → α → Prop} {need : α → Nat}
    (hread : ReadsInRoom read Form need room) {items : List Json} {as : List α}
    (h : List.Forall₂ Form items as) (i : Nat) :
    itemsFrom read i items = inRoom (deepest need as) room as := by
  induction h generalizing i with
  | nil => exact (inRoom_of_le (Nat.zero_le room) []).symm
  | cons hfirst _ ih =>
      rw [itemsFrom, hread _ _ hfirst, within_inRoom]
      refine inRoom_bind ?_
      rw [ih]
      exact inRoom_map rfl

/-- A list needs as much room as its deepest item. -/
theorem onList_inRoom {read : Json → Reading α} {Form : Json → α → Prop} {need : α → Nat}
    (hread : ReadsInRoom read Form need room) {rest : Nat} {items : List Json} {as : List α}
    (hlist : IsList j items) (h : List.Forall₂ Form items as) :
    onList rest read j = inRoom (deepest need as) room as := by
  rcases hlist with ⟨htag, hvalue⟩
  rcases exists_node htag with ⟨members, hnode, hroom⟩
  rw [onList, hroom, ok_bind, listTag, if_pos rfl, onValue_of_hasValue hnode hvalue, onItems,
    itemsFrom_inRoom hread h, within_inRoom]

/-! ## Reader values -/

/-- A reader value is a JSON value of its own, or the document is a node. -/
theorem sexpr_succ_cases (room : Nat) (j : Json) :
    (∃ value, j = .bool value ∧ sexpr (room + 1) j = .ok (.atom (.boolean value))) ∨
    (∃ value, j = .int value ∧ sexpr (room + 1) j = wholeNumber room value) ∨
    (∃ value, j = .float value ∧ sexpr (room + 1) j = .ok (.atom (.float value))) ∨
    sexpr (room + 1) j = nodeOf room j >>= sexprNode room (sexpr room) (readItem sexpr room) := by
  cases j with
  | bool value => exact Or.inl ⟨value, rfl, rfl⟩
  | int value => exact Or.inr (Or.inl ⟨value, rfl, rfl⟩)
  | float value => exact Or.inr (Or.inr (Or.inl ⟨value, rfl, rfl⟩))
  | _ =>
      refine Or.inr (Or.inr (Or.inr ?_))
      cases room with
      | zero => rfl
      | succ room => cases room <;> rfl

/-- What is read from a node goes by its tag. -/
theorem sexpr_succ {node : Node} (hnode : IsNode j node) :
    sexpr (room + 1) j = sexprNode room (sexpr room) (readItem sexpr room) node := by
  rcases sexpr_succ_cases room j with ⟨_, h, _⟩ | ⟨_, h, _⟩ | ⟨_, h, _⟩ | h
  · cases hnode.members.symm.trans h
  · cases hnode.members.symm.trans h
  · cases hnode.members.symm.trans h
  · rw [h, nodeOf_eq_ok.2 hnode, ok_bind]

theorem sexpr_nesting_pos (s : Sexpr) : 0 < s.nesting := by
  cases s with
  | atom a => exact Nat.one_pos
  | vector elements =>
      rw [Sexpr.nesting]
      omega
  | pair car cdr => exact Nat.succ_pos _

-- The nesting of a list is defined by recursion on the list, side by side with that of values.
theorem nestingOfElements_eq (elements : List Sexpr) :
    Sexpr.nestingOfElements elements = deepest (fun s => s.nesting + listStep) elements := by
  induction elements with
  | nil => rfl
  | cons element rest ih => rw [Sexpr.nestingOfElements, ih, deepest, deepest, List.foldr_cons]

theorem sexpr_step (hpart : ReadsInRoom (sexpr room) Denotes Sexpr.nesting room)
    (hitem : ReadsInRoom (readItem sexpr room) Denotes (fun s => s.nesting + listStep) (room + 1)) :
    ReadsInRoom (sexpr (room + 1)) Denotes Sexpr.nesting (room + 1) := by
  intro j s h
  -- Atoms take one unit, and here there is one.
  have hatom (a : Atom) :
      Except.ok (Sexpr.atom a) = inRoom (Sexpr.atom a).nesting (room + 1) (Sexpr.atom a) :=
    (inRoom_of_le (Nat.succ_le_succ (Nat.zero_le room)) _).symm
  cases h with
  | boolean value => exact hatom _
  | float value => exact hatom _
  | integer hfinite =>
      -- The number is finite, so it is not refused for its size.
      refine Eq.trans ?_ (hatom _)
      change wholeNumber room _ = _
      rw [wholeNumber, hfinite]
      rfl
  | void htag =>
      rcases exists_node htag with ⟨members, hnode, _⟩
      rw [sexpr_succ hnode]
      simp only [sexprNode]
      exact hatom _
  | nil htag =>
      rcases exists_node htag with ⟨members, hnode, _⟩
      rw [sexpr_succ hnode]
      simp only [sexprNode]
      exact hatom _
  | rational htag hnum hden =>
      rcases exists_node htag with ⟨members, hnode, _⟩
      rw [sexpr_succ hnode]
      simp only [sexprNode, rational]
      rw [bind_of_ok ((onField_iff_hasField hnode integer_eq_ok).2 hnum),
        bind_of_ok ((onField_iff_hasField hnode integer_eq_ok).2 hden)]
      exact hatom _
  | char htag hvalue =>
      rcases exists_node htag with ⟨members, hnode, _⟩
      rw [sexpr_succ hnode]
      simp only [sexprNode]
      rw [bind_of_ok ((onValue_iff_hasValue hnode text_eq_ok).2 hvalue)]
      exact hatom _
  | string htag hvalue =>
      rcases exists_node htag with ⟨members, hnode, _⟩
      rw [sexpr_succ hnode]
      simp only [sexprNode]
      rw [bind_of_ok ((onValue_iff_hasValue hnode text_eq_ok).2 hvalue)]
      exact hatom _
  | symbol htag hvalue =>
      rcases exists_node htag with ⟨members, hnode, _⟩
      rw [sexpr_succ hnode]
      simp only [sexprNode]
      rw [bind_of_ok ((onValue_iff_hasValue hnode text_eq_ok).2 hvalue)]
      exact hatom _
  | vector hlist helements =>
      rcases exists_node hlist.1 with ⟨members, hnode, _⟩
      rw [sexpr_succ hnode]
      simp only [sexprNode]
      rw [onList_inRoom hitem hlist helements, Sexpr.nesting, inRoom_max_one,
        nestingOfElements_eq]
      exact inRoom_map rfl
  | pair htag ha hd hcar hcdr =>
      rcases exists_node htag with ⟨members, hnode, _⟩
      rw [sexpr_succ hnode]
      simp only [sexprNode]
      rw [onField_inRoom hnode ha (hpart _ _ hcar), onField_inRoom hnode hd (hpart _ _ hcdr),
        Sexpr.nesting, inRoom_succ]
      exact inRoom_bind (inRoom_map rfl)

/-- A value is read exactly if there is room for its nesting. -/
theorem sexpr_inRoom (room : Nat) : ReadsInRoom (sexpr room) Denotes Sexpr.nesting room :=
  readsInRoom_of_step (fun _ => rfl) sexpr_nesting_pos (fun _ => sexpr_step) room

/-! ## Parsed expressions -/

theorem parsed_succ (room : Nat) (j : Json) : parsed (room + 1) j =
    nodeOf room j >>= parsedNode room (parsed room) (readItem parsed room) := by
  cases room with
  | zero => rfl
  | succ room => cases room <;> rfl

theorem parsed_nesting_pos (e : Parsed.Expr) : 0 < e.nesting := by
  cases e <;> rw [Parsed.Expr.nesting] <;> omega

/-- Expressions in a list nest as deep as the deepest of them. -/
theorem parsed_nestingOfAll_eq (es : List Parsed.Expr) :
    Parsed.Expr.nestingOfAll es = deepest (fun e => e.nesting + listStep) es := by
  induction es with
  | nil => rfl
  | cons e rest ih => rw [Parsed.Expr.nestingOfAll, ih, deepest, deepest, List.foldr_cons]

-- Constants are the place where one form stands in the other, and there the fact about reader
-- values is used as it is.
theorem parsed_step (hpart : ReadsInRoom (parsed room) ParsedForm Parsed.Expr.nesting room)
    (hitem : ReadsInRoom (readItem parsed room) ParsedForm (fun e => e.nesting + listStep)
      (room + 1)) :
    ReadsInRoom (parsed (room + 1)) ParsedForm Parsed.Expr.nesting (room + 1) := by
  intro j e h
  cases h with
  | const htag hs hvalue =>
      rcases exists_node htag with ⟨members, hnode, hroom⟩
      simp only [parsed_succ, hroom, ok_bind, parsedNode]
      rw [onField_inRoom hnode hs (sexpr_inRoom room _ _ hvalue), Parsed.Expr.nesting, inRoom_succ]
      exact inRoom_map rfl
  | get htag hv hvar =>
      rcases exists_node htag with ⟨members, hnode, hroom⟩
      simp only [parsed_succ, hroom, ok_bind, parsedNode]
      rw [bind_of_ok ((onField_eq_ok hnode).2 ⟨_, hv, parsedVar_eq_ok.2 hvar⟩),
        Parsed.Expr.nesting, inRoom_of_le (Nat.le_add_left 1 room)]
      rfl
  | cond htag ht ha hb htest hthen helse =>
      rcases exists_node htag with ⟨members, hnode, hroom⟩
      simp only [parsed_succ, hroom, ok_bind, parsedNode]
      rw [onField_inRoom hnode ht (hpart _ _ htest), onField_inRoom hnode ha (hpart _ _ hthen),
        onField_inRoom hnode hb (hpart _ _ helse), Parsed.Expr.nesting, inRoom_succ]
      exact inRoom_bind (inRoom_bind (inRoom_map rfl))
  | seq htag hl hlist hexprs =>
      rcases exists_node htag with ⟨members, hnode, hroom⟩
      simp only [parsed_succ, hroom, ok_bind, parsedNode]
      rw [onField_inRoom hnode hl (onList_inRoom hitem hlist hexprs), Parsed.Expr.nesting,
        inRoom_max_one, parsed_nestingOfAll_eq]
      exact inRoom_map rfl
  | disj htag hl hlist hexprs =>
      rcases exists_node htag with ⟨members, hnode, hroom⟩
      simp only [parsed_succ, hroom, ok_bind, parsedNode]
      rw [onField_inRoom hnode hl (onList_inRoom hitem hlist hexprs), Parsed.Expr.nesting,
        inRoom_max_one, parsed_nestingOfAll_eq]
      exact inRoom_map rfl
  | set htag hv he hvar hvalue =>
      rcases exists_node htag with ⟨members, hnode, hroom⟩
      simp only [parsed_succ, hroom, ok_bind, parsedNode]
      rw [bind_of_ok ((onField_eq_ok hnode).2 ⟨_, hv, parsedVar_eq_ok.2 hvar⟩),
        onField_inRoom hnode he (hpart _ _ hvalue), Parsed.Expr.nesting, inRoom_succ]
      exact inRoom_map rfl
  | define htag hv he hvar hvalue =>
      rcases exists_node htag with ⟨members, hnode, hroom⟩
      simp only [parsed_succ, hroom, ok_bind, parsedNode]
      rw [bind_of_ok ((onField_eq_ok hnode).2 ⟨_, hv, parsedVar_eq_ok.2 hvar⟩),
        onField_inRoom hnode he (hpart _ _ hvalue), Parsed.Expr.nesting, inRoom_succ]
      exact inRoom_map rfl
  | lambda htag hp hk hb hparams hkind hbody =>
      rcases exists_node htag with ⟨members, hnode, hroom⟩
      simp only [parsed_succ, hroom, ok_bind, parsedNode]
      rw [bind_of_ok ((onField_eq_ok hnode).2 ⟨_, hp, names_eq_ok.2 hparams⟩),
        bind_of_ok ((onField_eq_ok hnode).2 ⟨_, hk, lambdaKind_eq_ok.2 hkind⟩),
        onField_inRoom hnode hb (hpart _ _ hbody), Parsed.Expr.nesting, inRoom_succ]
      exact inRoom_map rfl
  | apply htag ho hl hoperator hlist hargs =>
      rcases exists_node htag with ⟨members, hnode, hroom⟩
      simp only [parsed_succ, hroom, ok_bind, parsedNode]
      -- The operator is counted from where it is entered, the arguments from here.
      rw [onField_inRoom hnode ho ((hpart _ _ hoperator).trans (inRoom_succ _ _).symm),
        onField_inRoom hnode hl (onList_inRoom hitem hlist hargs), Parsed.Expr.nesting,
        parsed_nestingOfAll_eq]
      exact inRoom_bind (inRoom_map rfl)

/-- An expression of the second stage is read exactly if there is room for its nesting. -/
theorem parsed_inRoom (room : Nat) :
    ReadsInRoom (parsed room) ParsedForm Parsed.Expr.nesting room :=
  readsInRoom_of_step (fun _ => rfl) parsed_nesting_pos (fun _ => parsed_step) room

/-! ## Analyzed expressions -/

theorem analyzed_succ (room : Nat) (j : Json) : analyzed (room + 1) j =
    nodeOf room j >>= analyzedNode room (analyzed room) (readItem analyzed room) := by
  cases room with
  | zero => rfl
  | succ room => cases room <;> rfl

theorem analyzed_nesting_pos (e : Analyzed.Expr) : 0 < e.nesting := by
  cases e <;> rw [Analyzed.Expr.nesting] <;> omega

/-- Expressions in a list nest as deep as the deepest of them. -/
theorem analyzed_nestingOfAll_eq (es : List Analyzed.Expr) :
    Analyzed.Expr.nestingOfAll es = deepest (fun e => e.nesting + listStep) es := by
  induction es with
  | nil => rfl
  | cons e rest ih => rw [Analyzed.Expr.nestingOfAll, ih, deepest, deepest, List.foldr_cons]

-- What is new here is that applications have a kind, which is read after their arguments and
-- takes no room.
theorem analyzed_step (hpart : ReadsInRoom (analyzed room) AnalyzedForm Analyzed.Expr.nesting room)
    (hitem : ReadsInRoom (readItem analyzed room) AnalyzedForm (fun e => e.nesting + listStep)
      (room + 1)) :
    ReadsInRoom (analyzed (room + 1)) AnalyzedForm Analyzed.Expr.nesting (room + 1) := by
  intro j e h
  cases h with
  | const htag hs hvalue =>
      rcases exists_node htag with ⟨members, hnode, hroom⟩
      simp only [analyzed_succ, hroom, ok_bind, analyzedNode]
      rw [onField_inRoom hnode hs (sexpr_inRoom room _ _ hvalue), Analyzed.Expr.nesting,
        inRoom_succ]
      exact inRoom_map rfl
  | get htag hv hvar =>
      rcases exists_node htag with ⟨members, hnode, hroom⟩
      simp only [analyzed_succ, hroom, ok_bind, analyzedNode]
      rw [bind_of_ok ((onField_eq_ok hnode).2 ⟨_, hv, analyzedVar_eq_ok.2 hvar⟩),
        Analyzed.Expr.nesting, inRoom_of_le (Nat.le_add_left 1 room)]
      rfl
  | cond htag ht ha hb htest hthen helse =>
      rcases exists_node htag with ⟨members, hnode, hroom⟩
      simp only [analyzed_succ, hroom, ok_bind, analyzedNode]
      rw [onField_inRoom hnode ht (hpart _ _ htest), onField_inRoom hnode ha (hpart _ _ hthen),
        onField_inRoom hnode hb (hpart _ _ helse), Analyzed.Expr.nesting, inRoom_succ]
      exact inRoom_bind (inRoom_bind (inRoom_map rfl))
  | seq htag hl hlist hexprs =>
      rcases exists_node htag with ⟨members, hnode, hroom⟩
      simp only [analyzed_succ, hroom, ok_bind, analyzedNode]
      rw [onField_inRoom hnode hl (onList_inRoom hitem hlist hexprs),
        Analyzed.Expr.nesting, inRoom_max_one, analyzed_nestingOfAll_eq]
      exact inRoom_map rfl
  | disj htag hl hlist hexprs =>
      rcases exists_node htag with ⟨members, hnode, hroom⟩
      simp only [analyzed_succ, hroom, ok_bind, analyzedNode]
      rw [onField_inRoom hnode hl (onList_inRoom hitem hlist hexprs),
        Analyzed.Expr.nesting, inRoom_max_one, analyzed_nestingOfAll_eq]
      exact inRoom_map rfl
  | set htag hv he hvar hvalue =>
      rcases exists_node htag with ⟨members, hnode, hroom⟩
      simp only [analyzed_succ, hroom, ok_bind, analyzedNode]
      rw [bind_of_ok ((onField_eq_ok hnode).2 ⟨_, hv, analyzedVar_eq_ok.2 hvar⟩),
        onField_inRoom hnode he (hpart _ _ hvalue), Analyzed.Expr.nesting, inRoom_succ]
      exact inRoom_map rfl
  | define htag hv he hvar hvalue =>
      rcases exists_node htag with ⟨members, hnode, hroom⟩
      simp only [analyzed_succ, hroom, ok_bind, analyzedNode]
      rw [bind_of_ok ((onField_eq_ok hnode).2 ⟨_, hv, analyzedVar_eq_ok.2 hvar⟩),
        onField_inRoom hnode he (hpart _ _ hvalue), Analyzed.Expr.nesting, inRoom_succ]
      exact inRoom_map rfl
  | box htag hv hvar =>
      rcases exists_node htag with ⟨members, hnode, hroom⟩
      simp only [analyzed_succ, hroom, ok_bind, analyzedNode]
      rw [bind_of_ok ((onField_eq_ok hnode).2 ⟨_, hv, analyzedVar_eq_ok.2 hvar⟩),
        Analyzed.Expr.nesting, inRoom_of_le (Nat.le_add_left 1 room)]
      rfl
  | boxGet htag hv hvar =>
      rcases exists_node htag with ⟨members, hnode, hroom⟩
      simp only [analyzed_succ, hroom, ok_bind, analyzedNode]
      rw [bind_of_ok ((onField_eq_ok hnode).2 ⟨_, hv, analyzedVar_eq_ok.2 hvar⟩),
        Analyzed.Expr.nesting, inRoom_of_le (Nat.le_add_left 1 room)]
      rfl
  | boxSet htag hv he hvar hvalue =>
      rcases exists_node htag with ⟨members, hnode, hroom⟩
      simp only [analyzed_succ, hroom, ok_bind, analyzedNode]
      rw [bind_of_ok ((onField_eq_ok hnode).2 ⟨_, hv, analyzedVar_eq_ok.2 hvar⟩),
        onField_inRoom hnode he (hpart _ _ hvalue), Analyzed.Expr.nesting, inRoom_succ]
      exact inRoom_map rfl
  | lambda htag hp hb hparams hbody =>
      rcases exists_node htag with ⟨members, hnode, hroom⟩
      simp only [analyzed_succ, hroom, ok_bind, analyzedNode]
      rw [bind_of_ok ((onField_eq_ok hnode).2 ⟨_, hp, names_eq_ok.2 hparams⟩),
        onField_inRoom hnode hb (hpart _ _ hbody), Analyzed.Expr.nesting, inRoom_succ]
      exact inRoom_map rfl
  | apply htag ho hl hk hoperator hlist hargs hkind =>
      rcases exists_node htag with ⟨members, hnode, hroom⟩
      simp only [analyzed_succ, hroom, ok_bind, analyzedNode]
      -- The operator is counted from where it is entered, the arguments from here.
      rw [onField_inRoom hnode ho ((hpart _ _ hoperator).trans (inRoom_succ _ _).symm),
        onField_inRoom hnode hl (onList_inRoom hitem hlist hargs), Analyzed.Expr.nesting,
        analyzed_nestingOfAll_eq]
      refine inRoom_bind (inRoom_map ?_)
      rw [bind_of_ok ((onField_eq_ok hnode).2 ⟨_, hk, callKind_eq_ok.2 hkind⟩)]
      rfl

/-- An expression of the third stage is read exactly if there is room for its nesting. -/
theorem analyzed_inRoom (room : Nat) :
    ReadsInRoom (analyzed room) AnalyzedForm Analyzed.Expr.nesting room :=
  readsInRoom_of_step (fun _ => rfl) analyzed_nesting_pos (fun _ => analyzed_step) room

end Wire

end StageTree
