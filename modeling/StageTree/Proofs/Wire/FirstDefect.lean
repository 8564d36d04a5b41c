import StageTree.Proofs.Wire.Order

/-!
# The First Defect

The defect that a reader reports is the first one. What stands before it in the order of the
document has none: every part of the document that precedes the place where the defect comes up
is read by itself.

A field that is missing is found missing only after what stands before it was read, although
the element that its defect shows is the one that all these fields stand in. So the place where
a defect comes up is not always the place of its element: it is the place of what is missing
(`Defect.due`).

A node is read by going along its slots. What is carried along (`Advances`) is that the slots
that were passed are settled, which means that what stands in them is read by itself, with all
its parts, and that a reading that ends with a defect ends in a slot, in the order of what
stands there.

## Main definitions

* `Defect.due`: The place where a defect comes up.
* `ReadsBefore`: What precedes a place is read by itself.
* `Ends`: How a reading ends.
* `InOrder`: A reading ends with the first defect, or without one.
* `Advances`: A reading goes along a row of slots.

## Theorems

* `advances_cons`: Going along a row, slot by slot.
* `advances_field`, `advances_value`, `advances_onList`: Going through the slots of nodes.
* `inOrder_of_advances`: From the slots of an element to the element.
-/

namespace StageTree

namespace Wire

variable {α β : Type} {room : Nat} {j : Json}

/-! ## Where defects come up -/

/-- The place where a defect comes up. What is missing comes up where it would stand. -/
def Defect.due (d : Defect) : List Step :=
  match d.problem with
  | .noValue _ => d.steps ++ [.key "value"]
  | .noField key => d.steps ++ [.key key]
  | _ => d.steps

/-- A defect is due one step further out when it is reported from there. -/
theorem Defect.due_within (step : Step) (d : Defect) :
    Defect.due { d with steps := step :: d.steps } = step :: d.due := by
  rcases d with ⟨steps, problem, found⟩
  cases problem <;> rfl

/-! ## How readings end -/

/-- How a reading ends: one thing holds if it gives a result, and another one of the place where
    its defect comes up. -/
def Ends (done : Prop) (stopped : List Step → Prop) : Reading α → Prop
  | .ok _ => done
  | .error (.defective d) => stopped d.due
  | .error .tooDeep => True

section Ends

variable {done done' : Prop} {stopped stopped' : List Step → Prop} {reading : Reading α}

/-- How a reading ends may be described more weakly. -/
theorem Ends.imp (h : Ends done stopped reading) (hdone : done → done')
    (hstopped : ∀ due, stopped due → stopped' due) : Ends done' stopped' reading := by
  cases reading with
  | ok a => exact hdone h
  | error refusal =>
      cases refusal with
      | defective d => exact hstopped _ h
      | tooDeep => trivial

/-- A reading that goes on ends as its beginning does, or as the rest does once the beginning is
    done. -/
theorem Ends.bind {f : α → Reading β} (h : Ends done stopped reading)
    (hstopped : ∀ due, stopped due → stopped' due)
    (hf : ∀ a, reading = .ok a → done → Ends done' stopped' (f a)) :
    Ends done' stopped' (reading >>= f) := by
  cases reading with
  | ok a => exact hf a rfl h
  | error refusal =>
      cases refusal with
      | defective d => exact hstopped _ h
      | tooDeep => trivial

/-- Making a value of what was read ends nothing. -/
theorem Ends.map {f : α → β} (h : Ends done stopped reading) :
    Ends done stopped (reading >>= fun a => pure (f a)) :=
  h.bind (fun _ hdue => hdue) fun _ _ hdone => hdone

/-- A part ends where it stands. -/
theorem Ends.within {step : Step} (h : Ends done stopped reading)
    (hstopped : ∀ due, stopped due → stopped' (step :: due)) :
    Ends done stopped' (within step reading) := by
  cases reading with
  | ok a => exact h
  | error refusal =>
      cases refusal with
      | defective d =>
          change stopped' (Defect.due _)
          rw [Defect.due_within]
          exact hstopped _ h
      | tooDeep => trivial

/-- An element that is refused where it stands is refused for what it is or misses. -/
theorem ends_reject {problem : Problem} (h : stopped (Defect.due ⟨[], problem, j⟩)) :
    Ends done stopped (reject room problem j : Reading α) := by
  unfold reject
  split
  · exact h
  · trivial

end Ends

theorem membersOf_ends : Ends True (· = []) (membersOf room j) := by
  cases j with
  | obj members => trivial
  | _ => exact ends_reject rfl

-- A document is refused as a node for what it is itself, before all that belongs to it.
theorem nodeOf_ends : Ends True (· = []) (nodeOf room j) := by
  refine Ends.map (membersOf_ends.bind (fun _ hdue => hdue) fun members _ _ => ?_)
  split
  · trivial
  · exact ends_reject rfl

/-! ## What was passed -/

/-- The element and all its parts are read by themselves. -/
def Settled (role : Role) (j : Json) : Prop :=
  ∀ steps inner part, Part role j steps inner part → inner.Reads part

/-- The parts that precede a place are read by themselves. -/
def ReadsBefore (role : Role) (j : Json) (due : List Step) : Prop :=
  ∀ steps inner part, Part role j steps inner part → Precedes role j steps due →
    inner.Reads part

/-- A reading ends with the first defect, or without one. -/
def InOrder (role : Role) (j : Json) (reading : Reading α) : Prop :=
  Ends (Settled role j) (ReadsBefore role j) reading

namespace Slot

/-- What stands in the slot is settled. -/
def SettledIn (s : Slot) (j : Json) : Prop :=
  ∀ e, partAt? j s.steps = some e → Settled s.role e

/-- What comes up at a place comes up on the way to the slot, or in it after what precedes it
    there. -/
def StopsAt (s : Slot) (j : Json) (due : List Step) : Prop :=
  due <+: s.steps ∨
    ∃ e rest, partAt? j s.steps = some e ∧ due = s.steps ++ rest ∧ ReadsBefore s.role e rest

/-- A reading passes the slot, or ends there. -/
def Advances (s : Slot) (j : Json) (reading : Reading α) : Prop :=
  Ends (s.SettledIn j) (s.StopsAt j) reading

end Slot

/-- What comes up at a place comes up in a slot of the row after those in front of it are
    settled, or after all are. -/
def StopsIn (j : Json) (due : List Step) : List Slot → Prop
  | [] => True
  | s :: rest => s.StopsAt j due ∨ (s.SettledIn j ∧ StopsIn j due rest)

/-- A reading goes along a row of slots. -/
def Advances (row : List Slot) (j : Json) (reading : Reading α) : Prop :=
  Ends (∀ s ∈ row, s.SettledIn j) (fun due => StopsIn j due row) reading

/-! ## Going along a row -/

theorem advances_nil (reading : Reading α) : Advances [] j reading := by
  cases reading with
  | ok a => exact fun s hs => absurd hs List.not_mem_nil
  | error refusal => cases refusal <;> trivial

/-- A reading that goes on is one of the first slot, and then one of the rest of the row. -/
theorem advances_cons {s : Slot} {rest : List Slot} {reading : Reading α} {f : α → Reading β}
    (h : s.Advances j reading) (hf : ∀ a, reading = .ok a → Advances rest j (f a)) :
    Advances (s :: rest) j (reading >>= f) := by
  refine Ends.bind h (fun _ hdue => Or.inl hdue) fun a ha hs => ?_
  exact (hf a ha).imp (fun hrest => List.forall_mem_cons.2 ⟨hs, hrest⟩)
    fun _ hdue => Or.inr ⟨hs, hdue⟩

/-- The last slot of a row. -/
theorem advances_last {s : Slot} {reading : Reading α} {f : α → Reading β}
    (h : s.Advances j reading) : Advances [s] j (reading >>= f) :=
  advances_cons h fun a _ => advances_nil (f a)

/-- The only slot of a row. -/
theorem advances_only {s : Slot} {reading : Reading α} (h : s.Advances j reading) :
    Advances [s] j reading :=
  Ends.imp h (fun hs => List.forall_mem_singleton.2 hs) fun _ hdue => Or.inl hdue

-- What comes up where the row belongs comes up on the way to its first slot.
theorem stopsIn_nil (row : List Slot) : StopsIn j [] row := by
  cases row with
  | nil => trivial
  | cons s rest => exact Or.inl (Or.inl List.nil_prefix)

/-- A refusal of the element itself comes before all its parts. -/
theorem advances_reject {row : List Slot} {problem : Problem}
    (h : Defect.due ⟨[], problem, j⟩ = []) :
    Advances row j (reject room problem j : Reading α) :=
  ends_reject (h.symm ▸ stopsIn_nil row)

/-- A node is recognised before any of its parts is read. -/
theorem advances_nodeOf {row : List Slot} {f : Node → Reading β}
    (hf : ∀ node, IsNode j node → Advances row j (f node)) :
    Advances row j (nodeOf room j >>= f) :=
  nodeOf_ends.bind (fun _ hdue => hdue ▸ stopsIn_nil row) fun node hnode _ =>
    hf node (nodeOf_eq_ok.1 hnode)

/-! ## From further out -/

section Under

variable {step : Step} {part : Json} (hstep : stepInto? j step = some part)

include hstep

/-- A part is found below the step that leads to it. -/
theorem partAt?_under (steps : List Step) : partAt? j (step :: steps) = partAt? part steps := by
  rw [partAt?, hstep, Option.bind_some]

theorem Slot.SettledIn.under {s : Slot} (h : s.SettledIn part) : (s.under step).SettledIn j := by
  intro e he
  exact h e ((partAt?_under hstep s.steps).symm.trans he)

theorem Slot.StopsAt.under {s : Slot} {due : List Step} (h : s.StopsAt part due) :
    (s.under step).StopsAt j (step :: due) := by
  rcases h with hshort | ⟨e, rest, he, rfl, hrest⟩
  · exact Or.inl ((List.prefix_cons_inj step).2 hshort)
  · exact Or.inr ⟨e, rest, (partAt?_under hstep s.steps).trans he, rfl, hrest⟩

/-- Where a row stops is the same seen from further out. -/
theorem StopsIn.under {row : List Slot} {due : List Step} (h : StopsIn part due row) :
    StopsIn j (step :: due) (row.map (Slot.under step)) := by
  induction row with
  | nil => trivial
  | cons s rest ih =>
      rcases h with hs | ⟨hs, hrest⟩
      · exact Or.inl (hs.under hstep)
      · exact Or.inr ⟨hs.under hstep, ih hrest⟩

/-- A reader that advances does so seen from further out. -/
theorem Slot.Advances.within {s : Slot} {reading : Reading α} (h : s.Advances part reading) :
    (s.under step).Advances j (within step reading) :=
  (Ends.imp h (Slot.SettledIn.under hstep) fun _ hdue => hdue).within
    fun _ hdue => hdue.under hstep

/-- A row of readers that advances does so seen from further out. -/
theorem Advances.within {row : List Slot} {reading : Reading α} (h : Advances row part reading) :
    Advances (row.map (Slot.under step)) j (within step reading) := by
  refine (Ends.imp h (fun hrow s hs => ?_) fun _ hdue => hdue).within
    fun _ hdue => StopsIn.under hstep hdue
  rcases List.mem_map.1 hs with ⟨t, ht, rfl⟩
  exact (hrow t ht).under hstep

end Under

/-- Reading an element as what a slot holds is going through the slot, where the element is the
    whole. -/
theorem InOrder.advances {role : Role} {reading : Reading α} (h : InOrder role j reading) :
    Slot.Advances ⟨[], role⟩ j reading := by
  refine Ends.imp h (fun hsettled e he => ?_) fun due hdue => Or.inr ⟨j, due, rfl, rfl, hdue⟩
  cases he
  exact hsettled

/-! ## The parts of nodes -/

theorem advances_onMember {key : Text} {role : Role} {read : Json → Reading α}
    (hread : ∀ part, InOrder role part (read part)) :
    Slot.Advances ⟨[.key key], role⟩ j (onMember room key read j) := by
  refine membersOf_ends.bind (fun _ hdue => Or.inl (hdue ▸ List.nil_prefix))
    fun members hmembers _ => ?_
  have hobj : j = .obj members := by
    cases j with
    | obj _ =>
        cases hmembers
        rfl
    | _ => exact absurd hmembers (reject_ne_ok _ _ _)
  split
  · rename_i part hlookup
    exact (hread part).advances.within (stepInto?_key.2 ⟨members, hobj, hlookup⟩)
  · -- The member is missing where it would stand.
    exact ends_reject (Or.inl List.prefix_rfl)

section Node

variable {node : Node} (hnode : IsNode j node) {read : Json → Reading α}

include hnode

/-- Reading the value of a node advances past the part that the value is read as. -/
theorem advances_onValue {s : Slot}
    (hread : ∀ value, HasValue j value → s.Advances value (read value)) :
    (s.under (.key "value")).Advances j (onValue room node read) := by
  unfold onValue
  split
  · rename_i value hlookup
    have hvalue := hnode.hasValue_iff.2 hlookup
    exact (hread value hvalue).within (partAt?_step.1 hvalue)
  · rw [hnode.whole]
    exact ends_reject (Or.inl ((List.prefix_cons_inj _).2 List.nil_prefix))

theorem advances_value {role : Role} (hread : ∀ part, InOrder role part (read part)) :
    (Slot.value role).Advances j (onValue room node read) :=
  advances_onValue hnode (s := ⟨[], role⟩) fun value _ => (hread value).advances

/-- Reading a field advances past its part. -/
theorem advances_field {role : Role} (hread : ∀ part, InOrder role part (read part))
    (key : Text) : (Slot.field key role).Advances j (onField room node key read) :=
  advances_onValue hnode fun _ _ => advances_onMember hread

end Node

/-! ## Lists -/

-- By induction on the items that are left, as they are read. Those in front are what the index
-- of the next slot counts.
theorem advances_itemsFrom {role : Role} {read : Json → Reading α} {items : List Json}
    (hread : ∀ item ∈ items, InOrder role item (read item)) (front rest : List Json)
    (hitems : items = front ++ rest) :
    Advances ((List.range' front.length rest.length).map (Slot.item role)) (.arr items)
      (itemsFrom read front.length rest) := by
  induction rest generalizing front with
  | nil => exact advances_nil _
  | cons item rest ih =>
      have hmem : item ∈ items := by
        rw [hitems]
        exact List.mem_append_right _ List.mem_cons_self
      have hstep : stepInto? (.arr items) (.index front.length) = some item := by
        rw [stepInto?, hitems, List.getElem?_append_right (Nat.le_refl _), Nat.sub_self]
        rfl
      -- The item that is read joins those in front, whose number is the index of the next one.
      have hothers := ih (front ++ [item]) (by rw [hitems, List.append_assoc]; rfl)
      rw [List.length_append] at hothers
      exact advances_cons ((hread item hmem).advances.within hstep) fun _ _ => hothers.map

/-- Reading the items of an array advances past all of them. -/
theorem advances_items {role : Role} {read : Json → Reading α} {items : List Json}
    (hread : ∀ item ∈ items, InOrder role item (read item)) :
    Advances (Slot.items role items.length) (.arr items) (itemsFrom read 0 items) :=
  advances_itemsFrom hread [] items rfl

/-- Reading a list advances past all its items. -/
theorem advances_onList {role : Role} {read : Json → Reading α}
    (hread : ∀ item, InOrder role item (read item)) :
    Advances (Slot.listItems role j) j (onList room read j) := by
  refine advances_nodeOf fun node hnode => ?_
  split
  · unfold Slot.listItems
    split
    · rename_i values hvalue
      rw [onValue_of_hasValue hnode hvalue]
      exact (advances_items fun item _ => hread item).within (partAt?_step.1 hvalue)
    · exact advances_nil _
  · exact advances_reject rfl

/-! ## From the slots of an element to the element -/

section Apart

variable {row : List Slot} {s t : Slot} {p q : List Step}

theorem Apart.tail (h : Apart (s :: row)) : Apart row := by
  rcases h.level with ⟨n, hn⟩
  exact ⟨(List.nodup_cons.1 h.nodup).2, n, fun u hu => hn u (List.mem_cons_of_mem s hu)⟩

/-- A part that stands apart from others is not the whole element. -/
theorem Apart.steps_ne_nil (h : Apart row) (hs : s ∈ row) : s.steps ≠ [] := by
  rcases h.level with ⟨n, hn⟩
  intro hnil
  have hlength := hn s hs
  rw [hnil] at hlength
  cases hlength

/-- A place is in one slot of a row only. -/
theorem Apart.same_slot (h : Apart row) (hs : s ∈ row) (ht : t ∈ row)
    (heq : s.steps ++ p = t.steps ++ q) : s = t ∧ p = q := by
  rcases h.level with ⟨n, hn⟩
  have hparts := List.append_inj heq ((hn s hs).trans (hn t ht).symm)
  exact ⟨List.inj_on_of_nodup_map h.nodup hs ht hparts.1, hparts.2⟩

/-- On the way to a slot there is no other slot. -/
theorem Apart.same_slot_on_way (h : Apart row) (hs : s ∈ row) (ht : t ∈ row)
    (hway : s.steps ++ p <+: t.steps) : s = t ∧ p = [] := by
  rcases hway with ⟨rest, heq⟩
  rw [List.append_assoc, ← List.append_nil t.steps] at heq
  rcases h.same_slot hs ht heq with ⟨hst, hrest⟩
  exact ⟨hst, (List.append_eq_nil_iff.1 hrest).1⟩

-- A slot that a reading stops at is the one that the place is in.
theorem Slot.StopsAt.same_slot (hapart : Apart row) (hs : s ∈ row) (ht : t ∈ row)
    (h : s.StopsAt j (t.steps ++ q)) : s = t := by
  rcases h with hway | ⟨_, _, _, heq, _⟩
  · exact (hapart.same_slot_on_way ht hs hway).1.symm
  · exact (hapart.same_slot ht hs heq).1.symm

-- By induction on the row. A reading that stops at a slot has passed those in front of it, and
-- the slot is not among those.
theorem StopsIn.settledIn (hapart : Apart row) (h : StopsIn j (t.steps ++ q) row)
    (hst : [s, t].Sublist row) : s.SettledIn j := by
  induction row with
  | nil => cases hst
  | cons u rest ih =>
      have hnot : u.steps ∉ rest.map Slot.steps := (List.nodup_cons.1 hapart.nodup).1
      have ht : t ∈ u :: rest := hst.subset (List.mem_cons_of_mem s List.mem_cons_self)
      have htrest : t ∈ rest := by
        cases hst with
        | cons _ hrest => exact hrest.subset (List.mem_cons_of_mem s List.mem_cons_self)
        | cons_cons _ hrest => exact hrest.subset List.mem_cons_self
      rcases h with hstop | ⟨hu, hrest⟩
      · -- The row cannot stop at this slot: the one that holds the defect stands behind it.
        have hut := hstop.same_slot hapart List.mem_cons_self ht
        exact absurd (hut ▸ List.mem_map_of_mem htrest) hnot
      · cases hst with
        | cons _ hst => exact ih hapart.tail hrest hst
        | cons_cons _ _ => exact hu

end Apart

/-- An element that comes before a place in what is settled is read by itself. -/
theorem Settled.readsBefore {role : Role} {due : List Step} (h : Settled role j) :
    ReadsBefore role j due := fun steps inner part hpart _ => h steps inner part hpart

-- The place of the element itself is on the way to every other one, so nothing precedes it.
theorem readsBefore_nil (role : Role) (j : Json) : ReadsBefore role j [] := by
  intro steps inner part _ hbefore
  generalize hdue : ([] : List Step) = due at hbefore
  cases hbefore with
  | apart h p q =>
      have ht := h.subset (List.mem_cons_of_mem _ List.mem_cons_self)
      exact absurd (List.append_eq_nil_iff.1 hdue.symm).1 ((role.apart_slots j).steps_ne_nil ht)
  | within hs he h =>
      exact absurd (List.append_eq_nil_iff.1 hdue.symm).1 ((role.apart_slots j).steps_ne_nil hs)

-- By induction on the row. In the slot where a reading stops, what it stops at is in order, and
-- the slots in front of it are settled.
theorem StopsIn.readsBefore {row : List Slot} {s : Slot} {q : List Step} {e : Json}
    (hapart : Apart row) (h : StopsIn j (s.steps ++ q) row) (hs : s ∈ row)
    (he : partAt? j s.steps = some e) : ReadsBefore s.role e q := by
  induction row with
  | nil => cases hs
  | cons u rest ih =>
      rcases h with (hway | ⟨e', rest', he', heq, hrest⟩) | ⟨hu, hrest⟩
      · -- The defect is on the way to this slot, so nothing inside stands in front of it.
        rw [(hapart.same_slot_on_way hs List.mem_cons_self hway).2]
        exact readsBefore_nil s.role e
      · rcases hapart.same_slot hs List.mem_cons_self heq with ⟨rfl, rfl⟩
        cases he.symm.trans he'
        exact hrest
      · rcases List.mem_cons.1 hs with rfl | hs
        · exact (hu e he).readsBefore
        · exact ih hapart.tail hrest hs

/-- An element within another one, at a place in a slot, is within what stands in the slot. -/
theorem Part.enter {role inner : Role} {part : Json} {s : Slot} {p : List Step}
    (hs : s ∈ role.slots j) (h : Part role j (s.steps ++ p) inner part) :
    ∃ e, partAt? j s.steps = some e ∧ Part s.role e p inner part := by
  have hapart := role.apart_slots j
  generalize hsteps : s.steps ++ p = steps at h
  cases h with
  | whole _ _ => exact absurd (List.append_eq_nil_iff.1 hsteps).1 (hapart.steps_ne_nil hs)
  | slot ht he hpart =>
      rcases hapart.same_slot hs ht hsteps with ⟨rfl, rfl⟩
      exact ⟨_, he, hpart⟩

/-- A reading that goes along the slots of an element ends with its first defect, or without
    one. -/
theorem inOrder_of_advances {role : Role} (hroom : room ≤ nestingLimit)
    (h : Advances (role.slots j) j (role.read room j)) :
    InOrder role j (role.read room j) := by
  unfold InOrder
  unfold Advances at h
  have hapart := role.apart_slots j
  generalize hread : role.read room j = reading at h ⊢
  cases reading with
  | ok value =>
      intro steps inner part hpart
      -- All parts were read, so each of them can be read by itself.
      cases hpart with
      | whole _ _ => exact Role.reads_of_read hread hroom
      | slot hs he hpart => exact h _ hs _ he _ _ _ hpart
  | error refusal =>
      cases refusal with
      | tooDeep => trivial
      | defective d =>
          intro steps inner part hpart hbefore
          change StopsIn j d.due (role.slots j) at h
          generalize d.due = due at h hbefore
          -- A part stands in an earlier slot than the defect, or further up in the same one.
          cases hbefore with
          | apart hst p q =>
              have hs := hst.subset List.mem_cons_self
              rcases hpart.enter hs with ⟨e, he, hpart⟩
              exact StopsIn.settledIn hapart h hst e he _ _ _ hpart
          | within hs he hbefore =>
              rcases hpart.enter hs with ⟨e, he', hpart⟩
              cases he.symm.trans he'
              exact StopsIn.readsBefore hapart h hs he _ _ _ hpart hbefore

end Wire

end StageTree
