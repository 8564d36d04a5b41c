import StageTree.Proofs.Json.Grammar

/-!
# How Deep Parts Nest

A part of a document nests no deeper than all parts of it together, and these nest no deeper than
each of them does. So a document nests no deeper than the text that writes it may.

## Theorems

* `Json.nesting_le_of_mem_items`: The items of an array.
* `Json.nesting_le_of_mem_members`, `Json.nesting_le_of_lookup`: The members of an object.
* `Json.nestingOfItems_le`, `Json.nestingOfMembers_le`: All of them, by each.
* `Json.Writes.nesting_le`: A document, by the text that writes it.
-/

namespace StageTree

namespace Json

theorem nesting_le_of_mem_items {item : Json} {items : List Json} (h : item ∈ items) :
    item.nesting ≤ nestingOfItems items := by
  induction h with
  | head =>
      rw [nestingOfItems]
      exact Nat.le_max_left _ _
  | tail _ _ ih =>
      rw [nestingOfItems]
      exact Nat.le_trans ih (Nat.le_max_right _ _)

theorem nesting_le_of_mem_members {member : Text × Json} {members : List (Text × Json)}
    (h : member ∈ members) : member.2.nesting ≤ nestingOfMembers members := by
  induction h with
  | head =>
      rw [nestingOfMembers]
      exact Nat.le_max_left _ _
  | tail _ _ ih =>
      rw [nestingOfMembers]
      exact Nat.le_trans ih (Nat.le_max_right _ _)

/-- A member that is looked up nests no deeper than the members do. -/
theorem nesting_le_of_lookup {key : Text} {part : Json} {members : List (Text × Json)}
    (h : members.lookup key = some part) : part.nesting ≤ nestingOfMembers members := by
  induction members with
  | nil => cases h
  | cons member rest ih =>
      rcases member with ⟨name, value⟩
      rw [nestingOfMembers]
      rw [List.lookup_cons] at h
      split at h
      · cases h
        exact Nat.le_max_left _ _
      · exact Nat.le_trans (ih h) (Nat.le_max_right _ _)

/-- Items nest as deep as the deepest of them. -/
theorem nestingOfItems_le {items : List Json} {n : Nat} (h : ∀ item ∈ items, item.nesting ≤ n) :
    nestingOfItems items ≤ n := by
  induction items with
  | nil => exact Nat.zero_le n
  | cons item rest ih =>
      rcases List.forall_mem_cons.1 h with ⟨hitem, hrest⟩
      exact Nat.max_le.2 ⟨hitem, ih hrest⟩

/-- Members nest as deep as the deepest of their values. -/
theorem nestingOfMembers_le {members : List (Text × Json)} {n : Nat}
    (h : ∀ member ∈ members, member.2.nesting ≤ n) : nestingOfMembers members ≤ n := by
  induction members with
  | nil => exact Nat.zero_le n
  | cons member rest ih =>
      rcases List.forall_mem_cons.1 h with ⟨hmember, hrest⟩
      exact Nat.max_le.2 ⟨hmember, ih hrest⟩

/-! ## Documents that are written -/

/-- What holds of everything that is written as an item holds of the items of a list. -/
theorem ListText.forall_mem {α : Type} {Item : List Char → α → Prop} {P : α → Prop}
    {cs : List Char} {as : List α} (h : ListText Item cs as) (hitem : ∀ {cs a}, Item cs a → P a) :
    ∀ a ∈ as, P a := by
  induction h with
  | one hone => exact List.forall_mem_singleton.2 (hitem hone)
  | more hone _ ih => exact List.forall_mem_cons.2 ⟨hitem hone, ih⟩

/-- What holds of everything that is written as an item holds of what stands in brackets. -/
theorem Bracketed.forall_mem {α : Type} {first last : Char} {Item : List Char → α → Prop}
    {P : α → Prop} {cs : List Char} {as : List α} (h : Bracketed first last Item cs as)
    (hitem : ∀ {cs a}, Item cs a → P a) : ∀ a ∈ as, P a := by
  cases h with
  | none _ => nofun
  | some hlist => exact hlist.forall_mem hitem

/-- What holds of the members and of a new one holds after the new one is put in. -/
theorem forall_putMember {P : Text × Json → Prop} {members : List (Text × Json)} {key : Text}
    {value : Json} (h : ∀ member ∈ members, P member) (hnew : P (key, value)) :
    ∀ member ∈ putMember members key value, P member := by
  induction members with
  | nil => exact List.forall_mem_singleton.2 hnew
  | cons member rest ih =>
      rcases List.forall_mem_cons.1 h with ⟨hmember, hrest⟩
      rw [putMember]
      split
      · -- The key that keeps its place is the new one.
        rename_i hkey
        exact List.forall_mem_cons.2 ⟨hkey ▸ hnew, hrest⟩
      · exact List.forall_mem_cons.2 ⟨hmember, ih hrest⟩

/-- The members that stand are among those that are written. -/
theorem forall_putAll {P : Text × Json → Prop} {found written : List (Text × Json)}
    (hfound : ∀ member ∈ found, P member) (hwritten : ∀ member ∈ written, P member) :
    ∀ member ∈ putAll found written, P member := by
  induction written generalizing found with
  | nil => exact hfound
  | cons member rest ih =>
      rcases List.forall_mem_cons.1 hwritten with ⟨hmember, hrest⟩
      exact ih (forall_putMember hfound hmember) hrest

/-- Values without parts do not nest. -/
theorem Scalar.nesting_eq {digits : Nat} {cs : List Char} {j : Json} (h : Scalar digits cs j) :
    j.nesting = 0 := by
  cases h <;> rfl

/-- A document nests no deeper than the text that writes it may. -/
theorem Writes.nesting_le {digits room : Nat} {cs : List Char} {j : Json}
    (h : Writes digits room cs j) : j.nesting ≤ room := by
  -- Every bracket takes one unit of room, and is one level of nesting.
  induction room generalizing cs j with
  | zero => exact Nat.le_of_eq (Scalar.nesting_eq h)
  | succ room ih =>
      have hspaced {cs : List Char} {j : Json} (h : Spaced (Writes digits room) cs j) :
          j.nesting ≤ room := by
        rcases h with ⟨_, _, _, _, hcore, _, _⟩
        exact ih hcore
      rcases h with h | ⟨items, h, rfl⟩ | ⟨members, h, rfl⟩
      · rw [h.nesting_eq]
        exact Nat.zero_le _
      · exact Nat.succ_le_succ (nestingOfItems_le (h.forall_mem hspaced))
      · -- Of members with the same key the last one stands, and it is one of those written.
        have hmembers : ∀ member ∈ members, member.2.nesting ≤ room := by
          refine h.forall_mem fun hmember => ?_
          cases hmember with
          | pair _ hvalue => exact hspaced hvalue
        have hall := @forall_putAll (·.2.nesting ≤ room) [] members nofun hmembers
        exact Nat.succ_le_succ (nestingOfMembers_le hall)

end Json

end StageTree
