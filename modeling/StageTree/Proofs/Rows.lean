import Mathlib.Data.List.Nodup
import StageTree.Text.Basic

/-!
# Rows of Entries

A row of values under keys, as attributes and the members of objects are. Where the keys of a row
are distinct, the entries alone decide what stands under a key, so their order does not count.

## Theorems

* `lookup_eq_some_iff_mem`: A value stands under a key exactly if the two are an entry.
* `lookup_of_perm`: What stands under a key does not depend on the order of entries.
* `lookup_cons_of_notMem`: Entries under other keys make no difference.
* `lookup_map_right`: Changing all values changes what stands under each key.
-/

namespace StageTree

variable {α β : Type} {row others : List (Text × α)} {key : Text} {value : α}

theorem mem_of_lookup (h : row.lookup key = some value) : (key, value) ∈ row := by
  rcases List.lookup_eq_some_iff.1 h with ⟨front, rest, rfl, -⟩
  exact List.mem_append_right front List.mem_cons_self

theorem lookup_of_mem (hkeys : (row.map Prod.fst).Nodup) (h : (key, value) ∈ row) :
    row.lookup key = some value := by
  rcases List.append_of_mem h with ⟨front, rest, rfl⟩
  rw [List.map_append, List.map_cons] at hkeys
  -- No entry in front of it has the same key.
  refine List.lookup_eq_some_iff.2 ⟨front, rest, rfl, fun entry hentry => ?_⟩
  have hne := (List.nodup_append.1 hkeys).2.2 entry.1 (List.mem_map_of_mem hentry) key
    List.mem_cons_self
  exact bne_iff_ne.2 hne.symm

theorem lookup_eq_some_iff_mem (hkeys : (row.map Prod.fst).Nodup) :
    row.lookup key = some value ↔ (key, value) ∈ row :=
  ⟨mem_of_lookup, lookup_of_mem hkeys⟩

/-- Where keys are distinct, what stands under a key does not depend on the order. -/
theorem lookup_of_perm (h : row.Perm others) (hkeys : (row.map Prod.fst).Nodup) (key : Text) :
    row.lookup key = others.lookup key := by
  have hothers : (others.map Prod.fst).Nodup := (h.map Prod.fst).nodup_iff.1 hkeys
  refine Option.ext fun value => ?_
  rw [lookup_eq_some_iff_mem hkeys, lookup_eq_some_iff_mem hothers, h.mem_iff]

/-- An entry whose key is not among those looked for makes no difference. -/
theorem lookup_cons_of_notMem {keys : List Text} {name : Text} (hkey : key ∈ keys)
    (hname : name ∉ keys) : ((name, value) :: row).lookup key = row.lookup key := by
  have hne : key ≠ name := fun heq => hname (heq ▸ hkey)
  rw [List.lookup_cons, beq_false_of_ne hne]

theorem lookup_map_right (f : α → β) (row : List (Text × α)) (key : Text) :
    (row.map (Prod.map id f)).lookup key = (row.lookup key).map f := by
  induction row with
  | nil => rfl
  | cons entry rest ih =>
      rcases entry with ⟨name, value⟩
      simp only [List.map_cons, Prod.map_apply, id_eq, List.lookup_cons, ih]
      split <;> rfl

end StageTree
