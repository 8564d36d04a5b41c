import StageTree.Text.Blank

/-!
# Trimming

What is cut off at the two ends of a list is of the class that is cut off, and what is left
begins and ends with something that is not.

## Theorems

* `exists_trim`: A list is what is left of it, with what is cut off at its ends.
* `trimWhere_between`: What is left of a list between two ends that are cut off.
* `trimWhere_eq_nil`: Nothing is left of a list if and only if all of it is cut off.
-/

namespace StageTree

variable {α : Type} {p : α → Bool} {xs before core after : List α}

/-- What is cut off at both ends meets the condition. -/
theorem exists_trim (p : α → Bool) (xs : List α) :
    ∃ before after, (∀ x ∈ before, p x = true) ∧ (∀ x ∈ after, p x = true) ∧
      xs = before ++ (trimWhere p xs ++ after) := by
  have hall (ys : List α) : ∀ y ∈ ys.takeWhile p, p y = true :=
    List.all_eq_true.1 List.all_takeWhile
  refine ⟨xs.takeWhile p, ((xs.dropWhile p).reverse.takeWhile p).reverse, hall xs,
    fun x hx => hall _ x (List.mem_reverse.1 hx), ?_⟩
  rw [trimWhere, ← List.reverse_append, List.takeWhile_append_dropWhile, List.reverse_reverse,
    List.takeWhile_append_dropWhile]

/-- Nothing is left if everything meets the condition. -/
theorem trimWhere_eq_nil : trimWhere p xs = [] ↔ ∀ x ∈ xs, p x = true := by
  constructor
  · intro h
    rcases exists_trim p xs with ⟨before, after, hbefore, hafter, hxs⟩
    rw [h, List.nil_append] at hxs
    rw [hxs]
    exact List.forall_mem_append.2 ⟨hbefore, hafter⟩
  · intro h
    rw [trimWhere, ← List.append_nil xs, List.dropWhile_append_of_pos h]
    rfl

/-- What is cut off is what stands around a core whose ends do not meet the condition. -/
theorem trimWhere_between (hbefore : ∀ x ∈ before, p x = true) (hafter : ∀ x ∈ after, p x = true)
    (hfirst : ∃ x ∈ core.head?, p x = false) (hlast : ∃ x ∈ core.getLast?, p x = false) :
    trimWhere p (before ++ (core ++ after)) = core := by
  have hdrop {x : α} {ys : List α} (hx : x ∈ ys.head?) (hp : p x = false) (zs : List α) :
      (ys ++ zs).dropWhile p = ys ++ zs := by
    cases ys with
    | nil => cases hx
    | cons y ys =>
        cases hx
        exact List.dropWhile_cons_of_neg (Bool.eq_false_iff.1 hp)
  rcases hfirst with ⟨x, hx, hpx⟩
  rcases hlast with ⟨y, hy, hpy⟩
  have hafter' : ∀ x ∈ after.reverse, p x = true := fun x hx => hafter x (List.mem_reverse.1 hx)
  have hy' : y ∈ core.reverse.head? := List.head?_reverse ▸ hy
  rw [trimWhere, List.dropWhile_append_of_pos hbefore, hdrop hx hpx, List.reverse_append,
    List.dropWhile_append_of_pos hafter', ← List.append_nil core.reverse, hdrop hy' hpy,
    List.append_nil, List.reverse_reverse]

end StageTree
