import StageTree.Proofs.Depth
import StageTree.Proofs.Erasure

/-!
# Lists as Chains of Pairs

A list is made from its end: its items are put in front of the tail one by one, the last item
first. What comes of this can be taken apart from its beginning, and then the items come in their
order and the tail comes last, whatever the tail is. In particular the tail may be a list itself,
and then the two are one list.

A display tree goes through a value part by part, so the tree of a list is a chain of the same
kind: as many branches as the list has items, each over the tree of an item and the rest of the
chain, down to the tree of the tail. So does the room that a value takes, and from this it can be
told of the items which lists are shown.

Both kinds of chains are taken apart by one function (`walk`), given how a single link is.

## Main definitions

* `walk`: Going some steps along a chain.
* `Undoes`: A step takes apart exactly what a link puts together.
* `Term.pairParts?`, `Tree.pairParts?`: A step along the pairs of a term or of a tree.

## Theorems

* `walk_eq_some_iff`: Walks take apart exactly what chains put together.
* `Sexpr.map_ofList`: What goes through pairs part by part goes through lists item by item.
* `Sexpr.nesting_ofList_le_iff`: The room that a list takes, by its items and its tail.
* `Sexpr.fits_of_mem_visits`: Everything in a reader value belongs where it stands.
* `Session.showTerm_of_fits`: Handing in such a value shows it, or reports that it is too deep.
* `Session.lists_are_chains`: Lists put together and taken apart, and their trees.
-/

namespace StageTree

/-! ## Chains -/

section Chains

variable {α β : Type} {step : α → Option (β × α)} {link : β → α → α} {a last : α} {met : List β}

/-- Go some steps along a chain: what is met on the way, and where the way leads. A step takes
    what is there apart into what is met and what comes after it, if there is anything to take
    apart. -/
def walk (step : α → Option (β × α)) : Nat → α → Option (List β × α)
  | 0, a => some ([], a)
  | n + 1, a => do
    let (first, rest) ← step a
    let (others, last) ← walk step n rest
    pure (first :: others, last)

/-- A step takes apart exactly what a link puts together. -/
def Undoes (step : α → Option (β × α)) (link : β → α → α) : Prop :=
  ∀ a first rest, step a = some (first, rest) ↔ a = link first rest

/-- Walks take apart exactly what chains put together. -/
theorem walk_eq_some_iff (h : Undoes step link) {n : Nat} :
    walk step n a = some (met, last) ↔ met.length = n ∧ a = met.foldr link last := by
  induction n generalizing a met with
  | zero =>
      rw [walk, Option.some.injEq, Prod.mk.injEq, List.length_eq_zero_iff]
      constructor
      · rintro ⟨rfl, rfl⟩
        exact ⟨rfl, rfl⟩
      · rintro ⟨rfl, rfl⟩
        exact ⟨rfl, rfl⟩
  | succ n ih =>
      -- The first step meets the first of what is met, and the rest of the way the others.
      simp only [walk, Option.bind_eq_bind, Option.bind_eq_some_iff, Prod.exists, h a]
      constructor
      · rintro ⟨first, rest, rfl, others, _, hwalk, hmet⟩
        cases hmet
        rcases ih.1 hwalk with ⟨rfl, rfl⟩
        exact ⟨rfl, rfl⟩
      · rintro ⟨hlength, rfl⟩
        cases met with
        | nil => cases hlength
        | cons first others =>
            exact ⟨first, _, rfl, others, last, ih.2 ⟨Nat.succ.inj hlength, rfl⟩, rfl⟩

end Chains

/-! ## Pairs -/

/-- The parts of a term that is a pair. -/
def Term.pairParts? : Term → Option (Term × Term)
  | .pair car cdr => some (car, cdr)
  | _ => Option.none

/-- Taking a pair apart undoes making it. -/
theorem Term.pairParts?_undoes : Undoes pairParts? pair := by
  intro t car cdr
  cases t with
  | pair first rest =>
      rw [pairParts?, Option.some.injEq, Prod.mk.injEq, pair.injEq]
  | _ => exact iff_of_false nofun nofun

/-- The branch that shows a pair, over the trees of its parts. -/
def Tree.ofPair (car cdr : Tree) : Tree := .branch "Pair" [car, cdr]

/-- The trees of the parts of a pair, if a tree is one of a pair. -/
def Tree.pairParts? : Tree → Option (Tree × Tree)
  | .node name none (some [car, cdr]) => if name = "Pair" then some (car, cdr) else none
  | _ => none

/-- Taking the tree of a pair apart undoes making it. -/
theorem Tree.pairParts?_undoes : Undoes pairParts? ofPair := by
  intro t car cdr
  constructor
  · intro h
    unfold pairParts? at h
    split at h
    · split at h
      · rename_i hname
        rw [hname]
        cases h
        rfl
      · cases h
    · cases h
  · rintro rfl
    rw [ofPair, branch, pairParts?, if_pos rfl]

/-! ## Lists of terms -/

namespace Term

/-- A list is what putting its items in front of the tail makes, the last item first. -/
theorem chain_eq_foldl (items : List Term) (tail : Option Term) :
    chain items tail =
      items.reverse.foldl (fun made item => pair item made) (tail.getD (.atom .nil)) := by
  rw [List.foldl_reverse, chain]

/-- A list whose tail is a list is one list. -/
theorem chain_append (xs ys : List Term) (tail : Option Term) :
    chain xs (some (chain ys tail)) = chain (xs ++ ys) tail := by
  rw [chain, Option.getD_some, chain, chain, List.foldr_append]

/-- Walking along a list for as many steps as it has items meets the items and leads to the
    tail. -/
theorem walk_chain (items : List Term) (tail : Option Term) :
    walk pairParts? items.length (chain items tail) =
      some (items, tail.getD (.atom .nil)) :=
  (walk_eq_some_iff pairParts?_undoes).2 ⟨rfl, rfl⟩

end Term

/-! ## Lists of reader values -/

namespace Sexpr

/-- What goes through pairs part by part goes through lists item by item. -/
theorem map_ofList {α : Type} (f : Sexpr → α) (link : α → α → α)
    (h : ∀ car cdr, f (pair car cdr) = link (f car) (f cdr)) (items : List Sexpr)
    (last : Sexpr) : f (ofList items last) = (items.map f).foldr link (f last) := by
  induction items with
  | nil => rfl
  | cons first rest ih =>
      calc f (ofList (first :: rest) last)
          = link (f first) (f (ofList rest last)) := h first _
        _ = link (f first) ((rest.map f).foldr link (f last)) := by rw [ih]

/-- A list of reader values is a reader value. -/
theorem chain_toTerm (items : List Sexpr) (tail : Option Sexpr) :
    Term.chain (items.map toTerm) (tail.map toTerm) = (ofList items (tail.getD nil)).toTerm := by
  rw [map_ofList toTerm Term.pair (fun _ _ => rfl), Term.chain]
  cases tail <;> rfl

/-- The tree of a list is a chain over the trees of its items, down to that of its tail. -/
theorem walk_tree_ofList (items : List Sexpr) (last : Sexpr) :
    walk Tree.pairParts? items.length (ofList items last).tree =
      some (items.map tree, last.tree) :=
  (walk_eq_some_iff Tree.pairParts?_undoes).2
    ⟨List.length_map tree, map_ofList tree Tree.ofPair (fun _ _ => rfl) items last⟩

/-- There is room for a list exactly if there is room for its tail behind all of its items, and
    for each item behind those in front of it. -/
theorem nesting_ofList_le_iff (items : List Sexpr) (last : Sexpr) (room : Nat) :
    (ofList items last).nesting ≤ room ↔ last.nesting + items.length ≤ room ∧
      ∀ i (h : i < items.length), items[i].nesting + (i + 1) ≤ room := by
  induction items generalizing room with
  | nil => exact ⟨fun h => ⟨h, nofun⟩, fun h => h.1⟩
  | cons first rest ih =>
      -- The first pair takes a unit, so what stands behind it has one unit less.
      have hpair : (ofList (first :: rest) last).nesting =
          max first.nesting (ofList rest last).nesting + 1 := rfl
      cases room with
      | zero =>
          refine iff_of_false (by omega) fun h => ?_
          have htail : last.nesting + (rest.length + 1) ≤ 0 := h.1
          omega
      | succ room =>
          rw [hpair, Nat.add_le_add_iff_right, Nat.max_le, ih]
          constructor
          · rintro ⟨hfirst, htail, hrest⟩
            refine ⟨by rw [List.length_cons]; omega, fun i hi => ?_⟩
            cases i with
            | zero => exact Nat.succ_le_succ hfirst
            | succ i => exact Nat.succ_le_succ (hrest i (Nat.lt_of_succ_lt_succ hi))
          · rintro ⟨htail, hall⟩
            rw [List.length_cons] at htail
            refine ⟨Nat.le_of_succ_le_succ (hall 0 (Nat.succ_pos _)), by omega, fun i hi => ?_⟩
            exact Nat.le_of_succ_le_succ (hall (i + 1) (Nat.succ_lt_succ hi))

/-- Everything in a reader value belongs where it stands. -/
theorem fits_of_mem_visits (s : Sexpr) {need : Nat} {v : Visit}
    (h : v ∈ s.toTerm.visits need .readerValue) : v.Fits := by
  induction s generalizing need with
  | atom a =>
      rw [toTerm, Term.visits_eq] at h
      rcases List.mem_cons.1 h with rfl | h
      · rfl
      · exact absurd h List.not_mem_nil
  | vector elements ih =>
      -- The value itself comes first, and then what is visited below it.
      rw [toTerm, toTerms_eq, Term.visits_eq, Term.fields, Term.flatMap_items,
        List.flatMap_map] at h
      rcases List.mem_cons.1 h with rfl | h
      · rfl
      · rcases List.mem_flatMap.1 h with ⟨element, helement, h⟩
        exact ih element helement h
  | pair car cdr ihcar ihcdr =>
      rw [toTerm, Term.visits_eq, Term.fields, List.flatMap_cons, List.flatMap_singleton] at h
      rcases List.mem_cons.1 h with rfl | h
      · rfl
      · rcases List.mem_append.1 h with h | h
        · exact ihcar h
        · exact ihcdr h

end Sexpr

namespace Session

/-- Handing in a node of which everything belongs where it stands shows the node, or reports that
    it is too deep. -/
theorem showTerm_of_fits (stage : Stage) {node : stage.Node}
    (h : ∀ v ∈ stage.visits (stage.toTerm node), v.Fits) :
    showTerm stage (stage.toTerm node) = showNode stage node := by
  by_cases hroom : stage.nesting node ≤ nestingLimit
  · rw [showTerm_toTerm hroom, showNode_of_le hroom]
  -- Without room the term is refused, and as everything fits, it is refused for its depth.
  rw [showNode, if_neg hroom]
  cases hnode : (stage.toTerm node).node? stage nestingLimit with
  | ok other => exact absurd (nesting_le_of_node? hnode) hroom
  | error misfit =>
      have haccounts : Accounts stage nestingLimit (stage.visits (stage.toTerm node))
          ((stage.toTerm node).node? stage nestingLimit) := stage.visits_account _
      rw [hnode] at haccounts
      cases haccounts.eq_tooDeep h
      exact showTerm_of_tooDeep hnode

/-- A list is made by putting its items in front of the tail, the last one first. With a list for
    a tail it is the list of the items of both, with the tail of the second. Walking along it for
    as many steps as it has items meets the items in their order and leads to the tail, which is
    the empty list if none was given. Walking down its tree in the same way meets the trees of the
    items and leads to the tree of the tail. The list is shown as this tree if there is room for
    it, and otherwise reported to be too deep, and there is room for it exactly if there is for
    every item behind those in front of it and for the tail behind all of them. -/
theorem lists_are_chains (xs ys : List Sexpr) (tail : Option Sexpr) :
    Term.chain (xs.map Sexpr.toTerm) (tail.map Sexpr.toTerm) =
      (xs.map Sexpr.toTerm).reverse.foldl (fun made item => .pair item made)
        (tail.getD Sexpr.nil).toTerm ∧
    Term.chain (xs.map Sexpr.toTerm)
        (some (Term.chain (ys.map Sexpr.toTerm) (tail.map Sexpr.toTerm))) =
      Term.chain ((xs ++ ys).map Sexpr.toTerm) (tail.map Sexpr.toTerm) ∧
    walk Term.pairParts? xs.length
        (Term.chain (xs.map Sexpr.toTerm) (tail.map Sexpr.toTerm)) =
      some (xs.map Sexpr.toTerm, (tail.getD Sexpr.nil).toTerm) ∧
    walk Tree.pairParts? xs.length (Sexpr.ofList xs (tail.getD Sexpr.nil)).tree =
      some (xs.map Sexpr.tree, (tail.getD Sexpr.nil).tree) ∧
    showTerm .reader (Term.chain (xs.map Sexpr.toTerm) (tail.map Sexpr.toTerm)) =
      (if (Sexpr.ofList xs (tail.getD Sexpr.nil)).nesting ≤ nestingLimit then
        pure (Sexpr.ofList xs (tail.getD Sexpr.nil)).tree
      else tooDeepToShow .reader) ∧
    ((Sexpr.ofList xs (tail.getD Sexpr.nil)).nesting ≤ nestingLimit ↔
      (tail.getD Sexpr.nil).nesting + xs.length ≤ nestingLimit ∧
        ∀ i (h : i < xs.length), xs[i].nesting + (i + 1) ≤ nestingLimit) := by
  have htail : (tail.map Sexpr.toTerm).getD (.atom .nil) = (tail.getD Sexpr.nil).toTerm := by
    cases tail <;> rfl
  refine ⟨?_, ?_, ?_, Sexpr.walk_tree_ofList xs _, ?_, Sexpr.nesting_ofList_le_iff xs _ _⟩
  · rw [Term.chain_eq_foldl, htail]
  · rw [Term.chain_append, List.map_append]
  · -- Walking down a chain of terms and down its tree are two walks of the same length.
    have hwalk := Term.walk_chain (xs.map Sexpr.toTerm) (tail.map Sexpr.toTerm)
    rw [List.length_map, htail] at hwalk
    exact hwalk
  · rw [Sexpr.chain_toTerm]
    exact showTerm_of_fits .reader fun _ => Sexpr.fits_of_mem_visits _

/-- A list of two hundred empty lists is shown, as a chain of as many branches. One of five
    thousand is too deep. -/
theorem two_hundred_items_are_shown :
    showTerm .reader (Term.chain (List.replicate 200 (.atom .nil)) none) =
      pure (Wire.nils 200).tree ∧
    walk Tree.pairParts? 200 (Wire.nils 200).tree =
      some (List.replicate 200 (.leaf "'()"), .leaf "'()") ∧
    showTerm .reader (Term.chain (List.replicate 5000 (.atom .nil)) none) =
      tooDeepToShow .reader := by
  rcases lists_are_chains (List.replicate 200 .nil) [] none with ⟨-, -, -, hwalk, hshort, -⟩
  rcases lists_are_chains (List.replicate 5000 .nil) [] none with ⟨-, -, -, -, hlong, -⟩
  -- Two hundred levels fit in the room there is, and five thousand do not.
  have hroom : (Wire.nils 200).nesting ≤ nestingLimit := by
    rw [Wire.nesting_nils]
    decide
  have hdeep : ¬(Wire.nils 5000).nesting ≤ nestingLimit := by
    rw [Wire.nesting_nils]
    decide
  rw [List.map_replicate] at hshort hlong
  rw [List.length_replicate, List.map_replicate] at hwalk
  exact ⟨hshort.trans (if_pos hroom), hwalk, hlong.trans (if_neg hdeep)⟩

end Session

end StageTree
