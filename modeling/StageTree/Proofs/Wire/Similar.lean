import Mathlib.Data.List.Forall2
import StageTree.Proofs.Rows
import StageTree.Wire.Basic

/-!
# Similar Documents

Documents that no reader can tell apart. The members of an object may stand in any order, and
there may be members that belong to no wire form: both are free at every depth of a document,
and neither has any part in what is read.

Similarity is given by single changes, so it says nothing of what a reader does. What it comes
to for a reader is one fact about the top of two similar documents: they are the same, or arrays
of similar items, or objects in which the same keys that matter have similar values.

## Main definitions

* `readKeys`: The keys of the members that readers look at.
* `Similar`: Documents that differ in the order of members and in members that are not read.
* `Seen`: What a reader sees at the top of two similar documents.

## Theorems

* `Similar.seen`: Similar documents look alike at the top.
-/

namespace StageTree

namespace Wire

variable {j k : Json}

/-! ## Similarity -/

/-- The keys of the members that readers look at. -/
def readKeys : List Text :=
  ["type", "value", "numerator", "denominator", "car", "cdr", "sexpr", "var", "name", "test",
    "dit", "dif", "exprs", "val", "params", "kind", "opt", "body", "applicative",
    "lexical_address", "minor", "major"]

/-- Documents that differ in the order of the members of objects and in members that no reader
    looks at. The members of an object with distinct keys may be put in any order, members with
    other keys may be put in or left out, and both may be done inside of items and members. -/
inductive Similar : Json → Json → Prop where
  | refl (j : Json) : Similar j j
  | symm {j k : Json} (h : Similar j k) : Similar k j
  | trans {j k l : Json} (h : Similar j k) (h' : Similar k l) : Similar j l
  /-- One item of an array is changed. -/
  | item {j k : Json} (front rest : List Json) (h : Similar j k) :
    Similar (.arr (front ++ j :: rest)) (.arr (front ++ k :: rest))
  /-- The value of one member of an object is changed. -/
  | member {j k : Json} (front rest : List (Text × Json)) (key : Text) (h : Similar j k) :
    Similar (.obj (front ++ (key, j) :: rest)) (.obj (front ++ (key, k) :: rest))
  /-- The members of an object are put in another order. -/
  | reorder {members others : List (Text × Json)} (hkeys : (members.map Prod.fst).Nodup)
    (h : members.Perm others) : Similar (.obj members) (.obj others)
  /-- A member that is not looked at is left out. -/
  | unread {key : Text} (value : Json) (members : List (Text × Json))
    (hkey : key ∉ readKeys) : Similar (.obj ((key, value) :: members)) (.obj members)

/-! ## What readers see -/

/-- The members of two objects with the same keys among those that matter, and similar values. -/
def MembersAlike (members others : List (Text × Json)) : Prop :=
  ∀ key ∈ readKeys, Option.Rel Similar (members.lookup key) (others.lookup key)

/-- What a reader sees at the top of two similar documents. -/
inductive Seen : Json → Json → Prop where
  | same (j : Json) : Seen j j
  | items {items others : List Json} (h : List.Forall₂ Similar items others) :
    Seen (.arr items) (.arr others)
  | members {members others : List (Text × Json)} (h : MembersAlike members others) :
    Seen (.obj members) (.obj others)

theorem similar_option_refl (a : Option Json) : Option.Rel Similar a a := by
  cases a with
  | none => exact .none
  | some j => exact .some (.refl j)

theorem MembersAlike.refl (members : List (Text × Json)) : MembersAlike members members :=
  fun _ _ => similar_option_refl _

/-- Objects that agree on every key that is read are alike. -/
theorem MembersAlike.of_lookup {members others : List (Text × Json)}
    (h : ∀ key ∈ readKeys, members.lookup key = others.lookup key) :
    MembersAlike members others := by
  intro key hkey
  rw [h key hkey]
  exact similar_option_refl _

theorem MembersAlike.symm {members others : List (Text × Json)}
    (h : MembersAlike members others) : MembersAlike others members := by
  intro key hkey
  have hvalues := h key hkey
  generalize members.lookup key = a, others.lookup key = b at hvalues
  cases hvalues with
  | none => exact .none
  | some hvalues => exact .some hvalues.symm

/-- Being alike goes along chains of objects. -/
theorem MembersAlike.trans {members others more : List (Text × Json)}
    (h : MembersAlike members others) (h' : MembersAlike others more) :
    MembersAlike members more := by
  intro key hkey
  have hfirst := h key hkey
  have hsecond := h' key hkey
  generalize members.lookup key = a, others.lookup key = b, more.lookup key = c
    at hfirst hsecond ⊢
  cases hfirst with
  | none =>
      cases hsecond
      exact .none
  | some hfirst =>
      cases hsecond with
      | some hsecond => exact .some (hfirst.trans hsecond)

/-- A change of one value leaves similar values under all keys. -/
theorem membersAlike_of_member (front rest : List (Text × Json)) (key : Text)
    (h : Similar j k) : MembersAlike (front ++ (key, j) :: rest) (front ++ (key, k) :: rest) := by
  -- Going along the members in front, of which one may have the key that is wanted: then the member
  -- in question is not seen.
  intro wanted _
  induction front with
  | nil =>
      simp only [List.nil_append, List.lookup_cons]
      split
      · exact .some h
      · exact similar_option_refl _
  | cons member front ih =>
      rcases member with ⟨name, value⟩
      simp only [List.cons_append, List.lookup_cons]
      split
      · exact .some (.refl _)
      · exact ih

theorem forall₂_similar_refl (items : List Json) : List.Forall₂ Similar items items :=
  List.forall₂_same.2 fun item _ => .refl item

theorem forall₂_similar_trans {xs ys zs : List Json} (h : List.Forall₂ Similar xs ys)
    (h' : List.Forall₂ Similar ys zs) : List.Forall₂ Similar xs zs := by
  induction h generalizing zs with
  | nil =>
      cases h'
      exact .nil
  | cons hfirst _ ih =>
      cases h' with
      | cons hsecond hrest => exact .cons (hfirst.trans hsecond) (ih hrest)

-- By induction on the changes that lead from one document to the other.
theorem Similar.seen (h : Similar j k) : Seen j k := by
  induction h with
  | refl j => exact .same j
  | symm _ ih =>
      cases ih with
      | same => exact .same _
      | items h => exact .items (List.Forall₂.flip (h.imp fun _ _ => Similar.symm))
      | members h => exact .members h.symm
  -- Two changes of a document are seen as one, and what stays the same adds nothing.
  | trans _ _ ih ih' =>
      cases ih with
      | same => exact ih'
      | items h =>
          cases ih' with
          | same => exact .items h
          | items h' => exact .items (forall₂_similar_trans h h')
      | members h =>
          cases ih' with
          | same => exact .members h
          | members h' => exact .members (h.trans h')
  | item front rest h _ =>
      exact .items (List.rel_append (forall₂_similar_refl front)
        (.cons h (forall₂_similar_refl rest)))
  | member front rest key h _ => exact .members (membersAlike_of_member front rest key h)
  | reorder hkeys h => exact .members (.of_lookup fun key _ => lookup_of_perm h hkeys key)
  | unread value members hkey =>
      exact .members (.of_lookup fun wanted hwanted => lookup_cons_of_notMem hwanted hkey)

end Wire

end StageTree
