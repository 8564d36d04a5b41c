import StageTree.Command.Run
import StageTree.Proofs.Height
import StageTree.Proofs.Rows
import StageTree.Proofs.Service
import StageTree.Proofs.Tree.Same
import StageTree.Proofs.Tree.Text
import StageTree.Term.Equality

/-!
# What Data Tell

The data of a tree tell everything about it except one thing: attributes that are there but empty
leave no trace. What is written for a tree as JSON is read as its data again, so it tells just as
much.

The data are compared in two ways. As documents they are equal if they are the same texts in the
same places, and as values in memory if their members are the same in any order. Trees are compared
in the same two ways.

## Main definitions

* `Json.toTerm`: What is in memory when a document has been read.
* `Tree.plain`: A tree in which there are no attributes where they are empty.
* `Tree.Keyed`: The attributes of every node have distinct keys.

## Theorems

* `Tree.toJson_eq_iff`: Trees have the same document exactly if they are identical when plain.
* `Tree.eqv_toJson_iff`: Trees have equal data exactly if they are equal when plain.
* `Tree.written_data_are_read`: The JSON text of a tree is read as its data, and these tell trees
  apart.
-/

namespace StageTree

/-! ## Documents in memory -/

namespace Json

mutual

/-- What is in memory when a document has been read. -/
def toTerm : Json → Term
  | .null => .none
  | .bool value => .bool value
  | .int value => .int value
  | .float value => .float value
  | .str value => .str value
  | .arr items => .list (toTerms items)
  | .obj members => .dict (toEntries members)

/-- The items of an array in memory. -/
def toTerms : List Json → List Term
  | [] => []
  | item :: rest => toTerm item :: toTerms rest

/-- The members of an object in memory. -/
def toEntries : List (Text × Json) → List (Text × Term)
  | [] => []
  | (key, value) :: rest => (key, toTerm value) :: toEntries rest

end

theorem toTerms_eq (items : List Json) : toTerms items = items.map toTerm := by
  induction items with
  | nil => rfl
  | cons item rest ih => rw [toTerms, ih, List.map_cons]

theorem toEntries_eq (members : List (Text × Json)) :
    toEntries members = members.map (Prod.map id toTerm) := by
  induction members with
  | nil => rfl
  | cons member rest ih =>
      rw [toEntries, ih, List.map_cons]
      rfl

end Json

namespace Term

theorem eqv_str (a b : Text) : (str a).eqv (str b) = (a == b) := rfl

theorem eqv_list (ts us : List Term) : (list ts).eqv (list us) = eqvAll ts us := rfl

theorem eqv_dict (x y : List (Text × Term)) :
    (dict x).eqv (dict y) = (x.length == y.length && entriesIn x y) := rfl

/-- Rows of plain data are equal if they are so one by one. -/
theorem eqvAll_iff {ts us : List Term} :
    eqvAll ts us = true ↔ List.Forall₂ (fun t u => t.eqv u = true) ts us := by
  induction ts generalizing us with
  | nil =>
      cases us with
      | nil => exact iff_of_true rfl .nil
      | cons u us => exact iff_of_false nofun nofun
  | cons t ts ih =>
      cases us with
      | nil => exact iff_of_false nofun nofun
      | cons u us => rw [eqvAll, Bool.and_eq_true, ih, List.forall₂_cons]

end Term

namespace Tree

variable {α : Type} {t u : Tree} {ts us : List Tree} {name : Text}

/-! ## The members of a node -/

/-- The members of a node: its name, and what it has of attributes and children. -/
def members (name : α) (attributes children : Option α) : List (Text × α) :=
  ("name", name) :: ((attributes.map (Prod.mk (.plain "attributes"))).toList
    ++ (children.map (Prod.mk (.plain "children"))).toList)

/-- The members of a node are equal only if they are so one by one, and left out together. -/
theorem members_inj {x y : α} {a b c d : Option α} :
    members x a c = members y b d ↔ x = y ∧ a = b ∧ c = d := by
  cases a <;> cases b <;> cases c <;> cases d <;> simp [members]

/-- The keys of a node differ. -/
theorem nodup_keys_members (x : α) (a c : Option α) : ((members x a c).map Prod.fst).Nodup := by
  cases a <;> cases c <;> simp [members]

/-- What is done to the members of a node is done to each of them. -/
theorem map_members {β : Type} (f : α → β) (x : α) (a c : Option α) :
    (members x a c).map (Prod.map id f) = members (f x) (a.map f) (c.map f) := by
  cases a <;> cases c <;> rfl

/-- The members are found by their keys, in whatever order they are looked for. -/
theorem eqv_members {x y : Term} {a b c d : Option Term} :
    (Term.dict (members x a c)).eqv (.dict (members y b d)) = true ↔
      x.eqv y = true ∧ Option.Rel (fun t u => t.eqv u = true) a b ∧
        Option.Rel (fun t u => t.eqv u = true) c d := by
  -- Members that only one of the two has are told from the number of members or from the keys.
  cases a <;> cases b <;> cases c <;> cases d <;>
    simp [members, Term.eqv_dict, Term.entriesIn, List.lookup_cons]

/-! ## Plain trees -/

/-- Attributes, unless they are empty. -/
def plainAttributes : Option (List (Text × Text)) → Option (List (Text × Text))
  | none | some [] => none
  | some attributes => some attributes

mutual

/-- A tree in which there are no attributes where they are empty. -/
def plain : Tree → Tree
  | .node name attributes none => .node name (plainAttributes attributes) none
  | .node name attributes (some children) =>
    .node name (plainAttributes attributes) (some (plainAll children))

/-- Trees in which there are no attributes where they are empty. -/
def plainAll : List Tree → List Tree
  | [] => []
  | t :: rest => plain t :: plainAll rest

end

theorem plainAll_eq (ts : List Tree) : plainAll ts = ts.map plain := by
  induction ts with
  | nil => rfl
  | cons t rest ih => rw [plainAll, ih, List.map_cons]

@[simp]
theorem name_plain (t : Tree) : t.plain.name = t.name := by
  rcases t with ⟨name, attributes, children⟩
  cases children with
  | none => rfl
  | some ts => rfl

@[simp]
theorem attributes_plain (t : Tree) : t.plain.attributes = plainAttributes t.attributes := by
  rcases t with ⟨name, attributes, children⟩
  cases children with
  | none => rfl
  | some ts => rfl

@[simp]
theorem children_plain (t : Tree) : t.plain.children = t.children.map (List.map plain) := by
  rcases t with ⟨name, attributes, children⟩
  cases children with
  | none => rfl
  | some ts => exact congrArg some (plainAll_eq ts)

/-! ## Data of a node -/

theorem toJsonAll_eq (ts : List Tree) : toJsonAll ts = ts.map toJson := by
  induction ts with
  | nil => rfl
  | cons t rest ih => rw [toJsonAll, ih, List.map_cons]

/-- Attributes as data. -/
def rowJson (attributes : List (Text × Text)) : Json :=
  .obj (attributes.map (Prod.map id .str))

/-- Children as data. -/
def rowsJson (children : List Tree) : Json := .arr (children.map toJson)

/-- The data of a node do not show attributes that are empty. -/
theorem toJson_eq (t : Tree) : t.toJson =
    .obj (members (.str t.name) ((plainAttributes t.attributes).map rowJson)
      (t.children.map rowsJson)) := by
  rcases t with ⟨name, attributes, children⟩
  -- Of attributes there are three kinds: none, no pairs, and some.
  rcases attributes with _ | _ | ⟨_, _⟩ <;> cases children <;>
    simp only [toJson, toJsonAll_eq] <;> rfl

theorem toTerm_rowJson (x : List (Text × Text)) :
    (rowJson x).toTerm = .dict (x.map (Prod.map id .str)) := by
  rw [rowJson, Json.toTerm, Json.toEntries_eq, List.map_map]
  rfl

/-- Attributes are compared as data just as they are compared in trees. -/
theorem eqv_rowJson {x y : List (Text × Text)} :
    (rowJson x).toTerm.eqv (rowJson y).toTerm = true ↔ sameAttributes x y = true := by
  have hentries (x : List (Text × Text)) :
      Term.entriesIn (x.map (Prod.map id .str)) (y.map (Prod.map id .str)) =
        x.all fun entry => y.lookup entry.1 == some entry.2 := by
    induction x with
    | nil => rfl
    | cons entry rest ih =>
        rcases entry with ⟨key, value⟩
        -- An entry is compared with what the other row has under its key.
        rw [List.map_cons, Prod.map_apply, id, Term.entriesIn, ih, lookup_map_right, List.all_cons]
        refine congrArg (· && _) ?_
        cases hlookup : y.lookup key with
        | none => simp only [Option.map_none]; rfl
        | some other => simp only [Option.map_some, Term.eqv_str]; exact Bool.beq_comm
  rw [toTerm_rowJson, toTerm_rowJson, Term.eqv_dict, hentries, sameAttributes, List.length_map,
    List.length_map]

/-- Rows of children as data are equal if the children are. -/
theorem eqv_rowsJson {R : Tree → Tree → Prop}
    (h : ∀ t ∈ ts, ∀ u, t.toJson.toTerm.eqv u.toJson.toTerm = true ↔ R t u) :
    (rowsJson ts).toTerm.eqv (rowsJson us).toTerm = true ↔ List.Forall₂ R ts us := by
  rw [rowsJson, rowsJson, Json.toTerm, Json.toTerm, Term.eqv_list, Json.toTerms_eq, Json.toTerms_eq,
    Term.eqvAll_iff, List.forall₂_map_left_iff, List.forall₂_map_right_iff,
    List.forall₂_map_left_iff, List.forall₂_map_right_iff]
  exact forall₂_congr_of_mem h

/-! ## Comparing -/

theorem same_iff : t.same u = true ↔ t.name = u.name ∧
    Option.Rel (fun x y => sameAttributes x y = true) t.attributes u.attributes ∧
    Option.Rel (List.Forall₂ fun t u => t.same u = true) t.children u.children := by
  rcases t with ⟨a, x, ts⟩
  rcases u with ⟨b, y, us⟩
  cases x <;> cases y <;> cases ts <;> cases us <;>
    simp [same, sameAll_iff, Tree.name, attributes, children, and_assoc]

/-- A tree as data is an object with the name, and what there is of attributes and children. -/
theorem toTerm_toJson (t : Tree) : t.toJson.toTerm =
    .dict (members (.str t.name)
      ((plainAttributes t.attributes).map fun attributes => (rowJson attributes).toTerm)
      (t.children.map fun children => (rowsJson children).toTerm)) := by
  rw [toJson_eq, Json.toTerm, Json.toEntries_eq, map_members, Option.map_map, Option.map_map,
    Json.toTerm]
  rfl

/-- Induction on trees from the children of a node to the node. -/
theorem induct_children {motive : Tree → Prop}
    (step : ∀ t, (∀ ts ∈ t.children, ∀ child ∈ ts, motive child) → motive t) (t : Tree) :
    motive t := by
  induction t with
  | leaf name attributes => exact step _ nofun
  | branch name attributes ts ih =>
      refine step _ fun us hus => ?_
      cases hus
      exact ih

/-- Optional values are related after a map as they were before it. -/
theorem rel_map {β : Type} {R : β → β → Prop} {S : α → α → Prop} {f : α → β} {a b : Option α}
    (h : ∀ x ∈ a, ∀ y, R (f x) (f y) ↔ S x y) :
    Option.Rel R (a.map f) (b.map f) ↔ Option.Rel S a b := by
  cases a with
  | none => cases b <;> simp
  | some x => cases b <;> simp [h x rfl]

/-- Trees have equal data exactly if they are equal when plain. -/
theorem eqv_toJson_iff (t u : Tree) :
    t.toJson.toTerm.eqv u.toJson.toTerm = true ↔ t.plain.same u.plain = true := by
  have hrows (a b : List Tree) : List.Forall₂ (fun t u => t.same u = true) (a.map plain)
      (b.map plain) ↔ List.Forall₂ (fun t u : Tree => t.plain.same u.plain = true) a b :=
    forall₂_same_map fun _ _ _ => Iff.rfl
  -- A node is compared part by part on both sides, and its children one by one.
  induction t using induct_children generalizing u with
  | step t ih =>
      rw [toTerm_toJson, toTerm_toJson, eqv_members, Term.eqv_str, beq_iff_eq, same_iff,
        name_plain, name_plain, attributes_plain, attributes_plain, children_plain, children_plain,
        rel_map fun _ _ _ => eqv_rowJson, rel_map fun ts hts _ => eqv_rowsJson (ih ts hts),
        rel_map fun _ _ _ => hrows _ _]

theorem eq_iff : t = u ↔
    t.name = u.name ∧ t.attributes = u.attributes ∧ t.children = u.children := by
  rcases t with ⟨a, x, ts⟩
  rcases u with ⟨b, y, us⟩
  simp only [node.injEq, Tree.name, attributes, children]

/-- Attributes as data tell what the attributes are, and in which order. -/
theorem rowJson_inj {x y : List (Text × Text)} : rowJson x = rowJson y ↔ x = y := by
  -- An entry is determined by its data, so a row is, too.
  have hentry : Function.Injective (Prod.map id Json.str : Text × Text → Text × Json) :=
    Function.injective_id.prodMap fun _ _ => Json.str.inj
  rw [rowJson, rowJson, Json.obj.injEq, (List.map_injective_iff.2 hentry).eq_iff]

theorem map_eq_map_iff {β : Type} {f : α → β} {as bs : List α} :
    as.map f = bs.map f ↔ List.Forall₂ (fun a b => f a = f b) as bs := by
  rw [← List.forall₂_eq_eq_eq, List.forall₂_map_left_iff, List.forall₂_map_right_iff]

/-- Rows that two functions tell apart in the same way, element by element. -/
theorem map_eq_map_iff_of_mem {β γ : Type} {f : α → β} {g : α → γ} {as bs : List α}
    (h : ∀ a ∈ as, ∀ b, f a = f b ↔ g a = g b) :
    as.map f = bs.map f ↔ as.map g = bs.map g := by
  rw [map_eq_map_iff, map_eq_map_iff, forall₂_congr_of_mem h]

/-- Trees have the same document exactly if they are identical when plain. -/
theorem toJson_eq_iff (t u : Tree) : t.toJson = u.toJson ↔ t.plain = u.plain := by
  -- Attributes as data are told apart as they are, and children by the induction hypothesis.
  have hattributes (a b : Option (List (Text × Text))) :
      a.map rowJson = b.map rowJson ↔ a = b :=
    (Option.map_injective fun _ _ => rowJson_inj.1).eq_iff
  induction t using induct_children generalizing u with
  | step t ih =>
      have hchildren : t.children.map rowsJson = u.children.map rowsJson ↔
          t.children.map (List.map plain) = u.children.map (List.map plain) := by
        -- The induction hypothesis is about children that are there.
        cases hts : t.children with
        | none => cases u.children <;> simp
        | some ts =>
            cases u.children with
            | none => simp
            | some us => simp [rowsJson, map_eq_map_iff_of_mem (ih ts hts)]
      rw [toJson_eq, toJson_eq, Json.obj.injEq, members_inj, Json.str.injEq, hattributes,
        hchildren, eq_iff, name_plain, name_plain, attributes_plain, attributes_plain,
        children_plain, children_plain]

/-! ## Reading what is written -/

/-- The attributes of every node have distinct keys. -/
inductive Keyed : Tree → Prop where
  | node {name : Text} {attributes : Option (List (Text × Text))}
    {children : Option (List Tree)}
    (hkeys : ∀ row ∈ attributes, (row.map Prod.fst).Nodup)
    (h : ∀ ts ∈ children, ∀ t ∈ ts, Keyed t) : Keyed (.node name attributes children)

/-- Only an empty row of attributes is forgotten. -/
theorem mem_plainAttributes {attributes : Option (List (Text × Text))}
    {row : List (Text × Text)} (h : row ∈ plainAttributes attributes) : row ∈ attributes := by
  rcases attributes with _ | _ | ⟨_, _⟩
  · exact h
  · cases h
  · exact h

theorem forall_mem_members (P : α → Prop) {x : α} {a c : Option α} (hx : P x)
    (ha : ∀ y ∈ a, P y) (hc : ∀ y ∈ c, P y) : ∀ member ∈ members x a c, P member.2 := by
  cases a <;> cases c <;> simp_all [members]

/-- Attributes are texts. -/
theorem textual_rowJson (row : List (Text × Text)) : (rowJson row).Textual := by
  refine .obj fun member hmember => ?_
  rcases List.mem_map.1 hmember with ⟨entry, -, rfl⟩
  exact .str entry.2

/-- There are no numbers in the data of a tree. -/
theorem textual_toJson (t : Tree) : t.toJson.Textual := by
  induction t using induct_children with
  | step t ih =>
      rw [toJson_eq]
      refine .obj (forall_mem_members Json.Textual (.str t.name) ?_ ?_)
      · rintro _ hj
        rcases Option.map_eq_some_iff.1 hj with ⟨row, -, rfl⟩
        exact textual_rowJson row
      · rintro _ hj
        rcases Option.map_eq_some_iff.1 hj with ⟨ts, hts, rfl⟩
        refine .arr fun item hitem => ?_
        rcases List.mem_map.1 hitem with ⟨t, ht, rfl⟩
        exact ih ts hts t ht

theorem nesting_rowJson_le (row : List (Text × Text)) : (rowJson row).nesting ≤ 1 := by
  refine Nat.succ_le_succ (Json.nestingOfMembers_le fun member hmember => ?_)
  rcases List.mem_map.1 hmember with ⟨entry, -, rfl⟩
  exact Nat.zero_le 0

theorem height_le_of_mem {ts : List Tree} (h : t ∈ ts) : t.height ≤ heightOfAll ts := by
  induction h with
  | head => exact Nat.le_max_left _ _
  | tail _ _ ih => exact Nat.le_trans ih (Nat.le_max_right _ _)

/-- A row of children nests one level deeper than they do. -/
theorem nesting_rowsJson_le {n : Nat} (h : ∀ t ∈ ts, t.toJson.nesting ≤ n) :
    (rowsJson ts).nesting ≤ n + 1 := by
  refine Nat.succ_le_succ (Json.nestingOfItems_le fun item hitem => ?_)
  rcases List.mem_map.1 hitem with ⟨t, ht, rfl⟩
  exact h t ht

/-- A node nests one level deeper than its members. -/
theorem nesting_members_le {n : Nat} (name : Text) {a c : Option Json}
    (ha : ∀ j ∈ a, j.nesting ≤ n) (hc : ∀ j ∈ c, j.nesting ≤ n) :
    (Json.obj (members (.str name) a c)).nesting ≤ n + 1 := by
  have hname : (Json.str name).nesting ≤ n := Nat.zero_le n
  exact Nat.succ_le_succ
    (Json.nestingOfMembers_le (forall_mem_members (Json.nesting · ≤ n) hname ha hc))

/-- The data of a tree nest no deeper than the room that making them takes. -/
theorem nesting_toJson_le (t : Tree) : t.toJson.nesting ≤ dataStep * t.height := by
  have hrow {a : Option (List (Text × Text))} {n : Nat} :
      ∀ j ∈ a.map rowJson, j.nesting ≤ n + 1 := by
    intro j hj
    rcases Option.map_eq_some_iff.1 hj with ⟨row, -, rfl⟩
    exact Nat.le_trans (nesting_rowJson_le row) (Nat.le_add_left 1 n)
  induction t with
  | leaf name attributes =>
      rw [toJson_eq]
      exact nesting_members_le name hrow (fun _ hj => nomatch hj)
  | branch name attributes ts ih =>
      have hts : ∀ t ∈ ts, t.toJson.nesting ≤ dataStep * heightOfAll ts := fun t ht =>
        Nat.le_trans (ih t ht) (Nat.mul_le_mul_left _ (height_le_of_mem ht))
      -- A level of the tree is an object with an array in it, and it has room for both.
      rw [toJson_eq, height, Nat.mul_succ]
      refine nesting_members_le name hrow fun j hj => ?_
      cases hj
      exact nesting_rowsJson_le hts

/-- The keys of a node stay as they are, and its parts are read by themselves. -/
theorem reread_members (name : Text) (a c : Option Json) :
    (Json.obj (members (.str name) a c)).reread =
      .obj (members (.str name.joined) (a.map Json.reread) (c.map Json.reread)) := by
  -- The keys are plain texts, so joining leaves them as they are and they still differ.
  have hkey (run : String) : (Text.plain run).joined = run :=
    Text.joined_eq_iff.2 (Text.unsplit_plain run)
  have hmap : (members (.str name) a c).map (Prod.map Text.joined Json.reread) =
      members (.str name.joined) (a.map Json.reread) (c.map Json.reread) := by
    cases a <;> cases c <;> simp [members, hkey, Json.reread]
  rw [Json.reread, Json.rereadMembers_eq, hmap, Json.putAll_of_nodup (nodup_keys_members _ _ _)]
  rfl

/-- Attributes with distinct keys are read as they are exactly if no pair is split in them. -/
theorem reread_rowJson_iff {row : List (Text × Text)} (h : (row.map Prod.fst).Nodup) :
    (rowJson row).reread = rowJson row ↔ ∀ entry ∈ row, entry.1.Unsplit ∧ entry.2.Unsplit := by
  have hreread : (rowJson row).reread =
      .obj (Json.putAll [] (row.map fun entry => (entry.1.joined, .str entry.2.joined))) := by
    rw [rowJson, Json.reread, Json.rereadMembers_eq, List.map_map]
    rfl
  rw [hreread, rowJson, Json.obj.injEq]
  constructor
  · -- What is read is joined, whichever of the members are left.
    intro heq entry hentry
    have hjoined : ∀ member ∈ Json.putAll []
        (row.map fun entry => (entry.1.joined, .str entry.2.joined)),
        member.1.Unsplit ∧ ∀ text, member.2 = .str text → text.Unsplit := by
      refine Json.forall_putAll (List.forall_mem_nil _) fun member hmember => ?_
      rcases List.mem_map.1 hmember with ⟨other, -, rfl⟩
      refine ⟨Text.unsplit_joined _, ?_⟩
      rintro _ ⟨⟩
      exact Text.unsplit_joined _
    rw [heq] at hjoined
    have hmember := hjoined _ (List.mem_map_of_mem hentry)
    exact ⟨hmember.1, hmember.2 _ rfl⟩
  · -- Nothing is joined, and distinct keys are put into the object one after the other.
    intro hunsplit
    have hmap : row.map (fun entry => (entry.1.joined, Json.str entry.2.joined)) =
        row.map (Prod.map id .str) := by
      refine List.map_congr_left fun entry hentry => ?_
      rcases hunsplit entry hentry with ⟨hkey, hvalue⟩
      rw [Text.joined_eq_iff.2 hkey, Text.joined_eq_iff.2 hvalue]
      rfl
    rw [hmap]
    refine Json.putAll_of_nodup ?_
    rw [List.nil_append, List.map_map]
    exact h

/-- A row of children is read back exactly if each of them is. -/
theorem reread_rowsJson_iff {ts : List Tree} :
    (rowsJson ts).reread = rowsJson ts ↔ ∀ t ∈ ts, t.toJson.reread = t.toJson := by
  rw [rowsJson, Json.reread, Json.rereadItems_eq, List.map_map, Json.arr.injEq, List.map_inj_left]
  rfl

/-- The labels of a node are its name, those in its attributes and those of its children. -/
theorem forall_labels {P : Text → Prop} : (∀ label ∈ t.labels, P label) ↔
    P t.name ∧ (∀ row ∈ t.attributes, ∀ entry ∈ row, P entry.1 ∧ P entry.2) ∧
      ∀ ts ∈ t.children, ∀ child ∈ ts, ∀ label ∈ child.labels, P label := by
  have hrow (attributes : Option (List (Text × Text))) :
      (∀ label ∈ attributeLabels attributes, P label) ↔
        ∀ row ∈ attributes, ∀ entry ∈ row, P entry.1 ∧ P entry.2 := by
    cases attributes with
    | none =>
        exact iff_of_true (List.forall_mem_nil _) fun _ h => absurd h (Option.not_mem_none _)
    | some row =>
        have hentries : (∀ label ∈ attributeLabels (some row), P label) ↔
            ∀ entry ∈ row, ∀ label ∈ [entry.1, entry.2], P label := List.forall_mem_flatMap
        rw [hentries]
        simp only [Option.mem_some_iff, forall_eq', List.mem_cons, List.not_mem_nil, or_false,
          forall_eq_or_imp, forall_eq]
  have hrows (ts : List Tree) : (∀ label ∈ labelsOfAll ts, P label) ↔
      ∀ child ∈ ts, ∀ label ∈ child.labels, P label := by
    rw [labelsOfAll_eq, List.forall_mem_flatMap]
  rcases t with ⟨name, attributes, children⟩
  cases children with
  | none =>
      rw [labels, List.forall_mem_cons, hrow]
      refine and_congr_right fun _ => (and_iff_left fun _ h => ?_).symm
      exact absurd h (Option.not_mem_none _)
  | some ts =>
      rw [labels, List.forall_mem_cons, List.forall_mem_append, hrow, hrows]
      simp only [Tree.name, Tree.attributes, Tree.children, Option.mem_some_iff, forall_eq']

/-- The data of a tree whose attributes have distinct keys are read as they are exactly if no
    label splits a pair. -/
theorem Keyed.reread_iff (h : Keyed t) :
    t.toJson.reread = t.toJson ↔ ∀ label ∈ t.labels, label.Unsplit := by
  induction h with
  | @node name attributes children hkeys _ ih =>
      rw [toJson_eq, reread_members, Json.obj.injEq, members_inj, Json.str.injEq,
        Text.joined_eq_iff, forall_labels]
      -- The name is compared by itself, then the attributes and the children.
      refine and_congr Iff.rfl (and_congr ?_ ?_)
      · rcases attributes with _ | _ | ⟨first, others⟩
        · exact iff_of_true rfl fun _ h => absurd h (Option.not_mem_none _)
        · simp [Tree.attributes, plainAttributes]
        · have hrow := reread_rowJson_iff (hkeys _ rfl)
          simp only [Tree.attributes, plainAttributes, Option.map_some, Option.some.injEq,
            Option.mem_some_iff, forall_eq', hrow]
      · cases children with
        | none => exact iff_of_true rfl fun _ h => absurd h (Option.not_mem_none _)
        | some ts =>
            simp only [Tree.children, Option.map_some, Option.some.injEq, Option.mem_some_iff,
              forall_eq', reread_rowsJson_iff]
            exact forall₂_congr (ih ts rfl)

/-- The JSON text of a tree is read as the data of the tree, with joined texts. -/
theorem readDocument_render (hroom : dataStep * t.height ≤ nestingLimit) :
    ∃ text : String, Command.render .json (some t) = .ok text ∧
      readDocument text.toList = .ok t.toJson.reread := by
  have hrender : Command.render .json (some t) = .ok (Command.onLine
      (String.ofList (t.toJson.write (.indented Command.jsonStep)))) := by
    rw [Command.render, toJson?, if_pos hroom]
    rfl
  refine ⟨_, hrender, ?_⟩
  -- The line break behind the text is a gap.
  have hread := Service.readDocument_written t.textual_toJson
    (Nat.le_trans (nesting_toJson_le t) hroom) (.indented Command.jsonStep) Json.gap_nil
    (Json.gap_lineBreak (.indented 0) 0)
  rw [String.toList_append, String.toList_ofList]
  exact hread

/-- The JSON text of a tree whose attributes have distinct keys is read as the data of the tree
    exactly if no pair is split in a label, if there is room to make the data. Trees have equal
    data exactly if they are equal when plain, and data in the same order exactly if they are
    identical when plain. -/
theorem written_data_are_read :
    (∀ t : Tree, t.Keyed → dataStep * t.height ≤ nestingLimit →
      ∃ text : String, Command.render .json (some t) = .ok text ∧
        (readDocument text.toList = .ok t.toJson ↔ ∀ label ∈ t.labels, label.Unsplit)) ∧
    (∀ t u : Tree, t.toJson.toTerm.eqv u.toJson.toTerm = true ↔ t.plain.same u.plain = true) ∧
    ∀ t u : Tree, t.toJson = u.toJson ↔ t.plain = u.plain := by
  refine ⟨fun t hkeyed hroom => ?_, eqv_toJson_iff, toJson_eq_iff⟩
  rcases readDocument_render hroom with ⟨text, hrender, hread⟩
  refine ⟨text, hrender, ?_⟩
  rw [hread, Except.ok.injEq]
  exact hkeyed.reread_iff

/-- A tree with a leaf, a branch without children, attributes that are empty, characters that are
    escaped, and surrogates that are no pair. -/
def specimen : Tree :=
  .node "a \"b\" \\" (some [("\n", "\x01"), ("é", "𝄞")])
    (some [.node (.broken "" 0x600 (.broken "leaf" 0x3d "")) none none,
      .node "branch" (some []) (some [])])

theorem specimen_is_read :
    specimen.Keyed ∧ dataStep * specimen.height ≤ nestingLimit ∧
      (∀ label ∈ specimen.labels, label.Unsplit) ∧
      ∃ text : String, Command.render .json (some specimen) = .ok text ∧
        readDocument text.toList = .ok specimen.toJson := by
  -- Only the root has attributes, and their keys differ.
  have hkeyed : specimen.Keyed := by
    refine .node (fun row hrow => ?_) fun ts hts t ht => ?_
    · cases hrow
      decide
    · cases hts
      simp only [List.mem_cons, List.not_mem_nil, or_false] at ht
      rcases ht with rfl | rfl
      · exact .node nofun nofun
      · exact .node (by simp) (by simp)
  have hroom : dataStep * specimen.height ≤ nestingLimit := by decide
  have hunsplit : ∀ label ∈ specimen.labels, label.Unsplit := by decide
  rcases written_data_are_read.1 specimen hkeyed hroom with ⟨text, hrender, hread⟩
  exact ⟨hkeyed, hroom, hunsplit, text, hrender, hread.2 hunsplit⟩

/-- A leaf whose name is the two halves of a pair. -/
def splitName : Tree := .leaf (.broken "" 0x3d (.broken "" 0x600 ""))

/-- A name that is a split pair is read as the one character that the pair stands for, so the data
    that are read are those of another tree. -/
theorem split_name_is_joined :
    splitName.Keyed ∧ dataStep * splitName.height ≤ nestingLimit ∧
      ∃ text : String, Command.render .json (some splitName) = .ok text ∧
        readDocument text.toList = .ok (leaf "😀").toJson ∧
        readDocument text.toList ≠ .ok splitName.toJson := by
  have hroom : dataStep * splitName.height ≤ nestingLimit := by decide
  rcases readDocument_render hroom with ⟨text, hrender, hread⟩
  -- The data are read with the halves joined, and the tree with that name is another one.
  have hjoined : splitName.toJson.reread = (leaf "😀").toJson := by rfl
  rw [hjoined] at hread
  refine ⟨.node nofun nofun, hroom, text, hrender, hread, fun h => ?_⟩
  have hsame := (toJson_eq_iff _ _).1 (Except.ok.inj (hread.symm.trans h))
  exact absurd (congrArg name hsame) (by decide)

end Tree

end StageTree
