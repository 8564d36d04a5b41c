import StageTree.Proofs.Wire.Forms

/-!
# Successful Readings

When the steps that every reader is made of succeed, and with what result. Each lemma speaks of
a reader only through the forms, so what is proved from them does not see how an object is
gone through.

What is small enough to take no room of its own, such as a variable or a lexical address, is
read exactly when it has its form. The readers that go down into a value are put together from
these in other modules.

## Theorems

* `nodeOf_eq_ok`: What is read as a node is a node with its tag.
* `onValue_eq_ok`, `onField_eq_ok`, `onList_eq_ok`: Reading the parts of a node.
* `names_eq_ok`, `varName_eq_ok`, `parsedVar_eq_ok`, `lambdaKind_eq_ok`: Parts of parsed
  expressions.
* `address_eq_ok`, `analyzedVar_eq_ok`, `callKind_eq_ok`: Parts of analyzed expressions.
-/

namespace StageTree

namespace Wire

variable {α β : Type} {room : Nat} {j : Json}

/-! ## Readings -/

-- A reading that goes on after a part gives a result only if the part did.
theorem bind_eq_ok {ε : Type} {reading : Except ε α} {f : α → Except ε β} {b : β} :
    (reading >>= f) = .ok b ↔ ∃ a, reading = .ok a ∧ f a = .ok b := by
  cases reading with
  | ok a =>
      constructor
      · intro h
        exact ⟨a, rfl, h⟩
      · rintro ⟨_, ⟨rfl⟩, h⟩
        exact h
  | error refusal =>
      constructor
      · intro h
        cases h
      · rintro ⟨_, ha, _⟩
        cases ha

theorem ok_bind (a : α) (f : α → Reading β) : ((.ok a : Reading α) >>= f) = f a := rfl

theorem pure_eq_ok {ε : Type} {a b : α} : (pure a : Except ε α) = .ok b ↔ a = b := by
  change Except.ok a = Except.ok b ↔ a = b
  rw [Except.ok.injEq]

/-- A refusal is no success, whatever the room. -/
theorem reject_ne_ok (problem : Problem) (found : Json) (a : α) :
    reject room problem found ≠ .ok a := by
  intro h
  unfold reject at h
  split at h <;> cases h

-- A step is added to defects only, so it does not matter to what is read.
theorem within_eq_ok {step : Step} {reading : Reading α} {a : α} :
    within step reading = .ok a ↔ reading = .ok a := by
  cases reading with
  | ok b => rfl
  | error refusal =>
      cases refusal with
      | defective d => constructor <;> intro h <;> cases h
      | tooDeep => rfl

/-! ## Nodes -/

theorem partAt?_step {step : Step} {part : Json} :
    partAt? j [step] = some part ↔ stepInto? j step = some part := by
  rw [partAt?, Option.bind_eq_some_iff]
  constructor
  · rintro ⟨_, hstep, ⟨rfl⟩⟩
    exact hstep
  · intro hstep
    exact ⟨part, hstep, rfl⟩

-- Two steps lead to a field: one to the value of the node, and one into it.
theorem hasField_iff {key : Text} {part : Json} :
    HasField j key part ↔ ∃ value, HasValue j value ∧ stepInto? value (.key key) = some part := by
  unfold HasField
  rw [partAt?, Option.bind_eq_some_iff]
  simp only [HasValue, partAt?_step]

/-- Keys lead into objects only. -/
theorem stepInto?_key {step : Text} {part : Json} :
    stepInto? j (.key step) = some part ↔
      ∃ members, j = .obj members ∧ members.lookup step = some part := by
  cases j with
  | obj members =>
      constructor
      · intro h
        exact ⟨members, rfl, h⟩
      · rintro ⟨_, ⟨rfl⟩, h⟩
        exact h
  | _ =>
      constructor
      · intro h
        exact absurd h (by simp only [stepInto?, reduceCtorEq, not_false_eq_true])
      · rintro ⟨_, ⟨⟩, _⟩

/-- The node is the one that the document is. -/
structure IsNode (j : Json) (node : Node) : Prop where
  /-- The node keeps the document. -/
  whole : node.whole = j
  /-- The members are those of the document. -/
  members : j = .obj node.members
  /-- The tag is the one of the document. -/
  tag : Tagged j node.tag

-- Reading a node finds the members first and the tag among them, and keeps both. The other
-- way round, the members and the tag of the node are those that reading finds.
theorem nodeOf_eq_ok {node : Node} : nodeOf room j = .ok node ↔ IsNode j node := by
  unfold nodeOf tagOf membersOf
  constructor
  · intro h
    rcases bind_eq_ok.1 h with ⟨⟨tag, members⟩, htag, hnode⟩
    rcases bind_eq_ok.1 htag with ⟨_, hmembers, htag⟩
    -- Documents that are no objects are refused, and so are objects without a tag.
    cases j with
    | obj _ =>
        cases hmembers
        split at htag
        · rename_i htype
          cases htag
          cases pure_eq_ok.1 hnode
          exact ⟨rfl, rfl, partAt?_step.2 htype⟩
        · exact absurd htag (reject_ne_ok _ _ _)
    | _ => exact absurd hmembers (reject_ne_ok _ _ _)
  · rintro ⟨hwhole, hmembers, htag⟩
    have htype : node.members.lookup (.plain "type") = some (.str node.tag) := by
      rw [hmembers] at htag
      exact partAt?_step.1 htag
    rw [hmembers, ok_bind]
    simp only [htype]
    rw [ok_bind, ← hmembers, ← hwhole]
    rfl

/-- A tagged document is read as a node with its tag, however little room there is. -/
theorem exists_node {tag : Text} (htag : Tagged j tag) :
    ∃ members, IsNode j ⟨j, tag, members⟩ ∧ ∀ room, nodeOf room j = .ok ⟨j, tag, members⟩ := by
  rcases stepInto?_key.1 (partAt?_step.1 htag) with ⟨members, hmembers, _⟩
  have hnode : IsNode j ⟨j, tag, members⟩ := ⟨rfl, hmembers, htag⟩
  exact ⟨members, hnode, fun _ => nodeOf_eq_ok.2 hnode⟩

section Node

variable {node : Node} (hnode : IsNode j node) {read : Json → Reading α}

include hnode

/-- The value of a node is looked up among the members that have been read. -/
theorem IsNode.hasValue_iff {value : Json} :
    HasValue j value ↔ node.members.lookup (.plain "value") = some value := by
  rw [HasValue, partAt?_step, hnode.members]
  rfl

/-- The value of a node is what its reader is given. -/
theorem onValue_of_hasValue {value : Json} (hvalue : HasValue j value) :
    onValue room node read = within (.key "value") (read value) := by
  rw [onValue, hnode.hasValue_iff.1 hvalue]

/-- Reading the value of a node succeeds exactly if there is a value that can be read. -/
theorem onValue_eq_ok {a : α} :
    onValue room node read = .ok a ↔ ∃ value, HasValue j value ∧ read value = .ok a := by
  constructor
  · intro h
    unfold onValue at h
    split at h
    · rename_i value hlookup
      exact ⟨value, hnode.hasValue_iff.2 hlookup, within_eq_ok.1 h⟩
    · exact absurd h (reject_ne_ok _ _ _)
  · rintro ⟨value, hvalue, hread⟩
    rw [onValue_of_hasValue hnode hvalue]
    exact within_eq_ok.2 hread

omit hnode in
theorem onMember_of_stepInto? {key : Text} {part : Json}
    (hpart : stepInto? j (.key key) = some part) :
    onMember room key read j = within (.key key) (read part) := by
  rcases stepInto?_key.1 hpart with ⟨members, rfl, hlookup⟩
  rw [onMember, membersOf, ok_bind]
  simp only [hlookup]

omit hnode in
/-- Reading a member succeeds exactly if there is such a member that can be read. -/
theorem onMember_eq_ok {key : Text} {a : α} :
    onMember room key read j = .ok a ↔
      ∃ part, stepInto? j (.key key) = some part ∧ read part = .ok a := by
  constructor
  · intro h
    rcases bind_eq_ok.1 h with ⟨members, hmembers, hmember⟩
    cases j with
    | obj _ =>
        cases hmembers
        split at hmember
        · rename_i part hlookup
          exact ⟨part, hlookup, within_eq_ok.1 hmember⟩
        · exact absurd hmember (reject_ne_ok _ _ _)
    | _ => exact absurd hmembers (reject_ne_ok _ _ _)
  · rintro ⟨part, hpart, hread⟩
    rw [onMember_of_stepInto? hpart]
    exact within_eq_ok.2 hread

/-- The field of a node is what its reader is given. -/
theorem onField_of_hasField {key : Text} {part : Json} (hpart : HasField j key part) :
    onField room node key read = within (.key "value") (within (.key key) (read part)) := by
  rcases hasField_iff.1 hpart with ⟨value, hvalue, hstep⟩
  rw [onField, onValue_of_hasValue hnode hvalue, onMember_of_stepInto? hstep]

/-- Reading a field succeeds exactly if there is such a field that can be read. -/
theorem onField_eq_ok {key : Text} {a : α} :
    onField room node key read = .ok a ↔ ∃ part, HasField j key part ∧ read part = .ok a := by
  rw [onField, onValue_eq_ok hnode]
  constructor
  · rintro ⟨value, hvalue, hmember⟩
    rcases onMember_eq_ok.1 hmember with ⟨part, hstep, hread⟩
    exact ⟨part, hasField_iff.2 ⟨value, hvalue, hstep⟩, hread⟩
  · rintro ⟨part, hpart, hread⟩
    rcases hasField_iff.1 hpart with ⟨value, hvalue, hstep⟩
    exact ⟨value, hvalue, onMember_eq_ok.2 ⟨part, hstep, hread⟩⟩

/-- A value that is read from one document only is that document. -/
theorem onValue_iff_hasValue {written : α → Json}
    (hread : ∀ {part a}, read part = .ok a ↔ part = written a) {a : α} :
    onValue room node read = .ok a ↔ HasValue j (written a) := by
  rw [onValue_eq_ok hnode]
  constructor
  · rintro ⟨value, hvalue, h⟩
    rw [← hread.1 h]
    exact hvalue
  · intro hvalue
    exact ⟨written a, hvalue, hread.2 rfl⟩

/-- A field that is read from one document only is that document. -/
theorem onField_iff_hasField {written : α → Json}
    (hread : ∀ {part a}, read part = .ok a ↔ part = written a) {key : Text} {a : α} :
    onField room node key read = .ok a ↔ HasField j key (written a) := by
  rw [onField_eq_ok hnode]
  constructor
  · rintro ⟨part, hpart, h⟩
    rw [← hread.1 h]
    exact hpart
  · intro hpart
    exact ⟨written a, hpart, hread.2 rfl⟩

end Node

/-! ## Lists -/

-- By induction on the items. The index only matters to defects, so it is free to change.
theorem itemsFrom_eq_ok {read : Json → Reading α} {i : Nat} {items : List Json} {as : List α} :
    itemsFrom read i items = .ok as ↔
      List.Forall₂ (fun item a => read item = .ok a) items as := by
  induction items generalizing i as with
  | nil =>
      rw [itemsFrom, List.forall₂_nil_left_iff, Except.ok.injEq]
      exact eq_comm
  | cons item rest ih =>
      rw [itemsFrom, bind_eq_ok, List.forall₂_cons_left_iff]
      constructor
      · rintro ⟨first, hfirst, hothers⟩
        rcases bind_eq_ok.1 hothers with ⟨others, hothers, h⟩
        exact ⟨first, others, within_eq_ok.1 hfirst, ih.1 hothers, (pure_eq_ok.1 h).symm⟩
      · rintro ⟨first, others, hfirst, hothers, rfl⟩
        exact ⟨first, within_eq_ok.2 hfirst, bind_eq_ok.2 ⟨others, ih.2 hothers, rfl⟩⟩

/-- Reading the items of an array succeeds exactly if each of them can be read. -/
theorem onItems_eq_ok {read : Json → Reading α} {as : List α} :
    onItems room read j = .ok as ↔
      ∃ items, j = .arr items ∧ List.Forall₂ (fun item a => read item = .ok a) items as := by
  cases j with
  | arr items =>
      rw [onItems, itemsFrom_eq_ok]
      constructor
      · intro h
        exact ⟨items, rfl, h⟩
      · rintro ⟨_, ⟨rfl⟩, h⟩
        exact h
  | _ =>
      constructor
      · intro h
        exact absurd h (reject_ne_ok _ _ _)
      · rintro ⟨_, ⟨⟩, _⟩

-- A list is a node like any other, with an array for its value.
theorem onList_eq_ok {read : Json → Reading α} {as : List α} :
    onList room read j = .ok as ↔
      ∃ items, IsList j items ∧ List.Forall₂ (fun item a => read item = .ok a) items as := by
  -- Lists are recognised by their tag, so the node is read first.
  unfold onList
  constructor
  · intro h
    rcases bind_eq_ok.1 h with ⟨node, hnode, h⟩
    rw [nodeOf_eq_ok] at hnode
    split at h
    · rename_i htag
      rcases (onValue_eq_ok hnode).1 h with ⟨value, hvalue, hitems⟩
      rcases onItems_eq_ok.1 hitems with ⟨items, rfl, hread⟩
      have hlist := hnode.tag
      rw [htag] at hlist
      exact ⟨items, ⟨hlist, hvalue⟩, hread⟩
    · exact absurd h (reject_ne_ok _ _ _)
  · rintro ⟨items, ⟨htag, hvalue⟩, hread⟩
    rcases exists_node htag with ⟨members, hnode, hroom⟩
    rw [hroom, ok_bind]
    exact (if_pos rfl).trans
      ((onValue_eq_ok hnode).2 ⟨_, hvalue, onItems_eq_ok.2 ⟨items, rfl, hread⟩⟩)

/-! ## Texts and numbers -/

theorem text_eq_ok {value : Text} : text room j = .ok value ↔ j = .str value := by
  cases j with
  | str s => rw [text, Except.ok.injEq, Json.str.injEq]
  | _ =>
      constructor
      · intro h
        exact absurd h (reject_ne_ok _ _ _)
      · rintro ⟨⟩

/-- Only whole numbers are read as integers; truth values are documents of another kind. -/
theorem integer_eq_ok {n : Int} : integer room j = .ok n ↔ j = .int n := by
  cases j with
  | int m => rw [integer, Except.ok.injEq, Json.int.injEq]
  | _ =>
      constructor
      · intro h
        exact absurd h (reject_ne_ok _ _ _)
      · rintro ⟨⟩

-- An index is an integer that is not negative, which is what a natural number is read as.
theorem index_eq_ok {n : Nat} : index room j = .ok n ↔ j = .int n := by
  -- An index is an integer that is not negative; the cast back loses nothing.
  unfold index
  constructor
  · intro h
    rcases bind_eq_ok.1 h with ⟨m, hm, hindex⟩
    rw [integer_eq_ok] at hm
    split at hindex
    · exact absurd hindex (reject_ne_ok _ _ _)
    · rename_i hneg
      rw [Except.ok.injEq] at hindex
      rw [hm, Json.int.injEq]
      omega
  · rintro rfl
    refine bind_eq_ok.2 ⟨n, rfl, ?_⟩
    rw [if_neg (by omega), Int.toNat_natCast]

theorem forall₂_text_iff {items : List Json} {values : List Text} :
    List.Forall₂ (fun item value => text room item = .ok value) items values ↔
      items = values.map .str := by
  simp only [text_eq_ok]
  rw [← List.forall₂_eq_eq_eq, List.forall₂_map_right_iff]

-- An array is not a node, so a document is a parameter list in only one of the two ways.
theorem names_eq_ok {values : List Text} : names room j = .ok values ↔ NamesForm j values := by
  have hlist : onList room (text room) j = .ok values ↔ IsList j (values.map .str) := by
    rw [onList_eq_ok]
    simp only [forall₂_text_iff, exists_eq_right]
  cases j with
  | arr items =>
      rw [names, itemsFrom_eq_ok, forall₂_text_iff, NamesForm, Json.arr.injEq]
      exact (or_iff_left (by rintro ⟨⟨⟩, _⟩)).symm
  | _ => exact hlist.trans (or_iff_right (by rintro ⟨⟩)).symm

/-! ## Parts of parsed expressions -/

-- Names carry the proof that they are not empty, so the text says which name it is.
theorem ofText?_eq_some {name : Text} {var : VarName} :
    VarName.ofText? name = some var ↔ name = var.text := by
  -- Only the empty text names no variable.
  unfold VarName.ofText?
  split
  · rename_i hempty
    constructor
    · rintro ⟨⟩
    · intro h
      exact absurd (h.symm.trans hempty) var.nonempty
  · rw [Option.some.injEq]
    constructor
    · rintro rfl
      rfl
    · rintro rfl
      rfl

theorem varName_eq_ok {var : VarName} : varName room j = .ok var ↔ j = .str var.text := by
  unfold varName
  constructor
  · intro h
    rcases bind_eq_ok.1 h with ⟨name, hname, hvar⟩
    split at hvar
    · rename_i hsome
      cases pure_eq_ok.1 hvar
      rw [← ofText?_eq_some.1 hsome]
      exact text_eq_ok.1 hname
    · exact absurd hvar (reject_ne_ok _ _ _)
  · rintro rfl
    refine bind_eq_ok.2 ⟨var.text, rfl, ?_⟩
    simp only [ofText?_eq_some.2 rfl]
    rfl

/-- What is read as a variable of the second stage are its forms. -/
theorem parsedVar_eq_ok {var : VarName} : parsedVar room j = .ok var ↔ VarForm j var := by
  unfold parsedVar
  constructor
  · intro h
    rcases bind_eq_ok.1 h with ⟨node, hnode, h⟩
    rw [nodeOf_eq_ok] at hnode
    split at h
    · rename_i htag
      exact ⟨htag ▸ hnode.tag, (onField_iff_hasField hnode varName_eq_ok).1 h⟩
    · exact absurd h (reject_ne_ok _ _ _)
  · rintro ⟨htag, hname⟩
    rcases exists_node htag with ⟨members, hnode, hroom⟩
    refine bind_eq_ok.2 ⟨_, hroom room, ?_⟩
    rw [if_pos rfl]
    exact (onField_iff_hasField hnode varName_eq_ok).2 hname

/-- What is read as a kind of parameter list are its forms. -/
theorem lambdaKind_eq_ok {kind : Parsed.LambdaKind} :
    lambdaKind room j = .ok kind ↔ LambdaKindForm j kind := by
  unfold lambdaKind
  constructor
  · intro h
    rcases bind_eq_ok.1 h with ⟨node, hnode, h⟩
    rw [nodeOf_eq_ok] at hnode
    split at h
    · rename_i htag
      cases pure_eq_ok.1 h
      exact .simple (htag ▸ hnode.tag)
    · rename_i htag
      rcases bind_eq_ok.1 h with ⟨rest, hrest, h⟩
      cases pure_eq_ok.1 h
      exact .optional (htag ▸ hnode.tag) ((onField_iff_hasField hnode text_eq_ok).1 hrest)
    · exact absurd h (reject_ne_ok _ _ _)
  · intro h
    cases h with
    | simple htag =>
        rcases exists_node htag with ⟨members, _, hroom⟩
        exact bind_eq_ok.2 ⟨_, hroom room, rfl⟩
    | optional htag hopt =>
        rcases exists_node htag with ⟨members, hnode, hroom⟩
        refine bind_eq_ok.2 ⟨_, hroom room, ?_⟩
        exact bind_eq_ok.2 ⟨_, (onField_iff_hasField hnode text_eq_ok).2 hopt, rfl⟩

/-! ## Parts of analyzed expressions -/

theorem address_eq_ok {value : Analyzed.Address} :
    address room j = .ok value ↔ AddressForm j value := by
  unfold address
  constructor
  · intro h
    rcases bind_eq_ok.1 h with ⟨node, hnode, h⟩
    rw [nodeOf_eq_ok] at hnode
    split at h
    · rename_i htag
      cases pure_eq_ok.1 h
      exact .free (htag ▸ hnode.tag)
    · rename_i htag
      rcases bind_eq_ok.1 h with ⟨minor, hminor, h⟩
      cases pure_eq_ok.1 h
      exact .param (htag ▸ hnode.tag) ((onField_iff_hasField hnode index_eq_ok).1 hminor)
    · rename_i htag
      rcases bind_eq_ok.1 h with ⟨major, hmajor, h⟩
      rcases bind_eq_ok.1 h with ⟨minor, hminor, h⟩
      cases pure_eq_ok.1 h
      exact .bound (htag ▸ hnode.tag) ((onField_iff_hasField hnode index_eq_ok).1 hmajor)
        ((onField_iff_hasField hnode index_eq_ok).1 hminor)
    · exact absurd h (reject_ne_ok _ _ _)
  · intro h
    cases h with
    | free htag =>
        rcases exists_node htag with ⟨members, _, hroom⟩
        exact bind_eq_ok.2 ⟨_, hroom room, rfl⟩
    | param htag hminor =>
        rcases exists_node htag with ⟨members, hnode, hroom⟩
        refine bind_eq_ok.2 ⟨_, hroom room, ?_⟩
        exact bind_eq_ok.2 ⟨_, (onField_iff_hasField hnode index_eq_ok).2 hminor, rfl⟩
    -- The two indexes are read in the order in which they are written.
    | bound htag hmajor hminor =>
        rcases exists_node htag with ⟨members, hnode, hroom⟩
        refine bind_eq_ok.2 ⟨_, hroom room, ?_⟩
        refine bind_eq_ok.2 ⟨_, (onField_iff_hasField hnode index_eq_ok).2 hmajor, ?_⟩
        exact bind_eq_ok.2 ⟨_, (onField_iff_hasField hnode index_eq_ok).2 hminor, rfl⟩

/-- What is read as a variable of the third stage are its forms, with their addresses. -/
theorem analyzedVar_eq_ok {var : Analyzed.Var} :
    analyzedVar room j = .ok var ↔ AnalyzedVarForm j var := by
  unfold analyzedVar
  constructor
  · intro h
    rcases bind_eq_ok.1 h with ⟨node, hnode, h⟩
    rw [nodeOf_eq_ok] at hnode
    split at h
    · rename_i htag
      rcases bind_eq_ok.1 h with ⟨name, hname, h⟩
      rcases bind_eq_ok.1 h with ⟨place, hplace, h⟩
      rcases (onField_eq_ok hnode).1 hplace with ⟨_, hpart, haddress⟩
      cases pure_eq_ok.1 h
      exact .var (htag ▸ hnode.tag) ((onField_iff_hasField hnode varName_eq_ok).1 hname) hpart
        (address_eq_ok.1 haddress)
    · exact absurd h (reject_ne_ok _ _ _)
  · rintro ⟨htag, hname, hpart, haddress⟩
    rcases exists_node htag with ⟨members, hnode, hroom⟩
    refine bind_eq_ok.2 ⟨_, hroom room, ?_⟩
    rw [if_pos rfl]
    refine bind_eq_ok.2 ⟨_, (onField_iff_hasField hnode varName_eq_ok).2 hname, ?_⟩
    exact bind_eq_ok.2
      ⟨_, (onField_eq_ok hnode).2 ⟨_, hpart, address_eq_ok.2 haddress⟩, rfl⟩

-- There are two words and two kinds, and the words differ.
theorem callOfText?_eq_some {word : Text} {kind : Analyzed.CallKind} :
    Analyzed.CallKind.ofText? word = some kind ↔ word = kind.text := by
  unfold Analyzed.CallKind.ofText?
  by_cases htail : word = Analyzed.CallKind.tail.text
  · rw [if_pos htail, htail]
    cases kind <;> decide
  · rw [if_neg htail]
    by_cases hnonTail : word = Analyzed.CallKind.nonTail.text
    · rw [if_pos hnonTail, hnonTail]
      cases kind <;> decide
    · rw [if_neg hnonTail]
      cases kind with
      | tail => exact ⟨fun h => absurd h (by decide), fun h => absurd h htail⟩
      | nonTail => exact ⟨fun h => absurd h (by decide), fun h => absurd h hnonTail⟩

/-- The words for calls are read exactly, and no others. -/
theorem callWord_eq_ok {kind : Analyzed.CallKind} :
    callWord room j = .ok kind ↔ j = .str kind.text := by
  unfold callWord
  constructor
  · intro h
    split at h
    · split at h
      · rename_i hsome
        cases h
        rw [callOfText?_eq_some.1 hsome]
      · exact absurd h (reject_ne_ok _ _ _)
    · exact absurd h (reject_ne_ok _ _ _)
  · rintro rfl
    simp only [callOfText?_eq_some.2 rfl]

/-- What is read as a kind of call are its forms. -/
theorem callKind_eq_ok {kind : Analyzed.CallKind} :
    callKind room j = .ok kind ↔ CallForm j kind := by
  unfold callKind
  constructor
  · intro h
    rcases bind_eq_ok.1 h with ⟨node, hnode, h⟩
    rw [nodeOf_eq_ok] at hnode
    split at h
    · rename_i htag
      have hvalue := (onValue_iff_hasValue hnode callWord_eq_ok).1 h
      cases kind with
      | tail => exact .tail (htag ▸ hnode.tag) hvalue
      | nonTail => exact .nonTail (htag ▸ hnode.tag) hvalue
    · exact absurd h (reject_ne_ok _ _ _)
  · -- Both kinds are read in the same way, by the words that they stand for.
    have hread (htag : Tagged j "AppKind") (hvalue : HasValue j (.str kind.text)) :
        callKind room j = .ok kind := by
      rcases exists_node htag with ⟨members, hnode, hroom⟩
      refine bind_eq_ok.2 ⟨_, hroom room, ?_⟩
      rw [if_pos rfl]
      exact (onValue_iff_hasValue hnode callWord_eq_ok).2 hvalue
    intro h
    cases h with
    | tail htag hvalue => exact hread htag hvalue
    | nonTail htag hvalue => exact hread htag hvalue

end Wire

end StageTree
