import Mathlib.Data.List.Nodup
import StageTree.Node
import StageTree.Proofs.Wire.Sound

/-!
# The Order of a Document

What stands before what in a document. Each kind of element has a row of slots: the places at
which the wire format puts what belongs to it, in the order in which the format writes them. The
row depends on the tag of a node and, for a list, on how many items there are, and on nothing
that stands in the slots: it has a slot for a field that is missing, too.

From the rows follows an order of all places in a document. A place precedes another one if
somewhere on the way down their ways part, and the slot that the first one goes through stands
further to the front. Places on one way down are not ordered.

The format puts no two things in one place (`Role.apart_slots`), so the order is one of places,
however they are come to.

## Main definitions

* `Role`: What an element of a document is read as, and `Role.read`, how.
* `Role.slots`: What belongs to an element, in order.
* `Part`: An element within an element.
* `Precedes`: A place stands before another one.

## Theorems

* `Role.read_mono`: What is read in some room is read in more.
* `Role.apart_slots`: The slots of an element are at different places, none within another.
-/

namespace StageTree

namespace Wire

/-! ## Roles -/

/-- What an element of a document is read as. -/
inductive Role where
  /-- A node of a stage. -/
  | node (stage : Stage)
  /-- A list of nodes of a stage. -/
  | list (stage : Stage)
  | parsedVariable
  | lambdaKind
  | analyzedVariable
  | address
  | callKind
  | callWord
  | parameters
  | text
  | name
  | integer
  | index

namespace Role

/-- What elements are read as. -/
abbrev Value : Role → Type
  | .node stage => stage.Node
  | .list stage => List stage.Node
  | .parsedVariable => VarName
  | .lambdaKind => Parsed.LambdaKind
  | .analyzedVariable => Analyzed.Var
  | .address => Analyzed.Address
  | .callKind => Analyzed.CallKind
  | .callWord => Analyzed.CallKind
  | .parameters => List Text
  | .text => Text
  | .name => VarName
  | .integer => Int
  | .index => Nat

/-- How elements are read. -/
def read : (role : Role) → Nat → Json → Reading role.Value
  | .node stage, room, j => stageNode stage room j
  | .list stage, room, j => onList room (readItem (stageNode stage) room) j
  | .parsedVariable, room, j => parsedVar room j
  | .lambdaKind, room, j => Wire.lambdaKind room j
  | .analyzedVariable, room, j => analyzedVar room j
  | .address, room, j => Wire.address room j
  | .callKind, room, j => Wire.callKind room j
  | .callWord, room, j => Wire.callWord room j
  | .parameters, room, j => names room j
  | .text, room, j => Wire.text room j
  | .name, room, j => varName room j
  | .integer, room, j => Wire.integer room j
  | .index, room, j => Wire.index room j

/-- The element is read where it stands by itself. -/
def Reads (role : Role) (j : Json) : Prop := ∃ value, role.read nestingLimit j = .ok value

end Role

/-! ## Slots -/

/-- A place at which something belongs. -/
structure Slot where
  /-- The way to the place. -/
  steps : List Step
  role : Role

namespace Slot

/-- The slot, seen from one step further out. -/
def under (step : Step) (s : Slot) : Slot := ⟨step :: s.steps, s.role⟩

/-- The value of a node. -/
def value (role : Role) : Slot := ⟨[.key "value"], role⟩

/-- A field of a node. -/
def field (key : Text) (role : Role) : Slot := ⟨[.key "value", .key key], role⟩

/-- Fields of a node, by their keys. -/
def fields (keys : List (Text × Role)) : List Slot := keys.map fun (key, role) => field key role

/-- An item of an array. -/
def item (role : Role) (i : Nat) : Slot := ⟨[.index i], role⟩

/-- The items of an array that has so many. -/
def items (role : Role) (count : Nat) : List Slot := (List.range' 0 count).map (item role)

/-- The items of a list. -/
def listItems (role : Role) (j : Json) : List Slot :=
  match partAt? j [.key "value"] with
  | some (.arr values) => (items role values.length).map (under (.key "value"))
  | _ => []

end Slot

/-- The tag of a document that has one. -/
def tag? (j : Json) : Option Text :=
  match partAt? j [.key "type"] with
  | some (.str tag) => some tag
  | _ => none

/-- What belongs to a reader value with a tag. -/
def sexprSlots (j : Json) : Text → List Slot
  | "ScmRational" => Slot.fields [("numerator", .integer), ("denominator", .integer)]
  | "ScmChar" | "ScmString" | "ScmSymbol" => [.value .text]
  | "OcamlList" => Slot.listItems (.node .reader) j
  | "ScmPair" => Slot.fields [("car", .node .reader), ("cdr", .node .reader)]
  | _ => []

/-- What belongs to a parsed expression with a tag. -/
def parsedSlots (tag : Text) : List Slot :=
  let expr := Role.node .tagParser
  let exprs := Role.list .tagParser
  match tag with
  | "ScmConst" => Slot.fields [("sexpr", .node .reader)]
  | "ScmVarGet" => Slot.fields [("var", .parsedVariable)]
  | "ScmIf" => Slot.fields [("test", expr), ("dit", expr), ("dif", expr)]
  | "ScmSeq" | "ScmOr" => Slot.fields [("exprs", exprs)]
  | "ScmVarSet" | "ScmVarDef" => Slot.fields [("var", .parsedVariable), ("val", expr)]
  | "ScmLambda" => Slot.fields [("params", .parameters), ("kind", .lambdaKind), ("body", expr)]
  | "ScmApplic" => Slot.fields [("applicative", expr), ("params", exprs)]
  | _ => []

/-- What belongs to an analyzed expression with a tag. -/
def analyzedSlots (tag : Text) : List Slot :=
  let expr := Role.node .semanticAnalyzer
  let exprs := Role.list .semanticAnalyzer
  match tag with
  | "ScmConst" => Slot.fields [("sexpr", .node .reader)]
  | "ScmVarGetTag" | "ScmBoxTag" | "ScmBoxGetTag" => Slot.fields [("var", .analyzedVariable)]
  | "ScmIfTag" => Slot.fields [("test", expr), ("dit", expr), ("dif", expr)]
  | "ScmSeqTag" | "ScmOrTag" => Slot.fields [("exprs", exprs)]
  | "ScmVarSetTag" | "ScmVarDefTag" | "ScmBoxSetTag" =>
    Slot.fields [("var", .analyzedVariable), ("val", expr)]
  | "ScmLambdaTag" => Slot.fields [("params", .parameters), ("body", expr)]
  | "ScmApplicTag" => Slot.fields [("applicative", expr), ("params", exprs), ("kind", .callKind)]
  | _ => []

/-- What belongs to a lexical address with a tag. -/
def addressSlots : Text → List Slot
  | "Param" => Slot.fields [("minor", .index)]
  | "Bound" => Slot.fields [("major", .index), ("minor", .index)]
  | _ => []

/-- What belongs to a lambda kind with a tag. -/
def lambdaKindSlots : Text → List Slot
  | "LambdaOpt" => Slot.fields [("opt", .text)]
  | _ => []

namespace Role

/-- What belongs to an element with a tag, in order. -/
def slotsOfTag (j : Json) (tag : Text) : Role → List Slot
  | .node .reader => sexprSlots j tag
  | .node .tagParser => parsedSlots tag
  | .node .semanticAnalyzer => analyzedSlots tag
  | .list stage => Slot.listItems (.node stage) j
  | .parsedVariable => Slot.fields [("name", .name)]
  | .lambdaKind => lambdaKindSlots tag
  | .analyzedVariable => Slot.fields [("name", .name), ("lexical_address", .address)]
  | .address => addressSlots tag
  | .callKind => [.value .callWord]
  | .parameters => Slot.listItems .text j
  | .callWord | .text | .name | .integer | .index => []

/-- What belongs to an element, in order. -/
def slots (role : Role) (j : Json) : List Slot :=
  match role, j with
  -- Parameters are the only elements with parts that need not have a tag.
  | .parameters, .arr values => Slot.items .text values.length
  | role, j => (tag? j).elim [] fun tag => role.slotsOfTag j tag

end Role

/-! ## Parts and their order -/

/-- An element that stands within another one, or is the same: the steps to it, and what it is
    read as. -/
inductive Part : Role → Json → List Step → Role → Json → Prop where
  | whole (role : Role) (j : Json) : Part role j [] role j
  | slot {role inner : Role} {j e part : Json} {s : Slot} {steps : List Step}
    (hs : s ∈ role.slots j) (he : partAt? j s.steps = some e)
    (hpart : Part s.role e steps inner part) : Part role j (s.steps ++ steps) inner part

/-- A place stands before another one in an element. -/
inductive Precedes : Role → Json → List Step → List Step → Prop where
  /-- The ways to the places part here, through two slots one of which stands before the
      other. -/
  | apart {role : Role} {j : Json} {s t : Slot} (h : [s, t].Sublist (role.slots j))
    (p q : List Step) : Precedes role j (s.steps ++ p) (t.steps ++ q)
  /-- They part further down. -/
  | within {role : Role} {j e : Json} {s : Slot} {p q : List Step} (hs : s ∈ role.slots j)
    (he : partAt? j s.steps = some e) (h : Precedes s.role e p q) :
    Precedes role j (s.steps ++ p) (s.steps ++ q)

/-! ## More room -/

section Room

variable {α : Type} {room more : Nat} {j : Json}

/-- What is read by its form in some room is read in more. -/
theorem mono_of_form {read : Nat → Json → Reading α} {Form : Json → α → Prop} {nesting : α → Nat}
    (hsound : ∀ room, Sound (read room) Form)
    (hform : ∀ room, ReadsInRoom (read room) Form nesting room) {a : α}
    (h : read room j = .ok a) (hmore : room ≤ more) : read more j = .ok a := by
  have hja := hsound room j a h
  have hroom : nesting a ≤ room := by
    by_contra hlong
    rw [hform room j a hja, inRoom_of_lt (Nat.not_le.1 hlong)] at h
    cases h
  rw [hform more j a hja, inRoom_of_le (Nat.le_trans hroom hmore)]

/-- More room does not change what has been read. -/
theorem stageNode_mono {stage : Stage} {node : stage.Node}
    (h : stageNode stage room j = .ok node) (hmore : room ≤ more) :
    stageNode stage more j = .ok node := by
  cases stage with
  | reader => exact mono_of_form sexpr_sound sexpr_inRoom h hmore
  | tagParser => exact mono_of_form parsed_sound parsed_inRoom h hmore
  | semanticAnalyzer => exact mono_of_form analyzed_sound analyzed_inRoom h hmore

/-- More room does not change what has been read inside a list. -/
theorem readItem_mono {stage : Stage} {node : stage.Node}
    (h : readItem (stageNode stage) room j = .ok node) (hmore : room ≤ more) :
    readItem (stageNode stage) more j = .ok node := by
  rcases readItem_cases (stageNode stage) room with ⟨below, rfl, hread⟩ | ⟨_, hread⟩
  · rcases readItem_cases (stageNode stage) more with ⟨below', rfl, hread'⟩ | ⟨hshort, _⟩
    · -- With more room the item is read further down, by the same amount on both sides.
      rw [hread] at h
      rw [hread']
      exact stageNode_mono h (by omega)
    · omega
  · cases (hread j).symm.trans h

/-- What is read in some room is read in more. -/
theorem Role.read_mono {role : Role} {value : role.Value} (h : role.read room j = .ok value)
    (hmore : room ≤ more) : role.read more j = .ok value := by
  cases role with
  | node stage => exact stageNode_mono h hmore
  | list stage =>
      rcases onList_eq_ok.1 h with ⟨items, hlist, hread⟩
      exact onList_eq_ok.2 ⟨items, hlist, hread.imp fun _ _ hitem => readItem_mono hitem hmore⟩
  -- The others take no room when they are read.
  | parsedVariable => exact parsedVar_eq_ok.2 (parsedVar_eq_ok.1 h)
  | lambdaKind => exact lambdaKind_eq_ok.2 (lambdaKind_eq_ok.1 h)
  | analyzedVariable => exact analyzedVar_eq_ok.2 (analyzedVar_eq_ok.1 h)
  | address => exact address_eq_ok.2 (address_eq_ok.1 h)
  | callKind => exact callKind_eq_ok.2 (callKind_eq_ok.1 h)
  | callWord => exact callWord_eq_ok.2 (callWord_eq_ok.1 h)
  | parameters => exact names_eq_ok.2 (names_eq_ok.1 h)
  | text => exact text_eq_ok.2 (text_eq_ok.1 h)
  | name => exact varName_eq_ok.2 (varName_eq_ok.1 h)
  | integer => exact integer_eq_ok.2 (integer_eq_ok.1 h)
  | index => exact index_eq_ok.2 (index_eq_ok.1 h)

/-- What is read with the room that is left is read with all the room there is. -/
theorem Role.reads_of_read {role : Role} {value : role.Value}
    (h : role.read room j = .ok value) (hroom : room ≤ nestingLimit) : role.Reads j :=
  ⟨value, Role.read_mono h hroom⟩

end Room

/-! ## Different slots are at different places -/

/-- The slots of a row are at different places on one level. -/
structure Apart (row : List Slot) : Prop where
  /-- No place occurs twice. -/
  nodup : (row.map Slot.steps).Nodup
  /-- All places are equally far, and none is where the row belongs. -/
  level : ∃ n, ∀ s ∈ row, s.steps.length = n + 1

/-- The items of an array stand at different indexes. -/
theorem apart_items (role : Role) (count : Nat) : Apart (Slot.items role count) := by
  refine ⟨?_, 0, fun s hs => ?_⟩
  · -- Different indexes give different steps.
    rw [Slot.items, List.map_map]
    refine List.Nodup.map (fun i k h => ?_) List.nodup_range'
    simpa only [Function.comp_apply, Slot.item, List.cons.injEq, Step.index.injEq,
      and_true] using h
  · rcases List.mem_map.1 hs with ⟨i, _, rfl⟩
    rfl

/-- Parts that stand apart still do so when they are seen from further out. -/
theorem Apart.under {row : List Slot} (h : Apart row) (step : Step) :
    Apart (row.map (Slot.under step)) := by
  rcases h.level with ⟨n, hn⟩
  refine ⟨?_, n + 1, fun s hs => ?_⟩
  · have hsteps : (row.map (Slot.under step)).map Slot.steps =
        (row.map Slot.steps).map (List.cons step) := by
      rw [List.map_map, List.map_map]
      rfl
    rw [hsteps]
    exact h.nodup.map fun p q heq => (List.cons.inj heq).2
  · rcases List.mem_map.1 hs with ⟨t, ht, rfl⟩
    exact congrArg (· + 1) (hn t ht)

theorem apart_nil : Apart [] := ⟨List.nodup_nil, 0, fun _ hs => absurd hs List.not_mem_nil⟩

/-- The items of a list stand apart, if there are any. -/
theorem apart_listItems (role : Role) (j : Json) : Apart (Slot.listItems role j) := by
  unfold Slot.listItems
  split
  · exact (apart_items role _).under _
  · exact apart_nil

theorem apart_value (role : Role) : Apart [.value role] :=
  ⟨List.nodup_singleton _, 0, fun s hs => by rw [List.mem_singleton.1 hs]; rfl⟩

/-- Fields with different keys are apart. -/
theorem apart_fields {keys : List (Text × Role)} (h : (keys.map Prod.fst).Nodup) :
    Apart (Slot.fields keys) := by
  refine ⟨?_, 1, fun s hs => ?_⟩
  · have hsteps : (Slot.fields keys).map Slot.steps =
        (keys.map Prod.fst).map fun key => [.key "value", .key key] := by
      rw [Slot.fields, List.map_map, List.map_map]
      rfl
    rw [hsteps]
    refine h.map fun k l heq => ?_
    simpa only [List.cons.injEq, Step.key.injEq, and_true, true_and] using heq
  · rcases List.mem_map.1 hs with ⟨f, _, rfl⟩
    rfl

/-- The parts of every form stand apart, whatever its tag. -/
theorem Role.apart_slotsOfTag (role : Role) (j : Json) (tag : Text) :
    Apart (role.slotsOfTag j tag) := by
  cases role with
  | node stage =>
      cases stage with
      | reader =>
          change Apart (sexprSlots j tag)
          unfold sexprSlots
          split
          · -- The keys of a form are literals, and different ones.
            exact apart_fields (by decide)
          · exact apart_value _
          · exact apart_value _
          · exact apart_value _
          · exact apart_listItems _ j
          · exact apart_fields (by decide)
          · exact apart_nil
      | tagParser =>
          change Apart (parsedSlots tag)
          unfold parsedSlots
          split <;> first | exact apart_nil | exact apart_fields (by decide)
      | semanticAnalyzer =>
          change Apart (analyzedSlots tag)
          unfold analyzedSlots
          split <;> first | exact apart_nil | exact apart_fields (by decide)
  | list stage => exact apart_listItems _ j
  | parsedVariable => exact apart_fields (by decide)
  | lambdaKind =>
      change Apart (lambdaKindSlots tag)
      unfold lambdaKindSlots
      split
      · exact apart_fields (by decide)
      · exact apart_nil
  | analyzedVariable => exact apart_fields (by decide)
  | address =>
      change Apart (addressSlots tag)
      unfold addressSlots
      split
      · exact apart_fields (by decide)
      · exact apart_fields (by decide)
      · exact apart_nil
  | callKind => exact apart_value _
  | parameters => exact apart_listItems _ j
  | _ => exact apart_nil

/-- The slots of an element are at different places, none within another. -/
theorem Role.apart_slots (role : Role) (j : Json) : Apart (role.slots j) := by
  unfold slots
  split
  · exact apart_items _ _
  · cases tag? j with
    | none => exact apart_nil
    | some tag => exact role.apart_slotsOfTag j tag

end Wire

end StageTree
