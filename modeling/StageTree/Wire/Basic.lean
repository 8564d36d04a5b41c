import StageTree.Failure
import StageTree.Json.Literal

/-!
# Reading the Wire Form

The parser service sends the output of a stage as a JSON document. Most nodes are objects with
a text member `type`, the tag, and a member `value` with what belongs to the node. This module
holds what reading all of them has in common: the defects that a document can have, where in
the document they are, and the steps by which a reader goes down into it.

A defect is found in an element of the document. It keeps that element and the steps that lead
to it, and the steps are added on the way out, one for each level. A reader never learns where
in a larger document it stands, so its verdict cannot depend on that.

The path of a failure is made of these steps and of where the document stands. It is the path that
a reader would be handed that is told where it stands, since the only use of such a path is in the
failures of that reader and of the readers that it hands the path on to. Whoever reads a field
hands on its own path with the key of the value and the key of the field, the same keys by which
the part is looked up, and so each key is named only once here, where the step is taken. That both
ways come to the same, call by call, is proved where failures are located.

The message of a defect shows the element. Showing takes room like everything that goes down
into a value, and where there is too little left, the element is not reported as defective but
as too deep.

## Main definitions

* `Step`: A step from a document to a part of it, and `partAt?`, the part that steps lead to.
* `Defect`: What is wrong with a document, and where.
* `Refusal`: Why a document is not read: it has a defect, or it is too deep.
* `Reading`: The result of reading, and `within`, which adds a step to it.
* `tagOf`, `onValue`, `onField`, `onItems`: The ways down into a node.
-/

namespace StageTree

namespace Wire

/-- A step from a document to a part of it. -/
inductive Step where
  /-- To the member of an object with a key. -/
  | key (name : Text)
  /-- To the item of an array at an index. -/
  | index (i : Nat)
  deriving DecidableEq

/-- A step as a path shows it. -/
def Step.text : Step → Text
  | .key name => "." ++ name
  | .index i => "[" ++ integerText i ++ "]"

/-- Steps as a path shows them, after the place where they start. -/
def pathText (start : Text) (steps : List Step) : Text :=
  start ++ Text.concat (steps.map Step.text)

/-- The part of a document that a step leads to. -/
def stepInto? : Json → Step → Option Json
  | .obj members, .key name => members.lookup name
  | .arr items, .index i => items[i]?
  | _, _ => none

/-- The part of a document that some steps lead to. -/
def partAt? (j : Json) : List Step → Option Json
  | [] => some j
  | step :: rest => (stepInto? j step).bind fun part => partAt? part rest

/-- The vocabularies of tags, for the message about a tag that is in none. -/
inductive Vocabulary where
  | readerValue
  | parsedExpression
  | analyzedExpression
  /-- The tags of the kinds of lambda expressions. -/
  | lambdaKind
  | lexicalAddress
  deriving DecidableEq

/-- What a tag of a vocabulary is called. -/
def Vocabulary.text : Vocabulary → String
  | .readerValue => "reader value tag"
  | .parsedExpression => "parsed expression tag"
  | .analyzedExpression => "analyzed expression tag"
  | .lambdaKind => "lambda kind"
  | .lexicalAddress => "lexical address"

/-- The tag of lists, which vectors share. -/
def listTag : Text := "OcamlList"

/-- What can be wrong with an element of a document. -/
inductive Problem where
  /-- The document is not an array of nodes. -/
  | notNodes
  | notObject
  | untagged
  /-- A node with this tag has no value. -/
  | noValue (tag : Text)
  | noField (key : Text)
  | notString
  /-- The element is an empty text, where a name must stand. -/
  | emptyName
  /-- The element is not a whole number. -/
  | notInteger
  /-- The element is a negative number, where an index must stand. -/
  | negativeIndex
  /-- The element is a whole number past all doubles. -/
  | hugeInteger (bits : Nat)
  /-- The node has another tag than the one that must stand here. -/
  | wrongTag (wanted tag : Text)
  /-- The tag is not in the vocabulary. -/
  | unknownTag (vocabulary : Vocabulary) (tag : Text)
  /-- The value of a list is not an array. -/
  | notArray
  /-- The value names no kind of application. -/
  | unknownCall
  deriving DecidableEq

/-- The message of a problem. -/
def Problem.message : Problem → Text
  | .notNodes => "Service response is not a list"
  | .notObject => "Expected a JSON object"
  | .untagged => "Node has no string 'type' tag"
  | .noValue tag => "Node '" ++ tag ++ "' has no 'value'"
  | .noField key => "Missing field '" ++ key ++ "'"
  | .notString => "Expected a string"
  | .emptyName => "Expected a non-empty variable name"
  | .notInteger => "Expected an integer"
  | .negativeIndex => "Expected a non-negative index"
  | .hugeInteger _ => "Number is too large to represent"
  | .wrongTag wanted tag => "Expected '" ++ wanted ++ "', got '" ++ tag ++ "'"
  | .unknownTag vocabulary tag => "Unknown " ++ vocabulary.text ++ " '" ++ tag ++ "'"
  | .notArray => "List value is not an array"
  | .unknownCall => "Unknown application kind"

/-- What a problem's report says was expected, if it says so. -/
def Problem.expected : Problem → Option Text
  | .notNodes => some "a JSON array of nodes"
  | .notObject => some "\x7b\"type\": ..., ...\x7d"
  | .wrongTag wanted _ => if wanted = listTag then some listTag else none
  | .unknownCall => some "'Tail_Call' or 'Non_Tail_Call'"
  | _ => none

/-- What a problem's report says was met: the element, or for a number that is too large to
    be shown, its size. -/
def Problem.received (found : Json) : Problem → String
  | .hugeInteger bits => "integer of " ++ integerText bits ++ " bits"
  | _ => found.describe

/-- A defect of a document: what is wrong, with which element, and how to get there. -/
structure Defect where
  /-- The steps from the document to the element. -/
  steps : List Step
  problem : Problem
  found : Json

/-- The failure that reports a defect of a document that stands at a path. -/
def Defect.failure (start : Text) (d : Defect) : Failure :=
  .decode d.problem.message (pathText start d.steps) (some (d.problem.received d.found))
    d.problem.expected

/-- Why a document is not read. -/
inductive Refusal where
  | defective (d : Defect)
  /-- It takes more room than there is. -/
  | tooDeep

/-- The result of reading a document. -/
abbrev Reading (α : Type) := Except Refusal α

/-- Refuse an element, if there is room to show it. -/
def reject {α : Type} (room : Nat) (problem : Problem) (found : Json) : Reading α :=
  if found.nesting ≤ room then .error (.defective ⟨[], problem, found⟩) else .error .tooDeep

/-- What was read of a part, as a reading of the whole: the step to the part goes in front of
    the steps to a defect. -/
def within {α : Type} (step : Step) : Reading α → Reading α
  | .error (.defective d) => .error (.defective { d with steps := step :: d.steps })
  | reading => reading

/-- The members of an object. -/
def membersOf (room : Nat) (j : Json) : Reading (List (Text × Json)) :=
  match j with
  | .obj members => .ok members
  | _ => reject room .notObject j

/-- The tag of a node, with the node's members. -/
def tagOf (room : Nat) (j : Json) : Reading (Text × List (Text × Json)) := do
  let members ← membersOf room j
  match members.lookup (.plain "type") with
  | some (.str tag) => .ok (tag, members)
  | _ => reject room .untagged j

/-- A node: the document that it is, its tag and its members. -/
structure Node where
  whole : Json
  tag : Text
  members : List (Text × Json)

/-- A document as a node. -/
def nodeOf (room : Nat) (j : Json) : Reading Node := do
  let (tag, members) ← tagOf room j
  pure ⟨j, tag, members⟩

/-- Read the value of a node. -/
def onValue {α : Type} (room : Nat) (node : Node) (read : Json → Reading α) : Reading α :=
  match node.members.lookup (.plain "value") with
  | some value => within (.key "value") (read value)
  | none => reject room (.noValue node.tag) node.whole

/-- Read the member of an object with a key. -/
def onMember {α : Type} (room : Nat) (key : Text) (read : Json → Reading α) (j : Json) :
    Reading α := do
  let members ← membersOf room j
  match members.lookup key with
  | some part => within (.key key) (read part)
  | none => reject room (.noField key) j

/-- Read a field of a node: the member of its value with a key. -/
def onField {α : Type} (room : Nat) (node : Node) (key : Text) (read : Json → Reading α) :
    Reading α :=
  onValue room node (onMember room key read)

/-- Read items one after the other, the first of which stands at an index. -/
def itemsFrom {α : Type} (read : Json → Reading α) (i : Nat) : List Json → Reading (List α)
  | [] => .ok []
  | item :: rest => do
    let first ← within (.index i) (read item)
    let others ← itemsFrom read (i + 1) rest
    pure (first :: others)

/-- Read the items of an array. -/
def onItems {α : Type} (room : Nat) (read : Json → Reading α) (j : Json) : Reading (List α) :=
  match j with
  | .arr items => itemsFrom read 0 items
  | _ => reject room .notArray j

/-- Read a list: a node with the tag of lists whose value is an array. -/
def onList {α : Type} (room : Nat) (read : Json → Reading α) (j : Json) : Reading (List α) := do
  let node ← nodeOf room j
  if node.tag = listTag then onValue room node (onItems room read)
  else reject room (.wrongTag listTag node.tag) j

/-- Read a text. -/
def text (room : Nat) (j : Json) : Reading Text :=
  match j with
  | .str value => .ok value
  | _ => reject room .notString j

/-- Read a whole number. -/
def integer (room : Nat) (j : Json) : Reading Int :=
  match j with
  | .int value => .ok value
  | _ => reject room .notInteger j

/-- Read an index. -/
def index (room : Nat) (j : Json) : Reading Nat := do
  let n ← integer room j
  if n < 0 then reject room .negativeIndex j else .ok n.toNat

/-- Read the names of a parameter list, which is an array of texts or a list of texts. -/
def names (room : Nat) (j : Json) : Reading (List Text) :=
  match j with
  | .arr items => itemsFrom (text room) 0 items
  | _ => onList room (text room) j

end Wire

end StageTree
