import StageTree.Json.Basic
import StageTree.Number.Shortest
import StageTree.Text.Quoted

/-!
# Documents in Messages

How a message shows a document: on one line, texts quoted, and cut short when it is long.

## Main definitions

* `Json.literal`: A document, whole.
* `Json.describe`: A document, cut to at most sixty characters.
-/

namespace StageTree

namespace Json

mutual

/-- A document on one line. -/
def literal : Json → String
  | .null => "None"
  | .bool value => if value then "True" else "False"
  | .int value => integerText value
  | .float value => value.text
  | .str value => quote value
  | .arr items => "[" ++ ", ".intercalate (itemLiterals items) ++ "]"
  | .obj members => "\x7b" ++ ", ".intercalate (memberLiterals members) ++ "\x7d"

/-- Some documents, each on one line. -/
def itemLiterals : List Json → List String
  | [] => []
  | item :: rest => literal item :: itemLiterals rest

/-- Some members, each on one line. -/
def memberLiterals : List (Text × Json) → List String
  | [] => []
  | (key, value) :: rest => (quote key ++ ": " ++ literal value) :: memberLiterals rest

end

/-- The greatest length of a description. -/
def descriptionLimit : Nat := 60

/-- A text cut to the greatest length of a description, with three dots where it was cut. -/
def cutDescription (text : String) : String :=
  let cs := text.toList
  if descriptionLimit < cs.length then
    String.ofList (cs.take (descriptionLimit - 3)) ++ "..."
  else text

/-- A document as a message shows it. -/
def describe (j : Json) : String := cutDescription j.literal

end Json

end StageTree
