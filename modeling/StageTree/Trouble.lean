import StageTree.Failure
import StageTree.Files
import StageTree.Json.Reader
import StageTree.Text.Utf8

/-!
# Troubles

Everything that can keep an operation from giving a result. Besides the failures that are
reported in full there are troubles with the surroundings and with limits, which are passed
on as they are.

## Main definitions

* `Trouble`: What kept an operation from giving a result.
* `Trouble.message`: The message of a trouble, if it has one.
* `Trouble.ofReadError`: The trouble of a text that is not read as a document.
-/

namespace StageTree

/-- What kept an operation from giving a result. -/
inductive Trouble where
  | failure (f : Failure)
  | malformed (complaint : Json.Complaint) (line column position : Nat)
  /-- A document has a whole number with too many digits. -/
  | longInteger (digits : Nat)
  | notText (refusal : Utf8.Refusal)
  /-- A text cannot be written as bytes. -/
  | notBytes (obstacle : Utf8.Obstacle)
  /-- A value takes more nesting room than there is. -/
  | outOfRoom
  /-- A whole number has no nearest double. -/
  | hugeInteger
  /-- A path does not lead where it must. -/
  | path (e : PathError)
  | nullInPath
  /-- A stage is asked for, and no text says which. -/
  | stageNotGiven
  /-- A file is asked for, and no path says which. -/
  | pathNotGiven
  /-- The system failed while the service was talked to. -/
  | system (text : String)
  deriving DecidableEq

namespace Trouble

/-- The message of a trouble. Running out of room has none. -/
def message : Trouble → Option Text
  | .failure f => some f.text
  | .malformed complaint line column position =>
    some (Json.malformedMessage complaint line column position)
  | .longInteger digits => some (Json.longIntegerMessage digits)
  | .notText refusal => some refusal.message
  | .notBytes obstacle => some obstacle.message
  | .outOfRoom => none
  | .hugeInteger => some "int too large to convert to float"
  | .path e => some e.message
  | .nullInPath => some "embedded null byte"
  | .stageNotGiven => some "'list' object has no attribute 'strip'"
  | .pathNotGiven => some "expected str, bytes or os.PathLike object, not list"
  | .system text => some text

/-- The trouble of a text that is not read as a document. -/
def ofReadError : Json.ReadError → Trouble
  | .malformed complaint line column position => .malformed complaint line column position
  | .longInteger digits => .longInteger digits
  | .tooDeep => .outOfRoom

end Trouble

/-- The document that a text writes, within the nesting limit. -/
def readDocument (text : List Char) : Except Trouble Json :=
  (Json.read nestingLimit text).mapError .ofReadError

/-- The text of some bytes. -/
def readText (bytes : List UInt8) : Except Trouble (List Char) :=
  (Utf8.decode bytes).mapError .notText

end StageTree
