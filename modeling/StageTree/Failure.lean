import StageTree.Nesting
import StageTree.Number.Decimal
import StageTree.Text.Basic

/-!
# Failures

How the library reports that it could not do what it was asked to.

A failure is reported as a text of several lines: what went wrong, and then, as far as there
is something to say, what was met, what was expected, where it was, and what may help. A part
that is empty is left out like one that is missing.

## Main definitions

* `Report`: The parts of a report.
* `Report.text`: The report as a text.
* `Failure`: The kinds of failures, each with what is particular to it.
* `Failure.report`: The report of a failure.
-/

namespace StageTree

/-- The parts of a report. -/
structure Report where
  message : Text
  /-- Where it went wrong, or other circumstances. -/
  context : Option Text := none
  expected : Option Text := none
  received : Option Text := none
  suggestion : Option Text := none
  deriving DecidableEq

namespace Report

/-- The line of a part, if the part says something. -/
def partLine (heading : String) : Option Text → List Text
  | none => []
  | some part => if part = "" then [] else [heading ++ ": " ++ part]

/-- A report as a text. -/
def text (r : Report) : Text :=
  Text.intercalate "\n" (("Error: " ++ r.message) :: (partLine "Received" r.received
    ++ partLine "Expected" r.expected ++ partLine "Context" r.context
    ++ partLine "Suggestion" r.suggestion))

end Report

/-- A failure that the library reports. -/
inductive Failure where
  | general (report : Report)
  | configuration (report : Report)
  /-- An object stands where a stage has no place for it. -/
  | unknownNode (stage tag : Text) (expected : Option Text)
  /-- A document is not the output of a stage. -/
  | decode (message path : Text) (received expected : Option Text)
  /-- The parser service did not give an answer. The status is the one it answered with. -/
  | service (message : Text) (status : Option Int) (details : Option Text)
  /-- A node nests too deeply for an operation. -/
  | nesting (stage operation : Text)
  deriving DecidableEq

namespace Failure

/-- What may help when the service gives no answer. -/
def serviceSuggestion : String :=
  "Check that the parser service is running and that your code is valid Scheme"

/-- What may help when a node nests too deeply. -/
def nestingSuggestion : String := "Split the form into smaller top-level forms"

/-- The report of a failure. -/
def report : Failure → Report
  | .general report => report
  | .configuration report => report
  | .unknownNode stage tag expected =>
    { message := "Unrecognized " ++ stage ++ " node: " ++ tag
      received := some tag
      expected := expected }
  | .decode message path received expected =>
    { message := message
      context := some ("at " ++ path)
      received := received
      expected := expected }
  | .service message _ details =>
    { message := message
      context := details
      suggestion := some serviceSuggestion }
  | .nesting stage operation =>
    { message := stage ++ " node is too deeply nested for " ++ operation
      context := some ("Python recursion limit is " ++ integerText statedNestingLimit)
      suggestion := some nestingSuggestion }

/-- The text of a failure. -/
def text (f : Failure) : Text := f.report.text

end Failure

end StageTree
