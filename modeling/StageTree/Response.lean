import StageTree.Node
import StageTree.Trace

/-!
# Responses

The document that the parser service answers with: an array with one node for each form of
the source code.

A node that is not one of the stage's, or nests too deeply to be read, keeps the whole
response from being read, and the log says so. A document that is no array has no nodes to
speak of; if it is too deep to be shown, the trouble is not a node's either.

## Main definitions

* `Stage.readNodes`: The nodes of a response.
* `Stage.readResponse`: The same, with what is logged.
-/

namespace StageTree

namespace Stage

/-- The result of reading a response. -/
inductive ResponseReading (stage : Stage) where
  | nodes (ns : List stage.Node)
  | defective (d : Wire.Defect)
  /-- A node nests too deeply to be read. -/
  | tooDeep
  /-- The response is not an array, and too deep to be shown. -/
  | outOfRoom

/-- Read the nodes of a response. -/
def readNodes (stage : Stage) : Json → ResponseReading stage
  | .arr items =>
    match Wire.itemsFrom (Wire.stageNode stage nestingLimit) 0 items with
    | .ok ns => .nodes ns
    | .error (.defective d) => .defective d
    | .error .tooDeep => .tooDeep
  | j =>
    if j.nesting ≤ nestingLimit then .defective ⟨[], .notNodes, j⟩ else .outOfRoom

/-- Where the paths of a response start. -/
def responseRoot : Text := "$"

/-- Whether a defect is one of a node, and not of the response as a whole. -/
def isNodeDefect (d : Wire.Defect) : Bool := d.problem != .notNodes

/-- The log line about a node with a defect. -/
def defectLine (stage : Stage) (d : Wire.Defect) : Text :=
  "Rejected " ++ stage.name ++ " response at " ++ Wire.pathText responseRoot d.steps ++ ": "
    ++ d.problem.message

/-- Read a response. -/
def readResponse (stage : Stage) (j : Json) : Traced (List stage.Node) :=
  match readNodes stage j with
  | .nodes ns => pure ns
  | .defective d => do
    -- The log speaks of defects of nodes only.
    if isNodeDefect d then Traced.log .debug .decoder (defectLine stage d)
    Traced.fail (.failure (d.failure responseRoot))
  | .tooDeep => do
    Traced.log .debug .decoder
      ("Rejected " ++ stage.name ++ " response: nesting exceeds the recursion limit")
    Traced.fail (.failure (.nesting stage.name "decoding"))
  | .outOfRoom => Traced.fail .outOfRoom

end Stage

end StageTree
