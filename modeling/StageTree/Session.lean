import StageTree.Response
import StageTree.Service
import StageTree.Term.Recognise

/-!
# Sessions

Showing the output of a stage: a term that is handed in, the last one of several, the last
node of a response, or the last form of source code that the service is asked about.

A session keeps nothing but its settings. Each operation is a function of these and of its
own arguments, and only an assignment changes them.

## Main definitions

* `Session.showTerm`, `Session.showLast`: The tree of a term, or of the last one.
* `Session.showResponse`: The tree of the last node of a response.
* `Session.buildTree`: The tree of the last form of some source code.
* `Session.Step`, `Session.run`: The operations of a session, and what they do.
-/

namespace StageTree

namespace Session

/-- What becomes of a node that nests too deeply to be shown. -/
def tooDeepToShow {α : Type} (stage : Stage) : Traced α := do
  Traced.log .warning .session (stage.name ++ " node is too deeply nested to render")
  Traced.fail (.failure (.nesting stage.name "rendering"))

/-- The tree of a node. -/
def showNode (stage : Stage) (node : stage.Node) : Traced Tree :=
  if stage.nesting node ≤ nestingLimit then pure (stage.tree node) else tooDeepToShow stage

/-- The tree of a term that is a node of a stage. -/
def showTerm (stage : Stage) (t : Term) : Traced Tree :=
  match t.node? stage nestingLimit with
  | .ok node => pure (stage.tree node)
  | .error (.unknown place kindName) =>
    Traced.fail (.failure (place.failure kindName))
  | .error .tooDeep => tooDeepToShow stage

/-- The tree of the last of some terms; the others are not looked at. -/
def showLast (stage : Stage) (ts : List Term) : Traced (Option Tree) :=
  match ts.getLast? with
  | none => pure none
  | some t => do
    let tree ← showTerm stage t
    pure (some tree)

/-- The tree of the last node of a response, all of whose nodes are read. -/
def showResponse (stage : Stage) (j : Json) : Traced (Option Tree) := do
  let nodes ← stage.readResponse j
  Traced.log .debug .session
    ("Decoded " ++ integerText nodes.length ++ " " ++ stage.name ++ " node(s)")
  match nodes.getLast? with
  | none => pure none
  | some node => do
    let tree ← showNode stage node
    pure (some tree)

/-- The tree of the last form of source code. -/
def buildTree (s : Settings) (stage : Stage) (code : String) (exchange : Exchange) :
    Traced (Option Tree) := do
  let j ← Service.fetch s stage code exchange
  showResponse stage j

/-- An operation of a session. -/
inductive Step where
  | view
  | setHost (value : Text)
  | setEndpoint (value : Text)
  | setTimeout (value : Binary64)
  | term (stage : Stage) (t : Term)
  | last (stage : Stage) (ts : List Term)
  | response (stage : Stage) (j : Json)
  | code (stage : Stage) (source : String) (exchange : Exchange)

/-- What an operation answers with. -/
inductive Answer where
  | settings (s : Settings)
  /-- A tree, unless there is nothing to show, and what happened. -/
  | tree (result : Traced (Option Tree))

/-- The settings after an operation. -/
def Step.settings (s : Settings) : Step → Settings
  | .setHost value => { s with host := value }
  | .setEndpoint value => { s with endpoint := value }
  | .setTimeout value => { s with timeout := value }
  | _ => s

/-- The answer of an operation, which an assignment gives with the new settings. -/
def Step.answer (s : Settings) : Step → Answer
  | .term stage t => .tree (do
      let tree ← showTerm stage t
      pure (some tree))
  | .last stage ts => .tree (showLast stage ts)
  | .response stage j => .tree (showResponse stage j)
  | .code stage source exchange => .tree (buildTree s stage source exchange)
  | step => .settings (step.settings s)

/-- The answers of a session's operations, one after the other. -/
def run (s : Settings) : List Step → List Answer
  | [] => []
  | step :: rest => step.answer s :: run (step.settings s) rest

end Session

end StageTree
