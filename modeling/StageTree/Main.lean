import StageTree.Command.Run

/-!
# The Program

The command as a program: the outer layer that looks at the surroundings, runs the command and
gives out what comes of it.

Nothing is decided here. A snapshot is taken of what the paths on the command line lead to, and
of the standard input if it is asked for. The program has no connection to a network, so every
exchange with the parser service fails; a saved response is shown without one.

## Main definitions

* `Text.shown`: A text on a stream of bytes.
* `Files.alongPath`: The locations that following a path leads through.
* `main`: The program.
-/

namespace StageTree

/-- A text on a stream of bytes, with an escape for each surrogate. -/
def Text.shown : Text → String
  | .plain run => run
  | .broken run u rest => run ++ "\\u" ++ String.ofList (hexDigits 4 u.code) ++ rest.shown

/-- The locations that following a path leads through, the last one included. -/
def Files.alongPath (path : String) : List Location :=
  ((pathComponents path).scanl Location.enter (pathStart path)).drop 1

namespace Command

/-- The paths that a run may follow. -/
def Arguments.paths (a : Arguments) : List String :=
  [a.config, a.response.bind Given.text?, a.input, a.output].filterMap id

/-- Whether a run reads the standard input. -/
def Arguments.readsInput (a : Arguments) : Bool :=
  a.response.isNone && a.input == some standardInput

/-- The text of a trouble on the standard error stream. -/
def Outcome.closing (o : Outcome) : Text :=
  match o.ending with
  | .status _ => ""
  | .trouble t => onLine (t.message.getD "The output takes more nesting room than there is.")

/-- The status that the program ends with. A trouble that is passed on has the status of a
    failure. -/
def Outcome.status (o : Outcome) : Nat :=
  match o.ending with
  | .status code => code
  | .trouble _ => 1

/-- What the system has at a location, if it has anything there. -/
def entryFromSystem (location : Location) : IO (Option Entry) := do
  try
    return some (.file (← IO.FS.readBinFile location.path).toList)
  catch
    | .inappropriateType _ code _ =>
      return if code.toNat = PathProblem.isDirectory.number then some .directory else none
    | .noFileOrDirectory .. | .invalidArgument .. => return none
    | e => throw e

/-- A snapshot of what some paths lead to. -/
def snapshot (paths : List String) : IO Files := do
  let locations := ((paths.filter fun p => !p.toList.contains '\x00').map Files.alongPath).flatten
  let found ← locations.eraseDups.mapM fun location => do
    return (← entryFromSystem location).map fun entry => (location, entry)
  return ⟨found.filterMap id⟩

/-- What surrounds a run on some words. -/
def surroundings (words : List String) : IO Surroundings := do
  let offline := Exchange.failed (.connection "there is no connection to a network")
  let takesNone : Surrogate → Bool := fun _ => false
  match Invocation.ofWords words with
  | .run a =>
    let files ← snapshot a.paths
    let input ← if a.readsInput then (← IO.getStdin).readBinToEnd else pure ByteArray.empty
    return ⟨files, input.toList, takesNone, offline⟩
  | _ => return ⟨⟨[]⟩, [], takesNone, offline⟩

end Command

end StageTree

open StageTree Command in
/-- The program: one run of the command on the words of its command line. -/
def main (words : List String) : IO UInt32 := do
  let outcome := run words (← surroundings words)
  IO.eprint (outcome.errors ++ outcome.closing).shown
  if let some (location, text) := outcome.written then
    IO.FS.writeFile location.path text
  IO.print outcome.output.shown
  return outcome.status.toUInt32
