import StageTree.Command.Arguments
import StageTree.Command.Help
import StageTree.Json.Printer
import StageTree.Session
import StageTree.Settings.Load
import StageTree.Text.Newline
import StageTree.Tree.Printer

/-!
# Running the Command

What a run of the command does, as a function of its words and of what surrounds it: the
files, the standard input and the parser service.

A run shows the last form of a saved response or of source code. The whole output is made
before anything is written, so a run that fails leaves nothing behind, with one exception: a
file is emptied before it is found out that a text with surrogates cannot go into it. Failures
with a report end a run with status one and the report on the standard error stream; other
troubles are passed on.

The words of a command line, and with them all paths, are texts without surrogates. So what is
printed about a path can always be printed.

## Main definitions

* `Command.Surroundings`: What surrounds a run.
* `Command.Outcome`: How a run ends, what it prints and writes, and which requests it posts.
* `Command.treeOf`: The tree that a run shows.
* `Command.render`: The text of a tree in a format.
* `Command.run`: A run.
-/

namespace StageTree

namespace Command

/-- What surrounds a run. -/
structure Surroundings where
  files : Files
  input : List UInt8
  /-- The surrogates that the standard output takes: none if bytes go out, and any if the text
      stays a text. Characters are always taken, as the bytes are UTF-8. -/
  takes : Surrogate → Bool
  /-- How an exchange with the parser service goes. -/
  exchange : Exchange

/-- How a run ends. -/
inductive Ending where
  | status (code : Nat)
  /-- With a trouble that is passed on. -/
  | trouble (t : Trouble)

/-- What comes of a run. -/
structure Outcome where
  ending : Ending
  /-- What it prints on the standard output. -/
  output : Text := ""
  /-- What it prints on the standard error stream, which takes all surrogates. -/
  errors : Text := ""
  /-- The file that it writes, if its content is not what it was. -/
  written : Option (Location × String) := none
  requests : List Request := []

/-- A failure that is reported by its message alone. -/
def complaint (message : Text) : Trouble := .failure (.general { message := message })

/-! ## Reading what is asked for -/

/-- The text of a file that must be there. A path with a null character leads nowhere. -/
def fileText (files : Files) (path : String) : Except Trouble (List Char) :=
  let missing : Except Trouble (List Char) := .error (complaint ("File not found: " ++ path))
  if path.toList.contains '\x00' then missing
  else
    let plain := plainPath path
    match files.exists? plain with
    | .error e => .error (.path e)
    | .ok false => missing
    | .ok true =>
      match files.read plain with
      | .error e => .error (.path e)
      | .ok bytes => (readText bytes).map unifyNewlines

/-- The document of a saved response. -/
def savedDocument (files : Files) (path : String) : Except Trouble Json := do
  let cs ← fileText files path
  match readDocument cs with
  | .error (.malformed problem line column position) =>
    .error (complaint ("Response file is not valid JSON: "
      ++ Json.malformedMessage problem line column position))
  | result => result

/-- The document of the saved response that is named. -/
def savedResponse (files : Files) : Given → Except Trouble Json
  | .text path => savedDocument files path
  | .nothing => .error .pathNotGiven

/-- The word for the standard input. -/
def standardInput : String := "-"

/-- The source code to show. -/
def sourceCode (s : Surroundings) (input : String) : Except Trouble String := do
  let cs ←
    if input = standardInput then (readText s.input).map unifyNewlines
    else fileText s.files input
  pure (String.ofList cs)

/-- The stage to show. -/
def stageOf (a : Arguments) : Except Trouble Stage :=
  match a.mode with
  | .nothing => .error .stageNotGiven
  | .text word =>
    match Stage.ofText? word with
    | some stage => .ok stage
    | none => .error (complaint (Stage.notAStageMessage word))

/-- Where the output to show comes from. -/
inductive Source where
  | response (given : Given)
  /-- From the parser service, for source code. -/
  | code (input : String)

/-- The source that a run is asked to use. A saved response goes before source code. -/
def sourceOf (a : Arguments) : Except Trouble Source :=
  match a.response, a.input with
  | some given, _ => .ok (.response given)
  | none, some input => .ok (.code input)
  | none, none => .error (complaint "Either an input file or --response is required")

/-- The settings of a run. An empty file name is like none. -/
def settingsOf (files : Files) (a : Arguments) : Except Trouble Settings :=
  match a.config with
  | none => .ok .default
  | some path => if path = "" then .ok .default else Settings.load files path

/-- The tree that a run shows. -/
def treeOf (a : Arguments) (s : Surroundings) : Traced (Option Tree) := do
  -- Of several things that are wrong with a run, the first one in this order is reported.
  let stage ← Traced.ofExcept (stageOf a)
  let source ← Traced.ofExcept (sourceOf a)
  let settings ← Traced.ofExcept (settingsOf s.files a)
  match source with
  | .response given =>
    let j ← Traced.ofExcept (savedResponse s.files given)
    Session.showResponse stage j
  | .code input =>
    let code ← Traced.ofExcept (sourceCode s input)
    Session.buildTree settings stage code s.exchange

/-! ## Giving it out -/

/-- The step by which the levels of a JSON output are indented. -/
def jsonStep : Nat := 2

/-- A line of its own. -/
def onLine (text : Text) : Text := text ++ "\n"

/-- A result that takes room, as one that gives trouble. -/
def roomy {α : Type} (x : Except TooDeep α) : Except Trouble α := x.mapError fun _ => .outOfRoom

/-- The text of a tree, or of there being none, in a format. -/
def render (format : Format) (tree : Option Tree) : Except Trouble Text :=
  match format, tree with
  | .text, none => .ok (onLine "(no forms)")
  | .text, some t => (roomy (t.text? Tree.rootLevel Tree.usualStep)).map onLine
  | .json, none => .ok (onLine (String.ofList ((Json.obj []).write (.indented jsonStep))))
  | .json, some t =>
    (roomy t.toJson?).map fun j => onLine (String.ofList (j.write (.indented jsonStep)))

/-- What becomes of the output of a run. -/
structure Delivery where
  /-- The trouble that comes of it, if any does. -/
  trouble : Option Trouble := none
  output : Text := ""
  /-- The file that is written, if its content is not what it was. -/
  written : Option (Location × String) := none

/-- The file that is opened to be written, and the bytes that are in it now. -/
def opened (files : Files) (path : String) : Except Trouble (Location × Option (List UInt8)) :=
  if path.toList.contains '\x00' then .error .nullInPath
  else (files.place (plainPath path)).mapError .path

/-- The file that comes of giving a content to an opened one, if that is not what is in it. -/
def filled (file : Location × Option (List UInt8)) (content : String) :
    Option (Location × String) :=
  if file.2 = some (Utf8.encode content) then none else some (file.1, content)

/-- Write a text to a file. The file is emptied first, and stays empty if there are no bytes for
    the text. -/
def deliverTo (files : Files) (path : String) (text : Text) : Delivery :=
  match opened files path with
  | .error t => { trouble := some t }
  | .ok file =>
    match Utf8.encodable text with
    | .error obstacle => { trouble := some (.notBytes obstacle), written := filled file "" }
    | .ok content =>
      { output := onLine ("Tree written to " ++ path), written := filled file content }

/-- Print a text, all of it or nothing. -/
def print (takes : Surrogate → Bool) (text : Text) : Delivery :=
  match Utf8.obstacle? takes 0 text with
  | some obstacle => { trouble := some (.notBytes obstacle) }
  | none => { output := text }

/-- How a run ends whose output is given out. -/
def Delivery.ending (d : Delivery) : Ending :=
  match d.trouble with
  | none => .status 0
  | some t => .trouble t

/-- Give out the output of a run: to a file, if one is named, and else to be printed. -/
def deliver (s : Surroundings) (destination : Option String) (text : Text) : Delivery :=
  match destination with
  | none => print s.takes text
  | some path => if path = "" then print s.takes text else deliverTo s.files path text

/-! ## Runs -/

/-- Whether a line of the log is shown. -/
def isShown (verbose : Bool) (line : LogLine) : Bool := verbose || line.level == .warning

/-- The lines of the log that are shown. A verbose run that asks the service shows what the event
    loop logs besides, `DEBUG asyncio: Using selector: …`; lines of this logger are left out. -/
def logText (verbose : Bool) (lines : List LogLine) : Text :=
  Text.concat ((lines.filter (isShown verbose)).map fun line => onLine line.text)

/-- How a run ends in trouble while it makes its tree: a failure is reported, and everything
    else is passed on. -/
def troubled (log : Text) (requests : List Request) : Trouble → Outcome
  | .failure f =>
    { ending := .status 1, errors := log ++ onLine f.text, requests := requests }
  | t => { ending := .trouble t, errors := log, requests := requests }

/-- A run that is asked to show something. -/
def runArguments (a : Arguments) (s : Surroundings) : Outcome :=
  let made := treeOf a s
  let log := logText a.verbose made.lines
  match made.result with
  | .error t => troubled log made.requests t
  | .ok tree =>
    -- The whole text is there before a file is touched.
    match render a.format tree with
    | .error t => { ending := .trouble t, errors := log, requests := made.requests }
    | .ok text =>
      let delivery := deliver s a.output text
      { ending := delivery.ending
        output := delivery.output
        errors := log
        written := delivery.written
        requests := made.requests }

/-- A run of the command on the words of its command line. -/
def run (words : List String) (s : Surroundings) : Outcome :=
  match Invocation.ofWords words with
  | .help => { ending := .status 0, output := help }
  | .misuse m => { ending := .status 2, errors := misuseText m.message }
  | .run a => runArguments a s

end Command

end StageTree
