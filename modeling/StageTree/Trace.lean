import StageTree.Number.Binary64
import StageTree.Stage
import StageTree.Trouble

/-!
# Traces

What an operation does besides giving a result: it posts requests to the parser service and
writes lines to a log. A traced result holds these events in their order, also when the
operation ends in trouble.

The lines are those of the library. The event loop in which an exchange with the service takes
place has a logger of its own, `asyncio`, which may say at the level for problems what the loop is
built on. What it says depends on the system, and its lines are left out.

## Main definitions

* `Request`: A request to the parser service.
* `LogLine`: A line of the log.
* `Event`: A request or a line.
* `Traced`: A result, or the trouble in its place, with the events before it.
-/

namespace StageTree

/-- A request to the parser service: to run a stage on source code. -/
structure Request where
  url : Text
  stage : Stage
  /-- The source code to run it on. -/
  code : String
  /-- How many seconds the service has. -/
  timeout : Binary64

/-- How much a line of the log matters. -/
inductive LogLevel where
  /-- Of interest when a problem is looked for. -/
  | debug
  | warning
  deriving DecidableEq

/-- The word for a level. -/
def LogLevel.text : LogLevel → String
  | .debug => "DEBUG"
  | .warning => "WARNING"

/-- The parts of the library that write to the log. -/
inductive LogSource where
  | decoder
  | client
  | session
  deriving DecidableEq

/-- The name of a source. -/
def LogSource.text : LogSource → String
  | .decoder => "SchemeVizDecoder"
  | .client => "SchemeParserClient"
  | .session => "SchemeViz"

/-- A line of the log. -/
structure LogLine where
  level : LogLevel
  source : LogSource
  message : Text

/-- A line of the log as a text. -/
def LogLine.text (line : LogLine) : Text :=
  line.level.text ++ " " ++ line.source.text ++ ": " ++ line.message

/-- What an operation does besides giving a result. -/
inductive Event where
  /-- It writes a line to the log. -/
  | log (line : LogLine)
  | post (request : Request)

/-- The request of an event, if it is one. -/
def Event.request? : Event → Option Request
  | .post request => some request
  | .log _ => none

/-- The log line of an event, if it is one. -/
def Event.line? : Event → Option LogLine
  | .log line => some line
  | .post _ => none

/-- A result, or the trouble in its place, with the events before it. -/
structure Traced (α : Type) where
  /-- The events, the first one first. -/
  events : List Event
  result : Except Trouble α

namespace Traced

/-- A result without events. -/
def ofExcept {α : Type} (result : Except Trouble α) : Traced α := ⟨[], result⟩

/-- A single event. -/
def event (e : Event) : Traced Unit := ⟨[e], .ok ()⟩

/-- A line of the log. -/
def log (level : LogLevel) (source : LogSource) (message : Text) : Traced Unit :=
  event (.log ⟨level, source, message⟩)

/-- Trouble, without events. -/
def fail {α : Type} (trouble : Trouble) : Traced α := ⟨[], .error trouble⟩

/-- Go on with a result, if there is one. -/
def andThen {α β : Type} (x : Traced α) (f : α → Traced β) : Traced β :=
  match x.result with
  | .ok a => ⟨x.events ++ (f a).events, (f a).result⟩
  | .error trouble => ⟨x.events, .error trouble⟩

instance : Monad Traced where
  pure a := ⟨[], .ok a⟩
  bind := andThen

/-- The requests among the events. -/
def requests {α : Type} (x : Traced α) : List Request := x.events.filterMap Event.request?

/-- The log lines among the events. -/
def lines {α : Type} (x : Traced α) : List LogLine := x.events.filterMap Event.line?

end Traced

end StageTree
