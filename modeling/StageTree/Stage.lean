import StageTree.Text.Blank
import StageTree.Text.Quoted

/-!
# Stages

The stages of a Scheme front end whose output can be shown: the reader, the tag parser and
the semantic analyzer.

## Main definitions

* `Stage`: A stage.
* `Stage.name`: The name that the parser service knows a stage by.
* `Stage.ofText?`: The stage that a text names.
* `Stage.notAStageMessage`: The message about a text that names none.
-/

namespace StageTree

/-- A stage of the front end. -/
inductive Stage where
  /-- The reader, which turns source text into reader values. -/
  | reader
  /-- The tag parser, which turns reader values into expressions. -/
  | tagParser
  /-- The semantic analyzer, which resolves variables and tail calls in expressions. -/
  | semanticAnalyzer
  deriving DecidableEq

namespace Stage

/-- All stages, in the order in which they run. -/
def all : List Stage := [.reader, .tagParser, .semanticAnalyzer]

/-- The name that the parser service knows a stage by. -/
def name : Stage → String
  | .reader => "READER"
  | .tagParser => "TAG_PARSER"
  | .semanticAnalyzer => "SEMANTIC_ANALYZER"

/-- A character of a stage's name as people write it: letters of either case, and a hyphen for
    the underscore. Besides the small letters of ASCII two characters have one of its capitals
    as their capital, the long s and the dotless i. No other character's capital form is found
    in the name of a stage. -/
def nameChar (c : Char) : Char :=
  if c = '-' then '_'
  else if c = '\u017f' then 'S'
  else if c = '\u0131' then 'I'
  else c.toUpper

/-- The stage that a text names, with blanks around it overlooked. -/
def ofText? (text : String) : Option Stage :=
  let wanted := String.ofList ((trimBlank text.toList).map nameChar)
  all.find? fun stage => stage.name == wanted

/-- The message about a text that names no stage. -/
def notAStageMessage (text : String) : String :=
  "Not a parsing mode: " ++ quote text ++ " (expected one of "
    ++ ", ".intercalate (all.map name) ++ ")"

end Stage

end StageTree
