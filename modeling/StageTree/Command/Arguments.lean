import StageTree.Text.Digit
import StageTree.Text.Quoted

/-!
# Arguments of the Command Line

From the words of a command line to what the command is asked to do.

Words that start with a hyphen name options, by a letter, by a word, or by the beginning of a
word if that is enough. A value stands in the same word or is the next one; two hyphens in the
same word name an option and give it nothing. Letters may be joined, as long as all but the
last one take no value. An equals sign may stand after the first letter or after the word, and
one that stands anywhere else belongs to what it stands in. All other words are positional, and
so are a hyphen alone, negative numbers, words with a blank in them that name no option, and
all words after two hyphens that stand alone.

First every word is classified by itself. Then the words are gone through from left to right
and options take effect word by word, so the request for help is answered before anything that
is wrong in a later word, but not if something is wrong in its own.

## Main definitions

* `Flag`: An option, and what it is called.
* `Word`: A classified word.
* `Misuse`: What can be wrong with a command line.
* `Given`: What an option that has a value is given.
* `Arguments`: What the command is asked to do.
* `Invocation.ofWords`: A command line, understood.
-/

namespace StageTree

namespace Command

/-- An option. -/
inductive Flag where
  | help
  | mode
  | config
  | response
  | format
  | output
  | verbose
  deriving DecidableEq

namespace Flag

/-- All options, in the order in which the help lists them. -/
def all : List Flag := [.help, .mode, .config, .response, .format, .output, .verbose]

/-- The letter of an option. -/
def letter : Flag → Char
  | .help => 'h'
  | .mode => 'm'
  | .config => 'c'
  | .response => 'r'
  | .format => 'f'
  | .output => 'o'
  | .verbose => 'v'

/-- The word of an option, with its hyphens. -/
def word : Flag → String
  | .help => "--help"
  | .mode => "--mode"
  | .config => "--config"
  | .response => "--response"
  | .format => "--format"
  | .output => "--output"
  | .verbose => "--verbose"

/-- Whether an option has a value. -/
def hasValue : Flag → Bool
  | .help | .verbose => false
  | _ => true

/-- An option as messages name it. -/
def display (f : Flag) : String := String.ofList ['-', f.letter, '/'] ++ f.word

/-- The option with a letter. -/
def ofLetter? (c : Char) : Option Flag := all.find? fun f => f.letter == c

/-- The options whose words begin with a text. -/
def beginningWith (cs : List Char) : List Flag :=
  all.filter fun f => cs.isPrefixOf f.word.toList

end Flag

/-- A classified word of a command line. -/
inductive Word where
  /-- A positional word, or a value. -/
  | plain (text : String)
  /-- Two hyphens, after which all words are positional. -/
  | hyphens
  /-- An option named by its letter, with what follows the letter. -/
  | letter (f : Flag) (tail : List Char)
  /-- An option named by its word or the beginning of it, with the value after an equals
      sign. -/
  | named (f : Flag) (value : Option String)
  /-- A word that looks like an option and names none. -/
  | unknown (text : String)

/-- What can be wrong with a command line. -/
inductive Misuse where
  /-- A word could name several options. -/
  | ambiguous (given : String) (candidates : List Flag)
  | missingValue (f : Flag)
  /-- An option that has no value is given one. -/
  | strayValue (f : Flag) (given : String)
  /-- A format is none that there is. -/
  | unknownFormat (given : String)
  /-- Words are left over. -/
  | leftOver (words : List String)

/-- The formats of the output. -/
inductive Format where
  | text
  | json
  deriving DecidableEq

/-- The word for a format. -/
def Format.word : Format → String
  | .text => "text"
  | .json => "json"

/-- All formats. -/
def Format.all : List Format := [.text, .json]

/-- The format with a word. -/
def Format.ofWord? (word : String) : Option Format := all.find? fun f => f.word == word

/-- The message about a misuse. -/
def Misuse.message : Misuse → String
  | .ambiguous given candidates =>
    "ambiguous option: " ++ given ++ " could match " ++ ", ".intercalate (candidates.map Flag.word)
  | .missingValue f => "argument " ++ f.display ++ ": expected one argument"
  | .strayValue f given =>
    "argument " ++ f.display ++ ": ignored explicit argument " ++ quote given
  | .unknownFormat given =>
    "argument " ++ Flag.format.display ++ ": invalid choice: " ++ quote given ++ " (choose from "
      ++ ", ".intercalate (Format.all.map fun f => quote f.word) ++ ")"
  | .leftOver words => "unrecognized arguments: " ++ " ".intercalate words

/-- What an option that has a value is given. -/
inductive Given where
  | text (value : String)
  /-- Nothing, though the option is named. -/
  | nothing

/-- The text that is given, if any is. -/
def Given.text? : Given → Option String
  | .text value => some value
  | .nothing => none

/-- What a value in the word of its option gives. Two hyphens give nothing. -/
def Given.ofWord (value : String) : Given := if value = "--" then .nothing else .text value

/-- What the command is asked to do. For the settings and the output, nothing given is the same
    as not being named. -/
structure Arguments where
  /-- The source file, or a hyphen. -/
  input : Option String := none
  /-- The name of the stage to show. -/
  mode : Given := .text "READER"
  config : Option String := none
  /-- The file with a saved response, if one is named. -/
  response : Option Given := none
  format : Format := .text
  output : Option String := none
  /-- Whether to write more to the log. -/
  verbose : Bool := false

/-- A command line, understood. -/
inductive Invocation where
  | help
  /-- Say what is wrong with the command line. -/
  | misuse (m : Misuse)
  | run (arguments : Arguments)

/-! ## Classifying words -/

/-- Whether a word is a negative number: digits of any script, or a point with digits after it.
    A line feed may follow. -/
def isNegativeNumber (cs : List Char) : Bool :=
  match cs with
  | '-' :: rest =>
    let number := if rest.getLast? = some '\n' then rest.dropLast else rest
    let whole := number.takeWhile isDecimal
    match number.dropWhile isDecimal with
    | [] => !whole.isEmpty
    | '.' :: fraction => !fraction.isEmpty && fraction.all isDecimal
    | _ => false
  | _ => false

/-- The value that a word gives after an equals sign. -/
def assignedValue (cs : List Char) : Option String :=
  match cs.dropWhile (· != '=') with
  | _ :: value => some (String.ofList value)
  | [] => none

/-- A word that starts with a hyphen and names no option. -/
def classifyOther (text : String) : Word :=
  let cs := text.toList
  if isNegativeNumber cs || cs.contains ' ' then .plain text else .unknown text

/-- A word that starts with the letter of an option. An equals sign after the letter is
    dropped, and if it is the last character the value is empty. -/
def Word.ofLetter (f : Flag) : List Char → Word
  | ['='] => .named f (some "")
  | '=' :: tail => .letter f tail
  | tail => .letter f tail

/-- A word before any two hyphens that stand alone. -/
def classify (text : String) : Except Misuse Word :=
  match text.toList with
  | '-' :: '-' :: rest =>
    let cs := '-' :: '-' :: rest
    match Flag.beginningWith (cs.takeWhile (· != '=')) with
    | [f] => .ok (.named f (assignedValue cs))
    | [] => .ok (classifyOther text)
    | several => .error (.ambiguous text several)
  | '-' :: c :: tail =>
    match Flag.ofLetter? c with
    | some f => .ok (.ofLetter f tail)
    | none => .ok (classifyOther text)
  | _ => .ok (.plain text)

/-- All words of a command line. -/
def classifyAll : List String → Except Misuse (List Word)
  | [] => .ok []
  | "--" :: rest => .ok (.hyphens :: rest.map .plain)
  | text :: rest => do
    let word ← classify text
    let others ← classifyAll rest
    pure (word :: others)

/-! ## Going through words -/

/-- Whether a positional word has been met. -/
inductive Position where
  /-- None has been met. -/
  | free
  /-- The word just met is it. -/
  | fresh
  /-- It was met earlier. -/
  | taken

/-- What is known after some of the words. -/
structure Progress where
  /-- What the command is asked to do, so far. -/
  arguments : Arguments := {}
  /-- Whether the place of the positional word is taken. -/
  position : Position := .free
  /-- An option whose value must be the next word, with the options to take effect before. -/
  pending : Option (List Flag × Flag) := none
  /-- The words that nothing has a place for, the last one first. -/
  leftOver : List String := []

/-- How going through words may end early. -/
inductive Stop where
  | help
  | misuse (m : Misuse)

/-- An option takes effect. -/
def apply (p : Progress) (f : Flag) (given : Given) : Except Stop Progress :=
  let a := p.arguments
  match f with
  | .help => .error .help
  | .mode => .ok { p with arguments := { a with mode := given } }
  | .config => .ok { p with arguments := { a with config := given.text? } }
  | .response => .ok { p with arguments := { a with response := some given } }
  | .output => .ok { p with arguments := { a with output := given.text? } }
  | .verbose => .ok { p with arguments := { a with verbose := true } }
  | .format =>
    match given with
    | .nothing => .ok { p with arguments := { a with format := .text } }
    | .text word =>
      match Format.ofWord? word with
      | some format => .ok { p with arguments := { a with format := format } }
      | none => .error (.misuse (.unknownFormat word))

/-- What a word that names options comes to. -/
structure Options where
  flags : List Flag
  /-- The option with a value, if there is one, with what it is given if that is in the
      word. -/
  valued : Option (Flag × Option Given) := none

/-- The options of joined letters, of which the first one is known. What follows a letter
    whose option has a value is that value. Any other letter must be followed by a letter of an
    option or by nothing. -/
def joined (f : Flag) (tail : List Char) : Except Misuse Options :=
  match f.hasValue, tail with
  | true, [] => .ok { flags := [], valued := some (f, none) }
  | true, value => .ok { flags := [], valued := some (f, some (.ofWord (String.ofList value))) }
  | false, [] => .ok { flags := [f] }
  | false, c :: rest =>
    match Flag.ofLetter? c with
    | none => .error (.strayValue f (String.ofList (c :: rest)))
    | some g => (joined g rest).map fun o => { o with flags := f :: o.flags }

/-- The option of a word that names it, with its value. -/
def namedOption (f : Flag) (value : Option String) : Except Misuse Options :=
  match f.hasValue, value with
  | true, value => .ok { flags := [], valued := some (f, value.map Given.ofWord) }
  | false, none => .ok { flags := [f] }
  | false, some value => .error (.strayValue f value)

/-- Options without a value take effect, one after the other. -/
def applyAll (p : Progress) : List Flag → Except Stop Progress
  | [] => .ok p
  | f :: rest => do
    let p ← apply p f .nothing
    applyAll p rest

/-- A word that nothing has a place for. -/
def Progress.leave (p : Progress) (text : String) : Progress :=
  { p with leftOver := text :: p.leftOver }

/-- A positional word that was just met was met earlier once another word is met. -/
def Position.settle : Position → Position
  | .fresh => .taken
  | position => position

/-- A positional word takes its place, or is left over if the place is taken. -/
def Progress.place (p : Progress) (text : String) : Progress :=
  match p.position with
  | .free =>
    { p with arguments := { p.arguments with input := some text }, position := .fresh }
  | _ => { p.leave text with position := .taken }

/-- Two hyphens belong to the positional word next to them, before or after it, and are left
    over if there is none. -/
def Progress.hyphens (p : Progress) : Progress :=
  match p.position with
  | .free => p
  | .fresh => { p with position := .taken }
  | .taken => p.leave "--"

/-- The options of a word take effect: those without a value, and then the one with a value,
    which waits for the next word if its value is not in this one. -/
def Progress.options (p : Progress) (o : Options) : Except Stop Progress := do
  let p := { p with position := p.position.settle }
  match o.valued with
  | none => applyAll p o.flags
  | some (f, some given) =>
    let p ← applyAll p o.flags
    apply p f given
  | some (f, none) => pure { p with pending := some (o.flags, f) }

/-- A word when no option waits for its value. -/
def Progress.meet (p : Progress) : Word → Except Stop Progress
  | .plain text => .ok (p.place text)
  | .hyphens => .ok p.hyphens
  | .unknown text => .ok { p.leave text with position := p.position.settle }
  | .letter f tail =>
    match joined f tail with
    | .ok o => p.options o
    | .error m => .error (.misuse m)
  | .named f value =>
    match namedOption f value with
    | .ok o => p.options o
    | .error m => .error (.misuse m)

/-- Go on by a word. -/
def Progress.step (p : Progress) (word : Word) : Except Stop Progress :=
  match p.pending, word with
  | none, word => p.meet word
  -- The options joined in front of the waiting one take effect together with it.
  | some (flags, f), .plain value => do
    let p ← applyAll { p with pending := none } flags
    apply p f (.text value)
  | some (_, f), _ => .error (.misuse (.missingValue f))

/-- What a command is asked to do when all words have been met. -/
def Progress.finish (p : Progress) : Except Stop Arguments :=
  match p.pending, p.leftOver with
  | some (_, f), _ => .error (.misuse (.missingValue f))
  | none, [] => .ok p.arguments
  | none, words => .error (.misuse (.leftOver words.reverse))

/-- A command line, understood. -/
def Invocation.ofWords (words : List String) : Invocation :=
  match classifyAll words with
  | .error m => .misuse m
  | .ok classified =>
    match classified.foldlM Progress.step {} >>= Progress.finish with
    | .error .help => .help
    | .error (.misuse m) => .misuse m
    | .ok arguments => .run arguments

end Command

end StageTree
