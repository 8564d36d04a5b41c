/-!
# Help

What the command prints about itself.

## Main definitions

* `Command.usage`: How the command is called.
* `Command.help`: What its arguments mean, with examples.
* `Command.misuseText`: What is printed when it is called in another way.
-/

namespace StageTree

namespace Command

/-- Lines of text, each with its line end. -/
def textOfLines (lines : List String) : String := String.join (lines.map fun line => line ++ "\n")

/-- How the command is called. -/
def usage : String :=
  textOfLines [
    "usage: scmviz_visualize.py [-h] [-m MODE] [-c CONFIG] [-r RESPONSE]",
    "                           [-f \x7btext,json\x7d] [-o OUTPUT] [-v]",
    "                           [input]"]

/-- What the arguments of the command mean. -/
def details : String :=
  textOfLines [
    "",
    "Show the reader, tag parser or semantic analyzer output for Scheme code as a tree",
    "",
    "positional arguments:",
    "  input                 Scheme source file (use \"-\" for stdin); not needed",
    "                        with --response",
    "",
    "options:",
    "  -h, --help            show this help message and exit",
    "  -m MODE, --mode MODE  Stage to show: reader, tag-parser or semantic-analyzer",
    "                        (default: reader)",
    "  -c CONFIG, --config CONFIG",
    "                        JSON configuration file with the parser service",
    "                        address",
    "  -r RESPONSE, --response RESPONSE",
    "                        Saved JSON service response to render instead of",
    "                        calling the service",
    "  -f \x7btext,json\x7d, --format \x7btext,json\x7d",
    "                        Output format (default: text)",
    "  -o OUTPUT, --output OUTPUT",
    "                        Output file (default: stdout)",
    "  -v, --verbose         Log requests and decoding details",
    "",
    "Examples:",
    "  # Show the reader output for the last form in a file",
    "  scmviz_visualize program.scm",
    "",
    "  # Show the semantic analyzer output, reading source from stdin",
    "  echo \"(lambda (x) (set! x 1))\" | scmviz_visualize - --mode semantic-analyzer",
    "",
    "  # Use a specific parser service configuration",
    "  scmviz_visualize program.scm --config configurations.json",
    "",
    "  # Render a previously saved service response as tree JSON",
    "  scmviz_visualize --response response.json --mode tag-parser --format json"]

/-- The help of the command. -/
def help : String := usage ++ details

/-- What is printed when the command is called in another way. -/
def misuseText (message : String) : String :=
  usage ++ textOfLines ["scmviz_visualize.py: error: " ++ message]

end Command

end StageTree
