import Crafter.CommandLine.Switch

/-! What the command line says about itself. -/
namespace Crafter.CommandLine

def programName : String := "crafter"

def usage : List String :=
  ["usage: crafter [-h] [-i] [--tokens] [--ast] [--json] [--lint] [-b LINE]",
   "               [--max-iterations MAX_ITERATIONS] [--debug] [--version]",
   "               [script]"]

/-- The explanation of all arguments. The last line of the text is blank and
not quite empty. -/
def help : List String :=
  usage ++
  ["",
   "Crafter Programming Language - staged teaching interpreter",
   "",
   "positional arguments:",
   "  script                Crafter script file to execute",
   "",
   "options:",
   "  -h, --help            show this help message and exit",
   "  -i, --interactive     Start interactive mode",
   "  --tokens              Tokenize file and show the tokens",
   "  --ast                 Parse file and show the syntax tree",
   "  --json                With --ast, print the syntax tree as JSON",
   "  --lint                Parse file and show lint warnings",
   "  -b LINE, --break LINE",
   "                        Pause before the first statement on LINE (repeatable)",
   "  --max-iterations MAX_ITERATIONS",
   "                        Iteration cap for each loop (default 1000)",
   "  --debug               Enable debug output for all stages",
   "  --version             show program's version number and exit",
   "",
   "Examples:",
   "  crafter script.crafter              # Run a Crafter script",
   "  crafter -i                          # Interactive mode",
   "  crafter --tokens script.crafter     # Show the token stream",
   "  crafter --ast script.crafter        # Show the syntax tree",
   "  crafter --lint script.crafter       # Show lint warnings only",
   "  crafter -b 4 -b 9 script.crafter    # Run until line 4 or 9 is reached",
   "        "]

def UsageError.account (e : UsageError) : List String :=
  usage ++ [s!"{programName}: error: {e.message}"]

end Crafter.CommandLine
