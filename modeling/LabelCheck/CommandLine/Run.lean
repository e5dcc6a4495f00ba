import LabelCheck.CommandLine.Check
import LabelCheck.Suite.Run

/-!
# The program

From a command line to what the program leaves behind.

* `runWith`, `run`: the program, on files that are reached through an `Access`.
-/

namespace LabelCheck.CommandLine

open Files

/-- The line about the version. -/
def versionLine : String := "procsql 0.1.0"

/-- How the program is used. -/
def usageLines : List String :=
  ["Usage: procsql [--no-color] [-v] check FILE [OPTIONS]",
    "       procsql [--no-color] [-v] test PATH [OPTIONS]",
    "",
    "check: resolve the labels of a procedure document and report problems",
    "  --config FILE               settings of the validation",
    "  --conformance LEVEL         default, lenient or strict",
    "  --case-sensitive[=BOOL]     compare labels case-sensitively",
    "  --unresolved-label POLICY   error, warn or ignore",
    "  --resolutions               print what each LEAVE and ITERATE resolves to",
    "  --tree                      print the nesting of the blocks",
    "",
    "test: run test documents",
    "  -c, --category NAME         run only this category; may be repeated",
    "  --list-categories           list the categories"]

/-- What is left behind by a command line that does not ask for something to be run. -/
def Stop.output : Stop → Output
  | .help => { exit := 0, stdout := unlines usageLines }
  | .version => { exit := 0, stdout := unlines [versionLine] }
  | .misuse => { exit := 2, stderr := unlines usageLines }

/-- The program, given how reports are drawn and how events are logged. -/
def runWith {m : Type → Type} [Monad m] (draw : Drawing) (log : Logger) (files : Access m)
    (words : List String) : m Output := do
  match Request.parse words with
  | .error stop => return stop.output
  | .ok (.check manner arguments) =>
    return (← arguments.run draw manner.noColor files).output log manner
  | .ok (.test manner arguments) =>
    if arguments.listCategories then
      let lines ← Suite.categoryLines files arguments.path
      return { exit := 0, stderr := unlines lines }
    else
      let transcript ← Suite.runTests files manner.noColor arguments.path arguments.categories
      return transcript.output log manner

/-- The program with plain drawings and without its log. -/
def run {m : Type → Type} [Monad m] (files : Access m) (words : List String) : m Output :=
  runWith plainDrawing silentLogger files words

end LabelCheck.CommandLine
