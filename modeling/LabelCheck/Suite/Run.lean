import LabelCheck.Suite.Discovery
import LabelCheck.Suite.Verdict

/-!
# Running tests

The command that runs test documents: those below a folder, by category, or a single one.

* `Group`: the test documents of one category;
* `Summary`: the results of a run, with how they are told;
* `TestArguments.run`: the command.
-/

namespace LabelCheck.Suite

open CommandLine Files

/-- Text in one of the colours of a terminal, unless colours are switched off. -/
def paint (noColor : Bool) (code text : String) : String :=
  if noColor then text else s!"\x1b[{code}m{text}\x1b[0m"

/-- The name of a test: its description, or the name of its file without its ending. -/
def TestResult.label (r : TestResult) : String :=
  match r.description with
  | some description => description
  | none =>
    match r.path.fileName.text? with
    | some name =>
      if testEnding.toList.isSuffixOf name.toList then
        String.ofList (name.toList.take (name.length - testEnding.length))
      else "?"
    | none => "?"

/-- Whether a test passed. -/
def TestResult.passes (r : TestResult) : Bool :=
  match r.verdict with
  | .ok _ => true
  | .error _ => false

/-- The line about a test while tests are run. -/
def TestResult.line (noColor : Bool) (r : TestResult) : String :=
  let word := if r.passes then paint noColor "32" "PASS" else paint noColor "31" "FAIL"
  s!"  {word}  {r.label}"

/-- What is written about a test while tests are run: what it logs, and then its line. -/
def TestResult.pieces (noColor : Bool) (r : TestResult) : List Piece :=
  r.log.map .logged ++ [.line (r.line noColor)]

/-- What is told about a test that failed, after all have been run. -/
def TestResult.details (noColor : Bool) (r : TestResult) : List String :=
  match r.verdict with
  | .ok _ => []
  | .error failure =>
    let word := paint noColor "31" "failed:"
    ["", s!"{word} {r.path}"] ++ (Text.lines failure.message).map ("    " ++ ·)

/-- The test documents of one category, under its heading if it has one. -/
structure Group where
  heading : Option String
  paths : List Path
  deriving DecidableEq, Repr

/-- The results of the test documents of one category. -/
structure GroupResult where
  heading : Option String
  results : List TestResult

/-- What is written about a category while tests are run. -/
def GroupResult.pieces (noColor : Bool) (g : GroupResult) : List Piece :=
  let heading := match g.heading with
    | some heading => ["", paint noColor "1" heading]
    | none => []
  heading.map .line ++ g.results.flatMap (·.pieces noColor)

/-- The results of a run. -/
structure Summary where
  groups : List GroupResult

namespace Summary

/-- All results, in the order of the run. -/
def results (s : Summary) : List TestResult := s.groups.flatMap (·.results)

/-- The results of the tests that failed. -/
def failures (s : Summary) : List TestResult := s.results.filter (!·.passes)

/-- The number of tests that passed. -/
def passed (s : Summary) : Nat := (s.results.filter (·.passes)).length

/-- The number of tests that failed. -/
def failed (s : Summary) : Nat := s.failures.length

/-- The closing line. -/
def closing (noColor : Bool) (s : Summary) : String :=
  let word := if s.failed == 0 then paint noColor "32" "ok" else paint noColor "31" "FAILED"
  s!"test result: {word}. {s.passed} passed, {s.failed} failed"

/-- Everything that is written about a run. -/
def pieces (noColor : Bool) (s : Summary) : List Piece :=
  s.groups.flatMap (·.pieces noColor) ++
    (s.failures.flatMap (·.details noColor) ++ ["", s.closing noColor]).map .line

/-- The code with which a run ends. -/
def exit (s : Summary) : Nat := if s.failed == 0 then 0 else 1

end Summary

section

variable {m : Type → Type} [Monad m]

/-- The groups of test documents at a path: a file by itself, or what is found below a folder. -/
def groupsAt (files : Access m) (path : Path) (requests : List String) :
    m (Option (List Group × List String)) := do
  if ← files.isFile path then return some ([⟨none, [path]⟩], [])
  let all := discover (← files.list path)
  if all.isEmpty then return none
  let (chosen, idle) := select all requests
  let available := String.intercalate ", " (all.map fun (name, _) => categoryTitle name)
  let warnings := idle.map fun request =>
    s!"warning: category '{request}' not found (available: {available})"
  let groups := chosen.map fun (name, found) =>
    { heading := some (categoryTitle name), paths := found.map (·.foldl Path.join path) }
  return some (groups, warnings)

/-- Run the test documents of a category. -/
def Group.run (files : Access m) (g : Group) : m GroupResult := do
  return ⟨g.heading, ← g.paths.mapM (runFile files)⟩

/-- The lines about the categories at a path. -/
def categoryLines (files : Access m) (path : Path) : m (List String) := do
  if ← files.isFile path then return ["(single file, no categories)"]
  let all := discover (← files.list path)
  if all.isEmpty then return [s!"no .test.toml files found in {path}"]
  return "available categories:" ::
    all.map fun (name, found) => s!"  {categoryTitle name} ({found.length} tests)"

/-- Run the test documents at a path. -/
def runTests (files : Access m) (noColor : Bool) (path : Path) (requests : List String) :
    m Transcript := do
  match ← groupsAt files path requests with
  | none => return { exit := 1, stderr := [.line s!"no .test.toml files found in {path}"] }
  | some ([], warnings) =>
    let lines := warnings ++ ["none of the requested categories exist"]
    return { exit := 1, stderr := lines.map .line }
  | some (groups, warnings) => do
    let summary : Summary := ⟨← groups.mapM (·.run files)⟩
    return { exit := summary.exit, stderr := warnings.map .line ++ summary.pieces noColor }

end

end LabelCheck.Suite
