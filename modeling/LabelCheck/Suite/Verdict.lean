import LabelCheck.CommandLine.Log
import LabelCheck.Suite.Case
import LabelCheck.Text.Lines

/-!
# Verdicts

Whether a test document holds. It has to be read and its procedure to be found; then the
procedure is validated, and errors, warnings and resolutions are compared with what is expected,
in this order. The first thing that does not hold is the reason for a failure.

* `Failure`: the reasons, with `Failure.message` as their wording;
* `Expectations.check`: the comparison;
* `runFile`: the verdict on a file.
-/

namespace LabelCheck.Suite

open CommandLine Files

/-- Why a test document does not hold. -/
inductive Failure where
  | unreadable (error : FileError)
  | document (error : DocumentError)
  /-- The procedure is given twice. -/
  | twoProcedures
  | noProcedure
  | load (error : LoadError)
  | fault (fault : Fault)
  /-- There are more or fewer diagnostics of a severity than expected. -/
  | count (severity : Severity) (expected : Nat) (actual : List String)
  /-- The message at a place does not have the expected part. -/
  | text (severity : Severity) (index : Nat) (expected actual : String)
  /-- There are more or fewer transfers than expected. -/
  | transferCount (expected actual : Nat)
  /-- A transfer does not resolve as expected. -/
  | resolution (index : Nat) (kind : TransferKind) (target : Identifier)
      (expected actual : Option BlockId)

/-- An expected or actual block in a failure. -/
def blockText : Option BlockId → String
  | some id => id.text
  | none => "not found"

/-- The wording of a failure. -/
def Failure.message : Failure → String
  | unreadable error => s!"cannot read file: {error.message}"
  | document error => s!"TOML parse error: {error.message}"
  | twoProcedures => "both [procedure] and procedure-file are given"
  | noProcedure => "missing [procedure] or procedure-file"
  | load error => error.message
  | fault error => error.message
  | count severity expected actual =>
    let told :=
      if actual.isEmpty then "    (none)"
      else String.intercalate "\n" (actual.map fun message => s!"  - {message}")
    s!"expected {expected} {severity}(s), got {actual.length}\n  actual {severity}s:\n{told}"
  | text severity index expected actual =>
    s!"{severity}[{index}]: expected message containing \"{expected}\", got: {actual}"
  | transferCount expected actual =>
    s!"expected {expected} LEAVE/ITERATE statement(s), found {actual}"
  | resolution index kind target expected actual =>
    s!"resolution[{index}]: {kind} {target} expected {blockText expected}, " ++
      s!"got {blockText actual}"

/-- Compare messages with expected parts, from a place on. -/
def checkTexts (severity : Severity) : (index : Nat) → List String → List String →
    Except Failure Unit
  | index, actual :: actuals, expected :: rest =>
    if Text.occursIn expected actual then checkTexts severity (index + 1) actuals rest
    else .error (.text severity index expected actual)
  | _, _, _ => .ok ()

/-- Compare the diagnostics of a severity with the expected parts of their messages. -/
def checkMessages (severity : Severity) (actual : List Diagnostic) (expected : List String) :
    Except Failure Unit :=
  let messages := actual.map Diagnostic.message
  if messages.length = expected.length then checkTexts severity 0 messages expected
  else .error (.count severity expected.length messages)

/-- Compare resolutions with expected blocks, from a place on. -/
def checkBlocks : (index : Nat) → List (TransferKind × Identifier × Resolution) →
    List (Option BlockId) → Except Failure Unit
  | index, (kind, target, actual) :: actuals, expected :: rest =>
    if actual.block? = expected then checkBlocks (index + 1) actuals rest
    else .error (.resolution index kind target expected actual.block?)
  | _, _, _ => .ok ()

/-- Compare what the transfers of a procedure resolve to with what is expected. -/
def checkResolutions (p : Procedure) (expected : List (Option BlockId)) : Except Failure Unit :=
  let actual := p.resolutions
  if actual.length = expected.length then checkBlocks 0 actual expected
  else .error (.transferCount expected.length actual.length)

/-- Compare a validation with what is expected of it. -/
def Expectations.check (e : Expectations) (v : Validation) : Except Failure Unit := do
  checkMessages .error v.errors e.errors
  if let some expected := e.warnings then
    checkMessages .warning v.warnings expected
  if let some expected := e.resolutions then
    checkResolutions v.procedure expected

/-- The procedure of the test document at a path. -/
def Case.findProcedure {m : Type → Type} [Monad m] (files : Access m) (path : Path) (c : Case) :
    m (Except Failure Procedure) := do
  match c.procedure, c.procedureFile with
  | some p, none => return .ok p
  | none, some file =>
    return (← Procedure.load files (path.parent.join file)).mapError .load
  | some _, some _ => return .error .twoProcedures
  | none, none => return .error .noProcedure

/-- The test that a file holds: its description, as far as it could be read, its verdict, and what
was logged on the way to it. -/
structure TestResult where
  path : Path
  description : Option String
  verdict : Except Failure Unit
  log : List LogEvent := []

/-- Run the test document at a path. -/
def runFile {m : Type → Type} [Monad m] (files : Access m) (path : Path) : m TestResult := do
  match ← files.read path with
  | .error error => return { path, description := none, verdict := .error (.unreadable error) }
  | .ok text =>
    match Case.ofText text with
    | .error error => return { path, description := none, verdict := .error (.document error) }
    | .ok c =>
      let description := c.description
      match ← c.findProcedure files path with
      | .error failure => return { path, description, verdict := .error failure }
      | .ok p =>
        match p.validate c.config 0 with
        | .error fault => return { path, description, verdict := .error (.fault fault) }
        | .ok v =>
          return {
            path, description
            verdict := c.expect.check v
            log := validationEvents p c.config v }

end LabelCheck.Suite
