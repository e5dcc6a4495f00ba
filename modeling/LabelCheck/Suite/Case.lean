import LabelCheck.Load

/-!
# Test documents

A test document gives a procedure, the settings to validate it under and what is expected of the
validation. The procedure stands in the document itself or in another document.

* `Expectations`: what is expected;
* `Case`: a test document, with `Case.ofText` to read one.
-/

namespace LabelCheck.Suite

open Document Files Toml

/-- What is expected of a validation. Without an entry for warnings or resolutions, these are not
looked at. -/
structure Expectations where
  /-- Parts of the messages of all errors, in order. -/
  errors : List String := []
  /-- Parts of the messages of all warnings, in order. -/
  warnings : Option (List String) := none
  /-- What each transfer resolves to, in source order. -/
  resolutions : Option (List (Option BlockId)) := none
  deriving DecidableEq, Repr

/-- A test document. -/
structure Case where
  description : Option String := none
  config : Config := {}
  expect : Expectations := {}
  /-- The procedure, where the document gives it itself. -/
  procedure : Option Procedure := none
  /-- The document of the procedure, as a path taken from the folder of the test. -/
  procedureFile : Option Path := none
  deriving DecidableEq, Repr

/-- Read one field of an expected resolution. -/
def readExpectedBlock (block : Option BlockId) : String × Value → Read (Option BlockId)
  | ("block", v) => return some ⟨← readSize v⟩
  | _ => .ok block

/-- An expected resolution. -/
def readExpectedResolution : Value → Read (Option BlockId)
  | .array _ items => (["block"].zip items).foldlM readExpectedBlock none
  | v =>
    match v.fields? with
    | some entries => entries.foldlM readExpectedBlock none
    | none => mismatch v (.record "ExpectedResolution")

/-- Read one expectation. -/
def readExpectation (e : Expectations) : String × Value → Read Expectations
  | ("errors", v) => return { e with errors := ← readItems readText v }
  | ("warnings", v) => return { e with warnings := some (← readItems readText v) }
  | ("resolutions", v) =>
    return { e with resolutions := some (← readItems readExpectedResolution v) }
  | _ => .ok e

/-- What is expected, as a table or as an array of its fields in their order. -/
def readExpectations : Value → Read Expectations
  | .array _ items =>
    (["errors", "warnings", "resolutions"].zip items).foldlM readExpectation {}
  | v =>
    match v.fields? with
    | some entries => entries.foldlM readExpectation {}
    | none => mismatch v (.record "Expectations")

/-- Read one field of a test document. -/
def readCaseField (c : Case) : String × Value → Read Case
  | ("description", v) => return { c with description := some (← readText v) }
  | ("config", v) => return { c with config := ← readSettings v }
  | ("expect", v) => return { c with expect := ← readExpectations v }
  | ("procedure", v) => return { c with procedure := some (← readProcedureValue v) }
  | ("procedure-file", v) => return { c with procedureFile := some (.ofText (← readText v)) }
  | _ => .ok c

/-- The test document in a table. -/
def readCase (entries : Table) : Read Case := entries.foldlM readCaseField {}

/-- The test document in a text. -/
def Case.ofText (text : String) : Except DocumentError Case := readDocument readCase text

end LabelCheck.Suite
