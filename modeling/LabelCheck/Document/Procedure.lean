import LabelCheck.Document.Body
import LabelCheck.Procedure

/-!
# Procedures as documents

A procedure document is a table with `name`, `source` and `body`. What a validation finds out and
the number of the source are no part of it.

* `readProcedure`: the procedure a table stands for, fresh from the document;
* `writeProcedure`: the table of a procedure, with absent parts left out.
-/

namespace LabelCheck.Document

open LabelCheck.Toml

/-! ### Reading -/

/-- The fields of a procedure that have been read. -/
structure ProcedureDraft where
  name : Option String := none
  source : Option String := none
  body : Option Block := none

/-- Read one field of a procedure. -/
def ProcedureDraft.read (d : ProcedureDraft) : String × Value → Read ProcedureDraft
  | ("name", v) => return { d with name := some (← readText v) }
  | ("source", v) => return { d with source := some (← readText v) }
  | ("body", v) => return { d with body := some (← readBlock v) }
  | _ => .ok d

/-- The procedure in a table. -/
def readProcedure (entries : Table) : Read Procedure := do
  let d ← entries.foldlM ProcedureDraft.read {}
  let name ← required "name" d.name
  let body ← required "body" d.body
  return { name, source := d.source, body }

/-- A procedure as a table, or as an array of its name, source and body. -/
def readProcedureValue : Value → Read Procedure
  | .array _ (name :: source :: body :: _) => do
    let name ← readText name
    let source ← readText source
    return { name, source := some source, body := ← readBlock body }
  | .array _ items => do
    let _ ← items.mapM readText
    .error (.tooShort (if items.isEmpty then 0 else 2) "struct Procedure with 3 elements")
  | v =>
    match v.fields? with
    | some entries => readProcedure entries
    | none => mismatch v (.record "Procedure")

/-! ### Writing -/

/-- An entry that is there only if its value is. -/
def optionalEntry {α : Type} (key : String) (write : α → Value) : Option α → Table
  | some value => [(key, write value)]
  | none => []

/-- An identifier in its written form. -/
def writeIdentifier (i : Identifier) : Value := .string i.text

/-- A span as a table of its two ends. -/
def writeSpan (s : Span) : Value :=
  .table [("start", .integer s.start), ("end", .integer s.stop)]

/-- The kind of a block with what it carries. -/
def writeKind : BlockKind → Table
  | .beginEnd => [("kind", .string "begin-end")]
  | .whileDo condition => [("kind", .string "while"), ("condition", .string condition)]
  | .loop => [("kind", .string "loop")]
  | .repeatUntil condition => [("kind", .string "repeat"), ("until", .string condition)]
  | .ifThen => [("kind", .string "if")]
  | .caseOf operand => ("kind", .string "case") :: optionalEntry "operand" .string operand
  | .branch condition => ("kind", .string "branch") :: optionalEntry "condition" .string condition

/-- The entries of a block, given the value of its statements. -/
def writeHeader (h : Header) (statements : Value) : Table :=
  writeKind h.kind ++ optionalEntry "label" writeIdentifier h.label ++
    optionalEntry "end-label" writeIdentifier h.endLabel ++ [("statements", statements)] ++
    optionalEntry "span" writeSpan h.span

/-- The type of a transfer in a document. -/
def transferTag : TransferKind → String
  | .leave => "leave"
  | .iterate => "iterate"

/-- The values of a sequence of statements. -/
def writeStatements : Statements → List Value
  | .nil => []
  | .sql text span rest =>
    .table ([("type", .string "sql"), ("text", .string text)] ++
      optionalEntry "span" writeSpan span) :: writeStatements rest
  | .transfer kind r rest =>
    .table ([("type", .string (transferTag kind)), ("target", writeIdentifier r.target)] ++
      optionalEntry "span" writeSpan r.span) :: writeStatements rest
  | .block header inner rest =>
    let statements := .array .bracketed (writeStatements inner)
    .table (("type", .string "block") :: writeHeader header statements) :: writeStatements rest

/-- The table of a block. -/
def writeBlock (b : Block) : Table :=
  writeHeader b.header (.array .bracketed (writeStatements b.statements))

/-- The table of a procedure. -/
def writeProcedure (p : Procedure) : Table :=
  [("name", .string p.name)] ++ optionalEntry "source" .string p.source ++
    [("body", .table (writeBlock p.body))]

end LabelCheck.Document
