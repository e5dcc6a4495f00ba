import LabelCheck.Document.Reading

/-!
# Bodies in documents

A block of a document is a table. Beside the fields of every block (`label`, `end-label`, `span`,
`statements`) it holds `kind` and what blocks of that kind carry. A statement is a table with a
`type`, or an array that begins with the type. Keys without a meaning are passed over.

* `readBlock`: the block that a value stands for, with every reference still unresolved;
* `readStatements`: the sequence of statements in an array.

### Order of misfits

In a block the fields of every block come first, in document order, and then its kind. In a
statement the type comes first, and then its fields in document order.
-/

namespace LabelCheck.Document

open LabelCheck.Toml

/-- The kinds of blocks without what they carry. -/
inductive KindTag where
  | beginEnd
  | whileDo
  | loop
  | repeatUntil
  | ifThen
  | caseOf
  | branch
  deriving DecidableEq, Repr

/-- The kinds of blocks by name. -/
def kindTags : List (String × KindTag) :=
  [("begin-end", .beginEnd), ("while", .whileDo), ("loop", .loop), ("repeat", .repeatUntil),
    ("if", .ifThen), ("case", .caseOf), ("branch", .branch)]

/-- A text in a table that may be absent. -/
def optionalText (field : String) (entries : Table) : Read (Option String) :=
  match entries.lookup field with
  | some v => return some (← readText v)
  | none => .ok none

/-- A text in a table. -/
def requiredText (field : String) (entries : Table) : Read String := do
  required field (← optionalText field entries)

/-- The kind of a block, from the table of the block. -/
def readKind (entries : Table) : Read BlockKind := do
  match ← readTag "kind" kindTags (entries.lookup "kind") with
  | .beginEnd => return .beginEnd
  | .whileDo => return .whileDo (← requiredText "condition" entries)
  | .loop => return .loop
  | .repeatUntil => return .repeatUntil (← requiredText "until" entries)
  | .ifThen => return .ifThen
  | .caseOf => return .caseOf (← optionalText "operand" entries)
  | .branch => return .branch (← optionalText "condition" entries)

/-- The types of statements. -/
inductive StatementTag where
  | sql
  | block
  | leave
  | iterate
  deriving DecidableEq, Repr

/-- The types of statements by name. -/
def statementTags : List (String × StatementTag) :=
  [("sql", .sql), ("block", .block), ("leave", .leave), ("iterate", .iterate)]

/-- The fields of an SQL statement or a transfer that have been read: a value of some type, and a
place. -/
structure SimpleDraft (α : Type) where
  value : Option α := none
  span : Option Span := none

/-- Read one field of an SQL statement or a transfer, whose value stands under `field`. -/
def SimpleDraft.read {α : Type} (field : String) (reader : Value → Read α)
    (d : SimpleDraft α) : String × Value → Read (SimpleDraft α) := fun (key, v) =>
  if key = field then return { d with value := some (← reader v) }
  else if key = "span" then return { d with span := some (← readSpan .refused v) }
  else .ok d

/-- The value and the place in the table of an SQL statement or a transfer. -/
def readSimple {α : Type} (field : String) (reader : Value → Read α) (entries : Table) :
    Read (α × Option Span) := do
  let d ← entries.foldlM (SimpleDraft.read field reader) {}
  return (← required field d.value, d.span)

/-- The value and the place in an array, which ends after them. `expected` is the wording for an
array without the value. -/
def readSimpleItems {α : Type} (expected : String) (reader : Value → Read α) :
    List Value → Read (α × Option Span)
  | [] => .error (.tooShort 0 expected)
  | [v] => return (← reader v, none)
  | v :: place :: left => do
    let value ← reader v
    let span ← readSpan .refused place
    Surplus.refused.check 2 left
    return (value, some span)

/-- A transfer whose label has not been looked for. -/
def transferOf (kind : TransferKind) : Identifier × Option Span → Statement := fun (target, span) =>
  .transfer kind { target, span }

/-- An SQL statement. -/
def sqlOf : String × Option Span → Statement := fun (text, span) => .sql text span

/-- A statement from the items of an array, the first of which is its type. A block cannot be
written so. -/
def readStatementItems : List Value → Read Statement
  | [] => .error (.missingField "type")
  | tag :: items => do
    let reference := readSimpleItems "struct LabelReference with 2 elements" readIdentifier
    match ← readTag "type" statementTags (some tag) with
    | .sql =>
      return sqlOf
        (← readSimpleItems "struct variant Statement::Sql with 2 elements" readText items)
    | .leave => return transferOf .leave (← reference items)
    | .iterate => return transferOf .iterate (← reference items)
    | .block => .error (.invalidType .sequence .block)

/-- The fields of every block that have been read. -/
structure BlockDraft where
  label : Option Identifier := none
  endLabel : Option Identifier := none
  span : Option Span := none
  statements : Statements := .nil

/-- The block of a kind with the fields that have been read. -/
def BlockDraft.block (d : BlockDraft) (kind : BlockKind) : Block :=
  ⟨{ kind, label := d.label, endLabel := d.endLabel, span := d.span }, d.statements⟩

mutual

/-- Read the fields of every block in document order. -/
def readBlockFields (surplus : Surplus) : Table → BlockDraft → Read BlockDraft
  | [], d => .ok d
  | (key, v) :: rest, d =>
    match key with
    | "label" => do
      let label ← readIdentifier v
      readBlockFields surplus rest { d with label := some label }
    | "end-label" => do
      let label ← readIdentifier v
      readBlockFields surplus rest { d with endLabel := some label }
    | "span" => do
      let span ← readSpan surplus v
      readBlockFields surplus rest { d with span := some span }
    | "statements" => do
      let statements ← readStatements v
      readBlockFields surplus rest { d with statements }
    | _ => readBlockFields surplus rest d
termination_by structural entries => entries

/-- The statements in an array. -/
def readStatements : Value → Read Statements
  | .array _ items => readStatementList items
  | v => mismatch v .sequence
termination_by structural v => v

/-- The statements that a list of values stands for. -/
def readStatementList : List Value → Read Statements
  | [] => .ok .nil
  | v :: rest => do
    let statement ← readStatement v
    return .cons statement (← readStatementList rest)
termination_by structural items => items

/-- A statement: a table with its type, or an array that begins with it. -/
def readStatement : Value → Read Statement
  | .table entries => do
    match ← readTag "type" statementTags (entries.lookup "type") with
    | .sql => return sqlOf (← readSimple "text" readText entries)
    | .leave => return transferOf .leave (← readSimple "target" readIdentifier entries)
    | .iterate => return transferOf .iterate (← readSimple "target" readIdentifier entries)
    | .block =>
      let d ← readBlockFields .refused entries {}
      return .block (d.block (← readKind entries))
  | .array _ items => readStatementItems items
  | .moment _ => .error (.missingField "type")
  | v => mismatch v .statement
termination_by structural v => v

end

/-- The block that a table stands for. -/
def readBlockTable (surplus : Surplus) (entries : Table) : Read Block := do
  let d ← readBlockFields surplus entries {}
  return d.block (← readKind entries)

/-- The outermost block of a body. -/
def readBlock (v : Value) : Read Block :=
  match v.fields? with
  | some entries => readBlockTable .ignored entries
  | none => mismatch v .block

end LabelCheck.Document
