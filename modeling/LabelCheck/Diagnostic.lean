import LabelCheck.Config
import LabelCheck.Reference
import LabelCheck.BlockKind

/-!
# Diagnostics

What a validation can find wrong, and how it is told.

* `Problem`: the four ways in which labels can be misused, with `Problem.message` as their wording;
* `Diagnostic`: a problem with its severity, its place, notes and related places;
* `Report`: a diagnostic laid out for display, all places as marks on a text.
-/

namespace LabelCheck

/-- A misuse of labels. -/
inductive Problem where
  /-- No enclosing block carries the label that a transfer names. -/
  | unresolvedLabel (statement : TransferKind) (label : Identifier)
  /-- The label after a block is not the label before it. -/
  | labelMismatch (start : Option Identifier) (stop : Identifier)
  /-- An `ITERATE` names a block that does not repeat. -/
  | iterateTargetNotIteration (label : Identifier) (block : Construct)
  /-- The construct may not be labelled. -/
  | labelNotAllowed (label : Identifier) (block : Construct)
  deriving DecidableEq, Repr

/-- The wording of a problem. -/
def Problem.message : Problem → String
  | unresolvedLabel statement label => s!"label '{label}' not found for {statement}"
  | labelMismatch (some start) stop =>
    s!"end label '{stop}' does not match start label '{start}'"
  | labelMismatch none stop => s!"end label '{stop}' does not match an unlabeled block"
  | iterateTargetNotIteration label block =>
    s!"ITERATE label '{label}' names a {block}, not an iteration statement"
  | labelNotAllowed label block => s!"label '{label}' is not allowed on {block}"

/-- A problem as it is reported. -/
structure Diagnostic where
  problem : Problem
  span : Option Span := none
  /-- The text that the places belong to. -/
  sourceId : Nat := 0
  isWarning : Bool := false
  notes : List String := []
  /-- Related places, each with what is to be said about it. -/
  secondary : List (Span × String) := []
  deriving DecidableEq, Repr

/-- How serious a diagnostic is. -/
inductive Severity where
  | error
  | warning
  deriving DecidableEq, Repr

/-- The word for a severity. -/
def Severity.text : Severity → String
  | error => "error"
  | warning => "warning"

instance : ToString Severity := ⟨Severity.text⟩

/-- Whether a mark shows the place of a problem or a place related to it. -/
inductive MarkStyle where
  | primary
  | secondary
  deriving DecidableEq, Repr

/-- A marked place in a text. -/
structure Mark where
  style : MarkStyle
  sourceId : Nat
  span : Span
  message : String
  deriving DecidableEq, Repr

/-- A diagnostic laid out for display. -/
structure Report where
  severity : Severity
  message : String
  marks : List Mark
  notes : List String
  deriving DecidableEq, Repr

namespace Diagnostic

/-- A problem reported as an error. -/
def error (problem : Problem) (span : Option Span) (sourceId : Nat) : Diagnostic :=
  { problem, span, sourceId }

/-- A problem reported as a warning. -/
def warning (problem : Problem) (span : Option Span) (sourceId : Nat) : Diagnostic :=
  { problem, span, sourceId, isWarning := true }

/-- An error of which no place is known. -/
def ofProblem (problem : Problem) : Diagnostic := error problem none 0

/-- The diagnostic with one more note. -/
def addNote (d : Diagnostic) (note : String) : Diagnostic := { d with notes := d.notes ++ [note] }

/-- The diagnostic with one more related place. -/
def addSecondary (d : Diagnostic) (span : Span) (message : String) : Diagnostic :=
  { d with secondary := d.secondary ++ [(span, message)] }

/-- The wording of a diagnostic is that of its problem. -/
def message (d : Diagnostic) : String := d.problem.message

/-- How serious the diagnostic is. -/
def severity (d : Diagnostic) : Severity := if d.isWarning then .warning else .error

/-- The diagnostic laid out for display: a primary mark on its own place, if it is known, and a
secondary one on every related place. -/
def report (d : Diagnostic) : Report where
  severity := d.severity
  message := d.message
  marks :=
    (d.span.toList.map fun span => ⟨.primary, d.sourceId, span, ""⟩) ++
      d.secondary.map fun (span, message) => ⟨.secondary, d.sourceId, span, message⟩
  notes := d.notes

end Diagnostic

end LabelCheck
