import LabelCheck.CommandLine.Arguments
import LabelCheck.CommandLine.Output
import LabelCheck.Validation

/-!
# The log of a run

To the error text a run writes what it has to tell, and in between it logs how it gets on. A command
gives both in pieces, in the order in which they are written, and the words that go into the log are
left open.

* `LogEvent`: what is logged, with `validationEvents` for a validation;
* `Logger`: how it is worded;
* `Piece`, `written`: a piece of the error text, and the text of many;
* `Transcript`: what a command writes, and the code with which it ends.

Nothing but warnings is logged unless the command line asks for more. Events that are finer than
these are never asked for.
-/

namespace LabelCheck.CommandLine

open Files

/-- What is logged. -/
inductive LogEvent where
  /-- The settings of a check are known. -/
  | settingsLoaded (file : Path) (conformance : Conformance) (matcher : NameMatcher)
      (policy : UnresolvedPolicy)
  /-- The procedure of a check is known. -/
  | procedureLoaded (name : String) (hasSource : Bool) (transfers : Nat)
  /-- The scopes of a body have been set up. -/
  | treeBuilt (scopes : Nat)
  /-- A reference refused to be settled. -/
  | settleRefused (label : Identifier) (held : Resolution)
  /-- An unresolved label is passed over. -/
  | labelIgnored (label : Identifier)
  /-- A procedure has been validated. -/
  | validated (name : String) (blocks errors warnings : Nat)
  deriving DecidableEq, Repr

/-- Whether an event is logged even if nobody asks for it. -/
def LogEvent.isWarning : LogEvent → Bool
  | settleRefused _ _ => true
  | _ => false

/-- What is logged while a procedure is validated under settings, given what the validation
gives. -/
def validationEvents (p : Procedure) (c : Config) (v : Validation) : List LogEvent :=
  let unresolved := v.procedure.transfers.filter fun (_, r) => r.resolution == .notFound
  [.treeBuilt p.body.size] ++ (v.refused.map fun (r, held) => .settleRefused r.target held) ++
    (if c.policy = .ignore then unresolved.map fun (_, r) => .labelIgnored r.target else []) ++
    [.validated p.name p.body.size v.errors.length v.warnings.length]

/-- How an event is worded, with or without colours. The wording may depend on how many events were
logged before, since it tells the time. -/
abbrev Logger := (noColor : Bool) → (index : Nat) → LogEvent → String

/-- The logger that writes nothing. -/
def silentLogger : Logger := fun _ _ _ => ""

/-- A piece of the error text. -/
inductive Piece where
  | told (text : String)
  | logged (event : LogEvent)
  deriving DecidableEq, Repr

/-- A line that is told. -/
def Piece.line (text : String) : Piece := .told (text ++ "\n")

/-- The text of pieces, when `index` events were logged before them. -/
def writtenFrom (log : Logger) (m : Manner) : (index : Nat) → List Piece → String
  | _, [] => ""
  | index, .told text :: rest => text ++ writtenFrom log m index rest
  | index, .logged event :: rest =>
    if m.verbose || event.isWarning then
      log m.noColor index event ++ writtenFrom log m (index + 1) rest
    else writtenFrom log m index rest

/-- The text of pieces. -/
def written (log : Logger) (m : Manner) (pieces : List Piece) : String :=
  writtenFrom log m 0 pieces

/-- What a command writes, and the code with which it ends. -/
structure Transcript where
  exit : Nat
  stdout : String := ""
  stderr : List Piece := []
  deriving DecidableEq, Repr

/-- A run that ends with one error line, after some events. -/
def Transcript.error (before : List LogEvent) (message : String) : Transcript :=
  { exit := 1, stderr := before.map .logged ++ [.line s!"error: {message}"] }

/-- What a run leaves behind. -/
def Transcript.output (t : Transcript) (log : Logger) (m : Manner) : Output :=
  { exit := t.exit, stdout := t.stdout, stderr := written log m t.stderr }

end LabelCheck.CommandLine
