import LabelCheck.Diagnostic
import LabelCheck.Procedure
import LabelCheck.Scope

/-!
# Validation

One walk over a body that settles every label reference and reports every misuse of labels.
References are forgotten first, so that a validation does not depend on earlier ones. The walk
counts the blocks that it enters; the count gives the number of a block, and through it the scope
in which the search for a label starts.

* `Validation`: what a validation gives, with the procedure whose references are settled;
* `Procedure.validate`: the validation of a procedure under settings.

### Faults

Three steps of the walk look something up that the walk itself has put there: the scope of the
block at hand, the scopes around it, and the facts about the block that was found. Each look-up
has a `Fault` for a missing entry.
-/

namespace LabelCheck

/-- A look-up of the walk that found nothing. -/
inductive Fault where
  /-- The block at hand has no scope. -/
  | noScope (block : BlockId)
  /-- The scopes around a block cannot be walked. -/
  | scope (error : ScopeError)
  /-- Nothing is known about the block that was found. -/
  | noFacts (block : BlockId)
  deriving DecidableEq, Repr

/-- The wording of a fault. -/
def Fault.message : Fault → String
  | noScope block => s!"block {block} has no scope"
  | scope error => error.message
  | noFacts block => s!"nothing is known about block {block}"

/-- What the check of an `ITERATE` needs to know about the block it names. -/
structure BlockFacts where
  construct : Construct
  iteration : Bool
  span : Option Span
  deriving DecidableEq, Repr

/-- The facts about a block, from what it says of itself. -/
def BlockFacts.of (h : Header) : BlockFacts :=
  { construct := h.kind.construct, iteration := h.kind.isIteration, span := h.span }

/-- What stays the same during a walk. -/
structure Walk.Setting where
  tree : ScopeTree
  matcher : NameMatcher
  policy : UnresolvedPolicy
  sourceId : Nat
  /-- The facts about each block, in pre-order. -/
  facts : Array BlockFacts

/-- What changes during a walk. -/
structure Walk.State where
  /-- The number of the next block to be entered. -/
  nextBlock : Nat := 0
  /-- What has been reported, in order. -/
  diagnostics : Array Diagnostic := #[]
  /-- References that refused to be settled, with what they held. -/
  refused : Array (LabelReference × Resolution) := #[]

/-- A step of the walk. -/
abbrev Walk := StateT Walk.State (Except Fault)

namespace Walk

/-- Report a diagnostic. -/
def report (d : Diagnostic) : Walk Unit :=
  modify fun s => { s with diagnostics := s.diagnostics.push d }

/-- Enter a block: it takes the next number, and a label on a construct that may have none is
reported. -/
def enter (w : Setting) (header : Header) : Walk BlockId := do
  let s ← get
  let id : BlockId := ⟨s.nextBlock⟩
  set { s with nextBlock := s.nextBlock + 1 }
  if let some label := header.label then
    if !header.kind.acceptsLabel then
      report (.error (.labelNotAllowed label header.kind.construct) header.span w.sourceId)
  return id

/-- Leave a block: a label after it that is not the one before it is reported. -/
def leave (w : Setting) (header : Header) : Walk Unit := do
  if let some stop := header.endLabel then
    if !header.label.any (w.matcher.accepts · stop) then
      report (.error (.labelMismatch header.label stop) header.span w.sourceId)

/-- The label of a transfer was not found: the policy says what becomes of it. -/
def reportUnresolved (w : Setting) (kind : TransferKind) (r : LabelReference) : Walk Unit :=
  let problem : Problem := .unresolvedLabel kind r.target
  match w.policy with
  | .error => report (.error problem r.span w.sourceId)
  | .warn => report (.warning problem r.span w.sourceId)
  | .ignore => pure ()

/-- The note on an `ITERATE` of a block that does not repeat. -/
def iterateNote : String := "ITERATE may only name a WHILE, LOOP or REPEAT statement"

/-- The diagnostic for an `ITERATE` of a block that does not repeat. It points at that block too
if its place is known. -/
def iterateDiagnostic (w : Setting) (r : LabelReference) (facts : BlockFacts) : Diagnostic :=
  let d := (Diagnostic.error (.iterateTargetNotIteration r.target facts.construct) r.span
    w.sourceId).addNote iterateNote
  match facts.span with
  | some span => d.addSecondary span s!"label declared by this {facts.construct}"
  | none => d

/-- An `ITERATE` has found its label: the block has to be one that repeats. -/
def checkIterate (w : Setting) (r : LabelReference) (found : BlockId) : Walk Unit :=
  match w.facts[found.index]? with
  | none => throw (.noFacts found)
  | some facts => do
    if !facts.iteration then report (iterateDiagnostic w r facts)

/-- The search for the label of a reference that stands directly in the block `container`. -/
def search (w : Setting) (container : BlockId) (r : LabelReference) :
    Except Fault (Option BlockId) :=
  match w.tree.scopeOf container with
  | none => .error (.noScope container)
  | some start =>
    match w.tree.resolve start r.target w.matcher with
    | .ok found => .ok found
    | .error error => .error (.scope error)

/-- Settle a reference with the outcome of its search, unless it refuses. -/
def settle (r : LabelReference) (found : Option BlockId) : Walk LabelReference :=
  match r.settle found with
  | .ok settled => return settled
  | .error held => do
    modify fun s => { s with refused := s.refused.push (r, held) }
    return r

/-- Visit a transfer that stands directly in the block `container`. -/
def transfer (w : Setting) (container : BlockId) (kind : TransferKind) (r : LabelReference) :
    Walk LabelReference := do
  let found ← search w container r
  let settled ← settle r found
  match found, kind with
  | none, kind => reportUnresolved w kind r
  | some block, .iterate => checkIterate w r block
  | some _, .leave => pure ()
  return settled

/-- Visit the statements that stand directly in the block `container`. -/
def statements (w : Setting) (container : BlockId) : Statements → Walk Statements
  | .nil => return .nil
  | .sql text span rest => return .sql text span (← statements w container rest)
  | .transfer kind r rest => do
    let r ← transfer w container kind r
    return .transfer kind r (← statements w container rest)
  | .block header inner rest => do
    let id ← enter w header
    let inner ← statements w id inner
    leave w header
    return .block header inner (← statements w container rest)

/-- Visit a whole body. -/
def body (w : Setting) (b : Block) : Walk Block := do
  let id ← enter w b.header
  let inner ← statements w id b.statements
  leave w b.header
  return { b with statements := inner }

end Walk

/-- What a validation gives. -/
structure Validation where
  /-- The procedure with every reference settled. -/
  procedure : Procedure
  /-- Everything that was reported, in source order. -/
  diagnostics : List Diagnostic
  /-- References that refused to be settled, with what they held. -/
  refused : List (LabelReference × Resolution)
  deriving DecidableEq, Repr

namespace Validation

/-- The diagnostics that are errors. -/
def errors (v : Validation) : List Diagnostic := v.diagnostics.filter (!·.isWarning)

/-- The diagnostics that are warnings. -/
def warnings (v : Validation) : List Diagnostic := v.diagnostics.filter (·.isWarning)

/-- The procedure passes if nothing was an error. -/
def passes (v : Validation) : Bool := v.errors.isEmpty

end Validation

namespace Procedure

/-- What stays the same during the walk over a procedure whose scopes bear a stamp. -/
def walkSetting (p : Procedure) (config : Config) (stamp : Stamp) : Walk.Setting where
  tree := ScopeTree.build stamp p.body
  matcher := config.matcher
  policy := config.policy
  sourceId := p.sourceId
  facts := (p.body.blocks.map fun (_, b) => BlockFacts.of b.header).toArray

/-- Settle every reference of a procedure and report every misuse of labels, with a scope tree
under the given stamp. -/
def validate (p : Procedure) (config : Config) (stamp : Stamp) : Except Fault Validation := do
  let p := p.resetResolutions
  let (body, s) ← (Walk.body (p.walkSetting config stamp) p.body).run {}
  return {
    procedure := { p with body }
    diagnostics := s.diagnostics.toList
    refused := s.refused.toList }

end Procedure

end LabelCheck
