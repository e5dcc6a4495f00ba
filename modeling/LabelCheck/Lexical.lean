import LabelCheck.Config
import LabelCheck.Diagnostic
import LabelCheck.Block.Walk

/-!
# The lexical reading of a body

What the labels of a body mean, read off the body itself: at every place stands the list of the
blocks around it, the innermost first, and a label is looked for in that list alone. Nothing is
looked up by number.

* `Header.carries`: whether a name denotes the label of a block;
* `Block.lexicalOutcomes`: the block that each transfer names, with `Block.settled` as the body in
  which every reference holds it;
* `Block.lexicalDiagnostics`: every misuse of labels, in source order.

The numbers in the first reading only name the blocks that were found; the second does without.
-/

namespace LabelCheck

/-- Whether the name `target` denotes the label of a block. A block without a label carries no
name. -/
def Header.carries (m : NameMatcher) (target : Identifier) (h : Header) : Bool :=
  h.label.any (m.accepts · target)

/-! ### Blocks that are named -/

/-- The block that the name `target` denotes at a place inside the blocks `around`. -/
def lexicalOutcome (m : NameMatcher) (around : List (BlockId × Header)) (target : Identifier) :
    Option BlockId :=
  (around.find? fun (_, h) => h.carries m target).map Prod.fst

/-- The block that each transfer names, in source order, where `next` is the number of the first
block of the sequence. -/
def Statements.lexicalOutcomes (m : NameMatcher) :
    (around : List (BlockId × Header)) → (next : Nat) → Statements → List (Option BlockId)
  | _, _, nil => []
  | around, next, sql _ _ rest => rest.lexicalOutcomes m around next
  | around, next, transfer _ r rest =>
    lexicalOutcome m around r.target :: rest.lexicalOutcomes m around next
  | around, next, block h inner rest =>
    inner.lexicalOutcomes m ((⟨next⟩, h) :: around) (next + 1) ++
      rest.lexicalOutcomes m around (next + 1 + inner.blockCount)

/-- The block that each transfer of a body names, in source order. -/
def Block.lexicalOutcomes (m : NameMatcher) (b : Block) : List (Option BlockId) :=
  b.statements.lexicalOutcomes m [(.root, b.header)] 1

/-- A sequence inside the blocks `around` with every reference settled by the block it names. -/
def Statements.settled (m : NameMatcher) :
    (around : List (BlockId × Header)) → (next : Nat) → Statements → Statements
  | _, _, nil => nil
  | around, next, sql text span rest => sql text span (rest.settled m around next)
  | around, next, transfer kind r rest =>
    transfer kind { r with resolution := .ofOutcome (lexicalOutcome m around r.target) }
      (rest.settled m around next)
  | around, next, block h inner rest =>
    block h (inner.settled m ((⟨next⟩, h) :: around) (next + 1))
      (rest.settled m around (next + 1 + inner.blockCount))

/-- A body with every reference settled by the block it names. -/
def Block.settled (m : NameMatcher) (b : Block) : Block :=
  { b with statements := b.statements.settled m [(.root, b.header)] 1 }

/-- The innermost block that carries the name is the one that is found. -/
theorem lexicalOutcome_cons (m : NameMatcher) (id : BlockId) (h : Header)
    (around : List (BlockId × Header)) (target : Identifier) :
    lexicalOutcome m ((id, h) :: around) target =
      if h.carries m target then some id else lexicalOutcome m around target := by
  unfold lexicalOutcome
  cases hc : h.carries m target <;> simp [hc]

/-- Of two sequences the second goes on with the numbers behind those of the first. -/
theorem Statements.settled_append (m : NameMatcher) (around : List (BlockId × Header))
    (next : Nat) (s t : Statements) :
    (s ++ t).settled m around next =
      s.settled m around next ++ t.settled m around (next + s.blockCount) := by
  induction s generalizing next with
  | nil => rfl
  | sql text span rest ih => simp only [sql_append, settled, blockCount, ih]
  | transfer kind r rest ih => simp only [transfer_append, settled, blockCount, ih]
  | block header inner rest _ ih =>
    have hnext : next + 1 + inner.blockCount + rest.blockCount =
        next + (inner.blockCount + 1 + rest.blockCount) := by omega
    simp only [block_append, settled, blockCount, ih, hnext]

/-- Settling keeps what the blocks say of themselves. -/
theorem Statements.headers_settled (m : NameMatcher) (around : List (BlockId × Header))
    (next : Nat) (s : Statements) : (s.settled m around next).headers = s.headers := by
  induction s generalizing around next with
  | nil => rfl
  | sql _ _ rest ih => exact ih around next
  | transfer _ _ rest ih => exact ih around next
  | block header inner rest ihInner ihRest => simp only [settled, headers, ihInner, ihRest]

theorem Block.header_block?_settled (m : NameMatcher) (b : Block) (id : BlockId) :
    ((b.settled m).block? id).map Block.header = (b.block? id).map Block.header := by
  rw [header_block?, header_block?]
  show (b.header :: (b.statements.settled m _ 1).headers)[id.index]? = _
  rw [Statements.headers_settled]

/-- Every transfer has an outcome. -/
theorem Statements.length_lexicalOutcomes (m : NameMatcher) (around : List (BlockId × Header))
    (next : Nat) (s : Statements) :
    (s.lexicalOutcomes m around next).length = s.transfers.length := by
  induction s generalizing around next with
  | nil => rfl
  | sql _ _ rest ih => exact ih around next
  | transfer _ _ rest ih => simp [transfers, lexicalOutcomes, ih]
  | block _ inner rest ihInner ihRest => simp [transfers, lexicalOutcomes, ihInner, ihRest]

/-- Settling writes the named blocks into the references, one by one, and nothing else. -/
theorem Statements.transfers_settled (m : NameMatcher) (around : List (BlockId × Header))
    (next : Nat) (s : Statements) :
    (s.settled m around next).transfers =
      s.transfers.zipWith
        (fun t outcome => (t.1, { t.2 with resolution := .ofOutcome outcome }))
        (s.lexicalOutcomes m around next) := by
  induction s generalizing around next with
  | nil => rfl
  | sql _ _ rest ih => exact ih around next
  | transfer _ _ rest ih => simp [settled, transfers, lexicalOutcomes, ih]
  | block _ inner rest ihInner ihRest =>
    simp only [settled, transfers, lexicalOutcomes, ihInner, ihRest]
    rw [List.zipWith_append (length_lexicalOutcomes ..).symm]

/-! ### Misuses of labels -/

/-- What is wrong with the label before a block: an `IF`, a `CASE` and their arms take none. -/
def Header.labelDiagnostics (sourceId : Nat) (h : Header) : List Diagnostic :=
  match h.label, h.kind with
  | some label, .ifThen | some label, .caseOf _ | some label, .branch _ =>
    [.error (.labelNotAllowed label h.kind.construct) h.span sourceId]
  | _, _ => []

/-- What is wrong with the label behind a block. -/
def Header.endLabelDiagnostics (m : NameMatcher) (sourceId : Nat) (h : Header) :
    List Diagnostic :=
  match h.endLabel with
  | some stop =>
    if h.carries m stop then [] else [.error (.labelMismatch h.label stop) h.span sourceId]
  | none => []

/-- What is wrong with an `ITERATE` of a block that does not repeat. The block is a related place
if its span is known. -/
def Header.iterateDiagnostic (sourceId : Nat) (r : LabelReference) (h : Header) : Diagnostic where
  problem := .iterateTargetNotIteration r.target h.kind.construct
  span := r.span
  sourceId := sourceId
  notes := ["ITERATE may only name a WHILE, LOOP or REPEAT statement"]
  secondary := h.span.toList.map fun span => (span, s!"label declared by this {h.kind.construct}")

/-- What is wrong with an `ITERATE` that names a block: only a `WHILE`, a `LOOP` and a `REPEAT`
repeat their statements. -/
def Header.iterateDiagnostics (sourceId : Nat) (r : LabelReference) (h : Header) :
    List Diagnostic :=
  match h.kind with
  | .whileDo _ | .loop | .repeatUntil _ => []
  | .beginEnd | .ifThen | .caseOf _ | .branch _ => [h.iterateDiagnostic sourceId r]

/-- What is wrong with a transfer whose label no block around it carries: the policy decides. -/
def UnresolvedPolicy.diagnostics (policy : UnresolvedPolicy) (sourceId : Nat)
    (kind : TransferKind) (r : LabelReference) : List Diagnostic :=
  match policy with
  | error => [.error (.unresolvedLabel kind r.target) r.span sourceId]
  | warn => [.warning (.unresolvedLabel kind r.target) r.span sourceId]
  | ignore => []

/-- What is wrong with a transfer inside the blocks `around`. -/
def transferDiagnostics (c : Config) (sourceId : Nat) (around : List Header)
    (kind : TransferKind) (r : LabelReference) : List Diagnostic :=
  match kind, around.find? (Header.carries c.matcher r.target) with
  | kind, none => c.policy.diagnostics sourceId kind r
  | .iterate, some h => h.iterateDiagnostics sourceId r
  | .leave, some _ => []

/-! What each of the checks can report. -/

section

variable {sourceId : Nat} {h : Header} {r : LabelReference} {d : Diagnostic}

theorem Header.mem_labelDiagnostics_iff : d ∈ h.labelDiagnostics sourceId ↔
    ∃ label, h.label = some label ∧ h.kind.acceptsLabel = false ∧
      d = .error (.labelNotAllowed label h.kind.construct) h.span sourceId := by
  obtain ⟨kind, label, endLabel, span⟩ := h
  cases label with
  | none => simp [labelDiagnostics]
  | some label => cases kind <;> simp [labelDiagnostics, BlockKind.acceptsLabel]

theorem Header.mem_endLabelDiagnostics_iff {m : NameMatcher} :
    d ∈ h.endLabelDiagnostics m sourceId ↔
      ∃ stop, h.endLabel = some stop ∧ h.carries m stop = false ∧
        d = .error (.labelMismatch h.label stop) h.span sourceId := by
  cases hstop : h.endLabel with
  | none => simp [endLabelDiagnostics, hstop]
  | some stop => cases hc : h.carries m stop <;> simp [endLabelDiagnostics, hstop, hc]

theorem Header.mem_iterateDiagnostics_iff : d ∈ h.iterateDiagnostics sourceId r ↔
    h.kind.isIteration = false ∧ d = h.iterateDiagnostic sourceId r := by
  cases hk : h.kind <;> simp [iterateDiagnostics, hk, BlockKind.isIteration]

/-- The policy decides whether an unresolved label is an error, a warning or neither. -/
theorem UnresolvedPolicy.mem_diagnostics_iff {policy : UnresolvedPolicy} {kind : TransferKind} :
    d ∈ policy.diagnostics sourceId kind r ↔
      policy ≠ .ignore ∧
        d = { Diagnostic.error (.unresolvedLabel kind r.target) r.span sourceId with
          isWarning := decide (policy = .warn) } := by
  cases policy <;> simp [UnresolvedPolicy.diagnostics, Diagnostic.error, Diagnostic.warning]

theorem mem_transferDiagnostics_iff {c : Config} {around : List Header} {kind : TransferKind} :
    d ∈ transferDiagnostics c sourceId around kind r ↔
      (around.find? (Header.carries c.matcher r.target) = none ∧
        d ∈ c.policy.diagnostics sourceId kind r) ∨
      ∃ h, around.find? (Header.carries c.matcher r.target) = some h ∧ kind = .iterate ∧
        d ∈ h.iterateDiagnostics sourceId r := by
  unfold transferDiagnostics
  cases around.find? (Header.carries c.matcher r.target) with
  | none => simp
  | some h => cases kind <;> simp

end

/-- What is wrong inside the blocks `around`, in source order. -/
def Statements.lexicalDiagnostics (c : Config) (sourceId : Nat) :
    (around : List Header) → Statements → List Diagnostic
  | _, nil => []
  | around, sql _ _ rest => rest.lexicalDiagnostics c sourceId around
  | around, transfer kind r rest =>
    transferDiagnostics c sourceId around kind r ++ rest.lexicalDiagnostics c sourceId around
  | around, block h inner rest =>
    h.labelDiagnostics sourceId ++ inner.lexicalDiagnostics c sourceId (h :: around) ++
      h.endLabelDiagnostics c.matcher sourceId ++ rest.lexicalDiagnostics c sourceId around

/-- The block that a transfer names is the innermost one that carries the name, and only an
`ITERATE` asks what kind of block this is. -/
theorem transferDiagnostics_cons (c : Config) (sourceId : Nat) (h : Header) (around : List Header)
    (kind : TransferKind) (r : LabelReference) :
    transferDiagnostics c sourceId (h :: around) kind r =
      if h.carries c.matcher r.target then
        match kind with
        | .iterate => h.iterateDiagnostics sourceId r
        | .leave => []
      else transferDiagnostics c sourceId around kind r := by
  unfold transferDiagnostics
  cases hc : h.carries c.matcher r.target <;> cases kind <;> simp [hc]

theorem Statements.lexicalDiagnostics_append (c : Config) (sourceId : Nat)
    (around : List Header) (s t : Statements) :
    (s ++ t).lexicalDiagnostics c sourceId around =
      s.lexicalDiagnostics c sourceId around ++ t.lexicalDiagnostics c sourceId around := by
  induction s with
  | nil => rfl
  | sql _ _ rest ih => exact ih
  | transfer kind r rest ih =>
    simp only [transfer_append, lexicalDiagnostics, ih, List.append_assoc]
  | block header inner rest _ ih =>
    simp only [block_append, lexicalDiagnostics, ih, List.append_assoc]

/-- Every misuse of labels in a body, in source order. -/
def Block.lexicalDiagnostics (c : Config) (sourceId : Nat) (b : Block) : List Diagnostic :=
  b.header.labelDiagnostics sourceId ++
    b.statements.lexicalDiagnostics c sourceId [b.header] ++
    b.header.endLabelDiagnostics c.matcher sourceId

end LabelCheck
