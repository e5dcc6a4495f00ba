import LabelCheck.Proofs.Diagnostics
import LabelCheck.Proofs.Renumbering

/-!
# Unlabelled blocks are transparent

Some statements of a block that stand one behind the other are moved into a block of their own,
without a label before it or behind it. Nothing that a validation says changes: a name is looked for
in the blocks around, and a block without a label is passed over. Only the numbers of the blocks
from the new one on grow by one.

* `Procedure.wrapped`: the procedure with the new block;
* `Validation.AgreesAcross`: what it means that two validations differ in these numbers alone;
* `Procedure.validate_wrapped`: the validation of a procedure with such a block.
-/

namespace LabelCheck

/-- The procedure in which the statements `segment` of the block at an address, which stand between
`front` and `back`, have been moved into an unlabelled block of their own. -/
def Procedure.wrapped (p : Procedure) (a : Address) (front segment back : Statements)
    (kind : BlockKind) (span : Option Span) : Procedure :=
  p.withStatements a (front ++ .block { kind, span } segment .nil ++ back)

/-- The validation `w` is one of a body with one more block, which has the number `n`, and says what
`v` says. -/
structure Validation.AgreesAcross (n : Nat) (v w : Validation) : Prop where
  /-- Both pass, or neither does. -/
  passes_eq : w.passes = v.passes
  /-- The same is reported, in the same order. -/
  diagnostics_eq : w.diagnostics = v.diagnostics
  /-- Transfer by transfer in source order, the same reference holds the renumbered resolution. -/
  transfers_eq : w.procedure.transfers = v.procedure.transfers.map (renumberTransfer (.shift n 1))
  /-- Under its renumbered number stands the same block. -/
  header_eq : ∀ id : BlockId, (w.procedure.block? (id.shift n 1)).map Block.header =
    (v.procedure.block? id).map Block.header

/-! ### What the new block does not change -/

/-- A block without a label is passed over by every transfer inside it. -/
theorem transferDiagnostics_unlabelled {header : Header} (h : header.label = none) (c : Config)
    (sourceId : Nat) (around : List Header) :
    transferDiagnostics c sourceId (header :: around) = transferDiagnostics c sourceId around := by
  funext kind r
  have hcarries : header.carries c.matcher r.target = false := by
    rw [Header.carries, h]
    rfl
  rw [transferDiagnostics_cons, hcarries]
  rfl

/-- The misuses of labels in an unlabelled block are those of its statements. -/
theorem Statements.lexicalDiagnostics_unlabelled (c : Config) (sourceId : Nat)
    (around : List Header) (kind : BlockKind) (span : Option Span) (s : Statements) :
    (block { kind, span } s nil).lexicalDiagnostics c sourceId around =
      s.lexicalDiagnostics c sourceId around := by
  have hlabel : ({ kind, span } : Header).label = none := rfl
  have haround := transferDiagnostics_unlabelled hlabel c sourceId around
  rw [lexicalDiagnostics, lexicalDiagnostics_congr haround]
  simp [Header.labelDiagnostics, Header.endLabelDiagnostics, lexicalDiagnostics]

/-- Inside an unlabelled block references are settled by the renumbered blocks, where those around
it keep their numbers. -/
theorem Statements.settledTransfers_unlabelled {m : NameMatcher} {around : List (BlockId × Header)}
    {n : Nat} (haround : ∀ entry ∈ around, entry.1.index < n) (kind : BlockKind)
    (span : Option Span) (s : Statements) :
    (block { kind, span } s nil).settledTransfers m around n =
      (s.settledTransfers m around n).map (renumberTransfer (.shift n 1)) := by
  have hfixed : ∀ entry ∈ around, entry.1.shift n 1 = entry.1 := by
    intro entry he
    exact BlockId.shift_of_lt (haround entry he)
  have hnames : NamesAlike m (.shift n 1) around ((⟨n⟩, { kind, span }) :: around) :=
    (NamesAlike.of_fixed hfixed).unlabelled ⟨n⟩ rfl
  have hnext : ∀ i < s.blockCount, BlockId.shift n 1 ⟨n + i⟩ = ⟨n + 1 + i⟩ := by
    intro i _
    rw [BlockId.shift_of_le (Nat.le_add_right n i), Nat.add_right_comm]
  rw [settledTransfers_block, settledTransfers_renumber hnames s hnext]
  exact List.append_nil _

/-! ### The law -/

namespace Procedure

/-- The number of the new block, and the two bodies with one sequence or the other at one place. -/
theorem exists_place_wrapped (p : Procedure) {a : Address} {B : Block}
    {front segment back : Statements} (hB : p.body.at? a = some B)
    (hs : B.statements = front ++ segment ++ back) (kind : BlockKind) (span : Option Span) :
    ∃ q : Place, p.body = ⟨p.body.header, q.fill segment⟩ ∧
      (p.wrapped a front segment back kind span).body =
        ⟨p.body.header, q.fill (.block { kind, span } segment .nil)⟩ ∧
      (p.wrapped a front segment back kind span).body.numberAt (a ++ [front.length]) =
        1 + q.opened := by
  obtain ⟨q, hfill, rfl, rfl, rfl⟩ := Block.exists_place hB hs
  have hbody : p.body = ⟨p.body.header, q.fill segment⟩ := by rw [← hfill]
  have hwrapped : (p.wrapped q.address q.front segment q.back kind span).body =
      ⟨p.body.header, q.fill (.block { kind, span } segment .nil)⟩ :=
    body_withStatements_fill hbody _
  refine ⟨q, hbody, hwrapped, ?_⟩
  have hat := q.at?_fill p.body.header (.block { kind, span } segment .nil)
  rw [Statements.append_assoc] at hat
  have hnew := Statements.getElem?_toList_length_append q.front { kind, span } segment q.back
  rw [hwrapped, Block.numberAt_concat hat hnew, ← q.numberAt_fill]
  exact congrArg _ (Statements.blocksBefore_length_append _ _)

/-- **Unlabelled blocks are transparent.** Statements `segment` of the block `B` at the address `a`
that stand one behind the other, and there may be none, are moved into a new block without labels.
The procedure validates with the same outcome and the same diagnostics as before, and its transfers
resolve to the same blocks, of which those from the number of the new block on have grown by one. -/
theorem validate_wrapped (p : Procedure) (c : Config) (stamp stamp' : Stamp) {a : Address}
    {B : Block} {front segment back : Statements} (hB : p.body.at? a = some B)
    (hs : B.statements = front ++ segment ++ back) (kind : BlockKind) (span : Option Span) :
    ∃ v w, p.validate c stamp = .ok v ∧
      (p.wrapped a front segment back kind span).validate c stamp' = .ok w ∧
      v.AgreesAcross
        ((p.wrapped a front segment back kind span).body.numberAt (a ++ [front.length])) w := by
  obtain ⟨q, hbody, hwrapped, hnumber⟩ := p.exists_place_wrapped hB hs kind span
  have hdiagnostics : (p.wrapped a front segment back kind span).body.lexicalDiagnostics c
      p.sourceId = p.body.lexicalDiagnostics c p.sourceId := by
    obtain ⟨behind, hfill⟩ := q.exists_lexicalDiagnostics_body c p.sourceId p.body.header
    rw [hwrapped, hbody, hfill, hfill, Statements.lexicalDiagnostics_unlabelled]
  have hcount : (Statements.block { kind, span } segment .nil).blockCount =
      segment.blockCount + 1 := by simp [Statements.blockCount]
  refine ⟨_, _, p.validate_eq c stamp,
    (p.wrapped a front segment back kind span).validate_eq c stamp', ?_, hdiagnostics, ?_, ?_⟩
  · unfold Validation.passes Validation.errors
    rw [← hdiagnostics]
    rfl
  · -- The references in the new block are settled as without it, those outside by the law for more
    -- blocks at a place.
    obtain ⟨behind, hv, hw⟩ := q.exists_settledTransfers_shift c.matcher p.body.header hcount
    rw [Statements.settledTransfers_unlabelled (q.index_lt_of_mem_around_root p.body.header),
      ← List.map_append, ← List.map_append, ← hv] at hw
    rw [hnumber]
    show ((p.wrapped a front segment back kind span).body.settled c.matcher).transfers =
      (p.body.settled c.matcher).transfers.map _
    rw [hwrapped, hbody, Block.transfers_settled, Block.transfers_settled]
    exact hw
  · intro id
    have hheaders : (Statements.block { kind, span } segment .nil).headers =
        [({ kind, span } : Header)] ++ segment.headers := by simp [Statements.headers]
    have hheader := q.header_block?_shift (k := 1) p.body.header hheaders rfl id
    rw [hnumber]
    show (((p.wrapped a front segment back kind span).body.settled c.matcher).block? _).map
      Block.header = ((p.body.settled c.matcher).block? id).map Block.header
    rw [Block.header_block?_settled, Block.header_block?_settled, hwrapped, hheader, ← hbody]

/-- A loop `inner`, from which a loop `outer` is left. -/
def leavingLoop : Statements :=
  .block { kind := .loop, label := some (.regular "inner") }
    (.transfer .leave { target := .regular "outer" } .nil) .nil

/-- The loop `outer`, with the other loop behind a query. -/
def leftFromInside : Procedure where
  name := "leftFromInside"
  body :=
    { header := { kind := .loop, label := some (.regular "outer") }
      statements := .sql "SELECT 1" none leavingLoop }

/-- The theorem at the inner loop, which is put into an `IF` without a label. -/
theorem validate_wrapped_leavingLoop :
    leftFromInside.body.at? [] = some leftFromInside.body ∧
      leftFromInside.body.statements = .sql "SELECT 1" none .nil ++ leavingLoop ++ .nil ∧
      ∃ v w, leftFromInside.validate {} 0 = .ok v ∧
        (leftFromInside.wrapped [] (.sql "SELECT 1" none .nil) leavingLoop .nil .ifThen
          none).validate {} 1 = .ok w ∧
        v.AgreesAcross 1 w := by
  have hB : leftFromInside.body.at? [] = some leftFromInside.body := rfl
  have hs : leftFromInside.body.statements =
      .sql "SELECT 1" none .nil ++ leavingLoop ++ .nil := rfl
  exact ⟨hB, hs, validate_wrapped leftFromInside {} 0 1 hB hs .ifThen none⟩

end Procedure

end LabelCheck
