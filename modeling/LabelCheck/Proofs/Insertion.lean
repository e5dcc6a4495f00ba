import LabelCheck.Proofs.Renumbering

/-!
# Siblings are invisible

A statement that is put in somewhere in a body, whatever labels there are in it, is seen by no
statement beside it. What a validation says of the others stays, in the same order, and what it says
of the new statement stands between them as one group, which depends on nothing in the body but the
blocks around. Only the numbers of the blocks behind the new statement grow, by the number of blocks
in it.

* `Procedure.inserted`: the procedure with the new statement;
* `Procedure.upTo`: the procedure as far as it is written down before a statement, which says where
  the group stands;
* `Validation.Gains`: what a validation gains by the new statement;
* `Procedure.validate_inserted`: the validation of a procedure with one more statement.

One statement or several make no difference to any of this, so the new statements are a sequence.
-/

namespace LabelCheck

/-- The procedure with the statements `s` put in between the statements `front` and `back` of the
block at an address. -/
def Procedure.inserted (p : Procedure) (a : Address) (front s back : Statements) : Procedure :=
  p.withStatements a (front ++ s ++ back)

/-! ### What is written down before a statement -/

/-- The block as far as it is written down before the statement `i` of the block at an address. The
blocks on the way are still open, so that there is no label behind them yet. -/
def Block.upTo (b : Block) : Address → Nat → Block
  | [], i => ⟨{ b.header with endLabel := none }, .ofList (b.statements.toList.take i)⟩
  | j :: a, i =>
    ⟨{ b.header with endLabel := none },
      .ofList (b.statements.toList.take j ++
        ((b.child? j).map fun inner => Statement.block (inner.upTo a i)).toList)⟩

/-- The procedure as far as it is written down before a statement. -/
def Procedure.upTo (p : Procedure) (a : Address) (i : Nat) : Procedure :=
  { p with body := p.body.upTo a i }

theorem Statements.ofList_take_length_append (front s : Statements) :
    ofList ((front ++ s).toList.take front.length) = front := by
  rw [toList_append, length, List.take_left, ofList_toList]

namespace Place

/-- What is written down before a place, whatever is at the place. -/
theorem upTo_fill (q : Place) (header : Header) (s : Statements) :
    (⟨header, q.fill s⟩ : Block).upTo q.address q.front.length =
      ⟨{ header with endLabel := none }, q.written⟩ := by
  induction q generalizing header with
  | here front back =>
    have htake := Statements.ofList_take_length_append front (s ++ back)
    rw [← Statements.append_assoc] at htake
    exact congrArg (Block.mk _) htake
  | inside front inner place back ih =>
    have htake :=
      Statements.ofList_take_length_append front (.block inner (place.fill s) back)
    have hchild : (⟨header, (inside front inner place back).fill s⟩ : Block).child?
        front.length = some ⟨inner, place.fill s⟩ := by
      rw [Block.child?_eq_some_iff]
      exact Statements.getElem?_toList_length_append front inner (place.fill s) back
    have hinner := ih inner
    simp only [address, Place.front, Block.upTo, hchild, written, Option.map_some]
    rw [hinner, Statements.ofList_append, fill, htake]
    rfl

/-- The references up to a place are settled as in the body up to there. -/
theorem transfers_settled_written (q : Place) (m : NameMatcher) (header : Header) :
    ((⟨{ header with endLabel := none }, q.written⟩ : Block).settled m).transfers =
      q.written.settledTransfers m [(.root, header)] 1 := by
  rw [Block.transfers_settled]
  exact Statements.settledTransfers_congr (NamesAlike.unended (.root, header) []) q.written 1

end Place

/-! ### The law -/

/-- The validations `v` and `w` are of a body without and with the statements `s`, before which `n`
blocks begin and around which the blocks `around` stand, and `u` is the validation of the body as
far as it is written down before them. -/
structure Validation.Gains (c : Config) (sourceId : Nat) (around : List (BlockId × Header))
    (n : Nat) (s : Statements) (u v w : Validation) : Prop where
  /-- The transfers of the one body stand in the other in the same order, with the new ones between
  them where they are written, and each reference holds the renumbered resolution. -/
  transfers_eq : ∃ behind,
    v.procedure.transfers = u.procedure.transfers ++ behind ∧
    w.procedure.transfers =
      u.procedure.transfers.map (renumberTransfer (.shift n s.blockCount)) ++
        s.settledTransfers c.matcher around n ++
          behind.map (renumberTransfer (.shift n s.blockCount))
  /-- The diagnostics of the one body stand in the other in the same order, with the new ones
  between them where their statements are written. These depend on the blocks around alone. -/
  diagnostics_eq : ∃ behind,
    v.diagnostics = u.diagnostics ++ behind ∧
    w.diagnostics = u.diagnostics ++ s.lexicalDiagnostics c sourceId (around.map Prod.snd) ++ behind
  /-- Under its renumbered number stands the same block. -/
  header_eq : ∀ id : BlockId, (w.procedure.block? (id.shift n s.blockCount)).map Block.header =
    (v.procedure.block? id).map Block.header

namespace Procedure

/-- **Siblings are invisible.** Statements `s` are put in at any place of a procedure, between the
statements `front` and `back` of the block at the address `a`. What its validation said before it
says after, of blocks of which those from the new ones on have grown by the number of these, and
what it says of the new statements comes in between. -/
theorem validate_inserted (p : Procedure) (c : Config) (stamp₁ stamp₂ stamp₃ : Stamp) {a : Address}
    {B : Block} {front back : Statements} (hB : p.body.at? a = some B)
    (hs : B.statements = front ++ back) (s : Statements) :
    ∃ u v w, (p.upTo a front.length).validate c stamp₁ = .ok u ∧ p.validate c stamp₂ = .ok v ∧
      (p.inserted a front s back).validate c stamp₃ = .ok w ∧
      Validation.Gains c p.sourceId (p.body.enclosing 0 a)
        (p.body.numberAt a + 1 + front.blockCount) s u v w := by
  have hnil : B.statements = front ++ .nil ++ back := by
    rw [hs, Statements.append_assoc, Statements.nil_append]
  obtain ⟨q, hfill, rfl, rfl, rfl⟩ := Block.exists_place hB hnil
  have hbody : p.body = ⟨p.body.header, q.fill .nil⟩ := by rw [← hfill]
  have hinserted : (p.inserted q.address q.front s q.back).body = ⟨p.body.header, q.fill s⟩ :=
    body_withStatements_fill hbody s
  have hupTo : (p.upTo q.address q.front.length).body =
      ⟨{ p.body.header with endLabel := none }, q.written⟩ := by
    rw [upTo, hbody]
    exact q.upTo_fill p.body.header .nil
  -- The address of the place gives the number behind it and the blocks around it.
  have hnumber : p.body.numberAt q.address + 1 + q.front.blockCount = 1 + q.opened := by
    rw [hbody]
    exact q.numberAt_fill p.body.header .nil
  have haround : p.body.enclosing 0 q.address = q.around [(.root, p.body.header)] 1 := by
    have henclosing := q.enclosing_fill p.body.header .nil [] 0
    rw [← hbody, List.append_nil] at henclosing
    exact henclosing
  have hcount : s.blockCount = Statements.nil.blockCount + s.blockCount := (Nat.zero_add _).symm
  have hheaders : s.headers = s.headers ++ Statements.nil.headers := (List.append_nil _).symm
  refine ⟨_, _, _, (p.upTo q.address q.front.length).validate_eq c stamp₁, p.validate_eq c stamp₂,
    (p.inserted q.address q.front s q.back).validate_eq c stamp₃, ?_⟩
  rw [hnumber, haround]
  refine ⟨?_, ?_, ?_⟩
  · obtain ⟨behind, hv, hw⟩ := q.exists_settledTransfers_shift c.matcher p.body.header hcount
    refine ⟨behind, ?_, ?_⟩
    · show (p.body.settled c.matcher).transfers =
        ((p.upTo q.address q.front.length).body.settled c.matcher).transfers ++ behind
      rw [hupTo, q.transfers_settled_written, hbody, Block.transfers_settled, hv]
      simp [Statements.settledTransfers, Statements.settled, Statements.transfers]
    · show ((p.inserted q.address q.front s q.back).body.settled c.matcher).transfers =
        ((p.upTo q.address q.front.length).body.settled c.matcher).transfers.map _ ++ _ ++ _
      rw [hupTo, q.transfers_settled_written, hinserted, Block.transfers_settled, hw]
  · obtain ⟨behind, hdiagnostics⟩ :=
      q.exists_lexicalDiagnostics_body c p.sourceId p.body.header
    refine ⟨behind, ?_, ?_⟩
    · show p.body.lexicalDiagnostics c p.sourceId =
        (p.upTo q.address q.front.length).body.lexicalDiagnostics c p.sourceId ++ behind
      rw [hupTo, hbody, hdiagnostics]
      simp [Statements.lexicalDiagnostics]
    · show (p.inserted q.address q.front s q.back).body.lexicalDiagnostics c p.sourceId =
        (p.upTo q.address q.front.length).body.lexicalDiagnostics c p.sourceId ++ _ ++ _
      rw [hupTo, hinserted, hdiagnostics]
  · intro id
    have hheader := q.header_block?_shift p.body.header hheaders (Statements.length_headers s) id
    show (((p.inserted q.address q.front s q.back).body.settled c.matcher).block? _).map
      Block.header = ((p.body.settled c.matcher).block? id).map Block.header
    rw [Block.header_block?_settled, Block.header_block?_settled, hinserted, hheader, ← hbody]

/-- A block that is left under a name that it does not carry. -/
def leftByName : Procedure where
  name := "leftByName"
  body :=
    { header := { kind := .beginEnd }
      statements := .transfer .leave { target := .regular "outer" } .nil }

/-- A loop that carries the name and is left from inside. -/
def namedLoop : Statement :=
  .block ⟨{ kind := .loop, label := some (.regular "outer") },
    .transfer .leave { target := .regular "outer" } .nil⟩

/-- The theorem at the loop in front of the reference, which does not come to name it. -/
theorem validate_inserted_namedLoop :
    leftByName.body.at? [] = some leftByName.body ∧
      leftByName.body.statements = .nil ++ leftByName.body.statements ∧
      ∃ u v w, (leftByName.upTo [] 0).validate {} 0 = .ok u ∧ leftByName.validate {} 1 = .ok v ∧
        (leftByName.inserted [] .nil (.ofList [namedLoop])
          leftByName.body.statements).validate {} 2 = .ok w ∧
        Validation.Gains {} 0 [(⟨0⟩, leftByName.body.header)] 1 (.ofList [namedLoop]) u v w := by
  have hB : leftByName.body.at? [] = some leftByName.body := rfl
  have hs : leftByName.body.statements = .nil ++ leftByName.body.statements := rfl
  exact ⟨hB, hs, validate_inserted leftByName {} 0 1 2 hB hs (.ofList [namedLoop])⟩

end Procedure

end LabelCheck
