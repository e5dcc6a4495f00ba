import LabelCheck.Proofs.TransferPlaces

/-!
# What stands around the references of a body

Settling, resetting and every other change of references leave all else of a body alone: the blocks
with what they say of themselves, the SQL statements, and the place of each statement. Two bodies
that differ in their references at most are said to have the same frame, and what they have in
common is read off that relation.

* `Statements.SameFrame`, `Block.SameFrame`, `Statement.SameFrame`: the relation;
* `Block.SameFrame.statement?`: the statements correspond place by place;
* `Block.SameFrame.numberAt_eq`, `Block.SameFrame.map_header_blocks_eq`: the blocks have the same
  numbers;
* `Block.SameFrame.eq_of_transfers_eq`: bodies of one frame with the same transfers are equal.

A walk that changes references needs a single induction, to show that it keeps the frame.
-/

namespace LabelCheck

/-- **Two sequences that differ in their references at most.** -/
inductive Statements.SameFrame : Statements → Statements → Prop where
  | nil : SameFrame nil nil
  | sql (text : String) (span : Option Span) {rest rest' : Statements}
    (hrest : SameFrame rest rest') : SameFrame (sql text span rest) (sql text span rest')
  | transfer (kind : TransferKind) (r r' : LabelReference) {rest rest' : Statements}
    (hrest : SameFrame rest rest') : SameFrame (transfer kind r rest) (transfer kind r' rest')
  | block (header : Header) {inner inner' rest rest' : Statements}
    (hinner : SameFrame inner inner') (hrest : SameFrame rest rest') :
    SameFrame (block header inner rest) (block header inner' rest')

/-- Two blocks that differ in the references inside them at most. -/
structure Block.SameFrame (b b' : Block) : Prop where
  header_eq : b'.header = b.header
  statements : b.statements.SameFrame b'.statements

/-- Two statements that differ in references at most. -/
inductive Statement.SameFrame : Statement → Statement → Prop where
  | sql (text : String) (span : Option Span) : SameFrame (.sql text span) (.sql text span)
  | transfer (kind : TransferKind) (r r' : LabelReference) :
    SameFrame (.transfer kind r) (.transfer kind r')
  | block {b b' : Block} (h : b.SameFrame b') : SameFrame (.block b) (.block b')

namespace Statements.SameFrame

variable {s s' : Statements}

/-- The statements correspond one by one. -/
theorem getElem?_toList (h : s.SameFrame s') (i : Nat) :
    Option.Rel Statement.SameFrame s.toList[i]? s'.toList[i]? := by
  induction h generalizing i with
  | nil => exact .none
  | sql text span _ ih =>
    cases i with
    | zero => exact .some (.sql text span)
    | succ i => exact ih i
  | transfer kind r r' _ ih =>
    cases i with
    | zero => exact .some (.transfer kind r r')
    | succ i => exact ih i
  | block header hinner _ _ ih =>
    cases i with
    | zero => exact .some (.block ⟨rfl, hinner⟩)
    | succ i => exact ih i

theorem headers_eq (h : s.SameFrame s') : s'.headers = s.headers := by
  induction h with
  | nil => rfl
  | sql _ _ _ ih => exact ih
  | transfer _ _ _ _ ih => exact ih
  | block header _ _ ihInner ihRest => rw [headers, headers, ihInner, ihRest]

theorem blockCount_eq (h : s.SameFrame s') : s'.blockCount = s.blockCount := by
  rw [← length_headers, ← length_headers, h.headers_eq]

theorem blocksBefore_eq (h : s.SameFrame s') (i : Nat) :
    s'.blocksBefore i = s.blocksBefore i := by
  induction h generalizing i with
  | nil => rfl
  | sql _ _ _ ih =>
    cases i with
    | zero => rw [blocksBefore_zero, blocksBefore_zero]
    | succ i => exact ih i
  | transfer _ _ _ _ ih =>
    cases i with
    | zero => rw [blocksBefore_zero, blocksBefore_zero]
    | succ i => exact ih i
  | block header hinner _ _ ih =>
    cases i with
    | zero => rw [blocksBefore_zero, blocksBefore_zero]
    | succ i => rw [blocksBefore_block_succ, blocksBefore_block_succ, hinner.blockCount_eq, ih]

/-- The blocks at all depths have the same numbers and say the same of themselves. -/
theorem map_header_numbered_eq (h : s.SameFrame s') (next : Nat) :
    (s'.numbered next).map (fun (id, c) => (id, c.header)) =
      (s.numbered next).map fun (id, c) => (id, c.header) := by
  induction h generalizing next with
  | nil => rfl
  | sql _ _ _ ih => exact ih next
  | transfer _ _ _ _ ih => exact ih next
  | block header hinner _ ihInner ihRest =>
    rw [numbered, numbered, List.cons_append, List.cons_append, List.map_cons, List.map_cons,
      List.map_append, List.map_append, hinner.blockCount_eq, ihInner, ihRest]

theorem transferPlaces_eq (h : s.SameFrame s') (a : Address) (i : Nat) :
    s'.transferPlaces a i = s.transferPlaces a i := by
  induction h generalizing a i with
  | nil => rfl
  | sql _ _ _ ih => exact ih a (i + 1)
  | transfer _ _ _ _ ih => rw [transferPlaces, transferPlaces, ih]
  | block _ _ _ ihInner ihRest => rw [transferPlaces, transferPlaces, ihInner, ihRest]

theorem length_transfers_eq (h : s.SameFrame s') : s'.transfers.length = s.transfers.length := by
  induction h with
  | nil => rfl
  | sql _ _ _ ih => exact ih
  | transfer _ _ _ _ ih => rw [transfers, transfers, List.length_cons, List.length_cons, ih]
  | block _ _ _ ihInner ihRest =>
    rw [transfers, transfers, List.length_append, List.length_append, ihInner, ihRest]

/-- **Sequences that do not differ in their references either are equal.** -/
theorem eq_of_transfers_eq (h : s.SameFrame s') (ht : s'.transfers = s.transfers) : s' = s := by
  induction h with
  | nil => rfl
  | sql text span _ ih => rw [ih ht]
  | transfer kind r r' _ ih =>
    obtain ⟨hr, hrest⟩ := List.cons.inj ht
    rw [(Prod.mk.inj hr).2, ih hrest]
  | block header hinner _ ihInner ihRest =>
    -- The transfers of a block and those behind it are told apart by their number.
    obtain ⟨hin, hrest⟩ := List.append_inj ht hinner.length_transfers_eq
    rw [ihInner hin, ihRest hrest]

end Statements.SameFrame

namespace Block.SameFrame

variable {b b' : Block}

/-- A block that is a statement corresponds to one in the same place. -/
theorem child? (h : b.SameFrame b') (i : Nat) :
    Option.Rel SameFrame (b.child? i) (b'.child? i) := by
  have hitem := h.statements.getElem?_toList i
  unfold Block.child?
  -- Only the two statements count, so that they can be told apart by what they are.
  generalize b.statements.toList[i]? = item at hitem ⊢
  generalize b'.statements.toList[i]? = item' at hitem ⊢
  cases hitem with
  | none => exact .none
  | some hitem =>
    cases hitem with
    | sql _ _ => exact .none
    | transfer _ _ _ => exact .none
    | block hblock => exact .some hblock

/-- The blocks correspond address by address. -/
theorem at? (h : b.SameFrame b') (a : Address) : Option.Rel SameFrame (b.at? a) (b'.at? a) := by
  induction a generalizing b b' with
  | nil => exact .some h
  | cons i a ih =>
    have hchild := h.child? i
    rw [at?_cons, at?_cons]
    generalize b.child? i = inner at hchild ⊢
    generalize b'.child? i = inner' at hchild ⊢
    cases hchild with
    | none => exact .none
    | some hinner => exact ih hinner

/-- The statements correspond place by place. -/
theorem statement? (h : b.SameFrame b') (a : Address) (i : Nat) :
    Option.Rel Statement.SameFrame (b.statement? a i) (b'.statement? a i) := by
  have hat := h.at? a
  unfold Block.statement?
  generalize b.at? a = c at hat ⊢
  generalize b'.at? a = c' at hat ⊢
  cases hat with
  | none => exact .none
  | some hc => exact hc.statements.getElem?_toList i

theorem numberAt_eq (h : b.SameFrame b') (a : Address) : b'.numberAt a = b.numberAt a := by
  induction a generalizing b b' with
  | nil => rfl
  | cons i a ih =>
    have hchild := h.child? i
    unfold numberAt
    rw [h.statements.blocksBefore_eq]
    generalize b.child? i = inner at hchild ⊢
    generalize b'.child? i = inner' at hchild ⊢
    cases hchild with
    | none => rfl
    | some hinner =>
      -- As many blocks come before the statement, so that the numbers inside it decide.
      exact congrArg _ (ih hinner)

/-- The blocks at an address say the same of themselves. -/
theorem map_header_at?_eq (h : b.SameFrame b') (a : Address) :
    (b'.at? a).map header = (b.at? a).map header := by
  have hat := h.at? a
  generalize b.at? a = c at hat ⊢
  generalize b'.at? a = c' at hat ⊢
  cases hat with
  | none => rfl
  | some hc => exact congrArg some hc.header_eq

/-- The listings have the same blocks under the same numbers, as far as they tell of
themselves. -/
theorem map_header_blocks_eq (h : b.SameFrame b') :
    b'.blocks.map (fun (id, c) => (id, c.header)) = b.blocks.map fun (id, c) => (id, c.header) := by
  rw [blocks_eq_numbered, blocks_eq_numbered, List.map_cons, List.map_cons,
    h.statements.map_header_numbered_eq]
  show (BlockId.root, b'.header) :: _ = _
  rw [h.header_eq]

theorem transferPlaces_eq (h : b.SameFrame b') : b'.transferPlaces = b.transferPlaces :=
  h.statements.transferPlaces_eq [] 0

/-- Bodies that do not differ in their references either are equal. -/
theorem eq_of_transfers_eq (h : b.SameFrame b') (ht : b'.transfers = b.transfers) : b' = b := by
  obtain ⟨header, statements⟩ := b
  obtain ⟨header', statements'⟩ := b'
  obtain rfl : header' = header := h.header_eq
  exact congrArg (Block.mk header') (h.statements.eq_of_transfers_eq ht)

end Block.SameFrame

end LabelCheck
