import LabelCheck.Proofs.Address

/-!
# Changing the block at an address

A body is changed block by block, and the block to change is given by its number. This module says
what such a change does to the body as a tree: the block at the address with this number is the one
that is changed, and along the way to it every block keeps what it says of itself and all its other
statements.

* `Block.modifyAt`: the body with the block at an address changed, under its number;
* `Block.modifyAt_cons`: the change goes into the statement that the address begins with, and
  replaces it;
* `Block.numberAt_modifyAt`, `Block.header_at?_modifyAt`, `Block.statement?_modifyAt`: a change of
  what the block says of itself moves no block and no transfer, and changes no other block;
* `Procedure.withStatements`, `Procedure.withLabel`: the procedure with other statements in one
  block, or with a label on it.
-/

namespace LabelCheck

/-! ### The change under a number -/

namespace Statements

/-- The blocks of a statement are counted behind those of the statements before it, so that a number
in this range leads into it. -/
theorem modifyBlock_blocksBefore {s : Statements} {inner : Block} {i : Nat}
    (h : s.toList[i]? = some (.block inner)) (f : Block → Block) {n : Nat} (hn : n < inner.size) :
    s.modifyBlock f (s.blocksBefore i + n) =
      ofList (s.toList.set i (.block (inner.modifyBlock ⟨n⟩ f))) := by
  induction s generalizing i with
  | nil => cases h
  | sql text span rest ih =>
    cases i with
    | zero => cases h
    | succ i => exact congrArg (sql text span) (ih h)
  | transfer kind r rest ih =>
    cases i with
    | zero => cases h
    | succ i => exact congrArg (transfer kind r) (ih h)
  | block header inside rest _ ih =>
    cases i with
    | zero =>
      cases h
      have hrest : ofList rest.toList = rest := ofList_toList rest
      rw [blocksBefore_zero, Nat.zero_add]
      cases n with
      | zero => simp [modifyBlock, Block.modifyBlock, toList, cons, hrest]
      | succ n =>
        -- The number is that of a block inside the first statement.
        have hlt : n < inside.blockCount := Nat.lt_of_succ_lt_succ hn
        simp [modifyBlock, Block.modifyBlock, toList, cons, hrest, hlt]
    | succ i =>
      have hindex : (block header inside rest).blocksBefore (i + 1) + n =
          inside.blockCount + (rest.blocksBefore i + n) + 1 := by
        rw [blocksBefore_block_succ]
        omega
      -- The number lies behind all blocks of the first statement.
      have hbehind : ¬ inside.blockCount + (rest.blocksBefore i + n) < inside.blockCount := by
        omega
      rw [hindex, modifyBlock, if_neg hbehind, Nat.add_sub_cancel_left, ih h]
      rfl

end Statements

namespace Block

/-- **The body with the block at an address changed,** under the number of the address. -/
def modifyAt (b : Block) (a : Address) (f : Block → Block) : Block :=
  b.modifyBlock ⟨b.numberAt a⟩ f

variable {b inner : Block} {a : Address} {i : Nat}

@[simp] theorem modifyAt_nil (b : Block) (f : Block → Block) : b.modifyAt [] f = f b := rfl

/-- The change goes into the statement that the address begins with. -/
theorem modifyAt_cons (hi : b.statements.toList[i]? = some (.block inner))
    (ha : (inner.at? a).isSome) (f : Block → Block) :
    b.modifyAt (i :: a) f =
      ⟨b.header, .ofList (b.statements.toList.set i (.block (inner.modifyAt a f)))⟩ := by
  obtain ⟨c, hc⟩ := Option.isSome_iff_exists.mp ha
  have hlt : inner.numberAt a < inner.size := numberAt_lt_size hc
  have hnumber : b.numberAt (i :: a) = b.statements.blocksBefore i + inner.numberAt a + 1 := by
    rw [numberAt_cons hi]
    omega
  rw [modifyAt, hnumber]
  exact congrArg (Block.mk b.header) (Statements.modifyBlock_blocksBefore hi f hlt)

end Block

/-! ### A change of what a block says of itself -/

namespace Statements

/-- Blocks of one size may stand for each other: the same number of blocks begins before every
statement. -/
theorem blocksBefore_set {s : Statements} {inner c : Block} {i : Nat}
    (h : s.toList[i]? = some (.block inner)) (hsize : c.size = inner.size) (j : Nat) :
    (ofList (s.toList.set i (.block c))).blocksBefore j = s.blocksBefore j := by
  induction s generalizing i j with
  | nil => cases h
  | sql text span rest ih =>
    cases i with
    | zero => cases h
    | succ i =>
      cases j with
      | zero => rw [blocksBefore_zero, blocksBefore_zero]
      | succ j => exact ih h j
  | transfer kind r rest ih =>
    cases i with
    | zero => cases h
    | succ i =>
      cases j with
      | zero => rw [blocksBefore_zero, blocksBefore_zero]
      | succ j => exact ih h j
  | block header inside rest _ ih =>
    cases j with
    | zero => rw [blocksBefore_zero, blocksBefore_zero]
    | succ j =>
      cases i with
      | zero =>
        cases h
        have hcount : c.statements.blockCount = inside.blockCount := Nat.succ_inj.mp hsize
        have hrest : ofList rest.toList = rest := ofList_toList rest
        simp only [toList, List.set_cons_zero, ofList_cons, cons, hrest, blocksBefore_block_succ,
          hcount]
      | succ i =>
        have hrest := ih h j
        simp only [toList, List.set_cons_succ, ofList_cons, cons, blocksBefore_block_succ, hrest]

theorem blockCount_set {s : Statements} {inner c : Block} {i : Nat}
    (h : s.toList[i]? = some (.block inner)) (hsize : c.size = inner.size) :
    (ofList (s.toList.set i (.block c))).blockCount = s.blockCount := by
  -- All blocks begin before the end of the sequence.
  have hbefore := blocksBefore_set h hsize s.toList.length
  have hall : (s.toList.set i (.block c)).take s.toList.length = s.toList.set i (.block c) :=
    List.take_of_length_le (Nat.le_of_eq List.length_set)
  rw [blocksBefore, blocksBefore, toList_ofList, hall, List.take_length, ofList_toList] at hbefore
  exact hbefore

end Statements

namespace Block

variable {b inner : Block} {f : Block → Block} {a q : Address} {i : Nat}

/-- The statements of the block that an address goes into are changed, and those of no other. -/
theorem child?_modifyAt_cons (hi : b.statements.toList[i]? = some (.block inner))
    (hq : (inner.at? q).isSome) (j : Nat) :
    (b.modifyAt (i :: q) f).child? j = if j = i then some (inner.modifyAt q f) else b.child? j := by
  have hlt : i < b.statements.toList.length := (List.getElem?_eq_some_iff.mp hi).1
  rw [modifyAt_cons hi hq]
  by_cases hj : j = i
  · subst hj
    rw [if_pos rfl, child?_eq_some_iff, Statements.toList_ofList, List.getElem?_set_self hlt]
  · rw [if_neg hj]
    simp only [child?, Statements.toList_ofList]
    rw [List.getElem?_set_ne (Ne.symm hj)]

/-- An address of a block that begins with a statement leads on inside the block that this is. -/
theorem isSome_of_isSome_at?_cons (h : (b.at? (i :: q)).isSome) :
    ∃ inner, b.statements.toList[i]? = some (.block inner) ∧ (inner.at? q).isSome := by
  obtain ⟨c, hc⟩ := Option.isSome_iff_exists.mp h
  obtain ⟨inner, hi, hc⟩ := at?_cons_eq_some_iff.mp hc
  exact ⟨inner, hi, Option.isSome_of_eq_some hc⟩

section

variable (hf : ∀ c, (f c).statements = c.statements)

include hf

/-- There are as many blocks as before. -/
theorem size_modifyAt (hq : (b.at? q).isSome) : (b.modifyAt q f).size = b.size := by
  induction q generalizing b with
  | nil => rw [modifyAt_nil, size, hf, size]
  | cons i q ih =>
    obtain ⟨inner, hi, hat⟩ := isSome_of_isSome_at?_cons hq
    rw [modifyAt_cons hi hat, size, Statements.blockCount_set hi (ih hat), size]

/-- The blocks keep their numbers. -/
theorem numberAt_modifyAt (hq : (b.at? q).isSome) (a : Address) :
    (b.modifyAt q f).numberAt a = b.numberAt a := by
  induction q generalizing b a with
  | nil =>
    cases a with
    | nil => rfl
    | cons j a => simp only [modifyAt_nil, numberAt, child?, hf]
  | cons i q ih =>
    obtain ⟨inner, hi, hat⟩ := isSome_of_isSome_at?_cons hq
    cases a with
    | nil => rfl
    | cons j a =>
      have hchild := child?_modifyAt_cons (f := f) hi hat j
      have hbefore := Statements.blocksBefore_set hi (size_modifyAt hf hat) j
      rw [numberAt, hchild]
      rw [modifyAt_cons hi hat, hbefore]
      by_cases hj : j = i
      · subst hj
        rw [if_pos rfl, numberAt_cons hi]
        exact congrArg _ (ih hat a)
      · rw [if_neg hj]
        rfl

/-- The block at the address says what it has been given to say, and every other what it said
before. -/
theorem header_at?_modifyAt (hq : (b.at? q).isSome) (a : Address) :
    ((b.modifyAt q f).at? a).map header =
      (b.at? a).map fun c => if a = q then (f c).header else c.header := by
  induction q generalizing b a with
  | nil =>
    cases a with
    | nil => rfl
    | cons j a =>
      have hchild : (f b).child? j = b.child? j := by simp only [child?, hf]
      simp only [modifyAt_nil, at?_cons, hchild, List.cons_ne_nil, if_false]
  | cons i q ih =>
    obtain ⟨inner, hi, hat⟩ := isSome_of_isSome_at?_cons hq
    cases a with
    | nil =>
      rw [modifyAt_cons hi hat]
      rfl
    | cons j a =>
      rw [at?_cons, at?_cons, child?_modifyAt_cons hi hat]
      by_cases hj : j = i
      · subst hj
        have hinner := ih hat a
        rw [if_pos rfl, child?_eq_some_iff.mpr hi, Option.bind_some, Option.bind_some, hinner]
        simp only [List.cons.injEq, true_and]
      · simp only [hj, if_false, List.cons.injEq, false_and]

/-- Every transfer stays where it is. -/
theorem statement?_modifyAt (hq : (b.at? q).isSome) {kind : TransferKind} {r : LabelReference}
    {j : Nat} (h : b.statement? a j = some (.transfer kind r)) :
    (b.modifyAt q f).statement? a j = some (.transfer kind r) := by
  induction q generalizing b a with
  | nil =>
    cases a with
    | nil =>
      rw [← h]
      simp only [modifyAt_nil, statement?, at?, Option.bind_some, hf]
    | cons k a =>
      have hchild : (f b).child? k = b.child? k := by simp only [child?, hf]
      rw [← h]
      simp only [modifyAt_nil, statement?, at?_cons, hchild]
  | cons i q ih =>
    obtain ⟨inner, hi, hat⟩ := isSome_of_isSome_at?_cons hq
    cases a with
    | nil =>
      -- The statement that is replaced is a block.
      have hne : i ≠ j := by
        rintro rfl
        have h : b.statements.toList[i]? = some (.transfer kind r) := h
        rw [hi] at h
        cases h
      rw [modifyAt_cons hi hat]
      simp only [statement?, at?, Option.bind_some, Statements.toList_ofList]
      rw [List.getElem?_set_ne hne]
      exact h
    | cons k a =>
      rw [statement?, at?_cons] at h ⊢
      rw [child?_modifyAt_cons hi hat]
      by_cases hk : k = i
      · subst hk
        rw [child?_eq_some_iff.mpr hi] at h
        rw [if_pos rfl]
        exact ih hat h
      · rw [if_neg hk]
        exact h

end

/-- The block with another label before it. -/
def labelled (label : Identifier) (b : Block) : Block :=
  ⟨{ b.header with label := some label }, b.statements⟩

@[simp] theorem statements_labelled (label : Identifier) (b : Block) :
    (labelled label b).statements = b.statements := rfl

end Block

namespace Procedure

/-- The procedure with other statements in the block at an address. -/
def withStatements (p : Procedure) (a : Address) (s : Statements) : Procedure :=
  { p with body := p.body.modifyAt a fun b => { b with statements := s } }

/-- The procedure with a label on the block at an address. -/
def withLabel (p : Procedure) (a : Address) (label : Identifier) : Procedure :=
  { p with body := p.body.modifyAt a (Block.labelled label) }

end Procedure

end LabelCheck
