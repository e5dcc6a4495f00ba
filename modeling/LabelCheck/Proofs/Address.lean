import LabelCheck.Procedure
import LabelCheck.StandsAt
import Mathlib.Data.List.Infix
import Mathlib.Data.List.Lex

/-!
# Addresses in a body

Where a block stands, told by the tree alone: the way to it from the body, as the places among the
statements that have to be gone into. Equal blocks at two addresses are two blocks, so everything
that speaks of *the* block around a statement speaks of addresses, and a block number is a fact
about an address.

* `Block.at?`: the block at an address, with `Block.statement?` for a statement in it;
* `Block.numberAt`: the number that the pre-order gives to an address, counted on the tree;
* `Block.mem_transfers_iff`: the transfers of a body are its statements of that form at all
  addresses.

Two laws tie the numbers to the listing of a body and to each other. The block that the listing
has under the number of an address is the block at that address (`Block.block?_numberAt`). The
numbers grow along the lexicographic order of the addresses, which is the pre-order of the tree
(`Block.numberAt_lt_numberAt`), and so two addresses never share one (`Block.numberAt_injective`).
-/

namespace LabelCheck

/-- The way from a body to a block: at each level the place of the statement to go into, from the
outermost level on. The body itself has the empty address. -/
abbrev Address := List Nat

/-! ### Blocks and statements at an address -/

namespace Block

/-- The block that is the statement at place `i`. -/
def child? (b : Block) (i : Nat) : Option Block :=
  match b.statements.toList[i]? with
  | some (.block inner) => some inner
  | _ => none

/-- The block at an address. -/
def at? : Block → Address → Option Block
  | b, [] => some b
  | b, i :: a => (b.child? i).bind fun inner => inner.at? a

/-- The statement at place `i` of the block at an address. -/
def statement? (b : Block) (a : Address) (i : Nat) : Option Statement :=
  (b.at? a).bind fun inner => inner.statements.toList[i]?

theorem at?_cons (b : Block) (i : Nat) (a : Address) :
    b.at? (i :: a) = (b.child? i).bind fun inner => inner.at? a := rfl

theorem child?_eq_some_iff {b inner : Block} {i : Nat} :
    b.child? i = some inner ↔ b.statements.toList[i]? = some (.block inner) := by
  unfold child?
  split
  · next found hf => rw [hf]; simp
  · next hf =>
    constructor
    · intro h; cases h
    · intro h; exact absurd h (hf inner)

theorem at?_cons_eq_some_iff {b c : Block} {i : Nat} {a : Address} :
    b.at? (i :: a) = some c ↔
      ∃ inner, b.statements.toList[i]? = some (.block inner) ∧ inner.at? a = some c := by
  rw [at?_cons, Option.bind_eq_some_iff]
  simp only [child?_eq_some_iff]

end Block

namespace Block

/-- The way to a block goes on inside it. -/
theorem at?_append (b : Block) (a a' : Address) :
    b.at? (a ++ a') = (b.at? a).bind fun inner => inner.at? a' := by
  induction a generalizing b with
  | nil => rfl
  | cons i a ih =>
    rw [List.cons_append, at?_cons, at?_cons, Option.bind_assoc]
    congr 1
    funext inner
    exact ih inner

/-- An address that goes one step further leads to a statement of the block before. -/
theorem at?_concat_eq_some_iff {b c : Block} {a : Address} {i : Nat} :
    b.at? (a ++ [i]) = some c ↔
      ∃ outer, b.at? a = some outer ∧ outer.statements.toList[i]? = some (.block c) := by
  rw [at?_append, Option.bind_eq_some_iff]
  refine exists_congr fun outer => and_congr_right fun _ => ?_
  rw [at?_cons_eq_some_iff]
  constructor
  · rintro ⟨inner, hi, hinner⟩
    cases hinner
    exact hi
  · intro hi
    exact ⟨c, hi, rfl⟩

/-- Every address on the way to a block is that of a block. -/
theorem isSome_at?_of_prefix {b : Block} {a q : Address} (ha : (b.at? a).isSome) (hq : q <+: a) :
    (b.at? q).isSome := by
  obtain ⟨a', rfl⟩ := hq
  rw [at?_append] at ha
  exact Option.isSome_of_isSome_bind ha

end Block

/-! ### Numbers in pre-order -/

/-- The number of blocks at all depths among the first `i` statements of a sequence. -/
def Statements.blocksBefore (s : Statements) (i : Nat) : Nat :=
  (Statements.ofList (s.toList.take i)).blockCount

namespace Block

/-- **The pre-order number of an address.** A block comes before everything inside it, and of two
statements the earlier with all its blocks comes before the later. Of an address without a block
nothing is promised. -/
def numberAt : Block → Address → Nat
  | _, [] => 0
  | b, i :: a =>
    match b.child? i with
    | some inner => 1 + b.statements.blocksBefore i + inner.numberAt a
    | none => 0

/-- A block and all blocks inside it in pre-order, numbered from `next` on. -/
def numberedFrom (next : Nat) (b : Block) : List (BlockId × Block) :=
  (⟨next⟩, b) :: b.statements.numbered (next + 1)

@[simp] theorem numberAt_nil (b : Block) : b.numberAt [] = 0 := rfl

theorem numberAt_cons {b inner : Block} {i : Nat}
    (h : b.statements.toList[i]? = some (.block inner)) (a : Address) :
    b.numberAt (i :: a) = 1 + b.statements.blocksBefore i + inner.numberAt a := by
  rw [numberAt, child?_eq_some_iff.mpr h]

theorem length_numberedFrom (next : Nat) (b : Block) : (b.numberedFrom next).length = b.size := by
  rw [numberedFrom, List.length_cons, Statements.length_numbered, size]

end Block

namespace Statements

variable {s : Statements} {inner : Block} {i j : Nat}

@[simp] theorem blocksBefore_zero (s : Statements) : s.blocksBefore 0 = 0 := by
  simp [blocksBefore, blockCount]

@[simp] theorem blocksBefore_block_succ (header : Header) (inside rest : Statements) (i : Nat) :
    (block header inside rest).blocksBefore (i + 1) =
      inside.blockCount + 1 + rest.blocksBefore i := rfl

/-- The listing of a block stands in the listing of the sequence that it is a statement of, behind
the blocks of the statements before it. -/
theorem standsAt_numbered (h : s.toList[i]? = some (.block inner)) (next : Nat) :
    StandsAt (s.blocksBefore i) (inner.numberedFrom (next + s.blocksBefore i))
      (s.numbered next) := by
  induction s generalizing i next with
  | nil => cases h
  | sql text span rest ih =>
    cases i with
    | zero => cases h
    | succ i => exact ih h next
  | transfer kind r rest ih =>
    cases i with
    | zero => cases h
    | succ i => exact ih h next
  | block header inside rest _ ih =>
    cases i with
    | zero =>
      cases h
      exact (StandsAt.refl _).appendRight _
    | succ i =>
      -- The rest is numbered on behind the block with all that is inside it.
      have hrest := (ih h (next + 1 + inside.blockCount)).appendLeft
        (Block.numberedFrom next ⟨header, inside⟩)
      rw [Block.length_numberedFrom] at hrest
      have hnext : next + 1 + inside.blockCount + rest.blocksBefore i =
          next + (inside.blockCount + 1 + rest.blocksBefore i) := by omega
      rw [hnext] at hrest
      exact hrest

/-- The blocks of a statement all come before the later statements. -/
theorem blocksBefore_add_size_le (h : s.toList[i]? = some (.block inner)) (hij : i < j) :
    s.blocksBefore i + inner.size ≤ s.blocksBefore j := by
  obtain ⟨j, rfl⟩ : ∃ k, j = k + 1 := ⟨j - 1, by omega⟩
  induction s generalizing i j with
  | nil => cases h
  | sql text span rest ih =>
    cases i with
    | zero => cases h
    | succ i =>
      obtain ⟨j, rfl⟩ : ∃ k, j = k + 1 := ⟨j - 1, by omega⟩
      exact ih h _ (by omega)
  | transfer kind r rest ih =>
    cases i with
    | zero => cases h
    | succ i =>
      obtain ⟨j, rfl⟩ : ∃ k, j = k + 1 := ⟨j - 1, by omega⟩
      exact ih h _ (by omega)
  | block header inside rest _ ih =>
    cases i with
    | zero =>
      cases h
      simp [Block.size]
    | succ i =>
      obtain ⟨j, rfl⟩ : ∃ k, j = k + 1 := ⟨j - 1, by omega⟩
      have hrest := ih h _ (show i < j + 1 by omega)
      simp only [blocksBefore_block_succ]
      omega

/-- A number below the number of blocks of a sequence is that of a block of one of the
statements. -/
theorem exists_blocksBefore_le {n : Nat} (h : n < s.blockCount) :
    ∃ i inner, s.toList[i]? = some (.block inner) ∧ s.blocksBefore i ≤ n ∧
      n < s.blocksBefore i + inner.size := by
  induction s generalizing n with
  | nil => cases h
  | sql text span rest ih =>
    obtain ⟨i, inner, hi, hle, hlt⟩ := ih h
    exact ⟨i + 1, inner, hi, hle, hlt⟩
  | transfer kind r rest ih =>
    obtain ⟨i, inner, hi, hle, hlt⟩ := ih h
    exact ⟨i + 1, inner, hi, hle, hlt⟩
  | block header inside rest _ ih =>
    by_cases hn : n < inside.blockCount + 1
    · refine ⟨0, ⟨header, inside⟩, rfl, ?_, ?_⟩
      · rw [blocksBefore_zero]
        exact Nat.zero_le n
      · rw [blocksBefore_zero, Nat.zero_add]
        exact hn
    · -- The number is counted on behind the first block with all that is inside it.
      rw [blockCount] at h
      obtain ⟨i, inner, hi, hle, hlt⟩ := ih (n := n - (inside.blockCount + 1)) (by omega)
      refine ⟨i + 1, inner, hi, ?_, ?_⟩
      · rw [blocksBefore_block_succ]
        omega
      · rw [blocksBefore_block_succ]
        omega

end Statements

namespace Block

variable {b c : Block} {a a' q : Address}

/-- **The listing of an inner block is a stretch of the listing of the body,** and it begins at the
number of the block's address. -/
theorem standsAt_numberedFrom (h : b.at? a = some c) (next : Nat) :
    StandsAt (b.numberAt a) (c.numberedFrom (next + b.numberAt a)) (b.numberedFrom next) := by
  induction a generalizing b next with
  | nil =>
    cases h
    exact StandsAt.refl _
  | cons i a ih =>
    obtain ⟨inner, hi, hc⟩ := at?_cons_eq_some_iff.mp h
    have hstatement := (Statements.standsAt_numbered hi (next + 1)).appendLeft [(⟨next⟩, b)]
    have hinner := (ih hc (next + 1 + b.statements.blocksBefore i)).trans hstatement
    rw [numberAt_cons hi]
    have hnext : next + 1 + b.statements.blocksBefore i + inner.numberAt a =
        next + (1 + b.statements.blocksBefore i + inner.numberAt a) := by omega
    rw [hnext] at hinner
    exact hinner

/-- The block that the listing has under the number of an address is the block there. -/
theorem block?_numberAt (h : b.at? a = some c) : b.block? ⟨b.numberAt a⟩ = some c := by
  have hstands := (standsAt_numberedFrom h 0).getElem?
  unfold block?
  rw [blocks_eq_numbered]
  change (b.numberedFrom 0)[b.numberAt a]?.map Prod.snd = some c
  rw [hstands]
  rfl

/-- The blocks inside an inner block have numbers of the body. -/
theorem numberAt_add_size_le (h : b.at? a = some c) : b.numberAt a + c.size ≤ b.size := by
  have hle := (standsAt_numberedFrom h 0).length_le
  rw [length_numberedFrom, length_numberedFrom] at hle
  exact hle

/-- And so has the inner block itself. -/
theorem numberAt_lt_size (h : b.at? a = some c) : b.numberAt a < b.size := by
  have hle := numberAt_add_size_le h
  have hpos := size_pos c
  omega

/-- **The numbers are those of the pre-order.** They grow along the lexicographic order of
addresses, in which the way to a block comes before the ways further in. -/
theorem numberAt_lt_numberAt (ha : (b.at? a).isSome) (ha' : (b.at? a').isSome) (h : a < a') :
    b.numberAt a < b.numberAt a' := by
  obtain ⟨c, hc⟩ := Option.isSome_iff_exists.mp ha
  obtain ⟨c', hc'⟩ := Option.isSome_iff_exists.mp ha'
  induction h generalizing b with
  | nil =>
    obtain ⟨inner, hi, _⟩ := at?_cons_eq_some_iff.mp hc'
    rw [numberAt_nil, numberAt_cons hi]
    omega
  | @cons i a a' _ ih =>
    -- Both ways go into the same statement.
    obtain ⟨inner, hi, hc⟩ := at?_cons_eq_some_iff.mp hc
    obtain ⟨inner', hi', hc'⟩ := at?_cons_eq_some_iff.mp hc'
    obtain rfl : inner = inner' := by
      rw [hi] at hi'
      cases hi'
      rfl
    rw [numberAt_cons hi, numberAt_cons hi]
    have hlt := ih (Option.isSome_of_eq_some hc) (Option.isSome_of_eq_some hc') hc hc'
    omega
  | @rel i a j a' hij =>
    -- The second way goes into a later statement, behind all blocks of the first.
    obtain ⟨inner, hi, hc⟩ := at?_cons_eq_some_iff.mp hc
    obtain ⟨inner', hj, _⟩ := at?_cons_eq_some_iff.mp hc'
    rw [numberAt_cons hi, numberAt_cons hj]
    have hsize := Statements.blocksBefore_add_size_le hi hij
    have hinner := numberAt_lt_size hc
    omega

/-- The second statement of a body whose first one has a block inside. -/
example (h : Header) :
    (⟨h, .block h (.block h .nil .nil) (.block h .nil .nil)⟩ : Block).numberAt [1] = 3 := rfl

/-- Inside a block the numbers are counted on from its own. -/
theorem numberAt_append (hc : b.at? a = some c) (d : Address) :
    b.numberAt (a ++ d) = b.numberAt a + c.numberAt d := by
  induction a generalizing b with
  | nil =>
    cases hc
    rw [List.nil_append, numberAt_nil, Nat.zero_add]
  | cons j a ih =>
    obtain ⟨next, hj, hc⟩ := at?_cons_eq_some_iff.mp hc
    rw [List.cons_append, numberAt_cons hj, numberAt_cons hj, ih hc, ← Nat.add_assoc]

/-- The number of a block is counted on from that of the block around it. -/
theorem numberAt_concat {inner : Block} {i : Nat} (hc : b.at? a = some c)
    (hi : c.statements.toList[i]? = some (.block inner)) :
    b.numberAt (a ++ [i]) = b.numberAt a + 1 + c.statements.blocksBefore i := by
  rw [numberAt_append hc, numberAt_cons hi, numberAt_nil, Nat.add_zero, ← Nat.add_assoc]

/-- Two blocks of a body never have the same number. -/
theorem numberAt_injective (ha : (b.at? a).isSome) (ha' : (b.at? a').isSome)
    (h : b.numberAt a = b.numberAt a') : a = a' := by
  rcases lt_trichotomy a a' with hlt | heq | hgt
  · have := numberAt_lt_numberAt ha ha' hlt
    omega
  · exact heq
  · have := numberAt_lt_numberAt ha' ha hgt
    omega

/-- A block that is a statement has fewer blocks than the block around it. -/
theorem size_lt_of_child {b inner : Block} {i : Nat}
    (h : b.statements.toList[i]? = some (.block inner)) : inner.size < b.size := by
  have hat : b.at? [i] = some inner := at?_cons_eq_some_iff.mpr ⟨inner, h, rfl⟩
  have hle := numberAt_add_size_le hat
  rw [numberAt_cons h] at hle
  omega

/-- **Every number below the number of blocks is that of an address.** The way is found one
statement at a time, into ever smaller blocks. -/
theorem exists_numberAt_eq {n : Nat} (h : n < b.size) :
    ∃ a c, b.at? a = some c ∧ b.numberAt a = n := by
  induction hsize : b.size using Nat.strong_induction_on generalizing b n with
  | _ size ih =>
    cases n with
    | zero => exact ⟨[], b, rfl, rfl⟩
    | succ n =>
      obtain ⟨i, inner, hi, hle, hlt⟩ :=
        Statements.exists_blocksBefore_le (Nat.lt_of_succ_lt_succ h)
      obtain ⟨a, c, hc, hnumber⟩ := ih inner.size (hsize ▸ size_lt_of_child hi)
        (n := n - b.statements.blocksBefore i) (by omega) rfl
      refine ⟨i :: a, c, at?_cons_eq_some_iff.mpr ⟨inner, hi, hc⟩, ?_⟩
      rw [numberAt_cons hi, hnumber]
      omega

end Block

/-! ### Transfers -/

namespace Statements

/-- A transfer of a sequence is one of its statements, or a transfer of a block that is. -/
theorem mem_transfers_iff {s : Statements} {kind : TransferKind} {r : LabelReference} :
    (kind, r) ∈ s.transfers ↔
      .transfer kind r ∈ s.toList ∨
        ∃ inner : Block, .block inner ∈ s.toList ∧ (kind, r) ∈ inner.transfers := by
  induction s with
  | nil => simp [transfers, toList]
  | sql text span rest ih => simp [transfers, toList, ih]
  | transfer kind' r' rest ih => simp [transfers, toList, ih, or_assoc]
  | block header inside rest _ ih =>
    simp only [transfers, toList, List.mem_append, List.mem_cons, ih, reduceCtorEq, false_or,
      Statement.block.injEq, or_and_right, exists_or, exists_eq_left, Block.transfers]
    tauto

end Statements

namespace Block

/-- **The transfers of a body are its transfer statements,** at all addresses and places. -/
theorem mem_transfers_iff {b : Block} {kind : TransferKind} {r : LabelReference} :
    (kind, r) ∈ b.transfers ↔ ∃ a i, b.statement? a i = some (.transfer kind r) := by
  constructor
  · intro h
    -- The blocks inside a block are smaller, so that the way to the transfer is found in them.
    induction hn : b.size using Nat.strong_induction_on generalizing b with
    | _ n ih =>
      rcases Statements.mem_transfers_iff.mp h with hmem | ⟨inner, hmem, hr⟩
      · obtain ⟨i, hi⟩ := List.getElem?_of_mem hmem
        exact ⟨[], i, hi⟩
      · obtain ⟨j, hj⟩ := List.getElem?_of_mem hmem
        obtain ⟨a, i, hi⟩ := ih inner.size (hn ▸ size_lt_of_child hj) hr rfl
        refine ⟨j :: a, i, ?_⟩
        rw [statement?, at?_cons, child?_eq_some_iff.mpr hj]
        exact hi
  · rintro ⟨a, i, h⟩
    obtain ⟨c, hc, hi⟩ := Option.bind_eq_some_iff.mp h
    induction a generalizing b with
    | nil =>
      cases hc
      exact Statements.mem_transfers_iff.mpr (.inl (List.mem_of_getElem? hi))
    | cons j a ih =>
      obtain ⟨inner, hj, hc⟩ := at?_cons_eq_some_iff.mp hc
      refine Statements.mem_transfers_iff.mpr (.inr ⟨inner, List.mem_of_getElem? hj, ?_⟩)
      exact ih (Option.bind_eq_some_iff.mpr ⟨c, hc, hi⟩) hc

end Block

end LabelCheck
