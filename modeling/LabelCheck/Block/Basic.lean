import LabelCheck.BlockKind
import LabelCheck.Reference

/-!
# Blocks and their statements

A procedure body is a tree of blocks. The statements of a block form a sequence whose items are
SQL text, a control transfer or a nested block; `Statements` is that sequence as one inductive
type, in which the rest of the sequence and the inside of a nested block are both direct parts.
Every analysis of a body is then one structural recursion with two recursive calls at a block,
and every law about it one induction.

* `Header`: what a block says of itself, apart from its statements;
* `Statements`, `Block`: the tree, with `Statement` for a single item and `Statements.toList` for
  the sequence as a list of items;
* `Statements.blockCount`, `Block.size`: how many blocks there are at all depths;
* `Statements.childBlocks`: the blocks of one level.
-/

namespace LabelCheck

/-- What a block says of itself: the construct, the labels before and after it, and its place. -/
structure Header where
  kind : BlockKind
  label : Option Identifier := none
  endLabel : Option Identifier := none
  span : Option Span := none
  deriving DecidableEq, Repr

/-- A sequence of statements, in source order. -/
inductive Statements where
  | nil
  /-- An SQL statement, whose text is not looked into. -/
  | sql (text : String) (span : Option Span) (rest : Statements)
  /-- A `LEAVE` or `ITERATE`. -/
  | transfer (kind : TransferKind) (reference : LabelReference) (rest : Statements)
  /-- A nested block with its own statements. -/
  | block (header : Header) (inner : Statements) (rest : Statements)
  deriving DecidableEq, Repr

/-- A block: what it says of itself, and its statements. -/
structure Block where
  header : Header
  statements : Statements
  deriving DecidableEq, Repr

/-- A single statement. -/
inductive Statement where
  | sql (text : String) (span : Option Span)
  | transfer (kind : TransferKind) (reference : LabelReference)
  | block (block : Block)
  deriving DecidableEq, Repr

namespace Statements

instance : Inhabited Statements := ⟨nil⟩

/-- Put a statement before a sequence. -/
def cons : Statement → Statements → Statements
  | .sql text span, rest => sql text span rest
  | .transfer kind reference, rest => transfer kind reference rest
  | .block b, rest => block b.header b.statements rest

/-- The items of one level. -/
def toList : Statements → List Statement
  | nil => []
  | sql text span rest => .sql text span :: rest.toList
  | transfer kind reference rest => .transfer kind reference :: rest.toList
  | block header inner rest => .block ⟨header, inner⟩ :: rest.toList

/-- The sequence with the given items. -/
def ofList (items : List Statement) : Statements := items.foldr cons nil

@[simp] theorem ofList_nil : ofList [] = nil := rfl

@[simp] theorem ofList_cons (item : Statement) (items : List Statement) :
    ofList (item :: items) = cons item (ofList items) := rfl

@[simp] theorem toList_cons (item : Statement) (rest : Statements) :
    (cons item rest).toList = item :: rest.toList := by
  cases item <;> rfl

@[simp] theorem toList_ofList (items : List Statement) : (ofList items).toList = items := by
  induction items with
  | nil => rfl
  | cons item items ih => simp [ih]

@[simp] theorem ofList_toList (s : Statements) : ofList s.toList = s := by
  induction s with
  | nil => rfl
  | sql text span rest ih => simp [toList, cons, ih]
  | transfer kind reference rest ih => simp [toList, cons, ih]
  | block header inner rest _ ih => simp [toList, cons, ih]

/-- One sequence after another. -/
def append : Statements → Statements → Statements
  | nil, t => t
  | sql text span rest, t => sql text span (rest.append t)
  | transfer kind reference rest, t => transfer kind reference (rest.append t)
  | block header inner rest, t => block header inner (rest.append t)

instance : Append Statements := ⟨append⟩

@[simp] theorem nil_append (t : Statements) : nil ++ t = t := rfl

@[simp] theorem sql_append (text : String) (span : Option Span) (rest t : Statements) :
    sql text span rest ++ t = sql text span (rest ++ t) := rfl

@[simp] theorem transfer_append (kind : TransferKind) (r : LabelReference)
    (rest t : Statements) : transfer kind r rest ++ t = transfer kind r (rest ++ t) := rfl

@[simp] theorem block_append (header : Header) (inner rest t : Statements) :
    block header inner rest ++ t = block header inner (rest ++ t) := rfl

@[simp] theorem toList_append (s t : Statements) : (s ++ t).toList = s.toList ++ t.toList := by
  show (s.append t).toList = _
  induction s with
  | nil => rfl
  | sql text span rest ih => simp [append, toList, ih]
  | transfer kind reference rest ih => simp [append, toList, ih]
  | block header inner rest _ ih => simp [append, toList, ih]

theorem append_assoc (s t u : Statements) : s ++ t ++ u = s ++ (t ++ u) := by
  rw [← ofList_toList (s ++ t ++ u), ← ofList_toList (s ++ (t ++ u))]
  simp only [toList_append, List.append_assoc]

theorem ofList_append (xs ys : List Statement) :
    ofList (xs ++ ys) = ofList xs ++ ofList ys := by
  rw [← ofList_toList (ofList xs ++ ofList ys), toList_append, toList_ofList, toList_ofList]

/-- The number of items of one level. -/
def length (s : Statements) : Nat := s.toList.length

/-- The number of blocks at all depths. -/
def blockCount : Statements → Nat
  | nil => 0
  | sql _ _ rest => rest.blockCount
  | transfer _ _ rest => rest.blockCount
  | block _ inner rest => inner.blockCount + 1 + rest.blockCount

@[simp] theorem blockCount_append (s t : Statements) :
    (s ++ t).blockCount = s.blockCount + t.blockCount := by
  show (s.append t).blockCount = _
  induction s with
  | nil => simp [append, blockCount]
  | sql text span rest ih => simp [append, blockCount, ih]
  | transfer kind reference rest ih => simp [append, blockCount, ih]
  | block header inner rest _ ih => simp [append, blockCount, ih, Nat.add_assoc]

/-- The blocks among the items of one level. -/
def childBlocks : Statements → List Block
  | nil => []
  | sql _ _ rest => rest.childBlocks
  | transfer _ _ rest => rest.childBlocks
  | block header inner rest => ⟨header, inner⟩ :: rest.childBlocks

end Statements

namespace Block

/-- A block of a kind without labels, place or statements. -/
def ofKind (kind : BlockKind) : Block := ⟨{ kind }, .nil⟩

/-- The construct the block is written as. -/
def kind (b : Block) : BlockKind := b.header.kind

/-- The label before the block. -/
def label (b : Block) : Option Identifier := b.header.label

/-- The block with one more statement at its end. -/
def push (b : Block) (s : Statement) : Block :=
  { b with statements := b.statements ++ Statements.ofList [s] }

/-- The blocks directly inside, in source order. -/
def children (b : Block) : List Block := b.statements.childBlocks

/-- The number of blocks: this one and all inside it. -/
def size (b : Block) : Nat := b.statements.blockCount + 1

theorem size_pos (b : Block) : 0 < b.size := Nat.succ_pos _

/-- The number of blocks in a list of blocks, with all inside them. -/
def totalSize : List Block → Nat
  | [] => 0
  | b :: rest => b.size + totalSize rest

@[simp] theorem totalSize_append (xs ys : List Block) :
    totalSize (xs ++ ys) = totalSize xs + totalSize ys := by
  induction xs with
  | nil => simp [totalSize]
  | cons b rest ih => simp [totalSize, ih, Nat.add_assoc]

/-- All blocks of a sequence are its blocks of the first level, each with those inside it. -/
theorem totalSize_childBlocks (s : Statements) : totalSize s.childBlocks = s.blockCount := by
  induction s with
  | nil => rfl
  | sql _ _ rest ih => exact ih
  | transfer _ _ rest ih => exact ih
  | block header inner rest _ ih =>
    simp [Statements.childBlocks, Statements.blockCount, totalSize, size, ih]

end Block

end LabelCheck
