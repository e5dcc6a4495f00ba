import LabelCheck.Block.Basic

/-!
# Walks over a body

The two walks that everything else is built on: the blocks of a body with their numbers, and the
control transfers of a body in source order. Each comes twice, once as a listing to read from and
once as a way to change what it visits.

* `Block.blocks`: the pre-order listing, made with a stack of blocks still to visit;
* `Statements.numbered`: the same listing by recursion, with `Block.blocks_eq_numbered` as the law
  that ties the two;
* `Block.transfers`: the transfers, and `Block.updateTransfers` to change them one by one with a
  state that is carried along;
* `Block.reset`: forget what is known of all transfers;
* `Block.modifyBlock`, `Block.modifyTransfer`: change the block or the transfer with a number.
-/

namespace LabelCheck

namespace Block

/-- Visit the blocks on `stack`, the top first and each before its children, numbering them
from `next` on. -/
def walk (stack : List Block) (next : Nat) : List (BlockId × Block) :=
  match stack with
  | [] => []
  | b :: rest => (⟨next⟩, b) :: walk (b.children ++ rest) (next + 1)
termination_by totalSize stack
decreasing_by
  simp only [totalSize_append, totalSize, children, totalSize_childBlocks, size]
  omega

/-- The block and all blocks inside it in pre-order, each with its number. -/
def blocks (b : Block) : List (BlockId × Block) := walk [b] 0

/-- The block with a number. -/
def block? (b : Block) (id : BlockId) : Option Block := (b.blocks[id.index]?).map Prod.snd

theorem walk_nil (next : Nat) : walk [] next = [] := by rw [walk]

theorem walk_cons (b : Block) (rest : List Block) (next : Nat) :
    walk (b :: rest) next = (⟨next⟩, b) :: walk (b.children ++ rest) (next + 1) := by rw [walk]

end Block

namespace Statements

/-- The blocks at all depths of a sequence, each before its own and numbered from `next` on. -/
def numbered : (next : Nat) → Statements → List (BlockId × Block)
  | _, nil => []
  | next, sql _ _ rest => rest.numbered next
  | next, transfer _ _ rest => rest.numbered next
  | next, block header inner rest =>
    (⟨next⟩, ⟨header, inner⟩) ::
      inner.numbered (next + 1) ++ rest.numbered (next + 1 + inner.blockCount)

/-- Every block is numbered. -/
theorem length_numbered (next : Nat) (s : Statements) :
    (s.numbered next).length = s.blockCount := by
  induction s generalizing next with
  | nil => rfl
  | sql _ _ rest ih => exact ih next
  | transfer _ _ rest ih => exact ih next
  | block header inner rest ihInner ihRest =>
    simp only [numbered, List.cons_append, List.length_cons, List.length_append, ihInner, ihRest,
      blockCount]
    omega

/-- What the blocks at all depths of a sequence say of themselves, in pre-order. -/
def headers : Statements → List Header
  | nil => []
  | sql _ _ rest => rest.headers
  | transfer _ _ rest => rest.headers
  | block header inner rest => header :: (inner.headers ++ rest.headers)

@[simp] theorem length_headers (s : Statements) : s.headers.length = s.blockCount := by
  induction s with
  | nil => rfl
  | sql _ _ rest ih => exact ih
  | transfer _ _ rest ih => exact ih
  | block header inner rest ihInner ihRest =>
    simp only [headers, List.length_cons, List.length_append, ihInner, ihRest, blockCount]
    omega

theorem map_header_numbered (next : Nat) (s : Statements) :
    (s.numbered next).map (fun entry => entry.2.header) = s.headers := by
  induction s generalizing next with
  | nil => rfl
  | sql _ _ rest ih => exact ih next
  | transfer _ _ rest ih => exact ih next
  | block header inner rest ihInner ihRest => simp [numbered, headers, ihInner, ihRest]

end Statements

namespace Block

/-- The walk lists the blocks of a sequence before it goes on with its stack. -/
theorem walk_childBlocks (s : Statements) (stack : List Block) (next : Nat) :
    walk (s.childBlocks ++ stack) next = s.numbered next ++ walk stack (next + s.blockCount) := by
  induction s generalizing stack next with
  | nil => simp [Statements.childBlocks, Statements.numbered, Statements.blockCount]
  | sql _ _ rest ih => exact ih stack next
  | transfer _ _ rest ih => exact ih stack next
  | block header inner rest ihInner ihRest =>
    -- The children of the block go on the stack in front of the blocks behind it.
    simp only [Statements.childBlocks, List.cons_append, walk_cons, children,
      Statements.numbered, Statements.blockCount, ihInner, ihRest, List.append_assoc]
    congr 4
    omega

/-- The listing by a stack is the listing by recursion. -/
theorem blocks_eq_numbered (b : Block) : b.blocks = (.root, b) :: b.statements.numbered 1 := by
  have h := walk_childBlocks b.statements [] 1
  simp only [walk_nil, List.append_nil] at h
  simp [blocks, walk_cons, children, h, BlockId.root]

/-- What the block with a number says of itself stands under this number in the pre-order. -/
theorem header_block? (b : Block) (id : BlockId) :
    (b.block? id).map Block.header = (b.header :: b.statements.headers)[id.index]? := by
  rw [block?, blocks_eq_numbered, Option.map_map, ← Statements.map_header_numbered 1,
    ← List.getElem?_map]
  rfl

end Block

namespace Statements

theorem headers_append (s t : Statements) : (s ++ t).headers = s.headers ++ t.headers := by
  induction s with
  | nil => rfl
  | sql _ _ rest ih => exact ih
  | transfer _ _ rest ih => exact ih
  | block header inner rest _ ih => simp only [block_append, headers, ih, List.cons_append,
      List.append_assoc]

/-- The control transfers at all depths, in source order. -/
def transfers : Statements → List (TransferKind × LabelReference)
  | nil => []
  | sql _ _ rest => rest.transfers
  | transfer kind reference rest => (kind, reference) :: rest.transfers
  | block _ inner rest => inner.transfers ++ rest.transfers

theorem transfers_append (s t : Statements) :
    (s ++ t).transfers = s.transfers ++ t.transfers := by
  induction s with
  | nil => rfl
  | sql _ _ rest ih => exact ih
  | transfer kind r rest ih => simp only [transfer_append, transfers, ih, List.cons_append]
  | block header inner rest _ ih => simp only [block_append, transfers, ih, List.append_assoc]

/-- Change every reference in source order, handing a state from one to the next. -/
def updateTransfers {σ : Type} (f : TransferKind → LabelReference → σ → LabelReference × σ) :
    Statements → σ → Statements × σ
  | nil, s => (nil, s)
  | sql text span rest, s =>
    let (rest, s) := rest.updateTransfers f s
    (sql text span rest, s)
  | transfer kind reference rest, s =>
    let (reference, s) := f kind reference s
    let (rest, s) := rest.updateTransfers f s
    (transfer kind reference rest, s)
  | block header inner rest, s =>
    let (inner, s) := inner.updateTransfers f s
    let (rest, s) := rest.updateTransfers f s
    (block header inner rest, s)

/-- Forget what is known of every reference. -/
def reset (s : Statements) : Statements :=
  (s.updateTransfers (fun _ r (_ : Unit) => (r.reset, ())) ()).1

@[simp] theorem reset_nil : nil.reset = nil := rfl

@[simp] theorem reset_sql (text : String) (span : Option Span) (rest : Statements) :
    (sql text span rest).reset = sql text span rest.reset := rfl

@[simp] theorem reset_transfer (kind : TransferKind) (r : LabelReference) (rest : Statements) :
    (transfer kind r rest).reset = transfer kind r.reset rest.reset := rfl

@[simp] theorem reset_block (header : Header) (inner rest : Statements) :
    (block header inner rest).reset = block header inner.reset rest.reset := rfl

/-- Change the block with number `n` among the blocks at all depths. -/
def modifyBlock (f : Block → Block) : Statements → Nat → Statements
  | nil, _ => nil
  | sql text span rest, n => sql text span (rest.modifyBlock f n)
  | transfer kind reference rest, n => transfer kind reference (rest.modifyBlock f n)
  | block header inner rest, 0 =>
    let b := f ⟨header, inner⟩
    block b.header b.statements rest
  | block header inner rest, n + 1 =>
    if n < inner.blockCount then block header (inner.modifyBlock f n) rest
    else block header inner (rest.modifyBlock f (n - inner.blockCount))

end Statements

namespace Block

/-- The control transfers inside the block, in source order. -/
def transfers (b : Block) : List (TransferKind × LabelReference) := b.statements.transfers

/-- Change every reference inside the block in source order, with a state carried along. -/
def updateTransfers {σ : Type} (f : TransferKind → LabelReference → σ → LabelReference × σ)
    (b : Block) (s : σ) : Block × σ :=
  let (statements, s) := b.statements.updateTransfers f s
  ({ b with statements }, s)

/-- Forget what is known of every reference inside the block. -/
def reset (b : Block) : Block := { b with statements := b.statements.reset }

/-- Change the block with a number; without such a block nothing changes. -/
def modifyBlock (b : Block) (id : BlockId) (f : Block → Block) : Block :=
  match id.index with
  | 0 => f b
  | n + 1 => { b with statements := b.statements.modifyBlock f n }

/-- Change the transfer with number `n` in source order, and say what the change answered;
`none` when there is no such transfer. -/
def modifyTransfer {α : Type} (b : Block) (n : Nat) (f : LabelReference → LabelReference × α) :
    Block × Option α :=
  let visit (_ : TransferKind) (r : LabelReference) (s : Nat × Option α) :=
    if s.1 = n then
      let (r, answer) := f r
      (r, (s.1 + 1, some answer))
    else (r, (s.1 + 1, s.2))
  let (b, s) := b.updateTransfers visit (0, none)
  (b, s.2)

end Block

end LabelCheck
