import LabelCheck.Proofs.Frame

/-!
# Changing every transfer

A body is walked in two ways for its transfers: one walk lists them, the other changes them and
hands a state from each change to the next. The two are recursions of their own over the same tree.
This module shows that they meet the same transfers in the same order, and that the second leaves
all else alone.

* `TransferUpdate`: a change of one transfer, with the state before and after it;
* `TransferUpdate.along`: a list of transfers changed from left to right;
* `TransferUpdate.logged`: the same change, with a record of what it has been called with;
* `Block.UpdatedAlong`: what the changing walk has to make of a body, and
  `Block.updatedAlong_updateTransfers` that it does.

What the walk keeps is said by `Block.SameFrame`: the blocks and their numbers, the other
statements, and the place of every transfer. What becomes of the references is said by
`TransferUpdate.along` alone, without a tree.
-/

namespace LabelCheck

variable {σ : Type}

/-! ### Changes of one transfer, and of a list of transfers -/

/-- **A change of a transfer.** From the kind of the statement, its reference and the state at hand
come the reference that takes its place and the state for the next change. -/
abbrev TransferUpdate (σ : Type) := TransferKind → LabelReference → σ → LabelReference × σ

namespace TransferUpdate

variable (f : TransferUpdate σ)

/-- **A list of transfers changed from left to right.** The statements keep their kinds. -/
def along (ts : List (TransferKind × LabelReference)) (st : σ) :
    List (TransferKind × LabelReference) × σ :=
  (ts.mapM (m := StateM σ) fun (kind, r) st =>
    let (r, st) := f kind r st
    ((kind, r), st)) st

/-- The same change, with a record of the transfers that it has been called with, the latest
last. -/
def logged : TransferUpdate (σ × List (TransferKind × LabelReference)) :=
  fun kind r (st, calls) =>
    let (r', st) := f kind r st
    (r', st, calls ++ [(kind, r)])

theorem along_nil (st : σ) : f.along [] st = ([], st) := rfl

theorem along_cons (kind : TransferKind) (r : LabelReference)
    (ts : List (TransferKind × LabelReference)) (st : σ) :
    f.along ((kind, r) :: ts) st =
      ((kind, (f kind r st).1) :: (f.along ts (f kind r st).2).1,
        (f.along ts (f kind r st).2).2) := by
  rw [along, List.mapM_cons]
  rfl

/-- Of two lists the second is changed from the state on that the first ends with. -/
theorem along_append (ts us : List (TransferKind × LabelReference)) (st : σ) :
    f.along (ts ++ us) st =
      ((f.along ts st).1 ++ (f.along us (f.along ts st).2).1,
        (f.along us (f.along ts st).2).2) := by
  induction ts generalizing st with
  | nil => rw [List.nil_append, along_nil, List.nil_append]
  | cons t ts ih => rw [List.cons_append, along_cons, ih, along_cons, List.cons_append]

/-- Without a state each transfer is changed on its own. -/
theorem along_stateless (g : TransferKind → LabelReference → LabelReference)
    (ts : List (TransferKind × LabelReference)) (st : σ) :
    along (fun kind r st => (g kind r, st)) ts st = (ts.map fun t => (t.1, g t.1 t.2), st) := by
  induction ts with
  | nil => rfl
  | cons t ts ih => rw [along_cons, ih, List.map_cons]

end TransferUpdate

/-! ### The walk and the list -/

namespace Statements

variable (f : TransferUpdate σ)

theorem updateTransfers_sql (text : String) (span : Option Span) (rest : Statements) (st : σ) :
    (sql text span rest).updateTransfers f st =
      (sql text span (rest.updateTransfers f st).1, (rest.updateTransfers f st).2) := rfl

/-- The rest is changed from the state on that the change of the transfer hands on. -/
theorem updateTransfers_transfer (kind : TransferKind) (r : LabelReference) (rest : Statements)
    (st : σ) :
    (transfer kind r rest).updateTransfers f st =
      (transfer kind (f kind r st).1 (rest.updateTransfers f (f kind r st).2).1,
        (rest.updateTransfers f (f kind r st).2).2) := rfl

/-- The rest is changed from the state on that the inside of the block ends with. -/
theorem updateTransfers_block (header : Header) (inner rest : Statements) (st : σ) :
    (block header inner rest).updateTransfers f st =
      (block header (inner.updateTransfers f st).1
          (rest.updateTransfers f (inner.updateTransfers f st).2).1,
        (rest.updateTransfers f (inner.updateTransfers f st).2).2) := rfl

/-- **The two walks agree.** Changing the transfers of a sequence and then listing them is listing
them and then changing the list. The induction carries any state, for the walk comes to the rest of
a sequence with what the inside of a block has made of it. -/
theorem transfers_updateTransfers (s : Statements) (st : σ) :
    ((s.updateTransfers f st).1.transfers, (s.updateTransfers f st).2) =
      f.along s.transfers st := by
  induction s generalizing st with
  | nil => rfl
  | sql text span rest ih => exact ih st
  | transfer kind r rest ih =>
    rw [updateTransfers_transfer, transfers, transfers, TransferUpdate.along_cons, ← ih]
  | block header inner rest ihInner ihRest =>
    rw [updateTransfers_block, transfers, transfers, TransferUpdate.along_append, ← ihInner,
      ← ihRest]

/-- **The calls of the walk** are the transfers in their order, each once. Keeping a record of them
does not change what the walk does. -/
theorem updateTransfers_logged (s : Statements) (st : σ)
    (calls : List (TransferKind × LabelReference)) :
    s.updateTransfers f.logged (st, calls) =
      ((s.updateTransfers f st).1, (s.updateTransfers f st).2, calls ++ s.transfers) := by
  induction s generalizing st calls with
  | nil => rw [transfers, List.append_nil]; rfl
  | sql text span rest ih => rw [updateTransfers_sql, updateTransfers_sql, ih, transfers]
  | transfer kind r rest ih =>
    have hcall : f.logged kind r (st, calls) =
        ((f kind r st).1, (f kind r st).2, calls ++ [(kind, r)]) := rfl
    rw [updateTransfers_transfer, updateTransfers_transfer, hcall, ih, transfers,
      List.append_assoc, List.singleton_append]
  | block header inner rest ihInner ihRest =>
    rw [updateTransfers_block, updateTransfers_block, ihInner, ihRest, transfers,
      List.append_assoc]

end Statements

/-- **A walk changes references and nothing else.** -/
theorem Statements.sameFrame_updateTransfers (f : TransferUpdate σ) (s : Statements) (st : σ) :
    s.SameFrame (s.updateTransfers f st).1 := by
  induction s generalizing st with
  | nil => exact .nil
  | sql text span rest ih => exact .sql text span (ih st)
  | transfer kind r rest ih => exact .transfer kind r (f kind r st).1 (ih _)
  | block header inner rest ihInner ihRest => exact .block header (ihInner st) (ihRest _)

/-! ### The walk over a body -/

namespace Block

/-- A walk over a body changes references and nothing else. -/
theorem sameFrame_updateTransfers (f : TransferUpdate σ) (b : Block) (st : σ) :
    b.SameFrame (b.updateTransfers f st).1 :=
  ⟨rfl, b.statements.sameFrame_updateTransfers f st⟩

/-- **A body whose transfers have been changed.** `b` and the state `st` have become `b'` and `st'`
by a walk with the change `f`. -/
structure UpdatedAlong (f : TransferUpdate σ) (b : Block) (st : σ) (b' : Block) (st' : σ) :
    Prop where
  /-- The transfers afterwards are those before, changed from left to right. -/
  along_eq : (b'.transfers, st') = f.along b.transfers st
  /-- The walk calls for a change of each of the transfers once, in the order of their listing. -/
  logged_eq : b.updateTransfers f.logged (st, []) = (b', st', b.transfers)
  /-- These are all transfers at any depth, in source order. -/
  lists : b.ListsTransfers b.transferPlaces
  places : List.Forall₂ (fun place t => b.statement? place.1 place.2 = some (.transfer t.1 t.2))
    b.transferPlaces b.transfers
  /-- The transfers afterwards stand in the same places, one by one. -/
  places_after :
    List.Forall₂ (fun place t => b'.statement? place.1 place.2 = some (.transfer t.1 t.2))
      b.transferPlaces b'.transfers
  /-- The blocks say of themselves what they said, and the SQL statements are the same. -/
  sameFrame : b.SameFrame b'
  /-- Every statement has the place that it had. -/
  statement?_rel : ∀ a i,
    Option.Rel Statement.SameFrame (b.statement? a i) (b'.statement? a i)
  /-- Every block has the number that it had, told by its address, -/
  numberAt_eq : ∀ a, b'.numberAt a = b.numberAt a
  /-- and by the listing. -/
  blocks_eq :
    b'.blocks.map (fun (id, c) => (id, c.header)) = b.blocks.map fun (id, c) => (id, c.header)

/-- **The walk that changes the transfers agrees with the one that lists them,** whatever the
change, and whatever state it carries along. -/
theorem updatedAlong_updateTransfers (f : TransferUpdate σ) (b : Block) (st : σ) :
    b.UpdatedAlong f st (b.updateTransfers f st).1 (b.updateTransfers f st).2 := by
  have hframe := b.sameFrame_updateTransfers f st
  constructor
  case along_eq => exact b.statements.transfers_updateTransfers f st
  case logged_eq =>
    have hcalls := b.statements.updateTransfers_logged f st []
    rw [List.nil_append] at hcalls
    rw [updateTransfers, hcalls]
    rfl
  case lists => exact b.listsTransfers_transferPlaces
  case places => exact b.forall₂_transferPlaces
  case places_after =>
    rw [← hframe.transferPlaces_eq]
    exact (b.updateTransfers f st).1.forall₂_transferPlaces
  case sameFrame => exact hframe
  case statement?_rel => exact hframe.statement?
  case numberAt_eq => exact hframe.numberAt_eq
  case blocks_eq => exact hframe.map_header_blocks_eq

end Block

end LabelCheck
