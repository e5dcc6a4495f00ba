import LabelCheck.Block.Walk

/-!
# Procedures

A procedure whose labels are to be checked: its name, its body, and the text that the spans of
the body point into where that text is known.

* `Procedure`: the data;
* `Procedure.block?`, `Procedure.transfers`: look-ups in the body;
* `Procedure.resetResolutions`, `Procedure.settleAt`, `Procedure.resetAt`: changes to what is known
  of its references, all at once or one by one.
-/

namespace LabelCheck

/-- A procedure as it is handed over for validation. -/
structure Procedure where
  name : String
  /-- The text that spans point into. -/
  source : Option String := none
  body : Block
  /-- The number under which a report knows the text. -/
  sourceId : Nat := 0
  deriving DecidableEq, Repr

namespace Procedure

/-- The block with a number. -/
def block? (p : Procedure) (id : BlockId) : Option Block := p.body.block? id

/-- The control transfers of the body, in source order. -/
def transfers (p : Procedure) : List (TransferKind × LabelReference) := p.body.transfers

/-- Each transfer with its target and what is known of it, in source order. -/
def resolutions (p : Procedure) : List (TransferKind × Identifier × Resolution) :=
  p.transfers.map fun (kind, r) => (kind, r.target, r.resolution)

/-- Forget what is known of every reference. -/
def resetResolutions (p : Procedure) : Procedure := { p with body := p.body.reset }

/-- Settle the transfer with number `n`. The answer holds the resolution of the reference
afterwards, and the one it held if it refused; it is `none` when there is no such transfer. -/
def settleAt (p : Procedure) (n : Nat) (outcome : Option BlockId) :
    Procedure × Option (Resolution × Option Resolution) :=
  let (body, answer) := p.body.modifyTransfer n fun r =>
    match r.settle outcome with
    | .ok r' => (r', (r'.resolution, none))
    | .error held => (r, (r.resolution, some held))
  ({ p with body }, answer)

/-- Reset the transfer with number `n`; the answer is its resolution afterwards. -/
def resetAt (p : Procedure) (n : Nat) : Procedure × Option Resolution :=
  let (body, answer) := p.body.modifyTransfer n fun r => (r.reset, r.reset.resolution)
  ({ p with body }, answer)

end Procedure

end LabelCheck
