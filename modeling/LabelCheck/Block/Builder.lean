import LabelCheck.Block.Basic

/-!
# Writing a body statement by statement

The blocks that have been opened and not yet closed, while a body is written down in source order.
Closing a block makes it a statement of the block around it, or, without one, the finished body.

* `OpenBlock`: a block that is still being written;
* `Builder`: the open blocks, the innermost first;
* `Builder.enter`, `Builder.append`, `Builder.close`: the steps.
-/

namespace LabelCheck

/-- A block that is still being written: what it says of itself, and its statements so far, the
latest first, so that a further one is put in front. -/
structure OpenBlock where
  header : Header
  latest : List Statement := []
  /-- The number of statements so far. -/
  count : Nat := 0
  deriving DecidableEq, Repr

namespace OpenBlock

/-- Write one more statement. -/
def push (b : OpenBlock) (s : Statement) : OpenBlock :=
  { b with latest := s :: b.latest, count := b.count + 1 }

/-- The block with what has been written. -/
def block (b : OpenBlock) : Block := ⟨b.header, .ofList b.latest.reverse⟩

end OpenBlock

/-- The blocks that are open, the innermost first. -/
structure Builder where
  blocks : List OpenBlock := []
  /-- How many blocks are open. -/
  height : Nat := 0
  deriving DecidableEq, Repr

namespace Builder

/-- Open a block inside the innermost one. -/
def enter (b : Builder) (header : Header) : Builder := ⟨{ header } :: b.blocks, b.height + 1⟩

/-- Append a statement to the innermost block; the answer is how many it has then. Without an open
block there is no answer. -/
def append (b : Builder) (s : Statement) : Option (Builder × Nat) :=
  match b.blocks with
  | [] => none
  | top :: rest =>
    let top := top.push s
    some ({ b with blocks := top :: rest }, top.count)

/-- Close the innermost block: the builder afterwards, and the finished body if the block was the
last one. Without an open block there is no answer. -/
def close (b : Builder) : Option (Builder × Option Block) :=
  match b.blocks with
  | [] => none
  | [last] => some ({}, some last.block)
  | top :: below :: rest =>
    some (⟨below.push (.block top.block) :: rest, b.height - 1⟩, none)

end Builder

end LabelCheck
