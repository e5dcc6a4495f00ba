/-!
# Kinds of blocks

The constructs of procedural SQL that hold statements of their own, with what their text carries.
Only some of them repeat their statements, and only some may be labelled.

* `BlockKind`: a construct with its conditions;
* `Construct`: the construct alone, as a message names it;
* `BlockKind.isIteration`, `BlockKind.acceptsLabel`: what a label on the construct may be used for.
-/

namespace LabelCheck

/-- The construct a block is written as. -/
inductive BlockKind where
  /-- `BEGIN … END` -/
  | beginEnd
  /-- `WHILE condition DO … END WHILE` -/
  | whileDo (condition : String)
  /-- `LOOP … END LOOP` -/
  | loop
  /-- `REPEAT … UNTIL condition END REPEAT` -/
  | repeatUntil (condition : String)
  /-- `IF … END IF`, each arm a `branch` inside it -/
  | ifThen
  /-- `CASE [operand] … END CASE`, each arm a `branch` inside it -/
  | caseOf (operand : Option String)
  /-- One arm of an `IF` or a `CASE`; the arm of an `ELSE` has no condition. -/
  | branch (condition : Option String)
  deriving DecidableEq, Repr

/-- A kind of block without its conditions: what a message can say of it. -/
inductive Construct where
  | beginEnd
  | whileLoop
  | loop
  | repeatLoop
  | ifStatement
  | caseStatement
  | conditionalBranch
  | elseBranch
  deriving DecidableEq, Repr

/-- The name of a construct in a message. -/
def Construct.describe : Construct → String
  | beginEnd => "BEGIN ... END block"
  | whileLoop => "WHILE loop"
  | loop => "LOOP"
  | repeatLoop => "REPEAT loop"
  | ifStatement => "IF statement"
  | caseStatement => "CASE statement"
  | conditionalBranch => "conditional branch"
  | elseBranch => "ELSE branch"

instance : ToString Construct := ⟨Construct.describe⟩

namespace BlockKind

/-- The construct that a kind is an instance of. -/
def construct : BlockKind → Construct
  | .beginEnd => .beginEnd
  | .whileDo _ => .whileLoop
  | .loop => .loop
  | .repeatUntil _ => .repeatLoop
  | .ifThen => .ifStatement
  | .caseOf _ => .caseStatement
  | .branch (some _) => .conditionalBranch
  | .branch none => .elseBranch

/-- The name of a kind in a message. -/
def describe (k : BlockKind) : String := k.construct.describe

/-- Whether the block repeats its statements, so that `ITERATE` may name it. -/
def isIteration : BlockKind → Bool
  | .whileDo _ | .loop | .repeatUntil _ => true
  | .beginEnd | .ifThen | .caseOf _ | .branch _ => false

/-- Whether the block may carry a label. -/
def acceptsLabel : BlockKind → Bool
  | .beginEnd | .whileDo _ | .loop | .repeatUntil _ => true
  | .ifThen | .caseOf _ | .branch _ => false

end BlockKind

end LabelCheck
