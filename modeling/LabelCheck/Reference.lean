import LabelCheck.Identifier
import LabelCheck.Span

/-!
# Label references

The label that a `LEAVE` or `ITERATE` statement names, and what has been found out about it. A
reference is settled at most once between two resets: a second attempt is refused and changes
nothing.

* `BlockId`: a block by its place in the pre-order walk of a procedure body;
* `Resolution`: what is known of a reference;
* `LabelReference.settle`, `LabelReference.reset`: the two ways to change that.
-/

namespace LabelCheck

/-- A block of a procedure body, by its place in the pre-order walk; the outermost block is 0. -/
structure BlockId where
  index : Nat
  deriving DecidableEq, Repr

namespace BlockId

/-- The outermost block. -/
def root : BlockId := ⟨0⟩

/-- The written form of a block number. -/
def text (id : BlockId) : String := s!"#{id.index}"

instance : ToString BlockId := ⟨text⟩

theorem toList_text (id : BlockId) : id.text.toList = '#' :: Nat.toDigits 10 id.index := by
  show ("#" ++ id.index.repr).toList = _
  rw [String.toList_append, Nat.toList_repr]
  rfl

/-- Behind its sign a number is written in digits. -/
theorem not_mem_text {c : Char} (hsign : c ≠ '#') (hdigit : c.isDigit = false) (id : BlockId) :
    c ∉ id.text.toList := by
  rw [toList_text, List.mem_cons, not_or]
  refine ⟨hsign, fun hmem => ?_⟩
  rw [Nat.isDigit_of_mem_toDigits (by decide) (by decide) hmem] at hdigit
  cases hdigit

end BlockId

/-- The statement that holds a reference. -/
inductive TransferKind where
  | leave
  | iterate
  deriving DecidableEq, Repr

/-- The keyword of the statement. -/
def TransferKind.text : TransferKind → String
  | leave => "LEAVE"
  | iterate => "ITERATE"

instance : ToString TransferKind := ⟨TransferKind.text⟩

/-- What is known of the block that a reference names. -/
inductive Resolution where
  /-- Nothing yet. -/
  | unresolved
  /-- The nearest enclosing block with the label. -/
  | resolved (block : BlockId)
  /-- No enclosing block has the label. -/
  | notFound
  deriving DecidableEq, Repr

namespace Resolution

/-- The block that was found. -/
def block? : Resolution → Option BlockId
  | resolved id => some id
  | unresolved | notFound => none

/-- Whether the search for the label has been made. -/
def isSettled : Resolution → Bool
  | unresolved => false
  | resolved _ | notFound => true

/-- The resolution that records the outcome of a search. -/
def ofOutcome : Option BlockId → Resolution
  | some id => resolved id
  | none => notFound

@[simp] theorem block?_ofOutcome (outcome : Option BlockId) :
    (ofOutcome outcome).block? = outcome := by
  cases outcome <;> rfl

@[simp] theorem isSettled_ofOutcome (outcome : Option BlockId) :
    (ofOutcome outcome).isSettled = true := by
  cases outcome <;> rfl

end Resolution

/-- The label a `LEAVE` or `ITERATE` names, with its place and what is known of it. -/
structure LabelReference where
  target : Identifier
  span : Option Span := none
  resolution : Resolution := .unresolved
  deriving DecidableEq, Repr

namespace LabelReference

/-- Record the outcome of a search. A settled reference refuses, with the resolution it holds. -/
def settle (r : LabelReference) (outcome : Option BlockId) : Except Resolution LabelReference :=
  if r.resolution.isSettled then .error r.resolution
  else .ok { r with resolution := .ofOutcome outcome }

/-- Forget what is known, so that the reference can be settled again. -/
def reset (r : LabelReference) : LabelReference := { r with resolution := .unresolved }

theorem settle_of_isSettled {r : LabelReference} (h : r.resolution.isSettled = true)
    (outcome : Option BlockId) : r.settle outcome = .error r.resolution := by
  simp [settle, h]

theorem settle_reset (r : LabelReference) (outcome : Option BlockId) :
    r.reset.settle outcome = .ok { r with resolution := .ofOutcome outcome } := rfl

@[simp] theorem reset_reset (r : LabelReference) : r.reset.reset = r.reset := rfl

@[simp] theorem reset_target (r : LabelReference) : r.reset.target = r.target := rfl

end LabelReference

end LabelCheck
