/-!
# Scanning text

The few ways in which the reader of TOML takes characters off the front of a text. A scan gives
what it has read together with the rest of the text, or nothing if the text does not begin with
what it looks for.

* `Remaining`: the part of a text that is still to be read;
* `Scan`: a scan, with `<|>` for a choice that starts over at the same place;
* `Scan.many`: a scan repeated as long as it succeeds and gets on;
* `Scan.separated`: items between separators.
-/

namespace LabelCheck.Toml

/-- The part of a text that is still to be read, with its length at hand: whether a scan has got on
is seen without counting. -/
structure Remaining where
  chars : List Char
  length : Nat
  length_eq : length = chars.length

namespace Remaining

/-- A whole text. -/
def of (chars : List Char) : Remaining := ⟨chars, chars.length, rfl⟩

/-- What remains behind the longest part in front that has only characters of a class. -/
def dropWhile (p : Char → Bool) (r : Remaining) : Remaining where
  chars := r.chars.dropWhile p
  length := r.length - (r.chars.takeWhile p).length
  length_eq := by
    have h := congrArg List.length (List.takeWhile_append_dropWhile (p := p) (l := r.chars))
    rw [List.length_append] at h
    rw [r.length_eq]
    omega

end Remaining

/-- Read something off the front of a text. -/
abbrev Scan := StateT Remaining Option

namespace Scan

/-- One character of a class. -/
def one (p : Char → Bool) : Scan Char := fun
  | ⟨c :: rest, length, h⟩ =>
    if p c then some (c, ⟨rest, length - 1, by rw [h, List.length_cons, Nat.add_sub_cancel]⟩)
    else none
  | ⟨[], _, _⟩ => none

/-- One given character. -/
def char (c : Char) : Scan Unit := do
  let _ ← one (· == c)

/-- Given characters one after the other. -/
def literal : List Char → Scan Unit
  | [] => return
  | c :: rest => do
    char c
    literal rest

/-- All characters of a class up to the first other one. -/
def run (p : Char → Bool) : Scan (List Char) := fun r =>
  some (r.chars.takeWhile p, r.dropWhile p)

/-- All characters of a class up to the first other one, at least one. -/
def run1 (p : Char → Bool) : Scan (List Char) := do
  let c ← one p
  return c :: (← run p)

/-- A number of characters of a class. -/
def count (p : Char → Bool) : Nat → Scan (List Char)
  | 0 => return []
  | n + 1 => do
    let c ← one p
    return c :: (← count p n)

/-- The next character, which stays where it is. -/
def next? : Scan (Option Char) := fun r => some (r.chars.head?, r)

/-- A scan that may be missing. -/
def optional {α : Type} (s : Scan α) : Scan (Option α) := fun r =>
  match s r with
  | some (a, rest) => some (some a, rest)
  | none => some (none, r)

/-- Whether a scan succeeds here. Nothing is taken. -/
def ahead {α : Type} (s : Scan α) : Scan Bool := fun r => some ((s r).isSome, r)

/-- Whether the text is at its end. -/
def atEnd : Scan Bool := fun r => some (r.chars.isEmpty, r)

/-- Succeed only if a condition holds. -/
def guard (b : Bool) : Scan Unit := fun r => if b then some ((), r) else none

/-- No success. -/
def fail {α : Type} : Scan α := fun _ => none

/-- What an optional value holds. -/
def ofOption {α : Type} : Option α → Scan α
  | some a => return a
  | none => fail

/-- Go on repeating a scan as long as it succeeds and takes something, when it has given `found`
so far, the latest first. -/
def manyMore {α : Type} (s : Scan α) (found : List α) : Scan (List α) := fun r =>
  match s r with
  | none => some (found.reverse, r)
  | some (a, rest) =>
    if rest.length < r.length then manyMore s (a :: found) rest else some (found.reverse, r)
termination_by r => r.length

/-- Repeat a scan as long as it succeeds and takes something. -/
def many {α : Type} (s : Scan α) : Scan (List α) := manyMore s []

/-- One or more items with separators between them. -/
def separated {α : Type} (item : Scan α) (separator : Scan Unit) : Scan (List α) := do
  let first ← item
  let more ← many do
    separator
    item
  return first :: more

/-- The value of a scan that takes a whole text. -/
def whole {α : Type} (s : Scan α) (cs : List Char) : Option α :=
  match s (.of cs) with
  | some (a, rest) => if rest.chars.isEmpty then some a else none
  | none => none

end Scan

end LabelCheck.Toml
