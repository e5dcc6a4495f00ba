import LabelCheck.Block.Basic
import LabelCheck.Document.Error

/-!
# Reading single values

The values that documents are made of: texts, truth values, sizes, identifiers, spans and choices
by name. Each reader takes any value and says what it expected if the value does not fit.

Fields of a record are read in the order of the document, so that of several misfits the first one
is told; only then are missing fields looked for. A record may also stand as an array of its
fields in their fixed order.
-/

namespace LabelCheck.Document

open LabelCheck.Toml

/-- Either a value or the reason why there is none. -/
abbrev Read := Except Misfit

/-- The misfit of a value that is not of the expected type. -/
def mismatch {α : Type} (v : Value) (expected : Expected) : Read α :=
  .error (.invalidType (.of v) expected)

/-- A text. -/
def readText : Value → Read String
  | .string text => .ok text
  | v => mismatch v .string

/-- A truth value. -/
def readBool : Value → Read Bool
  | .boolean value => .ok value
  | v => mismatch v .boolean

/-- A size: an integer that is not negative. -/
def readSize : Value → Read Nat
  | .integer (.ofNat n) => .ok n
  | .integer value => .error (.negativeSize value)
  | v => mismatch v .size

/-- An identifier in its written form. -/
def readIdentifier (v : Value) : Read Identifier := return .parse (← readText v)

/-- The items of an array, each read in the same way. -/
def readItems {α : Type} (item : Value → Read α) : Value → Read (List α)
  | .array _ items => items.mapM item
  | v => mismatch v .sequence

/-- A field that has to be there. -/
def required {α : Type} (field : String) : Option α → Read α
  | some value => .ok value
  | none => .error (.missingField field)

/-- Whether items of an array beyond the fields of a record are refused or passed over. -/
inductive Surplus where
  | refused
  | ignored
  deriving DecidableEq, Repr

/-- Check the items of an array that are left when `used` of them have been read. -/
def Surplus.check (surplus : Surplus) (used : Nat) (left : List Value) : Read Unit :=
  match surplus with
  | .ignored => .ok ()
  | .refused => if left.isEmpty then .ok () else .error (.tooLong (used + left.length) used)

/-- The ends of a span that have been read. -/
structure SpanDraft where
  start : Option Nat := none
  stop : Option Nat := none

/-- Read one field of a span; a span has no other fields than its two ends. -/
def SpanDraft.read (d : SpanDraft) : String × Value → Read SpanDraft
  | ("start", v) => return { d with start := some (← readSize v) }
  | ("end", v) => return { d with stop := some (← readSize v) }
  | (field, _) => .error (.unknownField field ["start", "end"])

/-- A span: a table with its two ends, or an array of the two. -/
def readSpan (surplus : Surplus) (v : Value) : Read Span :=
  match v with
  | .array _ [] => .error (.tooShort 0 Expected.span.text)
  | .array _ (start :: rest) => do
    let start ← readSize start
    match rest with
    | [] => .error (.tooShort 1 Expected.span.text)
    | stop :: left =>
      let stop ← readSize stop
      surplus.check 2 left
      return ⟨start, stop⟩
  | v =>
    match v.fields? with
    | none => mismatch v .span
    | some entries => do
      let d ← entries.foldlM SpanDraft.read {}
      return ⟨← required "start" d.start, ← required "end" d.stop⟩

/-- The choice with a name. -/
def readName {α : Type} (choices : List (String × α)) (name : String) : Read α :=
  match choices.lookup name with
  | some choice => .ok choice
  | none => .error (.unknownVariant name (choices.map Prod.fst))

/-- The choice that a tag names. -/
def readTag {α : Type} (tag : String) (choices : List (String × α)) (v : Option Value) :
    Read α :=
  match v with
  | none => .error (.missingField tag)
  | some (.string name) => readName choices name
  | some v => mismatch v .variantName

/-- A choice without content of its own, by its name or as the only key of a table whose value is
empty. -/
def readChoice {α : Type} (choices : List (String × α)) : Value → Read α
  | .string name => readName choices name
  | .table [] => .error .noChoice
  | .table [(name, content)] => do
    let choice ← readName choices name
    match content with
    | .array _ [] | .table [] => return choice
    | .array .headed _ => .error .headedContent
    | .array .bracketed _ | .table _ => .error .filledContent
    | content => .error (.plainContent content.typeName)
  | .table _ => .error .severalChoices
  | _ => .error .notAChoice

end LabelCheck.Document
