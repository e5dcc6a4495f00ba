import LabelCheck.Text.Escape
import LabelCheck.Toml.Value

/-!
# Misfits between a document and its form

Why a TOML document, though correct TOML, is not a document of the expected form.

* `Found`: what stands in the document, as far as a message tells it;
* `Misfit`: the ways in which a document can fail, with `Misfit.message` as their wording.
-/

namespace LabelCheck.Document

open LabelCheck.Toml

/-- A value of the document, as far as a message tells it. -/
inductive Found where
  | integer (value : Int)
  | float (value : Float)
  | boolean (value : Bool)
  | string (text : String)
  | sequence
  | map

/-- What a message tells of a value. -/
def Found.of : Value → Found
  | .string text => string text
  | .integer value => integer value
  | .float value => float value
  | .boolean value => boolean value
  | .array _ _ => sequence
  | .moment _ | .table _ => map

/-- A floating-point number in a message: written out in full, with a point in every finite one. -/
def floatText (x : Float) : String :=
  let digits := Decimal.ofFloat x
  if x.isFinite && !digits.toList.contains '.' then digits ++ ".0" else digits

/-- The wording of what was found. -/
def Found.text : Found → String
  | integer value => s!"integer `{value}`"
  | float value => s!"floating point `{floatText value}`"
  | boolean value => s!"boolean `{value}`"
  | string text => s!"string {Text.shown text}"
  | sequence => "sequence"
  | map => "map"

/-- What a place of a document should hold. -/
inductive Expected where
  | string
  | boolean
  | sequence
  | size
  | span
  | block
  | statement
  | variantName
  | record (name : String)
  deriving DecidableEq, Repr

/-- The wording of what was expected. -/
def Expected.text : Expected → String
  | string => "a string"
  | boolean => "a boolean"
  | sequence => "a sequence"
  | size => "usize"
  | span => "struct Range"
  | block => "struct Block"
  | statement => "internally tagged enum Statement"
  | variantName => "variant identifier"
  | record name => s!"struct {name}"

/-- A reason for which a document does not have the expected form. -/
inductive Misfit where
  | missingField (field : String)
  | unknownField (field : String) (known : List String)
  | unknownVariant (given : String) (known : List String)
  | invalidType (found : Found) (expected : Expected)
  | negativeSize (value : Int)
  /-- A record written as an array ends before this item. -/
  | tooShort (items : Nat) (expected : String)
  /-- A record written as an array goes on after its last item. -/
  | tooLong (items used : Nat)
  /-- A named choice is neither a text nor a table. -/
  | notAChoice
  /-- A named choice is a table without keys. -/
  | noChoice
  /-- A named choice is a table with several keys. -/
  | severalChoices
  /-- A named choice has tables under headers as its content. -/
  | headedContent
  /-- A named choice has an array with items or a table with entries as its content. -/
  | filledContent
  /-- A named choice has a plain value of this type as its content. -/
  | plainContent (typeName : String)

/-- A list of names in a message. -/
def quoteAll (names : List String) : String :=
  match names.map fun name => s!"`{name}`" with
  | [] => "nothing"
  | [a] => a
  | [a, b] => s!"{a} or {b}"
  | all => "one of " ++ String.intercalate ", " all

/-- The wording of a misfit. -/
def Misfit.message : Misfit → String
  | missingField field => s!"missing field `{field}`"
  | unknownField field known => s!"unknown field `{field}`, expected {quoteAll known}"
  | unknownVariant given known => s!"unknown variant `{given}`, expected {quoteAll known}"
  | invalidType found expected =>
    s!"invalid type: {found.text}, expected {expected.text}"
  | negativeSize value => s!"invalid value: integer `{value}`, expected usize"
  | tooShort items expected => s!"invalid length {items}, expected {expected}"
  | tooLong items used =>
    let unit := if used == 1 then "element" else "elements"
    s!"invalid length {items}, expected {used} {unit} in sequence"
  | notAChoice => "wanted string or table"
  | noChoice => "wanted exactly 1 element, found 0 elements"
  | severalChoices => "wanted exactly 1 element, more than 1 element"
  | headedContent => "expected empty array"
  | filledContent => "expected empty table"
  | plainContent typeName => s!"expected table, found {typeName}"

end LabelCheck.Document
