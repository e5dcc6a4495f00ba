import LabelCheck.Text.Blank
import LabelCheck.Text.Quoted

/-!
# Identifiers

A name as it stands in procedure text. The same name can be written with or without delimiters,
and the two are different identifiers: delimiters change how a name is compared when case does
not count (see `NameMatcher`).

* `Identifier.parse`: the identifier that a text denotes, for every text;
* `Identifier.text`: the written form of an identifier.
-/

namespace LabelCheck

/-- A name together with the way it is written. `name` is the text without delimiters. -/
structure Identifier where
  name : String
  quoted : Bool
  deriving DecidableEq, Repr

namespace Identifier

/-- The identifier written as `name`, without delimiters. -/
def regular (name : String) : Identifier := ⟨name, false⟩

/-- The delimited identifier with `name` between its delimiters. -/
def delimited (name : String) : Identifier := ⟨name, true⟩

/-- Read an identifier. Blanks around it do not count. A text between double quotes is delimited,
with each inner pair of quotes standing for one; any other text is regular as it stands. -/
def parse (text : String) : Identifier :=
  let cs := Text.trim text.toList
  match Text.delimited? cs with
  | some inner => delimited (String.ofList (Text.undouble inner))
  | none => regular (String.ofList cs)

/-- The written form: a delimited name stands between double quotes, its own quotes doubled. -/
def text (i : Identifier) : String :=
  if i.quoted then String.ofList ('"' :: Text.double i.name.toList ++ ['"']) else i.name

instance : ToString Identifier := ⟨text⟩

@[simp] theorem text_regular (name : String) : (regular name).text = name := rfl

@[simp] theorem text_delimited (name : String) :
    (delimited name).text = String.ofList ('"' :: Text.double name.toList ++ ['"']) := rfl

end Identifier

end LabelCheck
