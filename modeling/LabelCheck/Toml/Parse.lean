import LabelCheck.Toml.Item
import LabelCheck.Toml.Moment
import LabelCheck.Toml.Text

/-!
# Reading TOML

The table that a text denotes. A text is a sequence of lines: headers, which open a section, and
values under keys. The sections are then put together one after the other.

* `Scan.value`: a single value, with a bound on how deep values may stand inside one another;
* `Scan.document`: the sections of a text;
* `parse`: the table of a text, or nothing if the text is not TOML.
-/

namespace LabelCheck.Toml

namespace Scan

/-- A truth value. -/
def boolean : Scan Value :=
  (do literal ['t', 'r', 'u', 'e']; return .boolean true) <|>
    (do literal ['f', 'a', 'l', 's', 'e']; return .boolean false)

/-- The items of an array, each read by `item`. -/
def array (item : Scan Value) : Scan Value := do
  char '['
  let items ← optional (separated (do spread; let v ← item; spread; return v) (char ','))
  if items.isSome then
    let _ ← optional (char ',')
  spread
  char ']'
  return .array .bracketed (items.getD [])

/-- A value under a path of keys and a last key. -/
def entry (item : Scan Value) : Scan (List String × String × Value) := do
  let keys ← key
  let last ← ofOption keys.getLast?
  char '='
  blanks
  return (keys.dropLast, last, ← item)

/-- A table on one line, whose values are read by `item`. -/
def inlineTable (item : Scan Value) : Scan Value := do
  char '{'
  let values ← optional (separated (do let e ← entry item; blanks; return e) (char ','))
  blanks
  char '}'
  let entries ← ofOption (Items.insertAll [] (values.getD []))
  return .table (Items.values entries)

/-- A value that holds no others. -/
def scalar : Scan Value := Value.string <$> text <|> boolean <|> moment <|> float <|> integer

/-- A value in which arrays and inline tables stand inside one another at most `depth` times. -/
def value : (depth : Nat) → Scan Value
  | 0 => scalar
  | depth + 1 => array (value depth) <|> inlineTable (value depth) <|> scalar

/-- What opens a section. -/
inductive Header where
  | table (path : List String) (key : String)
  | element (path : List String) (key : String)

/-- A header, alone on its line. -/
def header : Scan Header := do
  let element ← optional (literal ['[', '['])
  if element.isNone then char '['
  let keys ← key
  literal (if element.isSome then [']', ']'] else [']'])
  lineRest
  let last ← ofOption keys.getLast?
  return if element.isSome then .element keys.dropLast last else .table keys.dropLast last

/-- Lines without content. -/
def skipLines : Scan Unit := do
  let _ ← many do
    blanks
    let _ ← optional comment
    newline
  blanks
  let _ ← optional comment

/-- The values up to the next header or the end. -/
def entries : Scan (List (List String × String × Value)) := do
  let values ← many do
    skipLines
    let e ← entry (value depthLimit)
    lineRest
    return e
  skipLines
  return values

/-- A text: values, and then sections with headers. -/
def document :
    Scan (List (List String × String × Value) ×
      List (Header × List (List String × String × Value))) := do
  let _ ← optional (char '\uFEFF')
  let first ← entries
  let sections ← many do
    let h ← header
    return (h, ← entries)
  return (first, sections)

end Scan

/-- Add a section to what has been put together. -/
def addSection (root : Items) :
    Scan.Header × List (List String × String × Value) → Option Items
  | (.table path key, values) => root.addTable path key values
  | (.element path key, values) => root.addElement path key values

/-- The table that a text denotes, if it is TOML. -/
def parse (text : String) : Option Table := do
  let (first, sections) ← Scan.whole Scan.document text.toList
  let root ← Items.insertAll [] first
  return Items.values (← sections.foldlM addSection root)

end LabelCheck.Toml
