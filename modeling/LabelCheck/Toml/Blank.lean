import LabelCheck.Toml.Scan

/-!
# Blanks, line ends and comments

What may stand between the parts of a document. Controls other than the tab are nowhere allowed,
and a carriage return only in front of a line feed.
-/

namespace LabelCheck.Toml

/-- Whether a character may stand in a comment. -/
def isCommentChar (c : Char) : Bool :=
  c == '\t' || (0x20 ≤ c.toNat && c.toNat ≠ 0x7F)

namespace Scan

/-- Blanks within a line. -/
def blanks : Scan Unit := do
  let _ ← run fun c => c == ' ' || c == '\t'

/-- The end of a line. -/
def newline : Scan Unit := char '\n' <|> literal ['\r', '\n']

/-- A comment, up to the end of its line. -/
def comment : Scan Unit := do
  char '#'
  let _ ← run isCommentChar

/-- The end of a line or of the text. -/
def lineEnd : Scan Unit := newline <|> (do guard (← atEnd))

/-- What may stand behind the last part of a line. -/
def lineRest : Scan Unit := do
  blanks
  let _ ← optional comment
  lineEnd

/-- Blanks, line ends and whole-line comments inside an array. -/
def spread : Scan Unit := do
  let _ ← many do
    blanks
    let _ ← optional comment
    newline
  blanks

end Scan

end LabelCheck.Toml
