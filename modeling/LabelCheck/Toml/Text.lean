import LabelCheck.Toml.Blank
import LabelCheck.Toml.Number

/-!
# Texts and keys

Texts stand between double quotes, with escapes, or between single quotes, without. Between three
quotes they may run over several lines: a line end directly behind the opening quotes does not
count, and every other one counts as a line feed.

* `Scan.basicText`, `Scan.literalText`: texts of one line;
* `Scan.basicLines`, `Scan.literalLines`: texts of several lines;
* `Scan.key`: a key, or several with dots between them.
-/

namespace LabelCheck.Toml

/-- The single quote. -/
def singleQuote : Char := '\x27'

/-- Whether a character may stand as itself between single quotes. -/
def isLiteralChar (c : Char) : Bool := isCommentChar c && c != singleQuote

/-- Whether a character may stand as itself between double quotes. -/
def isBasicChar (c : Char) : Bool := isCommentChar c && c != '"' && c != '\\'

/-- The character with a number, if there is one. -/
def charOfNumber? (n : Nat) : Option Char :=
  if n.isValidChar then some (Char.ofNat n) else none

namespace Scan

/-- The character that an escape stands for. -/
def escape : Scan Char := do
  char '\\'
  match ← one fun _ => true with
  | 'b' => return '\x08'
  | 't' => return '\t'
  | 'n' => return '\n'
  | 'f' => return '\x0c'
  | 'r' => return '\r'
  | '"' => return '"'
  | '\\' => return '\\'
  | 'u' => ofOption (charOfNumber? (numberOfDigits 16 (← count isHexDigit 4)))
  | 'U' => ofOption (charOfNumber? (numberOfDigits 16 (← count isHexDigit 8)))
  | _ => fail

/-- A text between double quotes. -/
def basicText : Scan String := do
  char '"'
  let parts ← many (run1 isBasicChar <|> do return [← escape])
  char '"'
  return String.ofList parts.flatten

/-- A text between single quotes. -/
def literalText : Scan String := do
  char singleQuote
  let cs ← run isLiteralChar
  char singleQuote
  return String.ofList cs

/-- A backslash at the end of a line: it and all blanks and line ends behind it do not count. -/
def lineJoin : Scan Unit := do
  char '\\'
  blanks
  newline
  let _ ← many (newline <|> do let _ ← one fun c => c == ' ' || c == '\t')

/-- One or two quotes that are part of a text: something else of the text follows them. -/
def innerQuotes {α : Type} (quote : Char) (content : Scan α) : Scan (List Char) := do
  let quotes ← run1 (· == quote)
  guard (quotes.length ≤ 2 && (← ahead content))
  return quotes

/-- A text between three quotes, given its other parts. Up to two quotes may stand directly in
front of the closing ones. -/
def lines (quote : Char) (content : Scan (List Char)) : Scan String := do
  literal [quote, quote, quote]
  let _ ← optional newline
  let parts ← many (content <|> innerQuotes quote content)
  let quotes ← run1 (· == quote)
  guard (3 ≤ quotes.length && quotes.length ≤ 5)
  return String.ofList (parts.flatten ++ quotes.drop 3)

/-- A text of several lines between double quotes. -/
def basicLines : Scan String :=
  lines '"' <|
    run1 isBasicChar <|> (do lineJoin; return []) <|> (do return [← escape]) <|>
      (do newline; return ['\n'])

/-- A text of several lines between single quotes. -/
def literalLines : Scan String :=
  lines singleQuote <| run1 isLiteralChar <|> (do newline; return ['\n'])

/-- A text in any of the four forms. -/
def text : Scan String := basicLines <|> basicText <|> literalLines <|> literalText

/-- Whether a character may stand in a key without quotes. -/
def isBareKeyChar (c : Char) : Bool := c.isAlphanum || c == '_' || c == '-'

/-- A single key. -/
def simpleKey : Scan String :=
  basicText <|> literalText <|> (String.ofList <$> run1 isBareKeyChar)

/-- The greatest number of keys that dots may join, and of values that may stand inside one
another. -/
def depthLimit : Nat := 79

/-- A key, or several with dots between them. -/
def key : Scan (List String) := do
  let keys ← separated (do blanks; let k ← simpleKey; blanks; return k) (char '.')
  guard (keys.length ≤ depthLimit)
  return keys

end Scan

end LabelCheck.Toml
