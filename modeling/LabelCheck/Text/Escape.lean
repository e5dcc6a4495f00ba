import LabelCheck.Text.Hidden

/-!
# Texts shown inside a message

A text that a message quotes stands between double quotes, with an escape for everything that
would not be seen or would end the quotation.

* `escapeChar`: one character as it is shown;
* `shown`: a whole text as it is shown, with its quotes.
-/

namespace LabelCheck.Text

/-- The hexadecimal digits of a number, in lower case and without leading zeros. -/
def hex (n : Nat) : String := String.ofList (Nat.toDigits 16 n)

/-- How a character is shown between double quotes: the common controls by a letter, the quote
and the backslash after a backslash, other hidden characters by their number. -/
def escapeChar (c : Char) : String :=
  if c = '\x00' then "\\0"
  else if c = '\t' then "\\t"
  else if c = '\r' then "\\r"
  else if c = '\n' then "\\n"
  else if c = '"' then "\\\""
  else if c = '\\' then "\\\\"
  else if isHidden c then "\\u\x7b" ++ hex c.toNat ++ "\x7d"
  else c.toString

/-- A text between double quotes, each character as `escapeChar` shows it. -/
def shown (text : String) : String :=
  "\"" ++ String.join (text.toList.map escapeChar) ++ "\""

end LabelCheck.Text
