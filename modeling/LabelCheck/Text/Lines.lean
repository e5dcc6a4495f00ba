/-!
# Lines and parts of a text

* `lines`: the lines of a text without their ends;
* `occursIn`: whether a text is a part of another.
-/

namespace LabelCheck.Text

/-- A line without a carriage return at its end. -/
def dropReturn (line : List Char) : List Char :=
  if line.getLast? = some '\r' then line.dropLast else line

/-- The lines of a text. A line ends at a line feed, with a carriage return in front of it or
without; what stands behind the last line feed is a line only if there is something. -/
def lines (text : String) : List String :=
  let parts := text.toList.splitOn '\n'
  let last := parts.getLastD []
  let ended := parts.dropLast.map dropReturn
  (if last.isEmpty then ended else ended ++ [last]).map String.ofList

example : lines "a\r\n\nb\r" = ["a", "", "b\r"] := by decide +kernel

/-- Whether `part` occurs in a text without gaps. -/
def occursInList (part : List Char) : List Char → Bool
  | [] => part.isEmpty
  | c :: rest => part.isPrefixOf (c :: rest) || occursInList part rest

/-- Whether a text occurs in another without gaps. -/
def occursIn (part whole : String) : Bool := occursInList part.toList whole.toList

example : occursIn "bc" "abcd" = true ∧ occursIn "" "" = true ∧ occursIn "ba" "ab" = false := by
  decide +kernel

end LabelCheck.Text
