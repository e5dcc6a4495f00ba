/-!
# Blanks

The characters that may surround an identifier without being part of it, and the removal of
such characters from both ends of a text.

* `isBlank`: the class, which is larger than the blanks of ASCII;
* `trim`: a text without the blanks at its two ends.
-/

namespace LabelCheck.Text

/-- The 25 characters with the property `White_Space`. -/
def isBlank (c : Char) : Bool :=
  let n := c.toNat
  (0x09 ≤ n && n ≤ 0x0D) || n == 0x20 || n == 0x85 || n == 0xA0 || n == 0x1680 ||
    (0x2000 ≤ n && n ≤ 0x200A) || n == 0x2028 || n == 0x2029 || n == 0x202F ||
    n == 0x205F || n == 0x3000

/-- The text without the blanks at its start. -/
def trimStart (cs : List Char) : List Char := cs.dropWhile isBlank

/-- The text without the blanks at its start and at its end. -/
def trim (cs : List Char) : List Char := (trimStart (trimStart cs).reverse).reverse

example : trim "\u3000 a b\u0085".toList = "a b".toList := by decide

end LabelCheck.Text
