/-!
# Reading bytes as text

Bytes that should be a text in UTF-8 and need not be one. Every stretch of bytes that begins a
character and breaks off is shown as one replacement character, and so is every byte that cannot
begin a character.

* `Begun`: a character of which bytes are still to come;
* `lossyText`: the characters that bytes stand for.
-/

namespace LabelCheck.Text

/-- The character for bytes that are none. -/
def replacement : Char := '\uFFFD'

/-- A character that has begun: the bits that have been read, how many bytes are missing, and the
range in which the next byte has to be. -/
structure Begun where
  bits : Nat
  missing : Nat
  low : UInt8 := 0x80
  high : UInt8 := 0xBF

/-- What a byte at the beginning of a character stands for: a character of its own, or the first
byte of one. The ranges leave out overlong forms, surrogates and what is beyond Unicode. -/
def beginChar (b : UInt8) : List Char × Option Begun :=
  let n := b.toNat
  if n < 0x80 then ([Char.ofNat n], none)
  else if n < 0xC2 then ([replacement], none)
  else if n < 0xE0 then ([], some { bits := n - 0xC0, missing := 1 })
  else if n = 0xE0 then ([], some { bits := 0, missing := 2, low := 0xA0 })
  else if n = 0xED then ([], some { bits := 0xD, missing := 2, high := 0x9F })
  else if n < 0xF0 then ([], some { bits := n - 0xE0, missing := 2 })
  else if n = 0xF0 then ([], some { bits := 0, missing := 3, low := 0x90 })
  else if n < 0xF4 then ([], some { bits := n - 0xF0, missing := 3 })
  else if n = 0xF4 then ([], some { bits := 4, missing := 3, high := 0x8F })
  else ([replacement], none)

/-- The characters that bytes stand for, given the character that has begun. A byte that does not
continue it is looked at as a beginning again. -/
def lossyChars : (begun : Option Begun) → List UInt8 → List Char
  | none, [] => []
  | some _, [] => [replacement]
  | none, b :: rest =>
    let (chars, begun) := beginChar b
    chars ++ lossyChars begun rest
  | some c, b :: rest =>
    if c.low ≤ b ∧ b ≤ c.high then
      let bits := c.bits * 64 + (b.toNat - 0x80)
      if c.missing ≤ 1 then Char.ofNat bits :: lossyChars none rest
      else lossyChars (some { bits, missing := c.missing - 1 }) rest
    else
      let (chars, begun) := beginChar b
      replacement :: chars ++ lossyChars begun rest

/-- The text that bytes stand for. -/
def lossyText (bytes : List UInt8) : String := String.ofList (lossyChars none bytes)

example : lossyText [0x61, 0xFF, 0xF0, 0x9F, 0x98, 0x62, 0xC3, 0xA4] = "a\uFFFD\uFFFDbä" := by
  decide +kernel

end LabelCheck.Text
