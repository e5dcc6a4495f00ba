import LabelCheck.Toml.Scan
import LabelCheck.Toml.Value

/-!
# Numbers

Integers of 64 bits in four bases, and floating-point numbers. Digits may be grouped by single
underscores.

* `Scan.integer`, `Scan.float`: the two forms;
* `floatOfDecimal`: the floating-point number nearest to a decimal.
-/

namespace LabelCheck.Toml

/-- The value of a digit in bases up to sixteen. -/
def digitValue (c : Char) : Nat :=
  if c.isDigit then c.toNat - '0'.toNat
  else if c.isLower then c.toNat - 'a'.toNat + 10
  else c.toNat - 'A'.toNat + 10

/-- The number written by digits in a base. -/
def numberOfDigits (base : Nat) (digits : List Char) : Nat :=
  digits.foldl (fun n c => n * base + digitValue c) 0

/-- Whether a character is a hexadecimal digit. -/
def isHexDigit (c : Char) : Bool :=
  c.isDigit || ('a' ≤ c && c ≤ 'f') || ('A' ≤ c && c ≤ 'F')

/-- Whether an integer has 64 bits. -/
def fits64 (n : Int) : Bool := -9223372036854775808 ≤ n && n ≤ 9223372036854775807

/-- The floating-point number nearest to `digits · 10 ^ exponent`. Far outside the range of the
format the answer is infinity or zero, without the power of ten being formed. -/
def floatOfDecimal (digits : List Char) (exponent : Int) : Float :=
  let digits := digits.dropWhile (· == '0')
  let n := numberOfDigits 10 digits
  if digits.isEmpty then 0
  else if 400 < exponent + digits.length then 1 / 0
  else if exponent + digits.length < -400 then 0
  else if 0 ≤ exponent then Float.ofScientific n false exponent.toNat
  else Float.ofScientific n true (-exponent).toNat

namespace Scan

/-- Digits of a class, with single underscores between them; the underscores are left out. -/
def digits (p : Char → Bool) : Scan (List Char) := do
  let first ← one p
  let more ← many do
    let _ ← optional (char '_')
    one p
  return first :: more

/-- A sign: whether it is a minus. -/
def sign : Scan Bool := do
  match ← optional (one fun c => c == '+' || c == '-') with
  | some c => return c == '-'
  | none => return false

/-- The digits of a decimal integer, which begin with a zero only if there are no others. -/
def decimalDigits : Scan (List Char) := do
  match ← next? with
  | some '0' =>
    char '0'
    return ['0']
  | _ => digits Char.isDigit

/-- An integer: in base sixteen, eight or two without a sign, or in base ten with one. -/
def integer : Scan Value := do
  let n : Int ← (do literal ['0', 'x']; return numberOfDigits 16 (← digits isHexDigit)) <|>
    (do literal ['0', 'o']; return numberOfDigits 8 (← digits fun c => '0' ≤ c && c ≤ '7')) <|>
    (do literal ['0', 'b']; return numberOfDigits 2 (← digits fun c => c == '0' || c == '1')) <|>
    (do
      let negative ← sign
      let n := numberOfDigits 10 (← decimalDigits)
      return if negative then -(n : Int) else n)
  guard (fits64 n)
  return .integer n

/-- The exponent of a floating-point number. -/
def exponent : Scan Int := do
  let _ ← one fun c => c == 'e' || c == 'E'
  let negative ← sign
  let n := numberOfDigits 10 (← digits Char.isDigit)
  return if negative then -(n : Int) else n

/-- A floating-point number written by digits: with a fraction, an exponent or both. A number too
great for the format is refused, one too small below zero is not. -/
def decimalFloat : Scan Float := do
  let negative ← sign
  let whole ← decimalDigits
  let fraction ← optional (do char '.'; digits Char.isDigit)
  let exponent? ← optional exponent
  guard (fraction.isSome || exponent?.isSome)
  let behind := fraction.getD []
  let x := floatOfDecimal (whole ++ behind) (exponent?.getD 0 - behind.length)
  guard (negative || x.isFinite)
  return if negative then -x else x

/-- The words for infinity and for what is no number. -/
def wordFloat : Scan Float := do
  let negative ← sign
  let x ← (do literal ['i', 'n', 'f']; return (1 / 0 : Float)) <|>
    (do literal ['n', 'a', 'n']; return (0 / 0 : Float))
  return if negative then -x else x

/-- A floating-point number. -/
def float : Scan Value := Value.float <$> (decimalFloat <|> wordFloat)

end Scan

end LabelCheck.Toml
