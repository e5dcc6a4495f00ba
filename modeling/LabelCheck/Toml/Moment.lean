import LabelCheck.Toml.Scan
import LabelCheck.Toml.Value

/-!
# Moments

Dates, times and both together, with or without an offset. A moment is checked against the
calendar and kept as it is written.

* `daysInMonth`: the calendar;
* `Scan.moment`: the four forms.
-/

namespace LabelCheck.Toml

/-- Whether a year has a 29th of February. -/
def isLeapYear (year : Nat) : Bool :=
  year % 4 == 0 && (year % 100 != 0 || year % 400 == 0)

/-- The number of days of a month. -/
def daysInMonth (year month : Nat) : Nat :=
  if month == 2 then if isLeapYear year then 29 else 28
  else if [4, 6, 9, 11].contains month then 30
  else 31

namespace Scan

/-- A number of `places` digits between two bounds. -/
def field (places low high : Nat) : Scan Nat := do
  let digits ← count Char.isDigit places
  let n := digits.foldl (fun n c => n * 10 + (c.toNat - '0'.toNat)) 0
  guard (low ≤ n && n ≤ high)
  return n

/-- A date. -/
def date : Scan Unit := do
  let year ← field 4 0 9999
  char '-'
  let month ← field 2 1 12
  char '-'
  let _ ← field 2 1 (daysInMonth year month)

/-- A time of day. A minute may have a 61st second. -/
def time : Scan Unit := do
  let _ ← field 2 0 23
  char ':'
  let _ ← field 2 0 59
  char ':'
  let _ ← field 2 0 60
  let _ ← optional do
    char '.'
    run1 Char.isDigit

/-- An offset from universal time. -/
def offset : Scan Unit :=
  (do let _ ← one fun c => c == 'Z' || c == 'z') <|> do
    let _ ← one fun c => c == '+' || c == '-'
    let _ ← field 2 0 23
    char ':'
    let _ ← field 2 0 59

/-- A time of day behind a date, with an offset where one is given. -/
def timeAfterDate : Scan Unit := do
  let _ ← one fun c => c == 'T' || c == 't' || c == ' '
  time
  let _ ← optional offset

/-- A date, a date with a time, or a time. -/
def momentForm : Scan Unit :=
  (do date; let _ ← optional timeAfterDate) <|> time

/-- A moment, as it is written. -/
def moment : Scan Value := fun r =>
  match momentForm r with
  | some ((), rest) => some (.moment (String.ofList (r.chars.take (r.length - rest.length))), rest)
  | none => none

end Scan

end LabelCheck.Toml
