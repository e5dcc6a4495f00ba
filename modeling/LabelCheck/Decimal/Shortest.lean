/-!
# Shortest decimal digits

The shortest decimal number that reads back as a given binary floating-point number, and of
several such numbers the one nearest to it.

A finite number is `m · 2 ^ e`. The reals that round to it form an interval around it, whose ends
belong to it when `m` is even. For one digit, two digits and so on, the two neighbours of the
number on the grid of decimals with that many digits are tried; the first grid that has a point in
the interval wins, because a point of a grid can only lie in the interval if a neighbour does.

* `Binary`: a positive number `m · 2 ^ e` with its interval;
* `Binary.shortest`: the digits as one number, and the power of ten they are to be multiplied by;
* `positional`: a decimal written out in full.
-/

namespace LabelCheck.Decimal

/-- A power of ten. -/
def pow10 (n : Nat) : Nat := Nat.pow 10 n

/-- A power of two. -/
def pow2 (n : Nat) : Nat := Nat.pow 2 n

/-- A positive binary floating-point number and the interval of reals that round to it, all in
units of `1 / denominator`. -/
structure Binary where
  value : Nat
  low : Nat
  high : Nat
  denominator : Nat
  /-- Whether the two ends belong to the interval. -/
  closed : Bool
  deriving Repr, DecidableEq

namespace Binary

/-- The number `m · 2 ^ e` of a format that has 53 binary digits and no exponent below −1074.
Below a power of two the gap to the next number is half as wide as above it. -/
def ofParts (m : Nat) (e : Int) : Binary :=
  let narrow := m == pow2 52 && e != -1074
  let up := pow2 (e - 2).toNat
  { value := 4 * m * up
    low := (if narrow then 4 * m - 1 else 4 * m - 2) * up
    high := (4 * m + 2) * up
    denominator := pow2 (2 - e).toNat
    closed := m % 2 == 0 }

/-- Whether `digits · 10 ^ power` lies in the interval. -/
def admits (b : Binary) (digits : Nat) (power : Int) : Bool :=
  let point := digits * pow10 power.toNat * b.denominator
  let scale := pow10 (-power).toNat
  if b.closed then b.low * scale ≤ point && point ≤ b.high * scale
  else b.low * scale < point && point < b.high * scale

/-- The greatest multiple of `10 ^ power` that is not above the number. -/
def below (b : Binary) (power : Int) : Nat :=
  b.value * pow10 (-power).toNat / (b.denominator * pow10 power.toNat)

/-- Whether the number lies nearer to `digits · 10 ^ power` than to the next multiple. -/
def isNearerBelow (b : Binary) (digits : Nat) (power : Int) : Bool :=
  2 * (b.value * pow10 (-power).toNat) <
    (2 * digits + 1) * (b.denominator * pow10 power.toNat)

/-- The neighbour on the grid of multiples of `10 ^ power` that lies in the interval, the nearer
one if both do; of two equally near ones the upper. -/
def onGrid (b : Binary) (power : Int) : Option Nat :=
  let digits := b.below power
  match b.admits digits power, b.admits (digits + 1) power with
  | true, true => some (if b.isNearerBelow digits power then digits else digits + 1)
  | true, false => some digits
  | false, true => some (digits + 1)
  | false, false => none

/-- The first of `grids` grids, from `power` downward, that has a point in the interval. -/
def search (b : Binary) (power : Int) : (grids : Nat) → Option (Nat × Int)
  | 0 => none
  | grids + 1 =>
    match b.onGrid power with
    | some digits => some (digits, power)
    | none => b.search (power - 1) grids

/-- The shortest digits and their power of ten. The search begins above every number of the format
and ends below the finest grid that any of them needs. -/
def shortest (b : Binary) : Nat × Int := (b.search 309 660).getD (0, 0)

end Binary

/-- The decimal `digits · 10 ^ power` written out, without trailing zeros behind the point and
without the point if nothing stands behind it. -/
def positional (digits : Nat) (power : Int) : String :=
  if 0 ≤ power then toString (digits * pow10 power.toNat)
  else
    let places := (-power).toNat
    let padded := (toString digits).toList
    let padded := List.replicate (places + 1 - padded.length) '0' ++ padded
    let whole := padded.take (padded.length - places)
    let fraction := (padded.drop (padded.length - places)).reverse.dropWhile (· == '0')
    String.ofList (if fraction.isEmpty then whole else whole ++ '.' :: fraction.reverse)

example : positional 15 (-1) = "1.5" ∧ positional 3 2 = "300" ∧ positional 5 (-3) = "0.005" := by
  decide +kernel

/-- The shortest digits of a finite number, written out with its sign; the words `inf` and `NaN`
otherwise. -/
def ofFloat (x : Float) : String :=
  let bits := x.toBits.toNat
  let sign := if bits / pow2 63 == 1 then "-" else ""
  let exponent : Nat := bits / pow2 52 % pow2 11
  let fraction := bits % pow2 52
  if exponent == pow2 11 - 1 then if fraction == 0 then sign ++ "inf" else "NaN"
  else if exponent == 0 && fraction == 0 then sign ++ "0"
  else
    let b :=
      if exponent == 0 then Binary.ofParts fraction (-1074)
      else Binary.ofParts (pow2 52 + fraction) ((exponent : Int) - 1075)
    let (digits, power) := b.shortest
    sign ++ positional digits power

end LabelCheck.Decimal
