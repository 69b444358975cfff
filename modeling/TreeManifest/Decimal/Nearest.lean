import TreeManifest.Decimal

/-!
# The double nearest to a decimal

A decimal stands for an exact fraction. The double nearest to it is found by one integer division,
and of two doubles that are equally near the even one is taken.

## Main definitions

- `Decimal.nearest`: the double nearest to `count * 10 ^ place`.
- `Decimal.readDouble?`: the double that a text writes.

## Design notes

A double is given by its bit pattern, in which the patterns of positive doubles are in the order of
the doubles. A quotient that is rounded up to the next power of two therefore carries into the
exponent as it should, and one that is too large becomes infinity.
-/

namespace TreeManifest.Decimal

def infinity : Nat := 0x7FF0000000000000

/-- The quotient of two numbers, rounded to the nearest one and a half to the even one. -/
def roundedQuotient (numerator denominator : Nat) : Nat :=
  let quotient := numerator / denominator
  let twice := 2 * (numerator % denominator)
  if twice > denominator ∨ (twice = denominator ∧ quotient % 2 = 1) then quotient + 1 else quotient

def nearestToFraction (numerator denominator : Nat) : Nat :=
  let scaled (exponent : Int) : Nat × Nat :=
    (numerator * Nat.pow 2 (-exponent).toNat, denominator * Nat.pow 2 exponent.toNat)
  let estimate : Int := max ((numerator.log2 : Int) - denominator.log2 - 52) (-1074)
  let (count, unit) := scaled estimate
  -- the estimate can be one too high, which leaves one bit too few
  let exponent := if count / unit < Nat.pow 2 52 ∧ estimate > -1074 then estimate - 1 else estimate
  let (count, unit) := scaled exponent
  min ((exponent + 1074).toNat * Nat.pow 2 52 + roundedQuotient count unit) infinity

/-- The pattern of the double nearest to `count * 10 ^ place`. A decimal whose first digit lies
beyond the range of all doubles is not computed. -/
def nearest (count : Nat) (place : Int) : Nat :=
  let leading : Int := place + (digits count).length
  if count = 0 ∨ leading < -400 then 0
  else if leading > 400 then infinity
  else nearestToFraction (count * Nat.pow 10 place.toNat) (Nat.pow 10 (-place).toNat)

/-- The integer that a text of digits with an optional sign writes. -/
def readInteger? (text : List Char) : Option Int :=
  let (negative, digits) :=
    match text with
    | '-' :: rest => (true, rest)
    | '+' :: rest => (false, rest)
    | rest => (false, rest)
  if digits.isEmpty ∨ !digits.all Char.isDigit then none
  else some (if negative then -value digits else value digits)

/-- The pattern of the double that a text without a sign writes: digits with a point before, among
or behind them, and perhaps an exponent. -/
def readUnsigned? (text : List Char) : Option Nat :=
  let whole := text.takeWhile Char.isDigit
  let afterWhole := text.drop whole.length
  let (fraction, rest) :=
    match afterWhole with
    | '.' :: rest => (rest.takeWhile Char.isDigit, rest.dropWhile Char.isDigit)
    | rest => ([], rest)
  let all := whole ++ fraction
  if all.isEmpty then none
  else
    match rest with
    | [] => some (nearest (value all) (-fraction.length))
    | mark :: exponent =>
      if mark = 'e' ∨ mark = 'E' then
        (readInteger? exponent).map fun exponent => nearest (value all) (exponent - fraction.length)
      else none

/-- The pattern of the double that a text writes, with an optional sign. Infinity can be written as
a word. -/
def readDouble? (text : List Char) : Option UInt64 :=
  let (sign, rest) :=
    match text with
    | '-' :: rest => (0x8000000000000000, rest)
    | '+' :: rest => (0, rest)
    | rest => (0, rest)
  let word := String.ofList (rest.map Char.toLower)
  let magnitude := if word = "inf" ∨ word = "infinity" then some infinity else readUnsigned? rest
  magnitude.map fun magnitude => UInt64.ofNat (sign + magnitude)

end TreeManifest.Decimal
