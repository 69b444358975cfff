import TreeManifest.Decimal

/-!
# The shortest decimal of a floating-point number

Every finite double stands for an interval of reals that round to it. Its shortest decimal is the
decimal with the fewest digits in that interval and, among those, the one nearest to the number.

## Main definitions

- `Decimal.Binary`: a positive double as a multiple of a power of two.
- `Decimal.shortest`: the digits of the shortest decimal and the place of its point.
- `Decimal.ofFloat`: the written form of a finite double.
- `Decimal.positional`: the form without an exponent.

## Design notes

All arithmetic is on natural numbers. A decimal on the grid of one digit count lies in the interval
only if one of the two grid points around the number does, so only these two are tested.
-/

namespace TreeManifest.Decimal

/-- A positive double: `mantissa * 2 ^ exponent`. -/
structure Binary where
  mantissa : Nat
  exponent : Int
  /-- Whether the next smaller double is only half as far away as the next larger one. -/
  isLowest : Bool

/-- The double in a bit pattern whose sign is dropped. -/
def Binary.ofBits (bits : UInt64) : Binary :=
  let fraction := (bits &&& 0xFFFFFFFFFFFFF).toNat
  let power := (bits >>> 52 &&& 0x7FF).toNat
  if power = 0 then ⟨fraction, -1074, false⟩
  else ⟨fraction + Nat.pow 2 52, power - 1075, fraction = 0 && power > 1⟩

structure Fraction where
  numerator : Nat
  denominator : Nat

def Fraction.scaled (value : Nat) (exponent : Int) : Fraction :=
  ⟨value * Nat.pow 2 exponent.toNat, Nat.pow 2 (-exponent).toNat⟩

def Fraction.atLeast (fraction : Fraction) (count : Nat) (place : Int) : Bool :=
  count * Nat.pow 10 place.toNat * fraction.denominator ≤
    fraction.numerator * Nat.pow 10 (-place).toNat

def Fraction.atMost (fraction : Fraction) (count : Nat) (place : Int) : Bool :=
  fraction.numerator * Nat.pow 10 (-place).toNat ≤
    count * Nat.pow 10 place.toNat * fraction.denominator

/-- The greatest count whose multiple of `10 ^ place` is at most a fraction. -/
def Fraction.count (fraction : Fraction) (place : Int) : Nat :=
  fraction.numerator * Nat.pow 10 (-place).toNat /
    (fraction.denominator * Nat.pow 10 place.toNat)

/-- The place of the first digit of a fraction, searched downwards from `start`. -/
def Fraction.leadingPlace (fraction : Fraction) : Nat → Int → Int
  | 0, start => start
  | fuel + 1, start =>
    if fraction.atLeast 1 start then start else fraction.leadingPlace fuel (start - 1)

/-- The point of a grid that lies in the interval of a double and is nearest to it, if there is
one. -/
def onGrid? (number : Binary) (place : Int) : Option Nat :=
  let exponent := number.exponent - 2
  let value := Fraction.scaled (4 * number.mantissa) exponent
  let low := Fraction.scaled (4 * number.mantissa - if number.isLowest then 1 else 2) exponent
  let high := Fraction.scaled (4 * number.mantissa + 2) exponent
  let even := number.mantissa % 2 == 0
  let inside (count : Nat) : Bool :=
    low.atMost count place && high.atLeast count place &&
      (even || !(low.atLeast count place || high.atMost count place))
  let below := value.count place
  let above := below + 1
  match inside below, inside above with
  | false, false => none
  | true, false => some below
  | false, true => some above
  | true, true =>
    -- twice the number against the sum of the two points
    let twice := Fraction.scaled (8 * number.mantissa) exponent
    let middle := below + above
    if twice.atMost middle place then
      if twice.atLeast middle place then some (if below % 2 = 0 then below else above)
      else some below
    else some above

/-- The first digit count whose grid has a point in the interval, tried up to seventeen digits. -/
def search (number : Binary) (leading : Int) : Nat → Nat → Nat × Int
  | 0, _ => (0, 0)
  | fuel + 1, count =>
    let place := leading - count + 1
    match onGrid? number place with
    | some point => (point, place)
    | none => search number leading fuel (count + 1)

/-- The shortest decimal of a positive double as a count and the place of its last digit. -/
def shortest (number : Binary) : Nat × Int :=
  let value := Fraction.scaled number.mantissa number.exponent
  search number (value.leadingPlace 640 309) 17 1

def trim (digits : List Char) : List Char :=
  (digits.reverse.dropWhile (· == '0')).reverse

/-- The written form of digits whose first one has the given place: positional between the fifth
place behind and the fifteenth place before the point, else with a signed exponent. -/
def layout (digits : List Char) (leading : Int) : List Char :=
  if leading < -5 || leading > 15 then
    let exponent := 'e' :: (if leading < 0 then '-' else '+') :: Decimal.digits leading.natAbs
    match digits with
    | first :: second :: rest => first :: '.' :: second :: rest ++ exponent
    | _ => digits ++ exponent
  else if leading < 0 then
    '0' :: '.' :: List.replicate (leading.natAbs - 1) '0' ++ digits
  else
    let whole := leading.toNat + 1
    let fraction := digits.drop whole
    digits.take whole ++ List.replicate (whole - digits.length) '0' ++
      '.' :: (if fraction.isEmpty then ['0'] else fraction)

/-- The written form of a finite double. A zero keeps its sign. -/
def ofFloat (number : Float) : List Char :=
  let bits := number.toBits
  let sign := if bits >>> 63 = 1 then ['-'] else []
  let binary := Binary.ofBits bits
  if binary.mantissa = 0 then sign ++ ['0', '.', '0']
  else
    let (count, place) := shortest binary
    let all := digits count
    sign ++ layout (trim all) (place + (all.length - 1 : Nat))

/-- The form of digits whose first one has the given place, without an exponent. A whole number has
no point. -/
def positionalLayout (digits : List Char) (leading : Int) : List Char :=
  if leading < 0 then '0' :: '.' :: List.replicate (leading.natAbs - 1) '0' ++ digits
  else
    let whole := leading.toNat + 1
    let fraction := digits.drop whole
    digits.take whole ++ List.replicate (whole - digits.length) '0' ++
      if fraction.isEmpty then [] else '.' :: fraction

/-- The written form without an exponent of a double that is a number, given by its bit pattern. -/
def positional (bits : UInt64) : List Char :=
  let sign := if bits >>> 63 = 1 then ['-'] else []
  if bits &&& 0x7FFFFFFFFFFFFFFF = 0x7FF0000000000000 then sign ++ ['i', 'n', 'f']
  else
    let binary := Binary.ofBits bits
    if binary.mantissa = 0 then sign ++ ['0']
    else
      let (count, place) := shortest binary
      let all := digits count
      sign ++ positionalLayout (trim all) (place + (all.length - 1 : Nat))

end TreeManifest.Decimal
