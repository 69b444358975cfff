import TreeManifest.Json.Fault

/-!
# Numerals in JSON

A numeral is cut into sign, whole digits, fraction digits and exponent. Its value is an integer
where it is written as one and fits into 64 bits, and a floating-point number otherwise.

## Main definitions

- `Json.Numeral`, `Json.Numeral.scan`: the parts of a numeral and their recognition.
- `Json.Number`, `Json.Numeral.value`: the value of a numeral.

## Design notes

A floating-point value is made from the leading digits that fit into 64 bits and one power of ten,
by one rounded multiplication or division. It serves messages only, since no field takes one.
-/

namespace TreeManifest.Json

structure Exponent where
  negative : Bool
  digits : List Char

/-- The parts of a numeral. -/
structure Numeral where
  negative : Bool
  whole : List Char
  fraction : Option (List Char)
  exponent : Option Exponent

structure Scan (α : Type) where
  result : α
  rest : List Char

/-- Cuts a text behind its leading digits. -/
def leadingDigits (text : List Char) : List Char × List Char :=
  (text.takeWhile Char.isDigit, text.dropWhile Char.isDigit)

/-- The fault of a numeral that lacks a digit in front of `rest`. -/
def lackingDigit (rest : List Char) : Fault :=
  if rest.isEmpty then .truncated else .malformed

namespace Numeral

def exponentSign : List Char → Bool × List Char
  | '+' :: rest => (false, rest)
  | '-' :: rest => (true, rest)
  | rest => (false, rest)

def scanExponent (negative : Bool) (whole : List Char) (fraction : Option (List Char))
    (text : List Char) : Scan (Except Fault Numeral) :=
  match text with
  | mark :: rest =>
    if mark = 'e' ∨ mark = 'E' then
      let (minus, rest) := exponentSign rest
      let (digits, after) := leadingDigits rest
      if digits.isEmpty then ⟨.error (lackingDigit after), after⟩
      else ⟨.ok ⟨negative, whole, fraction, some ⟨minus, digits⟩⟩, after⟩
    else ⟨.ok ⟨negative, whole, fraction, none⟩, mark :: rest⟩
  | [] => ⟨.ok ⟨negative, whole, fraction, none⟩, []⟩

/-- Scans a fraction and an exponent behind the whole part of a numeral. -/
def scanFraction (negative : Bool) (whole text : List Char) : Scan (Except Fault Numeral) :=
  match text with
  | '.' :: rest =>
    let (digits, after) := leadingDigits rest
    if digits.isEmpty then ⟨.error (lackingDigit after), after⟩
    else scanExponent negative whole (some digits) after
  | text => scanExponent negative whole none text

/-- Scans a numeral behind its sign. The whole part has no leading zero. -/
def scanUnsigned (negative : Bool) (text : List Char) : Scan (Except Fault Numeral) :=
  let (digits, after) := leadingDigits text
  match digits with
  | [] => ⟨.error (lackingDigit after), after⟩
  | '0' :: _ :: _ => ⟨.error .malformed, after⟩
  | whole => scanFraction negative whole after

def scan : List Char → Scan (Except Fault Numeral)
  | '-' :: rest => scanUnsigned true rest
  | text => scanUnsigned false text

theorem leadingDigits_length_le (text : List Char) : (leadingDigits text).2.length ≤ text.length :=
  (List.dropWhile_sublist _).length_le

theorem exponentSign_length_le (text : List Char) : (exponentSign text).2.length ≤ text.length := by
  unfold exponentSign
  split <;> simp

theorem scanExponent_length_le (negative : Bool) (whole : List Char)
    (fraction : Option (List Char)) (text : List Char) :
    (scanExponent negative whole fraction text).rest.length ≤ text.length := by
  unfold scanExponent
  split
  · next mark rest =>
    split
    · have hle := Nat.le_trans (leadingDigits_length_le (exponentSign rest).2)
        (exponentSign_length_le rest)
      simp only [List.length_cons]
      split <;> exact Nat.le_succ_of_le hle
    · simp
  · simp

theorem scanFraction_length_le (negative : Bool) (whole text : List Char) :
    (scanFraction negative whole text).rest.length ≤ text.length := by
  unfold scanFraction
  split
  · next rest =>
    have hrest := leadingDigits_length_le rest
    simp only [List.length_cons]
    split
    · exact Nat.le_succ_of_le hrest
    · exact Nat.le_succ_of_le (Nat.le_trans (scanExponent_length_le _ _ _ _) hrest)
  · exact scanExponent_length_le _ _ _ _

theorem scanUnsigned_length_le (negative : Bool) (text : List Char) :
    (scanUnsigned negative text).rest.length ≤ text.length := by
  have htext := leadingDigits_length_le text
  unfold scanUnsigned
  simp only
  split
  · exact htext
  · exact htext
  · exact Nat.le_trans (scanFraction_length_le _ _ _) htext

/-- A scan that starts at a sign or digit takes at least that character. -/
theorem scan_length_lt {first : Char} (rest : List Char) (h : first = '-' ∨ first.isDigit = true) :
    (scan (first :: rest)).rest.length < (first :: rest).length := by
  unfold scan
  split
  · next heq =>
    cases heq
    exact Nat.lt_succ_of_le (scanUnsigned_length_le _ _)
  · next hne =>
    have hdigit : first.isDigit = true := by
      rcases h with h | h
      · exact absurd (congrArg (· :: rest) h) (hne rest)
      · exact h
    have hlt : (leadingDigits (first :: rest)).2.length < (first :: rest).length := by
      simp only [leadingDigits, List.dropWhile_cons, hdigit, if_true, List.length_cons]
      exact Nat.lt_succ_of_le (List.dropWhile_sublist _).length_le
    unfold scanUnsigned
    simp only
    split
    · exact hlt
    · exact hlt
    · exact Nat.lt_of_le_of_lt (scanFraction_length_le _ _ _) hlt

end Numeral

inductive Number where
  | natural (value : UInt64)
  | negative (value : Int64)
  | float (value : Float)

def Number.found : Number → Found
  | .natural value => .integer value.toNat
  | .negative value => .integer value.toInt
  | .float value => .float value

/-- The leading digits of a numeral as far as they fit into 64 bits, and how many digits followed
them. -/
structure Significand where
  value : Nat
  dropped : Nat

/-- Takes one more digit, unless one was dropped before or it does not fit. -/
def Significand.push (significand : Significand) (char : Char) : Significand :=
  let next := significand.value * 10 + Decimal.digitValue char
  if significand.dropped = 0 ∧ next < UInt64.size then ⟨next, 0⟩
  else { significand with dropped := significand.dropped + 1 }

def Significand.pushAll (significand : Significand) (digits : List Char) : Significand :=
  digits.foldl Significand.push significand

namespace Numeral

/-- The exponents up to this one have a power of ten of their own. -/
def largestPower : Nat := 308

/-- Multiplies or divides by a power of ten. A result beyond the largest double is refused. -/
def scale (value : Float) (exponent : Int) : Nat → Except Fault Float
  | 0 => .ok value
  | fuel + 1 =>
    if exponent.natAbs ≤ largestPower then
      let power := Float.ofScientific 1 false exponent.natAbs
      if exponent ≥ 0 then
        let scaled := value * power
        if scaled.isInf then .error .malformed else .ok scaled
      else .ok (value / power)
    else if value == 0 then .ok value
    else if exponent ≥ 0 then .error .malformed
    else scale (value / Float.ofScientific 1 false largestPower) (exponent + largestPower) fuel

/-- A number of steps of `scale` after which every value has vanished. -/
def scaleSteps : Nat := 16

/-- The bound within which an exponent is kept. -/
def exponentLimit : Nat := Nat.pow 2 31 - 1

/-- The floating-point value of a numeral whose significant digits have the given place. -/
def floatValue (numeral : Numeral) (significand : Nat) (place : Int) : Except Fault Float := do
  let magnitude := (UInt64.ofNat significand).toFloat
  let value ←
    match numeral.exponent with
    | none => scale magnitude place scaleSteps
    | some exponent =>
      let written := Decimal.value exponent.digits
      if written > exponentLimit then
        if significand ≠ 0 ∧ !exponent.negative then .error .malformed else .ok 0
      else
        scale magnitude (if exponent.negative then place - written else place + written) scaleSteps
  return if numeral.negative then -value else value

def value (numeral : Numeral) : Except Fault Number := do
  let whole := Significand.pushAll ⟨0, 0⟩ numeral.whole
  match numeral.fraction with
  | some fraction =>
    let all := Significand.pushAll ⟨whole.value, 0⟩ fraction
    let places : Int := whole.dropped - (fraction.length - all.dropped : Nat)
    return .float (← numeral.floatValue all.value places)
  | none =>
    if whole.dropped = 0 ∧ numeral.exponent.isNone then
      if !numeral.negative then return .natural (UInt64.ofNat whole.value)
      else if whole.value ≠ 0 ∧ whole.value ≤ Nat.pow 2 63 then
        return .negative (Int64.ofInt (-whole.value))
      else return .float (-(UInt64.ofNat whole.value).toFloat)
    else return .float (← numeral.floatValue whole.value whole.dropped)

end Numeral

end TreeManifest.Json
