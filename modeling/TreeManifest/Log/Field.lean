import TreeManifest.Decimal.Nearest
import TreeManifest.Decimal.Shortest
import TreeManifest.Text.Pattern

/-!
# Fields of reports

A filter can ask for a field of a report by its name, and for a value that the field must have. A
value is read as a truth value, an integer, a number or else a pattern, whichever comes first.

## Main definitions

- `Log.FieldValue`, `Log.FieldValue.parse?`, `Log.FieldValue.render`: values and their written form.
- `Log.FieldMatch`, `Log.FieldMatch.parse?`, `Log.FieldMatch.render`: what is asked of a field.
- `Log.FieldMatch.compare`: the order of what is asked.
-/

namespace TreeManifest.Log

/-- The value that a field must have. -/
inductive FieldValue where
  | boolean (value : Bool)
  /-- A double that is a number, given by its bit pattern. -/
  | double (bits : UInt64)
  | notANumber
  | natural (value : UInt64)
  /-- An integer that is written with a minus sign. -/
  | integer (value : Int64)
  /-- A pattern for the text of the value. -/
  | pattern (text : String)
  deriving DecidableEq

namespace FieldValue

/-- Whether a text writes the double that is not a number. -/
def isNotANumber (text : List Char) : Bool :=
  let word :=
    match text with
    | '-' :: rest => rest
    | '+' :: rest => rest
    | rest => rest
  String.ofList (word.map Char.toLower) == "nan"

/-- The integer that a text writes, if it has 64 bits. Only a negative one has a sign bit. -/
def integer? (text : List Char) : Option FieldValue := do
  let value ← Decimal.readInteger? text
  if text.head? = some '-' then
    if value ≥ Int64.minValue.toInt then some (.integer (Int64.ofInt value)) else none
  else if value < UInt64.size then some (.natural (UInt64.ofNat value.toNat))
  else none

def parse? (text : List Char) : Option FieldValue :=
  if String.ofList text = "true" then some (.boolean true)
  else if String.ofList text = "false" then some (.boolean false)
  else
    match integer? text with
    | some value => some value
    | none =>
      match Decimal.readDouble? text with
      | some bits => some (.double bits)
      | none =>
        if isNotANumber text then some .notANumber
        else if Pattern.isWellFormed text then some (.pattern (String.ofList text))
        else none

def render : FieldValue → String
  | .boolean value => if value then "true" else "false"
  | .double bits => String.ofList (Decimal.positional bits)
  | .notANumber => "NaN"
  | .natural value => String.ofList (Decimal.digits value.toNat)
  | .integer value => String.ofList (Decimal.ofInt value.toInt)
  | .pattern text => text

def rank : FieldValue → Nat
  | .boolean _ => 0
  | .double _ => 1
  | .notANumber => 2
  | .natural _ => 3
  | .integer _ => 4
  | .pattern _ => 5

/-- A number that is ordered as doubles are, given the bit pattern of one. Both zeros have the same
number. -/
def doubleKey (bits : UInt64) : Int :=
  let magnitude : Int := (bits &&& 0x7FFFFFFFFFFFFFFF).toNat
  if bits >>> 63 = 1 then -magnitude else magnitude

/-- The order of values: by sort, and within a sort by value. -/
def compare : FieldValue → FieldValue → Ordering
  | .boolean a, .boolean b => Ord.compare a b
  | .double a, .double b => Ord.compare (doubleKey a) (doubleKey b)
  | .natural a, .natural b => Ord.compare a b
  | .integer a, .integer b => Ord.compare a b
  | .pattern a, .pattern b => Ord.compare a b
  | a, b => Ord.compare a.rank b.rank

end FieldValue

structure FieldMatch where
  name : String
  /-- The value, unless the field only has to be there. -/
  value : Option FieldValue
  deriving DecidableEq

namespace FieldMatch

def parse? (text : List Char) : Option FieldMatch :=
  let name := text.takeWhile (· != '=')
  match text.drop name.length with
  | [] => some ⟨String.ofList name, none⟩
  | _ :: value =>
    (FieldValue.parse? (value.takeWhile (· != '='))).map fun value =>
      ⟨String.ofList name, some value⟩

def render (asked : FieldMatch) : String :=
  asked.name ++ asked.value.elim "" fun value => "=" ++ value.render

/-- The order of what is asked: those without a value first, then by name and by value. -/
def compare (a b : FieldMatch) : Ordering :=
  ((Ord.compare a.value.isSome b.value.isSome).then (Ord.compare a.name b.name)).then
    (match a.value, b.value with
      | some a, some b => a.compare b
      | _, _ => .eq)

end FieldMatch

end TreeManifest.Log
