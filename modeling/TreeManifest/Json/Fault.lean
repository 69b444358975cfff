import TreeManifest.Decimal.Shortest
import TreeManifest.Text.Quoted

/-!
# Why a text is refused

A text can end too early, break the rules of JSON, or be well formed and not fit what is read from
it. Only the last kind of fault has a cause that is spelled out.

## Main definitions

- `Json.Found`: what stands in the text where something else was expected.
- `Json.Mismatch`, `Json.Mismatch.message`: how a text fails to fit, and its wording.
- `Json.Fault`: the three kinds of fault.
-/

namespace TreeManifest.Json

/-- A value in a text as a message names it. -/
inductive Found where
  | null
  | boolean (value : Bool)
  | integer (value : Int)
  | float (value : Float)
  | string (value : String)
  | sequence
  | map

def Found.description : Found → String
  | .null => "null"
  | .boolean true => "boolean `true`"
  | .boolean false => "boolean `false`"
  | .integer value => "integer `" ++ String.ofList (Decimal.ofInt value) ++ "`"
  | .float value => "floating point `" ++ String.ofList (Decimal.ofFloat value) ++ "`"
  | .string value => "string " ++ Quoted.quote value
  | .sequence => "sequence"
  | .map => "map"

/-- How a well-formed text fails to fit what is read from it. -/
inductive Mismatch where
  /-- A value of another type than the expected one. -/
  | invalidType (found : Found) (expected : String)
  /-- An integer outside the range of its type. -/
  | invalidValue (value : Int) (expected : String)
  /-- A sequence that ends before a field that must be given. -/
  | invalidLength (length : Nat) (expected : String)
  /-- A name that is none of the listed ones. -/
  | unknownVariant (name : String) (known : List String)
  /-- A field that must be given and is not. -/
  | missingField (name : String)
  /-- A field that is given twice. -/
  | duplicateField (name : String)

def Mismatch.message : Mismatch → String
  | .invalidType found expected =>
    "invalid type: " ++ found.description ++ ", expected " ++ expected
  | .invalidValue value expected =>
    "invalid value: " ++ (Found.integer value).description ++ ", expected " ++ expected
  | .invalidLength length expected =>
    "invalid length " ++ String.ofList (Decimal.digits length) ++ ", expected " ++ expected
  | .unknownVariant name known =>
    "unknown variant `" ++ name ++ "`, expected one of " ++
      ", ".intercalate (known.map fun name => "`" ++ name ++ "`")
  | .missingField name => "missing field `" ++ name ++ "`"
  | .duplicateField name => "duplicate field `" ++ name ++ "`"

inductive Fault where
  /-- The text ends where more was expected. -/
  | truncated
  | malformed
  /-- The text is well formed up to a value that does not fit. -/
  | unfit (cause : Mismatch)

end TreeManifest.Json
