/-!
# Byte strings

Paths, names, link targets and attribute values are byte strings without an assumed encoding. This
file fixes their type, the two bytes that have a meaning of their own in a path, and the passage
from text to its UTF-8 bytes.

## Main definitions

- `Bytes`: a byte string.
- `Bytes.ofString`: the UTF-8 encoding of a text.
- `Bytes.toHex`, `Bytes.ofHex?`: lower-case hexadecimal digits, two per byte.
-/

namespace TreeManifest

/-- A byte string. Its order is the lexicographic order of unsigned bytes, in which a proper prefix
comes first. -/
abbrev Bytes := List UInt8

namespace Bytes

/-- The byte that separates the components of a path. -/
def slash : UInt8 := 0x2F

/-- The byte that no path handed to the system may contain. -/
def nul : UInt8 := 0x00

def ofChars (text : List Char) : Bytes :=
  text.flatMap String.utf8EncodeChar

/-- The UTF-8 bytes of a text. -/
def ofString (text : String) : Bytes :=
  ofChars text.toList

def hexDigit (value : Nat) : Char :=
  if value < 10 then Char.ofNat (48 + value) else Char.ofNat (87 + value)

def toHex (bytes : Bytes) : String :=
  String.ofList (bytes.flatMap fun byte => [hexDigit (byte.toNat / 16), hexDigit (byte.toNat % 16)])

def hexValue? (char : Char) : Option Nat :=
  if char.isDigit then some (char.toNat - 48)
  else if 'a' ≤ char ∧ char ≤ 'f' then some (char.toNat - 87)
  else if 'A' ≤ char ∧ char ≤ 'F' then some (char.toNat - 55)
  else none

/-- The byte string of hexadecimal digits, two per byte. -/
def ofHex? : List Char → Option Bytes
  | [] => some []
  | [_] => none
  | high :: low :: rest => do
    return UInt8.ofNat ((← hexValue? high) * 16 + (← hexValue? low)) :: (← ofHex? rest)

end Bytes

end TreeManifest
