import TreeManifest.Text.Quoted
import TreeManifest.Text.Utf8

/-!
# Quoted byte strings in messages

A byte string that need not be text is shown like a quoted text in which single quotes are escaped
as well and every byte of a fault is given by its two hexadecimal digits.

## Main definitions

- `Quoted.quoteBytes`: the quoted form of a byte string.
-/

namespace TreeManifest.Quoted

/-- A byte given by its number, as in `\xFF`. -/
def byteByNumber (byte : UInt8) : List Char :=
  let digit (value : Nat) : Char := (Bytes.hexDigit value).toUpper
  ['\\', 'x', digit (byte.toNat / 16), digit (byte.toNat % 16)]

/-- The written form of a byte string inside quotes. -/
def escapeBytes : Bytes → List Char
  | [] => []
  | byte :: rest =>
    let (scalar, after) := Utf8.next byte rest
    let shown :=
      match scalar with
      | some '\'' => ['\\', '\'']
      | some char => escape char
      | none => ((byte :: rest).take (rest.length + 1 - after.length)).flatMap byteByNumber
    shown ++ escapeBytes (Utf8.next byte rest).2
termination_by bytes => bytes.length
decreasing_by
  simp only [List.length_cons]
  exact Nat.lt_succ_of_le (Utf8.next_length_le byte rest)

def quoteBytes (bytes : Bytes) : String :=
  String.ofList ('"' :: escapeBytes bytes ++ ['"'])

end TreeManifest.Quoted
