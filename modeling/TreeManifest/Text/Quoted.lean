import TreeManifest.Bytes
import TreeManifest.Text.GraphemeExtend
import TreeManifest.Text.Unprintable

/-!
# Quoted text in messages

A message that repeats a name or path shows it between double quotes. Inside, NUL, tab, line feed,
carriage return, the backslash and the double quote have short escapes, every other character that
is unprintable or would be drawn onto its neighbour is given by its number, and all else stands for
itself.

## Main definitions

- `Quoted.escape`: the written form of one character.
- `Quoted.quote`: the quoted form of a text.
-/

namespace TreeManifest.Quoted

/-- The hexadecimal digits of a number, in lower case and without leading zeros. -/
def hexDigits (value : Nat) : List Char :=
  if value < 16 then [Bytes.hexDigit value]
  else hexDigits (value / 16) ++ [Bytes.hexDigit (value % 16)]

/-- A character given by its number, as in `\u{7f}`. -/
def byNumber (char : Char) : List Char :=
  '\\' :: 'u' :: '\x7b' :: hexDigits char.toNat ++ ['\x7d']

/-- The written form of one character inside quotes. -/
def escape (char : Char) : List Char :=
  match char with
  | '\x00' => ['\\', '0']
  | '\t' => ['\\', 't']
  | '\n' => ['\\', 'n']
  | '\r' => ['\\', 'r']
  | '\\' => ['\\', '\\']
  | '"' => ['\\', '"']
  | char =>
    if extendsGrapheme char || isUnprintable char then byNumber char else [char]

def quote (text : String) : String :=
  String.ofList ('"' :: text.toList.flatMap escape ++ ['"'])

end TreeManifest.Quoted
