import TreeManifest.Json.Fault

/-!
# Strings in JSON

A string is cut into pieces up to its closing quote: plain characters, and code units given by
their number. Two code units of a surrogate pair make one character; a surrogate that is not part of
a pair makes the string unfit to be a text, though not to be passed over.

## Main definitions

- `Json.StringBody`, `Json.StringBody.scan`: the pieces of a string and their recognition.
- `Json.StringBody.text`: the text that a string stands for.
- `Json.escape`, `Json.quote`: the written form of a text.
-/

namespace TreeManifest.Json

inductive Piece where
  /-- A character that stands for itself or has a short escape. -/
  | char (char : Char)
  /-- A code unit given by its number. -/
  | unit (unit : Nat)

/-- A string behind its opening quote: its pieces, and the fault that ends it if it has no closing
quote. -/
structure StringBody where
  pieces : List Piece
  ending : Option Fault

/-- The code unit that four hexadecimal digits write. -/
def codeUnit? (a b c d : Char) : Option Nat := do
  let values ← [a, b, c, d].mapM Bytes.hexValue?
  return values.foldl (fun unit value => unit * 16 + value) 0

/-- The character of a short escape. -/
def shortEscape? : Char → Option Char
  | '"' => some '"'
  | '\\' => some '\\'
  | '/' => some '/'
  | 'b' => some '\x08'
  | 'f' => some '\x0c'
  | 'n' => some '\n'
  | 'r' => some '\r'
  | 't' => some '\t'
  | _ => none

/-- The fault of a code unit that is followed by too few characters for four digits. It counts as
an early end only if fewer than four bytes are left. -/
def shortUnitFault (rest : List Char) : Fault :=
  if (Bytes.ofChars rest).length < 4 then .truncated else .malformed

namespace StringBody

def cons (piece : Piece) (body : StringBody) : StringBody :=
  { body with pieces := piece :: body.pieces }

/-- Scans a string behind its opening quote up to its closing quote. -/
def scan : List Char → StringBody × List Char
  | [] => (⟨[], some .truncated⟩, [])
  | '"' :: rest => (⟨[], none⟩, rest)
  | '\\' :: 'u' :: a :: b :: c :: d :: rest =>
    match codeUnit? a b c d with
    | some unit =>
      let (body, rest) := scan rest
      (body.cons (.unit unit), rest)
    | none => (⟨[], some .malformed⟩, rest)
  | '\\' :: 'u' :: rest => (⟨[], some (shortUnitFault rest)⟩, [])
  | '\\' :: char :: rest =>
    match shortEscape? char with
    | some char =>
      let (body, rest) := scan rest
      (body.cons (.char char), rest)
    | none => (⟨[], some .malformed⟩, rest)
  | ['\\'] => (⟨[], some .truncated⟩, [])
  | char :: rest =>
    if char.toNat < 0x20 then (⟨[], some .malformed⟩, rest)
    else
      let (body, rest) := scan rest
      (body.cons (.char char), rest)

theorem scan_length_le (text : List Char) : (scan text).2.length ≤ text.length := by
  fun_induction scan text <;> simp_all <;> omega

/-- Whether a code unit begins a surrogate pair. -/
def isHighSurrogate (unit : Nat) : Bool := 0xD800 ≤ unit && unit ≤ 0xDBFF

/-- Whether a code unit ends a surrogate pair. -/
def isLowSurrogate (unit : Nat) : Bool := 0xDC00 ≤ unit && unit ≤ 0xDFFF

def pairValue (high low : Nat) : Char :=
  Char.ofNat ((high - 0xD800) * 0x400 + (low - 0xDC00) + 0x10000)

/-- The characters of pieces in front of the given ending. -/
def characters (ending : Option Fault) : List Piece → Except Fault (List Char)
  | [] =>
    match ending with
    | none => .ok []
    | some fault => .error fault
  | .char char :: rest => do return char :: (← characters ending rest)
  | .unit unit :: rest =>
    if isLowSurrogate unit then .error .malformed
    else if isHighSurrogate unit then
      match rest with
      | .unit low :: rest =>
        if isLowSurrogate low then do return pairValue unit low :: (← characters ending rest)
        else .error .malformed
      | .char _ :: _ => .error .malformed
      | [] => .error (ending.getD .malformed)
    else do return Char.ofNat unit :: (← characters ending rest)

def text (body : StringBody) : Except Fault String :=
  (characters body.ending body.pieces).map String.ofList

end StringBody

/-- The written form of a character inside a string. Control characters that have no short escape
are given by their number. -/
def escape (char : Char) : List Char :=
  match char with
  | '"' => ['\\', '"']
  | '\\' => ['\\', '\\']
  | '\x08' => ['\\', 'b']
  | '\x0c' => ['\\', 'f']
  | '\n' => ['\\', 'n']
  | '\r' => ['\\', 'r']
  | '\t' => ['\\', 't']
  | char =>
    if char.toNat < 0x20 then
      ['\\', 'u', '0', '0', Bytes.hexDigit (char.toNat / 16), Bytes.hexDigit (char.toNat % 16)]
    else [char]

/-- The written form of a text. -/
def quote (text : String) : List Char :=
  '"' :: text.toList.flatMap escape ++ ['"']

end TreeManifest.Json
