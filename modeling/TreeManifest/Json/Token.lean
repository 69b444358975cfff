import TreeManifest.Json.Numeral
import TreeManifest.Json.StringBody

/-!
# The tokens of a JSON text

A text is cut into tokens from left to right. A token that is broken off or ill formed carries its
fault, which counts only when the token is read, so the first problem met decides about a text.

## Main definitions

- `Json.Token`: the tokens.
- `Json.tokens`: the tokens of a text.
-/

namespace TreeManifest.Json

/-- The words that stand for a value. -/
inductive Word where
  | null
  | boolean (value : Bool)
  deriving DecidableEq

def Word.characters : Word → List Char
  | .null => ['n', 'u', 'l', 'l']
  | .boolean true => ['t', 'r', 'u', 'e']
  | .boolean false => ['f', 'a', 'l', 's', 'e']

/-- The word that a character begins. -/
def Word.beginning? : Char → Option Word
  | 'n' => some .null
  | 't' => some (.boolean true)
  | 'f' => some (.boolean false)
  | _ => none

inductive Token where
  | openBrace
  | closeBrace
  | openBracket
  | closeBracket
  | comma
  | colon
  | word (word : Except Fault Word)
  | numeral (numeral : Except Fault Numeral)
  | string (body : StringBody)
  /-- A character that begins no token. -/
  | stray

/-- The characters between tokens. -/
def isBlank (char : Char) : Bool :=
  char = ' ' || char = '\n' || char = '\t' || char = '\r'

def punctuation? : Char → Option Token
  | '\x7b' => some .openBrace
  | '\x7d' => some .closeBrace
  | '[' => some .openBracket
  | ']' => some .closeBracket
  | ',' => some .comma
  | ':' => some .colon
  | _ => none

def scanWord (word : Word) : List Char → List Char → Scan (Except Fault Word)
  | [], rest => ⟨.ok word, rest⟩
  | _ :: _, [] => ⟨.error .truncated, []⟩
  | expected :: more, char :: rest =>
    if char = expected then scanWord word more rest else ⟨.error .malformed, rest⟩

theorem scanWord_length_le (word : Word) (expected text : List Char) :
    (scanWord word expected text).rest.length ≤ text.length := by
  fun_induction scanWord word expected text <;> simp_all
  omega

/-- The first token of a text that does not begin with a blank, and what follows it. -/
def firstToken (first : Char) (rest : List Char) : Scan Token :=
  match punctuation? first with
  | some token => ⟨token, rest⟩
  | none =>
    if first = '"' then
      let (body, rest) := StringBody.scan rest
      ⟨.string body, rest⟩
    else if first = '-' ∨ first.isDigit = true then
      let scan := Numeral.scan (first :: rest)
      ⟨.numeral scan.result, scan.rest⟩
    else
      match Word.beginning? first with
      | some word =>
        let scan := scanWord word word.characters.tail rest
        ⟨.word scan.result, scan.rest⟩
      | none => ⟨.stray, rest⟩

theorem firstToken_length_le (first : Char) (rest : List Char) :
    (firstToken first rest).rest.length ≤ rest.length := by
  unfold firstToken
  split
  · simp
  · split
    · exact StringBody.scan_length_le rest
    · split
      · next h => exact Nat.le_of_lt_succ (Numeral.scan_length_lt rest h)
      · split
        · exact scanWord_length_le _ _ _
        · simp

def tokens : List Char → List Token
  | [] => []
  | first :: rest =>
    if isBlank first then tokens rest
    else (firstToken first rest).result :: tokens (firstToken first rest).rest
termination_by text => text.length
decreasing_by
  · simp
  · simp only [List.length_cons]
    exact Nat.lt_succ_of_le (firstToken_length_le first rest)

end TreeManifest.Json
