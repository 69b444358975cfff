import TreeManifest.Bytes
import TreeManifest.Text.Alphabetic
import TreeManifest.Text.Numeric
import TreeManifest.Text.WhiteSpace

/-!
# Well-formed patterns

A pattern describes texts: characters stand for themselves, brackets hold sets of characters,
parentheses group, a bar separates alternatives, and a star, a plus or a question mark repeats what
stands before it. This file decides which texts are patterns.

## Main definitions

- `Pattern.Mode`: how the characters of a pattern are read.
- `Pattern.Atom`, `Pattern.readEscape?`: what a backslash introduces.
- `Pattern.scanSet`: the end of a set in brackets.
- `Pattern.isWellFormed`: whether a text is a pattern.

## Design notes

Patterns are matched without tables of character properties and without looking around a place.
While a pattern speaks about characters, whatever needs one of these is refused: the named classes,
case folding, and the ends of words. While it speaks about bytes, what could match a part of a
character is refused. A repetition count needs a closing brace, and the texts that are examined here
contain none, so every opening brace outside a set is refused.
-/

namespace TreeManifest.Pattern

/-- How the characters of a pattern are read. -/
structure Mode where
  /-- Whether the pattern speaks about characters, and not about bytes. -/
  characters : Bool := true
  /-- Whether a letter stands for both of its cases. -/
  foldsCase : Bool := false
  /-- Whether white space and comments are passed over. -/
  spaced : Bool := false

/-- Drops white space and comments, each of which ends with its line. -/
def dropSpace : (inComment : Bool) → List Char → List Char
  | _, [] => []
  | true, char :: rest => dropSpace (char != '\n') rest
  | false, char :: rest =>
    if isWhiteSpace char then dropSpace false rest
    else if char = '#' then dropSpace true rest
    else char :: rest

/-- What follows the white space that a mode passes over. -/
def Mode.skip (mode : Mode) (text : List Char) : List Char :=
  if mode.spaced then dropSpace false text else text

/-- A part of a pattern that is one character or an escape. -/
inductive Atom where
  /-- A character, which may be given by the two digits of a byte. -/
  | literal (char : Char) (byByte : Bool)
  /-- A condition on a place. -/
  | place
  /-- A named class. -/
  | named

/-- Whether a mode admits a character that stands for itself outside a set. -/
def Mode.admits (mode : Mode) (char : Char) (byByte : Bool) : Bool :=
  if mode.characters then !mode.foldsCase else !byByte || char.toNat < 0x80

/-- Whether a mode admits a character as an element of a set. -/
def Mode.admitsInSet (mode : Mode) (char : Char) : Bool :=
  if mode.characters then !mode.foldsCase else char.toNat < 0x80

def readHex? (mode : Mode) : Nat → Nat → List Char → Option (Nat × List Char)
  | 0, value, text => some (value, mode.skip text)
  | count + 1, value, text =>
    match mode.skip text with
    | [] => none
    | char :: rest => do readHex? mode count (value * 16 + (← Bytes.hexValue? char)) rest

/-- Reads a character given by the given count of digits. -/
def readCode? (mode : Mode) (count : Nat) (text : List Char) : Option (Atom × List Char) := do
  let (value, rest) ← readHex? mode count 0 text
  if value.isValidChar then some (.literal (Char.ofNat value) (count == 2), rest) else none

def control? : Char → Option Char
  | 'a' => some '\x07'
  | 'f' => some '\x0c'
  | 'n' => some '\n'
  | 'r' => some '\r'
  | 't' => some '\t'
  | 'v' => some '\x0b'
  | _ => none

def readEscape? (mode : Mode) : List Char → Option (Atom × List Char)
  | [] => none
  | 'x' :: rest => readCode? mode 2 rest
  | 'u' :: rest => readCode? mode 4 rest
  | 'U' :: rest => readCode? mode 8 rest
  | char :: rest =>
    if char ∈ ['d', 's', 'w'] then if mode.characters then none else some (.named, rest)
    else if char ∈ ['b', 'B', '<', '>'] then
      if mode.characters then none else some (.place, rest)
    else if char ∈ ['A', 'z'] then some (.place, rest)
    else
      match control? char with
      | some control => some (.literal control false, rest)
      | none =>
        if char.toNat < 0x80 ∧ !char.isAlphanum then some (.literal char false, rest) else none

/-- Reads an element of a set, or an end of a range of elements. -/
def readElement? (mode : Mode) : List Char → Option (Atom × List Char)
  | [] => none
  | '\\' :: rest => readEscape? mode rest
  | char :: rest => some (.literal char false, rest)

/-- Whether a mode admits an atom as an element of a set. -/
def Mode.admitsElement (mode : Mode) : Atom → Bool
  | .literal char _ => mode.admitsInSet char
  | .place => false
  | .named => true

/-- Reads an element or a range of elements of a set. A hyphen in front of the end of the set or of
another hyphen makes no range. -/
def readRange? (mode : Mode) (text : List Char) : Option (List Char) := do
  let (first, rest) ← readElement? mode text
  if !mode.admitsElement first then none
  match mode.skip rest with
  | [] => none
  | '-' :: after =>
    match mode.skip after with
    | [] => none
    | ']' :: _ | '-' :: _ => some ('-' :: after)
    | next =>
      let (last, rest) ← readElement? mode next
      match first, last with
      | .literal low _, .literal high _ =>
        if mode.admitsInSet high ∧ low ≤ high then some rest else none
      | _, _ => none
  | rest => some rest

/-- The names of the classes that are written between colons in a set. -/
def classNames : List String :=
  ["alnum", "alpha", "ascii", "blank", "cntrl", "digit", "graph", "lower", "print", "punct",
    "space", "upper", "word", "xdigit"]

/-- Reads a class between colons behind its opening bracket, and tells whether it is negated. -/
def readClass? : List Char → Option (Bool × List Char)
  | ':' :: rest =>
    let negated := rest.head? == some '^'
    let rest := if negated then rest.tail else rest
    let name := rest.takeWhile (· != ':')
    match rest.drop name.length with
    | ':' :: ']' :: after =>
      if String.ofList name ∈ classNames then some (negated, after) else none
    | _ => none
  | _ => none

/-- How much of a set has been read. -/
inductive SetStart where
  /-- Nothing. -/
  | opened
  /-- Hyphens, which stand for themselves there. -/
  | hyphens
  /-- Other elements. -/
  | inside
  deriving DecidableEq

/-- What follows a set, of which some is read and which lies in `depth` others. -/
def scanSet (mode : Mode) : Nat → Nat → SetStart → List Char → Option (List Char)
  | 0, _, _, _ => none
  | fuel + 1, depth, start, text =>
    match mode.skip text with
    | [] => none
    | char :: rest =>
      if char = '-' ∧ start ≠ .inside then
        if mode.admitsInSet '-' then scanSet mode fuel depth .hyphens rest else none
      else if char = ']' ∧ start = .opened then
        if mode.admitsInSet ']' then scanSet mode fuel depth .inside rest else none
      else if char = ']' then
        match depth with
        | 0 => some rest
        | depth + 1 => scanSet mode fuel depth .inside rest
      else if char = '[' then
        match readClass? rest with
        | some (negated, rest) =>
          if mode.admitsInSet 'a' ∧ (mode.characters ∨ !negated) then
            scanSet mode fuel depth .inside rest
          else none
        | none =>
          match mode.skip rest with
          | '^' :: rest =>
            if mode.characters then scanSet mode fuel (depth + 1) .opened rest else none
          | rest => scanSet mode fuel (depth + 1) .opened rest
      else if char ∈ ['&', '-', '~'] ∧ rest.head? = some char then
        scanSet mode fuel depth .inside rest.tail
      else
        match readRange? mode (char :: rest) with
        | some rest => scanSet mode fuel depth .inside rest
        | none => none

def readSet? (mode : Mode) (text : List Char) : Option (List Char) :=
  match mode.skip text with
  | '^' :: rest => if mode.characters then scanSet mode (rest.length + 1) 0 .opened rest else none
  | rest => scanSet mode (rest.length + 1) 0 .opened rest

inductive Opening where
  /-- A change of mode up to the end of the group around it. -/
  | change (mode : Mode) (rest : List Char)
  /-- A group with a mode of its own, and a name if there is one. -/
  | group (mode : Mode) (name : Option (List Char)) (rest : List Char)

/-- Reads letters that change a mode, up to the colon of a group or to a closing parenthesis. Each
letter and the minus sign may be given once, and at least one letter follows the sign. -/
def readChange? (mode : Mode) (seen : List Char) : List Char → Option Opening
  | [] => none
  | char :: rest =>
    if char = ':' ∨ char = ')' then
      if seen.head? = some '-' ∨ (char = ')' ∧ seen.isEmpty) then none
      else some (if char = ':' then .group mode none rest else .change mode rest)
    else if char ∈ seen then none
    else
      let given := !seen.contains '-'
      let seen := char :: seen
      match char with
      | 'u' => readChange? { mode with characters := given } seen rest
      | 'i' => readChange? { mode with foldsCase := given } seen rest
      | 'x' => readChange? { mode with spaced := given } seen rest
      | 'm' | 's' | 'U' | 'R' | '-' => readChange? mode seen rest
      | _ => none

/-- Whether characters make the name of a group. -/
def isName : List Char → Bool
  | [] => false
  | first :: rest =>
    (first == '_' || isAlphabetic first) &&
      rest.all fun char => char ∈ ['_', '.', '[', ']'] || isAlphabetic char || isNumeric char

/-- Reads the name of a group behind its opening angle bracket. -/
def readName? (mode : Mode) (text : List Char) : Option Opening :=
  let name := text.takeWhile (· != '>')
  match text.drop name.length with
  | _ :: rest => if isName name then some (.group mode (some name) rest) else none
  | [] => none

def readOpening? (mode : Mode) (text : List Char) : Option Opening :=
  match mode.skip text with
  | '?' :: 'P' :: '<' :: rest => readName? mode rest
  | '?' :: '<' :: rest => readName? mode rest
  | '?' :: rest => readChange? mode [] rest
  | rest => some (.group mode none rest)

/-- Whether the rest of a pattern is well formed. The modes around the open groups and the names of
groups are given, and whether the rest may begin with a repetition. -/
def scan : Nat → Mode → List Mode → List (List Char) → Bool → List Char → Bool
  | 0, _, _, _, _, _ => false
  | fuel + 1, mode, groups, names, repeatable, text =>
    match mode.skip text with
    | [] => groups.isEmpty
    | '(' :: rest =>
      match readOpening? mode rest with
      | some (.change mode rest) => scan fuel mode groups names false rest
      | some (.group inner name rest) =>
        if name.any (names.contains ·) then false
        else scan fuel inner (mode :: groups) (name.toList ++ names) false rest
      | none => false
    | ')' :: rest =>
      match groups with
      | [] => false
      | outer :: groups => scan fuel outer groups names true rest
    | '|' :: rest => scan fuel mode groups names false rest
    | '[' :: rest =>
      match readSet? mode rest with
      | some rest => scan fuel mode groups names true rest
      | none => false
    | '\\' :: rest =>
      match readEscape? mode rest with
      | some (.literal char byByte, rest) =>
        mode.admits char byByte && scan fuel mode groups names true rest
      | some (_, rest) => scan fuel mode groups names true rest
      | none => false
    | '.' :: rest => mode.characters && scan fuel mode groups names true rest
    | '\x7b' :: _ => false
    | char :: rest =>
      if char ∈ ['*', '+', '?'] then
        repeatable &&
          scan fuel mode groups names true (if rest.head? = some '?' then rest.tail else rest)
      else if char ∈ ['^', '$'] then scan fuel mode groups names true rest
      else mode.admits char false && scan fuel mode groups names true rest

/-- Whether a text without a closing brace is a pattern. -/
def isWellFormed (text : List Char) : Bool := scan (text.length + 1) {} [] [] false text

end TreeManifest.Pattern
