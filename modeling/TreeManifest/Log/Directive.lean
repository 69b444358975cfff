import TreeManifest.Log.Event
import TreeManifest.Log.Field

/-!
# Directives of log filters

A directive lets the reports of some targets pass up to some verbosity. It is written as a level
alone, a target alone, or a target with a level. Brackets after the target can name a span and, in
braces, a field.

## Main definitions

- `Log.Verbosity`: how much a directive lets pass.
- `Log.Directive`, `Log.Directive.parse?`, `Log.Directive.render`: directives and their written
  form.
- `Log.Directive.compare`: the order from the most to the least specific directive.
- `Log.Directive.covers`: the reports that a directive decides about.

## Design notes

The parts of a directive are found in its text without the white space around it, and cut from the
text with that space at the same places, counted in bytes. A target or level that stands alone thus
keeps the space, and a directive with other parts is hardly ever well formed if space precedes it.
-/

namespace TreeManifest.Log

/-- How much a directive lets pass: nothing, or everything up to a level. -/
inductive Verbosity where
  | off
  | upTo (level : Level)
  deriving DecidableEq

namespace Verbosity

def all : List Verbosity :=
  [.off, .upTo .error, .upTo .warn, .upTo .info, .upTo .debug, .upTo .trace]

def name : Verbosity → String
  | .off => "off"
  | .upTo .error => "error"
  | .upTo .warn => "warn"
  | .upTo .info => "info"
  | .upTo .debug => "debug"
  | .upTo .trace => "trace"

def rank : Verbosity → Nat
  | .off => 0
  | .upTo level => level.verbosity

/-- The number that decimal digits write, with an optional plus sign in front. -/
def number? (text : List Char) : Option Nat :=
  let digits := if text.head? == some '+' then text.tail else text
  if digits.isEmpty || !digits.all Char.isDigit then none else some (Decimal.value digits)

def parse? (text : List Char) : Option Verbosity :=
  match number? text with
  | some rank => all.find? (·.rank == rank)
  | none =>
    if text.isEmpty then some (.upTo .error)
    else all.find? fun verbosity => verbosity.name.toList == text.map Char.toLower

end Verbosity

structure Directive where
  /-- What the target of a report must start with. -/
  target : Option String
  /-- The span in which a report must have been made. -/
  span : Option String
  field : Option FieldMatch
  verbosity : Verbosity
  deriving DecidableEq

namespace Directive

def plain (verbosity : Verbosity) : Directive := ⟨none, none, none, verbosity⟩

def hasBrackets (directive : Directive) : Bool :=
  directive.span.isSome || directive.field.isSome

/-- Whether a directive can be decided without looking at spans or values. -/
def isStatic (directive : Directive) : Bool :=
  directive.span.isNone && directive.field.all fun field => field.value.isNone

def render (directive : Directive) : String :=
  let braces := directive.field.elim "" fun field => "\x7b" ++ field.render ++ "\x7d"
  let brackets :=
    if directive.hasBrackets then "[" ++ directive.span.getD "" ++ braces ++ "]" else ""
  let scope := directive.target.getD "" ++ brackets
  (if directive.target.isSome || directive.hasBrackets then scope ++ "=" else "") ++
    directive.verbosity.name

def byteCount (text : List Char) : Nat := text.foldl (fun count char => count + char.utf8Size) 0

def dropBytes : Nat → List Char → List Char
  | 0, text => text
  | _, [] => []
  | count, char :: rest => dropBytes (count - char.utf8Size) rest

/-- The characters that begin in the first bytes of a text. -/
def takeBytes : Nat → List Char → List Char
  | 0, _ => []
  | _, [] => []
  | count, char :: rest => char :: takeBytes (count - char.utf8Size) rest

def cut (text : List Char) (start stop : Nat) : List Char :=
  takeBytes (stop - start) (dropBytes start text)

def trim (text : List Char) : List Char :=
  ((text.dropWhile isWhiteSpace).reverse.dropWhile isWhiteSpace).reverse

/-- Whether a directive may begin with a character. -/
def canStart (char : Char) : Bool :=
  isAlphabetic char || isNumeric char || char ∈ ['-', ':', '_', '[']

/-- The verbosity after an equals sign, where nothing stands for all. -/
def verbosityAfter? (text : List Char) : Option Verbosity :=
  if text.isEmpty then some (.upTo .trace) else Verbosity.parse? text

/-- Reads a directive that consists of a target or a level. -/
def parseBare (text : List Char) : Directive :=
  match Verbosity.parse? text with
  | some verbosity => plain verbosity
  | none => ⟨some (String.ofList text), none, none, .upTo .trace⟩

/-- What brackets hold, and the place behind them with what is found there. -/
structure Brackets where
  span : Option String
  field : Option FieldMatch
  stop : Nat
  rest : List Char

/-- Reads brackets, given what is found behind the opening one and its place. Only a field lets the
span be left out. -/
def parseBrackets? (text : List Char) (start : Nat) (found : List Char) : Option Brackets :=
  let name := found.takeWhile fun char => char != ']' && char != '\x7b'
  let nameStop := start + byteCount name
  let span := String.ofList (cut text start nameStop)
  match found.drop name.length with
  | ']' :: rest => some ⟨some span, none, nameStop + 1, rest⟩
  | '\x7b' :: found =>
    let asked := found.takeWhile (· != '\x7d')
    let askedStop := nameStop + 1 + byteCount asked
    match found.drop asked.length with
    | '\x7d' :: ']' :: rest =>
      if asked.isEmpty then none
      else
        (FieldMatch.parse? (cut text (nameStop + 1) askedStop)).map fun field =>
          ⟨if span.isEmpty then none else some span, some field, askedStop + 2, rest⟩
    | _ => none
  | _ => none

def parse? (text : List Char) : Option Directive :=
  let found := trim text
  if !found.head?.any canStart then none
  else
    let scope := found.takeWhile fun char => char != '=' && char != '['
    let stop := byteCount scope
    let target := String.ofList (cut text 0 stop)
    match found.drop scope.length with
    | [] => some (parseBare text)
    | '[' :: rest => do
      let brackets ← parseBrackets? text (stop + 1) rest
      let verbosity ←
        match brackets.rest with
        | [] => some (.upTo .trace)
        | '=' :: _ => verbosityAfter? (dropBytes (brackets.stop + 1) text)
        | _ => none
      let target := if scope.isEmpty then none else some target
      return ⟨target, brackets.span, brackets.field, verbosity⟩
    | _ =>
      (verbosityAfter? (dropBytes (stop + 1) text)).map fun verbosity =>
        ⟨some target, none, none, verbosity⟩

/-- The order of what two directives ask of a field. -/
def compareFields : Option FieldMatch → Option FieldMatch → Ordering
  | some a, some b => a.compare b
  | a, b => Ord.compare a.isSome b.isSome

/-- The order from the most to the least specific directive: longer targets first, then those with a
span, then those with a field, and last by the descending order of target, span and field. -/
def compare (a b : Directive) : Ordering :=
  ((Ord.compare (b.target.map String.utf8ByteSize) (a.target.map String.utf8ByteSize)).then
    ((Ord.compare b.span.isSome a.span.isSome).then
      (Ord.compare b.field.isSome a.field.isSome))).then
    ((Ord.compare b.target a.target).then
      ((Ord.compare b.span a.span).then (compareFields b.field a.field)))

/-- Whether a directive decides about the reports of a target, each of which has a message and no
other field. -/
def covers (directive : Directive) (target : String) : Bool :=
  directive.isStatic && directive.field.all (·.name == "message") &&
    directive.target.all fun start => start.toList.isPrefixOf target.toList

end Directive

end TreeManifest.Log
