import TreeManifest.Record.Write

/-!
# Manifests

A manifest is the text of a list of entries: one record on each line, and a newline at the end of
every line. A record contains no newline, so the lines tell the records apart.

## Main definitions

- `Manifest.render`: the text of a list of entries.
- `Manifest.lines?`: the lines of a text.
- `Manifest.parse`: the entries of a text.
-/

namespace TreeManifest.Manifest

def line (entry : Entry) : List Char := entry.render.toList ++ ['\n']

def render (entries : List Entry) : String := String.ofList (entries.flatMap line)

/-- The lines of a text, without their newlines. What stands behind the last newline is no line. -/
def lines? : List Char → Option (List (List Char))
  | [] => some []
  | '\n' :: rest => (lines? rest).map ([] :: ·)
  | char :: rest =>
    match lines? rest with
    | some (line :: lines) => some ((char :: line) :: lines)
    | _ => none

inductive Fault where
  | unterminated
  /-- The line of the given number, counted from one, is no record. -/
  | line (number : Nat) (fault : Json.Fault)

/-- Reads lines as records. `number` is the number of the first line. -/
def parseLines (number : Nat) : List (List Char) → Except Fault (List Entry)
  | [] => .ok []
  | line :: rest =>
    match Entry.parse (String.ofList line) with
    | .error fault => .error (.line number fault)
    | .ok entry => (parseLines (number + 1) rest).map (entry :: ·)

def parse (text : String) : Except Fault (List Entry) :=
  match lines? text.toList with
  | none => .error .unterminated
  | some lines => parseLines 1 lines

def Fault.message : Fault → String
  | .unterminated => "the manifest ends within a line"
  | .line number fault =>
    "line " ++ toString number ++ " of the manifest: " ++
      match fault with
      | .unfit cause => cause.message
      | .malformed => "malformed record"
      | .truncated => "truncated record"

end TreeManifest.Manifest
