import TreeManifest.Bytes
import TreeManifest.Command.Error
import TreeManifest.Decimal
import TreeManifest.Text.Similarity
import TreeManifest.Text.Utf8

/-!
# Reading the command line

Arguments are read one after the other. A switch with two dashes has its value behind an equals sign
or in the next argument; switches with one dash can be joined, and what follows a joined switch that
takes a number is its value. Behind two dashes alone there are no switches.

## Main definitions

- `Command.Arguments`: what a well-formed command line asks for.
- `Command.Request`: a walk, or the description of the command.
- `Command.Request.read`: the reading.

## Design notes

An argument is examined when the next one is reached, so of two faults the later one can be met
first. `Reading.waiting` is the argument that is not examined yet.
-/

namespace TreeManifest.Command

/-- What a well-formed command line asks for. -/
structure Arguments where
  directory : Bytes
  workers : Option Nat
  capacity : Option Nat
  /-- The switches that occur. -/
  given : List Switch
  deriving DecidableEq

inductive Request where
  | help
  | dump (arguments : Arguments)
  deriving DecidableEq

/-- The largest number that a switch takes. -/
def numberLimit : Nat := Nat.pow 2 64 - 1

def appendDigits (value : Nat) : List Char → Except NumberError Nat
  | [] => .ok value
  | char :: rest =>
    if !char.isDigit then .error .invalidDigit
    else
      let next := value * 10 + Decimal.digitValue char
      if next > numberLimit then .error .tooLarge else appendDigits next rest

/-- Reads a number. A plus sign may stand in front. -/
def readNumber : List Char → Except NumberError Nat
  | [] => .error .empty
  | '+' :: digits => if digits.isEmpty then .error .invalidDigit else appendDigits 0 digits
  | digits => appendDigits 0 digits

/-- How similar a switch must be in order to be suggested. -/
def similarityLimit : Rat := 7 / 10

/-- The more similar of two suggestions, the later one if they are equally similar. -/
def better (text : List Char) (best : Option Switch) (switch : Switch) : Option Switch :=
  let score := Similarity.score text switch.long.toList
  match best with
  | none => if similarityLimit < score then some switch else none
  | some other =>
    if Similarity.score text other.long.toList ≤ score then some switch else some other

/-- The switch that may be meant by an unknown name. -/
def similarSwitch? (text : String) : Option Switch :=
  Switch.all.foldl (better text.toList) none

/-- An argument that is not examined yet. -/
inductive Waiting where
  | directory (value : Bytes)
  | switch (switch : Switch) (value : Option Bytes)
  deriving DecidableEq

/-- What has been read of a command line. -/
structure Reading where
  directory : Option Bytes := none
  workers : Option Nat := none
  capacity : Option Nat := none
  /-- The switches that occurred, in order. -/
  given : List Switch := []
  waiting : Option Waiting := none
  /-- Whether there are no more switches. -/
  literal : Bool := false

namespace Reading

def note (reading : Reading) (switch : Switch) : Except UsageError Reading :=
  if switch ∈ reading.given then .error (.repeated switch)
  else .ok { reading with given := reading.given ++ [switch] }

def keepNumber (reading : Reading) (switch : Switch) (number : Nat) : Reading :=
  match switch with
  | .workers => { reading with workers := some number }
  | .capacity => { reading with capacity := some number }
  | _ => reading

def noteNumber (reading : Reading) (switch : Switch) (value : Option Bytes) :
    Except UsageError Reading :=
  match value with
  | none => .error (.missingValue switch)
  | some bytes => do
    let reading ← reading.note switch
    match Utf8.ofBytes? bytes with
    | none => .error .invalidText
    | some text =>
      match readNumber text.toList with
      | .error cause => .error (.invalidNumber switch text cause)
      | .ok number => .ok (reading.keepNumber switch number)

def settle (reading : Reading) : Except UsageError Reading :=
  let settled := { reading with waiting := none }
  match reading.waiting with
  | none => .ok settled
  | some (.directory value) => .ok { settled with directory := some value }
  | some (.switch switch value) => settled.noteNumber switch value

/-- The switches that a message counts as given. A waiting one with a value counts, unless it occurs
twice. -/
def mentioned (reading : Reading) : List Switch :=
  match reading.waiting with
  | some (.switch switch (some _)) =>
    if switch ∈ reading.given then reading.given.erase switch else reading.given ++ [switch]
  | _ => reading.given

def hasDirectory (reading : Reading) : Bool :=
  reading.directory.isSome ||
    match reading.waiting with
    | some (.directory _) => true
    | _ => false

/-- Adds a switch to others that do not contain it. -/
def including (switches : List Switch) (switch : Switch) : List Switch :=
  if switch ∈ switches then switches else switches ++ [switch]

def unknownLong (reading : Reading) (text : String) : UsageError :=
  let similar := similarSwitch? text
  let switches := similar.elim reading.mentioned (including reading.mentioned)
  .unexpected ("--" ++ text) similar similar.isNone
    (if switches.isEmpty && !reading.hasDirectory then .general else .specific switches)

/-- Reads a switch that stands alone, or `none` for the request of a description. -/
def takeSwitch (reading : Reading) (switch : Switch) : Except UsageError (Option Reading) := do
  let reading ← reading.settle
  if switch = .help then return none else return some (← reading.note switch)

/-- Reads a switch that takes a number. A value may be attached or follow. -/
def takeNumber (reading : Reading) (switch : Switch) (attached : Option Bytes) :
    Except UsageError Reading := do
  let reading ← reading.settle
  match attached with
  | some value => reading.noteNumber switch (some value)
  | none => return { reading with waiting := some (.switch switch none) }

/-- The byte between a switch and its value. -/
def equalsSign : UInt8 := 0x3D

/-- Reads what follows two dashes. -/
def takeLong (reading : Reading) (body : Bytes) : Except UsageError (Option Reading) := do
  let text := Utf8.lossy (body.takeWhile (· != equalsSign))
  let attached := (body.dropWhile (· != equalsSign)).tail?
  match Switch.ofLong? text with
  | none => .error (reading.unknownLong text)
  | some switch =>
    if switch.takesNumber then return some (← reading.takeNumber switch attached)
    else
      match attached with
      | some value =>
        .error (.unneededValue switch (Utf8.lossy value)
          (.specific (including reading.given switch)))
      | none => reading.takeSwitch switch

def takeShort (reading : Reading) (body : Bytes) : Except UsageError (Option Reading) :=
  match body with
  | [] => .ok (some reading)
  | byte :: tail =>
    match (Utf8.next byte tail).1 with
    | none => .error (.unexpected ("-" ++ Utf8.lossy (byte :: tail)) none true .general)
    | some char =>
      let rest := (Utf8.next byte tail).2
      match Switch.ofShort? char with
      | none => .error (.unexpected ("-" ++ char.toString) none true .general)
      | some switch =>
        if switch.takesNumber then
          let attached :=
            if rest.isEmpty then none
            else if rest.head? = some equalsSign then rest.tail?
            else some rest
          (reading.takeNumber switch attached).map some
        else
          match reading.takeSwitch switch with
          | .ok (some reading) => takeShort reading rest
          | answer => answer
termination_by body.length
decreasing_by
  simp only [List.length_cons]
  exact Nat.lt_succ_of_le (Utf8.next_length_le byte tail)

/-- Reads an argument that is no switch: the directory, of which there is one only. -/
def takeDirectory (reading : Reading) (argument : Bytes) : Except UsageError Reading := do
  if reading.hasDirectory then
    .error (.unexpected (Utf8.lossy argument) none false .general)
  else
    let reading ← reading.settle
    return { reading with waiting := some (.directory argument) }

def take (reading : Reading) (argument : Bytes) : Except UsageError (Option Reading) :=
  if reading.literal then (reading.takeDirectory argument).map some
  else
    match argument with
    | [0x2D, 0x2D] => .ok (some { reading with literal := true })
    | 0x2D :: 0x2D :: body => reading.takeLong body
    | 0x2D :: byte :: body => reading.takeShort (byte :: body)
    | _ =>
      match reading.waiting with
      | some (.switch switch none) =>
        .ok (some { reading with waiting := some (.switch switch (some argument)) })
      | _ => (reading.takeDirectory argument).map some

def takeAll (reading : Reading) : List Bytes → Except UsageError Request
  | [] => do
    let reading ← reading.settle
    match reading.directory with
    | some directory =>
      return .dump ⟨directory, reading.workers, reading.capacity, reading.given⟩
    | none => .error (.missingDirectory (.specific reading.given))
  | argument :: rest => do
    match ← reading.take argument with
    | some reading => takeAll reading rest
    | none => return .help

end Reading

def Request.read (arguments : List Bytes) : Except UsageError Request :=
  Reading.takeAll {} arguments

end TreeManifest.Command
