/-!
# The command line

The command takes the directory to walk and a few switches, some of which have a short name and two
of which take a number.

## Main definitions

- `Command.Switch`: the switches.
- `Command.usage`, `Command.help`: how the command is called.
-/

namespace TreeManifest.Command

def name : String := "dupluxy-dump"

/-- What stands for the directory to walk. -/
def directoryName : String := "<DIR>"

inductive Switch where
  | workers
  | capacity
  | excludeByAttribute
  | noAttributes
  | noHardlinks
  | summary
  | help
  deriving DecidableEq

namespace Switch

/-- The switches in the order in which they are described. -/
def all : List Switch :=
  [.workers, .capacity, .excludeByAttribute, .noAttributes, .noHardlinks, .summary, .help]

/-- The name of a switch. -/
def long : Switch → String
  | .workers => "workers"
  | .capacity => "capacity"
  | .excludeByAttribute => "exclude-by-attribute"
  | .noAttributes => "no-attributes"
  | .noHardlinks => "no-hardlinks"
  | .summary => "summary"
  | .help => "help"

def short? : Switch → Option Char
  | .workers => some 'j'
  | .excludeByAttribute => some 'x'
  | .help => some 'h'
  | _ => none

/-- Whether a number follows a switch. -/
def takesNumber : Switch → Bool
  | .workers | .capacity => true
  | _ => false

def description : Switch → String
  | .workers => "Number of listing threads (default: available parallelism)."
  | .capacity => "Bound of the entry channel between workers and collector."
  | .excludeByAttribute => "Skip objects carrying the backup exclusion marker."
  | .noAttributes => "Do not capture extended attributes or flag words."
  | .noHardlinks => "Treat every hardlink as an independent file."
  | .summary => "Print walk counters to stderr when done."
  | .help => "Print help"

/-- A switch as messages show it. -/
def shown (switch : Switch) : String :=
  "--" ++ switch.long ++ if switch.takesNumber then " <N>" else ""

/-- A switch with its short name in front. -/
def entry (switch : Switch) : String :=
  (match switch.short? with
    | some char => "-" ++ char.toString ++ ", "
    | none => "    ") ++ switch.shown

def ofLong? (text : String) : Option Switch := all.find? (·.long == text)

def ofShort? (char : Char) : Option Switch := all.find? (·.short? == some char)

end Switch

def usage : String := "Usage: " ++ name ++ " [OPTIONS] " ++ directoryName

def usageWith (switches : List Switch) : String :=
  " ".intercalate (("Usage: " ++ name) :: switches.map Switch.shown ++ [directoryName])

/-- Fills a text with blanks up to a width. -/
def fill (width : Nat) (text : String) : String :=
  text ++ String.ofList (List.replicate (width - text.length) ' ')

def Switch.line (switch : Switch) : String :=
  let width := (Switch.all.map fun other => other.entry.length).foldl max 0
  "  " ++ fill width switch.entry ++ "  " ++ switch.description ++ "\n"

def help : String :=
  "Walk a directory tree and print its entries in canonical order.\n\n" ++ usage ++
    "\n\nArguments:\n  " ++ directoryName ++ "  Directory to walk.\n\nOptions:\n" ++
    String.join (Switch.all.map Switch.line)

end TreeManifest.Command
