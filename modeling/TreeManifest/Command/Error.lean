import TreeManifest.Command.Switch

/-!
# Misuse of the command line

## Main definitions

- `Command.UsageError`: what can be wrong with a command line.
- `Command.UsageError.message`: the wording.
-/

namespace TreeManifest.Command

/-- What can be wrong with the text of a number. -/
inductive NumberError where
  | empty
  | invalidDigit
  | tooLarge
  deriving DecidableEq

def NumberError.message : NumberError → String
  | .empty => "cannot parse integer from empty string"
  | .invalidDigit => "invalid digit found in string"
  | .tooLarge => "number too large to fit in target type"

/-- The call that a message recommends. -/
inductive UsageHint where
  /-- The call in general. -/
  | general
  /-- The call with some switches. -/
  | specific (switches : List Switch)
  deriving DecidableEq

def UsageHint.text : UsageHint → String
  | .general => usage
  | .specific switches => usageWith switches

inductive UsageError where
  /-- An argument that has no place. `similar` is a switch that may be meant, and `escapable` tells
  whether the argument has a place behind two dashes. -/
  | unexpected (argument : String) (similar : Option Switch) (escapable : Bool) (hint : UsageHint)
  /-- A value for a switch that takes none. -/
  | unneededValue (switch : Switch) (value : String) (hint : UsageHint)
  | missingValue (switch : Switch)
  /-- A switch with a value that is no number. -/
  | invalidNumber (switch : Switch) (value : String) (cause : NumberError)
  /-- A number that is no text. -/
  | invalidText
  | repeated (switch : Switch)
  | missingDirectory (hint : UsageHint)
  deriving DecidableEq

namespace UsageError

def problem : UsageError → String
  | .unexpected argument .. => "unexpected argument '" ++ argument ++ "' found"
  | .unneededValue switch value _ =>
    "unexpected value '" ++ value ++ "' for '" ++ switch.shown ++ "' found; no more were expected"
  | .missingValue switch =>
    "a value is required for '" ++ switch.shown ++ "' but none was supplied"
  | .invalidNumber switch value cause =>
    "invalid value '" ++ value ++ "' for '" ++ switch.shown ++ "': " ++ cause.message
  | .invalidText => "invalid UTF-8 was detected in one or more arguments"
  | .repeated switch => "the argument '" ++ switch.shown ++ "' cannot be used multiple times"
  | .missingDirectory _ =>
    "the following required arguments were not provided:\n  " ++ directoryName

def tips : UsageError → List String
  | .unexpected argument similar escapable _ =>
    (similar.toList.map fun switch => "a similar argument exists: '--" ++ switch.long ++ "'") ++
      if escapable then ["to pass '" ++ argument ++ "' as a value, use '-- " ++ argument ++ "'"]
      else []
  | _ => []

/-- The recommended call. An unfit value says enough by itself. -/
def hint? : UsageError → Option UsageHint
  | .unexpected _ _ _ hint | .unneededValue _ _ hint | .missingDirectory hint => some hint
  | .invalidText | .repeated _ => some .general
  | .missingValue _ | .invalidNumber .. => none

def message (error : UsageError) : String :=
  let tips := error.tips.map fun tip => "\n  tip: " ++ tip
  "error: " ++ error.problem ++ (if tips.isEmpty then "" else "\n" ++ String.join tips) ++
    error.hint?.elim "" (fun hint => "\n\n" ++ hint.text) ++
    "\n\nFor more information, try '--" ++ Switch.help.long ++ "'.\n"

end UsageError

end TreeManifest.Command
