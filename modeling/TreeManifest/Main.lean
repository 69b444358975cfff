import TreeManifest.Command
import TreeManifest.Manifest.View

/-!
# The program

The program runs the command on a tree that standard input describes as a manifest, and writes what
the command leaves behind.

## Main definitions

- `main`: the program.
-/

namespace TreeManifest.Command

partial def readLines (input : IO.FS.Stream) (text : String) : IO String := do
  let line ← input.getLine
  if line.isEmpty then return text else readLines input (text ++ line)

/-- What the command finds when it is called on a manifest. -/
def surroundings (entries : List Entry) (logFilter : Option String) (time : String) :
    Surroundings where
  view := Manifest.view entries
  privilege := .privileged
  processors := 1
  logFilter
  time
  fuel := Walk.enoughSteps entries.length

/-- Reads a manifest, unless the command line asks for nothing but a message, and runs the command
on it. -/
def runOnInput (arguments : List Bytes) : IO Report := do
  match Request.read arguments with
  | .error error => return ⟨.failed, "", error.message⟩
  | .ok request =>
    if request = .help then return ⟨.complete, help, ""⟩
    let text ← readLines (← IO.getStdin) ""
    match Manifest.parse text with
    | .error fault => return ⟨.failed, "", diagnostic fault.message⟩
    | .ok entries =>
      let logFilter ← IO.getEnv ({} : Log.Config).variableName
      let time := toString (← IO.monoMsNow)
      return answer (surroundings entries logFilter time) request

end TreeManifest.Command

def main (arguments : List String) : IO UInt32 := do
  let report ← TreeManifest.Command.runOnInput (arguments.map TreeManifest.Bytes.ofString)
  IO.print report.output
  IO.eprint report.diagnostics
  return report.status.code.toUInt32
