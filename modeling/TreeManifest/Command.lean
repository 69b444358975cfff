import TreeManifest.Command.Arguments
import TreeManifest.Log.Filter
import TreeManifest.Manifest
import TreeManifest.Walk

/-!
# The command

The command walks a directory and prints its manifest. What goes wrong is told on a second channel,
and the exit status sums it up.

## Main definitions

- `Command.Surroundings`: what the command finds when it is called.
- `Command.Report`: what it leaves behind.
- `Command.run`: one call.
-/

namespace TreeManifest.Command

/-- What the command finds when it is called. -/
structure Surroundings where
  view : Snapshot
  privilege : Privilege
  processors : Nat
  /-- The filter for reports, if one is set. -/
  logFilter : Option String
  time : String
  /-- The number of steps that a walk with some workers may take. -/
  fuel : WalkConfig → Nat

inductive Status where
  /-- Every entry was captured. -/
  | complete
  /-- The command line is wrong, or there was no walk at all. -/
  | failed
  /-- Some directories could not be listed. -/
  | incomplete
  deriving DecidableEq

def Status.code : Status → UInt8
  | .complete => 0
  | .failed => 1
  | .incomplete => 3

structure Report where
  status : Status
  output : String
  diagnostics : String
  deriving DecidableEq

namespace Arguments

def options (arguments : Arguments) (privilege : Privilege) : ListOptions where
  excludeByAttribute := .excludeByAttribute ∈ arguments.given
  readAttributes := .noAttributes ∉ arguments.given
  trackHardlinks := .noHardlinks ∉ arguments.given
  privilege

/-- The course of the walk. -/
def config (arguments : Arguments) (processors : Nat) : WalkConfig :=
  let config := (WalkConfig.ofProcessors processors).setCapacity
    (arguments.capacity.getD WalkConfig.defaultCapacity)
  arguments.workers.elim config config.setWorkers

end Arguments

def diagnostic (text : String) : String := name ++ ": " ++ text ++ "\n"

def counters (outcome : WalkOutcome) : String :=
  s!"{outcome.stats.directories} directories, {outcome.entries.length} entries, " ++
    s!"{outcome.stats.listing.excluded} excluded, " ++
    s!"{outcome.stats.listing.skipped.length} skipped"

/-- The lines of those reports that pass the filter. -/
def logLines (surroundings : Surroundings) (events : List Log.Event) : String :=
  let config : Log.Config := {}
  let filter := config.filter surroundings.logFilter
  String.join ((events.filter filter.enables).map (config.line surroundings.time))

/-- Walks the directory of well-formed arguments. -/
def dump (surroundings : Surroundings) (arguments : Arguments) : Report :=
  let config := arguments.config surroundings.processors
  let lister := Lister.native arguments.directory (arguments.options surroundings.privilege)
    surroundings.view
  let execution := Walk.execute lister config (surroundings.fuel config)
  let log := logLines surroundings (execution.workerEvents ++ execution.events)
  match execution.result with
  | .error error => ⟨.failed, "", log ++ diagnostic error.message⟩
  | .ok outcome => {
      status := if outcome.errors.isEmpty then .complete else .incomplete
      output := Manifest.render outcome.entries
      diagnostics := log ++
        String.join (outcome.errors.map fun error => diagnostic error.message) ++
        if .summary ∈ arguments.given then diagnostic (counters outcome) else "" }

def answer (surroundings : Surroundings) : Request → Report
  | .help => ⟨.complete, help, ""⟩
  | .dump arguments => dump surroundings arguments

def run (surroundings : Surroundings) (arguments : List Bytes) : Report :=
  match Request.read arguments with
  | .error error => ⟨.failed, "", error.message⟩
  | .ok request => answer surroundings request

end TreeManifest.Command
