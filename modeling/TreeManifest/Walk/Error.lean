import TreeManifest.Order.Sorted
import TreeManifest.System.IoError

/-!
# Failures of a walk

## Main definitions

- `WalkError`: what can fail.
- `WalkError.isFatal`: the failures that end a walk.
- `WalkError.message`: the wording.
-/

namespace TreeManifest

inductive WalkError where
  /-- The root cannot be opened or is not a directory. -/
  | root (path : Path) (source : IoError)
  | readDirectory (path : Path) (source : IoError)
  /-- Nobody takes the entries of a directory any more. -/
  | channelClosed (path : Path)
  /-- The entries do not form a canonical list. -/
  | order (path : Path) (source : OrderError)
  deriving DecidableEq

namespace WalkError

def path : WalkError → Path
  | .root path _ | .readDirectory path _ | .channelClosed path | .order path _ => path

/-- Whether a failure ends the walk. A directory that cannot be listed is passed over. -/
def isFatal : WalkError → Bool
  | .root .. | .order .. => true
  | .readDirectory .. | .channelClosed .. => false

/-- Whether a failure ends the work of all workers. -/
def stopsWorkers : WalkError → Bool
  | .root .. | .order .. | .channelClosed .. => true
  | .readDirectory .. => false

def sourceMessage : WalkError → Option String
  | .root _ source | .readDirectory _ source => some source.message
  | .order _ source => some source.message
  | .channelClosed _ => none

def message : WalkError → String
  | .root path source =>
    "failed to open walk root '" ++ Utf8.lossy path ++ "': " ++ source.message
  | .readDirectory path source =>
    "failed to read directory '" ++ Utf8.lossy path ++ "': " ++ source.message
  | .channelClosed path =>
    "entry receiver went away while listing '" ++ Utf8.lossy path ++ "'"
  | .order path source =>
    "unordered result walking '" ++ Utf8.lossy path ++ "': " ++ source.message

end WalkError

end TreeManifest
