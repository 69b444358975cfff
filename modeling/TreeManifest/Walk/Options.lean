import TreeManifest.Flags

/-!
# Options of a walk

## Main definitions

- `ListOptions`: what is captured of the objects in a directory.
- `WalkConfig`: how many workers list directories, and how many entries may be under way.
-/

namespace TreeManifest

structure ListOptions where
  /-- Whether marked objects are left out, with everything beneath them. -/
  excludeByAttribute : Bool := false
  /-- Whether extended attributes and flag words are captured. -/
  readAttributes : Bool := true
  /-- Whether further names of an object become links to the first one. -/
  trackHardlinks : Bool := true
  /-- The privilege that decides which attributes are captured. -/
  privilege : Privilege := .unprivileged
  deriving DecidableEq

/-- The course of a walk. There is always a worker, and always room for an entry. -/
structure WalkConfig where
  workers : Nat
  /-- The number of entries that may be on their way to the collector. -/
  capacity : Nat
  workers_pos : 0 < workers
  capacity_pos : 0 < capacity
  deriving DecidableEq

namespace WalkConfig

/-- The capacity for the case that none is asked for. -/
def defaultCapacity : Nat := 1024

/-- The configuration with one worker for each of the given processors. -/
def ofProcessors (processors : Nat) : WalkConfig where
  workers := max processors 1
  capacity := defaultCapacity
  workers_pos := by omega
  capacity_pos := by decide

/-- Sets the number of workers, where zero counts as one. -/
def setWorkers (config : WalkConfig) (workers : Nat) : WalkConfig :=
  { config with workers := max workers 1, workers_pos := by omega }

/-- Sets the capacity, where zero counts as one. -/
def setCapacity (config : WalkConfig) (capacity : Nat) : WalkConfig :=
  { config with capacity := max capacity 1, capacity_pos := by omega }

end WalkConfig

end TreeManifest
